import JobFleet.Http.Request

/-!
# Whom a request is counted against

The client of a request is the peer of its socket, unless the peer is a trusted proxy: then the
forwarding header is read from its last hop to its first, past other trusted proxies, and the
first other address is the client. A hop that is no address ends the walk, and the peer stands.
Header lines that are not readable as text are left out.
-/

namespace JobFleet.Http

/-- The name of the forwarding header. -/
def forwardingHeader : String := "x-forwarded-for"

/-- The hops of the forwarding header, in order. -/
def hops (lines : List String) : List String := (lines.filter readable).flatMap (Text.split ',')

/-- The first address that is not trusted, if trusted ones alone come before it. -/
def firstUntrusted (trusted : List Net.Address) : List String → Option Net.Address
  | [] => none
  | hop :: rest =>
      match Net.Address.read? (Text.trim hop) with
      | some a => if trusted.contains a then firstUntrusted trusted rest else some a
      | none => none

/-- The address that a request is counted against; absent only if the peer is. -/
def clientAddress (trusted : List Net.Address) (peer : Option Net.Address)
    (lines : List String) : Option Net.Address :=
  match peer with
  | none => none
  | some p =>
      if trusted.contains p then
        match firstUntrusted trusted (hops lines).reverse with
        | some a => some a
        | none => some p
      else some p

/-- An untrusted peer is the client, whatever its lines say. -/
theorem clientAddress_untrusted {trusted : List Net.Address} {p : Net.Address}
    (h : trusted.contains p = false) (lines : List String) :
    clientAddress trusted (some p) lines = some p := by
  simp only [clientAddress, h, Bool.false_eq_true, if_false]

end JobFleet.Http
