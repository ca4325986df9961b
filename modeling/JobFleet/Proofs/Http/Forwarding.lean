import JobFleet.Http.ClientAddress

/-!
# Whose word counts for a client's address

The lines of the forwarding header tell hops, and a line that is not readable tells one that nobody
can read. The client of a request that comes from a trusted proxy is the nearest hop that is an
address outside the trusted ones, if every hop after it is trusted. What stands before that hop was
written by whoever was not trusted, and does not matter, as long as every line is readable.
-/

namespace JobFleet.Http

/-- A hop that the forwarding header tells: a text without blanks at its ends, or a whole line that
is not readable. -/
inductive Hop
  | text (s : String)
  | garbled
deriving DecidableEq, Repr

namespace Hop

/-- The address that a hop is read as, if it is one. -/
def address? : Hop → Option Net.Address
  | .text s => Net.Address.read? s
  | .garbled => none

/-- A hop is a trusted address. -/
def Trusted (trusted : List Net.Address) (h : Hop) : Prop := ∃ a ∈ trusted, h.address? = some a

instance (trusted : List Net.Address) (h : Hop) : Decidable (h.Trusted trusted) :=
  inferInstanceAs (Decidable (∃ a ∈ trusted, h.address? = some a))

/-- Whether a hop is a text. -/
def legible : Hop → Bool
  | .text _ => true
  | .garbled => false

end Hop

/-- What a part of a header line tells. -/
def Hop.ofPart (part : String) : Hop := .text (Text.trim part)

/-- The hops that a header line tells. -/
def lineHops (line : String) : List Hop :=
  if readable line then (Text.split ',' line).map .ofPart else [.garbled]

/-- The hops that the lines of the forwarding header tell, in order. -/
def toldHops (lines : List String) : List Hop := lines.flatMap lineHops

/-- The hop at a place is an address that is not trusted, and every hop after it is a trusted
address. -/
structure Nearest (trusted : List Net.Address) (hops : List Hop) (i : Nat) (a : Net.Address) :
    Prop where
  hop : hops[i]?.bind Hop.address? = some a
  untrusted : a ∉ trusted
  after : ∀ h ∈ hops.drop (i + 1), h.Trusted trusted

variable {trusted : List Net.Address} {p : Net.Address} {lines : List String}

/-! ## The nearest hop -/

namespace Nearest

variable {hops : List Hop} {i j : Nat} {a b : Net.Address}

/-- The nearest client is one of the hops. -/
theorem lt (h : Nearest trusted hops i a) : i < hops.length := by
  obtain ⟨hop, hhop, -⟩ := Option.bind_eq_some_iff.mp h.hop
  exact (List.getElem?_eq_some_iff.mp hhop).1

/-- After the nearest hop there is none that is not trusted. -/
theorem le (h : Nearest trusted hops i a) (h' : Nearest trusted hops j b) : j ≤ i := by
  apply Nat.le_of_not_lt
  intro hlt
  obtain ⟨hop, hhop, hb⟩ := Option.bind_eq_some_iff.mp h'.hop
  have hmem : hop ∈ hops.drop (i + 1) := by
    rw [List.mem_iff_getElem?]
    refine ⟨j - (i + 1), ?_⟩
    rw [List.getElem?_drop, show i + 1 + (j - (i + 1)) = j by omega]
    exact hhop
  obtain ⟨c, hc, hread⟩ := h.after hop hmem
  rw [hb] at hread
  cases hread
  exact h'.untrusted hc

/-- The nearest hop stands in one place. -/
theorem unique (h : Nearest trusted hops i a) (h' : Nearest trusted hops j b) : j = i ∧ b = a := by
  obtain rfl : j = i := Nat.le_antisymm (h.le h') (h'.le h)
  have hsame := h.hop
  rw [h'.hop] at hsame
  cases hsame
  exact ⟨rfl, rfl⟩

end Nearest

/-- The nearest hop is the last one, or the last one is trusted and it is the nearest one before. -/
theorem nearest_snoc {hops : List Hop} {h : Hop} {i : Nat} {a : Net.Address} :
    Nearest trusted (hops ++ [h]) i a ↔
      (i = hops.length ∧ h.address? = some a ∧ a ∉ trusted) ∨
        (h.Trusted trusted ∧ Nearest trusted hops i a) := by
  constructor
  · intro hn
    rcases Nat.lt_or_ge i hops.length with hlt | hge
    · have hdrop : (hops ++ [h]).drop (i + 1) = hops.drop (i + 1) ++ [h] :=
        List.drop_append_of_le_length hlt
      have hafter := hn.after
      rw [hdrop] at hafter
      refine .inr ⟨hafter h (by simp), ?_, hn.untrusted, ?_⟩
      · have hhop := hn.hop
        rwa [List.getElem?_append_left hlt] at hhop
      · exact fun x hx => hafter x (List.mem_append_left _ hx)
    · have hbound := hn.lt
      rw [List.length_append, List.length_singleton] at hbound
      obtain rfl : i = hops.length := by omega
      have hhop := hn.hop
      rw [List.getElem?_concat_length] at hhop
      exact .inl ⟨rfl, hhop, hn.untrusted⟩
  · rintro (⟨rfl, hread, hout⟩ | ⟨htrusted, hn⟩)
    · refine ⟨?_, hout, ?_⟩
      · rw [List.getElem?_concat_length]
        exact hread
      · rw [List.drop_eq_nil_of_le (by simp)]
        exact nofun
    · refine ⟨?_, hn.untrusted, ?_⟩
      · rw [List.getElem?_append_left hn.lt]
        exact hn.hop
      · rw [List.drop_append_of_le_length hn.lt]
        intro x hx
        rcases List.mem_append.mp hx with hx | hx
        · exact hn.after x hx
        · rw [List.mem_singleton.mp hx]
          exact htrusted

/-- The walk through the hops, the last one first, finds the nearest one. -/
theorem firstUntrusted_eq_some_iff (parts : List String) (a : Net.Address) :
    firstUntrusted trusted parts = some a ↔
      ∃ i, Nearest trusted (parts.reverse.map .ofPart) i a := by
  induction parts with
  | nil =>
      constructor
      · rintro ⟨⟩
      · rintro ⟨i, hn⟩
        cases hn.hop
  | cons part parts ih =>
      rw [List.reverse_cons, List.map_append, firstUntrusted.eq_def]
      simp only [List.map_singleton, nearest_snoc, Hop.Trusted, Hop.ofPart, Hop.address?,
        List.contains_iff_mem]
      cases Net.Address.read? (Text.trim part) with
      | none => simp
      | some b =>
          by_cases hb : b ∈ trusted
          · simp only [if_pos hb, ih, Option.some.injEq]
            constructor
            · rintro ⟨i, hn⟩
              exact ⟨i, .inr ⟨⟨b, hb, rfl⟩, hn⟩⟩
            · rintro ⟨i, ⟨-, rfl, hout⟩ | ⟨-, hn⟩⟩
              · exact absurd hb hout
              · exact ⟨i, hn⟩
          · simp only [if_neg hb, Option.some.injEq]
            constructor
            · rintro rfl
              exact ⟨_, .inl ⟨rfl, rfl, hb⟩⟩
            · rintro ⟨i, ⟨-, rfl, -⟩ | ⟨⟨c, hc, rfl⟩, -⟩⟩
              · rfl
              · exact absurd hc hb

/-- The hops that are read are the legible ones of those told. -/
theorem map_ofPart_hops (lines : List String) :
    (hops lines).map .ofPart = (toldHops lines).filter Hop.legible := by
  induction lines with
  | nil => rfl
  | cons line lines ih =>
      have htold : toldHops (line :: lines) = lineHops line ++ toldHops lines := rfl
      rw [htold, List.filter_append, ← ih]
      cases hread : readable line with
      | true =>
          have hall : ((Text.split ',' line).map Hop.ofPart).filter Hop.legible =
              (Text.split ',' line).map Hop.ofPart := by
            rw [List.filter_eq_self]
            rintro h hh
            obtain ⟨s, -, rfl⟩ := List.mem_map.mp hh
            rfl
          simp [hops, lineHops, hread, hall]
      | false => simp [hops, lineHops, hread, Hop.legible]

/-- If all lines are readable, all hops are legible. -/
theorem filter_toldHops (hread : ∀ line ∈ lines, readable line = true) :
    (toldHops lines).filter Hop.legible = toldHops lines := by
  rw [List.filter_eq_self]
  intro h hh
  obtain ⟨line, hline, hmem⟩ := List.mem_flatMap.mp hh
  rw [lineHops, if_pos (hread line hline)] at hmem
  obtain ⟨s, -, rfl⟩ := List.mem_map.mp hmem
  rfl

/-! ## Whom a request is counted against -/

/-- The nearest legible hop is the client of a request that comes from a trusted proxy. -/
theorem clientAddress_of_nearest (hp : p ∈ trusted) {i : Nat} {a : Net.Address}
    (hn : Nearest trusted ((toldHops lines).filter Hop.legible) i a) :
    clientAddress trusted (some p) lines = some a := by
  rw [← map_ofPart_hops, ← List.reverse_reverse (hops lines)] at hn
  have hfound := (firstUntrusted_eq_some_iff (hops lines).reverse a).mpr ⟨i, hn⟩
  simp only [clientAddress, List.contains_iff_mem, if_pos hp, hfound]

/-- Without a nearest legible hop the peer stands. -/
theorem clientAddress_of_none
    (hn : ∀ i a, ¬ Nearest trusted ((toldHops lines).filter Hop.legible) i a) :
    clientAddress trusted (some p) lines = some p := by
  rw [← map_ofPart_hops, ← List.reverse_reverse (hops lines)] at hn
  have hnone : firstUntrusted trusted (hops lines).reverse = none := by
    rw [Option.eq_none_iff_forall_ne_some]
    intro a ha
    obtain ⟨i, hi⟩ := (firstUntrusted_eq_some_iff (hops lines).reverse a).mp ha
    exact hn i a hi
  simp [clientAddress, hnone]

/-- A request is counted against the nearest legible hop behind a trusted proxy, or its peer. -/
theorem clientAddress_cases (p : Net.Address) (trusted : List Net.Address) (lines : List String) :
    (p ∈ trusted ∧ ∃ i a, Nearest trusted ((toldHops lines).filter Hop.legible) i a ∧
      clientAddress trusted (some p) lines = some a) ∨
      clientAddress trusted (some p) lines = some p := by
  by_cases hp : p ∈ trusted
  · by_cases hn : ∃ i a, Nearest trusted ((toldHops lines).filter Hop.legible) i a
    · obtain ⟨i, a, hn⟩ := hn
      exact .inl ⟨hp, i, a, hn, clientAddress_of_nearest hp hn⟩
    · exact .inr (clientAddress_of_none fun i a h => hn ⟨i, a, h⟩)
  · exact .inr (clientAddress_untrusted (by simpa using hp) lines)

/-- If every line of the header is readable, a request without a peer is counted against nobody. Any
other request is counted against its peer, or the peer is trusted, and it is counted against the
nearest hop that is an address outside the trusted ones, with trusted addresses alone after it. If
the peer is trusted and there is such a hop, it stands in one place, and the request is counted
against it. Whoever is trusted is counted against only as the peer. -/
theorem clientAddress_nearest (trusted : List Net.Address) (peer : Option Net.Address)
    (lines : List String) (hread : ∀ line ∈ lines, readable line = true) :
    (clientAddress trusted peer lines = none ↔ peer = none) ∧
      ∀ p, peer = some p →
        (clientAddress trusted peer lines = some p ∨
          p ∈ trusted ∧ ∃ i a, Nearest trusted (toldHops lines) i a ∧
            clientAddress trusted peer lines = some a) ∧
        (p ∈ trusted → ∀ i a, Nearest trusted (toldHops lines) i a →
          clientAddress trusted peer lines = some a ∧
            ∀ j b, Nearest trusted (toldHops lines) j b → j = i ∧ b = a) ∧
        ∀ a ∈ trusted, clientAddress trusted peer lines = some a → a = p := by
  have hlegible := filter_toldHops hread
  constructor
  · cases peer with
    | none => exact ⟨fun _ => rfl, fun _ => rfl⟩
    | some p => rcases clientAddress_cases p trusted lines with ⟨-, i, a, -, ha⟩ | ha <;> simp [ha]
  · rintro p rfl
    have hcases := clientAddress_cases p trusted lines
    rw [hlegible] at hcases
    refine ⟨hcases.symm, ?_, ?_⟩
    · intro hp i a hn
      refine ⟨clientAddress_of_nearest (i := i) hp ?_, fun j b hn' => hn.unique hn'⟩
      rwa [hlegible]
    · intro a htrusted ha
      rcases hcases with ⟨-, i, b, hn, hb⟩ | hb
      · cases ha.symm.trans hb
        exact absurd htrusted hn.untrusted
      · exact Option.some.inj (ha.symm.trans hb)

/-- This machine, which is a proxy, and another proxy. -/
def twoProxies : List Net.Address := [.v4 127 0 0 1, .v4 172 16 0 1]

/-- The last but one of three hops in two lines is the client. -/
theorem clientAddress_nearest_twoLines :
    (∀ line ∈ ["6.6.6.6, 10.0.0.7", "172.16.0.1"], readable line = true) ∧
      Net.Address.v4 127 0 0 1 ∈ twoProxies ∧
      Nearest twoProxies (toldHops ["6.6.6.6, 10.0.0.7", "172.16.0.1"]) 1 (.v4 10 0 0 7) ∧
      clientAddress twoProxies (some (.v4 127 0 0 1)) ["6.6.6.6, 10.0.0.7", "172.16.0.1"] =
        some (.v4 10 0 0 7) ∧
      ∀ j b, Nearest twoProxies (toldHops ["6.6.6.6, 10.0.0.7", "172.16.0.1"]) j b →
        j = 1 ∧ b = .v4 10 0 0 7 := by
  have hread : ∀ line ∈ ["6.6.6.6, 10.0.0.7", "172.16.0.1"], readable line = true := by
    decide +kernel
  have hpeer : Net.Address.v4 127 0 0 1 ∈ twoProxies := by decide
  have hn : Nearest twoProxies (toldHops ["6.6.6.6, 10.0.0.7", "172.16.0.1"]) 1 (.v4 10 0 0 7) :=
    ⟨by decide +kernel, by decide, by decide +kernel⟩
  obtain ⟨-, hpeers⟩ := clientAddress_nearest twoProxies (some (.v4 127 0 0 1)) _ hread
  obtain ⟨-, hnearest, -⟩ := hpeers _ rfl
  obtain ⟨hclient, hunique⟩ := hnearest hpeer 1 _ hn
  exact ⟨hread, hpeer, hn, hclient, hunique⟩

/-! ## What the client cannot choose -/

/-- Trusted hops at the end do not change which hop is the nearest. -/
theorem nearest_append {hops back : List Hop} (hback : ∀ h ∈ back, h.Trusted trusted) {i : Nat}
    {a : Net.Address} : Nearest trusted (hops ++ back) i a ↔ Nearest trusted hops i a := by
  induction back generalizing hops with
  | nil => rw [List.append_nil]
  | cons h back ih =>
      obtain ⟨hh, hrest⟩ := List.forall_mem_cons.mp hback
      rw [← List.singleton_append, ← List.append_assoc, ih hrest, nearest_snoc]
      constructor
      · rintro (⟨-, hread, hout⟩ | ⟨-, hn⟩)
        · obtain ⟨b, hb, hread'⟩ := hh
          cases hread.symm.trans hread'
          exact absurd hb hout
        · exact hn
      · exact fun hn => .inr ⟨hh, hn⟩

/-- A trusted hop is legible. -/
theorem Hop.Trusted.legible {h : Hop} (hh : h.Trusted trusted) : h.legible = true := by
  cases h with
  | text s => rfl
  | garbled =>
      obtain ⟨a, -, ha⟩ := hh
      cases ha

/-- The nearest legible hop, if trusted hops alone come after a hop that is not trusted. -/
theorem nearest_decided {hop : Hop} {front back : List Hop}
    (hback : ∀ h ∈ back, h.Trusted trusted) (hhop : ¬ hop.Trusted trusted) {i : Nat}
    {a : Net.Address} :
    Nearest trusted ((front ++ hop :: back).filter Hop.legible) i a ↔
      (i = (front.filter Hop.legible).length ∧ hop.address? = some a) ∨
        (hop = .garbled ∧ Nearest trusted (front.filter Hop.legible) i a) := by
  have hall : back.filter Hop.legible = back :=
    List.filter_eq_self.mpr fun h hh => (hback h hh).legible
  rw [← List.singleton_append, ← List.append_assoc, List.filter_append, hall,
    nearest_append hback, List.filter_append]
  cases hop with
  | garbled => simp [Hop.legible, Hop.address?]
  | text s =>
      rw [show [Hop.text s].filter Hop.legible = [.text s] from rfl, nearest_snoc]
      constructor
      · rintro (⟨hi, hread, -⟩ | ⟨htrusted, -⟩)
        · exact .inl ⟨hi, hread⟩
        · exact absurd htrusted hhop
      · rintro (⟨hi, hread⟩ | ⟨he, -⟩)
        · exact .inl ⟨hi, hread, fun hmem => hhop ⟨a, hmem, hread⟩⟩
        · cases he

/-- The last hop that is not trusted decides whom a request is counted against, unless it is garbled
and a nearest hop is found before it. -/
theorem clientAddress_decided_iff (hp : p ∈ trusted) {hop : Hop} {front back : List Hop}
    (h : toldHops lines = front ++ hop :: back) (hback : ∀ h ∈ back, h.Trusted trusted)
    (hhop : ¬ hop.Trusted trusted) :
    clientAddress trusted (some p) lines = some (hop.address?.getD p) ↔
      (hop = .garbled → ∀ i a, ¬ Nearest trusted (front.filter Hop.legible) i a) := by
  have hnearest : ∀ i a, Nearest trusted ((toldHops lines).filter Hop.legible) i a ↔
      (i = (front.filter Hop.legible).length ∧ hop.address? = some a) ∨
        (hop = .garbled ∧ Nearest trusted (front.filter Hop.legible) i a) := by
    intro i a
    rw [h]
    exact nearest_decided hback hhop
  constructor
  · rintro hclient rfl i a hn
    have hfound := clientAddress_of_nearest hp ((hnearest i a).mpr (.inr ⟨rfl, hn⟩))
    cases hclient.symm.trans hfound
    exact hn.untrusted hp
  · intro hgarbled
    cases hread : hop.address? with
    | some a => exact clientAddress_of_nearest hp ((hnearest _ a).mpr (.inl ⟨rfl, hread⟩))
    | none =>
        refine clientAddress_of_none fun i a hn => ?_
        rcases (hnearest i a).mp hn with ⟨-, ha⟩ | ⟨he, hn⟩
        · rw [hread] at ha
          cases ha
        · exact hgarbled he i a hn

/-- The hops that two headers tell agree from the last hop that is not trusted to the end, and the
peer is trusted. Then both requests are counted against that hop, if it is an address, and against
the peer otherwise, if and only if it is no garbled hop behind which a nearest hop is found in one
of the headers. A request whose peer is not trusted is counted against the peer, whatever its header
says. -/
theorem clientAddress_unswayed_iff (hp : p ∈ trusted) {lines lines' : List String} {hop : Hop}
    {front front' back : List Hop} (h : toldHops lines = front ++ hop :: back)
    (h' : toldHops lines' = front' ++ hop :: back) (hback : ∀ h ∈ back, h.Trusted trusted)
    (hhop : ¬ hop.Trusted trusted) :
    ((clientAddress trusted (some p) lines = some (hop.address?.getD p) ∧
        clientAddress trusted (some p) lines' = some (hop.address?.getD p)) ↔
      (hop = .garbled → ∀ i a, ¬ Nearest trusted (front.filter Hop.legible) i a ∧
        ¬ Nearest trusted (front'.filter Hop.legible) i a)) ∧
      ∀ q, q ∉ trusted → ∀ lines, clientAddress trusted (some q) lines = some q := by
  constructor
  · rw [clientAddress_decided_iff hp h hback hhop, clientAddress_decided_iff hp h' hback hhop]
    constructor
    · exact fun hboth hgarbled i a => ⟨hboth.1 hgarbled i a, hboth.2 hgarbled i a⟩
    · exact fun hboth => ⟨fun hgarbled i a => (hboth hgarbled i a).1,
        fun hgarbled i a => (hboth hgarbled i a).2⟩
  · exact fun q hq lines => clientAddress_untrusted (by simpa using hq) lines

/-- Whatever stands before the client's address, be it readable or not, the client stays the
same. -/
theorem clientAddress_unswayed_iff_twoProxies :
    clientAddress twoProxies (some (.v4 127 0 0 1)) ["6.6.6.6, 10.0.0.7", "172.16.0.1"] =
        some (.v4 10 0 0 7) ∧
      clientAddress twoProxies (some (.v4 127 0 0 1)) ["é", "9.9.9.9, 10.0.0.7,172.16.0.1"] =
        some (.v4 10 0 0 7) := by
  have htold : toldHops ["6.6.6.6, 10.0.0.7", "172.16.0.1"] =
      [.text "6.6.6.6"] ++ .text "10.0.0.7" :: [.text "172.16.0.1"] := by decide +kernel
  have htold' : toldHops ["é", "9.9.9.9, 10.0.0.7,172.16.0.1"] =
      [.garbled, .text "9.9.9.9"] ++ .text "10.0.0.7" :: [.text "172.16.0.1"] := by
    decide +kernel
  have hread : Hop.address? (.text "10.0.0.7") = some (.v4 10 0 0 7) := by decide +kernel
  have hpeer : Net.Address.v4 127 0 0 1 ∈ twoProxies := by decide
  have hboth := (clientAddress_unswayed_iff hpeer htold htold' (by decide +kernel)
    (by decide +kernel)).1.mpr nofun
  rw [hread] at hboth
  exact hboth

/-- Two headers end in the same line, which is not readable. The requests are counted against what
stands before it, and not against the peer. -/
theorem clientAddress_swayed_before_garbled :
    toldHops ["6.6.6.6", "é"] = [.text "6.6.6.6"] ++ [.garbled] ∧
      toldHops ["7.7.7.7", "é"] = [.text "7.7.7.7"] ++ [.garbled] ∧
      Net.Address.v4 127 0 0 1 ∈ twoProxies ∧ ¬ Hop.garbled.Trusted twoProxies ∧
      clientAddress twoProxies (some (.v4 127 0 0 1)) ["6.6.6.6", "é"] = some (.v4 6 6 6 6) ∧
      clientAddress twoProxies (some (.v4 127 0 0 1)) ["7.7.7.7", "é"] = some (.v4 7 7 7 7) :=
  ⟨by decide +kernel, by decide +kernel, by decide, by decide +kernel, by decide +kernel,
    by decide +kernel⟩

end JobFleet.Http
