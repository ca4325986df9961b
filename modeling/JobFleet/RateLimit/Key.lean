import JobFleet.Digest.Sha256
import JobFleet.DomainError
import JobFleet.Net.Address
import JobFleet.Text.Blank
import JobFleet.Text.LowerCase
import JobFleet.Text.Quoted

/-!
# Rate-limit keys

A key names a scope, a client address and an identity: the scope, the address in its one
printed form, and the digest of the identity, with colons between them. A client without a
readable address is told apart by the head of the digest. The scope has no colon, so it is
read back as the part before the first one.
-/

namespace JobFleet

/-- What an attempt is counted under. -/
structure RateLimitKey where
  chars : List Char
deriving DecidableEq, Repr

/-- The two things that are limited. -/
inductive AuthScope
  | login
  | refresh
deriving DecidableEq, Repr

namespace AuthScope

/-- The word for a scope. -/
def text : AuthScope → String
  | .login => "login"
  | .refresh => "refresh"

/-- The scope with a given word. -/
def ofText? (s : String) : Option AuthScope :=
  if s = "login" then some .login
  else if s = "refresh" then some .refresh
  else none

theorem ofText?_text (a : AuthScope) : ofText? a.text = some a := by cases a <;> rfl

end AuthScope

namespace RateLimitKey

/-- The address that a client text writes, blanks around it aside. -/
def clientAddress? (client : Option String) : Option Net.Address :=
  client.bind fun s => Net.Address.read? (Text.trim s)

/-- What stands in the place of an address that cannot be read. -/
def unknownClient (digest : List Char) : List Char := "unknown-ip-".toList ++ digest.take 8

/-- The middle part of a key. -/
def clientPart (client : Option String) (digest : List Char) : List Char :=
  match clientAddress? client with
  | some a => a.chars
  | none => unknownClient digest

/-- Whether a text can be a scope: something without a colon. -/
def validScope (scope : String) : Bool := !scope.toList.isEmpty && !scope.toList.contains ':'

/-- The key of a scope, an identity and a client. -/
def derive (scope identity : String) (client : Option String) :
    Except DomainError RateLimitKey :=
  if identity.toList.isEmpty then
    .error (.validation "identity is required for rate limiting")
  else if validScope scope then
    let digest := Digest.textDigest identity
    .ok ⟨scope.toList ++ ':' :: (clientPart client digest ++ ':' :: digest)⟩
  else .error (.validation ("invalid rate-limit scope: " ++ Text.quoted scope))

/-- The printed form. -/
def text (k : RateLimitKey) : String := String.ofList k.chars

/-- The scope, read back from the front. -/
def scope (k : RateLimitKey) : String := String.ofList (k.chars.takeWhile (· ≠ ':'))

/-- The store key of the counter. -/
def counterKey (k : RateLimitKey) : String := "rate_limit:" ++ k.text

end RateLimitKey

/-- The key of an attempt: the case of a login identity does not matter, that of a refresh
identity does. -/
def AuthScope.key (a : AuthScope) (identity : String) (client : Option String) :
    Except DomainError RateLimitKey :=
  match a with
  | .login => RateLimitKey.derive a.text (Text.lowerCase identity) client
  | .refresh => RateLimitKey.derive a.text identity client

end JobFleet
