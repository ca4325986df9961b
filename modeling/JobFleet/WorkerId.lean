import JobFleet.Digest.Sha256
import JobFleet.Net.Address

/-!
# Worker identities and owner tokens

A worker is named by a number of 128 bits. Its token is all 32 hexadecimal digits, its short
form the first eight of them, and its hyphenated form groups them 8-4-4-4-12. Reading accepts
the plain and the hyphenated form in either case, the latter also between braces or after its
scheme, which may be in either case too.
-/

namespace JobFleet

/-- The identity of a worker process. -/
structure WorkerId where
  bits : BitVec 128
deriving DecidableEq, Repr

namespace WorkerId

/-- All 32 hexadecimal digits. -/
def digits (w : WorkerId) : List Char := Digest.hexPadded 32 w.bits.toNat

/-- The full form, for values that must be unique. -/
def token (w : WorkerId) : String := String.ofList w.digits

/-- The short form for log lines. -/
def short (w : WorkerId) : String := String.ofList (w.digits.take 8)

/-- The digits in groups of 8, 4, 4, 4 and 12 between hyphens. -/
def hyphenated (w : WorkerId) : String :=
  let ds := w.digits
  String.ofList (ds.take 8 ++ '-' :: ((ds.drop 8).take 4 ++ '-' :: ((ds.drop 12).take 4 ++
    '-' :: ((ds.drop 16).take 4 ++ '-' :: ds.drop 20))))

/-- The number that hexadecimal digits write, if they all are such digits. -/
def hexNumber? (cs : List Char) : Option Nat :=
  cs.foldlM (fun n c => (Net.hexValue? c).map (n * 16 + ·)) 0

/-- The digits of a hyphenated form without its hyphens, if these stand in their places. -/
def unhyphenated? (cs : List Char) : Option (List Char) :=
  if cs.length = 36 ∧ cs[8]? = some '-' ∧ cs[13]? = some '-' ∧ cs[18]? = some '-' ∧
      cs[23]? = some '-' then
    some (cs.take 8 ++ (cs.drop 9).take 4 ++ (cs.drop 14).take 4 ++ (cs.drop 19).take 4 ++
      cs.drop 24)
  else none

/-- The scheme that may stand before a hyphenated form. -/
def scheme : List Char := ['u', 'r', 'n', ':', 'u', 'u', 'i', 'd', ':']

/-- Reads an identity. -/
def read? (s : String) : Option WorkerId := do
  let cs := s.toList
  let ds ←
    if cs.length = 32 then some cs
    else if cs.length = 36 then unhyphenated? cs
    else if cs.length = 38 ∧ cs.head? = some (Char.ofNat 0x7b) ∧
        cs.getLast? = some (Char.ofNat 0x7d) then
      unhyphenated? ((cs.drop 1).take 36)
    else if cs.length = 45 ∧ (cs.take 9).map Char.toLower = scheme then unhyphenated? (cs.drop 9)
    else none
  let n ← hexNumber? ds
  return ⟨BitVec.ofNat 128 n⟩

end WorkerId

end JobFleet
