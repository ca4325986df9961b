/-!
# Integers in a range

Decimal integers as they are written in settings and counters: an optional sign, then ASCII
digits and nothing else. The range decides whether a minus sign is one. Digits are read from
the left and the first fault met is the one reported, so a text can be too large before its
bad digit is reached. The printed form has no plus sign and no leading zero.
-/

namespace JobFleet.Number

/-- Why a text is not an integer of the range. -/
inductive IntegerError
  | empty
  | invalidDigit
  | tooLarge
  | tooSmall
deriving DecidableEq, Repr

/-- The wording of each fault. -/
def IntegerError.message : IntegerError → String
  | .empty => "cannot parse integer from empty string"
  | .invalidDigit => "invalid digit found in string"
  | .tooLarge => "number too large to fit in target type"
  | .tooSmall => "number too small to fit in target type"

/-- An inclusive range of integers. -/
structure Range where
  low : Int
  high : Int
deriving DecidableEq, Repr

namespace Range

/-- Signed integers of 64 bits. -/
def int64 : Range := ⟨-9223372036854775808, 9223372036854775807⟩

/-- Unsigned integers of 64 bits. -/
def nat64 : Range := ⟨0, 18446744073709551615⟩

/-- Unsigned integers of 32 bits. -/
def nat32 : Range := ⟨0, 4294967295⟩

/-- Whether an integer lies in the range. -/
def holds (r : Range) (n : Int) : Bool := r.low ≤ n && n ≤ r.high

/-- What lies in a range, as inequalities. -/
theorem holds_iff (r : Range) (n : Int) : r.holds n = true ↔ r.low ≤ n ∧ n ≤ r.high := by
  simp [holds]

/-- The integer of the range nearest to a given one. -/
def clamp (r : Range) (n : Int) : Int := max r.low (min r.high n)

end Range

/-- The value of an ASCII digit. -/
def digitValue (c : Char) : Nat := c.toNat - '0'.toNat

/-- Reads digits onto a number read so far, growing away from zero in the direction of the
sign, which is 1 or -1. -/
def readDigits (r : Range) (sign : Int) (acc : Int) : List Char → Except IntegerError Int
  | [] => .ok acc
  | c :: rest =>
      if c.isDigit then
        if r.high < acc * 10 + sign * digitValue c then .error .tooLarge
        else if acc * 10 + sign * digitValue c < r.low then .error .tooSmall
        else readDigits r sign (acc * 10 + sign * digitValue c) rest
      else .error .invalidDigit

/-- Reads an integer of the range. -/
def readInteger (r : Range) (s : String) : Except IntegerError Int :=
  match s.toList with
  | [] => .error .empty
  | ['+'] => .error .invalidDigit
  | ['-'] => .error .invalidDigit
  | '+' :: rest => readDigits r 1 0 rest
  | '-' :: rest =>
      if r.low < 0 then readDigits r (-1) 0 rest else .error .invalidDigit
  | cs => readDigits r 1 0 cs

/-- The printed form of an integer. -/
def showInteger (n : Int) : String :=
  match n with
  | .ofNat k => String.ofList (Nat.toDigits 10 k)
  | .negSucc k => String.ofList ('-' :: Nat.toDigits 10 (k + 1))

/-- Digits are read into the range only. -/
theorem readDigits_holds {r : Range} {sign acc n : Int} {cs : List Char}
    (hacc : r.low ≤ acc ∧ acc ≤ r.high) (h : readDigits r sign acc cs = .ok n) :
    r.low ≤ n ∧ n ≤ r.high := by
  induction cs generalizing acc with
  | nil =>
      simp only [readDigits, Except.ok.injEq] at h
      exact h ▸ hacc
  | cons c rest ih =>
      simp only [readDigits] at h
      split at h
      · split at h
        · cases h
        · split at h
          · cases h
          · rename_i hhigh hlow
            exact ih ⟨Int.not_lt.mp hlow, Int.not_lt.mp hhigh⟩ h
      · cases h

/-- What is read lies in the range. -/
theorem readInteger_holds {r : Range} {s : String} {n : Int} (hz : r.low ≤ 0 ∧ 0 ≤ r.high)
    (h : readInteger r s = .ok n) : r.low ≤ n ∧ n ≤ r.high := by
  unfold readInteger at h
  split at h
  · cases h
  · cases h
  · cases h
  · exact readDigits_holds hz h
  · split at h
    · exact readDigits_holds hz h
    · cases h
  · exact readDigits_holds hz h

end JobFleet.Number
