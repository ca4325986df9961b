/-!
# Sets of code points

A property of characters is stored as its inclusive ranges of code points in rising order.
Membership asks whether some range holds the code point.
-/

namespace JobFleet.Text

/-- Inclusive ranges of code points. -/
structure CodePoints where
  ranges : List (Nat × Nat)

namespace CodePoints

/-- Whether a character lies in one of the ranges. -/
def contains (s : CodePoints) (c : Char) : Bool :=
  s.ranges.any fun r => r.1 ≤ c.toNat && c.toNat ≤ r.2

/-- A set of code points contains what lies in one of its ranges. -/
theorem contains_iff (s : CodePoints) (c : Char) :
    s.contains c = true ↔ ∃ r ∈ s.ranges, r.1 ≤ c.toNat ∧ c.toNat ≤ r.2 := by
  simp [contains]

end CodePoints

end JobFleet.Text
