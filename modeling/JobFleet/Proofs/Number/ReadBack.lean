import JobFleet.Number.Integer

/-!
# Printed integers are read back

The printed form of an integer of a range is read as that integer.
-/

namespace JobFleet.Number

/-- The value of a printed digit. -/
theorem digitValue_digitChar {d : Nat} (h : d < 10) : digitValue d.digitChar = d := by
  rw [digitValue, Nat.toNat_digitChar_of_lt_ten h]
  exact Nat.add_sub_cancel_left 48 d

/-- A digit is written as one. -/
theorem isDigit_digitChar {d : Nat} (h : d < 10) : d.digitChar.isDigit = true := by
  rw [Nat.isDigit_digitChar]
  exact decide_eq_true h

/-- Reading goes through a first part and on from the number that it wrote. -/
theorem readDigits_append {r : Range} {sign acc n : Int} {cs ds : List Char}
    (h : readDigits r sign acc cs = .ok n) :
    readDigits r sign acc (cs ++ ds) = readDigits r sign n ds := by
  induction cs generalizing acc with
  | nil =>
      rw [readDigits, Except.ok.injEq] at h
      rw [List.nil_append, h]
  | cons c rest ih =>
      rw [readDigits] at h
      rw [List.cons_append, readDigits]
      split at h
      · rename_i hc
        rw [if_pos hc]
        split at h
        · cases h
        · rename_i hhigh
          rw [if_neg hhigh]
          split at h
          · cases h
          · rename_i hlow
            rw [if_neg hlow]
            exact ih h
      · cases h

/-- The digits of a number are read as the number with the sign, where both are in range. -/
theorem readDigits_toDigits {r : Range} {sign : Int} (hs : sign = 1 ∨ sign = -1)
    (hz : r.low ≤ 0 ∧ 0 ≤ r.high) (k : Nat) (hk : r.low ≤ sign * k ∧ sign * k ≤ r.high) :
    readDigits r sign 0 (Nat.toDigits 10 k) = .ok (sign * k) := by
  induction k using Nat.strongRecOn with
  | ind k ih =>
      rw [Nat.toDigits_eq_if (by decide)]
      split
      · rename_i hlt
        have hd : digitValue k.digitChar = k := digitValue_digitChar hlt
        rw [readDigits, if_pos (isDigit_digitChar hlt), hd, if_neg (by omega), if_neg (by omega),
          readDigits]
        simp
      · rename_i hge
        have hlt : k % 10 < 10 := Nat.mod_lt _ (by decide)
        have hsplit : 10 * (k / 10) + k % 10 = k := Nat.div_add_mod k 10
        have hq : r.low ≤ sign * (k / 10 : Nat) ∧ sign * (k / 10 : Nat) ≤ r.high := by
          rcases hs with rfl | rfl <;> omega
        have hrest := ih (k / 10) (by omega) hq
        rw [readDigits_append hrest, readDigits, if_pos (isDigit_digitChar hlt),
          digitValue_digitChar hlt]
        have he : sign * (k / 10 : Nat) * 10 + sign * (k % 10 : Nat) = sign * k := by
          rcases hs with rfl | rfl <;> omega
        rw [he, if_neg (by omega), if_neg (by omega), readDigits]

/-- What is printed first is no sign. -/
theorem toDigits_head {k : Nat} {c : Char} {rest : List Char}
    (h : Nat.toDigits 10 k = c :: rest) : c ≠ '+' ∧ c ≠ '-' := by
  have hd : c.isDigit = true :=
    Nat.isDigit_of_mem_toDigits (by decide) (by decide) (h ▸ List.mem_cons_self)
  constructor
  · rintro rfl
    exact absurd hd (by decide)
  · rintro rfl
    exact absurd hd (by decide)

/-- The printed form of an integer of the range is read as that integer. -/
theorem readInteger_showInteger {r : Range} {n : Int} (hz : r.low ≤ 0 ∧ 0 ≤ r.high)
    (h : r.low ≤ n ∧ n ≤ r.high) : readInteger r (showInteger n) = .ok n := by
  cases n with
  | ofNat k =>
      have hr := readDigits_toDigits (Or.inl rfl) hz k (by simpa using h)
      simp only [Int.one_mul] at hr
      unfold readInteger showInteger
      rw [String.toList_ofList]
      cases hc : Nat.toDigits 10 k with
      | nil => exact absurd hc Nat.toDigits_ne_nil
      | cons c rest =>
          obtain ⟨hplus, hminus⟩ := toDigits_head hc
          rw [hc] at hr
          split <;> simp_all
  | negSucc k =>
      have he : Int.negSucc k = -1 * ((k + 1 : Nat) : Int) := by omega
      have hr := readDigits_toDigits (Or.inr rfl) hz (k + 1) (by omega)
      have hlow : r.low < 0 := by omega
      unfold readInteger showInteger
      rw [String.toList_ofList]
      cases hc : Nat.toDigits 10 (k + 1) with
      | nil => exact absurd hc Nat.toDigits_ne_nil
      | cons c rest =>
          rw [hc] at hr
          split <;> simp_all

end JobFleet.Number
