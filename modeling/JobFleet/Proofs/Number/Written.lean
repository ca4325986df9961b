import JobFleet.Number.Integer

/-!
# The number that a text writes

What a text of decimal digits writes is said by its digits alone, without the reader and without a
range: digits with a sign before them or none. What is read from a text is what it writes.
-/

namespace JobFleet.Number

/-- Decimal digits, at least one. -/
def Digits (ds : List Char) : Prop := ds ≠ [] ∧ ∀ c ∈ ds, c.isDigit = true

/-- A text writes a number: its digits have the number's value, and a minus sign turns it round. -/
inductive Writes (s : String) : Int → Prop
  | bare (h : Digits s.toList) : Writes s (Nat.ofDigitChars 10 s.toList 0)
  | plus (ds : List Char) (h : Digits ds) (hs : s.toList = '+' :: ds) :
      Writes s (Nat.ofDigitChars 10 ds 0)
  | minus (ds : List Char) (h : Digits ds) (hs : s.toList = '-' :: ds) :
      Writes s (-(Nat.ofDigitChars 10 ds 0 : Int))

/-- A sign is no digit. -/
theorem Digits.head_isDigit {c : Char} {ds : List Char} (h : Digits (c :: ds)) :
    c.isDigit = true := h.2 c List.mem_cons_self

/-- A text writes one number at most. -/
theorem Writes.unique {s : String} {m n : Int} (hm : Writes s m) (hn : Writes s n) : m = n := by
  cases hm with
  | bare h =>
      cases hn with
      | bare => rfl
      | plus ds _ hs | minus ds _ hs =>
          rw [hs] at h
          exact absurd h.head_isDigit (by decide)
  | plus ds _ hs =>
      cases hn with
      | bare h =>
          rw [hs] at h
          exact absurd h.head_isDigit (by decide)
      | plus ds' _ hs' =>
          rw [(List.cons.inj (hs.symm.trans hs')).2]
      | minus ds' _ hs' => exact absurd (List.cons.inj (hs.symm.trans hs')).1 (by decide)
  | minus ds _ hs =>
      cases hn with
      | bare h =>
          rw [hs] at h
          exact absurd h.head_isDigit (by decide)
      | plus ds' _ hs' => exact absurd (List.cons.inj (hs.symm.trans hs')).1 (by decide)
      | minus ds' _ hs' => rw [(List.cons.inj (hs.symm.trans hs')).2]

/-- Digits that are read onto a number stand behind its digits, with its sign. -/
theorem readDigits_writes {r : Range} {sign acc n : Int} {a : Nat} {cs : List Char}
    (hs : sign = 1 ∨ sign = -1) (hacc : acc = sign * a) (h : readDigits r sign acc cs = .ok n) :
    (∀ c ∈ cs, c.isDigit = true) ∧ n = sign * Nat.ofDigitChars 10 cs a := by
  induction cs generalizing a acc with
  | nil =>
      rw [readDigits, Except.ok.injEq] at h
      exact ⟨List.forall_mem_nil _, h.symm.trans hacc⟩
  | cons c rest ih =>
      have hnext : acc * 10 + sign * digitValue c = sign * (10 * a + digitValue c : Nat) := by
        rcases hs with rfl | rfl <;> omega
      rw [readDigits] at h
      split at h
      · rename_i hc
        split at h
        · cases h
        · split at h
          · cases h
          · obtain ⟨hrest, hn⟩ := ih hnext h
            exact ⟨List.forall_mem_cons.mpr ⟨hc, hrest⟩, hn⟩
      · cases h

/-- What is read from a text is what it writes. -/
theorem readInteger_writes {r : Range} {s : String} {n : Int} (h : readInteger r s = .ok n) :
    Writes s n := by
  have hzero : ∀ sign : Int, 0 = sign * (0 : Nat) := fun sign => (Int.mul_zero sign).symm
  unfold readInteger at h
  split at h
  · cases h
  · cases h
  · cases h
  · rename_i rest hsome hs
    obtain ⟨hdigits, hn⟩ := readDigits_writes (Or.inl rfl) (hzero 1) h
    rw [hn, Int.one_mul]
    exact .plus rest ⟨hsome, hdigits⟩ hs
  · rename_i rest hsome hs
    split at h
    · obtain ⟨hdigits, hn⟩ := readDigits_writes (Or.inr rfl) (hzero (-1)) h
      rw [hn, Int.neg_mul, Int.one_mul]
      exact .minus rest ⟨hsome, hdigits⟩ hs
    · cases h
  · rename_i hnil _ _ _ _
    obtain ⟨hdigits, hn⟩ := readDigits_writes (Or.inl rfl) (hzero 1) h
    rw [hn, Int.one_mul]
    exact .bare ⟨hnil, hdigits⟩

end JobFleet.Number
