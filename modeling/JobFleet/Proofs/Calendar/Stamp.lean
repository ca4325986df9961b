import JobFleet.Proofs.Calendar.Civil

/-!
# The stamp of a minute can be read back

A number keeps its value behind leading zeros, and its last digit stands apart, so that numbers
of one width are ordered as their texts are. The fields of a stamp below the year have a fixed
width: they are read from its end, and what is left is the year, whose sign and length tell the
years from 0 to 9999 from those before and after.
-/

namespace JobFleet.Calendar

/-! ## Padded numbers -/

section Padded

variable {width m n : Nat}

/-- A padded number is its digits behind zeros. -/
theorem padded_eq (width n : Nat) :
    padded width n =
      List.replicate (width - (Nat.toDigits 10 n).length) '0' ++ Nat.toDigits 10 n :=
  rfl

/-- The last digit stands apart: the digits before it are those of the quotient by ten. -/
theorem padded_succ (hw : 0 < width) (n : Nat) :
    padded (width + 1) n = padded width (n / 10) ++ [Nat.digitChar (n % 10)] := by
  rw [padded_eq, padded_eq]
  by_cases h : n < 10
  · obtain ⟨zeros, rfl⟩ := Nat.exists_eq_add_of_lt hw
    rw [Nat.div_eq_of_lt h, Nat.mod_eq_of_lt h, Nat.toDigits_of_lt_base h, Nat.toDigits_zero]
    simp only [List.length_singleton, Nat.zero_add, Nat.add_sub_cancel, List.replicate_succ',
      List.append_assoc]
  · rw [Nat.toDigits_eq_if (by decide), if_neg h]
    simp only [List.length_append, List.length_singleton, Nat.add_sub_add_right,
      List.append_assoc]

/-- A number is never shorter than one digit. -/
theorem padded_one (n : Nat) : padded 1 n = Nat.toDigits 10 n := by
  have hpos : 0 < (Nat.toDigits 10 n).length := Nat.length_toDigits_pos
  rw [padded_eq, Nat.sub_eq_zero_of_le hpos]
  rfl

/-- A padded number is as wide as it is to be, or wider. -/
theorem le_length_padded (width n : Nat) : width ≤ (padded width n).length := by
  rw [padded_eq, List.length_append, List.length_replicate]
  omega

/-- A number that fits a width has it. -/
theorem length_padded (hw : 0 < width) (h : n < Nat.pow 10 width) :
    (padded width n).length = width := by
  have hle := (Nat.length_toDigits_le_iff (by decide) hw).mpr h
  rw [padded_eq, List.length_append, List.length_replicate]
  omega

/-- Different digits are written with different letters, in their order. -/
theorem digitChar_lt_iff (hm : m < 10) (hn : n < 10) :
    m.digitChar < n.digitChar ↔ m < n := by
  have hall : ∀ a : Fin 10, ∀ b : Fin 10, a.val.digitChar < b.val.digitChar ↔ a < b := by decide
  exact hall ⟨m, hm⟩ ⟨n, hn⟩

/-- Numbers are told apart by their padded texts, also where they need more digits. -/
theorem padded_inj (hw : 0 < width) (h : padded width m = padded width n) : m = n := by
  induction width generalizing m n with
  | zero => exact absurd hw (Nat.lt_irrefl 0)
  | succ width ih =>
      rcases Nat.eq_zero_or_pos width with rfl | hpos
      · rw [padded_one, padded_one] at h
        rw [← Nat.ofDigitChars_toDigits (b := 10) (n := m) (by decide) (by decide), h]
        exact Nat.ofDigitChars_toDigits (by decide) (by decide)
      · rw [padded_succ hpos, padded_succ hpos] at h
        obtain ⟨hfront, hlast⟩ := List.append_inj' h rfl
        have hdigit := List.head_eq_of_cons_eq hlast
        have hm := mt (digitChar_lt_iff (Nat.mod_lt m (by decide)) (Nat.mod_lt n (by decide))).mpr
        have hn := mt (digitChar_lt_iff (Nat.mod_lt n (by decide)) (Nat.mod_lt m (by decide))).mpr
        rw [hdigit] at hm hn
        have hle := hm (Char.lt_irrefl _)
        have hge := hn (Char.lt_irrefl _)
        have hquotient := ih hpos hfront
        omega

/-- Texts that begin with parts of one length are compared by these and then by the rest. -/
theorem append_lt_append_iff {s t u v : List Char} (h : s.length = t.length) :
    s ++ u < t ++ v ↔ s < t ∨ s = t ∧ u < v := by
  induction s generalizing t with
  | nil =>
      rw [List.eq_nil_of_length_eq_zero h.symm]
      simp
  | cons c s ih =>
      cases t with
      | nil => cases h
      | cons d t =>
          rw [List.cons_append, List.cons_append, List.cons_lt_cons_iff, List.cons_lt_cons_iff,
            ih (Nat.succ.inj h), List.cons.injEq]
          simp only [and_or_left, or_assoc, and_assoc]

/-- Numbers of one width are ordered as their padded texts are. -/
theorem padded_lt_iff (hw : 0 < width) (hm : m < Nat.pow 10 width) (hn : n < Nat.pow 10 width) :
    padded width m < padded width n ↔ m < n := by
  induction width generalizing m n with
  | zero => exact absurd hw (Nat.lt_irrefl 0)
  | succ width ih =>
      rcases Nat.eq_zero_or_pos width with rfl | hpos
      · rw [padded_one, padded_one, Nat.toDigits_of_lt_base hm, Nat.toDigits_of_lt_base hn,
          List.cons_lt_cons_iff, digitChar_lt_iff hm hn]
        simp
      · have hm' : m / 10 < Nat.pow 10 width := (Nat.div_lt_iff_lt_mul (by decide)).mpr hm
        have hn' : n / 10 < Nat.pow 10 width := (Nat.div_lt_iff_lt_mul (by decide)).mpr hn
        have hsame : padded width (m / 10) = padded width (n / 10) ↔ m / 10 = n / 10 :=
          ⟨padded_inj hpos, congrArg _⟩
        rw [padded_succ hpos, padded_succ hpos,
          append_lt_append_iff ((length_padded hpos hm').trans (length_padded hpos hn').symm),
          ih hpos hm' hn', hsame, List.cons_lt_cons_iff,
          digitChar_lt_iff (Nat.mod_lt m (by decide)) (Nat.mod_lt n (by decide))]
        simp only [List.lt_irrefl, and_false, or_false]
        omega

end Padded

/-! ## Years -/

/-- A year of four digits is written without a sign. -/
theorem yearText_of_four {y : Int} (h : 0 ≤ y ∧ y ≤ 9999) : yearText y = padded 4 y.toNat := by
  rw [yearText, if_pos h]

/-- A year after 9999 has a plus sign. -/
theorem yearText_of_late {y : Int} (h : 9999 < y) : yearText y = '+' :: padded 4 y.toNat := by
  rw [yearText, if_neg (by omega), if_pos (by omega)]

/-- A year before 0 has a minus sign. -/
theorem yearText_of_early {y : Int} (h : y < 0) : yearText y = '-' :: padded 4 (-y).toNat := by
  rw [yearText, if_neg (by omega), if_neg (by omega)]

/-- Exactly the years from 0 to 9999 have four characters. -/
theorem length_yearText_eq_iff {y : Int} : (yearText y).length = 4 ↔ 0 ≤ y ∧ y ≤ 9999 := by
  constructor
  · intro hlength
    have hle := le_length_padded 4
    rcases Int.lt_or_le y 0 with hearly | hge
    · have hp := hle (-y).toNat
      rw [yearText_of_early hearly, List.length_cons] at hlength
      omega
    · rcases Int.lt_or_le 9999 y with hlate | hle'
      · have hp := hle y.toNat
        rw [yearText_of_late hlate, List.length_cons] at hlength
        omega
      · exact ⟨hge, hle'⟩
  · intro hfour
    rw [yearText_of_four hfour]
    exact length_padded (by decide) (show y.toNat < 10000 by omega)

/-- Years are told apart by their texts. -/
theorem yearText_inj {y z : Int} (h : yearText y = yearText z) : y = z := by
  by_cases hy : 0 ≤ y ∧ y ≤ 9999
  · have hz := length_yearText_eq_iff.mp (h ▸ length_yearText_eq_iff.mpr hy)
    rw [yearText_of_four hy, yearText_of_four hz] at h
    have hsame := padded_inj (by decide) h
    omega
  · have hz := mt length_yearText_eq_iff.mpr (h ▸ mt length_yearText_eq_iff.mp hy)
    rcases Int.lt_or_le y 0 with hyEarly | hyLate <;> rcases Int.lt_or_le z 0 with hzEarly | hzLate
    · rw [yearText_of_early hyEarly, yearText_of_early hzEarly] at h
      have hsame := padded_inj (by decide) (List.tail_eq_of_cons_eq h)
      omega
    · rw [yearText_of_early hyEarly, yearText_of_late (by omega)] at h
      exact absurd (List.head_eq_of_cons_eq h) (by decide)
    · rw [yearText_of_late (by omega), yearText_of_early hzEarly] at h
      exact absurd (List.head_eq_of_cons_eq h) (by decide)
    · rw [yearText_of_late (by omega), yearText_of_late (by omega)] at h
      have hsame := padded_inj (by decide) (List.tail_eq_of_cons_eq h)
      omega

/-! ## Stamps -/

namespace Minute

variable {m n : Minute}

/-- The last nine characters of a stamp: month and day, the letter, hour and minute. -/
def tail (m : Minute) : List Char :=
  padded 2 m.month ++ (padded 2 m.day ++ 'T' :: (padded 2 m.hour ++ padded 2 m.minute))

/-- A stamp is the year's text and nine characters more. -/
theorem toList_stamp (m : Minute) : m.stamp.toList = yearText m.year ++ m.tail := by
  rw [stamp, String.toList_ofList, tail, List.append_assoc, List.append_assoc]

/-- A field has two digits. -/
theorem length_two {k : Nat} (h : k < 100) : (padded 2 k).length = 2 :=
  length_padded (by decide) h

/-- What follows the year has nine characters. -/
theorem length_tail (h : m.Fits) : m.tail.length = 9 := by
  unfold tail
  simp only [List.length_append, List.length_cons, length_two h.month, length_two h.day,
    length_two h.hour, length_two h.minute]

/-- Two fields are of one length. -/
theorem length_two_eq {j k : Nat} (hj : j < 100) (hk : k < 100) :
    (padded 2 j).length = (padded 2 k).length :=
  (length_two hj).trans (length_two hk).symm

/-- Minutes are told apart by their stamps. -/
theorem stamp_inj (hm : m.Fits) (hn : n.Fits) (h : m.stamp = n.stamp) : m = n := by
  have hlist := congrArg String.toList h
  rw [toList_stamp, toList_stamp] at hlist
  obtain ⟨hyear, htail⟩ := List.append_inj' hlist ((length_tail hm).trans (length_tail hn).symm)
  obtain ⟨hmonth, hrest⟩ := List.append_inj htail (length_two_eq hm.month hn.month)
  obtain ⟨hday, htime⟩ := List.append_inj hrest (length_two_eq hm.day hn.day)
  obtain ⟨hhour, hminute⟩ := List.append_inj (List.tail_eq_of_cons_eq htime)
    (length_two_eq hm.hour hn.hour)
  cases m
  cases n
  rw [Minute.mk.injEq]
  exact ⟨yearText_inj hyear, padded_inj (by decide) hmonth, padded_inj (by decide) hday,
    padded_inj (by decide) hhour, padded_inj (by decide) hminute⟩

/-- A field of two digits and what follows it are compared one after the other. -/
theorem two_append_lt_iff {j k : Nat} (hj : j < 100) (hk : k < 100) {u v : List Char} :
    padded 2 j ++ u < padded 2 k ++ v ↔ j < k ∨ j = k ∧ u < v := by
  rw [append_lt_append_iff (length_two_eq hj hk), padded_lt_iff (by decide) hj hk,
    show padded 2 j = padded 2 k ↔ j = k from ⟨padded_inj (by decide), congrArg _⟩]

/-- What follows the year is in the order of its fields. -/
theorem tail_lt_iff (hm : m.Fits) (hn : n.Fits) :
    m.tail < n.tail ↔ m.month < n.month ∨ m.month = n.month ∧ (m.day < n.day ∨ m.day = n.day ∧
      (m.hour < n.hour ∨ m.hour = n.hour ∧ m.minute < n.minute)) := by
  unfold tail
  rw [two_append_lt_iff hm.month hn.month, two_append_lt_iff hm.day hn.day,
    List.cons_lt_cons_iff, two_append_lt_iff hm.hour hn.hour,
    padded_lt_iff (by decide) hm.minute hn.minute]
  simp only [Char.lt_irrefl, false_or, true_and]

/-- In the years from 0 to 9999, stamps are ordered as the numbers that their digits write. -/
theorem stamp_lt_iff (hm : m.Fits) (hn : n.Fits) (hmYear : 0 ≤ m.year ∧ m.year ≤ 9999)
    (hnYear : 0 ≤ n.year ∧ n.year ≤ 9999) : m.stamp < n.stamp ↔ m.number < n.number := by
  have hmMonth := hm.month
  have hmDay := hm.day
  have hmHour := hm.hour
  have hmMinute := hm.minute
  have hnMonth := hn.month
  have hnDay := hn.day
  have hnHour := hn.hour
  have hnMinute := hn.minute
  have hlength : (yearText m.year).length = (yearText n.year).length :=
    (length_yearText_eq_iff.mpr hmYear).trans (length_yearText_eq_iff.mpr hnYear).symm
  have hsame : yearText m.year = yearText n.year ↔ m.year = n.year :=
    ⟨yearText_inj, congrArg _⟩
  rw [String.lt_iff, toList_stamp, toList_stamp, append_lt_append_iff hlength, hsame,
    yearText_of_four hmYear, yearText_of_four hnYear,
    padded_lt_iff (by decide) (show m.year.toNat < 10000 by omega)
      (show n.year.toNat < 10000 by omega), tail_lt_iff hm hn]
  unfold number dateNumber
  dsimp only
  omega

end Minute

/-- Two minutes have one stamp only if they are the same. -/
theorem stamp_ofMinuteNumber_inj {m n : Int}
    (h : (ofMinuteNumber m).stamp = (ofMinuteNumber n).stamp) : m = n :=
  ofMinuteNumber_inj (Minute.stamp_inj (ofMinuteNumber_fits m) (ofMinuteNumber_fits n) h)

end JobFleet.Calendar
