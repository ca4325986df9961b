import JobFleet.WorkerId

/-!
# Hexadecimal digits tell numbers apart

A number below `16 ^ width` is determined by its padded hexadecimal digits, so that different
identities have different tokens and different digests different texts.
-/

namespace JobFleet

namespace Digest

/-- The last digit stands apart: the digits before it are those of the quotient by sixteen. -/
theorem hexPadded_succ (width n : Nat) :
    hexPadded (width + 1) n = hexPadded width (n / 16) ++ [Nat.digitChar (n % 16)] := by
  unfold hexPadded
  rw [List.range_succ, List.map_append]
  congr 1
  · apply List.map_congr_left
    intro i hi
    have hlt : i < width := List.mem_range.mp hi
    have he : width + 1 - 1 - i = (width - 1 - i) + 1 := by omega
    have hpow : Nat.pow 16 ((width - 1 - i) + 1) = 16 * Nat.pow 16 (width - 1 - i) :=
      Nat.pow_succ'
    rw [he, hpow, Nat.div_div_eq_div_mul]
  · simp

/-- Different digits are written with different letters. -/
theorem digitChar_inj_of_lt {m n : Nat} (hm : m < 16) (hn : n < 16)
    (h : m.digitChar = n.digitChar) : m = n := by
  have hall : ∀ a : Fin 16, ∀ b : Fin 16, a.val.digitChar = b.val.digitChar → a = b := by decide
  exact congrArg Fin.val (hall ⟨m, hm⟩ ⟨n, hn⟩ h)

/-- Numbers that fit the width are told apart by their digits. -/
theorem hexPadded_inj {width m n : Nat} (hm : m < Nat.pow 16 width) (hn : n < Nat.pow 16 width)
    (h : hexPadded width m = hexPadded width n) : m = n := by
  induction width generalizing m n with
  | zero =>
      have hm' : m < 1 := hm
      have hn' : n < 1 := hn
      omega
  | succ width ih =>
      rw [hexPadded_succ, hexPadded_succ] at h
      obtain ⟨hfront, hlast⟩ := List.append_inj' h rfl
      have hdigit : m % 16 = n % 16 :=
        digitChar_inj_of_lt (Nat.mod_lt m (by decide)) (Nat.mod_lt n (by decide))
          (List.head_eq_of_cons_eq hlast)
      have hquotient : m / 16 = n / 16 := by
        refine ih ?_ ?_ hfront <;> rw [Nat.div_lt_iff_lt_mul (by decide)]
        · exact hm
        · exact hn
      omega

/-- Words are told apart by their digits in a row. -/
theorem flatMap_hexPadded_inj {ws vs : List UInt32} (hlength : ws.length = vs.length)
    (h : ws.flatMap (fun w => hexPadded 8 w.toNat) = vs.flatMap fun w => hexPadded 8 w.toNat) :
    ws = vs := by
  induction ws generalizing vs with
  | nil => exact (List.eq_nil_of_length_eq_zero hlength.symm).symm
  | cons w ws ih =>
      cases vs with
      | nil => cases hlength
      | cons v vs =>
          rw [List.flatMap_cons, List.flatMap_cons] at h
          obtain ⟨hword, hwords⟩ := List.append_inj h (by simp only [length_hexPadded])
          have hw : w.toNat < Nat.pow 16 8 := w.toNat_lt
          have hv : v.toNat < Nat.pow 16 8 := v.toNat_lt
          rw [UInt32.toNat_inj.mp (hexPadded_inj hw hv hword),
            ih (Nat.succ.inj hlength) hwords]

/-- Different digests have different texts. -/
theorem State.hex_inj {s t : State} (h : s.hex = t.hex) : s = t := by
  have hwords : [s.a, s.b, s.c, s.d, s.e, s.f, s.g, s.h] =
      [t.a, t.b, t.c, t.d, t.e, t.f, t.g, t.h] := flatMap_hexPadded_inj rfl h
  cases s
  cases t
  simp only [List.cons.injEq, and_true] at hwords
  obtain ⟨rfl, rfl, rfl, rfl, rfl, rfl, rfl, rfl⟩ := hwords
  rfl

end Digest

/-- Different identities have different tokens. -/
theorem WorkerId.token_inj {v w : WorkerId} (h : v.token = w.token) : v = w := by
  have hdigits : v.digits = w.digits := String.ofList_injective h
  have hv : v.bits.toNat < Nat.pow 16 32 := v.bits.isLt
  have hw : w.bits.toNat < Nat.pow 16 32 := w.bits.isLt
  have hbits : v.bits.toNat = w.bits.toNat := Digest.hexPadded_inj hv hw hdigits
  cases v
  cases w
  exact congrArg WorkerId.mk (BitVec.eq_of_toNat_eq hbits)

end JobFleet
