import JobFleet.Proofs.Store.Effect

/-!
# Calls that overflow

A store keeps in mind that a call has overflowed, and only that. As long as none has, a caller gets
from every call what the store answers; the call that overflows gives its caller nothing, and every
later one is refused. Neither changes what a key holds.
-/

namespace JobFleet

/-- An expiry is told if that of something written later is. -/
theorem Clock.told_expiry_of_le {now t : Nat} {ttl : Duration}
    (h : Clock.told (Clock.expiry t ttl) = true) (hle : now ≤ t) :
    Clock.told (Clock.expiry now ttl) = true := by
  unfold Clock.told at h ⊢
  rw [decide_eq_true_iff] at h ⊢
  exact Nat.lt_of_le_of_lt (Nat.add_le_add_right hle _) h

/-- A call that fails would not overflow. -/
theorem Call.overflows_of_error {a : Answer} {c : Call a} {now : Nat} {held : Option Entry}
    {f : StoreError} (h : c.effect now held = .error f) : c.overflows now held = false := by
  cases c with
  | increment key ttl =>
      cases held with
      | none => cases h
      | some e =>
          cases hcount : Store.Entry.count key e with
          | error f => simp only [overflows, Store.Entry.leavesWord, hcount]
          | ok n => simp only [effect, Entry.add, hcount, reduceCtorEq] at h
  | decrement key =>
      cases held with
      | none => cases h
      | some e =>
          cases hcount : Store.Entry.count key e with
          | error f => simp only [overflows, Option.any_some, Store.Entry.leavesWord, hcount]
          | ok n => simp only [effect, Entry.add, hcount, reduceCtorEq] at h
  | setIfAbsent | replace | acquireLock | extendLock =>
      simp only [effect] at h
      split at h <;> cases h
  | set => cases h
  | _ => rfl

namespace Store

/-- An expiry that the clock tells is not untold. -/
theorem untold_of_told {now : Nat} {ttl : Duration} (h : Clock.told (Clock.expiry now ttl) = true) :
    untold now (some ttl) = false := by
  rw [untold, expiryOf, Option.map_some, Option.any_some, h]
  rfl

/-- A store that cannot be reached lets no call overflow. -/
theorem overflows_unavailable {s : Store} (h : s.available = false) (now : Nat) {a : Answer}
    (c : Call a) : s.overflows now c = false := by
  rw [overflows, h, Bool.false_and]

/-- Whether a call overflows is told by what its key holds. -/
theorem overflows_of_key {s : Store} (h : s.available = true) (now : Nat) {a : Answer} (c : Call a)
    {k : String} (hk : c.key? = some k) :
    s.overflows now c = c.overflows now (s.entryAt now k) := by
  rw [overflows, h, Bool.true_and, s.heldBy_of_key now c hk]

variable {a : Answer} (s : Store) (now : Nat) (c : Call a)

/-- A store keeps in mind whether a call has overflowed. -/
theorem apply_poisoned :
    (s.apply now c).2.poisoned = (s.poisoned || s.overflows now c) := by
  cases hs : s.available with
  | false => rw [apply_unavailable hs, overflows_unavailable hs, Bool.or_false]
  | true =>
      have hagrees := (s.settled_purge now).agrees_act c
      rw [s.heldBy_purge now c] at hagrees
      rw [apply, if_pos hs]
      cases hact : (s.purge now).act now c with
      | error f =>
          cases heffect : c.effect now (s.heldBy now c) with
          | error g =>
              rw [overflows, Call.overflows_of_error heffect, Bool.and_false, Bool.or_false]
              rfl
          | ok p =>
              rw [hact, heffect] at hagrees
              exact hagrees.elim
      | ok q =>
          cases heffect : c.effect now (s.heldBy now c) with
          | error g =>
              rw [hact, heffect] at hagrees
              exact hagrees.elim
          | ok p =>
              rw [hact, heffect] at hagrees
              change (q.2.poisoned || s.overflows now c) = _
              rw [hagrees.2.2.1]
              rfl

/-- A caller gets what the store answers, as long as no call has overflowed. -/
theorem ask_eq_apply (hs : s.poisoned = false) (hc : s.overflows now c = false) :
    s.ask now c = (some (s.apply now c).1, (s.apply now c).2) := by
  simp only [ask, hs, hc, Bool.false_eq_true, if_false]
  rfl

/-- A call that overflows gives its caller nothing. -/
theorem ask_overflows (hs : s.poisoned = false) (hc : s.overflows now c = true) :
    s.ask now c = (none, (s.purge now).strained true) := by
  simp only [ask, hs, hc, Bool.false_eq_true, if_false, if_true]

/-- After a call has overflowed, every call is refused and changes nothing. -/
theorem ask_poisoned (hs : s.poisoned = true) :
    s.ask now c = (some (.error (if s.available then .lockPoisoned else .unavailable)), s) := by
  rw [ask, if_pos hs]

/-- Before any call has overflowed, a caller gets nothing exactly from one that does. -/
theorem ask_none_iff (hs : s.poisoned = false) :
    (s.ask now c).1 = none ↔ s.overflows now c = true := by
  cases hc : s.overflows now c with
  | true => rw [s.ask_overflows now c hs hc, eq_self, eq_self]
  | false =>
      rw [s.ask_eq_apply now c hs hc]
      exact iff_of_false nofun nofun

/-- A caller that gets a fault gets that of the store, as long as no call has overflowed. -/
theorem ask_error {s : Store} {now : Nat} {c : Call a} (hs : s.poisoned = false) {f : StoreError}
    (h : (s.ask now c).1 = some (.error f)) :
    s.overflows now c = false ∧ (s.apply now c).1 = .error f := by
  cases hc : s.overflows now c with
  | true =>
      rw [s.ask_overflows now c hs hc] at h
      cases h
  | false =>
      rw [s.ask_eq_apply now c hs hc] at h
      exact ⟨rfl, Option.some.inj h⟩

/-- A call that overflows leaves what every key holds. -/
theorem ask_overflows_entryAt (hs : s.poisoned = false) (hc : s.overflows now c = true)
    (k : String) : (s.ask now c).2.entryAt now k = s.entryAt now k := by
  rw [s.ask_overflows now c hs hc]
  exact s.entryAt_purge now k

/-- A store remembers whether a call that a caller made has overflowed. -/
theorem ask_poisons : (s.ask now c).2.poisoned = (s.poisoned || s.overflows now c) := by
  cases hs : s.poisoned with
  | true => rw [s.ask_poisoned now c hs, hs, Bool.true_or]
  | false =>
      cases hc : s.overflows now c with
      | true =>
          rw [s.ask_overflows now c hs hc]
          exact Bool.or_true _
      | false => rw [s.ask_eq_apply now c hs hc, s.apply_poisoned now c, hs, hc]

end Store

end JobFleet
