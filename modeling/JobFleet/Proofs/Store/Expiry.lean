import JobFleet.Proofs.Store.Effect

/-!
# Expiries and failures

A key's expiry is fixed by what is written under it, by extending a lock and by creating a
counter; adding to a counter that is there moves no expiry. A call fails only on a store that
cannot be reached or on a key that holds no number, and then leaves every key as it is.
-/

namespace JobFleet

/-! ## Expiries -/

/-- The expiry that an answered call fixes for its key, told whether the key held something: what
it writes, extends or creates has the expiry of its own time to live, and a counter that is
created without one has none. -/
def Call.fixes (now : Nat) (held : Bool) : {a : Answer} → Call a → a.Value → Option (Option Nat)
  | _, .set _ _ ttl, _ => some (expiryOf now ttl)
  | _, .setIfAbsent _ _ ttl, true => some (expiryOf now ttl)
  | _, .replace _ _ _ ttl, true => some (expiryOf now ttl)
  | _, .acquireLock _ _ ttl, true => some (expiryOf now (some ttl))
  | _, .extendLock _ _ ttl, true => some (expiryOf now (some ttl))
  | _, .increment _ ttl, _ => if held then none else some (expiryOf now ttl)
  | _, .decrement _, _ => if held then none else some none
  | _, .incrementIfBelow _ _, true => if held then none else some none
  | _, _, _ => none

/-- A call that adds to a counter. -/
def Call.Adds {a : Answer} : Call a → Prop
  | .increment .. | .decrement _ | .incrementIfBelow .. => True
  | _ => False

/-- A sum has the expiry of what was there, or the new one. -/
theorem Entry.add_expires {key : String} {step : Int} {expires : Option Nat} {held : Option Entry}
    {n : Int} {after : Option Entry} (h : Entry.add key step expires held = .ok (n, after)) :
    ∃ e, after = some e ∧ e.expires = held.elim expires Entry.expires := by
  unfold Entry.add at h
  split at h
  · split at h
    · cases h
      exact ⟨_, rfl, rfl⟩
    · cases h
  · cases h
    exact ⟨_, rfl, rfl⟩

/-- What a call leaves on its key has the expiry that the call fixes, or else the one it had. -/
theorem Call.effect_expires {a : Answer} {c : Call a} {now : Nat} {held : Option Entry}
    {v : a.Value} {e : Entry} (h : c.effect now held = .ok (v, some e)) :
    (c.fixes now held.isSome v).or (held.map Entry.expires) = some e.expires := by
  cases c with
  | set =>
      cases h
      rfl
  | setIfAbsent | replace | acquireLock | extendLock =>
      simp only [Call.effect] at h
      split at h <;> cases h <;> rfl
  | increment =>
      obtain ⟨e', he, hexpires⟩ := Entry.add_expires h
      cases he
      cases held <;> exact congrArg some hexpires.symm
  | decrement =>
      obtain ⟨e', he, hexpires⟩ := Entry.add_expires h
      cases he
      cases held <;> exact congrArg some hexpires.symm
  | incrementIfBelow =>
      simp only [Call.effect] at h
      split at h
      · split at h <;> cases h
        · rfl
        · cases held <;> rfl
      · cases h
  | ping =>
      cases h
      rfl
  | get =>
      cases h
      rfl
  | delete => cases h
  | counter =>
      simp only [Call.effect] at h
      split at h <;> cases h
      rfl
  | releaseLock =>
      simp only [Call.effect] at h
      split at h <;> cases h
      rfl

/-- A call that adds to a key that holds something leaves something there, with the same expiry. -/
theorem Call.Adds.leaves {a : Answer} {c : Call a} (h : c.Adds) (now : Nat) (x : Entry) :
    ∃ y, c.leaves now (some x) = some y ∧ y.expires = x.expires := by
  unfold Call.leaves
  cases he : c.effect now (some x) with
  | error f => exact ⟨x, rfl, rfl⟩
  | ok p =>
      obtain ⟨v, after⟩ := p
      have hkept : after.isSome = true ∧ c.fixes now true v = none := by
        cases c with
        | increment key ttl =>
            have hadd : Entry.add key 1 (expiryOf now ttl) (some x) = .ok (v, after) := he
            obtain ⟨e, rfl, -⟩ := Entry.add_expires hadd
            exact ⟨rfl, rfl⟩
        | decrement key =>
            have hadd : Entry.add key (-1) none (some x) = .ok (v, after) := he
            obtain ⟨e, rfl, -⟩ := Entry.add_expires hadd
            exact ⟨rfl, rfl⟩
        | incrementIfBelow =>
            simp only [Call.effect] at he
            split at he
            · split at he <;> cases he <;> exact ⟨rfl, rfl⟩
            · cases he
        | _ => exact h.elim
      obtain ⟨y, rfl⟩ := Option.isSome_iff_exists.mp hkept.1
      have hexpires := Call.effect_expires he
      rw [show (some x).isSome = true from rfl, hkept.2] at hexpires
      exact ⟨y, rfl, (Option.some.inj hexpires).symm⟩

/-! ## Failures -/

/-- An entry that cannot be counted holds no number. -/
theorem Entry.count_error {key : String} {e : Entry} {f : StoreError}
    (h : Store.Entry.count key e = .error f) : f = .notInteger key := by
  unfold Store.Entry.count at h
  split at h <;> cases h
  rfl

/-- A sum fails only where no number is held. -/
theorem Entry.add_error {key : String} {step : Int} {expires : Option Nat} {held : Option Entry}
    {f : StoreError} (h : Entry.add key step expires held = .error f) : f = .notInteger key := by
  unfold Entry.add at h
  split at h
  · split at h
    · cases h
    · rename_i hcount
      cases h
      exact Entry.count_error hcount
  · cases h

/-- A count fails only where no number is held. -/
theorem Entry.number_error {key : String} {held : Option Entry} {f : StoreError}
    (h : Entry.number key held = .error f) : f = .notInteger key := by
  cases held with
  | none => cases h
  | some e => exact Entry.count_error h

/-- A call has no effect only because its key holds no number. -/
theorem Call.effect_error {a : Answer} {c : Call a} {now : Nat} {held : Option Entry}
    {f : StoreError} (h : c.effect now held = .error f) :
    ∃ key, c.key? = some key ∧ f = .notInteger key := by
  cases c with
  | ping | get | set | delete => cases h
  | setIfAbsent | replace | acquireLock | releaseLock | extendLock =>
      simp only [Call.effect] at h
      split at h <;> cases h
  | increment key => exact ⟨key, rfl, Entry.add_error h⟩
  | decrement key => exact ⟨key, rfl, Entry.add_error h⟩
  | counter key =>
      simp only [Call.effect] at h
      split at h
      · cases h
      · rename_i hnumber
        cases h
        exact ⟨key, rfl, Entry.number_error hnumber⟩
  | incrementIfBelow key =>
      simp only [Call.effect] at h
      split at h
      · split at h <;> cases h
      · rename_i hnumber
        cases h
        exact ⟨key, rfl, Entry.number_error hnumber⟩

namespace Store

variable {a : Answer} {s : Store} {now t : Nat} {c : Call a} {f : StoreError}

/-- A call that fails leaves every key as it is, from then on. -/
theorem apply_error (h : (s.apply now c).1 = .error f) (ht : now ≤ t) (k : String) :
    (s.apply now c).2.entryAt t k = s.entryAt t k := by
  rw [entryAt_later _ ht, entryAt_later s ht]
  cases hs : s.available with
  | false => rw [apply_unavailable hs]
  | true =>
      rw [apply_answer s now c hs] at h
      rw [entryAt_apply s now c hs]
      split
      · rw [s.heldBy_of_key now c ‹_›] at h
        unfold Call.leaves
        cases he : c.effect now (s.entryAt now k) with
        | error g => rfl
        | ok p =>
            rw [he] at h
            cases h
      · rfl

/-- A call fails because the store cannot be reached or because its key holds no number. -/
theorem apply_fault (h : (s.apply now c).1 = .error f) :
    f = .unavailable ∧ s.available = false ∨ ∃ key, c.key? = some key ∧ f = .notInteger key := by
  cases hs : s.available with
  | false =>
      rw [apply_unavailable hs] at h
      cases h
      exact .inl ⟨rfl, rfl⟩
  | true =>
      rw [apply_answer s now c hs] at h
      cases he : c.effect now (s.heldBy now c) with
      | ok p =>
          rw [he] at h
          cases h
      | error g =>
          rw [he] at h
          cases h
          exact .inr (Call.effect_error he)

/-! ## The last expiry -/

/-- The expiry that a call fixes for a key, if it is about that key and succeeds. -/
def fixed? (s : Store) (key : String) (now : Nat) (c : Call a) : Option (Option Nat) :=
  if c.key? = some key then
    match (s.apply now c).1 with
    | .ok v => c.fixes now (s.entryAt now key).isSome v
    | .error _ => none
  else none

/-- What a key holds after a call has the expiry that the call fixes, or else the one that the key
had. -/
theorem apply_expires {k : String} {e : Entry} (h : (s.apply now c).2.entryAt now k = some e) :
    (s.fixed? k now c).or ((s.entryAt now k).map Entry.expires) = some e.expires := by
  unfold fixed?
  by_cases hkey : c.key? = some k
  · rw [if_pos hkey]
    cases hanswer : (s.apply now c).1 with
    | error f =>
        rw [apply_error hanswer (Nat.le_refl now)] at h
        rw [h]
        rfl
    | ok v =>
        have hs : s.available = true := by
          cases hs : s.available with
          | true => rfl
          | false =>
              rw [apply_unavailable hs] at hanswer
              cases hanswer
        rw [apply_answer s now c hs, s.heldBy_of_key now c hkey] at hanswer
        rw [entryAt_apply s now c hs, if_pos hkey, Call.leaves] at h
        cases he : c.effect now (s.entryAt now k) with
        | error f =>
            rw [he] at hanswer
            cases hanswer
        | ok p =>
            rw [he] at hanswer h
            cases hanswer
            obtain ⟨v, after⟩ := p
            cases h
            exact Call.effect_expires he
  · rw [if_neg hkey]
    have hsame : (s.apply now c).2.entryAt now k = s.entryAt now k := by
      cases hs : s.available with
      | false => rw [apply_unavailable hs]
      | true => rw [entryAt_apply s now c hs, if_neg hkey]
    rw [← hsame, h]
    rfl

end Store

end JobFleet
