import JobFleet.Store.Basic

/-!
# What a call does to its key

A call reads and writes one key at most. Its effect is a function of what that key holds at the
instant of the call: an answer and what the key holds afterwards, or a fault. A store that can
be reached gives the effect's answer, leaves on the key what the effect leaves, and keeps every
other key; what a key holds later is what it holds now, less what has run out since.
-/

namespace JobFleet

/-- The store key that a call may write. -/
def Call.target {a : Answer} (c : Call a) : Option String :=
  match c with
  | .get _ => none
  | .counter _ => none
  | c => c.key?

/-- A call writes no key but its own. -/
theorem Call.key?_of_target {a : Answer} {c : Call a} {k : String} (h : c.target = some k) :
    c.key? = some k := by
  cases c with
  | get => cases h
  | counter => cases h
  | _ => exact h

namespace Entry

/-- The effect of adding to a counter. -/
def add (key : String) (step : Int) (expires : Option Nat) (held : Option Entry) :
    Except StoreError (Int × Option Entry) :=
  match held with
  | some e =>
      match Store.Entry.count key e with
      | .ok n =>
          let next := Number.Range.int64.clamp (n + step)
          .ok (next, some (Store.Entry.recount e next))
      | .error fault => .error fault
  | none => .ok (step, some ⟨Number.showInteger step, expires⟩)

/-- The number that a key holds, zero if it holds nothing. -/
def number (key : String) : Option Entry → Except StoreError Int
  | some e => Store.Entry.count key e
  | none => .ok 0

end Entry

/-- The answer of a call and what its key holds afterwards, given what it held. -/
def Call.effect (now : Nat) (held : Option Entry) :
    {a : Answer} → Call a → Except StoreError (a.Value × Option Entry)
  | _, .ping => .ok ((), held)
  | _, .get _ => .ok (held.map Entry.value, held)
  | _, .set _ value ttl => .ok ((), some ⟨value, expiryOf now ttl⟩)
  | _, .setIfAbsent _ value ttl =>
      if held.isSome then .ok (false, held) else .ok (true, some ⟨value, expiryOf now ttl⟩)
  | _, .replace _ expected value ttl =>
      if held.map Entry.value = some expected then .ok (true, some ⟨value, expiryOf now ttl⟩)
      else .ok (false, held)
  | _, .delete _ => .ok ((), none)
  | _, .increment key ttl => Entry.add key 1 (expiryOf now ttl) held
  | _, .decrement key => Entry.add key (-1) none held
  | _, .counter key =>
      match Entry.number key held with
      | .ok n => .ok (n, held)
      | .error fault => .error fault
  | _, .incrementIfBelow key ceiling =>
      match Entry.number key held with
      | .ok n =>
          if ceiling ≤ n then .ok (false, held)
          else .ok (true, some ⟨Number.showInteger (n + 1), held.bind Entry.expires⟩)
      | .error fault => .error fault
  | _, .acquireLock _ token ttl =>
      if held.isSome then .ok (false, held)
      else .ok (true, some ⟨token, some (Clock.expiry now ttl)⟩)
  | _, .releaseLock _ token =>
      if held.map Entry.value = some token then .ok (true, none) else .ok (false, held)
  | _, .extendLock _ token ttl =>
      if held.map Entry.value = some token then
        .ok (true, some ⟨token, some (Clock.expiry now ttl)⟩)
      else .ok (false, held)

/-- What a call leaves on its key, given what it held: the same if the call fails. -/
def Call.leaves {a : Answer} (now : Nat) (held : Option Entry) (c : Call a) : Option Entry :=
  match c.effect now held with
  | .ok (_, after) => after
  | .error _ => held

namespace Entry

/-- What is written with a time to live is there at first. -/
theorem live_expiryOf (now : Nat) (value : String) (ttl : Option Duration) :
    Entry.live now ⟨value, expiryOf now ttl⟩ = true := by
  cases ttl with
  | none => rfl
  | some d => exact decide_eq_true (Clock.lt_expiry now d)

/-- What is there later is there before. -/
theorem live_of_le {t now : Nat} (h : now ≤ t) {e : Entry} (hl : e.live t = true) :
    e.live now = true := by
  unfold live at *
  split at hl
  · exact decide_eq_true (Nat.lt_of_le_of_lt h (of_decide_eq_true hl))
  · rfl

end Entry

namespace Store

/-- What a key holds later is what it holds now, unless it has run out since. -/
theorem entryAt_later (s : Store) {now t : Nat} (h : now ≤ t) (k : String) :
    s.entryAt t k = (s.entryAt now k).filter (Entry.live t) := by
  unfold entryAt
  cases hk : s.entries.find? k with
  | none => rfl
  | some e =>
      cases ht : e.live t with
      | true => simp [Option.filter, ht, Entry.live_of_le h ht]
      | false => cases hn : e.live now <;> simp [Option.filter, ht, hn]

/-- Once what is gone is dropped, the entries are what keys hold. -/
@[simp] theorem purge_find? (s : Store) (now : Nat) (k : String) :
    (s.purge now).entries.find? k = s.entryAt now k :=
  Table.find?_filter s.entries (fun _ e => e.live now) k

/-- Nothing more runs out at once. -/
@[simp] theorem entryAt_purge (s : Store) (now : Nat) (k : String) :
    (s.purge now).entryAt now k = s.entryAt now k := by
  rw [entryAt, purge_find?, ← s.entryAt_later (Nat.le_refl now) k]

/-- What a key holds is there. -/
theorem entryAt_live {s : Store} {now : Nat} {k : String} {e : Entry}
    (h : s.entryAt now k = some e) : e.live now = true := by
  rw [entryAt, Option.filter_eq_some_iff] at h
  exact h.2

/-- A key holds what is written under it. -/
theorem entryAt_write (s : Store) (now : Nat) (k j : String) (e : Entry)
    (h : e.live now = true) :
    (s.write k e).entryAt now j = if j = k then some e else s.entryAt now j := by
  unfold entryAt write
  rw [Table.find?_insert]
  split
  · simp [Option.filter, h]
  · rfl

/-- A key that is removed holds nothing. -/
theorem entryAt_remove (s : Store) (now : Nat) (k j : String) :
    (s.remove k).entryAt now j = if j = k then none else s.entryAt now j := by
  unfold entryAt remove
  rw [Table.find?_erase]
  split <;> rfl

/-- A part of the store's answer and of the effect's go together: the same value and the same
fault, and on success every key but the call's own is kept. -/
def Agrees {α : Type} (s : Store) (now : Nat) (key? : Option String)
    (r : Except StoreError (α × Store)) (e : Except StoreError (α × Option Entry)) : Prop :=
  match r, e with
  | .ok (v, t), .ok (u, after) =>
      v = u ∧ t.available = s.available ∧ t.poisoned = s.poisoned ∧
        ∀ j, t.entryAt now j = if key? = some j then after else s.entryAt now j
  | .error d, .error f => d = f
  | _, _ => False

/-- A call that leaves the store alone leaves on its key what it held. -/
theorem agrees_same {α : Type} (s : Store) (now : Nat) (key? : Option String) (v : α) :
    Agrees s now key? (.ok (v, s)) (.ok (v, key?.bind (s.entryAt now))) := by
  refine ⟨rfl, rfl, rfl, ?_⟩
  intro j
  split
  · rename_i h
    rw [h, Option.bind_some]
  · rfl

/-- Writing an entry does under its key what it says. -/
theorem agrees_write {α : Type} (s : Store) {now : Nat} (k : String) (v : α) {e : Entry}
    (h : e.live now = true) : Agrees s now (some k) (.ok (v, s.write k e)) (.ok (v, some e)) := by
  refine ⟨rfl, rfl, rfl, ?_⟩
  intro j
  rw [entryAt_write s now k j e h]
  simp only [Option.some.injEq, eq_comm]

/-- Removing a key does under it what it says. -/
theorem agrees_remove {α : Type} (s : Store) (now : Nat) (k : String) (v : α) :
    Agrees s now (some k) (.ok (v, s.remove k)) (.ok (v, none)) := by
  refine ⟨rfl, rfl, rfl, ?_⟩
  intro j
  rw [entryAt_remove s now k j]
  simp only [Option.some.injEq, eq_comm]

/-- A store that holds nothing that has run out. -/
def Settled (s : Store) (now : Nat) : Prop := ∀ k, s.entries.find? k = s.entryAt now k

/-- Nothing that is gone is left in a store that has dropped it. -/
theorem settled_purge (s : Store) (now : Nat) : (s.purge now).Settled now := by
  intro k
  rw [purge_find?, entryAt_purge]

section Settled

variable {s : Store} {now : Nat} (hs : s.Settled now)

include hs

/-- A settled store contains the keys that hold something. -/
theorem Settled.contains (k : String) : s.entries.contains k = (s.entryAt now k).isSome := by
  rw [Table.contains, hs k]

/-- A settled store holds a text where its key does. -/
theorem Settled.holds (k value : String) :
    s.holds k value = true ↔ (s.entryAt now k).map Entry.value = some value := by
  rw [Store.holds, hs k]
  cases s.entryAt now k <;> simp

/-- Writing where nothing is does under its key what it says. -/
theorem Settled.agrees_putIfAbsent (k : String) {e : Entry} (h : e.live now = true) :
    Agrees s now (some k) (.ok (s.putIfAbsent k e))
      (if (s.entryAt now k).isSome then .ok (false, s.entryAt now k) else .ok (true, some e)) := by
  rw [putIfAbsent, hs.contains k]
  split
  · exact s.agrees_same now (some k) false
  · exact s.agrees_write k true h

/-- What is done only where a text is held does under its key what it says. -/
theorem Settled.agrees_ifHeld {k : String} (value : String) {t : Store} {after : Option Entry}
    (h : Agrees s now (some k) (.ok (true, t)) (.ok (true, after))) :
    Agrees s now (some k) (if s.holds k value then .ok (true, t) else .ok (false, s))
      (if (s.entryAt now k).map Entry.value = some value then .ok (true, after)
        else .ok (false, s.entryAt now k)) := by
  by_cases hv : (s.entryAt now k).map Entry.value = some value
  · rw [if_pos hv, if_pos ((hs.holds k value).mpr hv)]
    exact h
  · rw [if_neg hv, if_neg fun e => hv ((hs.holds k value).mp e)]
    exact s.agrees_same now (some k) false

/-- Adding to a counter does under its key what it says. -/
theorem Settled.agrees_add (k : String) (step : Int) {expires : Option Nat}
    (h : ∀ n, Entry.live now ⟨Number.showInteger n, expires⟩ = true) :
    Agrees s now (some k) (s.add k step expires)
      (Entry.add k step expires (s.entryAt now k)) := by
  unfold add JobFleet.Entry.add
  rw [hs k]
  cases hk : s.entryAt now k with
  | none => exact s.agrees_write k step (h step)
  | some e =>
      simp only
      cases hc : Entry.count k e with
      | error f => exact rfl
      | ok n =>
          have hl : (Entry.recount e (Number.Range.int64.clamp (n + step))).live now = true :=
            entryAt_live (e := e) hk
          exact s.agrees_write k _ hl

/-- Counting below a ceiling does under its key what it says. -/
theorem Settled.agrees_incrementIfBelow (k : String) (ceiling : Int) :
    Agrees s now (some k) (s.act now (.incrementIfBelow k ceiling))
      ((Call.incrementIfBelow k ceiling).effect now (s.entryAt now k)) := by
  simp only [act, Call.effect, hs k]
  cases hk : s.entryAt now k with
  | none =>
      have h := s.agrees_same now (some k) false
      rw [Option.bind_some, hk] at h
      simp only [JobFleet.Entry.number, bind, Except.bind, pure, Except.pure]
      split
      · exact h
      · exact s.agrees_write k true rfl
  | some e =>
      have h := s.agrees_same now (some k) false
      rw [Option.bind_some, hk] at h
      simp only [JobFleet.Entry.number, bind, Except.bind, pure, Except.pure]
      cases hc : Entry.count k e with
      | error f => exact rfl
      | ok n =>
          simp only
          split
          · exact h
          · exact s.agrees_write k true (entryAt_live (e := e) hk)

/-- A call acts on a settled store as its effect says. -/
theorem Settled.agrees_act {a : Answer} (c : Call a) :
    Agrees s now c.key? (s.act now c) (c.effect now (c.key?.bind (s.entryAt now))) := by
  cases c with
  | ping => exact s.agrees_same now none ()
  | get k =>
      simp only [act, Call.key?, Call.effect, Option.bind_some, hs k]
      exact s.agrees_same now (some k) _
  | set k value ttl => exact s.agrees_write k () (Entry.live_expiryOf now value ttl)
  | setIfAbsent k value ttl => exact hs.agrees_putIfAbsent k (Entry.live_expiryOf now value ttl)
  | replace k expected value ttl =>
      exact hs.agrees_ifHeld expected (s.agrees_write k true (Entry.live_expiryOf now value ttl))
  | delete k => exact s.agrees_remove now k ()
  | increment k ttl =>
      exact hs.agrees_add k 1 fun n => Entry.live_expiryOf now (Number.showInteger n) ttl
  | decrement k => exact hs.agrees_add k (-1) fun _ => rfl
  | counter k =>
      simp only [act, Call.key?, Call.effect, Option.bind_some, hs k]
      cases hk : s.entryAt now k with
      | none =>
          have h := s.agrees_same now (some k) (0 : Int)
          rw [Option.bind_some, hk] at h
          exact h
      | some e =>
          cases hc : Entry.count k e with
          | error f => simp only [Except.map, JobFleet.Entry.number, hc, Agrees]
          | ok n =>
              have h := s.agrees_same now (some k) n
              rw [Option.bind_some, hk] at h
              simp only [Except.map, JobFleet.Entry.number, hc]
              exact h
  | incrementIfBelow k ceiling => exact hs.agrees_incrementIfBelow k ceiling
  | acquireLock name token ttl =>
      exact hs.agrees_putIfAbsent (lockKey name) (Entry.live_expiryOf now token (some ttl))
  | releaseLock name token =>
      exact hs.agrees_ifHeld token (s.agrees_remove now (lockKey name) true)
  | extendLock name token ttl =>
      exact hs.agrees_ifHeld token
        (s.agrees_write (lockKey name) true (Entry.live_expiryOf now token (some ttl)))

end Settled

variable {a : Answer} (s : Store) (now : Nat) (c : Call a)

/-- A call finds what its key holds. -/
theorem heldBy_of_key {k : String} (h : c.key? = some k) : s.heldBy now c = s.entryAt now k := by
  rw [heldBy, h, Option.bind_some]

/-- Dropping what is gone does not change what a call finds. -/
theorem heldBy_purge : c.key?.bind ((s.purge now).entryAt now) = s.heldBy now c :=
  congrArg c.key?.bind (funext fun k => s.entryAt_purge now k)

/-- A store that can be reached answers a call as its effect says. -/
theorem apply_answer (h : s.available = true) :
    (s.apply now c).1 = (c.effect now (s.heldBy now c)).map Prod.fst := by
  have ha := (s.settled_purge now).agrees_act c
  rw [s.heldBy_purge now c] at ha
  unfold apply
  rw [if_pos h]
  cases hr : (s.purge now).act now c with
  | error f =>
      cases he : c.effect now (s.heldBy now c) with
      | error g =>
          rw [hr, he] at ha
          exact congrArg Except.error ha
      | ok p =>
          rw [hr, he] at ha
          exact ha.elim
  | ok q =>
      cases he : c.effect now (s.heldBy now c) with
      | error g =>
          rw [hr, he] at ha
          exact ha.elim
      | ok p =>
          rw [hr, he] at ha
          exact congrArg Except.ok ha.1

/-- A store that can be reached leaves on the key of a call what its effect leaves, and keeps
every other key. -/
theorem apply_entryAt (h : s.available = true) (k : String) :
    (s.apply now c).2.entryAt now k =
      if c.key? = some k then c.leaves now (s.heldBy now c) else s.entryAt now k := by
  have ha := (s.settled_purge now).agrees_act c
  rw [s.heldBy_purge now c] at ha
  unfold apply
  rw [if_pos h]
  unfold Call.leaves
  cases hr : (s.purge now).act now c with
  | error f =>
      cases he : c.effect now (s.heldBy now c) with
      | error g =>
          simp only [entryAt_purge]
          split
          · exact (s.heldBy_of_key now c ‹_›).symm
          · rfl
      | ok p =>
          rw [hr, he] at ha
          exact ha.elim
  | ok q =>
      cases he : c.effect now (s.heldBy now c) with
      | error g =>
          rw [hr, he] at ha
          exact ha.elim
      | ok p =>
          rw [hr, he] at ha
          change q.2.entryAt now k = _
          rw [ha.2.2.2 k, entryAt_purge]

/-- What a key holds after a call, told from what it held before. -/
theorem entryAt_apply (h : s.available = true) (k : String) :
    (s.apply now c).2.entryAt now k =
      if c.key? = some k then c.leaves now (s.entryAt now k) else s.entryAt now k := by
  rw [apply_entryAt s now c h k]
  split
  · rw [s.heldBy_of_key now c ‹_›]
  · rfl

/-- A call leaves the reachability of the store as it is. -/
@[simp] theorem apply_available : (s.apply now c).2.available = s.available := by
  unfold apply
  cases h : s.available with
  | false => exact h
  | true =>
      have ha := (s.settled_purge now).agrees_act c
      simp only [if_true]
      cases hr : (s.purge now).act now c with
      | error f => exact h
      | ok q =>
          rw [hr] at ha
          unfold Agrees at ha
          split at ha
          · rename_i hq _
            cases hq
            exact ha.2.1.trans h
          · rename_i hq _
            cases hq
          · exact ha.elim

/-- A call changes no key but the one it may write. -/
theorem apply_entryAt_of_ne {k : String} (h : c.target ≠ some k) :
    (s.apply now c).2.entryAt now k = s.entryAt now k := by
  cases hs : s.available with
  | false => rw [apply_unavailable hs]
  | true =>
      rw [entryAt_apply s now c hs k]
      split
      · rename_i hk
        cases c with
        | get => rfl
        | counter key =>
            cases hn : JobFleet.Entry.number key (s.entryAt now k) <;>
              simp only [Call.leaves, Call.effect, hn]
        | _ => exact absurd hk h
      · rfl

end Store

end JobFleet
