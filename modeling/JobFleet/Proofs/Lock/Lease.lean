import JobFleet.Lock
import JobFleet.Proofs.Number.Hex
import JobFleet.Proofs.Store.Keys
import JobFleet.Proofs.Store.Overflow

/-!
# Locks are leases

The reference lease knows one hold for each name: an owner and the instant at which the hold is
over. A store whose lock keys only lock calls write, and which can be reached, answers any timed
sequence of requests of any number of claimants exactly as the reference does, and holds under
the key of each name its unexpired holder's token until the end of the hold. This takes that no
call overflows; a request overflows exactly if it is granted a hold whose end the clock does not
tell.
-/

namespace JobFleet

/-- A lock or a clone of it: clones share the owner. -/
structure Claimant where
  owner : WorkerId
  name : String
  ttl : Duration
deriving DecidableEq

/-- The lock that a claimant is. -/
def Claimant.lock (c : Claimant) : Lock := Lock.new c.owner c.name c.ttl

/-- What can be asked of a lock. -/
inductive Lock.Verb
  | acquire
  | extend
  | release
deriving DecidableEq

/-- The call by which a lock does what it is asked. -/
def Lock.call (l : Lock) : Lock.Verb → Call .flag
  | .acquire => l.acquire
  | .extend => l.extend
  | .release => l.release

@[simp] theorem Claimant.call_key? (c : Claimant) (v : Lock.Verb) :
    (c.lock.call v).key? = some (lockKey c.name) := by
  cases v <;> rfl

/-! ## The reference -/

/-- A hold on a name: its owner, and the instant from which it is over. -/
structure Hold where
  owner : WorkerId
  ends : Nat
deriving DecidableEq

/-- The last hold on each name. -/
abbrev Leases : Type := String → Option Hold

namespace Leases

/-- Nothing has been held. -/
def none : Leases := fun _ => .none

/-- The unexpired holder of a name. -/
def holder (l : Leases) (now : Nat) (name : String) : Option Hold :=
  (l name).filter fun h => now < h.ends

/-- Whether an owner is the unexpired holder of a name. -/
def HeldBy (l : Leases) (now : Nat) (name : String) (owner : WorkerId) : Prop :=
  (l.holder now name).map Hold.owner = some owner

instance (l : Leases) (now : Nat) (name : String) (owner : WorkerId) :
    Decidable (l.HeldBy now name owner) := inferInstanceAs (Decidable (_ = _))

/-- Gives a name another hold, or none. -/
def put (l : Leases) (name : String) (h : Option Hold) : Leases :=
  fun n => if n = name then h else l n

/-- The hold that a claimant gains now: for its time to live in whole seconds, rounded up and
at least one. -/
def grant (now : Nat) (c : Claimant) : Hold :=
  ⟨c.owner, now + max 1 ((c.ttl.nanos + 999999999) / 1000000000) * 1000000000⟩

/-- Whether the reference says yes: to acquiring iff there is no unexpired holder, to extending
and releasing iff the claimant's owner is the unexpired holder. -/
def Grants (l : Leases) (now : Nat) (c : Claimant) : Lock.Verb → Prop
  | .acquire => l.holder now c.name = .none
  | .extend | .release => l.HeldBy now c.name c.owner

instance (l : Leases) (now : Nat) (c : Claimant) : (v : Lock.Verb) → Decidable (l.Grants now c v)
  | .acquire => inferInstanceAs (Decidable (_ = _))
  | .extend | .release => inferInstanceAs (Decidable (l.HeldBy now c.name c.owner))

/-- The hold on the claimant's name once the reference has said yes. -/
def outcome (now : Nat) (c : Claimant) : Lock.Verb → Option Hold
  | .acquire | .extend => some (grant now c)
  | .release => .none

/-- How the reference answers a claimant, and the holds afterwards. -/
def serve (l : Leases) (now : Nat) (c : Claimant) (v : Lock.Verb) : Bool × Leases :=
  if l.Grants now c v then (true, l.put c.name (outcome now c v)) else (false, l)

@[simp] theorem holder_none (now : Nat) (name : String) : none.holder now name = .none := rfl

/-- Later, a lease is the one it was or has lapsed. -/
theorem holder_later (l : Leases) {now t : Nat} (h : now ≤ t) (name : String) :
    l.holder t name = (l.holder now name).filter fun hold => t < hold.ends := by
  unfold holder
  cases l name with
  | none => rfl
  | some hold =>
      by_cases ht : t < hold.ends
      · have hnow : now < hold.ends := Nat.lt_of_le_of_lt h ht
        simp [Option.filter, ht, hnow]
      · by_cases hnow : now < hold.ends <;> simp [Option.filter, ht, hnow]

/-- A lease granted now lasts a while yet. -/
theorem lt_grant (now : Nat) (c : Claimant) : now < (grant now c).ends := by
  have h : 1 ≤ max 1 ((c.ttl.nanos + 999999999) / 1000000000) := Nat.le_max_left _ _
  unfold grant
  simp only
  omega

/-- A lease is given for one name. -/
theorem holder_put (l : Leases) (now : Nat) (name n : String) (h : Option Hold) :
    (l.put name h).holder now n =
      if n = name then h.filter fun hold => now < hold.ends else l.holder now n := by
  unfold holder put
  split <;> rfl

/-- What the reference has granted lasts beyond the instant. -/
theorem outcome_unexpired (now : Nat) (c : Claimant) (v : Lock.Verb) :
    ((outcome now c v).filter fun hold => now < hold.ends) = outcome now c v := by
  cases v with
  | acquire => simp [outcome, Option.filter, lt_grant now c]
  | extend => simp [outcome, Option.filter, lt_grant now c]
  | release => rfl

/-- A request is answered with whether it is granted. -/
theorem serve_answer (l : Leases) (now : Nat) (c : Claimant) (v : Lock.Verb) :
    (l.serve now c v).1 = decide (l.Grants now c v) := by
  unfold serve
  split
  · rename_i hg
    exact (decide_eq_true hg).symm
  · rename_i hg
    exact (decide_eq_false hg).symm

/-- A refusal changes nothing. -/
theorem serve_refused {l : Leases} {now : Nat} {c : Claimant} {v : Lock.Verb}
    (h : ¬ l.Grants now c v) : (l.serve now c v).2 = l := by
  rw [serve, if_neg h]

/-- What a claimant is answered concerns its own name only. -/
theorem serve_other (l : Leases) (now : Nat) (c : Claimant) (v : Lock.Verb) {name : String}
    (h : name ≠ c.name) : (l.serve now c v).2 name = l name := by
  unfold serve
  split
  · exact if_neg h
  · rfl

end Leases

/-! ## The store beside the reference -/

/-- A request at an instant: a claimant asks something of its lock, or any other call is made. -/
inductive Lock.Request
  | lock (c : Claimant) (v : Lock.Verb)
  | other (c : AnyCall)

/-- Whether a request that is none of a lock leaves the lock keys alone. -/
def Lock.Request.SparesLocks : Lock.Request → Prop
  | .lock .. => True
  | .other c => ∀ name, c.2.target ≠ some (lockKey name)

/-- The instant of the last request. -/
def lastInstant (start : Nat) (es : List (Nat × Lock.Request)) : Nat :=
  es.foldl (fun _ e => e.1) start

/-- What the locks among timed requests get from a store, and the store afterwards. -/
def Store.attend (s : Store) :
    List (Nat × Lock.Request) → List (Option (Except StoreError Bool)) × Store
  | [] => ([], s)
  | (t, .lock c v) :: es =>
      let (answer, s') := s.ask t (c.lock.call v)
      let (answers, s'') := s'.attend es
      (answer :: answers, s'')
  | (t, .other c) :: es => (s.ask t c.2).2.attend es

/-- Whether a claimant asks for a hold whose end the clock does not tell. -/
def Claimant.asksBeyond (c : Claimant) (now : Nat) : Lock.Verb → Bool
  | .acquire | .extend => Store.untold now (some c.ttl)
  | .release => false

/-- The call that a request makes. -/
def Lock.Request.call : Lock.Request → AnyCall
  | .lock c v => ⟨_, c.lock.call v⟩
  | .other c => c

/-- Whether no call among timed requests overflows. -/
def Store.carries (s : Store) : List (Nat × Lock.Request) → Bool
  | [] => true
  | (t, r) :: es => !s.overflows t r.call.2 && (s.ask t r.call.2).2.carries es

/-- What the reference answers to the locks among timed requests, and the holds afterwards. -/
def Leases.attend (l : Leases) : List (Nat × Lock.Request) → List Bool × Leases
  | [] => ([], l)
  | (t, .lock c v) :: es =>
      let (answer, l') := l.serve t c v
      let (answers, l'') := l'.attend es
      (answer :: answers, l'')
  | (_, .other _) :: es => l.attend es

/-- What the store holds for a hold. -/
def Hold.entry (h : Hold) : Entry := ⟨h.owner.token, some h.ends⟩

/-- A store that can be reached, in which no call has overflowed, and which holds, from an instant
on, the entries of the holds. -/
structure Store.Leases (s : Store) (now : Nat) (l : JobFleet.Leases) : Prop where
  reached : s.available = true
  sound : s.poisoned = false
  holds : ∀ name, s.entryAt now (lockKey name) = (l.holder now name).map Hold.entry

/-- The end of a hold is the expiry of what acquiring and extending write. -/
theorem Leases.grant_entry (now : Nat) (c : Claimant) :
    (Leases.grant now c).entry = ⟨c.lock.token, some (Clock.expiry now c.lock.ttl)⟩ := by
  unfold Hold.entry Leases.grant Clock.expiry Claimant.lock Lock.new
  rw [Duration.ttlSecs_eq]

namespace Store.Leases

variable {s : Store} {now : Nat} {l : JobFleet.Leases}

/-- A store that keeps leases keeps them as time goes on. -/
theorem later (h : s.Leases now l) {t : Nat} (ht : now ≤ t) : s.Leases t l := by
  refine ⟨h.reached, h.sound, ?_⟩
  intro name
  rw [s.entryAt_later ht, h.holds name, l.holder_later ht name]
  cases l.holder now name with
  | none => rfl
  | some hold => by_cases he : t < hold.ends <;> simp [Option.filter, Hold.entry, Entry.live, he]

/-- An owner is the unexpired holder of a name exactly when its token is what the key holds. -/
theorem heldBy_iff (h : s.Leases now l) (name : String) (owner : WorkerId) :
    (s.entryAt now (lockKey name)).map Entry.value = some owner.token ↔
      l.HeldBy now name owner := by
  rw [h.holds name]
  unfold Leases.HeldBy
  cases l.holder now name with
  | none => simp
  | some hold =>
      simp only [Option.map_some, Option.some.injEq, Hold.entry]
      constructor
      · exact WorkerId.token_inj
      · exact congrArg WorkerId.token

/-- The effect of a lock call on what its name's key holds is that of the reference. -/
theorem effect (h : s.Leases now l) (c : Claimant) (v : Lock.Verb) :
    (c.lock.call v).effect now ((l.holder now c.name).map Hold.entry) =
      if l.Grants now c v then .ok (true, (Leases.outcome now c v).map Hold.entry)
      else .ok (false, (l.holder now c.name).map Hold.entry) := by
  have howner : ((l.holder now c.name).map Hold.entry).map Entry.value = some c.lock.token ↔
      l.HeldBy now c.name c.owner := by
    rw [← h.holds c.name]
    exact h.heldBy_iff c.name c.owner
  cases v with
  | acquire =>
      simp only [Lock.call, Lock.acquire, Call.effect, Leases.Grants, Leases.outcome,
        Option.map_some, Leases.grant_entry]
      cases l.holder now c.name <;> rfl
  | extend =>
      simp only [Lock.call, Lock.extend, Call.effect, Leases.Grants, Leases.outcome,
        Option.map_some, Leases.grant_entry]
      exact ite_congr (propext howner) (fun _ => rfl) fun _ => rfl
  | release => exact ite_congr (propext howner) (fun _ => rfl) fun _ => rfl

/-- What a lock compares is the value that is stored. -/
theorem any_value_eq (held : Option Entry) (token : String) :
    held.any (·.value = token) = decide (held.map Entry.value = some token) := by
  cases held <;> simp

/-- A request of a lock overflows exactly if it is granted a hold whose end the clock does not
tell. -/
theorem overflows_call (h : s.Leases now l) (c : Claimant) (v : Lock.Verb) :
    s.overflows now (c.lock.call v) = (decide (l.Grants now c v) && c.asksBeyond now v) := by
  have howner := h.heldBy_iff c.name c.owner
  rw [Store.overflows_of_key h.reached now _ (c.call_key? v)]
  cases v with
  | acquire =>
      have hfree : (s.entryAt now (lockKey c.name)).isNone =
          decide (l.holder now c.name = .none) := by
        rw [h.holds c.name]
        cases l.holder now c.name <;> rfl
      exact congrArg (· && Store.untold now (some c.ttl)) hfree
  | extend =>
      have hheld : (s.entryAt now (lockKey c.name)).any (·.value = c.lock.token) =
          decide (l.HeldBy now c.name c.owner) := by
        rw [any_value_eq]
        exact decide_eq_decide.mpr howner
      exact congrArg (· && Store.untold now (some c.ttl)) hheld
  | release => exact (Bool.and_false _).symm

/-- A request of a lock that does not overflow is answered as by the reference, and leaves the
entries of the holds. -/
theorem lock (h : s.Leases now l) {c : Claimant} {v : Lock.Verb}
    (hbound : s.overflows now (c.lock.call v) = false) :
    (s.ask now (c.lock.call v)).1 = some (.ok (l.serve now c v).1) ∧
      (s.ask now (c.lock.call v)).2.Leases now (l.serve now c v).2 := by
  have hheld : s.heldBy now (c.lock.call v) = (l.holder now c.name).map Hold.entry := by
    rw [s.heldBy_of_key now _ (c.call_key? v), h.holds c.name]
  have heffect := h.effect c v
  rw [s.ask_eq_apply now _ h.sound hbound]
  refine ⟨congrArg some ?_, ?_, ?_, ?_⟩
  · rw [s.apply_answer now _ h.reached, hheld, heffect, Leases.serve]
    split <;> rfl
  · rw [s.apply_available, h.reached]
  · rw [s.apply_poisoned, h.sound, hbound, Bool.or_false]
  · intro name
    rw [s.apply_entryAt now _ h.reached, c.call_key?]
    by_cases hn : name = c.name
    · subst hn
      rw [if_pos rfl, Call.leaves, hheld, heffect, Leases.serve]
      by_cases hg : l.Grants now c v
      · simp only [if_pos hg, Leases.holder_put, if_true, Leases.outcome_unexpired]
      · simp only [if_neg hg]
    · have hk : ¬ some (lockKey c.name) = some (lockKey name) := fun e =>
        hn (lockKey_inj (Option.some.inj e)).symm
      have hkept : (l.serve now c v).2.holder now name = l.holder now name := by
        unfold Leases.holder
        rw [Leases.serve_other l now c v hn]
      rw [if_neg hk, h.holds name, hkept]

/-- A call that is none of a lock leaves the entries of the holds. -/
theorem other (h : s.Leases now l) {c : AnyCall} (hc : (Lock.Request.other c).SparesLocks)
    (hbound : s.overflows now c.2 = false) : (s.ask now c.2).2.Leases now l := by
  rw [s.ask_eq_apply now _ h.sound hbound]
  refine ⟨?_, ?_, ?_⟩
  · rw [s.apply_available, h.reached]
  · rw [s.apply_poisoned, h.sound, hbound, Bool.or_false]
  · intro name
    rw [s.apply_entryAt_of_ne now c.2 (hc name), h.holds name]

/-- What a request of a lock gets. -/
theorem answer (h : s.Leases now l) (c : Claimant) (v : Lock.Verb) :
    (s.ask now (c.lock.call v)).1 =
      if l.Grants now c v then if c.asksBeyond now v then none else some (.ok true)
      else some (.ok false) := by
  have hbound := h.overflows_call c v
  by_cases hg : l.Grants now c v
  · rw [decide_eq_true hg, Bool.true_and] at hbound
    rw [if_pos hg, ← hbound]
    cases hc : s.overflows now (c.lock.call v) with
    | true => rw [s.ask_overflows now _ h.sound hc, if_pos rfl]
    | false => rw [(h.lock hc).1, Leases.serve_answer, decide_eq_true hg, if_neg Bool.false_ne_true]
  · rw [decide_eq_false hg, Bool.false_and] at hbound
    rw [if_neg hg, (h.lock hbound).1, Leases.serve_answer, decide_eq_false hg]

/-- A request of a lock leaves what the keys of other names hold, and that of its own too if it is
refused. -/
theorem leaves (h : s.Leases now l) (c : Claimant) (v : Lock.Verb) (name : String)
    (hkept : ¬ l.Grants now c v ∨ name ≠ c.name) :
    (s.ask now (c.lock.call v)).2.entryAt now (lockKey name) = s.entryAt now (lockKey name) := by
  cases hbound : s.overflows now (c.lock.call v) with
  | true => exact s.ask_overflows_entryAt now _ h.sound hbound _
  | false =>
      rw [(h.lock hbound).2.holds name, h.holds name]
      rcases hkept with hrefused | hother
      · rw [Leases.serve_refused hrefused]
      · unfold Leases.holder
        rw [Leases.serve_other _ now c v hother]

/-- A claimant that extends its hold was the holder. -/
theorem heldBy_of_extended (h : s.Leases now l) {c : Claimant}
    (hc : (s.ask now (c.lock.call .extend)).1 = some (.ok true)) : l.HeldBy now c.name c.owner := by
  cases hbound : s.overflows now (c.lock.call .extend) with
  | true =>
      rw [s.ask_overflows now _ h.sound hbound] at hc
      cases hc
  | false =>
      rw [(h.lock hbound).1, Leases.serve_answer] at hc
      exact of_decide_eq_true (Except.ok.inj (Option.some.inj hc))

/-- The requests of a whole sequence are answered as by the reference. -/
theorem attend {es : List (Nat × Lock.Request)} (h : s.Leases now l)
    (htimes : (now :: es.map Prod.fst).Pairwise (· ≤ ·)) (hes : ∀ e ∈ es, e.2.SparesLocks)
    (hbounds : s.carries es = true) :
    (s.attend es).1 = (l.attend es).1.map (fun b => some (.ok b)) ∧
      (s.attend es).2.Leases (lastInstant now es) (l.attend es).2 := by
  induction es generalizing s now l with
  | nil => exact ⟨rfl, h⟩
  | cons e es ih =>
      obtain ⟨t, r⟩ := e
      obtain ⟨hle, hrest⟩ := List.pairwise_cons.mp htimes
      have hlater := h.later (hle t List.mem_cons_self)
      have hspares := hes (t, r) List.mem_cons_self
      have hes' : ∀ e ∈ es, e.2.SparesLocks := fun e he => hes e (List.mem_cons_of_mem _ he)
      obtain ⟨hbound, hbounds'⟩ := Bool.and_eq_true_iff.mp hbounds
      have hfits : s.overflows t r.call.2 = false := by simpa using hbound
      cases r with
      | lock c v =>
          obtain ⟨hanswer, hafter⟩ := hlater.lock hfits
          obtain ⟨hanswers, hend⟩ := ih hafter hrest hes' hbounds'
          refine ⟨?_, hend⟩
          simp only [Store.attend, Leases.attend, List.map_cons, hanswer, hanswers]
      | other c =>
          exact ih (hlater.other hspares hfits) hrest hes' hbounds'

end Store.Leases

/-- Over a store that can be reached and whose lock keys nothing but lock calls writes, locks are
leases. Whatever the claimants and the timed requests, as long as no call overflows, the answers are
those of the reference, and so is the token and the expiry under the key of each name at every later
instant. A request made then is granted exactly when the reference grants it, except that it gets
nothing if it asks for a hold whose end the clock does not tell; a refused one changes no lock key
and a granted one that of its own name only; and no two owners hold one name. -/
theorem Store.locks_are_leases {s : Store} {start : Nat} (hs : s.available = true)
    (hsound : s.poisoned = false) (hfree : ∀ name, s.entryAt start (lockKey name) = none)
    {es : List (Nat × Lock.Request)} (htimes : (start :: es.map Prod.fst).Pairwise (· ≤ ·))
    (hspares : ∀ e ∈ es, e.2.SparesLocks) (hbounds : s.carries es = true) {now : Nat}
    (hnow : lastInstant start es ≤ now) :
    (s.attend es).1 = (Leases.none.attend es).1.map (fun b => some (.ok b)) ∧
      (∀ name, (s.attend es).2.entryAt now (lockKey name) =
        ((Leases.none.attend es).2.holder now name).map Hold.entry) ∧
      (∀ (c : Claimant) (v : Lock.Verb),
        ((s.attend es).2.ask now (c.lock.call v)).1 =
            (if (Leases.none.attend es).2.Grants now c v then
              if c.asksBeyond now v then none else some (.ok true)
            else some (.ok false)) ∧
          ∀ name, ¬ (Leases.none.attend es).2.Grants now c v ∨ name ≠ c.name →
            ((s.attend es).2.ask now (c.lock.call v)).2.entryAt now (lockKey name) =
              (s.attend es).2.entryAt now (lockKey name)) ∧
      ∀ c d : Claimant, c.name = d.name →
        ((s.attend es).2.ask now (c.lock.call .extend)).1 = some (.ok true) →
        ((s.attend es).2.ask now (d.lock.call .extend)).1 = some (.ok true) →
          c.owner = d.owner := by
  have hstart : s.Leases start Leases.none := ⟨hs, hsound, fun name => by rw [hfree name]; rfl⟩
  obtain ⟨hanswers, hend⟩ := hstart.attend htimes hspares hbounds
  have hlater := hend.later hnow
  refine ⟨hanswers, hlater.holds, fun c v => ⟨hlater.answer c v, hlater.leaves c v⟩, ?_⟩
  intro c d hname hc hd
  have hcheld := hlater.heldBy_of_extended hc
  have hdheld := hlater.heldBy_of_extended hd
  rw [← hname] at hdheld
  exact Option.some.inj (hcheld.symm.trans hdheld)

/-- Two owners and a clone: a hold taken for one and a half seconds lasts two, its extension at
one second lasts to three, and at three seconds the peer takes over; the lapsed holder can then
touch nothing. -/
theorem Store.locks_are_leases_handover :
    let a : Claimant := ⟨⟨1⟩, "tick", .ofMillis 1500⟩
    let b : Claimant := ⟨⟨2⟩, "tick", .ofMillis 10000⟩
    (Store.empty.attend [(0, .lock a .acquire), (0, .lock b .acquire),
      (0, .other ⟨_, .set jobCounterKey "1" none⟩), (1000000000, .lock a .extend),
      (2999999999, .lock b .acquire), (3000000000, .lock b .acquire),
      (3000000000, .lock a .extend), (3000000000, .lock a .release),
      (3000000000, .lock a .acquire), (4000000000, .lock b .release)]).1 =
      [some (.ok true), some (.ok false), some (.ok true), some (.ok false), some (.ok true),
        some (.ok false), some (.ok false), some (.ok false), some (.ok true)] := by
  have hother : ∀ name, jobCounterKey ≠ lockKey name := fun name =>
    (lockKey_ne_jobCounterKey name).symm
  refine (locks_are_leases rfl rfl (fun _ => rfl) (show (0 :: _).Pairwise (· ≤ ·) by simp) ?_
    (by decide +kernel) (show lastInstant 0 _ ≤ 4000000000 by decide)).1.trans rfl
  simpa [Lock.Request.SparesLocks, Call.target, Call.key?] using hother

/-- A lock of `2 ^ 63` seconds is asked for a name that nobody holds, and the clock does not tell
the end of them. The caller gets nothing, and from then on no lock is granted, where the reference
grants both. -/
theorem Store.lock_breaks_off :
    let a : Claimant := ⟨⟨1⟩, "tick", .ofSecs 9223372036854775808⟩
    let b : Claimant := ⟨⟨2⟩, "tock", .ofSecs 1⟩
    (Store.empty.attend [(0, .lock a .acquire), (0, .lock b .acquire)]).1 =
        [none, some (.error .lockPoisoned)] ∧
      (Leases.none.attend [(0, .lock a .acquire), (0, .lock b .acquire)]).1 = [true, true] :=
  ⟨rfl, rfl⟩

end JobFleet
