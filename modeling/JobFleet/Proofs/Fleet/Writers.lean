import JobFleet.Proofs.Fleet.Moves
import JobFleet.Proofs.Store.Keys

/-!
# Who writes which key

A task writes a key only in a step that may call the store on it. The counter is written by
workers, a job's status by those who hand the job in or have it in hand, and a lock by those who
control a scheduler; everything else that writes a key intrudes.
-/

namespace JobFleet

/-- A deed that does not call the store to write a key. -/
def Deed.Spares (k : String) : Deed → Prop
  | .call c => c.2.target ≠ some k
  | _ => True

/-- What any task may do writes no key. -/
theorem Deed.Aside.spares {d : Deed} (h : d.Aside) (k : String) : d.Spares k := by
  cases d with
  | call c =>
      intro hc
      rw [Call.Looks.target h] at hc
      cases hc
  | _ => trivial

namespace World

variable {w v : World} {k : String}

/-- A deed uses faults of the network up and adds none. -/
theorem does_network (d : Deed) : Inherits (w.does d).network w.network := by
  cases d with
  | call c => exact w.perform_network c.2
  | _ => exact inherits_refl w.network

/-- Faults still to come are those that were to come before. -/
theorem Via.network {D : Deed → Prop} (h : w.Via D v) : Inherits v.network w.network :=
  h.keeps (P := fun u => Inherits u.network w.network)
    (fun _ d _ hu => (does_network d).trans hu) (inherits_refl _)

/-- A deed that spares a key leaves its entry. -/
theorem does_entry {d : Deed} (hd : d.Spares k) (hs : w.Spared k) :
    (w.does d).entry k = w.entry k := by
  cases d with
  | call c => exact w.perform_entry_of_ne c.2 hd hs
  | _ => rfl

/-- Deeds that write no key but others leave a key as it was. -/
theorem Via.entry {D : Deed → Prop} (h : w.Via D v) (hD : ∀ d, D d → d.Spares k)
    (hs : w.Spared k) : v.entry k = w.entry k := by
  have hboth : v.entry k = w.entry k ∧ v.Spared k := by
    refine h.keeps (P := fun u => u.entry k = w.entry k ∧ u.Spared k) ?_ ⟨rfl, hs⟩
    intro u d hd hu
    exact ⟨(does_entry (hD d hd) hu.2).trans hu.1, hu.2.inherits (does_network d)⟩
  exact hboth.1

/-- Booked deeds leave an entry that is spared. -/
theorem Booked.entry (h : w.Booked v) : v.entry k = w.entry k := by
  rw [World.entry, World.entry, h.store, h.now]

end World

/-! ## The target of a call -/

/-- Whom a call of a task's next step may be for, by the key that it writes. -/
inductive Task.Writes (t : Task) : String → Prop
  | claim {e : Enqueue} {held : Option String} (ht : t.handIn? = some e)
      (hp : e.phase = .claiming held) : Writes t e.job.key.statusKey
  | counter {k : Worker} (ht : t = .worker k) : Writes t jobCounterKey
  | status {k : Worker} {job : Job} (ht : t = .worker k) (hp : k.phase.job? = some job) :
      Writes t job.key.statusKey
  | scribble {key : String} (ht : t.scribbles? = some key) : Writes t key
  | attempts {g : Guard} {k : RateLimitKey} (ht : t = .operation (.guard g))
      (hp : g.phase = .settling k) : Writes t k.counterKey
  | lock {name : String} (ht : t.controls = true) : Writes t (lockKey name)

/-- A call that a task's next step may make writes one of the task's own keys, if any. -/
theorem Task.MayDo.writes {w : World} {t : Task} {c : AnyCall} {k : String}
    (h : Task.MayDo w t (.call c)) (hk : c.2.target = some k) : t.Writes k := by
  cases h with
  | aside h =>
      rw [Call.Looks.target h] at hk
      cases hk
  | handIn ht h =>
      cases h with
      | read => cases hk
      | claim hr hp =>
          rw [Enqueue.claim_target] at hk
          cases hk
          exact .claim ht hp
  | worker ht h =>
      cases h with
      | ask hp =>
          cases hk
          exact .counter ht
      | release hp =>
          cases hk
          exact .counter ht
      | status hp =>
          cases hk
          exact .status ht hp
  | set ht =>
      cases hk
      exact .scribble (by rw [ht]; rfl)
  | delete ht =>
      cases hk
      exact .scribble (by rw [ht]; rfl)
  | forget ht hp ho =>
      cases hk
      exact .attempts ht hp
  | countFailure ht hp ho =>
      cases hk
      exact .attempts ht hp
  | control ht h =>
      cases h with
      | aside h =>
          rw [Call.Looks.target h] at hk
          cases hk
      | lock hl h =>
          rw [h.target] at hk
          cases hk
          exact .lock ht

/-- What a task may do spares every key that is none of its own. -/
theorem Task.MayDo.spares {w : World} {t : Task} {d : Deed} {k : String}
    (h : Task.MayDo w t d) (hk : ¬ t.Writes k) : d.Spares k := by
  cases d with
  | call c => exact fun hc => hk (h.writes hc)
  | _ => trivial

/-- A handler that writes a key intrudes on it. -/
theorem World.intrudes_of_handler {w : World} {id : TaskId} {t : Task} {k : String}
    (ht : w.tasks.find? id = some t) (h : t.Writes k) (hj : ∀ j : JobKey, k ≠ j.statusKey)
    (hr : ∀ r : RateLimitKey, k ≠ r.counterKey) (hl : ∀ name, k ≠ lockKey name)
    (hw : t.sort ≠ .worker) : w.Intrudes k (.step id) := by
  cases h with
  | claim _ _ => exact absurd rfl (hj _)
  | counter hk =>
      subst hk
      exact absurd rfl hw
  | status _ _ => exact absurd rfl (hj _)
  | scribble hs =>
      rw [Intrudes, ht]
      exact hs
  | attempts _ _ => exact absurd rfl (hr _)
  | lock _ => exact absurd rfl (hl _)

namespace World

variable {w : World} {k : String}

/-- Where nothing has happened yet, no fault is to come. -/
theorem spared_around (utc : Int) (s : Store) (k : String) : (around utc s).Spared k := by
  intro f hf
  cases hf

theorem prompt_around (utc : Int) (s : Store) : (around utc s).Prompt := by
  intro f hf
  cases hf

/-- Every fault after a move does what one before it did, or has been added by the move. -/
theorem move_network {m : Move} (hm : w.Admits m) :
    ∀ f ∈ (w.move m).network, m = .disturb f ∨ ∃ g ∈ w.network, f.Alike g := by
  have hsame : ∀ fs : List Fault, Inherits fs w.network →
      ∀ f ∈ fs, m = .disturb f ∨ ∃ g ∈ w.network, f.Alike g :=
    fun fs h f hf => .inr (h f hf)
  cases hset : m.setsUp with
  | true => exact (move_setUp hset hm).network ▸ hsame _ (inherits_refl _)
  | false =>
      cases m with
      | step id =>
          obtain ⟨t, ht, -, he⟩ := move_step hm
          rw [he, put_network]
          exact hsame _ (t.act_via id w).network
      | disturb f =>
          intro g hg
          rcases List.mem_append.mp hg with hg | hg
          · exact .inr ⟨g, hg, Fault.Alike.refl g⟩
          · exact .inl (congrArg Move.disturb (List.mem_singleton.mp hg).symm)
      | call c => exact hsame _ (w.perform_network c.2)
      | pass t => exact hsame _ (inherits_refl _)
      | launch o => exact hsame _ (inherits_refl _)
      | collect id => exact hsame _ (inherits_refl _)
      | reach value => exact hsame _ (inherits_refl _)
      | _ => cases hset

/-- A move that does not intrude on a key slips no write in under it. -/
theorem Spared.move (h : w.Spared k) {m : Move} (hm : w.Admits m) (hi : ¬ w.Intrudes k m) :
    (w.move m).Spared k := by
  intro f hf
  rcases move_network hm f hf with rfl | ⟨g, hg, hfg⟩
  · exact Classical.not_not.mp hi
  · exact hfg.spares (h g hg)

/-- Replies are lost only if a fault is added that loses them. -/
theorem Prompt.move (h : w.Prompt) {m : Move} (hm : w.Admits m)
    (hp : m.Prompt) : (w.move m).Prompt := by
  intro f hf
  rcases move_network hm f hf with rfl | ⟨g, hg, hfg⟩
  · exact hp
  · exact hfg.prompt (h g hg)

/-! ## What a key holds -/

/-- What a key holds lapses in a move: it was there, and its time is over at the instant that the
move goes on to. -/
def Lapses (k : String) (w : World) : Move → Prop
  | .pass t => (w.entry k).isSome = true ∧ w.store.entryAt t k = none
  | _ => False

instance (k : String) (w : World) (m : Move) : Decidable (w.Lapses k m) :=
  match m with
  | .pass t => inferInstanceAs (Decidable ((w.entry k).isSome = true ∧ w.store.entryAt t k = none))
  | .step _ | .turn _ | .favour _ | .launch _ | .collect _ | .disturb _ | .reach _ | .call _
  | .openGate .. | .handler _ | .runner .. | .scheduler .. | .limiter .. | .lock .. | .app ..
  | .update .. => .isFalse id

/-- Time that passes leaves a key as it was, unless the key lapses. -/
theorem entry_pass {t : Nat} (hm : w.Admits (.pass t))
    (hl : ¬ w.Lapses k (.pass t)) : (w.move (.pass t)).entry k = w.entry k := by
  have hlater : (w.move (.pass t)).entry k = (w.entry k).filter (Entry.live t) :=
    w.store.entryAt_later hm k
  cases hw : w.entry k with
  | none => rw [hlater, hw, Option.filter_none]
  | some x =>
      cases hv : (w.move (.pass t)).entry k with
      | none => exact absurd ⟨by rw [hw]; rfl, hv⟩ hl
      | some y =>
          rw [hv, hw] at hlater
          exact (Option.filter_eq_some_iff.mp hlater.symm).1.symm

/-- A move leaves what a key holds, unless it is the step of a task that writes the key, somebody
else intrudes on the key, or the key lapses. -/
theorem entry_kept (hs : w.Spared k) {m : Move} (hm : w.Admits m)
    (hi : ¬ w.Intrudes k m) (hl : ¬ w.Lapses k m)
    (hw : ∀ id t, m = .step id → w.tasks.find? id = some t → ¬ t.Writes k) :
    (w.move m).entry k = w.entry k := by
  cases hset : m.setsUp with
  | true => rw [entry, (move_setUp hset hm).now, (move_setUp hset hm).store, entry]
  | false =>
      cases m with
      | step id =>
          obtain ⟨t, ht, -, he⟩ := move_step hm
          rw [he, put_entry]
          exact (t.act_via id w).entry (fun d hd => hd.spares (hw id t rfl ht)) hs
      | pass t => exact entry_pass hm hl
      | call c => exact w.perform_entry_of_ne c.2 hi hs
      | launch o => rfl
      | collect id => rfl
      | disturb f => rfl
      | reach value => rfl
      | _ => cases hset

end World

end JobFleet
