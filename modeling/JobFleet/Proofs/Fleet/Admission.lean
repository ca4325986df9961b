import JobFleet.Proofs.Fleet.Gate
import JobFleet.Proofs.Fleet.Landing
import JobFleet.Proofs.Fleet.Live

/-!
# A hand-in takes a job in or leaves no trace

A hand-in has three stages at most, and anything may happen between them. Whatever worlds it finds,
the stages before the last one write nothing and count nothing. The last one takes the job in, with
everything that belongs to it, or changes neither the store nor the queue nor the slot. There is one
exception: a claim that the store grants and whose reply is lost leaves the key claimed, though the
hand-in ends as unavailable.
-/

namespace JobFleet

namespace Enqueue

/-- A stage of a hand-in: where the hand-in stands, the world that it finds and the one that it
leaves. -/
structure Stage where
  state : Enqueue
  before : World
  after : World

/-- The stages of a hand-in that finds worlds one after the other, and how far it comes. -/
def stages (self : TaskId) (e : Enqueue) : List World → List Stage × Progress Enqueue EnqueueOutcome
  | [] => ([], .on e)
  | w :: ws =>
      match e.step self w with
      | (.ended outcome, v) => ([⟨e, w, v⟩], .ended outcome)
      | (.on e', v) =>
          let rest := stages self e' ws
          (⟨e, w, v⟩ :: rest.1, rest.2)

/-- The call that a hand-in makes next. -/
def call? (e : Enqueue) (w : World) : Option AnyCall :=
  match w.runners.find? e.runner with
  | none => none
  | some r =>
      match e.phase with
      | .waiting => none
      | .reading => some ⟨.text, .get e.job.key.statusKey⟩
      | .claiming held => some ⟨.flag, e.claim r.config.queuedTtl held⟩

namespace Stage

/-- The status key of the job. -/
def key (s : Stage) : String := s.state.job.key.statusKey

/-- The world in which the stage's call lands; if it makes none, the one that it finds. -/
def found (s : Stage) : World :=
  match s.state.call? s.before with
  | some c => s.before.landing c.2
  | none => s.before

/-- The stage makes a call whose reply the network loses. -/
def Unheard (s : Stage) : Prop := ∃ c, s.state.call? s.before = some c ∧ s.before.Unheard c.2

/-- The stage changes its key from nothing or `failed` to `queued`. -/
def Claims (s : Stage) : Prop :=
  Free ((s.found.entry s.key).map Entry.value) ∧
    (s.after.entry s.key).map Entry.value = some JobStatus.queued.text

/-- The stage writes nothing. -/
def Untouched (s : Stage) : Prop := ∀ k, s.after.entry k = s.found.entry k

/-- The stage starts no task and leaves of every runner its queue, its slot and its counts, but for
duplicates that the job's own runner counts. -/
structure Spares (s : Stage) (duplicates : Nat) : Prop where
  tasks : s.after.tasks = s.before.tasks
  others : ∀ name, name ≠ s.state.runner →
    s.after.runners.find? name = s.before.runners.find? name
  runner : ∀ r, s.before.runners.find? s.state.runner = some r → ∃ gate,
    s.after.runners.find? s.state.runner = some
      { r with gate, stats := { r.stats with duplicates := r.stats.duplicates + duplicates } }

/-- The stage leaves the key claimed as queued for as long as the runner is told, and writes no
other key. -/
structure Books (s : Stage) (r : Runner) : Prop where
  free : Free ((s.found.entry s.key).map Entry.value)
  key : s.after.entry s.key =
    some ⟨JobStatus.queued.text, some (Clock.expiry s.before.now r.config.queuedTtl)⟩
  others : ∀ k, k ≠ s.key → s.after.entry k = s.found.entry k

/-- The stage takes the job in: at the end of the queue, counted, with a worker in the slot that was
there or has just been started. -/
structure Accepts (s : Stage) (r : Runner) : Prop where
  books : s.Books r
  heard : ¬ s.Unheard
  runner : ∃ seat generations, s.after.runners.find? s.state.runner = some
    { r with
      pending := r.pending ++ [s.state.job]
      stats := { r.stats with enqueued := r.stats.enqueued + 1 }
      gate := none
      slot := some seat
      generations := generations } ∧
    (r.slot = some seat ∨ r.slot = none ∧ s.after.tasks.find? seat.task =
      some (.worker ⟨s.state.runner, seat.generation, false, .starting⟩))
  others : ∀ name, name ≠ s.state.runner →
    s.after.runners.find? name = s.before.runners.find? name

/-- How the last stage of a hand-in ends it. -/
inductive Ends (s : Stage) : EnqueueOutcome → Prop
  | accepted {r : Runner} (hr : s.before.runners.find? s.state.runner = some r)
      (h : s.Accepts r) : Ends s .enqueued
  | overflowed (store : s.Untouched) (fleet : s.Spares 0) : Ends s .queueFull
  | doubled (store : s.Untouched) (fleet : s.Spares 1) : Ends s .duplicate
  | failed (store : s.Untouched) (fleet : s.Spares 0) : Ends s .unavailable
  | unheard {r : Runner} (hr : s.before.runners.find? s.state.runner = some r) (h : s.Unheard)
      (books : s.Books r) (fleet : s.Spares 0) : Ends s .unavailable

/-- What a stage comes to: one that goes on writes nothing and counts nothing. -/
inductive Yields (s : Stage) : Progress Enqueue EnqueueOutcome → Prop
  | enters (hp : s.state.phase = .waiting) (store : s.Untouched) (fleet : s.Spares 0) :
      Yields s (.on { s.state with phase := .reading })
  | reads {held : Option String} (hp : s.state.phase = .reading) (hfree : Free held)
      (store : s.Untouched) (fleet : s.Spares 0) :
      Yields s (.on { s.state with phase := .claiming held })
  | ends {outcome : EnqueueOutcome} (h : s.Ends outcome) : Yields s (.ended outcome)

end Stage

/-! ## Bookkeeping at the end -/

section Endings

variable {e : Enqueue} {w u : World}

/-- A stage that leaves the runners and the tasks alone takes no job in. -/
theorem spares_refl (h : u.runners = w.runners) (ht : u.tasks = w.tasks) :
    Stage.Spares ⟨e, w, u⟩ 0 where
  tasks := ht
  others := fun name _ => by rw [show (Stage.mk e w u).after = u from rfl, h]
  runner := fun r hr => ⟨r.gate, by
    rw [show (Stage.mk e w u).after = u from rfl, h]
    exact hr⟩

/-- A change of the gate and of the duplicates of a runner. -/
theorem Stage.Spares.runner_eq {n k : Nat} (h : Stage.Spares ⟨e, w, u⟩ n) {f : Runner → Runner}
    (hf : ∀ r, ∃ gate, f r =
      { r with gate, stats := { r.stats with duplicates := r.stats.duplicates + k } }) :
    Stage.Spares ⟨e, w, u.modifyRunner e.runner f⟩ (n + k) where
  tasks := h.tasks
  others := by
    intro name hn
    rw [← h.others name hn]
    exact (Table.find?_modify ..).trans (if_neg hn)
  runner := by
    intro r hr
    obtain ⟨gate, hu⟩ := h.runner r hr
    obtain ⟨gate', hf⟩ := hf { r with gate, stats :=
      { r.stats with duplicates := r.stats.duplicates + n } }
    refine ⟨gate', ?_⟩
    rw [show (Stage.mk e w (u.modifyRunner e.runner f)).after.runners.find? e.runner = _ from
      World.modifyRunner_find? hu, hf]
    simp only [Nat.add_assoc]

/-- Logging an outcome takes no job in. -/
theorem conclude_spares {n : Nat} (h : Stage.Spares ⟨e, w, u⟩ n) (outcome : EnqueueOutcome)
    (event : Runner.Event) : Stage.Spares ⟨e, w, (e.conclude outcome event u).2⟩ n :=
  Stage.Spares.runner_eq (k := 0) (u := u.log (.runner event)) ⟨h.tasks, h.others, h.runner⟩
    fun _ => ⟨none, rfl⟩

/-- Counting and logging a duplicate takes no job in. -/
theorem concludeDuplicate_spares {n : Nat} (h : Stage.Spares ⟨e, w, u⟩ n) (event : Runner.Event) :
    Stage.Spares ⟨e, w, (e.concludeDuplicate event u).2⟩ (n + 1) :=
  conclude_spares (h.runner_eq (k := 1) fun r => ⟨r.gate, rfl⟩) .duplicate event

/-- A call on the store takes no job in. -/
theorem perform_spares {a : Answer} {c : Call a} {x : Except StoreError a.Value}
    (ha : w.perform c = (x, u)) : Stage.Spares ⟨e, w, u⟩ 0 := by
  have hr := w.perform_runners c
  have ht := w.perform_tasks c
  rw [ha] at hr ht
  exact spares_refl hr ht

end Endings

/-! ## The claim -/

/-- A claim is granted exactly if the key is free, and then it leaves the key as queued. -/
theorem claim_effect (e : Enqueue) {now : Nat} (ttl : Duration) {held : Option String}
    (hfree : Free held) (entry : Option Entry) {granted : Bool} {after : Option Entry}
    (h : (e.claim ttl held).effect now entry = .ok (granted, after)) :
    (granted = true ∧ Free (entry.map Entry.value) ∧
        after = some ⟨JobStatus.queued.text, some (Clock.expiry now ttl)⟩) ∨
      granted = false ∧ after = entry := by
  cases held with
  | none =>
      cases entry with
      | none =>
          cases h
          exact .inl ⟨rfl, nofun, rfl⟩
      | some x =>
          cases h
          exact .inr ⟨rfl, rfl⟩
  | some raw =>
      by_cases hv : entry.map Entry.value = some raw
      · simp only [claim, Call.effect, if_pos hv] at h
        cases h
        exact .inl ⟨rfl, hv ▸ hfree, rfl⟩
      · simp only [claim, Call.effect, if_neg hv] at h
        cases h
        exact .inr ⟨rfl, rfl⟩

/-- A claim never fails at a store that can be reached. -/
theorem claim_effect_ok (e : Enqueue) (now : Nat) (ttl : Duration) (held : Option String)
    (entry : Option Entry) : ∃ granted after,
      (e.claim ttl held).effect now entry = .ok (granted, after) := by
  cases held with
  | none => cases entry <;> exact ⟨_, _, rfl⟩
  | some raw =>
      simp only [claim, Call.effect]
      split <;> exact ⟨_, _, rfl⟩

/-- How a claim ends a hand-in, given how the call ends. -/
inductive Claimed (e : Enqueue) (w : World) (r : Runner) (held : Option String) :
    Except StoreError Bool → World → Prop
  | granted {u : World}
      (heard : ¬ w.Unheard (e.claim r.config.queuedTtl held))
      (books : Stage.Books ⟨e, w, u⟩ r) : Claimed e w r held (.ok true) u
  | denied {u : World} (store : Stage.Untouched ⟨e, w, u⟩) : Claimed e w r held (.ok false) u
  | failed {u : World} {cause : StoreError} (store : Stage.Untouched ⟨e, w, u⟩) :
      Claimed e w r held (.error cause) u
  | unheard {u : World} {cause : StoreError} (h : w.Unheard (e.claim r.config.queuedTtl held))
      (books : Stage.Books ⟨e, w, u⟩ r) : Claimed e w r held (.error cause) u

section Claiming

variable {e : Enqueue} {w : World} {r : Runner} {held : Option String}

/-- What a hand-in finds when it claims the status: where its claim lands. -/
theorem found_claim (hr : w.runners.find? e.runner = some r) (hp : e.phase = .claiming held)
    (u : World) :
    (Stage.mk e w u).found = w.landing (e.claim r.config.queuedTtl held) := by
  simp only [Stage.found, call?, hr, hp]

/-- What a hand-in finds when it reads the status: where its read lands. -/
theorem found_read (hr : w.runners.find? e.runner = some r) (hp : e.phase = .reading)
    (u : World) : (Stage.mk e w u).found = w.landing (.get e.job.key.statusKey) := by
  simp only [Stage.found, call?, hr, hp]

/-- What a claim does to the store. -/
theorem perform_claim (hr : w.runners.find? e.runner = some r) (hp : e.phase = .claiming held)
    (hfree : Free held) {x : Except StoreError (Answer.Value .flag)} {u : World}
    (ha : w.perform (e.claim r.config.queuedTtl held) = (x, u)) : e.Claimed w r held x u := by
  have hf := found_claim hr hp u
  have htarget := e.claim_target r.config.queuedTtl held
  have hends := w.perform_ends_landing (e.claim r.config.queuedTtl held)
    (Call.key?_of_target htarget)
  have hothers : ∀ k, k ≠ e.job.key.statusKey →
      u.entry k = (w.landing (e.claim r.config.queuedTtl held)).entry k := by
    intro k hk
    have h := w.perform_entry_landing (e.claim r.config.queuedTtl held) (k := k)
      (by rw [htarget]; exact fun he => hk (Option.some.inj he).symm)
    rw [ha] at h
    exact h
  have huntouched : u.entry e.job.key.statusKey =
      (w.landing (e.claim r.config.queuedTtl held)).entry e.job.key.statusKey →
      Stage.Untouched ⟨e, w, u⟩ := by
    intro h k
    rw [hf]
    by_cases hk : k = e.job.key.statusKey
    · rw [hk]
      exact h
    · exact hothers k hk
  have hbooks : Free (((w.landing (e.claim r.config.queuedTtl held)).entry
      e.job.key.statusKey).map Entry.value) → u.entry e.job.key.statusKey =
        some ⟨JobStatus.queued.text, some (Clock.expiry w.now r.config.queuedTtl)⟩ →
      Stage.Books ⟨e, w, u⟩ r := by
    intro hfree hkey
    refine ⟨?_, hkey, ?_⟩
    · rw [hf]
      exact hfree
    · intro k hk
      rw [hf]
      exact hothers k hk
  rw [ha] at hends
  cases hends with
  | @answered v after _ effect entry =>
      rcases e.claim_effect _ hfree _ effect with ⟨rfl, hkey, hafter⟩ | ⟨rfl, hafter⟩
      · rw [World.landing_now] at hafter
        refine .granted ?_ (hbooks hkey (entry.trans hafter))
        intro hu
        obtain ⟨cause, hcause⟩ := hu.error
        rw [ha] at hcause
        cases hcause
      · exact .denied (huntouched (entry.trans hafter))
  | refused entry => exact .failed (huntouched entry)
  | lost lossy entry =>
      obtain ⟨granted, after, effect⟩ := e.claim_effect_ok
        (w.landing (e.claim r.config.queuedTtl held)).now r.config.queuedTtl held
        ((w.landing (e.claim r.config.queuedTtl held)).entry e.job.key.statusKey)
      have hafter : u.entry e.job.key.statusKey = after := by
        rw [entry, Call.leaves, effect]
      rcases e.claim_effect _ hfree _ effect with ⟨-, hkey, hq⟩ | ⟨-, hq⟩
      · rw [World.landing_now] at hq
        exact .unheard lossy (hbooks hkey (hafter.trans hq))
      · exact .failed (huntouched (hafter.trans hq))

/-- Reading the status of the key writes nothing. -/
theorem perform_read (hr : w.runners.find? e.runner = some r) (hp : e.phase = .reading)
    {x : Except StoreError (Answer.Value .text)} {u : World}
    (ha : w.perform (.get e.job.key.statusKey) = (x, u)) : Stage.Untouched ⟨e, w, u⟩ := by
  intro k
  have h := w.perform_entry_landing (.get e.job.key.statusKey) (k := k) nofun
  rw [ha] at h
  rw [found_read hr hp]
  exact h

end Claiming

/-! ## Taking the job in -/

section Taking

variable {w : World} {name : String} {r : Runner} (job : Job)

/-- Putting a job into a queue leaves a worker in the slot, the one that was there or a new one. -/
theorem push_runner (hr : w.runners.find? name = some r) : ∃ seat generations,
    (push w name job).runners.find? name =
      some { r with pending := r.pending ++ [job], slot := some seat, generations } ∧
    (r.slot = some seat ∨ r.slot = none ∧ (push w name job).tasks.find? seat.task =
      some (.worker ⟨name, seat.generation, false, .starting⟩)) := by
  have hqueued : (w.modifyRunner name fun r =>
      { r with pending := r.pending ++ [job] }).runners.find? name =
        some { r with pending := r.pending ++ [job] } := World.modifyRunner_find? hr
  unfold push
  rw [hr]
  simp only
  cases hs : r.slot with
  | some seat =>
      refine ⟨seat, r.generations, ?_, .inl rfl⟩
      simp only [Option.isSome_some, if_true]
      rw [hqueued, hs]
  | none =>
      refine ⟨⟨r.generations + 1, w.nextTask, false⟩, r.generations + 1, ?_, .inr ⟨rfl, ?_⟩⟩
      · exact World.modifyRunner_find? hqueued
      · exact Table.find?_insert_self ..

/-- A push touches no other runner. -/
theorem push_others {other : String} (hn : other ≠ name) :
    (push w name job).runners.find? other = w.runners.find? other := by
  have hmodify : ∀ (v : World) (f : Runner → Runner),
      (v.modifyRunner name f).runners.find? other = v.runners.find? other := by
    intro v f
    exact (Table.find?_modify ..).trans (if_neg hn)
  unfold push
  split
  · rfl
  · simp only
    split
    · exact hmodify _ _
    · exact (hmodify _ _).trans (hmodify _ _)

variable {e : Enqueue} {held : Option String}

/-- Taking the job in after a claim that the store has granted. -/
theorem accept_accepts (hr : w.runners.find? e.runner = some r) (hp : e.phase = .claiming held)
    {u : World} (hu : u.runners = w.runners) (heard : ¬ w.Unheard (e.claim r.config.queuedTtl held))
    (books : Stage.Books ⟨e, w, u⟩ r) : Stage.Accepts ⟨e, w, (e.accept u).2⟩ r := by
  let counted := (u.log (.runner (.enqueued e.job))).count e.runner fun s =>
    { s with enqueued := s.enqueued + 1 }
  have hcounted : counted.runners.find? e.runner =
      some { r with stats := { r.stats with enqueued := r.stats.enqueued + 1 } } :=
    World.modifyRunner_find? (w := u.log (.runner (.enqueued e.job))) ((congrArg (Table.find? · _)
      hu).trans hr)
  have hstore : ∀ k, (e.accept u).2.entry k = u.entry k := by
    intro k
    obtain ⟨-, hstore, hnow⟩ := push_eq counted e.runner e.job
    change (push counted e.runner e.job).store.entryAt (push counted e.runner e.job).now k = _
    rw [hstore, hnow]
    rfl
  constructor
  · exact ⟨books.free, (hstore _).trans books.key, fun k hk => (hstore k).trans (books.others k hk)⟩
  · rintro ⟨c, hc, hunheard⟩
    simp only [call?, hr, hp, Option.some.injEq] at hc
    subst hc
    exact heard hunheard
  · obtain ⟨seat, generations, hpush, hseat⟩ := push_runner e.job hcounted
    exact ⟨seat, generations, World.modifyRunner_find? hpush, hseat⟩
  · intro name hn
    have hleave : (e.accept u).2.runners.find? name =
        (push counted e.runner e.job).runners.find? name :=
      (Table.find?_modify ..).trans (if_neg hn)
    have hcount : counted.runners.find? name = u.runners.find? name :=
      (Table.find?_modify ..).trans (if_neg hn)
    rw [show (Stage.mk e w (e.accept u).2).after = (e.accept u).2 from rfl, hleave,
      push_others e.job hn, hcount, hu]

end Taking

/-! ## Stage by stage -/

/-- The verdict on a status read: a duplicate, or on to the claim. -/
theorem judge_yields {e : Enqueue} {w u : World} (held : Option String)
    (hp : e.phase = .reading) (store : Stage.Untouched ⟨e, w, u⟩)
    (fleet : Stage.Spares ⟨e, w, u⟩ 0) :
    Stage.Yields ⟨e, w, (e.judge held u).2⟩ (e.judge held u).1 := by
  unfold judge
  split
  · exact .reads hp nofun store fleet
  · split
    · rename_i raw _ status hs
      split
      · exact .ends (.doubled store (concludeDuplicate_spares fleet _))
      · rename_i hb
        refine .reads hp ?_ store fleet
        rintro raw' ⟨⟩
        exact text_of_free hs (Bool.eq_false_iff.mpr hb)
    · exact .ends (.doubled store (concludeDuplicate_spares fleet _))

/-- What every stage of a hand-in comes to. -/
theorem step_yields (self : TaskId) (e : Enqueue) (w : World)
    (hfree : ∀ held, e.phase = .claiming held → Free held) :
    Stage.Yields ⟨e, w, (e.step self w).2⟩ (e.step self w).1 := by
  have hquiet : ∀ u : World, e.call? w = none → u.store = w.store → u.now = w.now →
      Stage.Untouched ⟨e, w, u⟩ := by
    intro u hc hs hn k
    have hf : (Stage.mk e w u).found = w := by simp only [Stage.found, hc]
    rw [hf, World.entry, World.entry, hs, hn]
  unfold step
  split
  · rename_i hr
    refine .ends (.failed ?_ (spares_refl rfl rfl))
    exact hquiet w (by simp only [call?, hr]) rfl rfl
  · rename_i r hr
    split
    · rename_i hp
      have hcall : e.call? w = none := by simp only [call?, hr, hp]
      split
      · refine .ends (.overflowed (hquiet _ hcall rfl rfl) ?_)
        exact conclude_spares (spares_refl rfl rfl) _ _
      · refine .enters hp (hquiet _ hcall rfl rfl) ?_
        exact Stage.Spares.runner_eq (k := 0) (spares_refl rfl rfl) fun _ => ⟨some self, rfl⟩
    · rename_i hp
      split
      · rename_i held u ha
        exact judge_yields held hp (perform_read hr hp ha) (perform_spares (a := .text) ha)
      · rename_i cause u ha
        have store : Stage.Untouched ⟨e, w, u⟩ := perform_read hr hp ha
        exact .ends (.failed store (conclude_spares (perform_spares (a := .text) ha) _ _))
    · rename_i held hp
      have hclaimed : ∀ x u, w.perform (e.claim r.config.queuedTtl held) = (x, u) →
          e.Claimed w r held x u := fun _ _ => perform_claim hr hp (hfree held hp)
      split
      · rename_i u ha
        cases hclaimed _ _ ha with
        | granted heard books =>
            have hu := w.perform_runners (e.claim r.config.queuedTtl held)
            rw [ha] at hu
            exact .ends (.accepted hr (accept_accepts hr hp hu heard books))
      · rename_i u ha
        cases hclaimed _ _ ha with
        | denied store =>
            refine .ends (.doubled store ?_)
            exact concludeDuplicate_spares (perform_spares (a := .flag) ha) _
      · rename_i cause u ha
        have hspares := conclude_spares (e := e) (perform_spares (a := .flag) ha) .unavailable
          (.claimFailed e.job cause)
        cases hclaimed _ _ ha with
        | failed store => exact .ends (.failed store hspares)
        | unheard h books =>
            have hcall : e.call? w = some ⟨.flag, e.claim r.config.queuedTtl held⟩ := by
              simp only [call?, hr, hp]
            exact .ends (.unheard hr ⟨_, hcall, h⟩ ⟨books.free, books.key, books.others⟩ hspares)

/-- The stages that are still to come after the next one. -/
def Phase.left : Phase → Nat
  | .waiting => 2
  | .reading => 1
  | .claiming _ => 0

/-- A hand-in that finds a world at each stage comes to its end, and only the last stage does
anything. -/
theorem stages_end (self : TaskId) (ws : List World) : ∀ e : Enqueue, e.phase.left < ws.length →
    (∀ held, e.phase = .claiming held → Free held) →
    ∃ first last outcome, e.stages self ws = (first ++ [last], .ended outcome) ∧
      (∀ s ∈ first ++ [last], s.state.runner = e.runner ∧ s.state.job = e.job) ∧
      (∀ s ∈ first, s.Untouched ∧ s.Spares 0) ∧ last.Ends outcome := by
  induction ws with
  | nil =>
      intro e hleft
      cases hleft
  | cons w ws ih =>
      intro e hleft hfree
      have hyields := step_yields self e w hfree
      unfold stages
      generalize e.step self w = p at hyields
      obtain ⟨next, v⟩ := p
      change Stage.Yields ⟨e, w, v⟩ next at hyields
      have hon : ∀ phase : Phase, phase.left < ws.length →
          (∀ held, phase = .claiming held → Free held) → Stage.Untouched ⟨e, w, v⟩ →
          Stage.Spares ⟨e, w, v⟩ 0 → ∃ first last outcome,
            (⟨e, w, v⟩ :: (stages self { e with phase } ws).1,
                (stages self { e with phase } ws).2) = (first ++ [last], Progress.ended outcome) ∧
              (∀ s ∈ first ++ [last], s.state.runner = e.runner ∧ s.state.job = e.job) ∧
              (∀ s ∈ first, s.Untouched ∧ s.Spares 0) ∧ last.Ends outcome := by
        intro phase hleft' hfree' store fleet
        obtain ⟨first, last, outcome, hrest, hof, hfirst, hlast⟩ :=
          ih { e with phase } hleft' hfree'
        refine ⟨⟨e, w, v⟩ :: first, last, outcome, by rw [hrest]; rfl, ?_, ?_, hlast⟩
        · intro s hs
          rcases List.mem_cons.mp hs with rfl | hs
          · exact ⟨rfl, rfl⟩
          · exact hof s hs
        · intro s hs
          rcases List.mem_cons.mp hs with rfl | hs
          · exact ⟨store, fleet⟩
          · exact hfirst s hs
      cases hyields with
      | enters hp store fleet =>
          rw [show e.phase = .waiting from hp, List.length_cons] at hleft
          exact hon _ (Nat.lt_of_succ_lt_succ hleft) nofun store fleet
      | reads hp hheld store fleet =>
          rw [show e.phase = .reading from hp, List.length_cons] at hleft
          refine hon _ (Nat.lt_of_succ_lt_succ hleft) ?_ store fleet
          rintro held ⟨⟩
          exact hheld
      | @ends outcome h =>
          refine ⟨[], ⟨e, w, v⟩, outcome, rfl, ?_, fun s hs => absurd hs List.not_mem_nil, h⟩
          intro s hs
          obtain rfl := List.mem_singleton.mp hs
          exact ⟨rfl, rfl⟩

namespace Stage

variable {s : Stage}

/-- A stage that writes nothing claims nothing. -/
theorem Untouched.not_claims (h : s.Untouched) : ¬ s.Claims := by
  rintro ⟨hfree, hqueued⟩
  rw [h] at hqueued
  have hfailed := hfree _ hqueued
  revert hfailed
  decide

/-- A hand-in takes the job in exactly if its last stage claims the key and hears so. -/
theorem Ends.enqueued_iff {outcome : EnqueueOutcome} (h : s.Ends outcome) :
    outcome = .enqueued ↔ s.Claims ∧ ¬ s.Unheard := by
  cases h with
  | accepted hr h =>
      refine ⟨fun _ => ⟨⟨h.books.free, ?_⟩, h.heard⟩, fun _ => rfl⟩
      rw [h.books.key]
      rfl
  | overflowed store fleet => exact ⟨nofun, fun hc => absurd hc.1 store.not_claims⟩
  | doubled store fleet => exact ⟨nofun, fun hc => absurd hc.1 store.not_claims⟩
  | failed store fleet => exact ⟨nofun, fun hc => absurd hc.1 store.not_claims⟩
  | unheard hr h books fleet => exact ⟨nofun, fun hc => absurd h hc.2⟩

end Stage

end Enqueue

namespace World

variable {w : World} {name : String} {m : Move}

/-! ## The queue never overflows -/

/-- A runner's queue holds no more jobs than the runner is told. -/
def Roomy (name : String) (w : World) : Prop :=
  ∀ r, w.runners.find? name = some r → r.pending.length ≤ r.config.capacity

/-- The only hand-in that makes the queue longer is the one that holds the gate, and it has found
room there. -/
theorem Roomy.move (h : w.Roomy name) (hg : w.Gated name) (hw : w.Regular) (hm : w.Admits m) :
    (w.move m).Roomy name := by
  intro r' hr'
  cases hr : w.runners.find? name with
  | none =>
      obtain ⟨config, worker, rfl⟩ := (hw.sound.founds hm hr).2 r' hr'
      exact Nat.zero_le _
  | some r =>
      have hroom := h r hr
      cases hw.runnerMove hr hm with
      | passes apart shuns =>
          rw [apart.runner, hr] at hr'
          cases hr'
          exact hroom
      | @handsIn id t e _ _ _ _ ht hin hn step made left leaves =>
          cases leaves.runner.symm.trans hr'
          have hgranted : ∀ {held : Option String}, e.phase = .claiming held →
              (r.pending ++ [e.job]).length ≤ r.config.capacity := by
            intro held hp
            have hne : e.phase ≠ .waiting := by
              rw [hp]
              nofun
            obtain ⟨r₀, hr₀, -, hlt⟩ := hg id t e ht (Task.hands?_handIn hin) hn hne
            cases hr.symm.trans hr₀
            rw [List.length_append]
            exact hlt
          cases made with
          | joins hp hs => exact hgranted hp
          | hires hp hs => exact hgranted hp
          | _ => exact hroom
      | givesUp _ ht hin hands hn left leaves =>
          cases leaves.runner.symm.trans hr'
          split <;> exact hroom
      | works _ hk tells made runner crew =>
          cases runner.symm.trans hr'
          cases made with
          | idles hp hc hq =>
              rw [Runner.vacates_pending, Runner.vacates_config]
              exact hroom
          | takes hp hc hq =>
              rw [hq] at hroom
              exact Nat.le_of_succ_le hroom
          | _ => exact hroom
      | stops _ ht hp made left runner crew =>
          cases runner.symm.trans hr'
          cases made with
          | clears =>
              rw [Runner.vacates_pending, Runner.vacates_config]
              exact hroom
          | _ => exact hroom

/-- No runner's queue ever grows beyond its capacity. -/
theorem History.roomy {rule : World → Move → Prop} {utc : Int} {s : Store} {ms : List Move}
    (h : History rule (around utc s) ms w) (name : String) : w.Roomy name := by
  have hall : w.Regular ∧ w.Gated name ∧ w.Roomy name := by
    refine h.keeps (P := fun v => v.Regular ∧ v.Gated name ∧ v.Roomy name)
      ⟨regular_around utc s, gated_around name utc s, nofun⟩ ?_
    rintro v m hm - ⟨hv, hg, hroom⟩
    exact ⟨hv.move hm, hg.move hv hm, hroom.move hg hv hm⟩
  exact hall.2.2

/-- In every history a runner's queue holds no more jobs than the runner is told. Whatever worlds a
hand-in finds at its stages, it ends at the third one at the latest; the stages before its last one
write and count nothing; and the last one takes the job in with everything that belongs to it,
changes nothing but the count of duplicates, or has claimed the key without hearing so. The job is
taken in exactly if a stage has claimed the key and has heard so. -/
theorem handIn_all_or_nothing {rule : World → Move → Prop} {utc : Int} {s : Store} {ms : List Move}
    (h : History rule (around utc s) ms w) (name : String) :
    (∀ r, w.runners.find? name = some r → r.pending.length ≤ r.config.capacity) ∧
      ∀ self job first second third, ∃ stages last outcome,
        (Enqueue.start name job).stages self [first, second, third] =
            (stages ++ [last], .ended outcome) ∧
          (∀ s ∈ stages ++ [last], s.state.runner = name ∧ s.state.job = job) ∧
          (∀ s ∈ stages, s.Untouched ∧ s.Spares 0) ∧
          (outcome = .enqueued ↔ ∃ s ∈ stages ++ [last], s.Claims ∧ ¬ s.Unheard) ∧
          last.Ends outcome := by
  refine ⟨h.roomy name, ?_⟩
  intro self job u v x
  obtain ⟨stages, last, outcome, he, hof, hstages, hlast⟩ :=
    Enqueue.stages_end self [u, v, x] (.start name job) (Nat.lt_succ_self 2) nofun
  refine ⟨stages, last, outcome, he, hof, hstages, ?_, hlast⟩
  constructor
  · intro hq
    exact ⟨last, by simp, hlast.enqueued_iff.mp hq⟩
  · rintro ⟨s, hs, hclaims, hheard⟩
    rcases List.mem_append.mp hs with hs | hs
    · exact absurd hclaims (hstages s hs).1.not_claims
    · obtain rfl := List.mem_singleton.mp hs
      exact hlast.enqueued_iff.mpr ⟨hclaims, hheard⟩

/-- A job. -/
def parcel : Job := .new ⟨"parcel", by decide⟩ 0

/-- A runner with room for one job, whose queued jobs stay a second and a half. -/
def parcelRunner : Move :=
  .runner "r" { Runner.Config.usual with capacity := 1, queuedTtl := .ofMillis 1500 }

/-- A fault by which the reply to the next claim is lost. -/
def unheardFault : Fault := ⟨.setIfAbsent, 0, 1, none, some (.connection "reset"), true⟩

/-- A job is handed in. -/
def parcelIn : List Move := [.launch (.enqueue (.start "r" parcel)), .step 0, .step 0, .step 0]

/-- The runner's only hand-in so far is taken in whole: each of its stages finds the world that the
one before has left, the last one claims the key and hears so, and the queue is full. -/
theorem handIn_all_or_nothing_parcel :
    ∃ stages last, (Enqueue.start "r" parcel).stages 0
        [(around 0 .empty).after (parcelRunner :: parcelIn.take 1),
          (around 0 .empty).after (parcelRunner :: parcelIn.take 2),
          (around 0 .empty).after (parcelRunner :: parcelIn.take 3)] =
          (stages ++ [last], .ended .enqueued) ∧
      (∃ s ∈ stages ++ [last], s.Claims ∧ ¬ s.Unheard) ∧
      ∀ r, ((around 0 .empty).after (parcelRunner :: parcelIn)).runners.find? "r" = some r →
        r.pending.length ≤ r.config.capacity := by
  have h : History (fun _ _ => True) (around 0 .empty) (parcelRunner :: parcelIn) _ :=
    .of_check (by decide +kernel)
  obtain ⟨hroom, hstages⟩ := handIn_all_or_nothing h "r"
  obtain ⟨stages, last, outcome, he, -, -, hiff, -⟩ := hstages 0 parcel
    ((around 0 .empty).after (parcelRunner :: parcelIn.take 1))
    ((around 0 .empty).after (parcelRunner :: parcelIn.take 2))
    ((around 0 .empty).after (parcelRunner :: parcelIn.take 3))
  have houtcome : outcome = .enqueued := by
    have hended := congrArg Prod.snd he
    cases hended
    rfl
  subst houtcome
  exact ⟨stages, last, he, hiff.mp rfl, hroom⟩

/-- A claim of an absent key whose reply is lost: the hand-in ends as unavailable, the queue stays
empty, and yet the key is claimed, for two seconds where the runner was told one and a half. -/
theorem unavailable_leaves_queued :
    History (fun _ _ => True) (around 0 .empty) (parcelRunner :: .disturb unheardFault :: parcelIn)
        ((around 0 .empty).after (parcelRunner :: .disturb unheardFault :: parcelIn)) ∧
      (around 0 .empty).entry parcel.key.statusKey = none ∧
      ((around 0 .empty).after (parcelRunner :: .disturb unheardFault :: parcelIn)).tasks.find? 0 =
        some (.ended (.enqueued .unavailable)) ∧
      (((around 0 .empty).after (parcelRunner :: .disturb unheardFault :: parcelIn)).runners.find?
        "r").map (fun r => (r.pending, r.slot, r.config.queuedTtl)) =
          some ([], none, .ofMillis 1500) ∧
      ((around 0 .empty).after (parcelRunner :: .disturb unheardFault :: parcelIn)).entry
        parcel.key.statusKey = some ⟨JobStatus.queued.text, some 2000000000⟩ := by
  exact ⟨.of_check (by decide +kernel), by decide +kernel, by rfl, by decide +kernel,
    by decide +kernel⟩

end World

end JobFleet
