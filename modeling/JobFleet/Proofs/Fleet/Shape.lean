import JobFleet.Proofs.Fleet.Calls
import JobFleet.Proofs.Fleet.Fate
import JobFleet.Proofs.Fleet.Guards
import JobFleet.Proofs.Fleet.Told

/-!
# The shape of the shared store

If nobody but runners, limiters and schedulers writes to a store that was empty at first, then
whatever they do, in any order and under any faults, every key that the store holds is of one
kind and holds what the kind allows, for no longer than a member was told. Each kind of key is
written on behalf of one component only, and no call of the fleet meets a text that it cannot
read.
-/

namespace JobFleet

namespace World

variable {told : KeyKind → Duration → Prop} {w v : World}

/-! ## Who may write -/

/-- A call that a limiter makes when somebody outside the fleet asks it to look, to count a
failure or to forget the failures. -/
inductive Offers (w : World) : AnyCall → Prop
  | attempts (k : RateLimitKey) : Offers w ⟨.count, Limiter.attempts k⟩
  | failure {name : String} {l : Limiter} {k : RateLimitKey}
      (hl : w.limiters.find? name = some l) (hk : k.Derived) :
      Offers w ⟨.count, l.recordFailure k⟩
  | reset {k : RateLimitKey} (hk : k.Derived) : Offers w ⟨.nothing, Limiter.reset k⟩

/-- A move by which nobody writes to the store but runners, limiters and schedulers: a client only
looks or asks a limiter, no fault slips a write in, and no handler's script writes. -/
def Secluded (w : World) : Move → Prop
  | .call c => c.2.target = none ∨ w.Offers c
  | .disturb f => f.sneak = none
  | .step id => (w.tasks.find? id).bind Task.scribbles? = none
  | _ => True

/-- The store and everything that may write to it keep to the grammar. -/
structure Tidy (told : KeyKind → Duration → Prop) (w : World) : Prop where
  sound : w.Sound
  members : w.Told told
  faults : ∀ f ∈ w.network, f.sneak = none
  entries : ∀ k, (w.grammar told).Allows w.now k (w.entry k)
  extenders : w.Lent
  guards : ∀ i g k, w.tasks.find? i = some (.operation (.guard g)) → g.phase.key? = some k →
    k.Derived ∧ ∃ l, w.limiters.find? g.limiter = some l

theorem tidy_around (utc : Int) (told : KeyKind → Duration → Prop) :
    (around utc .empty).Tidy told where
  sound := .of_none fun _ => rfl
  members := {
    runners := nofun
    limiters := nofun
    locks := by
      rintro l ⟨name, hn⟩
      cases hn }
  faults := fun _ hf => absurd hf List.not_mem_nil
  entries := fun _ => Grammar.allows_none
  extenders := nofun
  guards := nofun

/-! ## Calls -/

/-- Faults that slip nothing in spare every key. -/
theorem spared_of_unslipped (hf : ∀ f ∈ w.network, f.sneak = none) (k : String) : w.Spared k := by
  intro f hin s hs
  rw [hf f hin] at hs
  cases hs

/-- A permitted call leaves every key with what the grammar allows, whatever faults it meets that
slip nothing in. -/
theorem allows_perform {G : Grammar} {u : World} {a : Answer} {c : Call a} (hc : G.Permits c)
    (hs : ∀ k, G.Allows u.now k (u.entry k)) (hf : ∀ f ∈ u.network, f.sneak = none)
    (k : String) : G.Allows u.now k ((u.perform c).2.entry k) := by
  have hspared := spared_of_unslipped hf k
  by_cases hk : c.key? = some k
  · rcases (u.perform_ends c hk hspared).entry_eq with he | he
    · rw [he]
      exact hs k
    · rw [he]
      refine hc.leaves ?_ hk
      intro k' hk'
      cases hk.symm.trans hk'
      exact hs k
  · rw [u.perform_entry_of_ne c (fun ht => hk (Call.key?_of_target ht)) hspared]
    exact hs k

/-- Every call that a task's next step may make is permitted. -/
theorem Tidy.permits (h : w.Tidy told) {id : TaskId} {t : Task}
    (ht : w.tasks.find? id = some t) (hs : t.scribbles? = none) {c : AnyCall}
    (hd : Task.MayDo w t (.call c)) : (w.grammar told).Permits c.2 := by
  have hlock : ∀ {l : Lock} {c : Call .flag}, w.Owned l → l.Asks c →
      (w.grammar told).Permits c := fun hl hc => .lock hl (h.members.locks _ hl) hc
  cases hd with
  | aside hc => exact .look hc
  | handIn _ hd =>
      cases hd with
      | read => exact .look (.get _)
      | @claim r held hr _ =>
          have hd := (h.members.runners _ r hr).2 .queued
          cases held with
          | none => exact .claim (s := .queued) hd
          | some raw => exact .reclaim (s := .queued) hd
  | @worker k _ hk hd =>
      subst hk
      obtain ⟨r, hr⟩ := h.sound.employed id _ k.runner ht rfl
      have hconfig : w.runnerConfig k.runner = r.config := by
        rw [runnerConfig, hr]
        rfl
      have htold := h.members.runners _ r hr
      cases hd with
      | ask _ => exact .raise (hconfig ▸ htold.1)
      | release _ => exact .drop
      | @status job status _ => exact .status (hconfig ▸ htold.2 status)
  | set hset =>
      rw [hset] at hs
      cases hs
  | delete hset =>
      rw [hset] at hs
      cases hs
  | @forget g k v hg hp ho =>
      subst hg
      exact .reset (h.guards id g k ht (by rw [hp]; rfl)).1
  | @countFailure g k fault hg hp ho =>
      subst hg
      obtain ⟨hk, l, hl⟩ := h.guards id g k ht (by rw [hp]; rfl)
      have hin : g.limiterIn w = l := by
        rw [Guard.limiterIn, hl]
        rfl
      rw [hin]
      exact .failure hk (h.members.limiters _ l hl)
  | control _ hd =>
      cases hd with
      | aside hc => exact .look hc
      | lock hl hc =>
          refine hlock ?_ hc
          cases hl with
          | extender x => exact h.extenders id x ht
          | scheduler hl =>
              obtain ⟨s, hs, hlock⟩ := hl
              exact ⟨_, by rw [lock?, hs, Option.map_some, hlock]⟩

/-- A tidy world offers the calls its grammar permits. -/
theorem Tidy.permits_offered (h : w.Tidy told) {c : AnyCall} (hc : w.Offers c) :
    (w.grammar told).Permits c.2 := by
  cases hc with
  | attempts k => exact .look (.attempts k)
  | failure hl hk => exact .failure hk (h.members.limiters _ _ hl)
  | reset hk => exact .reset hk

/-! ## Every move -/

/-- What the steps of a task and its calls leave on keys is allowed. -/
theorem Tidy.act_entries (h : w.Tidy told) {id : TaskId} {t : Task}
    (ht : w.tasks.find? id = some t) (hs : t.scribbles? = none) (k : String) :
    (w.grammar told).Allows w.now k ((t.act id w).2.entry k) := by
  have hboth := (t.act_via id w).keeps (P := fun u => u.now = w.now ∧
    (∀ f ∈ u.network, f.sneak = none) ∧ ∀ k, (w.grammar told).Allows w.now k (u.entry k))
    ?_ ⟨rfl, h.faults, h.entries⟩
  · exact hboth.2.2 k
  · rintro u d hd ⟨hnow, hf, he⟩
    have hf' : ∀ f ∈ (u.does d).network, f.sneak = none := by
      intro f hin
      obtain ⟨g, hg, hfg⟩ := does_network d f hin
      rw [hfg.1, hf g hg]
    cases d with
    | call c =>
        have hp := allows_perform (h.permits ht hs hd) (by rw [hnow]; exact he) hf
        rw [hnow] at hp
        exact ⟨(u.perform_now c.2).trans hnow, hf', hp⟩
    | _ => exact ⟨hnow, hf', he⟩

/-- A limiter that is not there lets nobody through. -/
theorem Tidy.limiter_of_passes (h : w.Tidy told) {g : Guard} {k : RateLimitKey}
    {a : Except StoreError Int} {u : World} (ha : w.perform (Limiter.attempts k) = (a, u))
    (hl : (g.limiterIn w).limits a = false) : ∃ l, w.limiters.find? g.limiter = some l := by
  cases hfind : w.limiters.find? g.limiter with
  | some l => exact ⟨l, rfl⟩
  | none =>
      have hin : g.limiterIn w = Guard.closedLimiter := by rw [Guard.limiterIn, hfind]; rfl
      have hspared := spared_of_unslipped h.faults k.counterKey
      obtain ⟨n, hn, heffect⟩ := (h.entries k.counterKey).attempted
      have hends := w.perform_ends (Limiter.attempts k) rfl hspared
      rw [hin] at hl
      generalize w.perform (Limiter.attempts k) = p at hends ha
      cases hends with
      | answered he _ =>
          rw [heffect] at he
          cases he
          cases ha
          exact absurd hn (of_decide_eq_false hl)
      | refused _ =>
          cases ha
          cases hl
      | lost _ _ =>
          cases ha
          cases hl

/-- A guard has a derived key and its limiter, after every move too. -/
theorem Tidy.guards_move (h : w.Tidy told) {m : Move} (hm : w.Admits m) {i : TaskId} {g : Guard}
    {k : RateLimitKey} (hg : (w.move m).tasks.find? i = some (.operation (.guard g)))
    (hk : g.phase.key? = some k) :
    k.Derived ∧ ∃ l, (w.move m).limiters.find? g.limiter = some l := by
  have hkept : k.Derived ∧ ∃ l, w.limiters.find? g.limiter = some l := by
    rcases h.sound.guard_was hm hg with hold | hnew | ⟨g', v, -, hold, hturn⟩
    · exact h.guards i g k hold hk
    · rw [hnew] at hk
      cases hk
    · cases hturn with
      | passes hp hkey ha hl hv =>
          cases hk
          exact ⟨AuthScope.key_derived hkey, h.limiter_of_passes ha hl⟩
      | begins hp =>
          cases hk
          exact h.guards i g' k hold (by rw [hp]; rfl)
      | finishes hp =>
          cases hk
          exact h.guards i g' k hold (by rw [hp]; rfl)
  obtain ⟨hd, l, hl⟩ := hkept
  exact ⟨hd, limiter_move hm hl⟩

/-- A move within the world leaves entries of the grammar. -/
theorem Tidy.entries_move (h : w.Tidy told) {m : Move} (hm : w.Admits m) (hi : w.Secluded m)
    (k : String) : (w.grammar told).Allows (w.move m).now k ((w.move m).entry k) := by
  have hsame : (w.move m).now = w.now → (w.move m).store = w.store →
      (w.grammar told).Allows (w.move m).now k ((w.move m).entry k) := by
    intro hnow hstore
    rw [entry, hstore, hnow]
    exact h.entries k
  cases hset : m.setsUp with
  | true => exact hsame (move_setUp hset hm).now (move_setUp hset hm).store
  | false =>
      cases m with
      | step id =>
          obtain ⟨t, ht, -, he⟩ := move_step hm
          have hs : t.scribbles? = none := by
            have hbind : (w.tasks.find? id).bind Task.scribbles? = none := hi
            rwa [ht] at hbind
          rw [he, put_now, put_entry, (t.act_via id w).now]
          exact h.act_entries ht hs k
      | pass t =>
          have hlater := w.store.entryAt_later hm k
          rw [entry]
          exact hlater ▸ ((h.entries k).filter _).mono (fun _ hl => hl) (fun _ _ hd => hd) hm
      | call c =>
          rw [move, perform_now]
          rcases hi with ht | ho
          · rw [w.perform_entry_of_ne c.2 (by rw [ht]; rintro ⟨⟩) (spared_of_unslipped h.faults k)]
            exact h.entries k
          · exact allows_perform (h.permits_offered ho) h.entries h.faults k
      | launch o => exact h.entries k
      | collect id => exact h.entries k
      | disturb f => exact h.entries k
      | reach value => exact h.entries k
      | _ => cases hset

/-- Every move by which nobody else writes keeps to the grammar. -/
theorem Tidy.move (h : w.Tidy told) {m : Move} (hm : w.Admits m) (hi : w.Secluded m)
    (hnew : ∀ κ, ∀ d ∈ m.ttls κ, told κ d) : (w.move m).Tidy told where
  sound := h.sound.move hm
  members := h.members.move hm hnew
  faults := by
    intro f hf
    rcases move_network hm f hf with rfl | ⟨g, hg, hfg⟩
    · exact hi
    · rw [hfg.1, h.faults g hg]
  entries := fun k => (h.entries_move hm hi k).mono (fun _ hl => hl.move hm) (fun _ _ hd => hd)
    (Nat.le_refl _)
  extenders := h.extenders.move hm
  guards := fun i g k hg hk => h.guards_move hm hg hk

/-- Members that are told more keep to the grammar all the more. -/
theorem Tidy.mono {told' : KeyKind → Duration → Prop} (h : w.Tidy told)
    (ht : ∀ κ d, told κ d → told' κ d) : w.Tidy told' where
  sound := h.sound
  members := {
    runners := fun name r hr => ⟨(h.members.runners name r hr).1,
      fun s => ht _ _ ((h.members.runners name r hr).2 s)⟩
    limiters := fun name l hl => ht _ _ (h.members.limiters name l hl)
    locks := fun l hl => ht _ _ (h.members.locks l hl) }
  faults := h.faults
  entries := fun k => (h.entries k).mono (fun _ hl => hl) ht (Nat.le_refl _)
  extenders := h.extenders
  guards := h.guards

/-- What the members that have joined in a history are told. -/
def toldBy (ms : List Move) (κ : KeyKind) (d : Duration) : Prop := ∃ m ∈ ms, d ∈ m.ttls κ

/-- A history by which nobody else writes keeps to the grammar. -/
theorem History.tidy {utc : Int} {ms : List Move}
    (h : History Secluded (around utc .empty) ms w) : w.Tidy (toldBy ms) := by
  induction h with
  | nil => exact tidy_around utc _
  | @snoc ms v m _ possible obeys ih =>
      refine (ih.mono ?_).move possible obeys ?_
      · rintro κ d ⟨m', hm', hd⟩
        exact ⟨m', List.mem_append_left _ hm', hd⟩
      · intro κ d hd
        exact ⟨m, List.mem_append_right _ List.mem_cons_self, hd⟩

end World

/-! ## Who changes which keys -/

/-- The components that share the store. -/
inductive Component
  | runner
  | limiter
  | scheduler
deriving DecidableEq, Repr

/-- The component that the keys of a kind belong to. -/
def KeyKind.keeper : KeyKind → Component
  | .counter | .status => .runner
  | .attempts => .limiter
  | .lock => .scheduler

/-- On whose behalf a task takes its next step. -/
inductive Task.ActsFor : Task → Component → Prop
  | worker (k : Worker) : ActsFor (.worker k) .runner
  | handIn {t : Task} {e : Enqueue} (h : t.handIn? = some e) : ActsFor t .runner
  | guard (g : Guard) : ActsFor (.operation (.guard g)) .limiter
  | control {t : Task} (h : t.controls = true) : ActsFor t .scheduler

namespace World

variable {told : KeyKind → Duration → Prop} {w v : World}

/-- On whose behalf a move is made: that of a task's component, or of the limiter that a client
asks. -/
inductive ActsFor (w : World) : Move → Component → Prop
  | step {id : TaskId} {t : Task} {c : Component} (ht : w.tasks.find? id = some t)
      (h : t.ActsFor c) : ActsFor w (.step id) c
  | call {c : AnyCall} (h : w.Offers c) : ActsFor w (.call c) .limiter

/-- A key that changes otherwise than by running out is changed for the component that keys of its
kind belong to. -/
theorem Tidy.changed (h : w.Tidy told) {m : Move} (hm : w.Admits m) (hi : w.Secluded m)
    {k : String} (hne : (w.move m).entry k ≠ w.entry k) :
    (∃ t, m = .pass t ∧ (w.move m).entry k = none) ∨
      ∃ κ : KeyKind, κ.Names k ∧ w.ActsFor m κ.keeper := by
  have hspared := spared_of_unslipped h.faults k
  by_cases hl : w.Lapses k m
  · cases m with
    | pass t => exact .inl ⟨t, rfl, hl.2⟩
    | _ => exact hl.elim
  refine .inr ?_
  by_cases hintrudes : w.Intrudes k m
  · cases m with
    | call c =>
        rcases hi with ht | ho
        · cases ht.symm.trans hintrudes
        · refine ⟨.attempts, ?_, .call ho⟩
          cases ho with
          | attempts _ => cases hintrudes
          | failure hl hk =>
              cases hintrudes
              exact .attempts hk
          | reset hk =>
              cases hintrudes
              exact .attempts hk
    | disturb f =>
        have hslips : f.sneak = none := hi
        exact absurd (fun s hs => by rw [hslips] at hs; cases hs) hintrudes
    | step id => cases Eq.trans (Eq.symm hi) hintrudes
    | _ => exact hintrudes.elim
  · obtain ⟨id, t, rfl, ht, hw⟩ : ∃ id t, m = .step id ∧ w.tasks.find? id = some t ∧
        t.Writes k := by
      refine Classical.byContradiction fun hno => hne (entry_kept hspared hm hintrudes hl ?_)
      exact fun id t he ht hw => hno ⟨id, t, he, ht, hw⟩
    cases hw with
    | claim hin hp => exact ⟨.status, .status _, .step ht (.handIn hin)⟩
    | counter hk =>
        subst hk
        exact ⟨.counter, .counter, .step ht (.worker _)⟩
    | status hk hp =>
        subst hk
        exact ⟨.status, .status _, .step ht (.worker _)⟩
    | scribble hs =>
        have hbind : (w.tasks.find? id).bind Task.scribbles? = none := hi
        rw [ht, Option.bind_some, hs] at hbind
        cases hbind
    | @attempts g k hg hp =>
        subst hg
        have hd := (h.guards id g k ht (by rw [hp]; rfl)).1
        exact ⟨.attempts, .attempts hd, .step ht (.guard g)⟩
    | lock hc => exact ⟨.lock, .lock _, .step ht (.control hc)⟩

/-! ## What the fleet asks of the store -/

/-- The calls that deeds of a kind have made are of the kind. -/
theorem Via.made {D : Deed → Prop} (h : w.Via D v) :
    ∃ new, v.calls = new ++ w.calls ∧ ∀ c ∈ new, D (.call c) := by
  refine h.keeps (P := fun u => ∃ new, u.calls = new ++ w.calls ∧ ∀ c ∈ new, D (.call c)) ?_
    ⟨[], rfl, fun _ hc => absurd hc List.not_mem_nil⟩
  rintro u d hd ⟨new, hcalls, hnew⟩
  cases d with
  | call c =>
      refine ⟨c :: new, by rw [does, calls_perform, hcalls, List.cons_append], ?_⟩
      intro c' hc
      rcases List.mem_cons.mp hc with rfl | hc
      · exact hd
      · exact hnew c' hc
  | record r hc => exact ⟨new, (calls_enter u hc).trans hcalls, hnew⟩
  | _ => exact ⟨new, hcalls, hnew⟩

/-- The call that a move makes is permitted, unless a client makes it without asking a limiter. -/
theorem Tidy.permits_made (h : w.Tidy told) {m : Move} (hm : w.Admits m) (hi : w.Secluded m)
    {c : AnyCall} (hc : (w.move m).calls = c :: w.calls) (hoffer : m = .call c → w.Offers c) :
    (w.grammar told).Permits c.2 := by
  have hnone : (w.move m).calls ≠ w.calls := by
    rw [hc]
    exact List.cons_ne_self c w.calls
  cases hset : m.setsUp with
  | true => exact absurd (move_setUp hset hm).calls hnone
  | false =>
      cases m with
      | step id =>
          obtain ⟨t, ht, -, he⟩ := move_step hm
          have hs : t.scribbles? = none := by
            have hbind : (w.tasks.find? id).bind Task.scribbles? = none := hi
            rwa [ht] at hbind
          obtain ⟨new, hcalls, hnew⟩ := (t.act_via id w).made
          refine h.permits ht hs (hnew c ?_)
          rw [he, put_calls, hcalls, ← List.singleton_append] at hc
          rw [List.append_cancel_right hc]
          exact List.mem_singleton_self c
      | call c' =>
          have hsame := (w.calls_perform c'.2).symm.trans hc
          cases List.head_eq_of_cons_eq hsame
          exact h.permits_offered (hoffer rfl)
      | pass t => exact absurd rfl hnone
      | launch o => exact absurd rfl hnone
      | collect id => exact absurd rfl hnone
      | disturb f => exact absurd rfl hnone
      | reach value => exact absurd rfl hnone
      | _ => cases hset

/-- The shape of the store. Whatever runners, limiters and schedulers do on a store that was empty
at first and that nobody else writes to, every key that the store holds is of exactly one kind and
holds what the kind allows; every move changes keys of the moving component's kinds only, other
keys running out at most; and every move makes at most one call, which meets no text that is no
number unless a client makes it without asking a limiter. -/
theorem store_shape {utc : Int} {ms : List Move}
    (h : History Secluded (around utc .empty) ms w) :
    (∀ k e, w.entry k = some e → ∃ κ, (w.grammar (toldBy ms)).Holds w.now κ k e ∧
      ∀ κ' : KeyKind, κ'.Names k → κ' = κ) ∧
    ∀ m, w.Admits m → w.Secluded m →
      (∀ k, (w.move m).entry k ≠ w.entry k →
        (∃ t, m = .pass t ∧ (w.move m).entry k = none) ∨
          ∃ κ : KeyKind, κ.Names k ∧ w.ActsFor m κ.keeper) ∧
      ((w.move m).calls = w.calls ∨ ∃ c, (w.move m).calls = c :: w.calls ∧
        ((m = .call c → w.Offers c) →
          ∀ cause, (w.store.apply w.now c.2).1 ≠ .error (.invalidValue cause))) := by
  have ht := h.tidy
  refine ⟨?_, fun m hm hi => ⟨fun k hne => ht.changed hm hi hne, ?_⟩⟩
  · intro k e he
    obtain ⟨κ, hκ⟩ := ht.entries k e he
    exact ⟨κ, hκ, fun κ' hκ' => hκ.names.unique hκ'⟩
  · refine (move_oneCall hm).imp_right ?_
    rintro ⟨c, hc⟩
    refine ⟨c, hc, fun hoffer cause hfault => ?_⟩
    rcases (ht.permits_made hm hi hc hoffer).apply ht.entries with ⟨v, hv⟩ | hu
    · rw [hv] at hfault
      cases hfault
    · rw [hu] at hfault
      cases hfault

/-- A move by which, besides, no client calls. -/
def Unattended (w : World) : Move → Prop
  | .call _ => False
  | m => w.Secluded m

/-- A move nobody attends to from outside stays within the world. -/
theorem Unattended.secluded {m : Move} (h : w.Unattended m) : w.Secluded m := by
  cases m with
  | call c => exact h.elim
  | _ => exact h

instance (w : World) (m : Move) : Decidable (w.Unattended m) :=
  match m with
  | .call _ => .isFalse id
  | .disturb f => inferInstanceAs (Decidable (f.sneak = none))
  | .step id => inferInstanceAs (Decidable ((w.tasks.find? id).bind Task.scribbles? = none))
  | .pass _ | .turn _ | .favour _ | .launch _ | .collect _ | .reach _ | .openGate .. | .handler _
  | .runner .. | .scheduler .. | .limiter .. | .lock .. | .app .. | .update .. => .isTrue trivial

/-- A runner, a limiter and a scheduler. A job is handed in and runs, an attempt to refresh a
sign-in is rejected, and the scheduler starts. -/
def firstMinute : List Move :=
  [.runner "a" Runner.Config.usual, .limiter "l" ⟨5, .ofSecs 60, .failClosed⟩,
    .scheduler "s" "sweep" (.ofSecs 90) (.held ⟨false, 60⟩)
      (.scripted 0 fun _ => ⟨none, .panicked⟩),
    .launch (.enqueue (.start "a" (.new ⟨"report", by decide⟩ 0))), .step 0, .step 0, .step 0,
    .step 1, .step 1, .step 1, .step 1,
    .launch (.guard ⟨"l", .refresh, "u", none, .error "expired", .checking⟩),
    .step 2, .step 2, .step 2, .step 2, .launch (.startScheduler "s" .entering), .step 3, .step 3]

/-- The store then holds one key of each kind, as its kind allows. -/
theorem store_shape_firstMinute :
    ((around 0 .empty).after firstMinute).store.entries.entries.length = 4 ∧
      ∀ κ : KeyKind, ∃ k e, ((around 0 .empty).after firstMinute).entry k = some e ∧
        (((around 0 .empty).after firstMinute).grammar (toldBy firstMinute)).Holds
          ((around 0 .empty).after firstMinute).now κ k e := by
  have h : History Unattended (around 0 .empty) firstMinute
      ((around 0 .empty).after firstMinute) := .of_check (by decide +kernel)
  have hshape := (store_shape (h.mono fun _ _ => Unattended.secluded)).1
  refine ⟨by decide +kernel, fun κ => ?_⟩
  have hkind : ∀ k e, ((around 0 .empty).after firstMinute).entry k = some e →
      k.toList.head? = some κ.letter → ∃ k e,
        ((around 0 .empty).after firstMinute).entry k = some e ∧
        (((around 0 .empty).after firstMinute).grammar (toldBy firstMinute)).Holds
          ((around 0 .empty).after firstMinute).now κ k e := by
    intro k e he hletter
    obtain ⟨κ', hholds, -⟩ := hshape k e he
    have hsame : κ' = κ :=
      KeyKind.letter_inj (Option.some.inj (hholds.names.head?.symm.trans hletter))
    exact ⟨k, e, he, hsame ▸ hholds⟩
  cases κ with
  | counter => exact hkind "counter:global_jobs" ⟨"1", none⟩ (by decide +kernel) (by decide)
  | status =>
      exact hkind "job:status:report" ⟨"running", some 3600000000000⟩ (by decide +kernel)
        (by decide)
  | attempts =>
      exact hkind ("rate_limit:refresh:unknown-ip-0bfe935e:" ++
        "0bfe935e70c321c7ca3afc75ce0d0ca2f98b5422e008bb31c00c6d7f1f1c0ad6")
        ⟨"1", some 60000000000⟩ (by decide +kernel) (by decide)
  | lock =>
      exact hkind "lock:sweep" ⟨"00000000000000000000000000000002", some 90000000000⟩
        (by decide +kernel) (by decide)

end World

end JobFleet
