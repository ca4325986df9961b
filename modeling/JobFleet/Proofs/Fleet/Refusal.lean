import JobFleet.Proofs.Fleet.Overlap
import JobFleet.Proofs.Fleet.Served
import JobFleet.Proofs.Fleet.Told

/-!
# Why a start is refused

If nobody but schedulers writes the key of a lock, then what the key holds was granted to one of
them, to its start or to its extender, and has stood untouched since. A start that the store answers
is refused exactly while such a hold stands. It may be the scheduler's own: who is demoted does not
give the lock back, and a stop may fail to. Such a hold runs out a time to live after it was last
granted.
-/

namespace JobFleet

/-- What is asked of a lock leaves its key alone, empties it in giving the lock back, or grants the
lock anew. -/
theorem Lock.Asks.leaves_cases {l : Lock} {c : Call .flag} (h : l.Asks c) (now : Nat)
    (held : Option Entry) :
    c.leaves now held = held ∨ c.leaves now held = none ∨
      c ≠ l.release ∧ c.leaves now held = some ⟨l.token, some (Clock.expiry now l.ttl)⟩ := by
  cases h with
  | acquire =>
      cases held with
      | none => exact .inr (.inr ⟨nofun, rfl⟩)
      | some e => exact .inl rfl
  | extend =>
      by_cases ht : held.map Entry.value = some l.token
      · have heffect : l.extend.effect now held =
            .ok (true, some ⟨l.token, some (Clock.expiry now l.ttl)⟩) := if_pos ht
        exact .inr (.inr ⟨nofun, by rw [Call.leaves, heffect]⟩)
      · have heffect : l.extend.effect now held = .ok (false, held) := if_neg ht
        exact .inl (by rw [Call.leaves, heffect])
  | release =>
      by_cases ht : held.map Entry.value = some l.token
      · have heffect : l.release.effect now held = .ok (true, none) := if_pos ht
        exact .inr (.inl (by rw [Call.leaves, heffect]))
      · have heffect : l.release.effect now held = .ok (false, held) := if_neg ht
        exact .inl (by rw [Call.leaves, heffect])

/-- A task that starts a scheduler makes a step of the start and ends with its answer. -/
theorem Task.act_start {t : Task} {name : String} {p : Schedule.StartPhase}
    (h : t.starts? = some (name, p)) (id : TaskId) (w : World) :
    (t.act id w).2 = (p.step id name w).2 ∧ ∀ b, (t.act id w).1 = some (.ended (.flag b)) ↔
      (p.step id name w).1 = .ended b := by
  cases t with
  | operation o =>
      cases o with
      | startScheduler n q =>
          cases h
          refine ⟨rfl, fun b => ?_⟩
          simp only [act, Operation.step]
          cases (p.step id name w).1 <;> simp [Progress.map, Progress.kept]
      | startApp n q =>
          cases q with
          | pinging => cases h
          | scheduler q =>
              cases h
              refine ⟨rfl, fun b => ?_⟩
              simp only [act, Operation.step, AppStart.step]
              cases (p.step id name w).1 <;> simp [Progress.map, Progress.kept]
      | _ => cases h
  | _ => cases h

/-- Whether the next step of a task asks for a lock for a scheduler, which a start does, or for
longer, which an extender does. -/
def Task.seeks (name : String) (l : Lock) : Task → Bool
  | .extender x => x.lock = l && x.phase = .extending
  | t => t.starts? = some (name, .acquiring)

/-- A start that acquires seeks the lock. -/
theorem Task.seeks_of_starts {t : Task} {name : String} (l : Lock)
    (h : t.starts? = some (name, .acquiring)) : t.seeks name l = true := by
  cases t with
  | extender x => cases h
  | _ => exact decide_eq_true h

namespace World

variable {w : World} {lockName name : String} {l : Lock}

/-- A move by which a lock is granted to a scheduler: the acquire of a start or the renewal of an
extender leaves the scheduler's token on the key, for the time to live. -/
def Grants (name : String) (l : Lock) (w : World) : Move → Prop
  | .step id => w.lock? name = some l ∧ (w.tasks.find? id).any (Task.seeks name l) = true ∧
      (w.move (.step id)).entry (lockKey l.name) =
        some ⟨l.token, some (Clock.expiry w.now l.ttl)⟩
  | _ => False

instance (name : String) (l : Lock) (w : World) (m : Move) : Decidable (w.Grants name l m) :=
  match m with
  | .step id =>
      inferInstanceAs (Decidable (w.lock? name = some l ∧
        (w.tasks.find? id).any (Task.seeks name l) = true ∧
        (w.move (.step id)).entry (lockKey l.name) =
          some ⟨l.token, some (Clock.expiry w.now l.ttl)⟩))
  | .pass _ | .turn _ | .favour _ | .launch _ | .collect _ | .disturb _ | .reach _ | .call _
  | .openGate .. | .handler _ | .runner .. | .scheduler .. | .limiter .. | .lock .. | .app ..
  | .update .. => .isFalse id

/-- None of some moves grants a lock to a scheduler. -/
def Ungranted (name : String) (l : Lock) : World → List Move → Prop
  | _, [] => True
  | w, m :: ms => ¬ w.Grants name l m ∧ Ungranted name l (w.move m) ms

instance decidableUngranted (name : String) (l : Lock) : (w : World) → (ms : List Move) →
    Decidable (Ungranted name l w ms)
  | _, [] => .isTrue trivial
  | w, m :: ms =>
      have := decidableUngranted name l (w.move m) ms
      inferInstanceAs (Decidable (¬ w.Grants name l m ∧ Ungranted name l (w.move m) ms))

/-- No move of an ungranted stretch grants the lock. -/
theorem Ungranted.not_grants {w : World} {mid rest : List Move} {m : Move}
    (h : Ungranted name l w (mid ++ m :: rest)) : ¬ (w.after mid).Grants name l m := by
  induction mid generalizing w with
  | nil => exact h.1
  | cons m' mid ih => exact ih h.2

/-! ## Where the holder of a lock comes from -/

/-- A call about some lock leaves the key of a lock alone, empties it, or grants the lock. -/
theorem entry_asked {c : Call .flag} (h : l.Asks c) (hs : w.Spared (lockKey lockName))
    {a : Except StoreError Bool} {u : World} (ha : w.perform c = (a, u)) {e : Entry}
    (he : u.entry (lockKey lockName) = some e) :
    w.entry (lockKey lockName) = some e ∨
      c ≠ l.release ∧ l.name = lockName ∧ e = ⟨l.token, some (Clock.expiry w.now l.ttl)⟩ := by
  by_cases hn : l.name = lockName
  · subst hn
    have hends := w.perform_ends c h.key hs
    rw [ha] at hends
    rcases hends.entry_eq with hsame | hleaves
    · exact .inl (hsame.symm.trans he)
    · rcases h.leaves_cases w.now (w.entry (lockKey l.name)) with hkept | hnone | ⟨hc, hgranted⟩
      · exact .inl (hkept.symm.trans (hleaves.symm.trans he))
      · cases hnone.symm.trans (hleaves.symm.trans he)
      · cases hgranted.symm.trans (hleaves.symm.trans he)
        exact .inr ⟨hc, rfl, rfl⟩
  · exact .inl ((h.entry_of_ne hs ha hn).symm.trans he)

/-- What the key of a lock holds after a move: what it held before, or what the move has granted. -/
def Traced (lockName : String) (w : World) (m : Move) (e : Entry) : Prop :=
  w.entry (lockKey lockName) = some e ∨ ∃ name l, l.name = lockName ∧ w.Grants name l m ∧
    e = ⟨l.token, some (Clock.expiry w.now l.ttl)⟩

variable {id : TaskId} {e : Entry}

/-- What an extender leaves on the key of a lock. -/
theorem traced_extender (hlent : w.Lent) (hs : w.Spared (lockKey lockName))
    {x : Schedule.Extender} (ht : w.tasks.find? id = some (.extender x))
    {next : Progress Schedule.Extender Unit} {u : World} (hturn : x.Turn w next u)
    (hu : u.entry (lockKey lockName) = some e)
    (he : (w.move (.step id)).entry (lockKey lockName) = some e) :
    w.Traced lockName (.step id) e := by
  have hextends : ∀ {a v}, x.phase = .extending → w.perform x.lock.extend = (a, v) →
      v.entry (lockKey lockName) = some e → w.Traced lockName (.step id) e := by
    intro a v hp ha hv
    rcases entry_asked .extend hs ha hv with hkept | ⟨-, hn, hgranted⟩
    · exact .inl hkept
    · obtain ⟨name, hl⟩ := hlent id x ht
      refine .inr ⟨name, x.lock, hn, ⟨hl, ?_, ?_⟩, hgranted⟩
      · simp [ht, Task.seeks, hp]
      · rw [hn, he, hgranted]
  cases hturn with
  | quits hp hc => exact .inl hu
  | wakes hp hc => exact .inl hu
  | renews hp ha => exact hextends hp ha hu
  | demotes hp ha hne => exact hextends hp ha hu

/-- What a start leaves on the key of a lock. -/
theorem traced_starts (hs : w.Spared (lockKey lockName)) {t : Task}
    (ht : w.tasks.find? id = some t) {p : Schedule.StartPhase} (hp : t.starts? = some (name, p))
    {next : Progress Schedule.StartPhase Bool} {u : World} (hturn : p.Turn id name w next u)
    (hu : u.entry (lockKey lockName) = some e)
    (he : (w.move (.step id)).entry (lockKey lockName) = some e) :
    w.Traced lockName (.step id) e := by
  have hacquires : ∀ {s : Scheduler} {a v}, w.schedulers.find? name = some s → p = .acquiring →
      w.perform s.lock.acquire = (a, v) → v.entry (lockKey lockName) = some e →
      w.Traced lockName (.step id) e := by
    intro s a v hs' hp' ha hv
    rcases entry_asked .acquire hs ha hv with hkept | ⟨-, hn, hgranted⟩
    · exact .inl hkept
    · have hl : w.lock? name = some s.lock := by
        rw [lock?, hs']
        rfl
      refine .inr ⟨name, s.lock, hn, ⟨hl, ?_, ?_⟩, hgranted⟩
      · rw [ht, Option.any_some]
        exact Task.seeks_of_starts _ (by rw [hp, hp'])
      · rw [hn, he, hgranted]
  cases hturn with
  | misses hs' => exact .inl hu
  | rests hs' hp' hr => exact .inl hu
  | enters hs' hp' hr => exact .inl hu
  | wins hs' hp' ha => exact hacquires hs' hp' ha hu
  | loses hs' hp' ha hne => exact hacquires hs' hp' ha hu

/-- What a stop leaves on the key of a lock was there before. -/
theorem traced_stops (hs : w.Spared (lockKey lockName)) {p : Schedule.StopPhase}
    {next : Progress Schedule.StopPhase Unit} {u : World} (hturn : p.Turn name w next u)
    (hu : u.entry (lockKey lockName) = some e) : w.entry (lockKey lockName) = some e := by
  cases hturn with
  | misses hs' => exact hu
  | rests hs' hp hn => exact hu
  | takes hs' hp hn => exact hu
  | cancels hs' hp => exact hu
  | waits hs' hp => exact hu
  | @releases s a u hs' hp ha =>
      rcases entry_asked .release hs ha hu with hkept | ⟨hne, -⟩
      · exact hkept
      · exact absurd rfl hne

/-- If nobody but schedulers writes the key of a lock, a move leaves there what was there before or
what it has granted. -/
theorem entry_traced (hlent : w.Lent) (hs : w.Spared (lockKey lockName)) {m : Move}
    (hm : w.Admits m) (hi : ¬ w.Intrudes (lockKey lockName) m)
    (he : (w.move m).entry (lockKey lockName) = some e) : w.Traced lockName m e := by
  by_cases hc : ∃ q t, m = .step q ∧ w.tasks.find? q = some t ∧ t.controls = true
  · obtain ⟨q, t, rfl, ht, hc⟩ := hc
    obtain ⟨t', ht', -, hmove⟩ := move_step hm
    cases ht.symm.trans ht'
    have hu : (t.act q w).2.entry (lockKey lockName) = some e := by
      rw [hmove, put_entry] at he
      exact he
    rcases Task.controls_cases hc with ⟨x, rfl⟩ | ⟨n, p, hp⟩ | ⟨n, p, hp⟩
    · exact traced_extender hlent hs ht (x.step_turn w) hu he
    · obtain ⟨-, -, next, hturn⟩ := Task.act_starts q w hp
      exact traced_starts hs ht hp hturn hu he
    · obtain ⟨next, hturn, -⟩ := Task.act_stops q w hp
      exact .inl (traced_stops hs hturn hu)
  · left
    have hl : ¬ w.Lapses (lockKey lockName) m := by
      intro hl
      cases m with
      | pass t =>
          have hnone : (w.move (.pass t)).entry (lockKey lockName) = none := hl.2
          rw [hnone] at he
          cases he
      | _ => exact hl
    rw [← lock_kept hs hm hi hl fun q t hq ht =>
      Bool.eq_false_iff.mpr fun hc' => hc ⟨q, t, hq, ht, hc'⟩]
    exact he

/-! ## Holds -/

/-- A hold of a lock: it was granted to a scheduler at an instant in the course of a history, and
what was granted has stood on the key ever since, untouched. -/
def StillHeld (name : String) (l : Lock) (since : Nat) (start : World) (ms : List Move) : Prop :=
  ∃ first m last, ms = first ++ m :: last ∧ (start.after first).now = since ∧
    (start.after first).Grants name l m ∧
    ∀ mid, mid <+: last → (start.after (first ++ m :: mid)).entry (lockKey l.name) =
      some ⟨l.token, some (Clock.expiry since l.ttl)⟩

/-- A scheduler holds a lock after a history: the time to live since a grant is not over. -/
def HoldsOn (name lockName : String) (start : World) (ms : List Move) : Prop :=
  ∃ l since, l.name = lockName ∧ StillHeld name l since start ms ∧
    (start.after ms).now < Clock.expiry since l.ttl

variable {start : World} {ms : List Move} {since : Nat}

/-- What stands is on the key. -/
theorem StillHeld.entry (h : StillHeld name l since start ms) :
    (start.after ms).entry (lockKey l.name) =
      some ⟨l.token, some (Clock.expiry since l.ttl)⟩ := by
  obtain ⟨first, m, last, rfl, -, -, hkept⟩ := h
  exact hkept last List.prefix_rfl

/-- A hold begins with its grant. -/
theorem Grants.stillHeld {m : Move} (h : (start.after ms).Grants name l m) :
    StillHeld name l (start.after ms).now start (ms ++ [m]) := by
  refine ⟨ms, m, [], rfl, rfl, h, ?_⟩
  intro mid hmid
  rw [List.prefix_nil.mp hmid, after_snoc]
  cases m with
  | step id => exact h.2.2
  | _ => exact h.elim

/-- A hold goes on as long as the key keeps what it holds. -/
theorem StillHeld.snoc (h : StillHeld name l since start ms) {m : Move}
    (he : (start.after (ms ++ [m])).entry (lockKey l.name) =
      some ⟨l.token, some (Clock.expiry since l.ttl)⟩) :
    StillHeld name l since start (ms ++ [m]) := by
  obtain ⟨first, m₀, last, rfl, hnow, hgrants, hkept⟩ := h
  refine ⟨first, m₀, last ++ [m], by simp, hnow, hgrants, ?_⟩
  intro mid hmid
  rcases List.prefix_concat_iff.mp hmid with rfl | hmid
  · simpa using he
  · exact hkept mid hmid

/-- In a history in which nobody but schedulers writes the key of a lock, whatever the key holds is
a hold that stands. -/
theorem History.stillHeld {utc : Int} {s : Store}
    (h : History (fun w m => ¬ w.Intrudes (lockKey lockName) m) (around utc s) ms w)
    (habsent : (around utc s).entry (lockKey lockName) = none)
    (he : w.entry (lockKey lockName) = some e) :
    ∃ name l since, l.name = lockName ∧ StillHeld name l since (around utc s) ms ∧
      e = ⟨l.token, some (Clock.expiry since l.ttl)⟩ := by
  induction h generalizing e with
  | nil =>
      rw [habsent] at he
      cases he
  | @snoc ms v m h possible obeys ih =>
      have hafter := h.after_eq
      have hlent : v.Lent := h.keeps (lent_around utc s) fun _ _ hm _ hu => hu.move hm
      have hspared : v.Spared (lockKey lockName) :=
        h.keeps (P := fun u => u.Spared (lockKey lockName)) (spared_around utc s _)
          fun _ _ hm hi hu => hu.move hm hi
      rcases entry_traced hlent hspared possible obeys he with hkept | ⟨name, l, hn, hgrants, rfl⟩
      · obtain ⟨name, l, since, rfl, hheld, rfl⟩ := ih hkept
        refine ⟨name, l, since, rfl, hheld.snoc ?_, rfl⟩
        rw [after_snoc, hafter]
        exact he
      · subst hafter
        exact ⟨name, l, _, hn, hgrants.stillHeld, rfl⟩

/-- A lock is held by somebody exactly if its key holds something. -/
theorem History.holdsOn_iff {utc : Int} {s : Store}
    (h : History (fun w m => ¬ w.Intrudes (lockKey lockName) m) (around utc s) ms w)
    (habsent : (around utc s).entry (lockKey lockName) = none) :
    (∃ name, HoldsOn name lockName (around utc s) ms) ↔
      (w.entry (lockKey lockName)).isSome = true := by
  have hafter := h.after_eq
  constructor
  · rintro ⟨name, l, since, rfl, hheld, -⟩
    rw [← hafter, hheld.entry]
    rfl
  · intro hsome
    obtain ⟨e, he⟩ := Option.isSome_iff_exists.mp hsome
    obtain ⟨name, l, since, rfl, hheld, rfl⟩ := h.stillHeld habsent he
    have hlive := Store.entryAt_live (s := w.store) he
    refine ⟨name, l, since, rfl, hheld, ?_⟩
    rw [hafter]
    exact of_decide_eq_true hlive

/-! ## The step of a start -/

section Starting

variable {q : TaskId} {t : Task} {p : Schedule.StartPhase}

/-- Where a start has taken the lock, the scheduler has a session and its main loop runs. -/
theorem launch_leads {u : World} {s : Scheduler} (left : Option Task) (hq : q < u.nextTask)
    (hs : u.schedulers.find? name = some s) (l : Lock) :
    ((Schedule.StartPhase.launch name l u).put q left).session? name =
        some ⟨u.nextTask, u.nextTask + 1⟩ ∧
      ((Schedule.StartPhase.launch name l u).put q left).Leads name u.nextTask := by
  constructor
  · rw [session?_put, Schedule.StartPhase.launch_session name l u hs, if_pos rfl]
  · have hrole := Schedule.StartPhase.launch_role name l u u.nextTask
    rw [if_neg (Nat.ne_of_lt (Nat.lt_succ_self _)), if_pos rfl] at hrole
    obtain ⟨t, ht, hr⟩ := Option.bind_eq_some_iff.mp hrole
    obtain ⟨m, rfl, hm, hc⟩ := Task.mainLoop_of_leads hr
    refine ⟨m, ?_, hm, hc⟩
    rw [put_find?, if_neg (Nat.ne_of_gt hq)]
    exact ht

/-- What a step of a start answers, given what the key of its lock holds. -/
theorem start_answers (hfresh : w.Fresh) (hl : w.lock? name = some l)
    (ht : w.tasks.find? q = some t) (hp : t.starts? = some (name, p)) (hm : w.Admits (.step q))
    (hserves : w.Serves (lockKey l.name)) :
    ((w.move (.step q)).tasks.find? q = some (.ended (.flag false)) ↔
      p = .acquiring ∧ (w.entry (lockKey l.name)).isSome = true) ∧
    (p = .acquiring → w.entry (lockKey l.name) = none →
      (w.move (.step q)).tasks.find? q = some (.ended (.flag true)) ∧
      (w.move (.step q)).session? name = some ⟨w.nextTask, w.nextTask + 1⟩ ∧
      (w.move (.step q)).Leads name w.nextTask) := by
  obtain ⟨t', ht', -, hmove⟩ := move_step hm
  cases ht.symm.trans ht'
  obtain ⟨hworld, hended⟩ := t.act_start hp q w
  have hresult : ∀ b, (w.move (.step q)).tasks.find? q = some (.ended (.flag b)) ↔
      (p.step q name w).1 = .ended b := by
    intro b
    rw [hmove, put_find?, if_pos rfl]
    exact hended b
  obtain ⟨s, hs, rfl⟩ := Option.map_eq_some_iff.mp hl
  have heffect : ∀ {a u}, w.perform s.lock.acquire = (a, u) →
      (a = .ok true ↔ w.entry (lockKey s.lock.name) = none) := by
    intro a u ha
    cases hk : w.entry (lockKey s.lock.name) with
    | none =>
        have h := (hserves.answers (c := s.lock.acquire) rfl (by rw [hk]; rfl)).1
        rw [ha] at h
        exact ⟨fun _ => rfl, fun _ => h⟩
    | some e =>
        have h := (hserves.answers (c := s.lock.acquire) rfl (by rw [hk]; rfl)).1
        rw [ha] at h
        refine ⟨fun h' => ?_, nofun⟩
        cases h.symm.trans h'
  have hturn := p.step_turn q name w
  rw [hresult, hresult]
  generalize hstep : p.step q name w = r at hturn hworld
  obtain ⟨next, u⟩ := r
  cases hturn with
  | misses hs' =>
      rw [hs] at hs'
      cases hs'
  | rests hs' hp' hr =>
      subst hp'
      exact ⟨⟨nofun, fun h => absurd h.1 nofun⟩, nofun⟩
  | enters hs' hp' hr =>
      subst hp'
      exact ⟨⟨nofun, fun h => absurd h.1 nofun⟩, nofun⟩
  | loses hs' hp' ha hne =>
      cases hs.symm.trans hs'
      have hheld : w.entry (lockKey s.lock.name) ≠ none := fun h => hne ((heffect ha).mpr h)
      refine ⟨⟨fun _ => ⟨hp', Option.isSome_iff_ne_none.mpr hheld⟩, fun _ => rfl⟩, ?_⟩
      exact fun _ hnone => absurd hnone hheld
  | @wins s' u hs' hp' ha =>
      cases hs.symm.trans hs'
      have hnone := (heffect ha).mp rfl
      have hsched := w.perform_schedulers s.lock.acquire
      have hnext := w.perform_nextTask s.lock.acquire
      rw [ha] at hsched hnext
      have hlaunch := launch_leads (t.act q w).1 (hnext ▸ hfresh.lt ht : q < u.nextTask)
        (hsched ▸ hs) s.lock
      rw [hmove, hworld, ← show u.nextTask = w.nextTask from hnext]
      refine ⟨⟨nofun, fun h => ?_⟩, fun _ _ => ⟨rfl, hlaunch⟩⟩
      rw [hnone] at h
      cases h.2

end Starting

/-! ## A hold runs out -/

/-- A scheduler's own hold is over when a time to live has passed since the last grant that it may
come from. -/
theorem History.not_holdsOn {rule : World → Move → Prop} {utc : Int} {s : Store}
    {first last : List Move} (h : History rule (around utc s) (first ++ last) w)
    (hl : w.lock? name = some l)
    (hungranted : Ungranted name l ((around utc s).after first) last)
    (hover : Clock.expiry ((around utc s).after first).now l.ttl ≤ w.now) :
    ¬ HoldsOn name l.name (around utc s) (first ++ last) := by
  rintro ⟨l', since, -, ⟨before, m, after, hsplit, rfl, hgrants, -⟩, hlive⟩
  obtain ⟨v, hbefore, hrest⟩ := (hsplit ▸ h).split
  obtain ⟨-, -, hafter⟩ := hrest.uncons
  have hgranted : v.Grants name l' m := hbefore.after_eq ▸ hgrants
  have hlock : l' = l := by
    have hv : v.lock? name = some l' := by
      cases m with
      | step id => exact hgranted.1
      | _ => exact hgranted.elim
    have hw := hrest.keeps (P := fun u => u.lock? name = some l') hv fun _ _ hm _ hu =>
      lock?_move hm hu
    exact Option.some.inj (hw.symm.trans hl)
  subst hlock
  rw [h.after_eq] at hlive
  rcases List.append_eq_append_iff.mp hsplit with ⟨mid, rfl, rfl⟩ | ⟨mid, rfl, -⟩
  · rw [after_append] at hgrants
    exact hungranted.not_grants hgrants
  · obtain ⟨u, hfirst, -⟩ := h.split
    obtain ⟨v', hbefore', hmid⟩ := hfirst.split
    have hle := hmid.now_le
    rw [← hbefore'.after_eq, ← hfirst.after_eq] at hle
    unfold Clock.expiry at hover hlive
    omega

/-- If nobody but schedulers writes the key of a lock, a start that the store answers is refused
exactly if a scheduler of the lock holds it: the lock was granted to that scheduler, has stood
untouched since, and has not run out. Otherwise the start makes its scheduler run. The scheduler
that is being started may be the one that holds the lock, but no longer than a time to live after
its last grant. -/
theorem refused_iff_held {utc : Int} {s : Store} {q : TaskId} {t : Task} {p : Schedule.StartPhase}
    (h : History (fun w m => ¬ w.Intrudes (lockKey l.name) m) (around utc s) ms w)
    (habsent : (around utc s).entry (lockKey l.name) = none) (hl : w.lock? name = some l)
    (ht : w.tasks.find? q = some t) (hp : t.starts? = some (name, p)) (hm : w.Admits (.step q))
    (hserves : w.Serves (lockKey l.name)) :
    ((w.move (.step q)).tasks.find? q = some (.ended (.flag false)) ↔
      p = .acquiring ∧ ∃ n, HoldsOn n l.name (around utc s) ms) ∧
    (p = .acquiring → (∀ n, ¬ HoldsOn n l.name (around utc s) ms) →
      (w.move (.step q)).tasks.find? q = some (.ended (.flag true)) ∧
      (w.move (.step q)).session? name = some ⟨w.nextTask, w.nextTask + 1⟩ ∧
      (w.move (.step q)).Leads name w.nextTask) ∧
    ∀ first last, ms = first ++ last → Ungranted name l ((around utc s).after first) last →
      Clock.expiry ((around utc s).after first).now l.ttl ≤ w.now →
      ¬ HoldsOn name l.name (around utc s) ms := by
  have hiff := h.holdsOn_iff habsent
  obtain ⟨hrefused, hwins⟩ := start_answers h.regular.sound.fresh hl ht hp hm hserves
  refine ⟨?_, ?_, ?_⟩
  · rw [hrefused, hiff]
  · intro hp' hnobody
    refine hwins hp' (Option.not_isSome_iff_eq_none.mp fun hsome => ?_)
    obtain ⟨n, hn⟩ := hiff.mpr hsome
    exact hnobody n hn
  · rintro first last rfl hungranted hover
    exact h.not_holdsOn hl hungranted hover

/-- The only scheduler of a lock of two seconds starts. The store is cut off and the renewal fails
after a second, so the scheduler is demoted; its main loop ends. -/
def outage : List Move :=
  [sweeper "a", .launch (.startScheduler "a" .entering), .step 0, .step 0, .reach false,
    .pass 1000000000, .step 2, .step 2, .step 1]

/-- The store is back and the scheduler is started again, at once or after a while. -/
def comeback : List Move := [.reach true, .launch (.startScheduler "a" .entering), .step 3]

/-- Right after the outage a hold stands. When two seconds have passed since the demotion, it is not
the scheduler's own any more, and the start makes the scheduler run. -/
theorem refused_iff_held_outage :
    (∃ n, HoldsOn n "sweep" (around 0 .empty) (outage ++ comeback)) ∧
      ¬ HoldsOn "a" "sweep" (around 0 .empty) (outage ++ .pass 3000000000 :: comeback) ∧
      (((around 0 .empty).after (outage ++ .pass 3000000000 :: comeback)).move (.step 3)).Leads
        "a" 4 := by
  have hserves : ∀ w : World, w.store.available = true → w.network = [] →
      w.Serves (lockKey sweepLock.name) := fun _ => serves_of_undisturbed
  constructor
  · have h : History (fun w m => ¬ w.Intrudes (lockKey sweepLock.name) m) (around 0 .empty)
        (outage ++ comeback) _ := .of_check (by decide +kernel)
    have hiff := (refused_iff_held (q := 3) h rfl (by decide +kernel : _ = some sweepLock)
      (t := .operation (.startScheduler "a" .acquiring)) (by rfl) rfl (by decide +kernel)
      (hserves _ (by decide +kernel) (by decide +kernel))).1
    exact (hiff.mp (by rfl)).2
  · have h : History (fun w m => ¬ w.Intrudes (lockKey sweepLock.name) m) (around 0 .empty)
        (outage ++ .pass 3000000000 :: comeback) _ := .of_check (by decide +kernel)
    obtain ⟨hiff, hwins, hover⟩ := refused_iff_held (q := 3) h rfl
      (by decide +kernel : _ = some sweepLock)
      (t := .operation (.startScheduler "a" .acquiring)) (by rfl) rfl (by decide +kernel)
      (hserves _ (by decide +kernel) (by decide +kernel))
    refine ⟨hover outage _ rfl (by decide +kernel) (by decide +kernel), (hwins rfl ?_).2.2⟩
    intro n hn
    cases (hiff.mpr ⟨rfl, n, hn⟩).symm.trans
      (by rfl : _ = some (Task.ended (.flag true)))

/-- The store can be reached and there is no other scheduler, yet the start is refused: the key
holds the scheduler's own token, from before it was demoted. -/
theorem refused_by_own_token :
    History (fun w m => ¬ w.Intrudes (lockKey "sweep") m) (around 0 .empty)
        (outage ++ comeback ++ [.step 3])
        ((around 0 .empty).after (outage ++ comeback ++ [.step 3])) ∧
      ((around 0 .empty).after (outage ++ comeback)).store.available = true ∧
      ((around 0 .empty).after (outage ++ comeback)).schedulers.entries.map
        (fun e => (e.1, e.2.lock)) = [("a", sweepLock)] ∧
      ((around 0 .empty).after (outage ++ comeback)).tasks.find? 3 =
        some (.operation (.startScheduler "a" .acquiring)) ∧
      ((around 0 .empty).after (outage ++ comeback ++ [.step 3])).tasks.find? 3 =
        some (.ended (.flag false)) ∧
      ((around 0 .empty).after (outage ++ comeback)).entry (lockKey "sweep") =
        some ⟨sweepLock.token, some 2000000000⟩ :=
  ⟨.of_check (by decide +kernel), by decide +kernel, by decide +kernel, by rfl, by rfl,
    by decide +kernel⟩

end World

end JobFleet
