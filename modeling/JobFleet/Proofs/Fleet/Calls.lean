import JobFleet.Proofs.Fleet.Live

/-!
# One call at most

A step of a task makes at most one call on the store, and so does every other move. What a call
meets is therefore the store as it was before the move.
-/

namespace JobFleet

/-- A deed that is no call. -/
def Deed.Silent : Deed → Prop
  | .call _ => False
  | _ => True

namespace World

/-- The calls that have been made so far, the last one first. -/
def calls (w : World) : List AnyCall := w.journal.filterMap fun x => x.2.call?

/-- One world is another one after at most one call. -/
def OneCall (w v : World) : Prop := v.calls = w.calls ∨ ∃ c, v.calls = c :: w.calls

variable {w u v : World}

/-- An entry that is of no call adds none. -/
theorem calls_enter (w : World) {r : Record} (h : r.call? = none) :
    (w.enter r).calls = w.calls := List.filterMap_cons_none h

/-- The calls are read off the journal. -/
theorem calls_eq (h : v.journal = w.journal) : v.calls = w.calls := by
  rw [calls, calls, h]

/-- A call comes first among the calls made. -/
@[simp] theorem calls_perform {a : Answer} (w : World) (c : Call a) :
    (w.perform c).2.calls = ⟨a, c⟩ :: w.calls := by
  rw [calls, perform_journal]
  rfl

/-- Filing what is left of a task makes no call. -/
@[simp] theorem put_calls (w : World) (id : TaskId) (left : Option Task) :
    (w.put id left).calls = w.calls := calls_eq (put_journal w id left)

/-- To set something up takes no call. -/
theorem SetUp.calls (h : w.SetUp v) : v.calls = w.calls := by
  rcases h.journal with he | ⟨e, he⟩
  · exact calls_eq he
  · exact calls_eq (w := w.log (.rateLimit e)) he

/-- Deeds that are no calls make none. -/
theorem Via.silent {D : Deed → Prop} (h : w.Via D v) (hD : ∀ d, D d → d.Silent) :
    v.calls = w.calls := by
  refine h.keeps (P := fun u => u.calls = w.calls) ?_ rfl
  intro u d hd hu
  refine Eq.trans ?_ hu
  cases d with
  | call c => exact (hD _ hd).elim
  | record r hc => exact calls_enter u hc
  | _ => rfl

/-- Nothing done makes no call. -/
theorem OneCall.refl (w : World) : w.OneCall w := .inl rfl

/-- A call, and then nothing that is one. -/
theorem OneCall.of_perform {a : Answer} {c : Call a} {r : Except StoreError a.Value}
    (ha : w.perform c = (r, u)) (h : v.calls = u.calls) : w.OneCall v := by
  refine .inr ⟨⟨a, c⟩, ?_⟩
  rw [h, ← w.calls_perform c, ha]

end World

/-! ## Hand-ins and workers -/

/-- What a hand-in enters in the books is no call. -/
theorem Enqueue.Books.silent {e : Enqueue} {d : Deed} (h : e.Books d) : d.Silent := by
  cases h <;> trivial

/-- What a worker enters in the books is no call. -/
theorem Worker.Books.silent {k : Worker} {d : Deed} (h : k.Books d) : d.Silent := by
  cases h <;> trivial

/-- Accepting a job makes no call. -/
theorem Enqueue.accept_calls (e : Enqueue) (w : World) : (e.accept w).2.calls = w.calls :=
  (World.calls_eq (push_eq _ e.runner e.job).1).trans rfl

/-- A turn of a hand-in makes one call at most. -/
theorem Enqueue.Turn.oneCall {e : Enqueue} {self : TaskId} {w v : World}
    {next : Progress Enqueue EnqueueOutcome} (h : e.Turn self w next v) : w.OneCall v := by
  cases h with
  | homeless _ => exact .refl w
  | overflows _ _ _ hv => exact .inl (hv.silent fun _ => Books.silent)
  | enters _ _ _ => exact .inl rfl
  | reads _ _ ha _ => exact .of_perform ha rfl
  | declines _ _ ha hv => exact .of_perform ha (hv.silent fun _ => Books.silent)
  | misses _ _ ha hv => exact .of_perform ha (hv.silent fun _ => Books.silent)
  | wins _ _ ha => exact .of_perform ha (e.accept_calls _)
  | loses _ _ ha hv => exact .of_perform ha (hv.silent fun _ => Books.silent)
  | fails _ _ ha hv => exact .of_perform ha (hv.silent fun _ => Books.silent)

/-- A turn of a worker makes one call at most. -/
theorem Worker.Turn.oneCall {k : Worker} {w v : World} {left : Option Worker}
    (h : k.Turn w left v) : w.OneCall v := by
  cases h with
  | starts _ => exact .inl rfl
  | quits _ _ => exact .refl w
  | takes _ _ _ _ => exact .inl rfl
  | idles _ _ _ => exact .inl rfl
  | waives _ _ => exact .refl w
  | asks _ _ ha => exact .of_perform ha rfl
  | refuses _ ha hv => exact .of_perform ha (hv.silent fun _ => Books.silent)
  | begins _ ha _ hv => exact .of_perform ha (hv.silent fun _ => Books.silent)
  | aborts _ ha _ hv => exact .of_perform ha (hv.silent fun _ => Books.silent)
  | calls _ => exact .inl rfl
  | joins _ _ hv => exact .inl (hv.silent fun _ => Books.silent)
  | ends _ ha hv => exact .of_perform ha (hv.silent fun _ => Books.silent)
  | resumes _ _ => exact .refl w
  | abandons _ _ => exact .refl w
  | releases _ ha => exact .of_perform ha rfl
  | retries _ ha _ hv => exact .of_perform ha (hv.silent fun _ => Books.silent)
  | sticks _ ha _ => exact .of_perform ha rfl
  | rests _ => exact .refl w

/-! ## Limiters and guards -/

/-- Asking whether a key is limited makes one call. -/
theorem Limiter.isLimited_oneCall (l : Limiter) (k : RateLimitKey) (w : World) :
    w.OneCall (l.isLimited k w).2 := by
  unfold isLimited
  cases ha : w.perform (attempts k) with
  | mk a u => cases a <;> exact .of_perform ha rfl

/-- Counting a failure makes one call. -/
theorem Limiter.record_oneCall (l : Limiter) (k : RateLimitKey) (w : World) :
    w.OneCall (l.record k w) := by
  unfold record
  cases ha : w.perform (l.recordFailure k) with
  | mk a u =>
      cases a with
      | ok n =>
          simp only
          split <;> exact .of_perform ha rfl
      | error cause => exact .of_perform ha rfl

/-- Forgetting a key's failures makes one call. -/
theorem Limiter.forget_oneCall (k : RateLimitKey) (w : World) : w.OneCall (forget k w) := by
  unfold forget
  cases ha : w.perform (reset k) with
  | mk a u => cases a <;> exact .of_perform ha rfl

/-- A check of a client makes one call at most. -/
theorem Limiter.check_oneCall (l : Limiter) (scope : AuthScope) (identity : String)
    (client : Option String) (w : World) : w.OneCall (l.check scope identity client w).2 := by
  unfold check
  split
  · exact .refl w
  · rename_i key _
    have hl := l.isLimited_oneCall key w
    split <;> rename_i hk <;> rw [hk] at hl <;> exact hl

/-- A step of a guarded attempt makes one call at most. -/
theorem Guard.step_oneCall (g : Guard) (w : World) : w.OneCall (g.step w).2 := by
  unfold step
  cases g.phase with
  | checking =>
      have hc := ((w.limiters.find? g.limiter).getD closedLimiter).check_oneCall g.scope g.identity
        g.client w
      simp only
      split <;> rename_i hk <;> rw [hk] at hc <;> exact hc
  | admitted k => exact .refl w
  | attempting k => exact .refl w
  | settling k =>
      simp only
      split
      · exact Limiter.forget_oneCall k w
      · exact Limiter.record_oneCall _ k w

/-! ## Schedulers -/

namespace Schedule

/-- Loading the settings makes no call. -/
theorem Cycle.load_calls (c : Cycle) (w : World) : (c.load w).2.calls = w.calls := by
  have hservice : ∀ settings service, (c.callService settings service w).2.calls = w.calls := by
    intro settings service
    unfold callService
    split
    · simp only
      split <;> rfl
    · rfl
  unfold load
  split
  · rfl
  · split
    · rfl
    · split
      · exact hservice _ _
      · rfl

/-- A step of a cycle makes one call at most. -/
theorem Cycle.step_oneCall (self : TaskId) (c : Cycle) (w : World) :
    w.OneCall (c.step self w).2 := by
  unfold step
  split
  · exact .inl (c.load_calls w)
  · exact .inl rfl
  · rename_i settings inner _
    have hs := (inner.step_turn self w).oneCall
    split <;> rename_i hk <;> rw [hk] at hs <;> exact hs

/-- Giving a cycle up makes no call. -/
theorem Cycle.abandon_calls (self : TaskId) (c : Cycle) (w : World) :
    (c.abandon self w).calls = w.calls := by
  unfold abandon
  split <;> rfl

/-- A step of a main loop makes one call at most. -/
theorem MainLoop.step_oneCall (self : TaskId) (m : MainLoop) (w : World) :
    w.OneCall (m.step self w).2 := by
  unfold step
  split
  · rename_i c _
    split
    · exact .inl (c.abandon_calls self w)
    · have hs := c.step_oneCall self w
      split
      · rename_i hk
        rw [hk] at hs
        exact hs
      · rename_i hk
        rw [hk] at hs
        unfold afterCycle
        split <;> exact hs
  · split <;> exact .refl w

/-- A turn of an extender makes one call at most. -/
theorem Extender.Turn.oneCall {x : Extender} {w v : World} {next : Progress Extender Unit}
    (h : x.Turn w next v) : w.OneCall v := by
  cases h with
  | quits _ _ => exact .refl w
  | wakes _ _ => exact .refl w
  | renews _ ha => exact .of_perform ha rfl
  | demotes _ ha _ => exact .of_perform ha rfl

/-- A turn of a start makes one call at most. -/
theorem StartPhase.Turn.oneCall {self : TaskId} {name : String} {p : StartPhase} {w v : World}
    {next : Progress StartPhase Bool} (h : p.Turn self name w next v) : w.OneCall v := by
  cases h with
  | misses _ => exact .refl w
  | rests _ _ _ => exact .refl w
  | enters _ _ _ => exact .inl rfl
  | wins _ _ ha => exact .of_perform ha rfl
  | loses _ _ ha _ => exact .of_perform ha rfl

/-- A turn of a stop makes one call at most. -/
theorem StopPhase.Turn.oneCall {name : String} {p : StopPhase} {w v : World}
    {next : Progress StopPhase Unit} (h : p.Turn name w next v) : w.OneCall v := by
  cases h with
  | misses _ => exact .refl w
  | rests _ _ _ => exact .refl w
  | takes _ _ _ => exact .inl rfl
  | cancels _ _ => exact .inl rfl
  | waits _ _ => exact .refl w
  | releases _ _ ha => exact .of_perform ha rfl

end Schedule

/-! ## Handlers, stops and processes -/

/-- A step of a handler's call makes one call on the store at most. -/
theorem HandlerCall.step_oneCall (self : TaskId) (h : HandlerCall) (w : World) :
    w.OneCall (h.step self w).2 := by
  obtain ⟨handler, phase⟩ := h
  cases phase with
  | entering =>
      unfold step enter
      simp only
      split <;> exact .inl rfl
  | acting actions =>
      cases actions with
      | nil => exact .refl w
      | cons action rest =>
          cases action with
          | set key value => exact .of_perform (c := .set key value none) rfl rfl
          | delete key => exact .of_perform (c := .delete key) rfl rfl
          | _ => exact .inl rfl
  | sleeping wake rest => exact .refl w
  | waiting gate rest => exact .inl rfl
  | enqueuing inner rest =>
      have hs := (inner.step_turn self w).oneCall
      unfold step
      simp only
      split <;> rename_i hk <;> rw [hk] at hs <;> exact hs
  | finished ending => exact .refl w

/-- Stopping a runner makes no call. -/
theorem StopPhase.step_calls (name : String) (p : StopPhase) (w : World) :
    (p.step name w).2.calls = w.calls := by
  unfold step
  split
  · unfold enter
    split
    · rfl
    · simp only
      split <;> rfl
  · rfl
  · rfl

namespace App

open Http (Request Route)

/-- The health route makes one call. -/
theorem health_oneCall (w : World) : w.OneCall (health w).2 := by
  unfold health
  split <;> rename_i ha <;> exact .of_perform ha rfl

/-- Reading the status of a job makes one call. -/
theorem readStatus_oneCall (key : JobKey) (w : World) : w.OneCall (w.jobStatus key).2 := by
  unfold World.jobStatus
  split
  · rename_i ha
    exact .of_perform ha rfl
  · rename_i ha
    split <;> exact .of_perform ha rfl
  · rename_i ha
    exact .of_perform ha rfl

/-- The route for a job's status makes one call at most. -/
theorem jobStatus_oneCall (rawKey : String) (w : World) : w.OneCall (jobStatus rawKey w).2 := by
  unfold jobStatus
  split
  · exact .refl w
  · split
    · exact .refl w
    · exact readStatus_oneCall _ w

/-- The route that changes settings makes no call. -/
theorem changeSettings_calls (app : String) (r : Request) (w : World) :
    (changeSettings app r w).2.calls = w.calls := by
  have happly : ∀ c, (applyChange app c w).2.calls = w.calls := by
    intro c
    unfold applyChange
    split
    · rfl
    · split <;> rfl
  unfold changeSettings
  split
  · rfl
  · split
    · split
      · exact happly _
      · rfl
      · rfl
    · rfl

/-- The route that checks a login makes one call at most. -/
theorem checkLogin_oneCall (app : String) (head : Bool) (r : Request) (w : World) :
    w.OneCall (checkLogin app head r w).2 := by
  unfold checkLogin
  split
  · rename_i email l _ _
    have hc := l.check_oneCall .login email (clientOf app r w) w
    split <;> rename_i hk <;> rw [hk] at hc <;> exact hc
  · exact .refl w

/-- A step of a request makes one call at most. -/
theorem requestStep_oneCall (self : TaskId) (app : String) (p : RequestPhase) (w : World) :
    w.OneCall (requestStep self app p w).2 := by
  cases p with
  | arrived r =>
      show w.OneCall (receive app r w).2
      unfold receive
      split
      · exact .refl w
      · split
        · unfold serve
          split
          · exact health_oneCall w
          · exact .refl w
          · exact jobStatus_oneCall _ w
          · exact .refl w
          · split <;> exact .refl w
          · split
            · exact .inl (changeSettings_calls app r w)
            · exact .refl w
          · exact checkLogin_oneCall app _ r w
        · exact .refl w
  | cycling head c =>
      have hs := c.step_oneCall self w
      unfold requestStep
      simp only
      split <;> rename_i hk <;> rw [hk] at hs <;> exact hs
  | counting head key => exact .of_perform (c := Limiter.attempts key) rfl rfl

end App

/-- A step of an application's start makes one call at most. -/
theorem AppStart.step_oneCall (self : TaskId) (name : String) (p : AppStart) (w : World) :
    w.OneCall (p.step self name w).2 := by
  cases p with
  | pinging =>
      unfold step
      simp only
      split <;> rename_i ha <;> exact .of_perform ha rfl
  | scheduler p => exact (Schedule.StartPhase.step_turn self name p w).oneCall

/-- A step of an application's shutdown makes one call at most. -/
theorem AppShutdown.step_oneCall (name : String) (p : AppShutdown) (w : World) :
    w.OneCall (p.step name w).2 := by
  cases p with
  | scheduler p =>
      have hs := (Schedule.StopPhase.step_turn name p w).oneCall
      unfold step
      simp only
      split <;> rename_i hk <;> rw [hk] at hs <;> exact hs
  | draining p =>
      unfold step
      simp only
      split <;> exact .refl w
  | stopping p =>
      have hs := p.step_calls name w
      unfold step
      simp only
      split <;> rename_i hk <;> rw [hk] at hs <;> exact .inl hs

/-! ## Every task -/

/-- A step of an operation makes one call at most. -/
theorem Operation.step_oneCall (self : TaskId) (o : Operation) (w : World) :
    w.OneCall (o.step self w).2 := by
  cases o with
  | enqueue e => exact (e.step_turn self w).oneCall
  | drain runner deadline p => exact .refl w
  | stop runner p => exact .inl (p.step_calls runner w)
  | startScheduler name p => exact (p.step_turn self name w).oneCall
  | stopScheduler name p => exact (p.step_turn name w).oneCall
  | runCycle c => exact c.step_oneCall self w
  | guard g => exact g.step_oneCall w
  | startApp name p => exact p.step_oneCall self name w
  | shutdownApp name p => exact p.step_oneCall name w
  | request app p => exact App.requestStep_oneCall self app p w

/-- A step of a task makes at most one call. -/
theorem Task.act_oneCall (t : Task) (self : TaskId) (w : World) : w.OneCall (t.act self w).2 := by
  cases t with
  | worker k => exact (k.step_turn w).oneCall
  | handler h => exact h.step_oneCall self w
  | mainLoop m => exact m.step_oneCall self w
  | extender x => exact (x.step_turn w).oneCall
  | operation o => exact o.step_oneCall self w
  | ended r => exact .refl w

/-- A move makes at most one call. -/
theorem World.move_oneCall {w : World} {m : Move} (hm : w.Admits m) : w.OneCall (w.move m) := by
  cases hset : m.setsUp with
  | true => exact .inl (move_setUp hset hm).calls
  | false =>
      cases m with
      | step id =>
          obtain ⟨t, -, -, he⟩ := move_step hm
          rw [he, OneCall, put_calls]
          exact t.act_oneCall id w
      | call c => exact .of_perform (c := c.2) rfl rfl
      | pass t => exact .refl w
      | launch o => exact .inl rfl
      | collect id => exact .inl rfl
      | disturb f => exact .inl rfl
      | reach value => exact .inl rfl
      | _ => cases hset

end JobFleet
