import JobFleet.Fleet.Step
import JobFleet.Proofs.Fleet.Perform
import JobFleet.Proofs.Table.Total

/-!
# What tasks do to the world

A step of a task is a sequence of deeds: entries of the journal, calls on the store, changes of
one runner or one scheduler, tasks that are started, cancelled or removed, and changes of what
only handlers see. `World.Via` says that one world arises from another by deeds of a kind, so
that what every such deed keeps need not be followed through the steps themselves.
-/

namespace JobFleet

/-- The call that an entry of the journal is of, if it is of one. -/
def Record.call? : Record → Option AnyCall
  | .called c => some c
  | _ => none

/-- One thing that a task does to the world. Calls enter themselves in the journal. -/
inductive Deed
  | record (r : Record) (h : r.call? = none)
  | call (c : AnyCall)
  | runner (name : String) (f : Runner → Runner)
  | scheduler (name : String) (f : Scheduler → Scheduler)
  | spawn (t : Task)
  | cancel (id : TaskId)
  | remove (id : TaskId)
  | reach (value : Bool)
  | stage (gates : Table String Gate) (handlers : Table HandlerId Handler) (next : HandlerId)

namespace World

/-- The world after a deed. -/
def does (w : World) : Deed → World
  | .record r _ => w.enter r
  | .call c => (w.perform c.2).2
  | .runner name f => w.modifyRunner name f
  | .scheduler name f => w.modifyScheduler name f
  | .spawn t => (w.spawn t).2
  | .cancel id => w.cancel id
  | .remove id => w.endTask id
  | .reach value => { w with store := { w.store with available := value } }
  | .stage gates handlers next => { w with gates, handlers, nextHandler := next }

/-- What a change makes of other schedulers makes no difference. -/
theorem modifyScheduler_congr {w : World} {name : String} {s : Scheduler}
    {f g : Scheduler → Scheduler} (hs : w.schedulers.find? name = some s) (h : f s = g s) :
    w.modifyScheduler name f = w.modifyScheduler name g := by
  simp only [modifyScheduler, Table.modify, hs, h]

/-- One world arises from another by deeds of a kind. -/
inductive Via (D : Deed → Prop) (w : World) : World → Prop
  | same : Via D w w
  | next {v : World} (h : Via D w v) (d : Deed) (hd : D d) : Via D w (v.does d)

namespace Via

variable {D E : Deed → Prop} {w v : World}

/-- Deeds of a kind are deeds of every wider one. -/
theorem mono (h : Via D w v) (hDE : ∀ d, D d → E d) : Via E w v := by
  induction h with
  | same => exact .same
  | next _ d hd ih => exact .next ih d (hDE d hd)

/-- Deeds after deeds. -/
theorem trans {u : World} (h : Via D w v) (h' : Via D v u) : Via D w u := by
  induction h' with
  | same => exact h
  | next _ d hd ih => exact .next ih d hd

/-- What every deed of the kind keeps is kept. -/
theorem keeps (h : Via D w v) {P : World → Prop} (hP : ∀ u d, D d → P u → P (u.does d))
    (hw : P w) : P v := by
  induction h with
  | same => exact hw
  | next _ d hd ih => exact hP _ d hd ih

/-- An event is logged last. -/
theorem log (h : Via D w v) {e : Event} (hd : D (.record (.logged e) rfl)) : Via D w (v.log e) :=
  .next h (.record (.logged e) rfl) hd

/-- A run is noted last. -/
theorem note (h : Via D w v) {r : Run} (hd : D (.record (.ran r) rfl)) : Via D w (v.note r) :=
  .next h (.record (.ran r) rfl) hd

/-- A call is made last. -/
theorem perform (h : Via D w v) {a : Answer} {c : Call a} (hd : D (.call ⟨a, c⟩)) :
    Via D w (v.perform c).2 :=
  .next h (.call ⟨a, c⟩) hd

/-- A call whose answer and world have been named. -/
theorem of_perform (h : Via D w v) {a : Answer} {c : Call a} {r : Except StoreError a.Value}
    {u : World} (he : v.perform c = (r, u)) (hd : D (.call ⟨a, c⟩)) : Via D w u := by
  have hu : u = (v.perform c).2 := by rw [he]
  rw [hu]
  exact h.perform hd

/-- A runner is changed last. -/
theorem runner (h : Via D w v) {name : String} {f : Runner → Runner}
    (hd : D (.runner name f)) : Via D w (v.modifyRunner name f) :=
  .next h (.runner name f) hd

/-- A runner's counts are changed last. -/
theorem count (h : Via D w v) {name : String} {f : Runner.Stats → Runner.Stats}
    (hd : D (.runner name fun r => { r with stats := f r.stats })) :
    Via D w (v.count name f) :=
  .next h (.runner name _) hd

/-- A scheduler is changed last. -/
theorem scheduler (h : Via D w v) {name : String} {f : Scheduler → Scheduler}
    (hd : D (.scheduler name f)) : Via D w (v.modifyScheduler name f) :=
  .next h (.scheduler name f) hd

/-- A task is started last. -/
theorem spawn (h : Via D w v) {t : Task} (hd : D (.spawn t)) : Via D w (v.spawn t).2 :=
  .next h (.spawn t) hd

/-- A task is cancelled last. -/
theorem cancel (h : Via D w v) {id : TaskId} (hd : D (.cancel id)) : Via D w (v.cancel id) :=
  .next h (.cancel id) hd

/-- A task is removed last. -/
theorem remove (h : Via D w v) {id : TaskId} (hd : D (.remove id)) : Via D w (v.endTask id) :=
  .next h (.remove id) hd

/-- The store is put in or out of reach last. -/
theorem reach (h : Via D w v) {value : Bool} (hd : D (.reach value)) :
    Via D w { v with store := { v.store with available := value } } :=
  .next h (.reach value) hd

/-- What only handlers see is changed last. -/
theorem stage (h : Via D w v) {gates : Table String Gate} {handlers : Table HandlerId Handler}
    {next : HandlerId} (hd : D (.stage gates handlers next)) :
    Via D w { v with gates, handlers, nextHandler := next } :=
  .next h (.stage gates handlers next) hd

end Via

end World

/-! ## Deeds that nobody else notices -/

/-- Whether a scheduler hands its ticks to a runner. -/
def Scheduler.delegates (s : Scheduler) : Bool :=
  match s.service with
  | .runner .. => true
  | .scripted .. => false

/-- A record of what became of a job or a worker; that a job's status could not be read is
none. -/
def Record.ofRunner : Record → Bool
  | .logged (.runner (.statusUnreadable ..)) => false
  | .logged (.runner (.statusUnread ..)) => false
  | .logged (.runner _) => true
  | _ => false

/-- A call that only looks: at the store, at a text, or at a counter of attempts. -/
inductive Call.Looks : {a : Answer} → Call a → Prop
  | ping : Looks .ping
  | get (key : String) : Looks (.get key)
  | attempts (k : RateLimitKey) : Looks (Limiter.attempts k)

/-- A call that only looks writes no key. -/
theorem Call.Looks.target {a : Answer} {c : Call a} (h : c.Looks) : c.target = none := by
  cases h <;> rfl

/-- A deed that concerns neither tasks nor runners, writes no key and leaves what schedulers
are bound to: any task may do it. -/
def Deed.Aside : Deed → Prop
  | .record r _ => r.ofRunner = false
  | .call c => c.2.Looks
  | .scheduler _ f => ∀ s, (f s).lock = s.lock ∧ (f s).session = s.session ∧
      (f s).gate = s.gate ∧ (s.delegates = true → (f s).delegates = true)
  | .stage .. => True
  | _ => False

/-- The key of a job that a record says has been taken into a queue. -/
def Record.accepts? : Record → Option JobKey
  | .logged (.runner (.enqueued job)) => some job.key
  | _ => none

/-- A record that a slot of the counter is stuck. -/
def Record.tellsStuck : Record → Bool
  | .logged (.runner (.slotStuck ..)) => true
  | _ => false

/-- A record that neither takes a job into a queue nor leaves a slot of the counter stuck. -/
def Record.Plain (r : Record) : Prop := r.tellsStuck = false ∧ r.accepts? = none

/-! ## Bookkeeping -/

/-- A runner without what it has counted and without whose turn it is at its gate. -/
def Runner.bare (r : Runner) : Runner := { r with gate := none, stats := .zero }

/-- A deed that tells something plain, or that leaves a runner the same but for its counts and
its gate. -/
inductive Deed.Keeps : Deed → Prop
  | record {r : Record} {hc : r.call? = none} (h : r.Plain) : Keeps (.record r hc)
  | runner {name : String} {f : Runner → Runner} (h : ∀ r, (f r).bare = r.bare) :
      Keeps (.runner name f)

/-- One world is another one after some bookkeeping. -/
structure World.Booked (w v : World) : Prop where
  now : v.now = w.now
  store : v.store = w.store
  network : v.network = w.network
  tasks : v.tasks = w.tasks
  nextTask : v.nextTask = w.nextTask
  schedulers : v.schedulers = w.schedulers
  runner : ∀ name, (v.runners.find? name).map Runner.bare = (w.runners.find? name).map Runner.bare
  total : ∀ weight : Runner → Nat, (∀ r, weight r.bare = weight r) →
    v.runners.total weight = w.runners.total weight
  records : ∀ p : Nat × Record → Bool, (∀ x, x.2.Plain → p x = false) →
    v.journal.countP p = w.journal.countP p

namespace World

variable {w v : World}

/-- Nothing is entered. -/
theorem Booked.refl (w : World) : w.Booked w where
  now := rfl
  store := rfl
  network := rfl
  tasks := rfl
  nextTask := rfl
  schedulers := rfl
  runner := fun _ => rfl
  total := fun _ _ => rfl
  records := fun _ _ => rfl

/-- One more entry in the books. -/
theorem Booked.does {d : Deed} (h : w.Booked v) (hd : d.Keeps) : w.Booked (v.does d) := by
  cases hd with
  | record hr =>
      refine { h with records := ?_ }
      intro p hp
      refine Eq.trans (List.countP_cons_of_neg ?_) (h.records p hp)
      rw [hp _ hr]
      exact Bool.false_ne_true
  | @runner name f hf =>
      refine { h with runner := ?_, total := ?_ }
      · intro n
        rw [← h.runner n]
        unfold World.does modifyRunner
        rw [Table.find?_modify]
        split
        · rename_i hn
          rw [hn, Option.map_map]
          congr 1
          exact funext hf
        · rfl
      · intro weight hw
        rw [← h.total weight hw]
        refine Table.total_modify_of_eq _ name ?_
        intro r
        rw [← hw, hf, hw]

/-- Bookkeeping changes nothing else. -/
theorem Via.booked {D : Deed → Prop} (h : w.Via D v) (hD : ∀ d, D d → d.Keeps) : w.Booked v :=
  h.keeps (fun _ d hd hu => hu.does (hD d hd)) (.refl w)

end World

end JobFleet
