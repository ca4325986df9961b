import JobFleet.Runner.Enqueue

/-!
# Calls of handlers

A call runs as a task of its own: it goes through its script's actions and keeps how it ended
for the worker that waits for it.
-/

namespace JobFleet.HandlerCall

/-- A call that has not begun. -/
def start (handler : HandlerId) : HandlerCall := ⟨handler, .entering⟩

/-- Whether the next step can be taken. -/
def ready (w : World) (self : TaskId) (h : HandlerCall) : Bool :=
  match h.phase with
  | .entering => true
  | .acting _ => true
  | .sleeping wake _ => wake ≤ w.now
  | .waiting gate _ => w.mayPass gate self
  | .enqueuing inner _ => inner.ready w
  | .finished _ => false

/-- The call in another phase. -/
def inPhase (h : HandlerCall) (phase : Phase) : HandlerCall := { h with phase }

/-- Begins the call: a script counts it and tells that it runs. -/
def enter (h : HandlerCall) (w : World) : HandlerCall × World :=
  match w.handlers.find? h.handler with
  | some (.scripted label calls script) =>
      let w := { w with
        handlers := w.handlers.insert h.handler (.scripted label (calls + 1) script) }
      (h.inPhase (.acting (script (calls + 1))), w.note (.job label (calls + 1)))
  | some .announceTick => (h.inPhase (.finished .succeeded), w.log .tickJobExecuted)
  | none => (h.inPhase (.finished .succeeded), w)

/-- Does one action. -/
def act (self : TaskId) (h : HandlerCall) (a : Action) (rest : List Action) (w : World) :
    HandlerCall × World :=
  match a with
  | .succeed => (h.inPhase (.finished .succeeded), w)
  | .fail fault => (h.inPhase (.finished (.failed fault)), w)
  | .panic message => (h.inPhase (.finished (.panicked message)), w)
  | .sleep d => (h.inPhase (.sleeping (Clock.alarm w.now d) rest), w)
  | .wait gate => (h.inPhase (.waiting gate rest), w.queueAt gate self)
  | .setAvailable value =>
      (h.inPhase (.acting rest), { w with store := { w.store with available := value } })
  | .set key value => (h.inPhase (.acting rest), (w.perform (.set key value none)).2)
  | .delete key => (h.inPhase (.acting rest), (w.perform (.delete key)).2)
  | .enqueue runner plan =>
      let (handler, w) := w.addHandler (.scripted plan.key.text 0 plan.script)
      (h.inPhase (.enqueuing (.start runner (plan.job handler)) rest), w)

/-- One step of a call. -/
def step (self : TaskId) (h : HandlerCall) (w : World) : HandlerCall × World :=
  match h.phase with
  | .entering => h.enter w
  | .acting [] => (h.inPhase (.finished .succeeded), w)
  | .acting (a :: rest) => h.act self a rest w
  | .sleeping _ rest => (h.inPhase (.acting rest), w)
  | .waiting gate rest => (h.inPhase (.acting rest), w.passGate gate self)
  | .enqueuing inner rest =>
      match inner.step self w with
      | (.on inner, w) => (h.inPhase (.enqueuing inner rest), w)
      | (.ended outcome, w) => (h.inPhase (.acting rest), w.note (.nested inner.job.key outcome))
  | .finished _ => (h, w)

/-- How a call ended, if it has. -/
def ending? (h : HandlerCall) : Option Ending :=
  match h.phase with
  | .finished ending => some ending
  | _ => none

end JobFleet.HandlerCall
