import JobFleet.Proofs.Fleet.Workers

/-!
# Jobs that are being handed in

Operations, handlers and cycles hand in jobs. Whoever does it, a step takes the hand-in one turn
further and does nothing else that others notice, or gives it up. A hand-in that is about to
claim its key has read that the key is free.
-/

namespace JobFleet

/-- What goes on under a map went on before it. -/
theorem Progress.map_on {σ τ α β : Type} {f : σ → τ} {g : α → β} {p : Progress σ α} {y : τ}
    (h : p.map f g = .on y) : ∃ x, p = .on x ∧ y = f x := by
  cases p with
  | on x =>
      cases h
      exact ⟨x, rfl, rfl⟩
  | ended a => cases h

namespace Schedule.Cycle

variable {self : TaskId} {c : Cycle} {e : Enqueue} {w : World}

/-- A cycle takes its hand-in one step further. -/
theorem step_handIn (self : TaskId) (w : World) (h : c.handIn? = some e) :
    (e.step self w).2.Via Deed.Aside (c.step self w).2 ∧
      (c.step self w).1.state?.bind handIn? = (e.step self w).1.state? := by
  unfold handIn? at h
  split at h
  · rename_i settings inner hp
    cases h
    unfold step
    rw [hp]
    simp only
    split
    · rename_i inner' v hk
      rw [hk]
      exact ⟨.same, rfl⟩
    · rename_i outcome v hk
      rw [hk]
      exact ⟨World.Via.same.log rfl, rfl⟩
  · cases h

/-- A cycle that hands nothing in begins to wait for its turn, if it begins to hand in. -/
theorem step_begins {c' : Cycle} (h : c.handIn? = none) (hc : (c.step self w).1 = .on c')
    (he : c'.handIn? = some e) : e.phase = .waiting := by
  unfold step at hc
  split at hc
  · unfold load at hc
    split at hc
    · cases hc
    · split at hc
      · cases hc
      · split at hc
        · unfold callService at hc
          split at hc
          · simp only at hc
            split at hc
            · cases hc
              cases he
            · unfold conclude at hc
              split at hc <;> cases hc
          · cases hc
            cases he
            rfl
        · cases hc
  · unfold conclude at hc
    split at hc <;> cases hc
  · rename_i settings inner hp
    unfold handIn? at h
    rw [hp] at h
    cases h

end Schedule.Cycle

/-- A request that is looked at goes on, if it does, with a cycle from its beginning or with a
count. -/
theorem App.receive_begins {app : String} {r : Http.Request} {w : World} {p : RequestPhase}
    (h : (receive app r w).1 = .on p) :
    (∃ head force, p = .cycling head (.start app force)) ∨ ∃ head key, p = .counting head key := by
  unfold receive at h
  split at h
  · cases h
  · split at h
    · unfold serve at h
      split at h
      · cases h
      · cases h
      · cases h
      · cases h
      · split at h
        · cases h
          exact .inl ⟨_, _, rfl⟩
        · cases h
      · split at h <;> cases h
      · unfold checkLogin at h
        split at h
        · split at h
          · cases h
            exact .inr ⟨_, _, rfl⟩
          · cases h
          · cases h
        · cases h
    · cases h

/-- A worker hands nothing in. -/
theorem Task.sort_of_handIn {t : Task} {e : Enqueue} (h : t.handIn? = some e) :
    t.sort ≠ .worker := by
  cases t with
  | worker k => cases h
  | _ => exact nofun

/-- The hand-in that a task's next step takes further: a main loop that has been cancelled gives
its own up instead. -/
def Task.hands? : Task → Option Enqueue
  | .mainLoop ⟨_, true, _⟩ => none
  | t => t.handIn?

/-- A task that hands in has its hand-in. -/
theorem Task.hands?_handIn {t : Task} {e : Enqueue} (h : t.hands? = some e) :
    t.handIn? = some e := by
  cases t with
  | mainLoop m =>
      obtain ⟨scheduler, cancelled, phase⟩ := m
      cases cancelled with
      | true => cases h
      | false => exact h
  | _ => exact h

/-- A task that is not about to hand in a job hands in none. -/
theorem Task.hands?_of_none {t : Task} (h : t.handIn? = none) : t.hands? = none := by
  cases hh : t.hands? with
  | none => rfl
  | some e =>
      rw [hands?_handIn hh] at h
      cases h

/-- What a step makes of a hand-in: it takes one step further, or it is given up. -/
inductive Task.HandsIn (self : TaskId) (e : Enqueue) (w : World) (hands : Option Enqueue)
    (left : Option Task) (v : World) : Prop
  | steps (hh : hands = some e) (aside : (e.step self w).2.Via Deed.Aside v)
      (goesOn : left.bind Task.handIn? = (e.step self w).1.state?) : HandsIn self e w hands left v
  | givesUp (hh : hands = none) (hl : left = none) (hv : v = e.abandon self w) :
      HandsIn self e w hands left v

namespace Task

variable {self : TaskId} {e : Enqueue} {w : World} {t t' : Task}

/-- A task in the middle of a cycle hands in what the cycle does. -/
theorem HandsIn.of_cycle {c : Schedule.Cycle} {hands : Option Enqueue} {left : Option Task}
    {v : World} (hc : c.handIn? = some e) (hh : hands = some e)
    (hv : (c.step self w).2.Via Deed.Aside v)
    (hl : left.bind handIn? = (c.step self w).1.state?.bind Schedule.Cycle.handIn?) :
    HandsIn self e w hands left v := by
  obtain ⟨haside, hnext⟩ := Schedule.Cycle.step_handIn self w hc
  exact .steps hh (haside.trans hv) (hl.trans hnext)

/-- A handler takes its hand-in one step further. -/
theorem handler_handIn (self : TaskId) (w : World) {call : HandlerCall}
    (h : (Task.handler call).handIn? = some e) :
    HandsIn self e w (Task.handler call).hands? ((Task.handler call).act self w).1
      ((Task.handler call).act self w).2 := by
  obtain ⟨handler, phase⟩ := call
  cases phase with
  | enqueuing inner rest =>
      cases h
      cases hs : e.step self w with
      | mk next v =>
          cases next with
          | on inner' =>
              refine .steps rfl ?_ ?_ <;> simp only [act, HandlerCall.step, hs]
              · exact .same
              · rfl
          | ended outcome =>
              refine .steps rfl ?_ ?_ <;> simp only [act, HandlerCall.step, hs]
              · exact World.Via.same.note rfl
              · rfl
  | _ => cases h

/-- A main loop takes its cycle's hand-in one step further, or gives it up if it is cancelled. -/
theorem mainLoop_handIn (self : TaskId) (w : World) {m : Schedule.MainLoop}
    (h : (Task.mainLoop m).handIn? = some e) :
    HandsIn self e w (Task.mainLoop m).hands? ((Task.mainLoop m).act self w).1
      ((Task.mainLoop m).act self w).2 := by
  obtain ⟨scheduler, cancelled, phase⟩ := m
  cases phase with
  | sleeping wake => cases h
  | cycling c =>
      have hc : c.handIn? = some e := h
      cases cancelled with
      | true =>
          refine .givesUp rfl rfl ?_
          unfold Schedule.Cycle.handIn? at hc
          split at hc
          · rename_i hp
            cases hc
            simp only [act, Schedule.MainLoop.step, if_true, Schedule.Cycle.abandon, hp]
          · cases hc
      | false =>
          cases hs : c.step self w with
          | mk next v =>
              refine .of_cycle hc h ?_ ?_ <;>
                simp only [act, Schedule.MainLoop.step, Bool.false_eq_true, if_false, hs]
              · cases next with
                | on c' => exact .same
                | ended ending =>
                    simp only [Schedule.MainLoop.afterCycle]
                    split
                    · exact World.Via.same.log rfl
                    · exact World.Via.same.log rfl
                    · exact .same
              · cases next with
                | on c' => rfl
                | ended ending =>
                    simp only [Schedule.MainLoop.afterCycle]
                    split <;> rfl

/-- An operation takes its hand-in, or its cycle's, one step further. -/
theorem operation_handIn (self : TaskId) (w : World) {o : Operation}
    (h : (Task.operation o).handIn? = some e) :
    HandsIn self e w (Task.operation o).hands? ((Task.operation o).act self w).1
      ((Task.operation o).act self w).2 := by
  cases o with
  | enqueue inner =>
      cases h
      refine .steps rfl .same ?_
      simp only [act, Operation.step]
      cases (e.step self w).1 <;> rfl
  | runCycle c =>
      refine .of_cycle h h .same ?_
      simp only [act, Operation.step]
      cases (c.step self w).1 <;> rfl
  | request app p =>
      cases p with
      | cycling head c =>
          cases hs : c.step self w with
          | mk next v =>
              refine .of_cycle h h ?_ ?_ <;> simp only [act, Operation.step, App.requestStep, hs]
              · cases next <;> exact .same
              · cases next <;> rfl
      | _ => cases h
  | _ => cases h

/-- Whoever hands in a job takes it one step further or gives it up. -/
theorem act_handIn (self : TaskId) (w : World) (h : t.handIn? = some e) :
    HandsIn self e w t.hands? (t.act self w).1 (t.act self w).2 := by
  cases t with
  | worker k => cases h
  | extender x => cases h
  | ended r => cases h
  | handler call => exact handler_handIn self w h
  | mainLoop m => exact mainLoop_handIn self w h
  | operation o => exact operation_handIn self w h

/-- A call that hands nothing in begins to wait for its turn, if it begins to hand in. -/
theorem handler_begins {call : HandlerCall} (h : (Task.handler call).handIn? = none)
    (he : (Task.handler (call.step self w).1).handIn? = some e) : e.phase = .waiting := by
  obtain ⟨handler, phase⟩ := call
  cases phase with
  | entering =>
      simp only [HandlerCall.step, HandlerCall.enter] at he
      split at he <;> cases he
  | acting actions =>
      cases actions with
      | nil => cases he
      | cons action rest =>
          cases action with
          | enqueue runner plan =>
              cases he
              rfl
          | _ => cases he
  | sleeping wake rest => cases he
  | waiting gate rest => cases he
  | enqueuing inner rest => cases h
  | finished ending => cases he

/-- A main loop that hands nothing in begins to wait for its turn, if its cycle begins to hand
in. -/
theorem mainLoop_begins {m m' : Schedule.MainLoop} (h : (Task.mainLoop m).handIn? = none)
    (hm : (m.step self w).1 = .on m') (he : (Task.mainLoop m').handIn? = some e) :
    e.phase = .waiting := by
  obtain ⟨scheduler, cancelled, phase⟩ := m
  cases phase with
  | sleeping wake =>
      cases cancelled with
      | true => cases hm
      | false =>
          cases hm
          cases he
  | cycling c =>
      cases cancelled with
      | true => cases hm
      | false =>
          simp only [Schedule.MainLoop.step, Bool.false_eq_true, if_false] at hm
          split at hm
          · rename_i c' v hs
            cases hm
            exact Schedule.Cycle.step_begins h (by rw [hs]) he
          · unfold Schedule.MainLoop.afterCycle at hm
            split at hm <;> cases hm <;> cases he

/-- A request that hands nothing in begins to wait for its turn, if its cycle begins to hand in. -/
theorem request_begins {app : String} {p p' : RequestPhase}
    (h : (Task.operation (.request app p)).handIn? = none)
    (hp : (App.requestStep self app p w).1 = .on p')
    (he : (Task.operation (.request app p')).handIn? = some e) : e.phase = .waiting := by
  cases p with
  | arrived r =>
      obtain ⟨p', hr, rfl⟩ := Progress.map_on hp
      rcases App.receive_begins hr with ⟨head, force, rfl⟩ | ⟨head, key, rfl⟩ <;> cases he
  | cycling head c =>
      simp only [App.requestStep] at hp
      split at hp
      · rename_i c' v hk
        cases hp
        exact Schedule.Cycle.step_begins h (by rw [hk]) he
      · cases hp
  | counting head key => cases hp

/-- An operation that hands nothing in begins to wait for its turn, if it begins to hand in. -/
theorem operation_begins {o o' : Operation} (h : (Task.operation o).handIn? = none)
    (hs : (o.step self w).1 = .on o') (he : (Task.operation o').handIn? = some e) :
    e.phase = .waiting := by
  cases o with
  | enqueue inner => cases h
  | runCycle c =>
      obtain ⟨c', hc, rfl⟩ := Progress.map_on hs
      exact Schedule.Cycle.step_begins h hc he
  | request app p =>
      obtain ⟨p', hp, rfl⟩ := Progress.map_on hs
      exact request_begins h hp he
  | drain runner deadline p =>
      simp only [Operation.step, Operation.stepDrain] at hs
      split at hs
      · split at hs
        · cases hs
        · cases hs
          cases he
      · cases hs
  | _ =>
      obtain ⟨p', -, rfl⟩ := Progress.map_on hs
      cases he

/-- A task that hands nothing in begins to wait for its turn, if it begins to hand in. -/
theorem act_begins (h : t.handIn? = none) (ht : (t.act self w).1 = some t')
    (he : t'.handIn? = some e) : e.phase = .waiting := by
  cases t with
  | worker k =>
      obtain ⟨k', -, rfl⟩ := Progress.kept_none ht
      cases he
  | extender x =>
      obtain ⟨x', -, rfl⟩ := Progress.kept_none ht
      cases he
  | ended r =>
      cases ht
      cases he
  | handler call =>
      cases ht
      exact handler_begins h he
  | mainLoop m =>
      obtain ⟨m', hm, rfl⟩ := Progress.kept_none ht
      exact mainLoop_begins h hm he
  | operation o =>
      simp only [act] at ht
      cases hs : (o.step self w).1 with
      | ended r =>
          rw [hs] at ht
          cases ht
          cases he
      | on o' =>
          rw [hs] at ht
          cases ht
          exact operation_begins h hs he

@[simp] theorem core_handIn? (t : Task) : t.core.handIn? = t.handIn? := by
  cases t with
  | mainLoop m =>
      obtain ⟨scheduler, cancelled, phase⟩ := m
      cases phase <;> rfl
  | _ => rfl

/-- A task at its beginning hands in nothing, or waits for its turn. -/
theorem Begins.handIn? (h : t.Begins w) (he : t.handIn? = some e) : e.phase = .waiting := by
  cases h with
  | worker hp hr => cases he
  | extender hp => cases he
  | @mainLoop m hp =>
      obtain ⟨scheduler, cancelled, phase⟩ := m
      have hp' : phase = .cycling (.start scheduler false) := hp
      subst hp'
      cases he
  | @operation o ho =>
      cases o with
      | enqueue inner =>
          cases he
          exact of_decide_eq_true ho
      | runCycle c =>
          obtain ⟨scheduler, force, phase⟩ := c
          cases phase with
          | loading => cases he
          | _ => cases ho
      | request app p =>
          cases p with
          | arrived r => cases he
          | _ => cases ho
      | _ => cases he

end Task

namespace World

/-- Every hand-in that is about to claim its key has read that the key is free. -/
def ReadsFree (w : World) : Prop :=
  ∀ i t e held, w.tasks.find? i = some t → t.handIn? = some e → e.phase = .claiming held →
    Enqueue.Free held

/-- Every move leaves the hand-ins under judgement with a free status. -/
theorem ReadsFree.move {w : World} (h : w.ReadsFree) (hs : w.Sound) {m : Move}
    (hm : w.Admits m) : (w.move m).ReadsFree := by
  intro i t' e held ht he hp
  have hidle : e.phase ≠ .waiting := by
    rw [hp]
    exact nofun
  rcases hs.move_was hm ht with ⟨t, ht', hcore⟩ | ⟨-, hnew | ⟨c, rfl⟩⟩ | ⟨t, -, ht', hleft⟩
  · rw [← t'.core_handIn?, hcore, t.core_handIn?] at he
    exact h i t e held ht' he hp
  · exact absurd (hnew.handIn? he) hidle
  · cases he
  · cases hin : t.handIn? with
    | none => exact absurd (Task.act_begins hin hleft he) hidle
    | some e' =>
        cases Task.act_handIn i w hin with
        | givesUp _ hl _ =>
            rw [hl] at hleft
            cases hleft
        | steps _ _ goesOn =>
            have hturn := e'.step_turn i w
            rw [hleft, Option.bind_some, he] at goesOn
            generalize e'.step i w = p at goesOn hturn
            obtain ⟨next, u⟩ := p
            cases hturn with
            | enters hr hw hroom =>
                cases goesOn
                cases hp
            | reads hr hw ha hfree =>
                cases goesOn
                cases hp
                exact hfree
            | _ => cases goesOn

end World

end JobFleet
