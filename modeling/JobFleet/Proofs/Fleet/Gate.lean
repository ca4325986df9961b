import JobFleet.Proofs.Fleet.Staff

/-!
# One hand-in at a time

The hand-ins of a runner pass its gate one by one. One that has found room in the queue holds the
gate until it is done, and the room is still there: nobody else can fill it meanwhile.
-/

namespace JobFleet

/-- A task that hands in a job can take its next step only if the hand-in can. -/
theorem Task.ready_of_hands {t : Task} {e : Enqueue} {w : World} {id : TaskId}
    (h : t.hands? = some e) (hr : t.ready w id = true) : e.ready w = true := by
  have hcycle : ∀ {c : Schedule.Cycle}, c.handIn? = some e → c.ready w = true →
      e.ready w = true := by
    intro c hc hr
    unfold Schedule.Cycle.handIn? at hc
    split at hc
    · rename_i hp
      cases hc
      simpa only [Schedule.Cycle.ready, hp] using hr
    · cases hc
  cases t with
  | handler call =>
      obtain ⟨handler, phase⟩ := call
      cases phase with
      | enqueuing inner rest =>
          cases h
          exact hr
      | _ => cases h
  | mainLoop m =>
      obtain ⟨scheduler, cancelled, phase⟩ := m
      cases cancelled with
      | true => cases h
      | false =>
          cases phase with
          | cycling c => exact hcycle h hr
          | sleeping wake => cases h
  | operation o =>
      cases o with
      | enqueue inner =>
          cases h
          exact hr
      | runCycle c => exact hcycle h hr
      | request app p =>
          cases p with
          | cycling head c => exact hcycle h hr
          | _ => cases h
      | _ => cases h
  | _ => cases h

/-- A hand-in goes on only with its runner. -/
theorem Enqueue.step_on {e e' : Enqueue} {self : TaskId} {w : World}
    (h : (e.step self w).1 = .on e') :
    ∃ r, w.runners.find? e.runner = some r ∧ e'.runner = e.runner := by
  have hturn := e.step_turn self w
  generalize e.step self w = p at h hturn
  obtain ⟨next, u⟩ := p
  cases hturn with
  | enters hr hp hroom =>
      cases h
      exact ⟨_, hr, rfl⟩
  | reads hr hp ha hfree =>
      cases h
      exact ⟨_, hr, rfl⟩
  | _ => cases h

namespace World

variable {w v : World} {name : String} {r r' : Runner} {m : Move}

/-- How a hand-in that has passed the gate came to be where it is: it was there, or has taken a
step. -/
theorem Sound.handIn_was (h : w.Sound) (hm : w.Admits m) {i : TaskId} {t' : Task} {e : Enqueue}
    (ht' : (w.move m).tasks.find? i = some t') (he : t'.handIn? = some e)
    (hp : e.phase ≠ .waiting) :
    (m ≠ .step i ∧ ∃ t, w.tasks.find? i = some t ∧ t.handIn? = some e) ∨
      (m = .step i ∧ ∃ t e₀, w.tasks.find? i = some t ∧ t.hands? = some e₀ ∧
        (e₀.step i w).1 = .on e) := by
  by_cases hstep : m = .step i
  · subst hstep
    obtain ⟨t, ht, -, hmove⟩ := move_step hm
    rw [hmove, put_find?, if_pos rfl] at ht'
    refine .inr ⟨rfl, ?_⟩
    cases hin : t.handIn? with
    | none => exact absurd (Task.act_begins hin ht' he) hp
    | some e₀ =>
        cases Task.act_handIn i w hin with
        | givesUp _ hl _ =>
            rw [hl] at ht'
            cases ht'
        | steps hands _ goesOn =>
            rw [ht', Option.bind_some, he] at goesOn
            refine ⟨t, e₀, ht, hands, ?_⟩
            cases hs : (e₀.step i w).1 with
            | on e' =>
                rw [hs] at goesOn
                cases goesOn
                rfl
            | ended _ =>
                rw [hs] at goesOn
                cases goesOn
  · refine .inl ⟨hstep, ?_⟩
    rcases h.move_was hm ht' with ⟨t, ht, hcore⟩ | ⟨-, hnew | ⟨c, rfl⟩⟩ | ⟨t, rfl, -, -⟩
    · refine ⟨t, ht, ?_⟩
      rw [← t.core_handIn?, ← hcore, t'.core_handIn?, he]
    · exact absurd (hnew.handIn? he) hp
    · cases he
    · exact absurd rfl hstep

/-- A hand-in that has passed the gate of a runner holds it, and there is room in the queue. -/
def Gated (name : String) (w : World) : Prop :=
  ∀ i t e, w.tasks.find? i = some t → t.handIn? = some e → e.runner = name →
    e.phase ≠ .waiting → ∃ r, w.runners.find? name = some r ∧ r.gate = some i ∧
      r.pending.length < r.config.capacity

theorem gated_around (name : String) (utc : Int) (s : Store) : (around utc s).Gated name := by
  intro i t e ht
  cases ht

/-- Another task does not take a step of a hand-in while the gate is held. -/
theorem Gated.sole (h : w.Gated name) (hr : w.runners.find? name = some r) {i id : TaskId}
    (hgate : r.gate = some i) (hm : w.Admits (.step id)) {t : Task} {e : Enqueue}
    (ht : w.tasks.find? id = some t) (hin : t.hands? = some e) (hn : e.runner = name) :
    id = i := by
  by_cases hp : e.phase = .waiting
  · obtain ⟨t', ht', hready, -⟩ := move_step hm
    cases ht.symm.trans ht'
    have hfree := Task.ready_of_hands hin hready
    simp [Enqueue.ready, hp, hn, hr, hgate] at hfree
  · obtain ⟨r', hr', hgate', -⟩ := h id t e ht (Task.hands?_handIn hin) hn hp
    cases hr.symm.trans hr'
    rw [hgate] at hgate'
    exact (Option.some.inj hgate').symm

/-- Every move keeps the hand-ins of a runner gated. -/
theorem Gated.move (h : w.Gated name) (hw : w.Regular) (hm : w.Admits m) :
    (w.move m).Gated name := by
  intro i t' e ht' he hn hp
  rcases hw.sound.handIn_was hm ht' he hp with ⟨hne, t, ht, hin⟩ | ⟨rfl, t, e₀, ht, hin, hstep⟩
  · obtain ⟨r, hr, hgate, hroom⟩ := h i t e ht hin hn hp
    cases hw.runnerMove hr hm with
    | passes apart shuns => exact ⟨r, apart.runner.trans hr, hgate, hroom⟩
    | handsIn he' htask hin' hn' step made left leaves =>
        subst he'
        exact absurd (congrArg Move.step (h.sole hr hgate hm htask hin' hn')) hne
    | @givesUp id _ _ he' ht' hin' hands hn' left leaves =>
        refine ⟨_, leaves.runner, ?_⟩
        have hother : r.gate ≠ some id := by
          rw [hgate]
          rintro ⟨⟩
          exact hne he'
        rw [if_neg hother]
        exact ⟨hgate, hroom⟩
    | works he' hk tells made runner crew =>
        refine ⟨_, runner, ?_⟩
        cases made with
        | idles hp' hc hq =>
            rw [Runner.vacates_gate, Runner.vacates_pending, Runner.vacates_config]
            exact ⟨hgate, hroom⟩
        | takes hp' hc hq =>
            rw [hq] at hroom
            exact ⟨hgate, Nat.lt_of_succ_lt hroom⟩
        | _ => exact ⟨hgate, hroom⟩
    | stops he' ht' hp' made left runner crew =>
        refine ⟨_, runner, ?_⟩
        cases made with
        | clears =>
            rw [Runner.vacates_gate, Runner.vacates_pending, Runner.vacates_config]
            exact ⟨hgate, hroom⟩
        | _ => exact ⟨hgate, hroom⟩
  · obtain ⟨r, hr, hrunner⟩ := Enqueue.step_on hstep
    have hn₀ : e₀.runner = name := hrunner.symm.trans hn
    rw [hn₀] at hr
    obtain ⟨r', hired, made, -, leaves⟩ := hw.hands hr hm ht hin hn₀
    refine ⟨_, leaves.runner, ?_⟩
    rw [hstep] at made
    cases made with
    | enters hp₀ hroom => exact ⟨rfl, hroom⟩
    | reads hp₀ =>
        have hne : e₀.phase ≠ .waiting := by
          rw [hp₀]
          nofun
        obtain ⟨r', hr', hgate, hroom⟩ := h i t e₀ ht (Task.hands?_handIn hin) hn₀ hne
        cases hr.symm.trans hr'
        exact ⟨hgate, hroom⟩

/-- Whoever keeps a gate closed holds it, at every moment. -/
theorem History.gated {rule : World → Move → Prop} {utc : Int} {s : Store} {ms : List Move}
    (h : History rule (around utc s) ms w) (name : String) : w.Gated name := by
  have hall : w.Regular ∧ w.Gated name := by
    refine h.keeps (P := fun v => v.Regular ∧ v.Gated name)
      ⟨regular_around utc s, gated_around name utc s⟩ ?_
    rintro v m hm - ⟨hv, hg⟩
    exact ⟨hv.move hm, hg.move hv hm⟩
  exact hall.2

end World

end JobFleet
