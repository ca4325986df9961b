import JobFleet.Proofs.Fleet.Exclusion
import JobFleet.Proofs.Fleet.Sessions

/-!
# Renewing a lock for cycles that run

An extender that is stopped by nobody renews its lock for ever, and the main loop beside it is
meant to run as long. Whatever tells the main loop to end tells the extender first, but nothing
tells the extender that the main loop has ended by itself. That happens in one way: a cycle
panics. So an extender renews the lock for a main loop that runs, unless that main loop has broken
off.
-/

namespace JobFleet

namespace World

/-- A main loop has broken off in the course of a history. -/
def HasBroken (j : TaskId) (start : World) (ms : List Move) : Prop :=
  ∃ first m last, ms = first ++ m :: last ∧ (start.after first).BreaksOff j m

variable {start w : World} {ms : List Move} {j : TaskId}

/-- A loop that broke off has broken off for good. -/
theorem HasBroken.append (h : HasBroken j start ms) (ms' : List Move) :
    HasBroken j start (ms ++ ms') := by
  obtain ⟨first, m, last, rfl, hbreaks⟩ := h
  exact ⟨first, m, last ++ ms', by rw [List.append_assoc, List.cons_append], hbreaks⟩

/-- A number that has been given to tasks of two sorts is nobody's any more. -/
theorem Kind.gone {s s' : Task.Sort} (h : w.Kind j s) (h' : w.Kind j s') (hne : s ≠ s') :
    w.tasks.find? j = none := by
  cases ht : w.tasks.find? j with
  | none => rfl
  | some t => exact absurd ((h.unique ht).symm.trans (h'.unique ht)) hne

/-- A task that is gone does not run. -/
theorem running_of_gone (h : w.tasks.find? j = none) : w.running j = false := by
  rw [running, Table.contains, h]
  rfl

/-- A main loop that breaks off has ended. -/
theorem move_breaksOff {m : Move} (hm : w.Admits m) (h : w.BreaksOff j m) :
    (w.move m).tasks.find? j = none := by
  cases m with
  | step id =>
      obtain ⟨rfl, loop, c, ht, hc, hp, hpanics⟩ := h
      obtain ⟨t, ht', -, he⟩ := move_step hm
      cases ht.symm.trans ht'
      have hended : (loop.step id w).1 = .ended () := by
        unfold Schedule.MainLoop.step
        rw [hp]
        simp only [hc, Bool.false_eq_true, if_false]
        cases hstep : c.step id w with
        | mk ending u =>
            rw [hstep] at hpanics
            cases hpanics
            rfl
      have hleft : (Task.act id w (.mainLoop loop)).1 = none := by
        have hkept : (Task.act id w (.mainLoop loop)).1 =
            (loop.step id w).1.kept .mainLoop fun _ => none := rfl
        rw [hkept, hended]
        rfl
      rw [he, put_find?, if_pos rfl, hleft]
  | _ => exact h.elim

/-- A main loop that has broken off is gone for good. -/
theorem History.gone_of_hasBroken {rule : World → Move → Prop} {utc : Int} {s : Store}
    (h : History rule (around utc s) ms w) (hbroken : HasBroken j (around utc s) ms) :
    w.tasks.find? j = none := by
  obtain ⟨first, m, last, rfl, hbreaks⟩ := hbroken
  obtain ⟨v, hfirst, hrest⟩ := h.split
  obtain ⟨hm, -, hlast⟩ := hrest.uncons
  rw [hfirst.after_eq] at hbreaks
  have hgone := move_breaksOff hm hbreaks
  have hlt : j < (v.move m).nextTask := by
    cases m with
    | step id =>
        obtain ⟨rfl, loop, -, ht, -⟩ := hbreaks
        have hkind : v.Kind id .mainLoop := Kind.of_find? hfirst.regular.sound.fresh ht
        exact (hkind.move hm).1
    | _ => exact hbreaks.elim
  have hkinds : w.Kind j .mainLoop ∧ w.Kind j .extender := by
    have hfree : ∀ sort, (v.move m).Kind j sort := by
      refine fun sort => ⟨hlt, ?_⟩
      intro t ht
      rw [hgone] at ht
      cases ht
    refine hlast.keeps (P := fun u => u.Kind j .mainLoop ∧ u.Kind j .extender)
      ⟨hfree _, hfree _⟩ ?_
    rintro u m' hm' - ⟨hmain, hext⟩
    exact ⟨hmain.move hm', hext.move hm'⟩
  exact hkinds.1.gone hkinds.2 nofun

/-- A main loop beside an extender that nobody has cancelled has not been cancelled either: it runs,
or it has broken off. -/
theorem History.attended {rule : World → Move → Prop} {utc : Int} {s : Store}
    (h : History rule (around utc s) ms w) {i : TaskId} {x : Schedule.Extender}
    (hx : w.role i = some (.renews x)) (hc : x.cancelled = false) :
    (∃ name, w.role x.main = some (.leads name false)) ∨ HasBroken x.main (around utc s) ms := by
  induction h generalizing i x with
  | nil => cases hx
  | @snoc ms v m h possible _ ih =>
      have hshift := h.regular.shift possible
      have hpaired := h.paired
      rcases hshift.renews i x hx with ⟨x₀, hx₀, hmain, hkept⟩ | ⟨hmain, -, hnew⟩
      · have hc₀ : x₀.cancelled = false := by
          cases hx₀c : x₀.cancelled with
          | false => rfl
          | true => exact absurd (hkept hx₀c) (by rw [hc]; nofun)
        have hi := hpaired.renews i x₀ hx₀
        rw [hmain]
        rcases ih hx₀ hc₀ with ⟨name, hlead⟩ | hbroken
        · rcases hshift.leads _ name hlead with hleads | hbreaks | ⟨i', x', hx', hm, hnone⟩ |
            ⟨q, n, s', hq, hm, hnone⟩
          · exact .inl ⟨name, hleads⟩
          · rw [← h.after_eq] at hbreaks
            exact .inr ⟨ms, m, [], rfl, hbreaks⟩
          · have hi' : i' = i := by rw [hpaired.renews i' x' hx', hm, hi]
            rw [hi', hx] at hnone
            cases hnone
          · have hext : s'.extender = i := by rw [hpaired.sessions n s' (.inr ⟨q, hq⟩), hm, hi]
            rw [hext, hx₀] at hnone
            cases hnone
        · exact .inr (hbroken.append [m])
      · rw [hmain]
        exact .inl hnew

/-- An extender that nobody has cancelled renews the lock for a main loop that runs and has not been
cancelled either, unless a cycle of that main loop has panicked; then it renews the lock for nobody.
Whatever session the extender is of names the same main loop. -/
theorem renewed_iff {rule : World → Move → Prop} {utc : Int} {s : Store}
    (h : History rule (around utc s) ms w) {i : TaskId} {x : Schedule.Extender}
    (hx : w.tasks.find? i = some (.extender x)) (hc : x.cancelled = false) :
    (w.running x.main = true ↔ ¬ HasBroken x.main (around utc s) ms) ∧
      (w.running x.main = true → ∃ name, w.Leads name x.main) ∧
      ∀ name session, w.Holds name session → session.extender = i → session.main = x.main := by
  have hrole : w.role i = some (.renews x) := role_of_find? hx
  have hleads : ∀ name, w.role x.main = some (.leads name false) → w.Leads name x.main := by
    intro name hlead
    obtain ⟨t, ht, hr⟩ := Option.bind_eq_some_iff.mp hlead
    obtain ⟨m, rfl, hname, hcancelled⟩ := Task.mainLoop_of_leads hr
    exact ⟨m, ht, hname, hcancelled⟩
  have hbroken : HasBroken x.main (around utc s) ms → w.running x.main = false :=
    fun hb => running_of_gone (h.gone_of_hasBroken hb)
  refine ⟨⟨?_, ?_⟩, ?_, ?_⟩
  · intro hrun hb
    rw [hbroken hb] at hrun
    cases hrun
  · intro hb
    rcases h.attended hrole hc with ⟨name, hlead⟩ | hb'
    · obtain ⟨m, hm, -⟩ := hleads name hlead
      rw [running, Table.contains, hm]
      rfl
    · exact absurd hb' hb
  · intro hrun
    rcases h.attended hrole hc with ⟨name, hlead⟩ | hb
    · exact ⟨name, hleads name hlead⟩
    · rw [hbroken hb] at hrun
      cases hrun
  · intro name session hs he
    have hsession := h.paired.sessions name session hs
    have hextender := h.paired.renews i x hrole
    exact Nat.succ.inj (hsession.symm.trans (he.trans hextender))

/-- A scheduler whose service panics is started. Its first cycle ends the main loop, and the
extender goes on for longer than the lock's time to live. -/
def crash : List Move :=
  [.scheduler "a" "sweep" (.ofSecs 2) (.held ⟨true, 60⟩) (.scripted 0 fun _ => ⟨none, .panicked⟩),
    .launch (.startScheduler "a" .entering), .step 0, .step 0, .step 1, .pass 1000000000, .step 2,
    .step 2, .pass 2000000000, .step 2, .step 2]

/-- The extender of that scheduler then. -/
def orphan : Schedule.Extender :=
  ⟨⟨"sweep", "00000000000000000000000000000001", .ofSecs 2⟩, 1, false, .resting 3000000000⟩

/-- Its main loop is one that has broken off. -/
theorem renewed_iff_crash :
    ((around 0 .empty).after crash).tasks.find? 2 = some (.extender orphan) ∧
      HasBroken orphan.main (around 0 .empty) crash := by
  have h : History (fun _ _ => True) (around 0 .empty) crash _ := .of_check (by decide +kernel)
  have hx : ((around 0 .empty).after crash).tasks.find? 2 = some (.extender orphan) := by rfl
  have hrun : ((around 0 .empty).after crash).running orphan.main = false := by decide +kernel
  refine ⟨hx, Classical.byContradiction fun hno => ?_⟩
  rw [((renewed_iff h hx rfl).1).mpr hno] at hrun
  cases hrun

/-- The session's extender has not been cancelled and keeps the lock held, past its time to live and
without a main loop. -/
theorem renewed_without_cycles :
    History (fun _ _ => True) (around 0 .empty) crash ((around 0 .empty).after crash) ∧
      ((around 0 .empty).after crash).session? "a" = some ⟨1, 2⟩ ∧
      ((around 0 .empty).after crash).tasks.find? 2 = some (.extender orphan) ∧
      orphan.cancelled = false ∧ ((around 0 .empty).after crash).running 1 = false ∧
      ((around 0 .empty).after crash).now = 2000000000 ∧
      ((around 0 .empty).after crash).entry (lockKey "sweep") =
        some ⟨orphan.lock.token, some 4000000000⟩ :=
  ⟨.of_check (by decide +kernel), by decide +kernel, by rfl, rfl, by decide +kernel,
    by decide +kernel, by decide +kernel⟩

end World

end JobFleet
