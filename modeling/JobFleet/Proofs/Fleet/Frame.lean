import JobFleet.Proofs.Fleet.Writers

/-!
# What moves leave alone

No step changes what a runner is told or which lock a scheduler has, none takes time, and the
journal grows only by what a task may tell. All of it is read off the deeds that a task may do.
-/

namespace JobFleet

/-- A deed that changes nothing of what runners are told. -/
def Deed.KeepsConfig : Deed → Prop
  | .runner _ f => ∀ r, (f r).config = r.config
  | _ => True

/-- No task changes a runner's configuration. -/
theorem Task.MayDo.keepsConfig {w : World} {t : Task} {d : Deed} (h : Task.MayDo w t d) :
    d.KeepsConfig := by
  have haside : ∀ d : Deed, d.Aside → d.KeepsConfig := by
    intro d hd
    cases d with
    | runner name f => exact hd.elim
    | _ => trivial
  cases h with
  | aside h => exact haside d h
  | handIn _ h =>
      cases h with
      | runner hf => exact hf
      | _ => trivial
  | worker _ h =>
      cases h with
      | runner hf => exact fun r => (hf r).1
      | _ => trivial
  | stopRunner _ h => exact fun r => (h r).1
  | control _ h =>
      cases h with
      | aside h => exact haside d h
      | _ => trivial
  | _ => trivial

/-- A deed that gives no scheduler another lock. -/
def Deed.KeepsLock : Deed → Prop
  | .scheduler _ f => ∀ s, (f s).lock = s.lock
  | _ => True

/-- No task changes a scheduler's lock. -/
theorem Task.MayDo.keepsLock {w : World} {t : Task} {d : Deed} (h : Task.MayDo w t d) :
    d.KeepsLock := by
  have haside : ∀ d : Deed, d.Aside → d.KeepsLock := by
    intro d hd
    cases d with
    | scheduler name f => exact fun s => (hd s).1
    | _ => trivial
  cases h with
  | aside h => exact haside d h
  | handIn _ h => cases h <;> trivial
  | worker _ h => cases h <;> trivial
  | control _ h =>
      cases h with
      | aside h => exact haside d h
      | scheduler h => exact fun s => (h s).1
      | _ => trivial
  | _ => trivial

/-- A deed after which no scheduler that handed its ticks to a runner does otherwise. -/
def Deed.KeepsService : Deed → Prop
  | .scheduler _ f => ∀ s, s.delegates = true → (f s).delegates = true
  | _ => True

/-- No task changes a scheduler's service. -/
theorem Task.MayDo.keepsService {w : World} {t : Task} {d : Deed} (h : Task.MayDo w t d) :
    d.KeepsService := by
  have haside : ∀ d : Deed, d.Aside → d.KeepsService := by
    intro d hd
    cases d with
    | scheduler name f => exact fun s => (hd s).2.2.2
    | _ => trivial
  cases h with
  | aside h => exact haside d h
  | handIn _ h => cases h <;> trivial
  | worker _ h => cases h <;> trivial
  | control _ h =>
      cases h with
      | aside h => exact haside d h
      | scheduler h => exact fun s => (h s).2
      | _ => trivial
  | _ => trivial

/-- A record that a task other than a worker may make tells of no stuck slot. -/
theorem Task.MayDo.tellsStuck {w : World} {t : Task} {r : Record}
    {hc : r.call? = none} (h : Task.MayDo w t (.record r hc)) (ht : t.sort ≠ .worker) :
    r.tellsStuck = false := by
  have haside : ∀ r : Record, r.ofRunner = false → r.tellsStuck = false := by
    intro r hr
    cases r with
    | logged e =>
        cases e with
        | runner e => cases e <;> first | rfl | cases hr
        | _ => rfl
    | _ => rfl
  cases h with
  | aside h => exact haside r h
  | handIn _ h =>
      cases h with
      | record hr => exact hr
  | worker hk _ =>
      subst hk
      exact absurd rfl ht
  | stopRecord _ => rfl
  | control _ h =>
      cases h with
      | aside h => exact haside r h

namespace World

variable {w v : World}

/-- Deeds take no time. -/
theorem Via.now {D : Deed → Prop} (h : w.Via D v) : v.now = w.now := by
  refine h.keeps (P := fun u => u.now = w.now) ?_ rfl
  intro u d _ hu
  refine Eq.trans ?_ hu
  cases d with
  | call c => exact u.perform_now c.2
  | _ => rfl

/-- Deeds that keep configurations leave each as it was. -/
theorem Via.config {D : Deed → Prop} (h : w.Via D v) (hD : ∀ d, D d → d.KeepsConfig)
    (name : String) :
    (v.runners.find? name).map Runner.config = (w.runners.find? name).map Runner.config := by
  refine h.keeps (P := fun u => (u.runners.find? name).map Runner.config =
    (w.runners.find? name).map Runner.config) ?_ rfl
  intro u d hd hu
  refine Eq.trans ?_ hu
  have hk := hD d hd
  cases d with
  | runner n f =>
      unfold does modifyRunner
      rw [Table.find?_modify]
      split
      · rename_i hn
        rw [hn, Option.map_map]
        congr 1
        exact funext hk
      · rfl
  | call c => rw [does, perform_runners]
  | _ => rfl

/-- A move that sets nothing up leaves alone what runners are told. -/
theorem move_config {m : Move} (hm : w.Admits m) (hset : m.setsUp = false) (name : String) :
    ((w.move m).runners.find? name).map Runner.config =
      (w.runners.find? name).map Runner.config := by
  cases m with
  | step id =>
      obtain ⟨t, ht, -, he⟩ := move_step hm
      rw [he, put_runners]
      exact (t.act_via id w).config (fun _ hd => hd.keepsConfig) name
  | call c => exact congrArg (fun t => (t.find? name).map Runner.config) (w.perform_runners c.2)
  | pass t => rfl
  | launch o => rfl
  | collect id => rfl
  | disturb f => rfl
  | reach value => rfl
  | _ => cases hset

/-- A runner that is there stays there and is told the same. -/
theorem move_runner {m : Move} (hm : w.Admits m) {name : String} {r : Runner}
    (hr : w.runners.find? name = some r) :
    ∃ r', (w.move m).runners.find? name = some r' ∧ r'.config = r.config := by
  cases hset : m.setsUp with
  | false =>
      have hc := move_config hm hset name
      rw [hr, Option.map_some] at hc
      exact Option.map_eq_some_iff.mp hc
  | true =>
      rcases (move_setUp hset hm).runners with he | ⟨n, config, worker, hn, -, he⟩
      · exact ⟨r, by rw [he, hr], rfl⟩
      · refine ⟨r, ?_, rfl⟩
        rw [he, Table.find?_insert_of_ne, hr]
        rintro rfl
        cases hn.symm.trans hr

/-- A runner stays there, and is told the same, in the course of a history. -/
theorem History.runner {rule : World → Move → Prop} {u : World} {ms : List Move}
    (h : History rule u ms w) {name : String} {r : Runner} (hr : u.runners.find? name = some r) :
    ∃ r', w.runners.find? name = some r' ∧ r'.config = r.config := by
  refine h.keeps (P := fun v => ∃ r', v.runners.find? name = some r' ∧ r'.config = r.config)
    ⟨r, hr, rfl⟩ ?_
  rintro v m hm - ⟨r₁, hr₁, hc₁⟩
  obtain ⟨r₂, hr₂, hc₂⟩ := move_runner hm hr₁
  exact ⟨r₂, hr₂, hc₂.trans hc₁⟩

/-- A runner that is there after a move was there and told the same, or is new. -/
theorem runner_of_move {m : Move} (hm : w.Admits m) {name : String} {r' : Runner}
    (hr : (w.move m).runners.find? name = some r') :
    (∃ r, w.runners.find? name = some r ∧ r'.config = r.config) ∨
      ∃ config worker, r' = .new config worker ∧ Fits config.maxRunning := by
  cases hset : m.setsUp with
  | false =>
      have hc := move_config hm hset name
      rw [hr, Option.map_some] at hc
      obtain ⟨r, hr', he⟩ := Option.map_eq_some_iff.mp hc.symm
      exact .inl ⟨r, hr', he.symm⟩
  | true =>
      rcases (move_setUp hset hm).runners with he | ⟨n, config, worker, -, hf, he⟩
      · exact .inl ⟨r', by rw [← he, hr], rfl⟩
      · rw [he, Table.find?_insert] at hr
        split at hr
        · exact .inr ⟨config, worker, (Option.some.inj hr).symm, hf⟩
        · exact .inl ⟨r', hr, rfl⟩

/-- Records of a kind that no deed makes are no more than before. -/
theorem Via.records {D : Deed → Prop} (h : w.Via D v) {p : Record → Bool}
    (hcall : ∀ c, p (.called c) = false) (hD : ∀ r hc, D (.record r hc) → p r = false) :
    (v.journal.countP fun x => p x.2) = w.journal.countP fun x => p x.2 := by
  refine h.keeps (P := fun u => (u.journal.countP fun x => p x.2) =
    w.journal.countP fun x => p x.2) ?_ rfl
  intro u d hd hu
  refine Eq.trans ?_ hu
  cases d with
  | record r hc =>
      refine List.countP_cons_of_neg ?_
      rw [hD r hc hd]
      exact Bool.false_ne_true
  | call c =>
      rw [does, perform_journal]
      refine List.countP_cons_of_neg ?_
      rw [hcall]
      exact Bool.false_ne_true
  | _ => rfl

/-- Records of a kind that neither calls nor limiters make come from steps of tasks alone. -/
theorem move_records {m : Move} (hm : w.Admits m) {p : Record → Bool}
    (hcall : ∀ c, p (.called c) = false) (hlimit : ∀ e, p (.logged (.rateLimit e)) = false)
    (hstep : ∀ id t r hc, m = .step id → w.tasks.find? id = some t →
      Task.MayDo w t (.record r hc) → p r = false) :
    ((w.move m).journal.countP fun x => p x.2) = w.journal.countP fun x => p x.2 := by
  cases hset : m.setsUp with
  | true =>
      rcases (move_setUp hset hm).journal with he | ⟨e, he⟩
      · rw [he]
      · rw [he]
        refine List.countP_cons_of_neg ?_
        rw [hlimit]
        exact Bool.false_ne_true
  | false =>
      cases m with
      | step id =>
          obtain ⟨t, ht, -, he⟩ := move_step hm
          rw [he, put_journal]
          exact (t.act_via id w).records hcall fun r hc hr => hstep id t r hc rfl ht hr
      | call c =>
          refine Eq.trans (congrArg _ (w.perform_journal c.2)) (List.countP_cons_of_neg ?_)
          rw [hcall]
          exact Bool.false_ne_true
      | pass t => rfl
      | launch o => rfl
      | collect id => rfl
      | disturb f => rfl
      | reach value => rfl
      | _ => cases hset

end World

end JobFleet
