import JobFleet.Proofs.Fleet.HandIns

/-!
# Numbers keep their sort

Task numbers are given once: whatever is filed under a number that has been given is of the sort
of the task that it was given to. So the number in a runner's slot stands for a worker and nothing
else, and a stop of a runner cancels no other task.
-/

namespace JobFleet

namespace World

/-- A number that has been given to a task of a sort: nothing else is filed under it. -/
def Kind (w : World) (i : TaskId) (s : Task.Sort) : Prop :=
  i < w.nextTask ∧ ∀ t, w.tasks.find? i = some t → t.sort = s

variable {w v : World} {i : TaskId} {s : Task.Sort}

/-- A task is of its own kind. -/
theorem Kind.of_find? (hw : w.Fresh) {t : Task} (ht : w.tasks.find? i = some t) :
    w.Kind i t.sort := by
  refine ⟨hw.lt ht, ?_⟩
  intro t' ht'
  rw [ht] at ht'
  cases ht'
  rfl

/-- A number has one kind. -/
theorem Kind.unique {t : Task} (h : w.Kind i s) (ht : w.tasks.find? i = some t) : t.sort = s :=
  h.2 t ht

/-- No deed takes a number back. -/
theorem does_nextTask (w : World) (d : Deed) : w.nextTask ≤ (w.does d).nextTask := by
  cases d with
  | spawn t => exact Nat.le_succ _
  | call c => exact Nat.le_of_eq (w.perform_nextTask c.2).symm
  | _ => exact Nat.le_refl _

/-- No deed changes the sort of what is filed under a number. -/
theorem Kind.does (h : w.Kind i s) (d : Deed) : (w.does d).Kind i s := by
  refine ⟨Nat.lt_of_lt_of_le h.1 (w.does_nextTask d), ?_⟩
  intro t ht
  cases d with
  | spawn t' =>
      have hin : (w.tasks.insert w.nextTask t').find? i = some t := ht
      rw [Table.find?_insert_of_ne _ t' (Nat.ne_of_lt h.1)] at hin
      exact h.2 t hin
  | cancel id =>
      have hc := w.cancel_find? id i
      have hin : (w.cancel id).tasks.find? i = some t := ht
      rw [hin, Option.map_some] at hc
      obtain ⟨t', ht', hcore⟩ := Option.map_eq_some_iff.mp hc.symm
      rw [← t.core_sort, ← hcore, t'.core_sort]
      exact h.2 t' ht'
  | remove id =>
      have hin : (w.tasks.erase id).find? i = some t := ht
      rw [Table.find?_erase] at hin
      split at hin
      · cases hin
      · exact h.2 t hin
  | call c =>
      rw [World.does, perform_tasks] at ht
      exact h.2 t ht
  | _ => exact h.2 t ht

/-- Deeds change no kind. -/
theorem Via.kind {D : Deed → Prop} (hv : w.Via D v) (h : w.Kind i s) : v.Kind i s :=
  hv.keeps (P := fun u => u.Kind i s) (fun _ d _ hu => hu.does d) h

/-- Deeds take no number back. -/
theorem Via.nextTask {D : Deed → Prop} (hv : w.Via D v) : w.nextTask ≤ v.nextTask :=
  hv.keeps (P := fun u => w.nextTask ≤ u.nextTask)
    (fun u d _ hu => Nat.le_trans hu (u.does_nextTask d)) (Nat.le_refl _)

/-- A task written back is of the kind it was. -/
theorem Kind.put (h : w.Kind i s) (id : TaskId) (left : Option Task)
    (hleft : i = id → ∀ t, left = some t → t.sort = s) : (w.put id left).Kind i s := by
  refine ⟨by rw [put_nextTask]; exact h.1, ?_⟩
  intro t ht
  rw [put_find?] at ht
  split at ht
  · rename_i hi
    exact hleft hi t ht
  · exact h.2 t ht

/-- No move changes the sort of what is filed under a number. -/
theorem Kind.move (h : w.Kind i s) {m : Move} (hm : w.Admits m) : (w.move m).Kind i s := by
  have hsame : ∀ u : World, u.tasks = w.tasks → u.nextTask = w.nextTask → u.Kind i s := by
    intro u ht hn
    exact ⟨hn ▸ h.1, by rw [ht]; exact h.2⟩
  cases hset : m.setsUp with
  | true => exact hsame _ (move_setUp hset hm).tasks (move_setUp hset hm).nextTask
  | false =>
      cases m with
      | step id =>
          obtain ⟨t, ht, -, he⟩ := move_step hm
          rw [he]
          refine ((t.act_via id w).kind h).put id _ ?_
          rintro rfl t' ht'
          exact (Task.act_sort ht').trans (h.2 t ht)
      | launch o => exact h.does (.spawn (.operation o))
      | collect id => exact h.does (.remove id)
      | call c => exact h.does (.call c)
      | pass t => exact hsame _ rfl rfl
      | disturb f => exact hsame _ rfl rfl
      | reach value => exact hsame _ rfl rfl
      | _ => cases hset

/-- Numbers of tasks are given out in order. -/
theorem move_nextTask {m : Move} (hm : w.Admits m) : w.nextTask ≤ (w.move m).nextTask := by
  cases hset : m.setsUp with
  | true => exact Nat.le_of_eq (move_setUp hset hm).nextTask.symm
  | false =>
      cases m with
      | step id =>
          obtain ⟨t, -, -, he⟩ := move_step hm
          rw [he, put_nextTask]
          exact (t.act_via id w).nextTask
      | launch o => exact w.does_nextTask (.spawn (.operation o))
      | call c => exact w.does_nextTask (.call c)
      | collect id => exact Nat.le_refl _
      | pass t => exact Nat.le_refl _
      | disturb f => exact Nat.le_refl _
      | reach value => exact Nat.le_refl _
      | _ => cases hset

/-! ## Slots of runners -/

/-- In every runner's slot there is the number of a worker. -/
def Seated (w : World) : Prop :=
  ∀ name r s, w.runners.find? name = some r → r.slot = some s → w.Kind s.task .worker

/-- A deed that puts nobody else into a runner's slot. -/
def KeepsSeats (w : World) : Deed → Prop
  | .runner _ f => ∀ r s, (f r).slot = some s →
      (∃ s', r.slot = some s' ∧ s'.task = s.task) ∨ w.Kind s.task .worker
  | _ => True

/-- Deeds that put nobody else into slots. -/
theorem Seated.via {D : Deed → Prop} (h : w.Seated) (hv : w.Via D v)
    (hD : ∀ d, D d → w.KeepsSeats d) : v.Seated := by
  have hslots : ∀ name r s, v.runners.find? name = some r → r.slot = some s →
      w.Kind s.task .worker := by
    refine hv.keeps (P := fun u => ∀ name r s, u.runners.find? name = some r → r.slot = some s →
      w.Kind s.task .worker) ?_ h
    intro u d hd hu name r s hr hs
    have hk := hD d hd
    cases d with
    | runner n f =>
        have hin : (u.runners.modify n f).find? name = some r := hr
        rw [Table.find?_modify] at hin
        split at hin
        · obtain ⟨r', hr', rfl⟩ := Option.map_eq_some_iff.mp hin
          rcases hk r' s hs with ⟨s', hs', he⟩ | hw
          · rw [← he]
            exact hu n r' s' hr' hs'
          · exact hw
        · exact hu name r s hin hs
    | call c =>
        rw [does, perform_runners] at hr
        exact hu name r s hr hs
    | _ => exact hu name r s hr hs
  intro name r s hr hs
  exact hv.kind (hslots name r s hr hs)

/-- A change of a runner that spares its slot keeps the seats. -/
theorem keepsSeats_of_bare {name : String} {f : Runner → Runner} (h : ∀ r, (f r).bare = r.bare) :
    w.KeepsSeats (.runner name f) := by
  intro r s hs
  have he : (f r).bare.slot = r.bare.slot := by rw [h r]
  exact .inl ⟨s, he.symm.trans hs, rfl⟩

/-- A deed that keeps the books keeps the seats. -/
theorem keepsSeats_of_keeps {d : Deed} (h : d.Keeps) : w.KeepsSeats d := by
  cases h with
  | record h => trivial
  | runner h => exact keepsSeats_of_bare h

end World

/-- A deed that is none of the runner's keeps the seats. -/
theorem Deed.Aside.keepsSeats {w : World} {d : Deed} (h : d.Aside) : w.KeepsSeats d := by
  cases d with
  | runner name f => exact h.elim
  | _ => trivial

namespace Enqueue

variable {e : Enqueue} {w u v : World}

/-- Putting a job into a queue may start a worker, which then sits in the slot. -/
theorem push_seated (hw : w.Seated) (name : String) (job : Job) :
    (push w name job).Seated := by
  unfold push
  split
  · exact hw
  · have hq : (w.modifyRunner name fun r => { r with pending := r.pending ++ [job] }).Seated := by
      refine hw.via (D := fun d => d = .runner name _) (World.Via.same.runner rfl) ?_
      rintro d rfl r s hs
      exact .inl ⟨s, hs, rfl⟩
    simp only
    split
    · exact hq
    · rename_i r hr hslot
      intro n r' s hr' hs
      have hkind : ∀ {i : TaskId}, w.Kind i .worker → World.Kind _ i .worker := fun hk =>
        hk.does (.spawn (.worker ⟨name, r.generations + 1, false, .starting⟩))
      have hin := (Table.find?_modify _ _ _ _).symm.trans hr'
      split at hin
      · obtain ⟨r₀, -, rfl⟩ := Option.map_eq_some_iff.mp hin
        cases hs
        refine ⟨Nat.lt_succ_self _, ?_⟩
        intro t ht
        have hfind : (w.tasks.insert w.nextTask _).find? w.nextTask = some t := ht
        rw [Table.find?_insert_self] at hfind
        cases hfind
        rfl
      · exact hkind (hq n r' s hin hs)

/-- A turn of a hand-in puts at most a new worker into a slot. -/
theorem Turn.seated {self : TaskId} {next : Progress Enqueue EnqueueOutcome}
    (h : e.Turn self w next v) (hw : w.Seated) : v.Seated := by
  have hcall : ∀ {a : Answer} {c : Call a} {r : Except StoreError a.Value} {u : World},
      w.perform c = (r, u) → u.Seated := by
    intro a c r u ha
    exact hw.via (D := fun d => d = .call ⟨a, c⟩) (World.Via.same.of_perform ha rfl) (by
      rintro d rfl
      trivial)
  have hbooks : ∀ {u : World}, u.Seated → u.Via e.Books v → v.Seated :=
    fun hu hv => hu.via hv fun _ hd => World.keepsSeats_of_keeps hd.keeps
  cases h with
  | homeless hr => exact hw
  | overflows hr hp hfull hv => exact hbooks hw hv
  | enters hr hp hroom =>
      refine hw.via (D := fun d => d = .runner e.runner _) (World.Via.same.runner rfl) ?_
      rintro d rfl r s hs
      exact .inl ⟨s, hs, rfl⟩
  | reads hr hp ha hfree => exact hcall (a := .text) ha
  | declines hr hp ha hv => exact hbooks (hcall (a := .text) ha) hv
  | misses hr hp ha hv => exact hbooks (hcall (a := .text) ha) hv
  | loses hr hp ha hv => exact hbooks (hcall (a := .flag) ha) hv
  | fails hr hp ha hv => exact hbooks (hcall (a := .flag) ha) hv
  | @wins r held u hr hp ha =>
      have hu : u.Seated := hcall (a := .flag) ha
      have hcount : ((u.log (.runner (.enqueued e.job))).count e.runner fun s =>
          { s with enqueued := s.enqueued + 1 }).Seated := by
        refine hu.via (D := fun d => d = .record _ rfl ∨ d = .runner e.runner _)
          (World.Via.count (World.Via.same.log (.inl rfl)) (.inr rfl)) ?_
        rintro d (rfl | rfl)
        · trivial
        · exact fun r s hs => .inl ⟨s, hs, rfl⟩
      refine (push_seated hcount e.runner e.job).via (D := fun d => d = .runner e.runner _)
        (World.Via.same.runner rfl) ?_
      rintro d rfl r s hs
      exact .inl ⟨s, hs, rfl⟩

end Enqueue

/-- What a task that hands nothing in may do puts nobody else into a slot. -/
theorem Task.MayDo.keepsSeats {w : World} {t : Task} {d : Deed} (h : Task.MayDo w t d)
    (hin : t.handIn? = none) (hw : w.Seated) : w.KeepsSeats d := by
  cases d with
  | runner name f =>
      cases h with
      | aside h => exact h.elim
      | handIn ht _ =>
          rw [hin] at ht
          cases ht
      | worker _ h =>
          cases h with
          | runner hf =>
              intro r s hs
              rcases (hf r).2 with he | he
              · exact .inl ⟨s, he.symm.trans hs, rfl⟩
              · rw [he] at hs
                cases hs
      | stopRunner _ _ hf =>
          intro r s hs
          rcases hf r with he | he | ⟨r', s', hr', hs', he⟩
          · exact .inl ⟨s, he.symm.trans hs, rfl⟩
          · rw [he] at hs
            cases hs
          · rw [hs] at he
            rw [Option.some.inj he]
            exact .inr (hw name r' s' hr' hs')
      | control _ h =>
          cases h with
          | aside h => exact h.elim
  | _ => trivial

namespace World

variable {w : World}

/-- Every move leaves workers in the slots. -/
theorem Seated.move (h : w.Seated) (hs : w.Sound) {m : Move} (hm : w.Admits m) :
    (w.move m).Seated := by
  have hsame : (∀ name r, (w.move m).runners.find? name = some r →
      w.runners.find? name = some r ∨ r.slot = none) → (w.move m).Seated := by
    intro hr name r s hf hslot
    rcases hr name r hf with hold | hnew
    · exact (h name r s hold hslot).move hm
    · rw [hnew] at hslot
      cases hslot
  cases hset : m.setsUp with
  | true =>
      refine hsame ?_
      intro name r hr
      rcases (move_setUp hset hm).runners with he | ⟨n, config, worker, -, -, he⟩
      · exact .inl (he ▸ hr)
      · rw [he, Table.find?_insert] at hr
        split at hr
        · cases hr
          exact .inr rfl
        · exact .inl hr
  | false =>
      cases m with
      | step id =>
          obtain ⟨t, ht, -, he⟩ := move_step hm
          have hacted : (t.act id w).2.Seated := by
            cases hin : t.handIn? with
            | none => exact h.via (t.act_via id w) fun _ hd => hd.keepsSeats hin h
            | some e =>
                cases Task.act_handIn id w hin with
                | givesUp _ _ hv =>
                    rw [hv]
                    refine h.via (D := fun d => d = .runner e.runner _)
                      (World.Via.same.runner rfl) ?_
                    rintro d rfl r s hs
                    refine .inl ⟨s, ?_, rfl⟩
                    rw [← hs]
                    simp only
                    split <;> rfl
                | steps _ aside _ =>
                    exact ((e.step_turn id w).seated h).via aside fun _ hd => hd.keepsSeats
          rw [he]
          intro name r s hr hslot
          rw [put_runners] at hr
          refine (hacted name r s hr hslot).put id _ ?_
          rintro hid t' ht'
          rw [Task.act_sort ht']
          by_cases hsort : t.sort = .worker
          · exact hsort
          · have hx := (t.act_via id w).grows hs.fresh fun d hd => hd.grows hsort
            obtain ⟨u, hu, hcore⟩ := hx.find? (hs.fresh.lt ht) ht
            rw [← t.core_sort, ← hcore, u.core_sort]
            exact (hacted name r s hr hslot).unique (hid ▸ hu)
      | call c => exact hsame fun name r hr => .inl ((w.perform_runners c.2) ▸ hr)
      | pass t => exact hsame fun name r hr => .inl hr
      | launch o => exact hsame fun name r hr => .inl hr
      | collect id => exact hsame fun name r hr => .inl hr
      | disturb f => exact hsame fun name r hr => .inl hr
      | reach value => exact hsame fun name r hr => .inl hr
      | _ => cases hset

end World

end JobFleet
