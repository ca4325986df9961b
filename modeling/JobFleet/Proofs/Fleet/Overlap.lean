import JobFleet.Proofs.Fleet.Exclusion
import JobFleet.Proofs.Fleet.Sessions

/-!
# A stop that a start overtakes

A stop takes the session of a scheduler away, waits for its tasks and gives the lock back in the
end, under the scheduler's one token. If the lock lapses meanwhile and a start takes it anew, the
token is the same, and the stop gives back the lock of the new session. In no other way a session
loses its lock to a stop: as long as the session is the scheduler's own, the lock goes by lapsing,
by somebody else's writing, or to a stop that had begun before the session did.
-/

namespace JobFleet

/-- What is asked of a lock leaves it with whom it is held by, unless it is given back under that
token. -/
theorem Lock.Asks.leaves {l : Lock} {c : Call .flag} (h : l.Asks c) (now : Nat)
    {held : Option Entry} {token : String} (hheld : held.map Entry.value = some token) :
    (c.leaves now held).map Entry.value = some token ∨
      c = l.release ∧ l.token = token ∧ c.leaves now held = none := by
  obtain ⟨e, rfl, hvalue⟩ := Option.map_eq_some_iff.mp hheld
  cases h with
  | acquire => exact .inl hheld
  | extend =>
      left
      by_cases ht : some e.value = some l.token
      · have heffect : l.extend.effect now (some e) =
            .ok (true, some ⟨l.token, some (Clock.expiry now l.ttl)⟩) := if_pos ht
        rw [Call.leaves, heffect, ← hvalue]
        exact ht.symm
      · have heffect : l.extend.effect now (some e) = .ok (false, some e) := if_neg ht
        rw [Call.leaves, heffect]
        exact hheld
  | release =>
      by_cases ht : some e.value = some l.token
      · have heffect : l.release.effect now (some e) = .ok (true, none) := if_pos ht
        refine .inr ⟨rfl, ?_, by rw [Call.leaves, heffect]⟩
        rw [← hvalue]
        exact (Option.some.inj ht).symm
      · left
        have heffect : l.release.effect now (some e) = .ok (false, some e) := if_neg ht
        rw [Call.leaves, heffect]
        exact hheld

namespace World

/-- The key of a lock holds the token of its owner. -/
def Held (l : Lock) (w : World) : Prop :=
  (w.entry (lockKey l.name)).map Entry.value = some l.token

instance (l : Lock) (w : World) : Decidable (w.Held l) :=
  inferInstanceAs (Decidable (_ = _))

/-- A stop of a scheduler gives the lock back in its next step, and that takes effect. -/
def GivesBack (q : TaskId) (name : String) (l : Lock) (w : World) : Prop :=
  w.role q = some (.stops name .releasing) ∧ w.lock? name = some l ∧
    (w.perform l.release).2.entry (lockKey l.name) = none

/-- In the course of a history a start of a scheduler took the lock and began a session while a
stop of the scheduler had begun already. -/
def Overtakes (name : String) (session : Schedule.Session) (q : TaskId) (start : World)
    (ms : List Move) : Prop :=
  ∃ first m last p, ms = first ++ m :: last ∧
    (start.after first).role q = some (.stops name p) ∧ p ≠ .entering ∧
    (start.after first).Wins name m ∧
    ((start.after first).move m).session? name = some session

variable {w u : World} {l : Lock} {id : TaskId}

/-- A hold is read off the entry of the lock. -/
theorem Held.of_entry (h : w.Held l)
    (he : u.entry (lockKey l.name) = w.entry (lockKey l.name)) : u.Held l := by
  unfold Held
  rw [he]
  exact h

/-- A free lock is held by nobody. -/
theorem not_held_of_none (h : w.entry (lockKey l.name) = none) : ¬ w.Held l := by
  unfold Held
  rw [h]
  nofun

/-! ## Who takes a lock away -/

/-- A call that is made about some lock leaves a lock held, unless it gives it back. -/
theorem Held.asked (h : w.Held l) (hs : w.Spared (lockKey l.name)) {l' : Lock} {c : Call .flag}
    (hc : l'.Asks c) {a : Except StoreError Bool} (ha : w.perform c = (a, u)) :
    u.Held l ∨ c = l'.release ∧ l'.name = l.name ∧ l'.token = l.token ∧
      u.entry (lockKey l.name) = none := by
  by_cases hn : l'.name = l.name
  · have hends := w.perform_ends c (hn ▸ hc.key) hs
    rw [ha] at hends
    rcases hends.entry_eq with hsame | hleaves
    · exact .inl (h.of_entry hsame)
    · rcases hc.leaves w.now h with hkept | ⟨hrelease, htoken, hnone⟩
      · left
        rw [← hleaves] at hkept
        exact hkept
      · exact .inr ⟨hrelease, hn, htoken, hleaves.trans hnone⟩
  · exact .inl (h.of_entry (hc.entry_of_ne hs ha hn))

/-- An extender takes no lock away. -/
theorem Held.extender (h : w.Held l) (hs : w.Spared (lockKey l.name)) {x : Schedule.Extender}
    {next : Progress Schedule.Extender Unit} (hturn : x.Turn w next u) : u.Held l := by
  have hasked : ∀ {a v}, w.perform x.lock.extend = (a, v) → v.Held l := by
    intro a v ha
    rcases h.asked hs .extend ha with hv | ⟨hcall, -⟩
    · exact hv
    · cases hcall
  cases hturn with
  | quits hp hc => exact h
  | wakes hp hc => exact h
  | renews hp ha => exact (hasked ha :)
  | demotes hp ha hne => exact (hasked ha :)

/-- A start takes no lock away. -/
theorem Held.starts (h : w.Held l) (hs : w.Spared (lockKey l.name)) {name : String}
    {p : Schedule.StartPhase} {next : Progress Schedule.StartPhase Bool}
    (hturn : p.Turn id name w next u) : u.Held l := by
  have hasked : ∀ {l' : Lock} {a v}, w.perform l'.acquire = (a, v) → v.Held l := by
    intro l' a v ha
    rcases h.asked hs .acquire ha with hv | ⟨hcall, -⟩
    · exact hv
    · cases hcall
  cases hturn with
  | misses hs' => exact h
  | rests hs' hp hr => exact h
  | enters hs' hp hr => exact h
  | wins hs' hp ha => exact (hasked ha :)
  | loses hs' hp ha hne => exact (hasked ha :)

/-- A stop takes a lock away only by giving it back. -/
theorem Held.stops (h : w.Held l) (hs : w.Spared (lockKey l.name)) {name : String}
    {p : Schedule.StopPhase} (hrole : w.role id = some (.stops name p))
    {next : Progress Schedule.StopPhase Unit} (hturn : p.Turn name w next u) :
    u.Held l ∨ ∃ l', w.GivesBack id name l' ∧ l'.name = l.name ∧ l'.token = l.token := by
  cases hturn with
  | misses hs' => exact .inl h
  | rests hs' hp hn => exact .inl h
  | takes hs' hp hn => exact .inl h
  | cancels hs' hp => exact .inl h
  | waits hs' hp => exact .inl h
  | @releases s a u hs' hp ha =>
      rcases h.asked hs .release ha with hu | ⟨-, hname, htoken, hnone⟩
      · exact .inl hu
      · refine .inr ⟨s.lock, ⟨by rw [hrole, hp], ?_, ?_⟩, hname, htoken⟩
        · rw [lock?, hs']
          rfl
        · rw [ha, hname]
          exact hnone

/-- A step of a task that controls a scheduler leaves a lock held, unless the task is a stop that
gives it back. -/
theorem Held.step (h : w.Held l) (hs : w.Spared (lockKey l.name)) {t : Task}
    (ht : w.tasks.find? id = some t) (hc : t.controls = true) (hm : w.Admits (.step id)) :
    (w.move (.step id)).Held l ∨
      ∃ name l', w.GivesBack id name l' ∧ l'.name = l.name ∧ l'.token = l.token := by
  obtain ⟨t', ht', -, he⟩ := move_step hm
  cases ht.symm.trans ht'
  have hput : (t.act id w).2.Held l → (w.move (.step id)).Held l := by
    intro hu
    rw [he]
    exact hu.of_entry (put_entry ..)
  rcases Task.controls_cases hc with ⟨x, rfl⟩ | ⟨name, p, hp⟩ | ⟨name, p, hp⟩
  · exact .inl (hput (h.extender hs (x.step_turn w)))
  · obtain ⟨-, -, next, hturn⟩ := Task.act_starts id w hp
    exact .inl (hput (h.starts hs hturn))
  · obtain ⟨next, hturn, -⟩ := Task.act_stops id w hp
    rcases h.stops hs ((role_of_find? ht).trans hp) hturn with hu | hback
    · exact .inl (hput hu)
    · exact .inr ⟨name, hback⟩

/-- The turn of a stop that gives a lock back takes it away. -/
theorem GivesBack.turn {name : String} (h : w.GivesBack id name l)
    {next : Progress Schedule.StopPhase Unit}
    (hturn : Schedule.StopPhase.releasing.Turn name w next u) :
    u.entry (lockKey l.name) = none := by
  obtain ⟨-, hl, hnone⟩ := h
  cases hturn with
  | misses hs' =>
      rw [lock?, hs'] at hl
      cases hl
  | rests _ hp _ => cases hp
  | takes _ hp _ => cases hp
  | cancels _ hp => cases hp
  | waits _ hp => cases hp
  | @releases s a u hs' hp' ha =>
      rw [lock?, hs'] at hl
      cases hl
      rw [ha] at hnone
      exact hnone

/-- A stop that gives a lock back has taken it away. -/
theorem GivesBack.move {name : String} (h : w.GivesBack id name l) (hm : w.Admits (.step id)) :
    (w.move (.step id)).entry (lockKey l.name) = none := by
  obtain ⟨t, ht, hp⟩ := Option.bind_eq_some_iff.mp h.1
  obtain ⟨t', ht', -, he⟩ := move_step hm
  cases ht.symm.trans ht'
  obtain ⟨next, hturn, -⟩ := Task.act_stops id w hp
  rw [he, put_entry]
  exact h.turn hturn

/-- A held lock is taken away where it lapses or where a stop gives it back, if nobody else writes
its key. -/
theorem Held.lost_iff (h : w.Held l) (hs : w.Spared (lockKey l.name)) {m : Move}
    (hm : w.Admits m) (hi : ¬ w.Intrudes (lockKey l.name) m) :
    ¬ (w.move m).Held l ↔ w.Lapses (lockKey l.name) m ∨
      ∃ q name l', m = .step q ∧ w.GivesBack q name l' ∧ l'.name = l.name ∧
        l'.token = l.token := by
  constructor
  · intro hlost
    by_cases hl : w.Lapses (lockKey l.name) m
    · exact .inl hl
    · right
      by_cases hc : ∃ q t, m = .step q ∧ w.tasks.find? q = some t ∧ t.controls = true
      · obtain ⟨q, t, rfl, ht, hc⟩ := hc
        rcases h.step hs ht hc hm with hheld | ⟨name, l', hback, hn, ht'⟩
        · exact absurd hheld hlost
        · exact ⟨q, name, l', rfl, hback, hn, ht'⟩
      · refine absurd (h.of_entry (lock_kept hs hm hi hl ?_)) hlost
        intro q t hq ht
        exact Bool.eq_false_iff.mpr fun hc' => hc ⟨q, t, hq, ht, hc'⟩
  · rintro (hl | ⟨q, name, l', rfl, hback, hn, -⟩)
    · cases m with
      | pass t => exact not_held_of_none hl.2
      | _ => exact hl.elim
    · exact not_held_of_none (hn ▸ hback.move hm)

/-! ## Whose lock a stop takes away -/

variable {start : World} {ms : List Move} {name : String} {session : Schedule.Session}
  {q : TaskId}

/-- What has overtaken a stop has overtaken it for good. -/
theorem Overtakes.append (h : Overtakes name session q start ms) (ms' : List Move) :
    Overtakes name session q start (ms ++ ms') := by
  obtain ⟨first, m, last, p, rfl, hrest⟩ := h
  exact ⟨first, m, last ++ ms', p, by rw [List.append_assoc, List.cons_append], hrest⟩

/-- While a scheduler has a session, every stop of it that has begun was there before the session:
it would have taken the session away otherwise. -/
theorem History.overtakes {rule : World → Move → Prop} {utc : Int} {s : Store}
    (h : History rule (around utc s) ms w) {p : Schedule.StopPhase}
    (hq : w.role q = some (.stops name p)) (hp : p ≠ .entering)
    (hs : w.session? name = some session) : Overtakes name session q (around utc s) ms := by
  induction h generalizing p with
  | nil => cases hq
  | @snoc ms v m h possible _ ih =>
      have hshift := h.regular.shift possible
      rcases hshift.stops q name p hq hp with ⟨p', hq', hp', -⟩ | ⟨hnone, -⟩
      · rcases hshift.sessions name session hs with hs' | ⟨hwins, -⟩
        · exact (ih hq' hp' hs').append [m]
        · refine ⟨ms, m, [], p', rfl, ?_⟩
          rw [h.after_eq]
          exact ⟨hq', hp', hwins, hs⟩
      · rw [hs] at hnone
        cases hnone

/-- While a session of a scheduler lasts and its lock is held, the lock is taken away in a move that
does not intrude exactly if it lapses or a stop gives it back that had begun before the start of the
session took the lock. -/
theorem held_until_iff {rule : World → Move → Prop} {utc : Int} {s : Store}
    (h : History rule (around utc s) ms w) (hl : w.lock? name = some l)
    (hs : w.session? name = some session) (hd : w.Distinct l.name)
    (hspared : w.Spared (lockKey l.name)) (hheld : w.Held l) {m : Move} (hm : w.Admits m)
    (hi : ¬ w.Intrudes (lockKey l.name) m) :
    ¬ (w.move m).Held l ↔ w.Lapses (lockKey l.name) m ∨
      ∃ q, m = .step q ∧ w.GivesBack q name l ∧ Overtakes name session q (around utc s) ms := by
  rw [hheld.lost_iff hspared hm hi]
  constructor
  · rintro (hlapses | ⟨q, name', l', rfl, hback, hn, ht⟩)
    · exact .inl hlapses
    · obtain rfl := hd name' name l' l hback.2.1 hl hn rfl ht
      obtain rfl := Option.some.inj (hback.2.1.symm.trans hl)
      exact .inr ⟨q, rfl, hback, h.overtakes hback.1 nofun hs⟩
  · rintro (hlapses | ⟨q, rfl, hback, -⟩)
    · exact .inl hlapses
    · exact .inr ⟨q, name, l, rfl, hback, rfl, rfl⟩

/-- A scheduler is started and stopped. Before the stop gives the lock back the lock lapses, and the
scheduler is started again. -/
def overlapping : List Move :=
  [sweeper "a", .launch (.startScheduler "a" .entering), .step 0, .step 0, .step 1,
    .launch (.stopScheduler "a" .entering), .step 3, .step 2, .step 3, .step 1, .step 3,
    .pass 2000000000, .launch (.startScheduler "a" .entering), .step 4, .step 4]

/-- The lock of that scheduler. -/
def sweepLock : Lock := ⟨"sweep", "00000000000000000000000000000001", .ofSecs 2⟩

/-- The stop gives the lock of the second session back, which that session's start had taken after
the stop began. -/
theorem held_until_iff_overlapping :
    ((around 0 .empty).after overlapping).GivesBack 3 "a" sweepLock ∧
      Overtakes "a" ⟨5, 6⟩ 3 (around 0 .empty) overlapping := by
  have h : History (fun _ _ => True) (around 0 .empty) overlapping _ :=
    .of_check (by decide +kernel)
  have horderly : Orderly "sweep" ((around 0 .empty).after overlapping) := by decide +kernel
  have hl : ((around 0 .empty).after overlapping).lock? "a" = some sweepLock := by decide +kernel
  have hs : ((around 0 .empty).after overlapping).session? "a" = some ⟨5, 6⟩ := by decide +kernel
  have hiff := held_until_iff h hl hs horderly.tokens (spared_around 0 .empty _)
    (by decide +kernel) (m := .step 3) (by decide +kernel) (by decide +kernel)
  rcases hiff.mp (by decide +kernel) with hlapses | ⟨q, hq, hback, hover⟩
  · exact absurd hlapses nofun
  · cases hq
    exact ⟨hback, hover⟩

/-- The second start has said that the scheduler runs, and its lock is held. The stop then deletes
the lock, and the main loop, which nobody has cancelled, leads on without it. -/
theorem released_by_overtaken_stop :
    History (fun w m => ¬ w.Intrudes (lockKey "sweep") m ∧ m.Prompt) (around 0 .empty)
        (overlapping ++ [.step 3]) ((around 0 .empty).after (overlapping ++ [.step 3])) ∧
      ((around 0 .empty).after overlapping).tasks.find? 4 = some (.ended (.flag true)) ∧
      ((around 0 .empty).after overlapping).Held sweepLock ∧
      ¬ ((around 0 .empty).after overlapping).Lapses (lockKey "sweep") (.step 3) ∧
      ((around 0 .empty).after (overlapping ++ [.step 3])).entry (lockKey "sweep") = none ∧
      ((around 0 .empty).after (overlapping ++ [.step 3])).Leads "a" 5 :=
  ⟨.of_check (by decide +kernel), by rfl, by decide +kernel, id, by decide +kernel, .start "a",
    by rfl, rfl, rfl⟩

end World

end JobFleet
