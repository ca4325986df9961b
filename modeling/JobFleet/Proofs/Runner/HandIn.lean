import JobFleet.Proofs.Fleet.WorldDeeds

/-!
# The turns of a hand-in

Every step of handing in a job is one of a few turns. The first makes no call; the second reads
the key's status and the third claims it, each with one call. Only a claim that the store grants
takes the job into the queue.
-/

namespace JobFleet.Enqueue

/-- What a key may hold for its job to be handed in: nothing, or that the last one failed. -/
def Free (held : Option String) : Prop := ∀ raw, held = some raw → raw = JobStatus.failed.text

/-- A status that does not block is the one of a failure. -/
theorem text_of_free {raw : String} {status : JobStatus} (h : JobStatus.ofText? raw = some status)
    (hb : status.blocks = false) : raw = JobStatus.failed.text := by
  unfold JobStatus.ofText? at h
  split at h
  · cases h
    cases hb
  · split at h
    · cases h
      cases hb
    · split at h
      · cases h
        cases hb
      · split at h
        · rename_i hf
          exact hf
        · cases h

/-- A deed that only the books of a hand-in's runner notice: what it tells and counts, and that
its gate opens. -/
inductive Books (e : Enqueue) : Deed → Prop
  | record {r : Record} {hc : r.call? = none} (h : r.Plain) : Books e (.record r hc)
  | count {f : Runner.Stats → Runner.Stats} :
      Books e (.runner e.runner fun r => { r with stats := f r.stats })
  | leaves : Books e (.runner e.runner fun r => { r with gate := none })

/-- What a hand-in does keeps the books. -/
theorem Books.keeps {e : Enqueue} {d : Deed} (h : e.Books d) : d.Keeps := by
  cases h with
  | record h => exact .record h
  | count => exact .runner fun _ => rfl
  | leaves => exact .runner fun _ => rfl

/-- A turn of a hand-in: how it goes on, and the world afterwards. -/
inductive Turn (self : TaskId) (e : Enqueue) (w : World) :
    Progress Enqueue EnqueueOutcome → World → Prop
  | homeless (hr : w.runners.find? e.runner = none) : Turn self e w (.ended .unavailable) w
  | overflows {r : Runner} {v : World} (hr : w.runners.find? e.runner = some r)
      (hp : e.phase = .waiting) (hfull : r.config.capacity ≤ r.pending.length)
      (hv : w.Via e.Books v) : Turn self e w (.ended .queueFull) v
  | enters {r : Runner} (hr : w.runners.find? e.runner = some r) (hp : e.phase = .waiting)
      (hroom : r.pending.length < r.config.capacity) :
      Turn self e w (.on { e with phase := .reading })
        (w.modifyRunner e.runner fun r => { r with gate := some self })
  | reads {r : Runner} {held : Option String} {u : World}
      (hr : w.runners.find? e.runner = some r) (hp : e.phase = .reading)
      (ha : w.perform (.get e.job.key.statusKey) = (.ok held, u)) (hfree : Free held) :
      Turn self e w (.on { e with phase := .claiming held }) u
  | declines {r : Runner} {held : Option String} {u v : World}
      (hr : w.runners.find? e.runner = some r) (hp : e.phase = .reading)
      (ha : w.perform (.get e.job.key.statusKey) = (.ok held, u)) (hv : u.Via e.Books v) :
      Turn self e w (.ended .duplicate) v
  | misses {r : Runner} {cause : StoreError} {u v : World}
      (hr : w.runners.find? e.runner = some r) (hp : e.phase = .reading)
      (ha : w.perform (.get e.job.key.statusKey) = (.error cause, u)) (hv : u.Via e.Books v) :
      Turn self e w (.ended .unavailable) v
  | wins {r : Runner} {held : Option String} {u : World}
      (hr : w.runners.find? e.runner = some r) (hp : e.phase = .claiming held)
      (ha : w.perform (e.claim r.config.queuedTtl held) = (.ok true, u)) :
      Turn self e w (.ended .enqueued) (e.accept u).2
  | loses {r : Runner} {held : Option String} {u v : World}
      (hr : w.runners.find? e.runner = some r) (hp : e.phase = .claiming held)
      (ha : w.perform (e.claim r.config.queuedTtl held) = (.ok false, u))
      (hv : u.Via e.Books v) : Turn self e w (.ended .duplicate) v
  | fails {r : Runner} {held : Option String} {cause : StoreError} {u v : World}
      (hr : w.runners.find? e.runner = some r) (hp : e.phase = .claiming held)
      (ha : w.perform (e.claim r.config.queuedTtl held) = (.error cause, u))
      (hv : u.Via e.Books v) : Turn self e w (.ended .unavailable) v

variable (e : Enqueue) {w v : World}

/-- Logging an outcome is in the books of the hand-in. -/
theorem conclude_books {outcome : EnqueueOutcome} {event : Runner.Event}
    (he : (Record.logged (.runner event)).Plain) (h : w.Via e.Books v) :
    w.Via e.Books (e.conclude outcome event v).2 :=
  World.Via.runner (h.log (.record he)) .leaves

/-- Counting and logging a duplicate is in its books. -/
theorem concludeDuplicate_books {event : Runner.Event}
    (he : (Record.logged (.runner event)).Plain) (h : w.Via e.Books v) :
    w.Via e.Books (e.concludeDuplicate event v).2 :=
  e.conclude_books he (h.count (.count (f := fun s => { s with duplicates := s.duplicates + 1 })))

/-- What was read decides whether the key is claimed. -/
theorem judge_turn {self : TaskId} {r : Runner} {held : Option String}
    (hr : w.runners.find? e.runner = some r) (hp : e.phase = .reading)
    (ha : w.perform (.get e.job.key.statusKey) = (.ok held, v)) :
    e.Turn self w (e.judge held v).1 (e.judge held v).2 := by
  unfold judge
  split
  · exact .reads hr hp ha nofun
  · split
    · rename_i raw _ status hs
      split
      · exact .declines hr hp ha (e.concludeDuplicate_books ⟨rfl, rfl⟩ .same)
      · rename_i hb
        refine .reads hr hp ha ?_
        intro raw' he
        rw [← Option.some.inj he]
        exact text_of_free hs (Bool.eq_false_iff.mpr hb)
    · exact .declines hr hp ha (e.concludeDuplicate_books ⟨rfl, rfl⟩ .same)

/-- Every step of a hand-in is one of its turns. -/
theorem step_turn (self : TaskId) (w : World) :
    e.Turn self w (e.step self w).1 (e.step self w).2 := by
  unfold step
  split
  · rename_i hr
    exact .homeless hr
  · rename_i r hr
    split
    · rename_i hp
      split
      · rename_i hfull
        exact .overflows hr hp hfull (e.conclude_books ⟨rfl, rfl⟩ .same)
      · rename_i hroom
        exact .enters hr hp (Nat.lt_of_not_le hroom)
    · rename_i hp
      split
      · rename_i ha
        exact e.judge_turn hr hp ha
      · rename_i ha
        exact .misses hr hp ha (e.conclude_books ⟨rfl, rfl⟩ .same)
    · rename_i held hp
      split
      · rename_i ha
        exact .wins hr hp ha
      · rename_i ha
        exact .loses hr hp ha (e.concludeDuplicate_books ⟨rfl, rfl⟩ .same)
      · rename_i ha
        exact .fails hr hp ha (e.conclude_books ⟨rfl, rfl⟩ .same)

/-! ## What a hand-in may do -/

/-- What handing in a job may do, given the world in which the step is taken. -/
inductive MayDo (w : World) (e : Enqueue) : Deed → Prop
  | record {r : Record} {hc : r.call? = none} (h : r.tellsStuck = false) :
      MayDo w e (.record r hc)
  | read : MayDo w e (.call ⟨.text, .get e.job.key.statusKey⟩)
  | claim {r : Runner} {held : Option String} (hr : w.runners.find? e.runner = some r)
      (h : e.phase = .claiming held) :
      MayDo w e (.call ⟨.flag, e.claim r.config.queuedTtl held⟩)
  | runner {f : Runner → Runner} (h : ∀ r, (f r).config = r.config) :
      MayDo w e (.runner e.runner f)
  | spawn {r : Runner} {generation : Nat} (h : w.runners.find? e.runner = some r) :
      MayDo w e (.spawn (.worker ⟨e.runner, generation, false, .starting⟩))

/-- A claim writes the status of the job. -/
theorem claim_target (ttl : Duration) (held : Option String) :
    (e.claim ttl held).target = some e.job.key.statusKey := by
  cases held <;> rfl

variable {e}

/-- What is in its books a hand-in may do. -/
theorem MayDo.books {u : World} (hu : w.Via (e.MayDo w) u) (h : u.Via e.Books v) :
    w.Via (e.MayDo w) v := by
  refine hu.trans (h.mono ?_)
  intro d hd
  cases hd with
  | record h => exact .record h.1
  | count => exact .runner fun _ => rfl
  | leaves => exact .runner fun _ => rfl

/-- A hand-in may push its job. -/
theorem push_via {r : Runner} (hr : w.runners.find? e.runner = some r)
    (h : w.Via (e.MayDo w) v) : w.Via (e.MayDo w) (push v e.runner e.job) := by
  unfold push
  split
  · exact h
  · simp only
    split
    · exact h.runner (.runner fun _ => rfl)
    · refine World.Via.runner (World.Via.spawn (World.Via.runner h ?_) (.spawn hr)) ?_
      · exact .runner fun _ => rfl
      · exact .runner fun _ => rfl

/-- A hand-in may take its job in. -/
theorem accept_via {r : Runner} (hr : w.runners.find? e.runner = some r)
    (h : w.Via (e.MayDo w) v) : w.Via (e.MayDo w) (e.accept v).2 := by
  have hc : w.Via (e.MayDo w) ((v.log (.runner (.enqueued e.job))).count e.runner fun s =>
      { s with enqueued := s.enqueued + 1 }) :=
    World.Via.count (h.log (.record rfl)) (.runner fun _ => rfl)
  exact World.Via.runner (push_via hr hc) (.runner fun _ => rfl)

/-- A turn of a hand-in does nothing but what it may. -/
theorem Turn.via {self : TaskId} {next : Progress Enqueue EnqueueOutcome}
    (h : e.Turn self w next v) : w.Via (e.MayDo w) v := by
  cases h with
  | homeless hr => exact .same
  | overflows hr hp hfull hv => exact MayDo.books .same hv
  | enters hr hp hroom => exact World.Via.same.runner (.runner fun _ => rfl)
  | reads hr hp ha hfree => exact World.Via.same.of_perform ha .read
  | declines hr hp ha hv => exact MayDo.books (World.Via.same.of_perform ha .read) hv
  | misses hr hp ha hv => exact MayDo.books (World.Via.same.of_perform ha .read) hv
  | wins hr hp ha => exact accept_via hr (World.Via.same.of_perform ha (.claim hr hp))
  | loses hr hp ha hv => exact MayDo.books (World.Via.same.of_perform ha (.claim hr hp)) hv
  | fails hr hp ha hv => exact MayDo.books (World.Via.same.of_perform ha (.claim hr hp)) hv

/-- Handing in a job does nothing but what it may. -/
theorem step_via (e : Enqueue) (self : TaskId) (w : World) :
    w.Via (e.MayDo w) (e.step self w).2 :=
  (e.step_turn self w).via

/-- A hand-in may be abandoned. -/
theorem abandon_via (e : Enqueue) (self : TaskId) (w : World) :
    w.Via (e.MayDo w) (e.abandon self w) := by
  refine World.Via.same.runner (.runner ?_)
  intro r
  split <;> rfl

end JobFleet.Enqueue
