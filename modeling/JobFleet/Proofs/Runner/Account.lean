import JobFleet.Proofs.Runner.RunnerSteps

/-!
# The account of a runner

What a runner does with its jobs is a first-in, first-out line: a job is accepted at the end of the
queue, taken from its front by a worker that has nothing in hand, and ends before the next one is
taken. `Account.Posts` is that line with its counts; `Account.Reckons` compares it with the tale of
everything that has happened.
-/

namespace JobFleet.Runner

/-- The count of an item. -/
def Stats.get (s : Stats) : Item → Nat
  | .enqueued => s.enqueued
  | .duplicate => s.duplicates
  | .started => s.started
  | .ended .succeeded => s.succeeded
  | .ended .failed => s.failed
  | .ended .dropped => s.dropped
  | .ended .rejected => s.rejected

/-- Counting an item raises its own count by one. -/
theorem Stats.get_add (s : Stats) (i j : Item) :
    (s.add i).get j = s.get j + if i = j then 1 else 0 := by
  rcases i with _ | _ | _ | v <;> rcases j with _ | _ | _ | v' <;>
    (try cases v) <;> (try cases v') <;> rfl

namespace Episode

/-- The job that is taken into the queue. -/
def accepted? : Episode → Option Job
  | .accepted job => some job
  | _ => none

/-- The job that is taken out of the queue. -/
def taken? : Episode → Option Job
  | .taken job => some job
  | _ => none

/-- The job that ends, and how. -/
def ended? : Episode → Option (Job × Verdict)
  | .ended job v => some (job, v)
  | _ => none

/-- What is counted. -/
def item? : Episode → Option Item
  | .accepted _ => some .enqueued
  | .started _ => some .started
  | .ended _ v => some (.ended v)
  | _ => none

/-- An episode in which no job is taken out of the queue and none ends. -/
def Holds (e : Episode) : Prop := e.taken? = none ∧ e.ended? = none

end Episode

/-- The jobs that wait at a runner, the one that a worker has in hand, and what has been counted. -/
structure Account where
  waiting : List Job
  hand : Option Hand
  stats : Stats
deriving DecidableEq, Repr

namespace Account

variable {a a' : Account} {tale : List Episode} {episode : Option Episode}

/-- What an episode makes of an account; without one, at most a duplicate is counted. -/
inductive Posts (a : Account) : Option Episode → Account → Prop
  | rests : Posts a none a
  | doubles : Posts a none { a with stats := a.stats.add .duplicate }
  | accepts (job : Job) :
      Posts a (some (.accepted job))
        { a with waiting := a.waiting ++ [job], stats := a.stats.add .enqueued }
  | takes {job : Job} {rest : List Job} (hq : a.waiting = job :: rest) (hh : a.hand = none) :
      Posts a (some (.taken job)) { a with waiting := rest, hand := some ⟨job.untried, false⟩ }
  | starts {job : Job} (hh : a.hand = some ⟨job, false⟩) :
      Posts a (some (.started job))
        { a with hand := some ⟨job, true⟩, stats := a.stats.add .started }
  | calls {job : Job} (hh : a.hand = some ⟨job, true⟩) : Posts a (some (.called job)) a
  | ends {h : Hand} (v : Verdict) (hh : a.hand = some h) :
      Posts a (some (.ended h.job v)) { a with hand := none, stats := a.stats.add (.ended v) }

/-- A job that waits, or is in hand. -/
inductive Has (a : Account) : Hand → Prop
  | waits {job : Job} (hq : job ∈ a.waiting) : Has a ⟨job.untried, false⟩
  | inHand {h : Hand} (hh : a.hand = some h) : Has a h

/-- A job that is there after an episode was there before, has been accepted, or has been
started. -/
theorem Posts.has (hp : a.Posts episode a') {h : Hand} (hh : a'.Has h) :
    a.Has h ∨ (∃ job, episode = some (.accepted job) ∧ h = ⟨job.untried, false⟩) ∨
      ∃ job, episode = some (.started job) ∧ h = ⟨job, true⟩ ∧ a.Has ⟨job, false⟩ := by
  cases hp with
  | rests => exact .inl hh
  | calls hin => exact .inl hh
  | doubles =>
      cases hh with
      | waits hq => exact .inl (.waits hq)
      | inHand hh => exact .inl (.inHand hh)
  | accepts job =>
      cases hh with
      | waits hq =>
          rcases List.mem_append.mp hq with hin | hin
          · exact .inl (.waits hin)
          · cases List.mem_singleton.mp hin
            exact .inr (.inl ⟨job, rfl, rfl⟩)
      | inHand hh => exact .inl (.inHand hh)
  | takes hq hnone =>
      cases hh with
      | waits hin => exact .inl (.waits (hq ▸ List.mem_cons_of_mem _ hin))
      | inHand hh =>
          cases hh
          exact .inl (.waits (hq ▸ List.mem_cons_self))
  | @starts job hin =>
      cases hh with
      | waits hq => exact .inl (.waits hq)
      | inHand hh =>
          cases hh
          exact .inr (.inr ⟨job, rfl, rfl, .inHand hin⟩)
  | ends v hin =>
      cases hh with
      | waits hq => exact .inl (.waits hq)
      | inHand hh => cases hh

/-- The job in hand was taken from the queue and has not ended since; if it has begun, it has been
started since. -/
def Traced (tale : List Episode) (h : Hand) : Prop :=
  ∃ before job after, tale = before ++ .taken job :: after ∧ job.untried = h.job ∧
    (∀ e ∈ after, e.Holds) ∧ (h.begun = true → .started h.job ∈ after)

/-- An account that agrees with everything that has happened. -/
structure Reckons (a : Account) (tale : List Episode) : Prop where
  /-- The jobs taken are the first of those accepted, and the others wait. -/
  queue : tale.filterMap Episode.accepted? = tale.filterMap Episode.taken? ++ a.waiting
  /-- The jobs ended are the first of those taken, and the other one is in hand. -/
  hands : (tale.filterMap Episode.taken?).map Job.untried =
    (tale.filterMap Episode.ended?).map Prod.fst ++ a.hand.toList.map Hand.job
  /-- Everything is counted once. -/
  counts : ∀ i, i ≠ .duplicate → a.stats.get i = tale.countP fun e => e.item? = some i
  /-- The job in hand is the one that was taken last. -/
  traced : ∀ h, a.hand = some h → Traced tale h
  /-- A handler is called only for a job in hand that has been started. -/
  called : ∀ before job after, tale = before ++ .called job :: after → Traced before ⟨job, true⟩

/-- The account of a runner that has not been used. -/
theorem reckons_nil : Reckons ⟨[], none, .zero⟩ [] where
  queue := rfl
  hands := rfl
  counts := by
    intro i _
    rcases i with _ | _ | _ | v <;> (try cases v) <;> rfl
  traced := nofun
  called := by
    intro before job after h
    cases before <;> cases h

/-- A job in hand is still in hand when something else happens, and may begin with that. -/
theorem Traced.snoc {job : Job} {begun begun' : Bool} {e : Episode}
    (ht : Traced tale ⟨job, begun⟩) (he : e.Holds)
    (hb : begun' = true → begun = true ∨ e = .started job) :
    Traced (tale ++ [e]) ⟨job, begun'⟩ := by
  obtain ⟨before, job', after, rfl, hjob, hafter, hbegun⟩ := ht
  refine ⟨before, job', after ++ [e], by rw [List.append_assoc, List.cons_append], hjob, ?_, ?_⟩
  · intro e' he'
    rcases List.mem_append.mp he' with hin | hin
    · exact hafter e' hin
    · cases List.mem_singleton.mp hin
      exact he
  · intro hb'
    rcases hb hb' with hwas | rfl
    · exact List.mem_append_left _ (hbegun hwas)
    · exact List.mem_append_right _ List.mem_cons_self

/-- What has been said of the calls so far holds of one call more. -/
theorem called_snoc {e : Episode}
    (h : ∀ before job after, tale = before ++ .called job :: after → Traced before ⟨job, true⟩)
    (he : ∀ job, e = .called job → Traced tale ⟨job, true⟩) :
    ∀ before job after, tale ++ [e] = before ++ .called job :: after →
      Traced before ⟨job, true⟩ := by
  intro before job after hs
  rcases List.eq_nil_or_concat after with rfl | ⟨after', e', rfl⟩
  · obtain ⟨rfl, hlast⟩ := List.append_inj' hs rfl
    exact he job (List.cons.inj hlast).1
  · rw [List.concat_eq_append, ← List.cons_append, ← List.append_assoc] at hs
    exact h before job after' (List.append_inj' hs rfl).1

/-- What is counted grows by what an episode counts. -/
theorem counts_snoc {stats stats' : Stats} {e : Episode}
    (h : ∀ i, i ≠ .duplicate → stats.get i = tale.countP fun e => e.item? = some i)
    (he : ∀ i, stats'.get i = stats.get i + if e.item? = some i then 1 else 0) (i : Item)
    (hi : i ≠ .duplicate) : stats'.get i = (tale ++ [e]).countP fun e => e.item? = some i := by
  rw [he, h i hi, List.countP_append, List.countP_singleton]
  simp only [decide_eq_true_eq]

/-- What is counted by an episode that counts one item. -/
theorem get_add_item (stats : Stats) {e : Episode} {j : Item} (he : e.item? = some j) (i : Item) :
    (stats.add j).get i = stats.get i + if e.item? = some i then 1 else 0 := by
  rw [Stats.get_add, he]
  simp only [Option.some.injEq]

/-- An account that agrees with the tale agrees with it after the next episode. -/
theorem Reckons.post (h : a.Reckons tale) (hp : a.Posts episode a') :
    a'.Reckons (tale ++ episode.toList) := by
  cases hp with
  | rests =>
      rw [Option.toList_none, List.append_nil]
      exact h
  | doubles =>
      rw [Option.toList_none, List.append_nil]
      refine ⟨h.queue, h.hands, ?_, h.traced, h.called⟩
      intro i hi
      rw [Stats.get_add, if_neg hi.symm, h.counts i hi]
      rfl
  | accepts job =>
      simp only [Option.toList_some]
      refine ⟨?_, ?_, ?_, ?_, ?_⟩
      · simp [List.filterMap_cons, h.queue, Episode.accepted?, Episode.taken?]
      · simpa [List.filterMap_cons, Episode.taken?, Episode.ended?] using h.hands
      · exact counts_snoc h.counts (get_add_item a.stats rfl)
      · exact fun hand hh => (h.traced hand hh).snoc ⟨rfl, rfl⟩ .inl
      · exact called_snoc h.called nofun
  | @takes job rest hq hh =>
      have hhands := h.hands
      simp only [hh, Option.toList_none, List.map_nil, List.append_nil] at hhands
      simp only [Option.toList_some]
      refine ⟨?_, ?_, ?_, ?_, ?_⟩
      · simp [List.filterMap_cons, h.queue, hq, Episode.accepted?, Episode.taken?]
      · simp [List.filterMap_cons, hhands, Episode.taken?, Episode.ended?]
      · exact counts_snoc h.counts fun i => rfl
      · rintro hand ⟨⟩
        exact ⟨tale, job, [], rfl, rfl, nofun, nofun⟩
      · exact called_snoc h.called nofun
  | @starts job hh =>
      have hhands := h.hands
      simp only [hh, Option.toList_some, List.map_cons, List.map_nil] at hhands
      simp only [Option.toList_some]
      refine ⟨?_, ?_, ?_, ?_, ?_⟩
      · simpa [List.filterMap_cons, Episode.accepted?, Episode.taken?] using h.queue
      · simpa [List.filterMap_cons, Episode.taken?, Episode.ended?] using hhands
      · exact counts_snoc h.counts (get_add_item a.stats rfl)
      · rintro hand ⟨⟩
        exact (h.traced _ hh).snoc ⟨rfl, rfl⟩ fun _ => .inr rfl
      · exact called_snoc h.called nofun
  | @calls job hh =>
      simp only [Option.toList_some]
      refine ⟨?_, ?_, ?_, ?_, ?_⟩
      · simpa [List.filterMap_cons, Episode.accepted?, Episode.taken?] using h.queue
      · simpa [List.filterMap_cons, Episode.taken?, Episode.ended?] using h.hands
      · exact counts_snoc h.counts fun i => rfl
      · exact fun hand hh => (h.traced hand hh).snoc ⟨rfl, rfl⟩ .inl
      · refine called_snoc h.called ?_
        rintro _ ⟨⟩
        exact h.traced _ hh
  | @ends hand v hh =>
      have hhands := h.hands
      simp only [hh, Option.toList_some, List.map_cons, List.map_nil] at hhands
      simp only [Option.toList_some]
      refine ⟨?_, ?_, ?_, nofun, ?_⟩
      · simpa [List.filterMap_cons, Episode.accepted?, Episode.taken?] using h.queue
      · simpa [List.filterMap_cons, Episode.taken?, Episode.ended?] using hhands
      · exact counts_snoc h.counts (get_add_item a.stats rfl)
      · exact called_snoc h.called nofun

/-- As many jobs are accepted as are counted. -/
theorem length_accepted (tale : List Episode) :
    (tale.filterMap Episode.accepted?).length =
      tale.countP fun e => e.item? = some .enqueued := by
  induction tale with
  | nil => rfl
  | cons e tale ih =>
      cases e <;> simp [List.filterMap_cons, Episode.accepted?, Episode.item?, ih]

/-- As many jobs end as are counted by one of four counts. -/
theorem length_ended (tale : List Episode) :
    (tale.filterMap Episode.ended?).length =
      (tale.countP fun e => e.item? = some (.ended .succeeded)) +
        (tale.countP fun e => e.item? = some (.ended .failed)) +
        (tale.countP fun e => e.item? = some (.ended .dropped)) +
        tale.countP fun e => e.item? = some (.ended .rejected) := by
  induction tale with
  | nil => rfl
  | cons e tale ih =>
      cases e with
      | ended job v =>
          cases v <;>
            simp [Episode.ended?, Episode.item?, ih] <;>
            omega
      | _ => simp [List.filterMap_cons, Episode.ended?, Episode.item?, ih]

/-- Every job that has been accepted waits, is in hand, or is counted by one of four counts. -/
theorem Reckons.balance (h : a.Reckons tale) :
    a.stats.enqueued = a.waiting.length + a.hand.toList.length + a.stats.succeeded +
      a.stats.failed + a.stats.dropped + a.stats.rejected := by
  have hqueue := congrArg List.length h.queue
  have hhands := congrArg List.length h.hands
  rw [List.length_append, length_accepted] at hqueue
  simp only [List.length_map, List.length_append, length_ended] at hhands
  have henqueued : a.stats.enqueued = _ := h.counts .enqueued nofun
  have hsucceeded : a.stats.succeeded = _ := h.counts (.ended .succeeded) nofun
  have hfailed : a.stats.failed = _ := h.counts (.ended .failed) nofun
  have hdropped : a.stats.dropped = _ := h.counts (.ended .dropped) nofun
  have hrejected : a.stats.rejected = _ := h.counts (.ended .rejected) nofun
  omega

end Account

end JobFleet.Runner

/-! ## What is entered in the account -/

namespace JobFleet

open Runner (Account Episode Hand)

variable {r r' : Runner} {hand hand' : Option Hand}

/-- What is told of a job that is handed in, given how that goes on: that it is accepted, if it
is. -/
def Enqueue.tells (e : Enqueue) : Progress Enqueue EnqueueOutcome → Option Episode
  | .ended .enqueued => some (.accepted e.job)
  | _ => none

/-- A hand-in enters in the account what is told of its job. -/
theorem Enqueue.RunnerStep.posts {self task : TaskId} {e : Enqueue}
    {next : Progress Enqueue EnqueueOutcome} {hired : Option Worker}
    (h : e.RunnerStep self task r next r' hired) (hand : Option Hand) :
    Account.Posts ⟨r.pending, hand, r.stats⟩ (e.tells next) ⟨r'.pending, hand, r'.stats⟩ := by
  cases h with
  | doubles => exact .doubles
  | joins => exact .accepts e.job
  | hires => exact .accepts e.job
  | _ => exact .rests

/-- A worker enters in the account what happens to the job in its hands. -/
theorem Worker.RunnerStep.posts {k : Worker} {task : TaskId} {episode : Option Episode}
    {left : Option Worker} (h : k.RunnerStep task r episode left r') (hhand : hand = k.phase.hand?)
    (hleft : ∀ k', left = some k' → hand' = k'.phase.hand?)
    (hgone : left = none → k.phase = .choosing → hand' = hand) :
    Account.Posts ⟨r.pending, hand, r.stats⟩ episode ⟨r'.pending, hand', r'.stats⟩ := by
  cases h with
  | quits hp hc =>
      rw [hgone rfl hp]
      exact .rests
  | idles hp hc hq =>
      rw [hgone rfl hp, Runner.vacates_pending, Runner.vacates_stats]
      exact .rests
  | takes hp hc hq =>
      rw [hleft _ rfl]
      exact .takes hq (by rw [hhand, hp]; rfl)
  | begins hp =>
      rw [hleft _ rfl]
      exact .starts (by rw [hhand, hp]; rfl)
  | @calls t hp =>
      have hsame : hand = some ⟨t.job.untried, true⟩ := by
        rw [hhand, hp]
        rfl
      rw [hleft _ rfl, hsame]
      exact .calls rfl
  | @ends done v goal hh hv hg =>
      have hnone : (k.inPhase goal).phase.hand? = none := hg
      rw [hleft _ rfl, hnone]
      exact .ends v (hhand.trans hh)
  | @goesOn goal hp hg =>
      have hsame : (k.inPhase goal).phase.hand? = hand := hg.trans hhand.symm
      rw [hleft _ rfl, hsame]
      exact .rests

/-- A stop enters nothing in the account. -/
theorem StopPhase.RunnerStep.posts {p : StopPhase} {next : Progress StopPhase Unit}
    {cancelled : Option TaskId} (h : StopPhase.RunnerStep r p next r' cancelled)
    (hand : Option Hand) :
    Account.Posts ⟨r.pending, hand, r.stats⟩ none ⟨r'.pending, hand, r'.stats⟩ := by
  cases h with
  | clears =>
      rw [Runner.vacates_pending, Runner.vacates_stats]
      exact .rests
  | _ => exact .rests

end JobFleet
