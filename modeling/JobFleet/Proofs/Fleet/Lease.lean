import JobFleet.Proofs.Fleet.Roles

/-!
# Who holds a lock, and for whom

An extender keeps the lock that it renews, and belongs to the session of a scheduler or to a stop
that has taken that session. A main loop that has not been cancelled has such an extender, or a
stop that is about to cancel it. `World.Lease` puts this together; the lemmas after it say that
each thing that can happen to roles, sessions and the lock's entry keeps it.
-/

namespace JobFleet

/-- A stop waits for the extender of one session. -/
theorem Role.session_eq {name name' : String} {s s' : Schedule.Session}
    (h : some (stops name (.awaitingExtender s)) = some (stops name' (.awaitingExtender s'))) :
    s = s' := by
  cases h
  rfl

namespace World

/-- A lock is held by its owner until an instant that is still to come. -/
def HeldUntil (w : World) (l : Lock) (expiry : Nat) : Prop :=
  w.entry (lockKey l.name) = some ⟨l.token, some expiry⟩ ∧ w.now < expiry

/-- A lock is held by its owner. -/
def Leased (w : World) (l : Lock) : Prop := ∃ expiry, w.HeldUntil l expiry

/-- The session of a scheduler: its own, or one that a stop has taken from it and whose extender
the stop waits for. -/
def Holds (w : World) (name : String) (s : Schedule.Session) : Prop :=
  w.session? name = some s ∨ ∃ q, w.role q = some (.stops name (.awaitingExtender s))

/-- Nobody needs a lock: no extender renews it, and no main loop runs under it. -/
def Idle (w : World) (lockName : String) : Prop :=
  (∀ i x, w.role i = some (.renews x) → x.lock.name ≠ lockName) ∧
    ∀ j name l, w.role j = some (.leads name false) → w.lock? name = some l → l.name ≠ lockName

/-- Owners of a lock have tokens of their own. -/
def Distinct (w : World) (lockName : String) : Prop :=
  ∀ name name' l l', w.lock? name = some l → w.lock? name' = some l' → l.name = lockName →
    l'.name = lockName → l.token = l'.token → name = name'

/-- How schedulers, their sessions and the tasks around their locks refer to each other. -/
structure Wired (w : World) : Prop where
  mains : ∀ i x, w.role i = some (.renews x) → w.Kind x.main .mainLoop
  sessions : ∀ name s, w.Holds name s → w.Kind s.main .mainLoop ∧ w.Kind s.extender .extender ∧
    ∀ x, w.role s.extender = some (.renews x) → x.main = s.main ∧ w.lock? name = some x.lock
  leaders : ∀ j name c, w.role j = some (.leads name c) → ∃ l, w.lock? name = some l
  stoppers : ∀ q name p, w.role q = some (.stops name p) → p ≠ .entering →
    ∃ l, w.lock? name = some l

/-- How a lock, its extenders, main loops and stops hang together. -/
structure Lease (lockName : String) (w : World) : Prop extends Wired w where
  /-- An extender is of the session of a scheduler, or of a stop that has cancelled it. -/
  owned : ∀ i x, w.role i = some (.renews x) → x.lock.name = lockName →
    ∃ name, w.lock? name = some x.lock ∧
      (x.cancelled = false → w.session? name = some ⟨x.main, i⟩) ∧
      (x.cancelled = true → ∃ q, w.role q = some (.stops name (.awaitingExtender ⟨x.main, i⟩)))
  /-- A stop that has begun is the only one of its scheduler, which has no session then. -/
  lone : ∀ q name p l, w.role q = some (.stops name p) → p ≠ .entering → w.lock? name = some l →
    l.name = lockName → w.session? name = none ∧
      ∀ q' p', w.role q' = some (.stops name p') → p' ≠ .entering → q' = q
  /-- An extender wakes before its lock is no longer held. -/
  leased : ∀ i x, w.role i = some (.renews x) → x.lock.name = lockName →
    ∃ expiry, w.HeldUntil x.lock expiry ∧ ∀ wake, x.phase = .resting wake → wake < expiry
  /-- A main loop has an extender, or a stop that cancels it while the lock is still held. -/
  led : ∀ j name l, w.role j = some (.leads name false) → w.lock? name = some l →
    l.name = lockName → (∃ i x, w.role i = some (.renews x) ∧ x.main = j ∧ x.lock = l) ∨
      w.Leased l ∧ ∃ q s, w.role q = some (.stops name (.awaitingExtender s)) ∧ s.main = j

/-- Tasks and sessions that can be traced back to those of a world before refer to each other as
they did. -/
theorem Wired.traced {w v : World} (h : w.Wired) (kind : ∀ i s, w.Kind i s → v.Kind i s)
    (lock : ∀ name l, w.lock? name = some l → v.lock? name = some l)
    (renews : ∀ i y, v.role i = some (.renews y) →
      ∃ x, w.role i = some (.renews x) ∧ y.main = x.main ∧ y.lock = x.lock)
    (holds : ∀ name s, v.Holds name s → w.Holds name s)
    (leads : ∀ j name c, v.role j = some (.leads name c) →
      ∃ c', w.role j = some (.leads name c'))
    (stops : ∀ q name p, v.role q = some (.stops name p) → p ≠ .entering →
      ∃ l, w.lock? name = some l) : v.Wired where
  mains := by
    intro i y hi
    obtain ⟨x, hx, hm, -⟩ := renews i y hi
    rw [hm]
    exact kind _ _ (h.mains i x hx)
  sessions := by
    intro name s hs
    obtain ⟨hmain, hext, hlink⟩ := h.sessions name s (holds name s hs)
    refine ⟨kind _ _ hmain, kind _ _ hext, ?_⟩
    intro y hy
    obtain ⟨x, hx, hm, hl⟩ := renews _ y hy
    obtain ⟨hmain', hlock⟩ := hlink x hx
    exact ⟨hm.trans hmain', lock _ _ (hl ▸ hlock)⟩
  leaders := by
    intro j name c hj
    obtain ⟨c', hj'⟩ := leads j name c hj
    obtain ⟨l, hl⟩ := h.leaders j name c' hj'
    exact ⟨l, lock _ _ hl⟩
  stoppers := by
    intro q name p hq hp
    obtain ⟨l, hl⟩ := stops q name p hq hp
    exact ⟨l, lock _ _ hl⟩

/-- A name is leased to one token. -/
theorem Leased.token_eq {w : World} {l l' : Lock} (h : w.Leased l) (h' : w.Leased l')
    (hn : l.name = l'.name) : l.token = l'.token := by
  obtain ⟨expiry, he, -⟩ := h
  obtain ⟨expiry', he', -⟩ := h'
  rw [hn, he'] at he
  injection he with he
  exact (congrArg Entry.value he).symm

/-- A lock is held by one scheduler at a time. -/
theorem Distinct.leased {lockName : String} {w : World} (hd : w.Distinct lockName)
    {name name' : String} {l l' : Lock} (hl : w.lock? name = some l)
    (hl' : w.lock? name' = some l') (hn : l.name = lockName) (hn' : l'.name = lockName)
    (h : w.Leased l) (h' : w.Leased l') : name = name' :=
  hd name name' l l' hl hl' hn hn' (h.token_eq h' (hn.trans hn'.symm))

namespace Lease

variable {lockName : String} {w v : World}

/-- Where nobody has a role and no scheduler has a session, there is nothing to keep. -/
theorem of_none (hr : ∀ i, w.role i = none) (hs : ∀ name, w.session? name = none) :
    w.Lease lockName := by
  have hno : ∀ i r, w.role i ≠ some r := by
    intro i r hi
    rw [hr] at hi
    cases hi
  constructor
  case toWired =>
    constructor
    case mains => exact fun i x hi => absurd hi (hno i _)
    case sessions =>
      rintro name s (hsess | ⟨q, hq⟩)
      · rw [hs] at hsess
        cases hsess
      · exact absurd hq (hno q _)
    case leaders => exact fun j name c hj => absurd hj (hno j _)
    case stoppers => exact fun q name p hq => absurd hq (hno q _)
  case owned => exact fun i x hi => absurd hi (hno i _)
  case lone => exact fun q name p l hq => absurd hq (hno q _)
  case leased => exact fun i x hi => absurd hi (hno i _)
  case led => exact fun j name l hj => absurd hj (hno j _)

/-- A lock is held as long as a main loop runs under it that has not been cancelled. -/
theorem leased_of_leads (h : w.Lease lockName) {j : TaskId} {name : String} {l : Lock}
    (hj : w.role j = some (.leads name false)) (hl : w.lock? name = some l)
    (hn : l.name = lockName) : w.Leased l := by
  rcases h.led j name l hj hl hn with ⟨i, x, hi, -, rfl⟩ | ⟨hleased, -⟩
  · obtain ⟨expiry, hheld, -⟩ := h.leased i x hi hn
    exact ⟨expiry, hheld⟩
  · exact hleased

/-- Nobody needs a lock that nobody holds. -/
theorem idle_of_none (h : w.Lease lockName) (hn : w.entry (lockKey lockName) = none) :
    w.Idle lockName := by
  have hnot : ∀ l : Lock, l.name = lockName → ¬ w.Leased l := by
    rintro l rfl ⟨expiry, he, -⟩
    rw [hn] at he
    cases he
  refine ⟨?_, ?_⟩
  · intro i x hi hx
    obtain ⟨expiry, hheld, -⟩ := h.leased i x hi hx
    exact hnot x.lock hx ⟨expiry, hheld⟩
  · intro j name l hj hl hname
    exact hnot l hname (h.leased_of_leads hj hl hname)

/-- An extender of a lock renews it for the one scheduler that the lock is held by. -/
theorem owner (h : w.Lease lockName) (hd : w.Distinct lockName) {i : TaskId}
    {x : Schedule.Extender} (hi : w.role i = some (.renews x)) (hx : x.lock.name = lockName)
    {name : String} {l : Lock} (hl : w.lock? name = some l) (hn : l.name = lockName)
    (hleased : w.Leased l) :
    l = x.lock ∧ (x.cancelled = false → w.session? name = some ⟨x.main, i⟩) ∧
      (x.cancelled = true →
        ∃ q, w.role q = some (.stops name (.awaitingExtender ⟨x.main, i⟩))) := by
  obtain ⟨expiry, hheld, -⟩ := h.leased i x hi hx
  obtain ⟨name', hl', hkept, htaken⟩ := h.owned i x hi hx
  obtain rfl := hd.leased hl' hl hx hn ⟨expiry, hheld⟩ hleased
  exact ⟨Option.some.inj (hl.symm.trans hl'), hkept, htaken⟩

/-- There is one extender of a lock at most. -/
theorem sole (h : w.Lease lockName) (hd : w.Distinct lockName) {i j : TaskId}
    {x y : Schedule.Extender} (hi : w.role i = some (.renews x)) (hj : w.role j = some (.renews y))
    (hx : x.lock.name = lockName) (hy : y.lock.name = lockName) : i = j := by
  obtain ⟨expiry, hheld, -⟩ := h.leased j y hj hy
  obtain ⟨name, hl, hkept', htaken'⟩ := h.owned j y hj hy
  obtain ⟨-, hkept, htaken⟩ := h.owner hd hi hx hl hy ⟨expiry, hheld⟩
  cases hxc : x.cancelled with
  | false =>
      have hs := hkept hxc
      cases hyc : y.cancelled with
      | false =>
          rw [hkept' hyc] at hs
          exact congrArg Schedule.Session.extender (Option.some.inj hs).symm
      | true =>
          obtain ⟨q, hq⟩ := htaken' hyc
          have hnone := (h.lone q name _ _ hq nofun hl hy).1
          rw [hs] at hnone
          cases hnone
  | true =>
      obtain ⟨q, hq⟩ := htaken hxc
      have hlone := h.lone q name _ _ hq nofun hl hy
      cases hyc : y.cancelled with
      | false =>
          rw [hkept' hyc] at hlone
          cases hlone.1
      | true =>
          obtain ⟨q', hq'⟩ := htaken' hyc
          obtain rfl := hlone.2 q' _ hq' nofun
          rw [hq] at hq'
          exact congrArg Schedule.Session.extender (Role.session_eq hq')

/-- Nobody needs a lock any more that is held by a scheduler whose stop is about to give it
back. -/
theorem idle_of_releasing (h : w.Lease lockName) (hd : w.Distinct lockName) {id : TaskId}
    {name : String} {l : Lock} (hid : w.role id = some (.stops name .releasing))
    (hl : w.lock? name = some l) (hn : l.name = lockName)
    (hheld : (w.entry (lockKey lockName)).map Entry.value = some l.token) : w.Idle lockName := by
  obtain ⟨hnone, hlone⟩ := h.lone id name _ l hid nofun hl hn
  have hsame : ∀ name' l', w.lock? name' = some l' → l'.name = lockName → w.Leased l' →
      name' = name := by
    rintro name' l' hl' hn' ⟨expiry, he, -⟩
    rw [hn'] at he
    rw [he] at hheld
    exact hd name' name l' l hl' hl hn' hn (Option.some.inj hheld)
  have hawaits : ∀ q s, w.role q ≠ some (.stops name (.awaitingExtender s)) := by
    intro q s hq
    obtain rfl := hlone q _ hq nofun
    rw [hid] at hq
    cases hq
  have hrenews : ∀ i x, w.role i = some (.renews x) → x.lock.name ≠ lockName := by
    intro i x hi hx
    obtain ⟨expiry, hheld', -⟩ := h.leased i x hi hx
    obtain ⟨name', hl', hkept, htaken⟩ := h.owned i x hi hx
    obtain rfl := hsame name' x.lock hl' hx ⟨expiry, hheld'⟩
    cases hc : x.cancelled with
    | false =>
        have hs := hkept hc
        rw [hnone] at hs
        cases hs
    | true =>
        obtain ⟨q, hq⟩ := htaken hc
        exact hawaits q _ hq
  refine ⟨hrenews, ?_⟩
  intro j name' l' hj hl' hn'
  rcases h.led j name' l' hj hl' hn' with ⟨i, x, hi, -, rfl⟩ | ⟨hleased, q, s, hq, -⟩
  · exact hrenews i x hi hn'
  · obtain rfl := hsame name' l' hl' hn' hleased
    exact hawaits q s hq

/-- There is one main loop at most that runs under a lock and has not been cancelled. -/
theorem sole_leader (h : w.Lease lockName) (hd : w.Distinct lockName) {j j' : TaskId}
    {name name' : String} {l l' : Lock} (hj : w.role j = some (.leads name false))
    (hj' : w.role j' = some (.leads name' false)) (hl : w.lock? name = some l)
    (hl' : w.lock? name' = some l') (hn : l.name = lockName) (hn' : l'.name = lockName) :
    name = name' ∧ j = j' := by
  have hleased := h.leased_of_leads hj hl hn
  have hleased' := h.leased_of_leads hj' hl' hn'
  obtain rfl := hd.leased hl hl' hn hn' hleased hleased'
  obtain rfl := Option.some.inj (hl.symm.trans hl')
  have hmeet : ∀ i x q s, w.role i = some (.renews x) → x.lock = l →
      w.role q = some (.stops name (.awaitingExtender s)) → x.main = s.main := by
    rintro i x q s hi rfl hq
    obtain ⟨hnone, hlone⟩ := h.lone q name _ _ hq nofun hl hn
    obtain ⟨-, hkept, htaken⟩ := h.owner hd hi hn hl hn hleased
    cases hc : x.cancelled with
    | false =>
        rw [hkept hc] at hnone
        cases hnone
    | true =>
        obtain ⟨q', hq'⟩ := htaken hc
        obtain rfl := hlone q' _ hq' nofun
        rw [hq] at hq'
        exact congrArg Schedule.Session.main (Role.session_eq hq').symm
  refine ⟨rfl, ?_⟩
  rcases h.led j name l hj hl hn with ⟨i, x, hi, rfl, hx⟩ | ⟨-, q, s, hq, rfl⟩
  · rcases h.led j' name l hj' hl hn with ⟨i', y, hi', rfl, hy⟩ | ⟨-, q', s', hq', rfl⟩
    · obtain rfl := h.sole hd hi hi' (by rw [hx]; exact hn) (by rw [hy]; exact hn)
      rw [hi] at hi'
      cases hi'
      rfl
    · exact hmeet i x q' s' hi hx hq'
  · rcases h.led j' name l hj' hl hn with ⟨i', y, hi', rfl, hy⟩ | ⟨-, q', s', hq', rfl⟩
    · exact (hmeet i' y q s hi' hy hq).symm
    · obtain rfl := (h.lone q name _ l hq nofun hl hn).2 q' _ hq' nofun
      rw [hq] at hq'
      rw [Role.session_eq hq']

end Lease

/-! ## What asks for less -/

/-- One world asks for no more than another: main loops may have been cancelled or have ended,
an extender may have ended if its main loop does not run on by itself, and a stop may have gone on
once its extender is gone and its main loop cancelled. The lock's entry may change only if nobody
needs it. -/
structure Eases (lockName : String) (w v : World) : Prop where
  now : v.now = w.now
  entry : v.entry (lockKey lockName) = w.entry (lockKey lockName) ∨ w.Idle lockName
  kind : ∀ i s, w.Kind i s → v.Kind i s
  lock : ∀ name l, w.lock? name = some l → v.lock? name = some l
  session : ∀ name, v.session? name = w.session? name
  renews : ∀ i x, v.role i = some (.renews x) → w.role i = some (.renews x)
  leads : ∀ j name c, v.role j = some (.leads name c) →
    w.role j = some (.leads name c) ∨ c = true ∧ ∃ c', w.role j = some (.leads name c')
  stops : ∀ q name p, v.role q = some (.stops name p) → p ≠ .entering →
    w.role q = some (.stops name p) ∨ (∀ s, p ≠ .awaitingExtender s) ∧
      ∃ p', w.role q = some (.stops name p') ∧ p' ≠ .entering
  renewed : ∀ i x, w.role i = some (.renews x) → v.role i = some (.renews x) ∨
    x.cancelled = true ∨ ∀ name, v.role x.main ≠ some (.leads name false)
  awaits : ∀ q name s, w.role q = some (.stops name (.awaitingExtender s)) →
    v.role q = some (.stops name (.awaitingExtender s)) ∨
      w.role s.extender = none ∧ ∀ name, v.role s.main ≠ some (.leads name false)

variable {lockName : String} {w v : World}

/-- An ease makes no leader. -/
theorem Eases.leads_false (h : Eases lockName w v) {j : TaskId} {name : String}
    (hj : v.role j = some (.leads name false)) : w.role j = some (.leads name false) := by
  rcases h.leads j name false hj with hsame | ⟨hc, -⟩
  · exact hsame
  · cases hc

/-- An ease gives no session away. -/
theorem Eases.holds (h : Eases lockName w v) {name : String} {s : Schedule.Session}
    (hs : v.Holds name s) : w.Holds name s := by
  rcases hs with hs | ⟨q, hq⟩
  · exact .inl ((h.session name).symm.trans hs)
  · rcases h.stops q name _ hq nofun with hsame | ⟨hne, -⟩
    · exact .inr ⟨q, hsame⟩
    · exact absurd rfl (hne s)

/-- A held lock that somebody needs stays held. -/
theorem Eases.heldUntil (h : Eases lockName w v) {l : Lock} {expiry : Nat}
    (hl : w.HeldUntil l expiry) (hn : l.name = lockName) (hneeded : ¬ w.Idle lockName) :
    v.HeldUntil l expiry := by
  rcases h.entry with he | hidle
  · subst hn
    exact ⟨he.trans hl.1, by rw [h.now]; exact hl.2⟩
  · exact absurd hidle hneeded

/-- An ease keeps the leases. -/
theorem Lease.eases (h : w.Lease lockName) (hd : w.Distinct lockName) (he : Eases lockName w v) :
    v.Lease lockName where
  toWired := by
    refine h.toWired.traced he.kind he.lock (fun i x hi => ⟨x, he.renews i x hi, rfl, rfl⟩)
      (fun name s => he.holds) ?_ ?_
    · intro j name c hj
      rcases he.leads j name c hj with hsame | ⟨-, hc⟩
      · exact ⟨c, hsame⟩
      · exact hc
    · intro q name p hq hp
      rcases he.stops q name p hq hp with hsame | ⟨-, p', hq', hp'⟩
      · exact h.stoppers q name p hsame hp
      · exact h.stoppers q name p' hq' hp'
  owned := by
    intro i x hi hx
    have hi' := he.renews i x hi
    obtain ⟨name, hl, hkept, htaken⟩ := h.owned i x hi' hx
    refine ⟨name, he.lock _ _ hl, fun hc => (he.session name).trans (hkept hc), ?_⟩
    intro hc
    obtain ⟨q, hq⟩ := htaken hc
    rcases he.awaits q name _ hq with hsame | ⟨hgone, -⟩
    · exact ⟨q, hsame⟩
    · rw [hi'] at hgone
      cases hgone
  lone := by
    have hback : ∀ q name p, v.role q = some (.stops name p) → p ≠ .entering →
        ∃ p', w.role q = some (.stops name p') ∧ p' ≠ .entering := by
      intro q name p hq hp
      rcases he.stops q name p hq hp with hsame | ⟨-, hp'⟩
      · exact ⟨p, hsame, hp⟩
      · exact hp'
    intro q name p l hq hp hl hn
    obtain ⟨p₀, hq₀, hp₀⟩ := hback q name p hq hp
    obtain ⟨l₀, hl₀⟩ := h.stoppers q name p₀ hq₀ hp₀
    obtain rfl := Option.some.inj ((he.lock _ _ hl₀).symm.trans hl)
    obtain ⟨hnone, hlone⟩ := h.lone q name p₀ l₀ hq₀ hp₀ hl₀ hn
    refine ⟨(he.session name).trans hnone, ?_⟩
    intro q' p' hq' hp'
    obtain ⟨p₁, hq₁, hp₁⟩ := hback q' name p' hq' hp'
    exact hlone q' p₁ hq₁ hp₁
  leased := by
    intro i x hi hx
    have hi' := he.renews i x hi
    obtain ⟨expiry, hheld, hwake⟩ := h.leased i x hi' hx
    exact ⟨expiry, he.heldUntil hheld hx fun hidle => hidle.1 i x hi' hx, hwake⟩
  led := by
    intro j name l hj hl hn
    have hj' := he.leads_false hj
    obtain ⟨l₀, hl₀⟩ := h.leaders j name false hj'
    obtain rfl := Option.some.inj ((he.lock _ _ hl₀).symm.trans hl)
    have hneeded : ¬ w.Idle lockName := fun hidle => hidle.2 j name l₀ hj' hl₀ hn
    have hstop : ∀ q s, w.Leased l₀ → w.role q = some (.stops name (.awaitingExtender s)) →
        s.main = j → v.Leased l₀ ∧
          ∃ q s, v.role q = some (.stops name (.awaitingExtender s)) ∧ s.main = j := by
      rintro q s ⟨expiry, hheld⟩ hq rfl
      refine ⟨⟨expiry, he.heldUntil hheld hn hneeded⟩, q, s, ?_, rfl⟩
      rcases he.awaits q name s hq with hsame | ⟨-, hno⟩
      · exact hsame
      · exact absurd hj (hno name)
    rcases h.led j name l₀ hj' hl₀ hn with ⟨i, x, hi, rfl, rfl⟩ | ⟨hleased, q, s, hq, hs⟩
    · rcases he.renewed i x hi with hsame | hc | hno
      · exact .inl ⟨i, x, hsame, rfl, rfl⟩
      · obtain ⟨name', hl', -, htaken⟩ := h.owned i x hi hn
        obtain rfl := hd name' name _ _ hl' hl₀ hn hn rfl
        obtain ⟨q, hq⟩ := htaken hc
        obtain ⟨expiry, hheld, -⟩ := h.leased i x hi hn
        exact .inr (hstop q _ ⟨expiry, hheld⟩ hq rfl)
      · exact absurd hj (hno name)
    · exact .inr (hstop q s hleased hq hs)

/-! ## Steps that ask for less -/

/-- Between two worlds no time has passed, schedulers have kept their locks, and task numbers
stand for the same sorts of tasks. -/
structure Steady (w v : World) : Prop where
  now : v.now = w.now
  lock : ∀ name, v.lock? name = w.lock? name
  kind : ∀ i s, w.Kind i s → v.Kind i s

/-- A steady move that spares the entry keeps the hold. -/
theorem Steady.heldUntil (hs : w.Steady v) {l : Lock} {expiry : Nat} (h : w.HeldUntil l expiry)
    (hn : l.name = lockName) (he : v.entry (lockKey lockName) = w.entry (lockKey lockName)) :
    v.HeldUntil l expiry := by
  subst hn
  exact ⟨he.trans h.1, by rw [hs.now]; exact h.2⟩

/-- A steady move that spares the entry keeps the lease. -/
theorem Steady.leased (hs : w.Steady v) {l : Lock} (h : w.Leased l) (hn : l.name = lockName)
    (he : v.entry (lockKey lockName) = w.entry (lockKey lockName)) : v.Leased l := by
  obtain ⟨expiry, hheld⟩ := h
  exact ⟨expiry, hs.heldUntil hheld hn he⟩

/-- A step of a task is steady. -/
theorem steady_step {id : TaskId} (hm : w.Admits (.step id)) :
    w.Steady (w.move (.step id)) := by
  obtain ⟨t, ht, -, he⟩ := move_step hm
  have hvia := t.act_via id w
  refine ⟨step_now hm, ?_, fun i s hk => hk.move hm⟩
  · intro name
    rw [he, lock?_put]
    exact hvia.lock? (fun _ hd => hd.keepsLock) name

/-- How a task gives up its part: an extender that is cancelled, or whose main loop does not run
on, ends; so does a stop that waits for no extender; and a stop goes on once its extender is gone
and its main loop cancelled. -/
inductive Yields (w v : World) : Role → Option Role → Prop
  | quits {x : Schedule.Extender}
      (h : x.cancelled = true ∨ ∀ name, v.role x.main ≠ some (.leads name false)) :
      Yields w v (.renews x) none
  | leaves {name : String} {p : Schedule.StopPhase} (hp : ∀ s, p ≠ .awaitingExtender s) :
      Yields w v (.stops name p) none
  | goesOn {name : String} {p p' : Schedule.StopPhase} (hp : p ≠ .entering)
      (hp' : ∀ s, p' ≠ .awaitingExtender s)
      (h : ∀ s, p = .awaitingExtender s →
        w.role s.extender = none ∧ ∀ name, v.role s.main ≠ some (.leads name false)) :
      Yields w v (.stops name p) (some (.stops name p'))

/-- A step by which a task gives up its part, and by which at most a main loop is cancelled. -/
theorem Steady.eases (hs : w.Steady v)
    (hentry : v.entry (lockKey lockName) = w.entry (lockKey lockName) ∨ w.Idle lockName)
    (hsession : ∀ name, v.session? name = w.session? name) {id : TaskId} {r : Role}
    {left : Option Role} (hid : w.role id = some r) (hleft : v.role id = left)
    (hy : w.Yields v r left) (hrest : ∀ i, i ≠ id → v.role i = w.role i ∨
      ∃ name c, w.role i = some (.leads name c) ∧ v.role i = some (.leads name true)) :
    Eases lockName w v where
  now := hs.now
  entry := hentry
  kind := hs.kind
  lock := fun name l hl => (hs.lock name).trans hl
  session := hsession
  renews := by
    intro i x hi
    by_cases he : i = id
    · subst he
      rw [hleft] at hi
      subst hi
      cases hy
    · rcases hrest i he with hsame | ⟨name, c, -, hv⟩
      · exact hsame.symm.trans hi
      · rw [hv] at hi
        cases hi
  leads := by
    intro j name c hj
    by_cases he : j = id
    · subst he
      rw [hleft] at hj
      subst hj
      cases hy
    · rcases hrest j he with hsame | ⟨name', c', hw, hv⟩
      · exact .inl (hsame.symm.trans hj)
      · rw [hv] at hj
        cases hj
        exact .inr ⟨rfl, c', hw⟩
  stops := by
    intro q name p hq hp
    by_cases he : q = id
    · subst he
      rw [hleft] at hq
      subst hq
      cases hy with
      | goesOn hp₀ hp' _ => exact .inr ⟨hp', _, hid, hp₀⟩
    · rcases hrest q he with hsame | ⟨name', c', -, hv⟩
      · exact .inl (hsame.symm.trans hq)
      · rw [hv] at hq
        cases hq
  renewed := by
    intro i x hi
    by_cases he : i = id
    · subst he
      rw [hid] at hi
      cases hi
      cases hy with
      | quits h => exact .inr h
    · rcases hrest i he with hsame | ⟨name', c', hw, -⟩
      · exact .inl (hsame.trans hi)
      · rw [hw] at hi
        cases hi
  awaits := by
    intro q name s hq
    by_cases he : q = id
    · subst he
      rw [hid] at hq
      cases hq
      cases hy with
      | leaves hp => exact absurd rfl (hp s)
      | goesOn _ _ h => exact .inr (h s rfl)
    · rcases hrest q he with hsame | ⟨name', c', hw, -⟩
      · exact .inl (hsame.trans hq)
      · rw [hw] at hq
        cases hq

/-- What is quiet asks for no more. -/
theorem Quiet.eases (h : Quiet lockName w v) (kind : ∀ i s, w.Kind i s → v.Kind i s) :
    Eases lockName w v where
  now := h.now
  entry := .inl h.entry
  kind := kind
  lock := h.lock
  session := h.session
  renews := by
    intro i x hi
    rcases h.role i _ hi with hw | ⟨-, name, he⟩
    · exact hw
    · cases he
  leads := by
    intro j name c hj
    rcases h.role j _ hj with hw | ⟨-, name', he⟩
    · exact .inl hw
    · cases he
  stops := by
    intro q name p hq hp
    rcases h.role q _ hq with hw | ⟨-, name', he⟩
    · exact .inl hw
    · cases he
      exact absurd rfl hp
  renewed := by
    intro i x hi
    rcases h.kept i _ hi with hv | ⟨name, c, he⟩ | ⟨name, he⟩
    · exact .inl hv
    · cases he
    · cases he
  awaits := by
    intro q name s hq
    rcases h.kept q _ hq with hv | ⟨name', c, he⟩ | ⟨name', he⟩
    · exact .inl hv
    · cases he
    · cases he

end World

end JobFleet
