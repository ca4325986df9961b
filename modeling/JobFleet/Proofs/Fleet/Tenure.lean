import JobFleet.Proofs.Fleet.Controllers
import JobFleet.Proofs.Fleet.Lease

/-!
# How a lease goes on

Four things may happen to a lease beyond what eases it: its extender goes on with it, a start
takes it out, a stop takes it over with the session, and time passes. Each keeps `World.Lease`.
-/

namespace JobFleet

namespace World

variable {lockName : String} {w v : World}

/-! ## An extender goes on -/

/-- An extender goes on to another phase, and nothing else happens to roles and sessions. -/
structure GoesOn (w v : World) (id : TaskId) (x : Schedule.Extender)
    (p : Schedule.Extender.Phase) : Prop extends Steady w v where
  was : w.role id = some (.renews x)
  role : ∀ i, v.role i = if i = id then some (.renews { x with phase := p }) else w.role i
  session : ∀ name, v.session? name = w.session? name

namespace GoesOn

variable {id : TaskId} {x : Schedule.Extender} {p : Schedule.Extender.Phase}

/-- An extender was one before, in some phase. -/
theorem renews (g : w.GoesOn v id x p) {i : TaskId} {y : Schedule.Extender}
    (hi : v.role i = some (.renews y)) :
    ∃ q, w.role i = some (.renews { y with phase := q }) := by
  rw [g.role] at hi
  split at hi
  · rename_i hid
    subst hid
    cases hi
    exact ⟨x.phase, g.was⟩
  · exact ⟨y.phase, hi⟩

/-- A main loop was one before. -/
theorem leads (g : w.GoesOn v id x p) {j : TaskId} {name : String} {c : Bool}
    (hj : v.role j = some (.leads name c)) : w.role j = some (.leads name c) := by
  rw [g.role] at hj
  split at hj
  · cases hj
  · exact hj

/-- Stops are as they were. -/
theorem stops (g : w.GoesOn v id x p) (q : TaskId) (name : String) (p' : Schedule.StopPhase) :
    v.role q = some (.stops name p') ↔ w.role q = some (.stops name p') := by
  rw [g.role]
  split
  · rename_i hid
    subst hid
    rw [g.was]
    exact ⟨nofun, nofun⟩
  · exact Iff.rfl

/-- An extender that goes on stays tied to its main loop. -/
theorem wired (g : w.GoesOn v id x p) (h : w.Wired) : v.Wired := by
  refine h.traced g.kind (fun name l hl => (g.lock name).trans hl) ?_ ?_
    (fun j name c hj => ⟨c, g.leads hj⟩)
    fun q name p' hq hp' => h.stoppers q name p' ((g.stops q name p').mp hq) hp'
  · intro i y hi
    obtain ⟨q, hi'⟩ := g.renews hi
    exact ⟨_, hi', rfl, rfl⟩
  · rintro name s (hsess | ⟨q, hq⟩)
    · exact .inl ((g.session name).symm.trans hsess)
    · exact .inr ⟨q, (g.stops q name _).mp hq⟩

end GoesOn

/-- An extender that goes on keeps the lock beyond the instant that it rests until. -/
theorem Lease.goesOn (h : w.Lease lockName) (hd : w.Distinct lockName) {id : TaskId}
    {x : Schedule.Extender} {p : Schedule.Extender.Phase} (g : w.GoesOn v id x p)
    (hheld : x.lock.name = lockName →
      ∃ expiry, v.HeldUntil x.lock expiry ∧ ∀ wake, p = .resting wake → wake < expiry)
    (hother : x.lock.name ≠ lockName →
      v.entry (lockKey lockName) = w.entry (lockKey lockName)) : v.Lease lockName where
  toWired := g.wired h.toWired
  owned := by
    intro i y hi hy
    obtain ⟨q, hi'⟩ := g.renews hi
    obtain ⟨name, hl, hkept, htaken⟩ := h.owned i _ hi' hy
    refine ⟨name, (g.lock name).trans hl, fun hc => (g.session name).trans (hkept hc), ?_⟩
    intro hc
    obtain ⟨q, hq⟩ := htaken hc
    exact ⟨q, (g.stops q name _).mpr hq⟩
  lone := by
    intro q name p' l hq hp' hl hn
    rw [g.lock] at hl
    obtain ⟨hnone, hlone⟩ := h.lone q name p' l ((g.stops q name p').mp hq) hp' hl hn
    refine ⟨(g.session name).trans hnone, ?_⟩
    intro q' p'' hq' hp''
    exact hlone q' p'' ((g.stops q' name p'').mp hq') hp''
  leased := by
    intro i y hi hy
    rw [g.role] at hi
    split at hi
    · cases hi
      exact hheld hy
    · rename_i hid
      have hxl : x.lock.name ≠ lockName := fun hxl => hid (h.sole hd hi g.was hy hxl)
      obtain ⟨expiry, hheld', hwake⟩ := h.leased i y hi hy
      exact ⟨expiry, g.heldUntil hheld' hy (hother hxl), hwake⟩
  led := by
    have hkeeps : ∀ name l, w.lock? name = some l → l.name = lockName → w.Leased l →
        v.Leased l := by
      intro name l hl hn hleased
      by_cases hxl : x.lock.name = lockName
      · obtain ⟨rfl, -⟩ := h.owner hd g.was hxl hl hn hleased
        obtain ⟨expiry, hheld, -⟩ := hheld hxl
        exact ⟨expiry, hheld⟩
      · exact g.leased hleased hn (hother hxl)
    intro j name l hj hl hn
    rw [g.lock] at hl
    rcases h.led j name l (g.leads hj) hl hn with ⟨i, y, hi, hm, he⟩ | ⟨hleased, q, s, hq, hm⟩
    · left
      by_cases hid : i = id
      · subst hid
        rw [g.was] at hi
        cases hi
        refine ⟨i, { x with phase := p }, ?_, hm, he⟩
        rw [g.role, if_pos rfl]
      · refine ⟨i, y, ?_, hm, he⟩
        rw [g.role, if_neg hid]
        exact hi
    · exact .inr ⟨hkeeps name l hl hn hleased, q, s, (g.stops q name _).mpr hq, hm⟩

/-! ## A start takes a lease out -/

/-- A session of a scheduler begins under its lock: there are a new main loop and a new extender,
which rests until an instant. -/
structure Opens (w v : World) (name : String) (l : Lock) (wake : Nat) : Prop
    extends Steady w v where
  fresh : w.Fresh
  under : w.lock? name = some l
  role : ∀ i, v.role i =
    if i = w.nextTask + 1 then some (.renews ⟨l, w.nextTask, false, .resting wake⟩)
    else if i = w.nextTask then some (.leads name false) else w.role i
  session : ∀ n, v.session? n =
    if n = name then some ⟨w.nextTask, w.nextTask + 1⟩ else w.session? n
  main : v.Kind w.nextTask .mainLoop
  extender : v.Kind (w.nextTask + 1) .extender

namespace Opens

variable {name : String} {l : Lock} {wake : Nat}

/-- Whoever was there keeps the role. -/
theorem role_old (o : w.Opens v name l wake) {i : TaskId} (hi : i < w.nextTask) :
    v.role i = w.role i := by
  rw [o.role, if_neg (Nat.ne_of_lt (Nat.lt_succ_of_lt hi)), if_neg (Nat.ne_of_lt hi)]

/-- A role that was there is still. -/
theorem keeps (o : w.Opens v name l wake) {i : TaskId} {r : Role} (hi : w.role i = some r) :
    v.role i = some r := by
  obtain ⟨t, ht, -⟩ := Option.bind_eq_some_iff.mp hi
  exact (o.role_old (o.fresh.lt ht)).trans hi

/-- An extender is the new one, or was there. -/
theorem renews (o : w.Opens v name l wake) {i : TaskId} {y : Schedule.Extender}
    (hi : v.role i = some (.renews y)) :
    (i = w.nextTask + 1 ∧ y = ⟨l, w.nextTask, false, .resting wake⟩) ∨
      w.role i = some (.renews y) := by
  rw [o.role] at hi
  split at hi
  · rename_i hnew
    exact .inl ⟨hnew, by cases hi; rfl⟩
  · split at hi
    · cases hi
    · exact .inr hi

/-- A main loop is the new one, or was there. -/
theorem leads (o : w.Opens v name l wake) {j : TaskId} {n : String} {c : Bool}
    (hj : v.role j = some (.leads n c)) :
    (j = w.nextTask ∧ n = name) ∨ w.role j = some (.leads n c) := by
  rw [o.role] at hj
  split at hj
  · cases hj
  · split at hj
    · rename_i hnew
      exact .inl ⟨hnew, by cases hj; rfl⟩
    · exact .inr hj

/-- A stop was there. -/
theorem stops (o : w.Opens v name l wake) {q : TaskId} {n : String} {p : Schedule.StopPhase}
    (hq : v.role q = some (.stops n p)) : w.role q = some (.stops n p) := by
  rw [o.role] at hq
  split at hq
  · cases hq
  · split at hq
    · cases hq
    · exact hq

/-- A session is the new one, or was held. -/
theorem holds (o : w.Opens v name l wake) {n : String} {s : Schedule.Session}
    (hs : v.Holds n s) : (n = name ∧ s = ⟨w.nextTask, w.nextTask + 1⟩) ∨ w.Holds n s := by
  rcases hs with hsess | ⟨q, hq⟩
  · rw [o.session] at hsess
    split at hsess
    · rename_i hn
      exact .inl ⟨hn, (Option.some.inj hsess).symm⟩
    · exact .inr (.inl hsess)
  · exact .inr (.inr ⟨q, o.stops hq⟩)

/-- A session that opens is tied to its two tasks. -/
theorem wired (o : w.Opens v name l wake) (h : w.Wired) : v.Wired where
  mains := by
    intro i y hi
    rcases o.renews hi with ⟨-, rfl⟩ | hi'
    · exact o.main
    · exact o.kind _ _ (h.mains i y hi')
  sessions := by
    intro n s hholds
    rcases o.holds hholds with ⟨rfl, rfl⟩ | hholds'
    · refine ⟨o.main, o.extender, ?_⟩
      intro y hy
      rw [o.role, if_pos rfl] at hy
      cases hy
      exact ⟨rfl, (o.lock _).trans o.under⟩
    · obtain ⟨hm, he, hlink⟩ := h.sessions n s hholds'
      refine ⟨o.kind _ _ hm, o.kind _ _ he, ?_⟩
      intro y hy
      rw [o.role_old he.1] at hy
      rw [o.lock]
      exact hlink y hy
  leaders := by
    intro j n c hj
    rw [o.lock]
    rcases o.leads hj with ⟨-, rfl⟩ | hj'
    · exact ⟨l, o.under⟩
    · exact h.leaders j n c hj'
  stoppers := by
    intro q n p hq hp
    rw [o.lock]
    exact h.stoppers q n p (o.stops hq) hp

end Opens

/-- A session begins under a lock that nobody needed and that is now held. -/
theorem Lease.opens (h : w.Lease lockName) {name : String} {l : Lock} {wake : Nat}
    (o : w.Opens v name l wake)
    (hfree : l.name = lockName →
      w.Idle lockName ∧ ∃ expiry, v.HeldUntil l expiry ∧ wake < expiry)
    (hother : l.name ≠ lockName → v.entry (lockKey lockName) = w.entry (lockKey lockName))
    (hapart : ∀ q p, w.role q = some (.stops name p) → p ≠ .entering → l.name ≠ lockName) :
    v.Lease lockName where
  toWired := o.wired h.toWired
  owned := by
    intro i y hi hy
    rcases o.renews hi with ⟨rfl, rfl⟩ | hi'
    · refine ⟨name, (o.lock name).trans o.under, ?_, nofun⟩
      intro _
      rw [o.session, if_pos rfl]
    · have hne : l.name ≠ lockName := fun hn => (hfree hn).1.1 i y hi' hy
      obtain ⟨n, hln, hkept, htaken⟩ := h.owned i y hi' hy
      have hn : n ≠ name := by
        rintro rfl
        obtain rfl := Option.some.inj (o.under.symm.trans hln)
        exact hne hy
      refine ⟨n, (o.lock n).trans hln, ?_, ?_⟩
      · intro hc
        rw [o.session, if_neg hn]
        exact hkept hc
      · intro hc
        obtain ⟨q, hq⟩ := htaken hc
        exact ⟨q, o.keeps hq⟩
  lone := by
    intro q n p l' hq hp hl' hn
    rw [o.lock] at hl'
    have hne : n ≠ name := by
      rintro rfl
      obtain rfl := Option.some.inj (o.under.symm.trans hl')
      exact hapart q p (o.stops hq) hp hn
    obtain ⟨hnone, hlone⟩ := h.lone q n p l' (o.stops hq) hp hl' hn
    refine ⟨?_, fun q' p' hq' hp' => hlone q' p' (o.stops hq') hp'⟩
    rw [o.session, if_neg hne]
    exact hnone
  leased := by
    intro i y hi hy
    rcases o.renews hi with ⟨rfl, rfl⟩ | hi'
    · obtain ⟨-, expiry, hheld, hlt⟩ := hfree hy
      refine ⟨expiry, hheld, ?_⟩
      intro wake' he
      cases he
      exact hlt
    · have hne : l.name ≠ lockName := fun hn => (hfree hn).1.1 i y hi' hy
      obtain ⟨expiry, hheld, hwake⟩ := h.leased i y hi' hy
      exact ⟨expiry, o.heldUntil hheld hy (hother hne), hwake⟩
  led := by
    intro j n l' hj hl' hn
    rw [o.lock] at hl'
    rcases o.leads hj with ⟨rfl, rfl⟩ | hj'
    · obtain rfl := Option.some.inj (o.under.symm.trans hl')
      exact .inl ⟨w.nextTask + 1, _, by rw [o.role, if_pos rfl], rfl, rfl⟩
    · have hne : l.name ≠ lockName := fun hn' => (hfree hn').1.2 j n l' hj' hl' hn
      rcases h.led j n l' hj' hl' hn with ⟨i, y, hi, hm, he⟩ | ⟨hleased, q, s, hq, hm⟩
      · exact .inl ⟨i, y, o.keeps hi, hm, he⟩
      · exact .inr ⟨o.leased hleased hn (hother hne), q, s, o.keeps hq, hm⟩

/-! ## A stop takes a lease over -/

/-- A stop takes the session of a scheduler and cancels the extender. -/
structure TakesOver (w v : World) (id : TaskId) (name : String) (session : Schedule.Session) : Prop
    extends Steady w v where
  was : w.role id = some (.stops name .entering)
  held : w.session? name = some session
  extender : w.Kind session.extender .extender
  role : ∀ i, v.role i = if i = id then some (.stops name (.awaitingExtender session))
    else if i = session.extender then (w.role i).map Role.cancel else w.role i
  session : ∀ n, v.session? n = if n = name then none else w.session? n

namespace TakesOver

variable {id : TaskId} {name : String} {session : Schedule.Session}

/-- The role of the extender is still one of an extender. -/
theorem role_extender (o : w.TakesOver v id name session) {i : TaskId} {r : Role}
    (hi : (if i = session.extender then (w.role i).map Role.cancel else w.role i) = some r) :
    (i = session.extender ∧ ∃ x, w.role i = some (.renews x) ∧
      r = .renews { x with cancelled := true }) ∨ i ≠ session.extender ∧ w.role i = some r := by
  split at hi
  · rename_i hext
    obtain ⟨r₀, hr, rfl⟩ := Option.map_eq_some_iff.mp hi
    obtain ⟨x, rfl⟩ := o.extender.role_extender (hext ▸ hr)
    exact .inl ⟨hext, x, hr, rfl⟩
  · rename_i hne
    exact .inr ⟨hne, hi⟩

/-- An extender was there, and the one of the session is cancelled. -/
theorem renews (o : w.TakesOver v id name session) {i : TaskId} {y : Schedule.Extender}
    (hi : v.role i = some (.renews y)) :
    (i = session.extender ∧ ∃ x, w.role i = some (.renews x) ∧ y = { x with cancelled := true }) ∨
      i ≠ session.extender ∧ w.role i = some (.renews y) := by
  rw [o.role] at hi
  split at hi
  · cases hi
  · rcases o.role_extender hi with ⟨hext, x, hx, he⟩ | hsame
    · cases he
      exact .inl ⟨hext, x, hx, rfl⟩
    · exact .inr hsame

/-- A main loop was there. -/
theorem leads (o : w.TakesOver v id name session) {j : TaskId} {n : String} {c : Bool}
    (hj : v.role j = some (.leads n c)) : w.role j = some (.leads n c) := by
  rw [o.role] at hj
  split at hj
  · cases hj
  · rcases o.role_extender hj with ⟨-, x, -, he⟩ | ⟨-, hsame⟩
    · cases he
    · exact hsame

/-- A stop was there, but for the one that takes the session. -/
theorem stops (o : w.TakesOver v id name session) {q : TaskId} {n : String}
    {p : Schedule.StopPhase} (hq : v.role q = some (.stops n p)) :
    (q = id ∧ n = name ∧ p = .awaitingExtender session) ∨
      q ≠ id ∧ w.role q = some (.stops n p) := by
  rw [o.role] at hq
  split at hq
  · rename_i hid
    cases hq
    exact .inl ⟨hid, rfl, rfl⟩
  · rename_i hne
    rcases o.role_extender hq with ⟨-, x, -, he⟩ | ⟨-, hsame⟩
    · cases he
    · exact .inr ⟨hne, hsame⟩

/-- Stops that had begun are where they were. -/
theorem keeps (o : w.TakesOver v id name session) {q : TaskId} {n : String}
    {p : Schedule.StopPhase} (hq : w.role q = some (.stops n p)) (hp : p ≠ .entering) :
    v.role q = some (.stops n p) := by
  rw [o.role, if_neg, if_neg]
  · exact hq
  · rintro rfl
    obtain ⟨x, hx⟩ := o.extender.role_extender hq
    cases hx
  · rintro rfl
    rw [o.was] at hq
    cases hq
    exact hp rfl

/-- A session that a stop has taken stays tied to its two tasks. -/
theorem wired (o : w.TakesOver v id name session) (h : w.Wired)
    (hl : ∃ l, w.lock? name = some l) : v.Wired := by
  refine h.traced o.kind (fun n l hl => (o.lock n).trans hl) ?_ ?_
    (fun j n c hj => ⟨c, o.leads hj⟩) ?_
  · intro i y hi
    rcases o.renews hi with ⟨-, x, hx, rfl⟩ | ⟨-, hi'⟩
    · exact ⟨x, hx, rfl, rfl⟩
    · exact ⟨y, hi', rfl, rfl⟩
  · rintro n s (hsess | ⟨q, hq⟩)
    · rw [o.session] at hsess
      split at hsess
      · cases hsess
      · exact .inl hsess
    · rcases o.stops hq with ⟨-, rfl, he⟩ | ⟨-, hq'⟩
      · cases he
        exact .inl o.held
      · exact .inr ⟨q, hq'⟩
  · intro q n p hq hp
    rcases o.stops hq with ⟨-, rfl, -⟩ | ⟨-, hq'⟩
    · exact hl
    · exact h.stoppers q n p hq' hp

/-- No other stop of the scheduler had begun, since the session was still there. -/
theorem alone (o : w.TakesOver v id name session) (h : w.Lease lockName) {l : Lock}
    (hl : w.lock? name = some l) (hn : l.name = lockName) {q : TaskId} {p : Schedule.StopPhase}
    (hq : w.role q = some (.stops name p)) : p = .entering := by
  refine Classical.byContradiction fun hp => ?_
  have hnone := (h.lone q name p l hq hp hl hn).1
  rw [o.held] at hnone
  cases hnone

end TakesOver

/-- A stop that takes the session of a scheduler over has to cancel the main loop. -/
theorem Lease.takesOver (h : w.Lease lockName) (hd : w.Distinct lockName) {id : TaskId}
    {name : String} {session : Schedule.Session} (o : w.TakesOver v id name session)
    (hl : ∃ l, w.lock? name = some l)
    (hentry : v.entry (lockKey lockName) = w.entry (lockKey lockName)) : v.Lease lockName where
  toWired := o.wired h.toWired hl
  owned := by
    intro i y hi hy
    rcases o.renews hi with ⟨rfl, x, hx, rfl⟩ | ⟨hne, hi'⟩
    · obtain ⟨hm, hl'⟩ := (h.sessions name session (.inl o.held)).2.2 x hx
      refine ⟨name, (o.lock name).trans hl', nofun, fun _ => ⟨id, ?_⟩⟩
      rw [o.role, if_pos rfl, hm]
    · obtain ⟨n, hl', hkept, htaken⟩ := h.owned i y hi' hy
      refine ⟨n, (o.lock n).trans hl', ?_, ?_⟩
      · intro hc
        have hsess := hkept hc
        rw [o.session, if_neg]
        · exact hsess
        · rintro rfl
          rw [o.held] at hsess
          exact hne (congrArg Schedule.Session.extender (Option.some.inj hsess)).symm
      · intro hc
        obtain ⟨q, hq⟩ := htaken hc
        exact ⟨q, o.keeps hq nofun⟩
  lone := by
    intro q n p l' hq hp hl' hn
    rw [o.lock] at hl'
    rcases o.stops hq with ⟨rfl, rfl, -⟩ | ⟨-, hq'⟩
    · refine ⟨by rw [o.session, if_pos rfl], ?_⟩
      intro q' p' hq' hp'
      rcases o.stops hq' with ⟨rfl, -⟩ | ⟨-, hq''⟩
      · rfl
      · exact absurd (o.alone h hl' hn hq'') hp'
    · have hne : n ≠ name := by
        rintro rfl
        exact hp (o.alone h hl' hn hq')
      obtain ⟨hsess, hlone⟩ := h.lone q n p l' hq' hp hl' hn
      refine ⟨by rw [o.session, if_neg hne]; exact hsess, ?_⟩
      intro q' p' hq'' hp'
      rcases o.stops hq'' with ⟨-, hname, -⟩ | ⟨-, hq₀⟩
      · exact absurd hname hne
      · exact hlone q' p' hq₀ hp'
  leased := by
    intro i y hi hy
    have hw : ∃ x, w.role i = some (.renews x) ∧ y.lock = x.lock ∧ y.phase = x.phase := by
      rcases o.renews hi with ⟨-, x, hx, rfl⟩ | ⟨-, hi'⟩
      · exact ⟨x, hx, rfl, rfl⟩
      · exact ⟨y, hi', rfl, rfl⟩
    obtain ⟨x, hx, hlock, hphase⟩ := hw
    rw [hlock] at hy
    obtain ⟨expiry, hheld, hwake⟩ := h.leased i x hx hy
    rw [hlock, hphase]
    exact ⟨expiry, o.heldUntil hheld hy hentry, hwake⟩
  led := by
    intro j n l' hj hl' hn
    rw [o.lock] at hl'
    rcases h.led j n l' (o.leads hj) hl' hn with ⟨i, x, hi, rfl, rfl⟩ | ⟨hleased, q, s, hq, hm⟩
    · obtain ⟨expiry, hheld, -⟩ := h.leased i x hi hn
      by_cases he : i = session.extender
      · subst he
        obtain ⟨hm, hl₀⟩ := (h.sessions name session (.inl o.held)).2.2 x hi
        obtain rfl := hd n name _ _ hl' hl₀ hn hn rfl
        refine .inr ⟨⟨expiry, o.heldUntil hheld hn hentry⟩, id, session, ?_, hm.symm⟩
        rw [o.role, if_pos rfl]
      · refine .inl ⟨i, x, ?_, rfl, rfl⟩
        rw [o.role, if_neg, if_neg he]
        · exact hi
        · rintro rfl
          rw [o.was] at hi
          cases hi
    · exact .inr ⟨o.leased hleased hn hentry, q, s, o.keeps hq nofun, hm⟩

/-! ## Time passes -/

/-- Whether a lease depends on a task in time: an extender of the lock, or a stop that waits for
one and has the main loop still to cancel. -/
def tends (lockName : String) (w : World) (t : Task) : Bool :=
  match t.role? with
  | some (.renews x) => x.lock.name = lockName
  | some (.stops name (.awaitingExtender _)) => (w.lock? name).any (·.name = lockName)
  | _ => false

/-- No task that a lease depends on is late if time passes up to an instant: none could take a
step already, and none waits for an earlier instant. -/
def Punctual (lockName : String) (w : World) (t : Nat) : Prop :=
  ∀ e ∈ w.tasks.entries, w.tends lockName e.2 = true →
    e.2.ready w e.1 = false ∧ ∀ a ∈ e.2.alarms, t ≤ a

instance (lockName : String) (w : World) (t : Nat) : Decidable (w.Punctual lockName t) :=
  inferInstanceAs (Decidable (∀ e ∈ w.tasks.entries, w.tends lockName e.2 = true →
    e.2.ready w e.1 = false ∧ ∀ a ∈ e.2.alarms, t ≤ a))

namespace Punctual

variable {t : Nat}

/-- The extenders of the lock rest until then. -/
theorem rests (h : w.Punctual lockName t) {i : TaskId} {x : Schedule.Extender}
    (hi : w.role i = some (.renews x)) (hx : x.lock.name = lockName) :
    ∃ wake, x.phase = .resting wake ∧ t ≤ wake := by
  obtain ⟨u, hu, hrole⟩ := Option.bind_eq_some_iff.mp hi
  have htends : w.tends lockName u = true := by
    unfold tends
    rw [hrole]
    exact decide_eq_true hx
  obtain ⟨hready, halarms⟩ := h (i, u) (Table.mem_of_find? hu) htends
  cases u with
  | extender y =>
      cases hrole
      cases hp : x.phase with
      | resting wake =>
          refine ⟨wake, rfl, halarms wake ?_⟩
          simp [Task.alarms, hp]
      | extending =>
          have hr : Task.ready w i (.extender x) = true := by
            simp [Task.ready, Schedule.Extender.ready, hp]
          rw [hr] at hready
          cases hready
  | operation o =>
      cases o with
      | shutdownApp name p => cases p <;> cases hrole
      | _ => cases hrole
  | _ => cases hrole

/-- What a stop of a scheduler waits for is an extender that has not ended. -/
theorem awaits (h : w.Punctual lockName t) {q : TaskId} {name : String} {s : Schedule.Session}
    {l : Lock} (hq : w.role q = some (.stops name (.awaitingExtender s)))
    (hl : w.lock? name = some l) (hn : l.name = lockName) : w.running s.extender = true := by
  obtain ⟨u, hu, hrole⟩ := Option.bind_eq_some_iff.mp hq
  have htends : w.tends lockName u = true := by
    unfold tends
    rw [hrole]
    simp only [hl, Option.any_some]
    exact decide_eq_true hn
  have hready := (h (q, u) (Table.mem_of_find? hu) htends).1
  rw [Task.ready_stops q w hrole] at hready
  simpa [Schedule.StopPhase.ready] using hready

end Punctual

/-- A lock is held until its instant. -/
theorem HeldUntil.later {t : Nat} {l : Lock} {expiry : Nat} (h : w.HeldUntil l expiry)
    (ht : w.now ≤ t) (hlt : t < expiry) : HeldUntil { w with now := t } l expiry := by
  refine ⟨?_, hlt⟩
  have he : w.store.entryAt w.now (lockKey l.name) = some ⟨l.token, some expiry⟩ := h.1
  unfold entry
  rw [Store.entryAt_later w.store ht, he]
  simp [Option.filter, Entry.live, hlt]

/-- A lease goes on while time passes, up to the instant that its extender rests until. -/
theorem Lease.passes (h : w.Lease lockName) {t : Nat} (ht : w.now ≤ t)
    (hp : w.Punctual lockName t) : Lease lockName { w with now := t } where
  toWired := ⟨h.mains, h.sessions, h.leaders, h.stoppers⟩
  owned := h.owned
  lone := h.lone
  leased := by
    intro i x hi hx
    obtain ⟨expiry, hheld, hwake⟩ := h.leased i x hi hx
    obtain ⟨wake, hrests, hle⟩ := hp.rests hi hx
    exact ⟨expiry, hheld.later ht (Nat.lt_of_le_of_lt hle (hwake wake hrests)), hwake⟩
  led := by
    intro j name l hj hl hn
    rcases h.led j name l hj hl hn with hkept | ⟨-, q, s, hq, hm⟩
    · exact .inl hkept
    · obtain ⟨-, hext, hlink⟩ := h.sessions name s (.inr ⟨q, hq⟩)
      obtain ⟨u, hu⟩ := Option.isSome_iff_exists.mp (hp.awaits hq hl hn)
      have hsort := hext.unique hu
      cases u with
      | extender x =>
          have hx : w.role s.extender = some (.renews x) := role_of_find? hu
          obtain ⟨-, hlock⟩ := hlink x hx
          obtain rfl := Option.some.inj (hl.symm.trans hlock)
          obtain ⟨expiry, hheld, hwake⟩ := h.leased _ x hx hn
          obtain ⟨wake, hrests, hle⟩ := hp.rests hx hn
          exact .inr ⟨⟨expiry, hheld.later ht (Nat.lt_of_le_of_lt hle (hwake wake hrests))⟩, q, s,
            hq, hm⟩
      | _ => cases hsort

end World

end JobFleet
