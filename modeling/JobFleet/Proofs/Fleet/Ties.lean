import JobFleet.Proofs.Fleet.Controllers
import JobFleet.Proofs.Fleet.Lease

/-!
# Whom those who control a scheduler may cancel

The sessions of schedulers name a main loop and an extender, an extender names a main loop, and a
stop that has taken a session keeps its names. So no extender, start or stop of a scheduler ever
cancels anything but main loops and extenders.
-/

namespace JobFleet

namespace World

/-- What extenders and sessions name: main loops and extenders. -/
structure Tied (w : World) : Prop where
  mains : ∀ i x, w.role i = some (.renews x) → w.Kind x.main .mainLoop
  sessions : ∀ name s, w.Holds name s →
    w.Kind s.main .mainLoop ∧ w.Kind s.extender .extender

variable {w v : World}

/-- A world in which nobody names anything new. -/
structure NamesNoMore (w v : World) : Prop where
  kind : ∀ i s, w.Kind i s → v.Kind i s
  renews : ∀ i y, v.role i = some (.renews y) →
    ∃ j x, w.role j = some (.renews x) ∧ y.main = x.main
  holds : ∀ name s, v.Holds name s → ∃ n, w.Holds n s

/-- A change that names no more tasks leaves them tied. -/
theorem Tied.of_namesNoMore (h : w.Tied) (hv : w.NamesNoMore v) : v.Tied where
  mains := by
    intro i y hi
    obtain ⟨j, x, hj, he⟩ := hv.renews i y hi
    rw [he]
    exact hv.kind _ _ (h.mains j x hj)
  sessions := by
    intro name s hs
    obtain ⟨n, hn⟩ := hv.holds name s hs
    obtain ⟨hmain, hext⟩ := h.sessions n s hn
    exact ⟨hv.kind _ _ hmain, hv.kind _ _ hext⟩

/-- The roles after a step: the mover's own is what the step leaves, and the others are as they
were but for a task that may have been cancelled. -/
theorem NamesNoMore.of_put {u : World} {id : TaskId} {left : Option Task}
    (kind : ∀ i s, w.Kind i s → (u.put id left).Kind i s)
    (role : ∀ i, u.role i = w.role i ∨ u.role i = (w.role i).map Role.cancel)
    (renews : ∀ y, left.bind Task.role? = some (.renews y) →
      ∃ j x, w.role j = some (.renews x) ∧ y.main = x.main)
    (stops : ∀ name s, left.bind Task.role? = some (.stops name (.awaitingExtender s)) →
      ∃ n, w.Holds n s)
    (session : ∀ name s, u.session? name = some s → w.session? name = some s) :
    w.NamesNoMore (u.put id left) := by
  have hback : ∀ i r, u.role i = some r →
      ∃ r₀, w.role i = some r₀ ∧ (r = r₀ ∨ r = r₀.cancel) := by
    intro i r hr
    rcases role i with he | he
    · exact ⟨r, he.symm.trans hr, .inl rfl⟩
    · obtain ⟨r₀, hr₀, hc⟩ := Option.map_eq_some_iff.mp (he.symm.trans hr)
      exact ⟨r₀, hr₀, .inr hc.symm⟩
  refine ⟨kind, ?_, ?_⟩
  · intro i y hy
    rw [role_put] at hy
    by_cases hi : i = id
    · rw [if_pos hi] at hy
      exact renews y hy
    · rw [if_neg hi] at hy
      obtain ⟨r₀, hr₀, rfl | hc⟩ := hback i _ hy
      · exact ⟨i, y, hr₀, rfl⟩
      · cases r₀ with
        | renews x =>
            cases hc
            exact ⟨i, x, hr₀, rfl⟩
        | _ => cases hc
  · rintro name s (hs | ⟨q, hq⟩)
    · rw [session?_put] at hs
      exact ⟨name, .inl (session name s hs)⟩
    · rw [role_put] at hq
      by_cases hi : q = id
      · rw [if_pos hi] at hq
        exact stops name s hq
      · rw [if_neg hi] at hq
        obtain ⟨r₀, hr₀, rfl | hc⟩ := hback q _ hq
        · exact ⟨name, .inr ⟨q, hr₀⟩⟩
        · cases r₀ with
          | stops n p =>
              cases hc
              exact ⟨name, .inr ⟨q, hr₀⟩⟩
          | _ => cases hc

/-- A step of a task that keeps its role or loses it, and leaves the other roles alone. -/
theorem NamesNoMore.of_alike {u : World} {id : TaskId} {left : Option Task} (h : w.Alike u)
    (kind : ∀ i s, w.Kind i s → (u.put id left).Kind i s)
    (hleft : left.bind Task.role? = w.role id ∨ left.bind Task.role? = none) :
    w.NamesNoMore (u.put id left) := by
  refine .of_put kind (fun i => .inl (h.role i)) ?_ ?_ fun name s hs => (h.session name) ▸ hs
  · intro y hy
    rcases hleft with he | he
    · exact ⟨id, y, he.symm.trans hy, rfl⟩
    · rw [he] at hy
      cases hy
  · intro name s hs
    rcases hleft with he | he
    · exact ⟨name, .inr ⟨id, he.symm.trans hs⟩⟩
    · rw [he] at hs
      cases hs

/-- A cancellation touches the role of one task at the most. -/
theorem role_cancel_cases (w : World) (id i : TaskId) :
    (w.cancel id).role i = w.role i ∨ (w.cancel id).role i = (w.role i).map Role.cancel := by
  rw [role_cancel]
  split
  · exact .inr rfl
  · exact .inl rfl

namespace Tied

variable {id : TaskId} {t : Task}

/-- A turn of an extender names nobody new. -/
theorem extender (h : w.Tied) {x : Schedule.Extender} (hx : w.role id = some (.renews x))
    {next : Progress Schedule.Extender Unit} {u : World} (hturn : x.Turn w next u)
    (hkind : ∀ i s, w.Kind i s → (u.put id (next.kept .extender fun _ => none)).Kind i s) :
    (u.put id (next.kept .extender fun _ => none)).Tied := by
  have hsame : ∀ p : Schedule.Extender.Phase, next = .on { x with phase := p } → w.Alike u →
      (u.put id (next.kept .extender fun _ => none)).Tied := by
    rintro p rfl ha
    refine h.of_namesNoMore
      (.of_put hkind (fun i => .inl (ha.role i)) ?_ nofun fun name s hs => (ha.session name) ▸ hs)
    rintro z ⟨⟩
    exact ⟨id, x, hx, rfl⟩
  cases hturn with
  | quits hp hc => exact h.of_namesNoMore (.of_alike (.refl w) hkind (.inr rfl))
  | wakes hp hc => exact hsame _ rfl (.refl w)
  | renews hp ha => exact hsame _ rfl ((alike_of_perform ha).log _)
  | @demotes a cause u hp ha hne =>
      have halike := alike_of_perform ha
      refine h.of_namesNoMore (.of_put hkind ?_ nofun nofun ?_)
      · intro i
        have hc := role_cancel_cases (u.log (.schedule (.demoted x.lock.name cause))) x.main i
        rwa [(halike.log _).role i] at hc
      · intro name s hs
        exact (halike.session name) ▸ hs

/-- A session begins with a new main loop and a new extender. -/
theorem launch (h : w.Tied) {name : String} {l : Lock} {u : World} {left : Option Task}
    (hu : w.Alike u) (hn : u.nextTask = w.nextTask) (hid : id < w.nextTask)
    (hleft : left.bind Task.role? = none)
    (hkind : ∀ i s, w.Kind i s → ((Schedule.StartPhase.launch name l u).put id left).Kind i s) :
    ((Schedule.StartPhase.launch name l u).put id left).Tied := by
  have hmain : ((Schedule.StartPhase.launch name l u).put id left).Kind w.nextTask .mainLoop := by
    have hk := Schedule.StartPhase.launch_main name l u
    rw [hn] at hk
    exact hk.put id left fun he => absurd he (Nat.ne_of_gt hid)
  have hext : ((Schedule.StartPhase.launch name l u).put id left).Kind (w.nextTask + 1)
      .extender := by
    have hk := Schedule.StartPhase.launch_extender name l u
    rw [hn] at hk
    exact hk.put id left fun he => absurd he (Nat.ne_of_gt (Nat.lt_succ_of_lt hid))
  have hrole : ∀ i r, ((Schedule.StartPhase.launch name l u).put id left).role i = some r →
      r = .renews ⟨l, w.nextTask, false, .resting (Clock.alarm u.now l.renewInterval)⟩ ∨
        r = .leads name false ∨ w.role i = some r := by
    intro i r hr
    rw [role_put] at hr
    split at hr
    · rw [hleft] at hr
      cases hr
    · rw [Schedule.StartPhase.launch_role, hn] at hr
      split at hr
      · cases hr
        exact .inl rfl
      · split at hr
        · cases hr
          exact .inr (.inl rfl)
        · exact .inr (.inr ((hu.role i).symm.trans hr))
  constructor
  · intro i y hy
    rcases hrole i _ hy with he | he | hold
    · cases he
      exact hmain
    · cases he
    · exact hkind _ _ (h.mains i y hold)
  · have hold : ∀ n s, w.Holds n s →
        ((Schedule.StartPhase.launch name l u).put id left).Kind s.main .mainLoop ∧
          ((Schedule.StartPhase.launch name l u).put id left).Kind s.extender .extender := by
      intro n s hs
      obtain ⟨hm, he⟩ := h.sessions n s hs
      exact ⟨hkind _ _ hm, hkind _ _ he⟩
    rintro n s (hs | ⟨q, hq⟩)
    · rw [session?_put] at hs
      have hfind : (Schedule.StartPhase.launch name l u).session? n =
          if n = name then ((u.schedulers.find? name).map fun s =>
            { s with gate := none, session := some ⟨u.nextTask, u.nextTask + 1⟩ }).bind
              Scheduler.session
          else u.session? n := session?_modifyScheduler _ name n
      rw [hfind] at hs
      by_cases hname : n = name
      · rw [if_pos hname] at hs
        cases hsched : u.schedulers.find? name with
        | none =>
            rw [hsched] at hs
            cases hs
        | some sched =>
            rw [hsched, hn] at hs
            cases hs
            exact ⟨hmain, hext⟩
      · rw [if_neg hname] at hs
        exact hold n s (.inl ((hu.session n).symm.trans hs))
    · rcases hrole q _ hq with he | he | hq'
      · cases he
      · cases he
      · exact hold n s (.inr ⟨q, hq'⟩)

/-- A turn of a start names nobody but the main loop and the extender that it starts. -/
theorem starts (h : w.Tied) (hfresh : w.Fresh) (ht : w.tasks.find? id = some t) {name : String}
    {p : Schedule.StartPhase} {next : Progress Schedule.StartPhase Bool} {u : World}
    (hturn : p.Turn id name w next u) {left : Option Task} (hleft : left.bind Task.role? = none)
    (hkind : ∀ i s, w.Kind i s → (u.put id left).Kind i s) : (u.put id left).Tied := by
  have hquiet : w.Alike u → (u.put id left).Tied := fun ha =>
    h.of_namesNoMore (.of_alike ha hkind (.inr hleft))
  have hsched : ∀ {v : World}, w.Alike v → ∀ f : Scheduler → Scheduler,
      (∀ s, (f s).lock = s.lock ∧ (f s).session = s.session) →
      w.Alike (v.modifyScheduler name f) := fun ha f hf =>
    ha.trans (alike_modifyScheduler hf _ name)
  cases hturn with
  | misses hs => exact hquiet (.refl w)
  | rests hs hp hr => exact hquiet (.refl w)
  | enters hs hp hr => exact hquiet (hsched (.refl w) _ fun _ => ⟨rfl, rfl⟩)
  | loses hs hp ha hne =>
      exact hquiet (hsched ((alike_of_perform ha).log _) _ fun _ => ⟨rfl, rfl⟩)
  | @wins s u hs hp ha =>
      have hn := w.perform_nextTask s.lock.acquire
      rw [ha] at hn
      exact h.launch (alike_of_perform ha) hn (hfresh.lt ht) hleft hkind

/-- A turn of a stop names at most the session that it takes. -/
theorem stops (h : w.Tied) {name : String} {p : Schedule.StopPhase}
    {next : Progress Schedule.StopPhase Unit} {u : World} (hturn : p.Turn name w next u)
    {left : Option Task} (hleft : left.bind Task.role? = next.state?.map (.stops name))
    (hkind : ∀ i s, w.Kind i s → (u.put id left).Kind i s) : (u.put id left).Tied := by
  have hends : next = .ended () → w.Alike u → (u.put id left).Tied := by
    rintro rfl ha
    exact h.of_namesNoMore (.of_alike ha hkind (.inr hleft))
  cases hturn with
  | misses hs => exact hends rfl (.refl w)
  | rests hs hp hn => exact hends rfl (.refl w)
  | releases hs hp ha => exact hends rfl ((alike_of_perform ha).log _)
  | waits hs hp =>
      refine h.of_namesNoMore (.of_put hkind (fun i => .inl rfl) ?_ ?_ fun name s hs => hs)
      · rw [hleft]
        nofun
      · rw [hleft]
        nofun
  | @cancels s session hs hp =>
      refine h.of_namesNoMore (.of_put hkind (role_cancel_cases w session.main) ?_ ?_ ?_)
      · rw [hleft]
        nofun
      · rw [hleft]
        nofun
      · exact fun _ _ hs => hs
  | @takes s session hs hp hn =>
      refine h.of_namesNoMore (.of_put hkind ?_ ?_ ?_ ?_)
      · exact role_cancel_cases (w.modifyScheduler name _) session.extender
      · rw [hleft]
        nofun
      · intro n s' hs'
        rw [hleft] at hs'
        cases hs'
        refine ⟨name, .inl ?_⟩
        rw [session?, hs]
        exact hn
      · intro n s' hs'
        have hfind : (w.modifyScheduler name fun s => { s with session := none }).session? n =
            some s' := hs'
        rw [session?_modifyScheduler] at hfind
        split at hfind
        · rw [hs] at hfind
          cases hfind
        · exact hfind

/-- Where nothing but stops has been asked for, nobody new is named. -/
theorem still (h : w.Tied) (hv : w.Still v) (kind : ∀ i s, w.Kind i s → v.Kind i s) : v.Tied := by
  refine h.of_namesNoMore ⟨kind, ?_, ?_⟩
  · intro i y hy
    rcases hv.role i _ hy with hw | ⟨-, name, he⟩
    · exact ⟨i, y, hw, rfl⟩
    · cases he
  · rintro name s (hs | ⟨q, hq⟩)
    · exact ⟨name, .inl ((hv.session name).symm.trans hs)⟩
    · rcases hv.role q _ hq with hw | ⟨-, n, he⟩
      · exact ⟨name, .inr ⟨q, hw⟩⟩
      · cases he

/-- Every move keeps what extenders and sessions name. -/
theorem move (h : w.Tied) (hs : w.Sound) (hseat : w.Seated) {m : Move} (hm : w.Admits m) :
    (w.move m).Tied := by
  have hkind : ∀ i s, w.Kind i s → (w.move m).Kind i s := fun i s hk => hk.move hm
  cases m with
  | step id =>
      obtain ⟨t, ht, -, he⟩ := move_step hm
      rw [he] at hkind ⊢
      cases hc : t.controls with
      | false =>
          have halike := (t.act_via id w).alike hs.fresh fun _ hd => hd.blind ht hc hs hseat
          refine h.of_namesNoMore (.of_alike halike hkind ?_)
          rw [role_of_find? ht]
          rcases Task.act_role id w hc with hsame | ⟨-, hnone⟩
          · exact .inl hsame
          · rw [hnone]
            exact .inr rfl
      | true =>
          rcases Task.controls_cases hc with ⟨x, rfl⟩ | ⟨name, p, hp⟩ | ⟨name, p, hp⟩
          · exact h.extender (role_of_find? ht) (x.step_turn w) hkind
          · obtain ⟨-, hleft, next, hturn⟩ := Task.act_starts id w hp
            exact h.starts hs.fresh ht hturn hleft hkind
          · obtain ⟨next, hturn, hleft⟩ := Task.act_stops id w hp
            exact h.stops hturn hleft hkind
  | _ => exact h.still (hs.fresh.still hm nofun) hkind

end Tied

theorem tied_around (utc : Int) (s : Store) : (around utc s).Tied where
  mains := by
    intro i x hi
    cases hi
  sessions := by
    rintro name s (hs | ⟨q, hq⟩)
    · cases hs
    · cases hq

end World

end JobFleet
