import JobFleet.Fleet.World
import JobFleet.Proofs.Store.Effect

/-!
# What a call of the fleet changes

A call that goes through the network changes the store, the faults still to come and the
journal, and nothing else. If no fault slips a write in under its key, it is carried out and
answered, refused without effect, or carried out without an answer; the last happens only if a
fault loses replies.
-/

namespace JobFleet

namespace Fault

/-- A fault slips no write in under a key. -/
def Spares (k : String) (f : Fault) : Prop := ∀ s, f.sneak = some s → s.1 ≠ k

/-- A fault loses no reply: a call that it fails has had no effect. -/
def Prompt (f : Fault) : Prop := f.error.isSome → f.late = false

/-- Two faults do the same, though not to the same calls. -/
def Alike (f g : Fault) : Prop := f.sneak = g.sneak ∧ f.error = g.error ∧ f.late = g.late

/-- A fault is like itself. -/
theorem Alike.refl (f : Fault) : f.Alike f := ⟨rfl, rfl, rfl⟩

/-- Faults that are like one another have one kind. -/
theorem Alike.trans {f g h : Fault} (hf : f.Alike g) (hg : g.Alike h) : f.Alike h :=
  ⟨hf.1.trans hg.1, hf.2.1.trans hg.2.1, hf.2.2.trans hg.2.2⟩

/-- Which keys a fault spares does not depend on how often it is met. -/
theorem Alike.spares {f g : Fault} (h : f.Alike g) {k : String} (hg : g.Spares k) :
    f.Spares k := by
  intro s hs
  exact hg s (h.1 ▸ hs)

/-- Whether a fault loses replies does not depend on how often it is met. -/
theorem Alike.prompt {f g : Fault} (h : f.Alike g) (hg : g.Prompt) : f.Prompt := by
  intro he
  rw [h.2.2]
  exact hg (h.2.1 ▸ he)

end Fault

namespace World

/-- What a key holds now. -/
def entry (w : World) (k : String) : Option Entry := w.store.entryAt w.now k

/-- No fault slips a write in under a key. -/
def Spared (w : World) (k : String) : Prop := ∀ f ∈ w.network, f.Spares k

/-- No fault loses a reply. -/
def Prompt (w : World) : Prop := ∀ f ∈ w.network, f.Prompt

/-- Every fault of a network does what some fault of another one does. -/
def Inherits (after before : List Fault) : Prop := ∀ f ∈ after, ∃ g ∈ before, f.Alike g

/-- Every fault is there already. -/
theorem inherits_refl (fs : List Fault) : Inherits fs fs := by
  intro f hf
  exact ⟨f, hf, Fault.Alike.refl f⟩

/-- Faults that were there before the middle were there at the beginning. -/
theorem Inherits.trans {fs gs hs : List Fault} (h : Inherits fs gs) (h' : Inherits gs hs) :
    Inherits fs hs := by
  intro f hf
  obtain ⟨g, hg, hfg⟩ := h f hf
  obtain ⟨i, hi, hgi⟩ := h' g hg
  exact ⟨i, hi, hfg.trans hgi⟩

/-- One more fault on both sides. -/
theorem Inherits.cons {fs gs : List Fault} {f g : Fault} (hf : f.Alike g) (h : Inherits fs gs) :
    Inherits (f :: fs) (g :: gs) := by
  intro i hi
  rcases List.mem_cons.mp hi with rfl | hm
  · exact ⟨g, List.mem_cons_self, hf⟩
  · obtain ⟨j, hj, hij⟩ := h i hm
    exact ⟨j, List.mem_cons_of_mem _ hj, hij⟩

/-- The fault that a call meets is one of the network, and those still to come do what they
did. -/
theorem takeFault_spec (m : Method) (fs : List Fault) :
    (∀ f, (takeFault m fs).1 = some f → f ∈ fs) ∧ Inherits (takeFault m fs).2 fs := by
  have hnone : ∀ fs : List Fault, ∀ f, (none : Option Fault) = some f → f ∈ fs := by
    intro fs f hf
    cases hf
  induction fs with
  | nil => exact ⟨hnone _, inherits_refl []⟩
  | cons g rest ih =>
      unfold takeFault
      split
      · split
        · exact ⟨hnone _, Inherits.cons ⟨rfl, rfl, rfl⟩ (inherits_refl rest)⟩
        · refine ⟨?_, Inherits.cons ⟨rfl, rfl, rfl⟩ (inherits_refl rest)⟩
          rintro f ⟨rfl⟩
          exact List.mem_cons_self
      · refine ⟨?_, Inherits.cons (Fault.Alike.refl g) ih.2⟩
        intro f hf
        exact List.mem_cons_of_mem _ (ih.1 f hf)

variable {a : Answer} (w : World) (c : Call a)

/-- A fault changes the store and nothing else. -/
theorem suffer_eq (f : Fault) : ∃ s, (w.suffer f c).2 = { w with store := s } := by
  unfold suffer
  cases hf : f.sneak with
  | none =>
      simp only
      cases f.error with
      | none => exact ⟨_, rfl⟩
      | some e => cases f.late <;> exact ⟨_, rfl⟩
  | some s =>
      simp only
      cases hs : w.carryOut (sneakCall s) with
      | mk r v =>
          have hv : v = (w.carryOut (sneakCall s)).2 := by rw [hs]
          cases r with
          | error e => exact ⟨_, hv⟩
          | ok u =>
              subst hv
              cases f.error with
              | none => exact ⟨_, rfl⟩
              | some e => cases f.late <;> exact ⟨_, rfl⟩

/-- A call changes the store, the faults still to come and the journal. -/
theorem perform_eq : ∃ s fs, Inherits fs w.network ∧
    (w.perform c).2 = { w with store := s, network := fs,
                               journal := (w.now, .called ⟨a, c⟩) :: w.journal } := by
  have hn := (takeFault_spec c.method w.network).2
  unfold perform
  simp only [enter]
  cases hm : (takeFault c.method w.network).1 with
  | none => exact ⟨_, _, hn, rfl⟩
  | some f =>
      obtain ⟨s, hs⟩ := suffer_eq
        { w with journal := (w.now, .called ⟨a, c⟩) :: w.journal,
                 network := (takeFault c.method w.network).2 } c f
      exact ⟨s, _, hn, hs⟩

/-- A call takes no time. -/
@[simp] theorem perform_now : (w.perform c).2.now = w.now := by
  obtain ⟨s, fs, -, h⟩ := w.perform_eq c
  rw [h]

/-- A call leaves the tasks alone. -/
@[simp] theorem perform_tasks : (w.perform c).2.tasks = w.tasks := by
  obtain ⟨s, fs, -, h⟩ := w.perform_eq c
  rw [h]

/-- A call leaves the next task's number alone. -/
@[simp] theorem perform_nextTask : (w.perform c).2.nextTask = w.nextTask := by
  obtain ⟨s, fs, -, h⟩ := w.perform_eq c
  rw [h]

/-- A call leaves the runners alone. -/
@[simp] theorem perform_runners : (w.perform c).2.runners = w.runners := by
  obtain ⟨s, fs, -, h⟩ := w.perform_eq c
  rw [h]

/-- A call leaves the schedulers alone. -/
@[simp] theorem perform_schedulers : (w.perform c).2.schedulers = w.schedulers := by
  obtain ⟨s, fs, -, h⟩ := w.perform_eq c
  rw [h]

/-- A call leaves what runners are told alone. -/
@[simp] theorem perform_runnerConfig (name : String) :
    (w.perform c).2.runnerConfig name = w.runnerConfig name := by
  rw [runnerConfig, perform_runners, runnerConfig]

/-- A call enters itself in the journal, and nothing else. -/
@[simp] theorem perform_journal :
    (w.perform c).2.journal = (w.now, .called ⟨a, c⟩) :: w.journal := by
  obtain ⟨s, fs, -, h⟩ := w.perform_eq c
  rw [h]

/-- A call adds no fault. -/
theorem perform_network : Inherits (w.perform c).2.network w.network := by
  obtain ⟨s, fs, hn, h⟩ := w.perform_eq c
  rw [h]
  exact hn

/-- Faults that come from those of a world spare what those do. -/
theorem Spared.inherits {w v : World} {k : String} (h : w.Spared k)
    (hn : Inherits v.network w.network) : v.Spared k := by
  intro f hf
  obtain ⟨g, hg, hfg⟩ := hn f hf
  exact hfg.spares (h g hg)

/-- What is slipped in is written under its key. -/
theorem sneakCall_target (s : String × Option String) : (sneakCall s).target = some s.1 := by
  obtain ⟨k, v⟩ := s
  cases v <;> rfl

/-- How a call can end for the key that it is about, where replies may be lost or not. -/
inductive Ends (late : Prop) (w : World) (c : Call a) (k : String) :
    Except StoreError a.Value × World → Prop
  | answered {v : a.Value} {after : Option Entry} {w' : World}
      (effect : c.effect w.now (w.entry k) = .ok (v, after)) (entry : w'.entry k = after) :
      Ends late w c k (.ok v, w')
  | refused {e : StoreError} {w' : World} (entry : w'.entry k = w.entry k) :
      Ends late w c k (.error e, w')
  | lost {e : StoreError} {w' : World} (lossy : late)
      (entry : w'.entry k = c.leaves w.now (w.entry k)) : Ends late w c k (.error e, w')

variable {w c}

/-- A weaker reason for a lost reply. -/
theorem Ends.mono {late late' : Prop} (h : late → late') {k : String}
    {p : Except StoreError a.Value × World} (he : Ends late w c k p) : Ends late' w c k p := by
  cases he with
  | answered effect entry => exact .answered effect entry
  | refused entry => exact .refused entry
  | lost lossy entry => exact .lost (h lossy) entry

/-- How a call ends depends on the world only through the clock and the key. -/
theorem Ends.congr {late : Prop} {v : World} {k : String}
    {p : Except StoreError a.Value × World} (he : Ends late v c k p) (hn : v.now = w.now)
    (hk : v.entry k = w.entry k) : Ends late w c k p := by
  cases he with
  | answered effect entry => exact .answered (by rw [← hn, ← hk, effect]) entry
  | refused entry => exact .refused (entry.trans hk)
  | lost lossy entry => exact .lost lossy (by rw [entry, hn, hk])

/-- The key then holds what it held or what the call leaves. -/
theorem Ends.entry_eq {late : Prop} {k : String} {p : Except StoreError a.Value × World}
    (he : Ends late w c k p) : p.2.entry k = w.entry k ∨ p.2.entry k = c.leaves w.now (w.entry k)
    := by
  cases he with
  | answered effect entry => exact Or.inr (by rw [entry, Call.leaves, effect])
  | refused entry => exact Or.inl entry
  | lost lossy entry => exact Or.inr entry

variable (w c)

/-- Carrying a call out answers it or refuses it without effect. -/
theorem carryOut_ends {k : String} (hk : c.key? = some k) : Ends False w c k (w.carryOut c) := by
  have hh : w.store.heldBy w.now c = w.entry k := w.store.heldBy_of_key w.now c hk
  unfold carryOut
  cases hs : w.store.available with
  | false =>
      rw [Store.apply_unavailable hs]
      exact .refused rfl
  | true =>
      have ha := w.store.apply_answer w.now c hs
      have he := w.store.apply_entryAt w.now c hs k
      rw [hh] at ha he
      rw [if_pos hk, Call.leaves] at he
      cases hc : c.effect w.now (w.entry k) with
      | error e =>
          rw [hc] at ha he
          simp only [ha, Except.map]
          exact .refused he
      | ok p =>
          rw [hc] at ha he
          simp only [ha, Except.map]
          exact .answered hc he

/-- A call leaves the keys that it does not write. -/
theorem carryOut_entry_of_ne {k : String} (hk : c.target ≠ some k) :
    (w.carryOut c).2.entry k = w.entry k :=
  w.store.apply_entryAt_of_ne w.now c hk

/-- What a fault slips in keeps every key that it spares. -/
theorem entry_slip {f : Fault} {k : String} (hf : f.Spares k) {s : String × Option String}
    (hs : f.sneak = some s) : (w.carryOut (sneakCall s)).2.entry k = w.entry k := by
  apply carryOut_entry_of_ne
  rw [sneakCall_target]
  intro he
  exact hf s hs (Option.some.inj he)

/-- What becomes of a call under a fault when whatever is slipped in is there already. -/
def meet (w : World) (f : Fault) (c : Call a) : Except StoreError a.Value × World :=
  match f.error with
  | none => w.carryOut c
  | some e => (.error e, if f.late then (w.carryOut c).2 else w)

/-- Whatever is slipped in, the call itself meets the same entry at the same instant. -/
theorem meet_ends {f : Fault} {k : String} (hk : c.key? = some k) {v : World}
    (hn : v.now = w.now) (hv : v.entry k = w.entry k) :
    Ends (¬ f.Prompt) w c k (v.meet f c) := by
  have hc := v.carryOut_ends c hk
  unfold meet
  cases he : f.error with
  | none => exact (hc.congr hn hv).mono False.elim
  | some e =>
      cases hl : f.late with
      | false => exact .refused hv
      | true =>
          have hp : ¬ f.Prompt := by
            intro h
            have hfalse := h (by rw [he]; rfl)
            rw [hl] at hfalse
            cases hfalse
          rcases (hc.congr hn hv).entry_eq with h | h
          · exact .refused h
          · exact .lost hp h

/-- A call that meets a fault leaves the keys that it does not write. -/
theorem meet_entry_of_ne {f : Fault} {k : String} (hk : c.target ≠ some k) :
    (w.meet f c).2.entry k = w.entry k := by
  have hc := w.carryOut_entry_of_ne c hk
  unfold meet
  cases f.error with
  | none => exact hc
  | some e =>
      cases f.late with
      | false => rfl
      | true => exact hc

/-- A call under a fault that slips nothing in under its key. -/
theorem suffer_ends {f : Fault} {k : String} (hk : c.key? = some k) (hs : f.Spares k) :
    Ends (¬ f.Prompt) w c k (w.suffer f c) := by
  unfold suffer
  cases hf : f.sneak with
  | none => exact w.meet_ends c hk rfl rfl
  | some s =>
      have hv := w.entry_slip hs hf
      have hn : (w.carryOut (sneakCall s)).2.now = w.now := rfl
      simp only
      cases hc : w.carryOut (sneakCall s) with
      | mk r v =>
          rw [hc] at hv hn
          cases r with
          | error e => exact .refused hv
          | ok u => exact w.meet_ends c hk hn hv

/-- A call that suffers a fault leaves the keys that neither of them writes. -/
theorem suffer_entry_of_ne {f : Fault} {k : String} (hk : c.target ≠ some k)
    (hs : f.Spares k) : (w.suffer f c).2.entry k = w.entry k := by
  unfold suffer
  cases hf : f.sneak with
  | none => exact w.meet_entry_of_ne c hk
  | some s =>
      have hv := w.entry_slip hs hf
      simp only
      cases hc : w.carryOut (sneakCall s) with
      | mk r v =>
          rw [hc] at hv
          cases r with
          | error e => exact hv
          | ok u => exact (v.meet_entry_of_ne c hk).trans hv

/-- How a call ends for its key, if no fault slips a write in under it. -/
theorem perform_ends {k : String} (hk : c.key? = some k) (hs : w.Spared k) :
    Ends (¬ w.Prompt) w c k (w.perform c) := by
  have ht := (takeFault_spec c.method w.network).1
  unfold perform
  simp only [enter]
  cases hm : (takeFault c.method w.network).1 with
  | none =>
      have h := carryOut_ends
        { w with journal := (w.now, .called ⟨a, c⟩) :: w.journal,
                 network := (takeFault c.method w.network).2 } c hk
      have hw := h.congr (w := w) rfl rfl
      exact hw.mono False.elim
  | some f =>
      have hf := ht f hm
      have h := suffer_ends
        { w with journal := (w.now, .called ⟨a, c⟩) :: w.journal,
                 network := (takeFault c.method w.network).2 } c hk (hs f hf)
      have hw := h.congr (w := w) rfl rfl
      exact hw.mono fun hp hall => hp (hall f hf)

/-- A call changes no key but the one it may write, if no fault slips a write in. -/
theorem perform_entry_of_ne {k : String} (hk : c.target ≠ some k) (hs : w.Spared k) :
    (w.perform c).2.entry k = w.entry k := by
  have ht := (takeFault_spec c.method w.network).1
  unfold perform
  simp only [enter]
  cases hm : (takeFault c.method w.network).1 with
  | none =>
      exact carryOut_entry_of_ne
        { w with journal := (w.now, .called ⟨a, c⟩) :: w.journal,
                 network := (takeFault c.method w.network).2 } c hk
  | some f =>
      exact suffer_entry_of_ne
        { w with journal := (w.now, .called ⟨a, c⟩) :: w.journal,
                 network := (takeFault c.method w.network).2 } c hk (hs f (ht f hm))

end World

end JobFleet
