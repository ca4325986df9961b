import JobFleet.Proofs.Fleet.Perform

/-!
# Where a call lands

A fault may slip a write of somebody else in before a call. The world in which the call lands
already holds that write, so what the call itself does is told apart from it: whatever the network
does, the call is carried out where it lands and answered, refused without effect, or carried out
there without being heard of again.
-/

namespace JobFleet

namespace World

variable {a : Answer} (w : World) (c : Call a)

/-- The world of a call before the network interferes: it is in the journal, and its fault is taken
from those still to come. -/
def noting : World :=
  { w.enter (.called ⟨a, c⟩) with network := (takeFault c.method w.network).2 }

/-- The world in which a call lands: whatever is slipped in before it is there. -/
def landing : World :=
  match (takeFault c.method w.network).1.bind Fault.sneak with
  | some s => ((w.noting c).carryOut (sneakCall s)).2
  | none => w.noting c

/-- The network loses the reply to a call: it meets an error that strikes only after the call has
taken effect. -/
def Unheard : Prop :=
  ∃ f, (takeFault c.method w.network).1 = some f ∧ f.error.isSome = true ∧ f.late = true

instance : Decidable (w.Unheard c) :=
  match h : (takeFault c.method w.network).1 with
  | none => .isFalse fun ⟨f, hf, _⟩ => by rw [h] at hf; cases hf
  | some f =>
      if hf : f.error.isSome = true ∧ f.late = true then .isTrue ⟨f, h, hf⟩
      else .isFalse fun ⟨g, hg, he⟩ => by rw [h] at hg; cases hg; exact hf he

@[simp] theorem landing_now : (w.landing c).now = w.now := by
  unfold landing
  split <;> rfl

/-- How a call ends, told from where it lands. -/
inductive Lands : Except StoreError a.Value × World → Prop
  | heard : Lands ((w.landing c).carryOut c)
  | stopped {e : StoreError} : Lands (.error e, w.landing c)
  | unheard {e : StoreError} (h : w.Unheard c) : Lands (.error e, ((w.landing c).carryOut c).2)

/-- Every call ends in one of three ways. -/
theorem perform_lands : Lands w c (w.perform c) := by
  unfold perform
  simp only
  rw [show (w.enter (.called ⟨a, c⟩)).network = w.network from rfl]
  cases hm : (takeFault c.method w.network).1 with
  | none =>
      have hl : w.landing c = w.noting c := by simp [landing, hm]
      have hheard : Lands w c ((w.landing c).carryOut c) := .heard
      rw [hl] at hheard
      exact hheard
  | some f =>
      have hmeet : ∀ v, w.landing c = v → Lands w c (v.meet f c) := by
        rintro v rfl
        unfold meet
        cases he : f.error with
        | none => exact .heard
        | some e =>
            cases hl : f.late with
            | false => exact .stopped
            | true => exact .unheard ⟨f, hm, by rw [he]; rfl, hl⟩
      change Lands w c ((w.noting c).suffer f c)
      unfold suffer
      cases hs : f.sneak with
      | none => exact hmeet _ (by simp [landing, hm, hs])
      | some s =>
          have hl : w.landing c = ((w.noting c).carryOut (sneakCall s)).2 := by
            simp [landing, hm, hs]
          simp only
          cases hc : (w.noting c).carryOut (sneakCall s) with
          | mk r v =>
              rw [hc] at hl
              cases r with
              | error e =>
                  obtain rfl : v = w.landing c := hl.symm
                  exact .stopped
              | ok u => exact hmeet v hl

/-- How a call ends for its key, told from what the key holds where the call lands. -/
theorem perform_ends_landing {k : String} (hk : c.key? = some k) :
    Ends (w.Unheard c) (w.landing c) c k (w.perform c) := by
  have hc := (w.landing c).carryOut_ends c hk
  generalize hp : w.perform c = p
  have hl := w.perform_lands c
  rw [hp] at hl
  cases hl with
  | heard => exact hc.mono False.elim
  | stopped => exact .refused rfl
  | unheard h =>
      rcases hc.entry_eq with he | he
      · exact .refused he
      · exact .lost h he

/-- A call changes no key but the one it may write, told from where it lands. -/
theorem perform_entry_landing {k : String} (hk : c.target ≠ some k) :
    (w.perform c).2.entry k = (w.landing c).entry k := by
  have hc := (w.landing c).carryOut_entry_of_ne c hk
  generalize hp : w.perform c = p
  have hl := w.perform_lands c
  rw [hp] at hl
  cases hl with
  | heard => exact hc
  | stopped => rfl
  | unheard _ => exact hc

/-- A call about a key of a store that can be reached is answered and leaves what its effect says.
-/
theorem carryOut_answers {w : World} {c : Call a} {k : String} (ha : w.store.available = true)
    (hk : c.key? = some k) {x : a.Value} {after : Option Entry}
    (he : c.effect w.now (w.entry k) = .ok (x, after)) :
    (w.carryOut c).1 = .ok x ∧ (w.carryOut c).2.entry k = after := by
  have hh : w.store.heldBy w.now c = w.entry k := w.store.heldBy_of_key w.now c hk
  constructor
  · have hanswer := w.store.apply_answer w.now c ha
    rw [hh, he] at hanswer
    exact hanswer
  · have hleaves := w.store.entryAt_apply w.now c ha k
    rw [if_pos hk, Call.leaves, show w.store.entryAt w.now k = w.entry k from rfl, he] at hleaves
    exact hleaves

/-- A store that can be reached takes in whatever is slipped in. -/
theorem carryOut_sneak {w : World} (ha : w.store.available = true) (s : String × Option String) :
    (w.carryOut (sneakCall s)).1 = .ok () := by
  refine (w.store.apply_answer w.now (sneakCall s) ha).trans ?_
  obtain ⟨key, value⟩ := s
  cases value <;> rfl

/-- A call takes no store away. -/
theorem carryOut_available {w : World} {c : Call a} (ha : w.store.available = true) :
    (w.carryOut c).2.store.available = true :=
  (w.store.apply_available w.now c).trans ha

/-- The store can be reached, and no fault is to come that fails a call. -/
structure Answers (w : World) : Prop where
  available : w.store.available = true
  unfailing : ∀ f ∈ w.network, f.error = none

/-- A call that nothing fails is carried out where it lands. -/
theorem Answers.perform_eq {w : World} (h : w.Answers) (c : Call a) :
    w.perform c = (w.landing c).carryOut c ∧ (w.landing c).store.available = true := by
  have ha : (w.noting c).store.available = true := h.available
  unfold perform
  simp only
  rw [show (w.enter (.called ⟨a, c⟩)).network = w.network from rfl]
  cases hm : (takeFault c.method w.network).1 with
  | none =>
      have hl : w.landing c = w.noting c := by simp [landing, hm]
      rw [hl]
      exact ⟨rfl, ha⟩
  | some f =>
      have hnone := h.unfailing f ((takeFault_spec c.method w.network).1 f hm)
      change (w.noting c).suffer f c = _ ∧ _
      unfold suffer
      cases hs : f.sneak with
      | none =>
          have hl : w.landing c = w.noting c := by simp [landing, hm, hs]
          rw [hl]
          exact ⟨by simp only [hnone], ha⟩
      | some s =>
          have hl : w.landing c = ((w.noting c).carryOut (sneakCall s)).2 := by
            simp [landing, hm, hs]
          have hok := carryOut_sneak ha s
          have hthere := carryOut_available (c := sneakCall s) ha
          rw [hl]
          cases hc : (w.noting c).carryOut (sneakCall s) with
          | mk answer v =>
              rw [hc] at hok hthere
              cases hok
              exact ⟨by simp only [hc, hnone], hthere⟩

/-- A call about a key that nothing fails is answered and leaves what its effect says, given what
the key holds where the call lands. -/
theorem Answers.answers {w : World} (h : w.Answers) {c : Call a} {k : String}
    (hk : c.key? = some k) {x : a.Value} {after : Option Entry}
    (he : c.effect w.now ((w.landing c).entry k) = .ok (x, after)) :
    (w.perform c).1 = .ok x ∧ (w.perform c).2.entry k = after := by
  obtain ⟨hcarried, ha⟩ := h.perform_eq c
  rw [← w.landing_now c] at he
  rw [hcarried]
  exact carryOut_answers ha hk he

/-- A store that answers still answers after a call. -/
theorem Answers.perform {w : World} (h : w.Answers) (c : Call a) : (w.perform c).2.Answers where
  available := by
    obtain ⟨hcarried, ha⟩ := h.perform_eq c
    rw [hcarried]
    exact carryOut_available ha
  unfailing := by
    intro f hf
    obtain ⟨g, hg, halike⟩ := w.perform_network c f hf
    rw [halike.2.1, h.unfailing g hg]

/-- A store that answers delays nothing. -/
theorem Answers.prompt {w : World} (h : w.Answers) : w.Prompt := by
  intro f hf he
  rw [h.unfailing f hf] at he
  cases he

/-- A call whose reply is lost is answered with an error. -/
theorem Unheard.error {w : World} {c : Call a} (h : w.Unheard c) :
    ∃ e, (w.perform c).1 = .error e := by
  obtain ⟨f, hf, he, hlate⟩ := h
  obtain ⟨e, he⟩ := Option.isSome_iff_exists.mp he
  unfold perform
  simp only
  rw [show (w.enter (.called ⟨a, c⟩)).network = w.network from rfl, hf]
  simp only [suffer]
  cases f.sneak with
  | none => exact ⟨e, by simp only [he]⟩
  | some s =>
      simp only
      split
      · rename_i e' _
        exact ⟨e', rfl⟩
      · exact ⟨e, by simp only [he]⟩

end World

end JobFleet
