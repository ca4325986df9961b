import JobFleet.Proofs.Fleet.Landing
import JobFleet.Proofs.Fleet.Writers
import JobFleet.Proofs.Store.Overflow

/-!
# Calls that are served

While the store can be reached and no fault is left that fails calls or slips a write in under a
key, a call about the key is answered from what the key holds, and takes effect once. It stays so
as long as nothing cuts the store off and nobody else writes the key.
-/

namespace JobFleet

/-- A look does not overflow. -/
theorem Call.Looks.overflows {a : Answer} {c : Call a} (h : c.Looks) (now : Nat)
    (held : Option Entry) : c.overflows now held = false := by
  cases h <;> rfl

/-- A fault that calls about a key do not notice: it is used up, or it fails no call and slips
nothing in under the key. -/
def Fault.Unnoticed (k : String) (f : Fault) : Prop :=
  f.times = 0 ∨ (f.error = none ∧ f.Spares k)

namespace World

/-- Calls about a key are answered from what the key holds. -/
structure Serves (k : String) (w : World) : Prop where
  available : w.store.available = true
  network : ∀ f ∈ w.network, f.Unnoticed k

variable {k : String}

/-- A store at hand behind a quiet network serves every key. -/
theorem serves_of_undisturbed {w : World} (ha : w.store.available = true) (hn : w.network = []) :
    w.Serves k := by
  refine ⟨ha, ?_⟩
  rw [hn]
  intro f hf
  cases hf

/-- A fault that a call meets fails nothing and slips nothing in under the key, and the faults that
are left are not noticed either. -/
theorem takeFault_unnoticed (m : Method) {fs : List Fault} (h : ∀ f ∈ fs, f.Unnoticed k) :
    (∀ f, (takeFault m fs).1 = some f → f.error = none ∧ f.Spares k) ∧
      ∀ f ∈ (takeFault m fs).2, f.Unnoticed k := by
  induction fs with
  | nil =>
      refine ⟨?_, h⟩
      intro f hf
      cases hf
  | cons g rest ih =>
      obtain ⟨hg, hrest⟩ := List.forall_mem_cons.mp h
      unfold takeFault
      split
      · rename_i hmet
        have hclear : g.error = none ∧ g.Spares k := by
          rcases hg with hspent | hclear
          · omega
          · exact hclear
        split
        · refine ⟨?_, List.forall_mem_cons.mpr ⟨.inr hclear, hrest⟩⟩
          intro f hf
          cases hf
        · refine ⟨?_, List.forall_mem_cons.mpr ⟨.inr hclear, hrest⟩⟩
          rintro f ⟨rfl⟩
          exact hclear
      · obtain ⟨hmet, hleft⟩ := ih hrest
        exact ⟨hmet, List.forall_mem_cons.mpr ⟨hg, hleft⟩⟩

variable {a : Answer} {w : World} (c : Call a)

/-- A key is served on after a call that was carried out. -/
theorem Serves.carryOut (h : w.Serves k) : (w.carryOut c).2.Serves k where
  available := carryOut_available h.available
  network := h.network

/-- What is slipped in does not overflow. -/
theorem carryOut_sneak_poisoned (w : World) (s : String × Option String) :
    (w.carryOut (sneakCall s)).2.store.poisoned = w.store.poisoned := by
  have hbound : w.store.overflows w.now (sneakCall s) = false := by
    obtain ⟨key, value | value⟩ := s <;> exact Bool.and_false _
  exact (w.store.apply_poisoned w.now _).trans (by rw [hbound, Bool.or_false])

/-- A call that is served is carried out in a world in which its key holds the same and just as
little has overflowed. -/
theorem Serves.carried (h : w.Serves k) : ∃ v : World, v.now = w.now ∧ v.entry k = w.entry k ∧
    v.store.poisoned = w.store.poisoned ∧ v.Serves k ∧ w.perform c = v.carryOut c := by
  obtain ⟨hmet, hleft⟩ := takeFault_unnoticed c.method h.network
  let v : World := { w with journal := (w.now, .called ⟨a, c⟩) :: w.journal,
                            network := (takeFault c.method w.network).2 }
  have hv : v.Serves k := ⟨h.available, hleft⟩
  unfold perform
  simp only [enter]
  cases hm : (takeFault c.method w.network).1 with
  | none => exact ⟨v, rfl, rfl, rfl, hv, rfl⟩
  | some f =>
      obtain ⟨herror, hspares⟩ := hmet f hm
      simp only [suffer]
      cases hs : f.sneak with
      | none =>
          simp only [herror]
          exact ⟨v, rfl, rfl, rfl, hv, rfl⟩
      | some s =>
          have hok := carryOut_sneak h.available (w := v) s
          have hslip := v.entry_slip hspares hs
          have hserves := hv.carryOut (sneakCall s)
          have hsame := v.carryOut_sneak_poisoned s
          refine ⟨(v.carryOut (sneakCall s)).2, rfl, hslip, hsame, hserves, ?_⟩
          cases hc : v.carryOut (sneakCall s) with
          | mk answer u =>
              rw [hc] at hok
              cases hok
              simp only [v] at hc
              simp only [hc, herror]

/-- A key is served on after a call. -/
theorem Serves.perform (h : w.Serves k) : (w.perform c).2.Serves k := by
  obtain ⟨v, -, -, -, hv, he⟩ := h.carried c
  rw [he]
  exact hv.carryOut c

/-- Any other call keeps what a key holds whose calls are served. -/
theorem Serves.entry_of_ne (h : w.Serves k) (hk : c.target ≠ some k) :
    (w.perform c).2.entry k = w.entry k := by
  obtain ⟨v, -, hentry, -, -, hcarried⟩ := h.carried c
  rw [hcarried, v.carryOut_entry_of_ne c hk, hentry]

/-- A call about a key that is served answers and leaves what its effect says. -/
theorem Serves.answers (h : w.Serves k) (hk : c.key? = some k) {x : a.Value} {after : Option Entry}
    (he : c.effect w.now (w.entry k) = .ok (x, after)) :
    (w.perform c).1 = .ok x ∧ (w.perform c).2.entry k = after := by
  obtain ⟨v, hnow, hentry, -, hv, hcarried⟩ := h.carried c
  rw [← hnow, ← hentry] at he
  rw [hcarried]
  exact carryOut_answers hv.available hk he

/-- A call that does not overflow, whatever its key holds, leaves a store in which as little has. -/
theorem Serves.perform_sound (h : w.Serves k)
    (hc : ∀ now held, c.overflows now held = false) :
    (w.perform c).2.store.poisoned = w.store.poisoned := by
  obtain ⟨v, -, -, hsame, -, hcarried⟩ := h.carried c
  have hbound : v.store.overflows v.now c = false := by
    rw [Store.overflows, hc, Bool.and_false]
  rw [hcarried, ← hsame]
  exact (v.store.apply_poisoned v.now c).trans (by rw [hbound, Bool.or_false])

/-- A call about a key that is served overflows as what the key holds lets it. -/
theorem Serves.perform_poisoned (h : w.Serves k) (hk : c.key? = some k) :
    (w.perform c).2.store.poisoned = (w.store.poisoned || c.overflows w.now (w.entry k)) := by
  obtain ⟨v, hnow, hentry, hsame, hv, hcarried⟩ := h.carried c
  have hbound := Store.overflows_of_key hv.available v.now c hk
  rw [show v.store.entryAt v.now k = w.entry k from hentry, hnow] at hbound
  rw [hcarried, ← hsame, ← hbound, ← hnow]
  exact v.store.apply_poisoned v.now c

end World

/-! ## A store that stays in reach -/

/-- Whether a handler's call puts the store in reach or out of it as its next action. -/
def Task.reaches? : Task → Option Bool
  | .handler ⟨_, .acting (.setAvailable value :: _)⟩ => some value
  | _ => none

namespace World

/-- A move by which calls may fail: the store is cut off, from outside or by a handler's action, or
a fault is added that fails calls. -/
def Cuts (w : World) : Move → Prop
  | .reach value => value = false
  | .disturb f => f.error ≠ none
  | .step id => (w.tasks.find? id).bind Task.reaches? = some false
  | _ => False

instance (w : World) (m : Move) : Decidable (w.Cuts m) :=
  match m with
  | .reach value => inferInstanceAs (Decidable (value = false))
  | .disturb f => inferInstanceAs (Decidable (f.error ≠ none))
  | .step id => inferInstanceAs (Decidable ((w.tasks.find? id).bind Task.reaches? = some false))
  | .pass _ | .turn _ | .favour _ | .launch _ | .collect _ | .call _ | .openGate .. | .handler _
  | .runner .. | .scheduler .. | .limiter .. | .lock .. | .app .. | .update .. => .isFalse id

theorem answers_around {s : Store} (h : s.available = true) (utc : Int) :
    (around utc s).Answers where
  available := h
  unfailing := by
    intro f hf
    cases hf

/-- Deeds leave a store answering that they do not cut off. -/
theorem Answers.does {w : World} {d : Deed} (h : w.Answers) (hd : d ≠ .reach false) :
    (w.does d).Answers := by
  refine ⟨?_, ?_⟩
  · cases d with
    | call c => exact (h.perform c.2).available
    | reach value =>
        cases value with
        | false => exact absurd rfl hd
        | true => rfl
    | _ => exact h.available
  · intro f hf
    obtain ⟨g, hg, halike⟩ := does_network (w := w) d f hf
    rw [halike.2.1, h.unfailing g hg]

/-- A move that does not cut the store off leaves it answering. -/
theorem Answers.move {w : World} (h : w.Answers) {m : Move} (hm : w.Admits m)
    (hc : ¬ w.Cuts m) : (w.move m).Answers := by
  refine ⟨?_, ?_⟩
  · cases m with
    | step id =>
        obtain ⟨t, ht, -, he⟩ := move_step hm
        have hkept : (t.act id w).2.Answers := by
          refine (t.act_via id w).keeps (P := Answers) ?_ h
          intro u d hd hu
          refine hu.does ?_
          rintro rfl
          refine hc ?_
          cases hd with
          | reach hh =>
              rw [Cuts, ht, hh]
              rfl
          | aside h => exact h.elim
          | handIn _ h => cases h
          | worker _ h => cases h
          | control _ h =>
              cases h with
              | aside h => exact h.elim
        rw [he]
        cases (t.act id w).1 <;> exact hkept.available
    | reach value =>
        have hv : value = true := by simpa [Cuts] using hc
        exact hv
    | call c => exact (h.perform c.2).available
    | _ => exact h.available
  · intro f hf
    rcases move_network hm f hf with rfl | ⟨g, hg, halike⟩
    · exact Classical.not_not.mp hc
    · rw [halike.2.1, h.unfailing g hg]

/-- The store can be reached, and no fault is to come that fails a call or slips a write in under a
key. -/
structure InReach (k : String) (w : World) : Prop where
  available : w.store.available = true
  spared : w.Spared k
  unfailing : ∀ f ∈ w.network, f.error = none

variable {k : String} {w v : World}

theorem inReach_around {s : Store} (h : s.available = true) (utc : Int) (k : String) :
    (around utc s).InReach k where
  available := h
  spared := spared_around utc s k
  unfailing := by
    intro f hf
    cases hf

/-- A key in reach is served. -/
theorem InReach.serves (h : w.InReach k) : w.Serves k where
  available := h.available
  network := fun f hf => .inr ⟨h.unfailing f hf, h.spared f hf⟩

/-- A world with a key in reach answers. -/
theorem InReach.answers (h : w.InReach k) : w.Answers where
  available := h.available
  unfailing := h.unfailing

/-- A world with a key in reach delays nothing. -/
theorem InReach.prompt (h : w.InReach k) : w.Prompt := h.answers.prompt

/-- A move that neither cuts the store off nor intrudes on a key keeps the key in reach. -/
theorem InReach.move (h : w.InReach k) {m : Move} (hm : w.Admits m) (hi : ¬ w.Intrudes k m)
    (hc : ¬ w.Cuts m) : (w.move m).InReach k where
  available := (h.answers.move hm hc).available
  spared := h.spared.move hm hi
  unfailing := (h.answers.move hm hc).unfailing

end World

end JobFleet
