/-!
# Computations that may fail

A sequence of computations that may fail gives a value exactly if each part does.
-/

namespace JobFleet

variable {ε α β : Type} {x : Except ε α} {f : α → Except ε β} {b : β}

/-- A value comes of a sequence when one comes of each of its parts. -/
theorem bind_eq_ok : (x >>= f) = .ok b ↔ ∃ a, x = .ok a ∧ f a = .ok b := by
  cases x with
  | error e => exact ⟨nofun, nofun⟩
  | ok a => exact ⟨fun h => ⟨a, rfl, h⟩, fun ⟨_, ha, h⟩ => Except.ok.inj ha ▸ h⟩

end JobFleet
