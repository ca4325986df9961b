import JobFleet.Json.Reader
import JobFleet.Proofs.Fallible

/-!
# What a reader gives

A reader yields values with a property if everything that it takes from the front of a text has
it. What a part of a document yields goes on to the place that it is read into, to the members
that are folded and to the record as a whole.
-/

namespace JobFleet.Json

variable {α σ : Type} {p : α → Prop}

/-- Whatever a reader takes from the front of a text has the property. -/
def Yields (p : α → Prop) (read : Reader α) : Prop := ∀ cs a rest, read cs = .ok (a, rest) → p a

/-- A value of an unwanted shape is never given. -/
theorem unwanted_ne_ok (cs : List Char) (x : α × List Char) : unwanted cs ≠ .ok x := by
  intro h
  unfold unwanted at h
  split at h
  · cases h
  · repeat' split at h
    all_goals
      simp only [bind_eq_ok, reduceCtorEq, and_false, exists_false] at h

/-- A whole number is one of the range. -/
theorem readInteger_yields (r : Number.Range) :
    Yields (fun n => r.holds n = true) (readInteger r) := by
  intro cs n rest h
  unfold readInteger at h
  split at h
  · split at h
    · obtain ⟨⟨m, rest'⟩, -, h⟩ := bind_eq_ok.mp h
      dsimp only at h
      split at h
      · split at h
        · cases h
          assumption
        · cases h
      · cases h
    · exact absurd h (unwanted_ne_ok _ _)
  · cases h

/-- What stands for nothing has every property. -/
theorem readOptional_yields {value : Reader α} (h : Yields p value) :
    Yields (fun a? => ∀ a ∈ a?, p a) (readOptional value) := by
  intro cs a? rest hread a ha
  unfold readOptional at hread
  split at hread
  · obtain ⟨_, -, hread⟩ := bind_eq_ok.mp hread
    cases hread
    cases ha
  · obtain ⟨⟨b, rest'⟩, hvalue, hread⟩ := bind_eq_ok.mp hread
    cases hread
    cases ha
    exact h _ _ _ hvalue

/-- A field that is read once yields what its reader yields. -/
theorem readOnce_yields {value : Reader α} (h : Yields p value) (place : Option α) :
    Yields (fun a? => ∀ a ∈ a?, p a) (readOnce place value) := by
  intro cs a? rest hread a ha
  unfold readOnce afterColon at hread
  split at hread
  · cases hread
  · obtain ⟨⟨b, rest'⟩, hafter, hread⟩ := bind_eq_ok.mp hread
    obtain ⟨⟨_, rest''⟩, -, hvalue⟩ := bind_eq_ok.mp hafter
    cases hread
    cases ha
    exact h _ _ _ hvalue

/-- An item is what its reader takes from the text somewhere. -/
theorem readItem_reads {item : Reader α} {started : Bool} {cs rest : List Char} {a : α}
    (h : readItem started item cs = .ok (some a, rest)) : ∃ cs', item cs' = .ok (a, rest) := by
  have hitem : ∀ cs', (item cs' >>= fun found => .ok (some found.1, found.2)) =
      (.ok (some a, rest) : Except Fault (Option α × List Char)) → item cs' = .ok (a, rest) := by
    intro cs' h
    obtain ⟨⟨b, rest'⟩, hread, h⟩ := bind_eq_ok.mp h
    cases h
    exact hread
  unfold readItem at h
  dsimp only at h
  split at h
  · cases h
  · split at h
    · cases h
    · split at h
      · split at h
        · split at h
          · cases h
          · split at h
            · cases h
            · exact ⟨_, hitem _ h⟩
        · cases h
      · exact ⟨_, hitem _ h⟩

/-- An item of a list yields what its reader yields. -/
theorem readNextItem_yields {item : Reader α} (h : Yields p item) (started : Bool) :
    Yields p (readNextItem started item) := by
  intro cs a rest hread
  unfold readNextItem at hread
  obtain ⟨⟨x?, rest'⟩, hitem, hread⟩ := bind_eq_ok.mp hread
  cases x? with
  | none => cases hread
  | some x =>
      cases hread
      obtain ⟨cs', hitem⟩ := readItem_reads hitem
      exact h _ _ _ hitem

/-- What every member keeps is kept by all members in a row. -/
theorem foldMembers_yields {p : σ → Prop} {member : String → σ → Reader σ}
    (h : ∀ name s, p s → Yields p (member name s)) (bound : Nat) (started : Bool) {s : σ}
    (hs : p s) : Yields p (foldMembers member bound started s) := by
  unfold foldMembers
  induction bound generalizing started s with
  | zero =>
      intro cs t rest hread
      cases hread
  | succ bound ih =>
      intro cs t rest hread
      unfold foldNamed at hread
      obtain ⟨⟨name?, rest'⟩, -, hread⟩ := bind_eq_ok.mp hread
      cases name? with
      | none =>
          cases hread
          exact hs
      | some name =>
          obtain ⟨⟨u, rest''⟩, hmember, hread⟩ := bind_eq_ok.mp hread
          exact ih true (h name s hs _ _ _ hmember) _ _ _ hread

/-- A record is read from its items or from its members. -/
theorem readRecord_yields {items members : Reader α} (hitems : Yields p items)
    (hmembers : Yields p members) : Yields p (readRecord items members) := by
  intro cs a rest hread
  unfold readRecord at hread
  split at hread
  · split at hread
    · obtain ⟨⟨b, rest'⟩, hinner, hread⟩ := bind_eq_ok.mp hread
      obtain ⟨_, -, hread⟩ := bind_eq_ok.mp hread
      cases hread
      exact hitems _ _ _ hinner
    · split at hread
      · obtain ⟨⟨b, rest'⟩, hinner, hread⟩ := bind_eq_ok.mp hread
        obtain ⟨_, -, hread⟩ := bind_eq_ok.mp hread
        cases hread
        exact hmembers _ _ _ hinner
      · exact absurd hread (unwanted_ne_ok _ _)
  · cases hread

end JobFleet.Json
