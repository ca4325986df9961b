/-!
# Finite tables

A table holds at most one value per key and remembers the order in which keys first arrived.
Everything the fleet names (store entries, runners, schedulers, tasks) lives in one.
The view is `find?`: each operation is described by what it does to every look-up, and the
number of entries by `size`.
-/

namespace JobFleet

/-- A finite table from keys to values, in order of first insertion. -/
structure Table (κ α : Type) where
  entries : List (κ × α)
  distinct : (entries.map Prod.fst).Nodup

namespace Table

variable {κ α : Type}

@[ext] theorem ext {s t : Table κ α} (h : s.entries = t.entries) : s = t := by
  cases s; cases t; cases h; rfl

/-- The table without entries. -/
def empty : Table κ α := ⟨[], List.nodup_nil⟩

instance : EmptyCollection (Table κ α) := ⟨empty⟩

instance : Inhabited (Table κ α) := ⟨empty⟩

/-- The keys in order of first insertion. -/
def keys (t : Table κ α) : List κ := t.entries.map Prod.fst

/-- The number of entries. -/
def size (t : Table κ α) : Nat := t.entries.length

variable [DecidableEq κ]

/-- The first value filed under a key in a list of pairs. -/
def lookup (k : κ) : List (κ × α) → Option α
  | [] => none
  | (j, a) :: rest => if j = k then some a else lookup k rest

/-- The value filed under a key. -/
def find? (t : Table κ α) (k : κ) : Option α := lookup k t.entries

/-- Whether a key has a value. -/
def contains (t : Table κ α) (k : κ) : Bool := (t.find? k).isSome

/-- Replaces the value of a key where it stands, or adds the pair at the end. -/
def put (k : κ) (a : α) : List (κ × α) → List (κ × α)
  | [] => [(k, a)]
  | (j, b) :: rest => if j = k then (k, a) :: rest else (j, b) :: put k a rest

/-- A put adds its own key only. -/
theorem mem_keys_put (k : κ) (a : α) (l : List (κ × α)) (j : κ) :
    j ∈ (put k a l).map Prod.fst ↔ j = k ∨ j ∈ l.map Prod.fst := by
  induction l with
  | nil => simp [put]
  | cons p rest ih =>
      obtain ⟨i, b⟩ := p
      by_cases h : i = k
      · subst h; simp [put]
      · simp only [put, h, if_false, List.map_cons, List.mem_cons, ih]
        constructor
        · rintro (rfl | rfl | hj)
          · exact Or.inr (Or.inl rfl)
          · exact Or.inl rfl
          · exact Or.inr (Or.inr hj)
        · rintro (rfl | rfl | hj)
          · exact Or.inr (Or.inl rfl)
          · exact Or.inl rfl
          · exact Or.inr (Or.inr hj)

/-- A put leaves each key once. -/
theorem nodup_put (k : κ) (a : α) (l : List (κ × α)) (h : (l.map Prod.fst).Nodup) :
    ((put k a l).map Prod.fst).Nodup := by
  induction l with
  | nil => simp [put]
  | cons p rest ih =>
      obtain ⟨i, b⟩ := p
      simp only [List.map_cons, List.nodup_cons] at h
      by_cases hi : i = k
      · subst hi
        simp only [put, if_true, List.map_cons, List.nodup_cons]
        exact h
      · simp only [put, hi, if_false, List.map_cons, List.nodup_cons]
        refine ⟨?_, ih h.2⟩
        intro hm
        rcases (mem_keys_put k a rest i).mp hm with he | hr
        · exact hi he
        · exact h.1 hr

/-- Files a value under a key, replacing any earlier one. -/
def insert (t : Table κ α) (k : κ) (a : α) : Table κ α :=
  ⟨put k a t.entries, nodup_put k a t.entries t.distinct⟩

/-- Keeps the entries that pass a test. -/
def filter (t : Table κ α) (p : κ → α → Bool) : Table κ α :=
  ⟨t.entries.filter fun e => p e.1 e.2,
    ((List.filter_sublist).map Prod.fst).nodup t.distinct⟩

/-- Removes the entry of a key, if there is one. -/
def erase (t : Table κ α) (k : κ) : Table κ α := t.filter fun j _ => j ≠ k

/-- Changes the value of a key, if it has one. -/
def modify (t : Table κ α) (k : κ) (f : α → α) : Table κ α :=
  match t.find? k with
  | some a => t.insert k (f a)
  | none => t

@[simp] theorem find?_empty (k : κ) : (∅ : Table κ α).find? k = none := rfl

/-- What is found after a put. -/
theorem lookup_put (k j : κ) (a : α) (l : List (κ × α)) :
    lookup j (put k a l) = if j = k then some a else lookup j l := by
  induction l with
  | nil =>
      by_cases h : k = j
      · subst h; simp [put, lookup]
      · have h' : ¬ j = k := fun e => h e.symm
        simp [put, lookup, h, h']
  | cons p rest ih =>
      obtain ⟨i, b⟩ := p
      by_cases hi : i = k
      · subst hi
        by_cases hj : i = j
        · subst hj; simp [put, lookup]
        · have hj' : ¬ j = i := fun e => hj e.symm
          simp [put, lookup, hj, hj']
      · by_cases hj : i = j
        · subst hj; simp [put, lookup, hi]
        · simp [put, lookup, hi, hj, ih]

/-- After an insertion the key has the new value and every other key keeps its own. -/
theorem find?_insert (t : Table κ α) (k j : κ) (a : α) :
    (t.insert k a).find? j = if j = k then some a else t.find? j :=
  lookup_put k j a t.entries

@[simp] theorem find?_insert_self (t : Table κ α) (k : κ) (a : α) :
    (t.insert k a).find? k = some a := by
  simp [find?_insert]

/-- An insertion leaves the other keys alone. -/
theorem find?_insert_of_ne (t : Table κ α) {k j : κ} (a : α) (h : j ≠ k) :
    (t.insert k a).find? j = t.find? j := by
  simp [find?_insert, h]

/-- A key that is not there is not found. -/
theorem lookup_eq_none {k : κ} {l : List (κ × α)} (h : k ∉ l.map Prod.fst) :
    lookup k l = none := by
  induction l with
  | nil => rfl
  | cons p rest ih =>
      obtain ⟨i, b⟩ := p
      simp only [List.map_cons, List.mem_cons, not_or] at h
      have hi : ¬ i = k := fun e => h.1 e.symm
      simp [lookup, hi, ih h.2]

/-- What is found in the entries that pass a test. -/
theorem lookup_filter (k : κ) (p : κ → α → Bool) (l : List (κ × α))
    (h : (l.map Prod.fst).Nodup) :
    lookup k (l.filter fun e => p e.1 e.2) = (lookup k l).filter (p k) := by
  induction l with
  | nil => rfl
  | cons e rest ih =>
      obtain ⟨i, b⟩ := e
      simp only [List.map_cons, List.nodup_cons] at h
      by_cases hi : i = k
      · subst hi
        cases hp : p i b with
        | true => simp [hp, lookup, Option.filter]
        | false =>
            have hn : i ∉ (rest.filter fun e => p e.1 e.2).map Prod.fst := by
              intro hm
              obtain ⟨q, hq, he⟩ := List.mem_map.mp hm
              exact h.1 (List.mem_map.mpr ⟨q, (List.mem_filter.mp hq).1, he⟩)
            simp [hp, lookup, Option.filter, lookup_eq_none hn]
      · cases hp : p i b with
        | true => simp [hp, lookup, hi, ih h.2]
        | false => simp [hp, lookup, hi, ih h.2]

/-- A look-up after filtering finds the old value exactly when it passes the test. -/
theorem find?_filter (t : Table κ α) (p : κ → α → Bool) (k : κ) :
    (t.filter p).find? k = (t.find? k).filter (p k) :=
  lookup_filter k p t.entries t.distinct

/-- After a removal the key has no value and every other key keeps its own. -/
theorem find?_erase (t : Table κ α) (k j : κ) :
    (t.erase k).find? j = if j = k then none else t.find? j := by
  rw [erase, find?_filter]
  by_cases h : j = k
  · subst h
    cases t.find? j <;> simp [Option.filter]
  · cases t.find? j <;> simp [Option.filter, h]

@[simp] theorem find?_erase_self (t : Table κ α) (k : κ) : (t.erase k).find? k = none := by
  simp [find?_erase]

/-- What is found after a change under one key. -/
theorem find?_modify (t : Table κ α) (k j : κ) (f : α → α) :
    (t.modify k f).find? j = if j = k then (t.find? k).map f else t.find? j := by
  unfold modify
  cases h : t.find? k with
  | none =>
      by_cases hj : j = k
      · subst hj; simp [h]
      · simp [hj]
  | some a => simp [find?_insert]

end Table

end JobFleet
