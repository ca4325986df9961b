import JobFleet.Table

/-!
# Sums over a table

A weight of values gives a table a total. A change at one key changes the total by the
difference of two weights, which is stated without subtraction: the new total and the old
weight are the old total and the new weight. The number of entries depends on the look-ups alone.
-/

namespace JobFleet.Table

variable {κ α : Type}

/-- The sum of a weight over the values of a list of pairs. -/
def sumOf (weight : α → Nat) : List (κ × α) → Nat
  | [] => 0
  | e :: rest => weight e.2 + sumOf weight rest

/-- The sum of a weight over all values. -/
def total (t : Table κ α) (weight : α → Nat) : Nat := sumOf weight t.entries

/-- A weight that is less everywhere has the lesser total. -/
theorem total_le (t : Table κ α) {weight weight' : α → Nat} (h : ∀ a, weight a ≤ weight' a) :
    t.total weight ≤ t.total weight' := by
  unfold total
  induction t.entries with
  | nil => exact Nat.le_refl 0
  | cons e rest ih => exact Nat.add_le_add (h e.2) ih

variable [DecidableEq κ]

/-- The weight of what a key holds, none if it holds nothing. -/
def weightAt (t : Table κ α) (weight : α → Nat) (k : κ) : Nat := (t.find? k).elim 0 weight

/-- The weight of an entry that is there. -/
theorem weightAt_some {t : Table κ α} {k : κ} {a : α} (h : t.find? k = some a)
    (weight : α → Nat) : t.weightAt weight k = weight a := by
  rw [weightAt, h, Option.elim_some]

/-- An entry that is not there weighs nothing. -/
theorem weightAt_none {t : Table κ α} {k : κ} (h : t.find? k = none) (weight : α → Nat) :
    t.weightAt weight k = 0 := by
  rw [weightAt, h, Option.elim_none]

/-- What is found is in the list. -/
theorem mem_of_lookup {k : κ} {a : α} {l : List (κ × α)} (h : lookup k l = some a) :
    (k, a) ∈ l := by
  induction l with
  | nil => cases h
  | cons p rest ih =>
      obtain ⟨j, b⟩ := p
      rw [lookup] at h
      split at h
      · rename_i hj
        cases h
        rw [hj]
        exact List.mem_cons_self
      · exact List.mem_cons_of_mem _ (ih h)

/-- What a key holds is one of the entries. -/
theorem mem_of_find? {t : Table κ α} {k : κ} {a : α} (h : t.find? k = some a) :
    (k, a) ∈ t.entries := mem_of_lookup h

/-- What is in the list under its only key is found. -/
theorem lookup_of_mem {k : κ} {a : α} {l : List (κ × α)} (h : (k, a) ∈ l)
    (hd : (l.map Prod.fst).Nodup) : lookup k l = some a := by
  induction l with
  | nil => cases h
  | cons p rest ih =>
      obtain ⟨j, b⟩ := p
      rw [List.map_cons, List.nodup_cons] at hd
      rw [lookup]
      rcases List.mem_cons.mp h with he | hm
      · cases he
        exact if_pos rfl
      · rw [if_neg]
        · exact ih hm hd.2
        · rintro rfl
          exact hd.1 (List.mem_map.mpr ⟨_, hm, rfl⟩)

/-- Every entry is what its key holds. -/
theorem find?_of_mem {t : Table κ α} {k : κ} {a : α} (h : (k, a) ∈ t.entries) :
    t.find? k = some a := lookup_of_mem h t.distinct

/-- A sum after an entry was put: the old one is replaced. -/
theorem sum_put (weight : α → Nat) (k : κ) (a : α) (l : List (κ × α)) :
    sumOf weight (put k a l) + (lookup k l).elim 0 weight = sumOf weight l + weight a := by
  induction l with
  | nil => simp [put, lookup, sumOf]
  | cons p rest ih =>
      obtain ⟨j, b⟩ := p
      by_cases h : j = k
      · simp only [put, lookup, h, if_true, sumOf, Option.elim_some]
        omega
      · simp only [put, lookup, h, if_false, sumOf]
        omega

/-- Filing a value trades the old weight of its key for the new one. -/
theorem total_insert (t : Table κ α) (weight : α → Nat) (k : κ) (a : α) :
    (t.insert k a).total weight + t.weightAt weight k = t.total weight + weight a :=
  sum_put weight k a t.entries

/-- A sum after an entry was taken out. -/
theorem sum_filter_ne (weight : α → Nat) (k : κ) (l : List (κ × α))
    (h : (l.map Prod.fst).Nodup) :
    sumOf weight (l.filter fun e => decide (e.1 ≠ k)) + (lookup k l).elim 0 weight =
      sumOf weight l := by
  induction l with
  | nil => rfl
  | cons p rest ih =>
      obtain ⟨j, b⟩ := p
      rw [List.map_cons, List.nodup_cons] at h
      have hr := ih h.2
      by_cases hj : j = k
      · subst hj
        have hn := lookup_eq_none h.1
        rw [hn, Option.elim_none, Nat.add_zero] at hr
        simp only [List.filter_cons, lookup, ne_eq, not_true, decide_false, Bool.false_eq_true,
          if_false, if_true, Option.elim_some, sumOf]
        rw [← hr]
        exact Nat.add_comm _ _
      · simp only [List.filter_cons, lookup, ne_eq, hj, not_false_eq_true, decide_true, if_true,
          if_false, sumOf]
        simp only [ne_eq] at hr
        omega

/-- Removing a key takes its weight away. -/
theorem total_erase (t : Table κ α) (weight : α → Nat) (k : κ) :
    (t.erase k).total weight + t.weightAt weight k = t.total weight :=
  sum_filter_ne weight k t.entries t.distinct

/-- Changing the value of a key trades its old weight for the new one. -/
theorem total_modify (t : Table κ α) (weight : α → Nat) (k : κ) (f : α → α) :
    (t.modify k f).total weight + t.weightAt weight k =
      t.total weight + t.weightAt (fun a => weight (f a)) k := by
  unfold modify
  cases h : t.find? k with
  | none => rw [weightAt_none h, weightAt_none h]
  | some a => rw [total_insert, weightAt_some h (fun a => weight (f a))]

/-- A change that keeps weights keeps the total. -/
theorem total_modify_of_eq (t : Table κ α) {weight : α → Nat} (k : κ) {f : α → α}
    (h : ∀ a, weight (f a) = weight a) : (t.modify k f).total weight = t.total weight := by
  have he : (fun a => weight (f a)) = weight := funext h
  have hm := t.total_modify weight k f
  rw [he] at hm
  omega

/-- No single value outweighs the total. -/
theorem weightAt_le_total (t : Table κ α) (weight : α → Nat) (k : κ) :
    t.weightAt weight k ≤ t.total weight := by
  have h := t.total_erase weight k
  omega

/-- Nor do the values of two different keys together. -/
theorem weightAt_add_le_total (t : Table κ α) (weight : α → Nat) {j k : κ} (h : j ≠ k) :
    t.weightAt weight j + t.weightAt weight k ≤ t.total weight := by
  have hk := t.total_erase weight k
  have hj := (t.erase k).weightAt_le_total weight j
  have he : (t.erase k).weightAt weight j = t.weightAt weight j := by
    rw [weightAt, weightAt, find?_erase, if_neg h]
  omega

/-! ## The number of entries -/

/-- The keys are those that are found. -/
theorem mem_keys_iff (t : Table κ α) (k : κ) : k ∈ t.keys ↔ (t.find? k).isSome = true := by
  constructor
  · intro hk
    obtain ⟨⟨j, a⟩, hmem, rfl⟩ := List.mem_map.mp hk
    rw [find?_of_mem hmem]
    rfl
  · intro hk
    obtain ⟨a, ha⟩ := Option.isSome_iff_exists.mp hk
    exact List.mem_map.mpr ⟨(k, a), mem_of_find? ha, rfl⟩

/-- Tables whose keys have values alike have as many entries as each other. -/
theorem size_eq {t u : Table κ α} (h : ∀ k, t.find? k = u.find? k) : t.size = u.size := by
  have hperm : t.keys.Perm u.keys := by
    refine (List.perm_ext_iff_of_nodup t.distinct u.distinct).mpr ?_
    intro k
    change k ∈ t.keys ↔ k ∈ u.keys
    rw [mem_keys_iff, mem_keys_iff, h k]
  have hlength := hperm.length_eq
  unfold keys at hlength
  rw [List.length_map, List.length_map] at hlength
  exact hlength

end JobFleet.Table
