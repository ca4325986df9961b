import JobFleet.Proofs.Fleet.Workers
import JobFleet.Proofs.Fleet.Writers
import JobFleet.Proofs.Number.ReadBack

/-!
# The counter of running jobs

The counter's key holds the text of a number without an expiry, or nothing, which counts as
zero. A raise under a ceiling and a drop change that number by one or not at all; an answer tells
which, a fault does not.
-/

namespace JobFleet.World

open Number (Range showInteger)

/-- The number that the counter's key holds. -/
def counter (w : World) : Except StoreError Int :=
  Entry.number jobCounterKey (w.entry jobCounterKey)

/-- The counter's key holds a number. -/
def Counts (w : World) (n : Int) : Prop :=
  w.entry jobCounterKey = some ⟨showInteger n, none⟩ ∨ n = 0 ∧ w.entry jobCounterKey = none

/-- A number that a word of 64 bits can hold. -/
def InWord (n : Int) : Prop := Range.int64.low ≤ n ∧ n ≤ Range.int64.high

variable {w u : World} {n : Int}

/-- The text of a number of the counter is read as that number. -/
theorem InWord.count (hn : InWord n) (key : String) (expires : Option Nat) :
    Store.Entry.count key ⟨showInteger n, expires⟩ = .ok n := by
  have hr := Number.readInteger_showInteger (r := Range.int64) ⟨by decide, by decide⟩ hn
  simp only [Store.Entry.count, hr]

/-- A clamped number fits the counter. -/
theorem inWord_clamp (n : Int) : InWord (Range.int64.clamp n) := by
  have hle : Range.int64.low ≤ Range.int64.high := by decide
  unfold InWord Range.clamp
  omega

/-- A count of failures stops at the highest number of 64 bits. -/
theorem inWord_min (n : Nat) : InWord (min (n : Int) Range.int64.high) := by
  have hlow : Range.int64.low ≤ 0 := by decide
  have hhigh : 0 ≤ Range.int64.high := by decide
  unfold InWord
  omega

/-- One failure more, counted on a counter that is there, keeps the expiry of the counter. -/
theorem add_failure (key : String) (n : Nat) (t expires : Option Nat) :
    Entry.add key 1 expires (some ⟨showInteger (min (n : Int) Range.int64.high), t⟩) =
      .ok (min ((n + 1 : Nat) : Int) Range.int64.high,
        some ⟨showInteger (min ((n + 1 : Nat) : Int) Range.int64.high), t⟩) := by
  have hnext : Range.int64.clamp (min (n : Int) Range.int64.high + 1) =
      min ((n + 1 : Nat) : Int) Range.int64.high := by
    have hlow : Range.int64.low ≤ 0 := by decide
    have hhigh : 0 ≤ Range.int64.high := by decide
    unfold Range.clamp
    omega
  simp only [Entry.add, (inWord_min n).count, Store.Entry.recount, hnext]

/-- A look at a count of failures is answered the count. -/
theorem look_failures (k : RateLimitKey) (n : Nat) (now : Nat) (t : Option Nat) :
    (Limiter.attempts k).effect now (some ⟨showInteger (min (n : Int) Range.int64.high), t⟩) =
      .ok (min (n : Int) Range.int64.high,
        some ⟨showInteger (min (n : Int) Range.int64.high), t⟩) := by
  simp only [Limiter.attempts, Call.effect, Entry.number, (inWord_min n).count]

/-- A counter that is not there counts zero. -/
theorem counts_zero (h : w.entry jobCounterKey = none) : w.Counts 0 := .inr ⟨rfl, h⟩

/-- What the counter counts is read off its entry. -/
theorem Counts.of_entry (h : w.Counts n) (he : u.entry jobCounterKey = w.entry jobCounterKey) :
    u.Counts n := by
  unfold Counts
  rw [he]
  exact h

/-- A counter that counts can be read. -/
theorem Counts.counter (h : w.Counts n) (hn : InWord n) : w.counter = .ok n := by
  unfold World.counter
  rcases h with h | ⟨rfl, h⟩
  · rw [h]
    exact hn.count _ _
  · rw [h]
    rfl

/-- The key holds one number. -/
theorem Counts.unique {m : Int} (h : w.Counts n) (h' : u.Counts m) (hn : InWord n)
    (hm : InWord m) (he : u.entry jobCounterKey = w.entry jobCounterKey) : m = n := by
  have hc := (h.of_entry he).counter hn
  rw [h'.counter hm] at hc
  exact Except.ok.inj hc

/-- The counter never expires. -/
theorem Counts.expires (h : w.Counts n) : (w.entry jobCounterKey).bind Entry.expires = none := by
  rcases h with h | ⟨-, h⟩ <;> rw [h] <;> rfl

/-- How a raise under a ceiling ends. -/
inductive Raised (w : World) (n ceiling : Int) : Except StoreError Bool × World → Prop
  | granted {u : World} (h : n < ceiling) (hu : u.Counts (n + 1)) :
      Raised w n ceiling (.ok true, u)
  | denied {u : World} (hu : u.entry jobCounterKey = w.entry jobCounterKey) :
      Raised w n ceiling (.ok false, u)
  | failed {e : StoreError} {u : World} (hu : u.entry jobCounterKey = w.entry jobCounterKey) :
      Raised w n ceiling (.error e, u)
  | lost {e : StoreError} {u : World} (lossy : ¬ w.Prompt) (h : n < ceiling)
      (hu : u.Counts (n + 1)) : Raised w n ceiling (.error e, u)

/-- A raise below the ceiling, taken or lost. -/
theorem Counts.raise (h : w.Counts n) (hn : InWord n) (hs : w.Spared jobCounterKey)
    (ceiling : Int) :
    Raised w n ceiling (w.perform (.incrementIfBelow jobCounterKey ceiling)) := by
  have he := w.perform_ends (.incrementIfBelow jobCounterKey ceiling) rfl hs
  have hc : Entry.number jobCounterKey (w.entry jobCounterKey) = .ok n := h.counter hn
  have heff : (Call.incrementIfBelow jobCounterKey ceiling).effect w.now
      (w.entry jobCounterKey) = if ceiling ≤ n then .ok (false, w.entry jobCounterKey)
        else .ok (true, some ⟨showInteger (n + 1), none⟩) := by
    simp only [Call.effect, hc, h.expires]
  revert he
  generalize w.perform (.incrementIfBelow jobCounterKey ceiling) = p
  intro he
  cases he with
  | @answered v after u effect entry =>
      rw [heff] at effect
      split at effect
      · cases effect
        exact .denied entry
      · rename_i hlt
        cases effect
        exact .granted (by omega) (.inl entry)
  | refused entry => exact .failed entry
  | lost lossy entry =>
      rw [Call.leaves, heff] at entry
      by_cases hle : ceiling ≤ n
      · rw [if_pos hle] at entry
        exact .failed entry
      · rw [if_neg hle] at entry
        exact .lost lossy (by omega) (.inl entry)

/-- How a drop ends. -/
inductive Dropped (w : World) (n : Int) : Except StoreError Int × World → Prop
  | done {u : World} (hu : u.Counts (n - 1)) : Dropped w n (.ok (n - 1), u)
  | failed {e : StoreError} {u : World} (hu : u.entry jobCounterKey = w.entry jobCounterKey) :
      Dropped w n (.error e, u)
  | lost {e : StoreError} {u : World} (lossy : ¬ w.Prompt) (hu : u.Counts (n - 1)) :
      Dropped w n (.error e, u)

/-- A decrement, taken or lost. -/
theorem Counts.drop (h : w.Counts n) (hn : InWord n) (hlow : Range.int64.low < n)
    (hs : w.Spared jobCounterKey) : Dropped w n (w.perform (.decrement jobCounterKey)) := by
  have he := w.perform_ends (.decrement jobCounterKey) rfl hs
  have heff : (Call.decrement jobCounterKey).effect w.now (w.entry jobCounterKey) =
      .ok (n - 1, some ⟨showInteger (n - 1), none⟩) := by
    have hclamp : Range.int64.clamp (n + -1) = n - 1 := by
      unfold Range.clamp
      unfold InWord at hn
      omega
    rcases h with h | ⟨rfl, h⟩
    · simp only [Call.effect, Entry.add, h, hn.count, Store.Entry.recount, hclamp]
    · rw [h]
      rfl
  revert he
  generalize w.perform (.decrement jobCounterKey) = p
  intro he
  cases he with
  | answered effect entry =>
      rw [heff] at effect
      cases effect
      exact .done (.inl entry)
  | refused entry => exact .failed entry
  | lost lossy entry =>
      rw [Call.leaves, heff] at entry
      exact .lost lossy (.inl entry)

end JobFleet.World
