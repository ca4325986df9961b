import JobFleet.Proofs.Fleet.Counter
import JobFleet.Proofs.Fleet.Served
import JobFleet.Proofs.RateLimit.Turn
import JobFleet.Proofs.Store.Keys

/-!
# Failures are counted in fixed windows

The reference keeps for each key the window that the last failures fell in: a failure that falls
in no open window opens one, later failures are counted in it and do not move it, and it closes
when its time is over or the failures are forgotten. A limiter whose keys nobody else writes, and
whose store answers, limits a key exactly when as many failures have been counted in the window
that is open as it allows, and the store holds nothing but that number until the window's end. This
takes that the clock tells the window's end and that the failures can be counted in 64 bits.
-/

namespace JobFleet

open Number (Range showInteger)

namespace Limiter

/-! ## The reference -/

/-- What changes the window of a key: a failure is counted, or the failures are forgotten. -/
inductive Mark
  | failure
  | reset
deriving DecidableEq

/-- A window: the instant of the failure that opened it, and those of the failures since. -/
structure Window where
  opened : Nat
  since : List Nat
deriving DecidableEq

/-- The number of failures in a window. -/
def Window.failures (x : Window) : Nat := x.since.length + 1

variable (l : Limiter)

/-- How long a window stays open: whole seconds, rounded up and at least one. -/
def span : Nat := max 1 ((l.window.nanos + 999999999) / 1000000000) * 1000000000

/-- The instant from which a window is closed. -/
def closing (x : Window) : Nat := x.opened + l.span

/-- The last window, if it is open at an instant. -/
def openAt (t : Nat) (last : Option Window) : Option Window := last.filter fun x => t < l.closing x

/-- The last window after a mark at an instant. -/
def mark (last : Option Window) : Nat × Mark → Option Window
  | (t, .failure) =>
      match l.openAt t last with
      | some x => some { x with since := x.since ++ [t] }
      | none => some ⟨t, []⟩
  | (_, .reset) => none

/-- The last window after timed marks of a key. -/
def lastWindow (ms : List (Nat × Mark)) : Option Window := ms.foldl l.mark none

/-- The number of failures in the window that is open at an instant after timed marks of a key,
none if no window is open. -/
def failuresAt (t : Nat) (ms : List (Nat × Mark)) : Nat :=
  (l.openAt t (l.lastWindow ms)).elim 0 Window.failures

/-- Whether the clock tells the end of a window that opens at an instant. -/
def told (t : Nat) : Bool := Clock.told (Clock.expiry t l.window)

/-- A window takes some time. -/
theorem lt_span : 0 < l.span := by
  have hsecs : 0 < max 1 ((l.window.nanos + 999999999) / 1000000000) := Nat.le_max_left _ _
  unfold span
  exact Nat.mul_pos hsecs (by decide)

/-- A mark counts one failure more at most. -/
theorem mark_failures_le (last : Option Window) (m : Nat × Mark) :
    (l.mark last m).elim 0 Window.failures ≤ last.elim 0 Window.failures + 1 := by
  obtain ⟨t, _ | _⟩ := m
  · cases hx : l.openAt t last with
    | none =>
        simp only [mark, hx, Option.elim_some, Window.failures, List.length_nil]
        omega
    | some x =>
        have hlast : last = some x := (Option.filter_eq_some_iff.mp hx).1
        have hmark : l.mark last (t, .failure) = some { x with since := x.since ++ [t] } := by
          simp only [mark, hx]
        rw [hmark, hlast]
        simp only [Option.elim_some, Window.failures, List.length_append, List.length_singleton]
        omega
  · exact Nat.zero_le _

/-- The clock tells the end of a window that opens earlier than one whose end it tells. -/
theorem told_earlier {now t : Nat} (ht : l.told t = true) (hle : now ≤ t) : l.told now = true := by
  unfold told at ht ⊢
  exact Clock.told_expiry_of_le ht hle

/-- A window that is open later is open before. -/
theorem openAt_later {now t : Nat} (h : now ≤ t) (last : Option Window) :
    l.openAt t last = (l.openAt now last).filter fun x => t < l.closing x := by
  have hopen : ∀ x : Window, decide (t < l.closing x) =
      (decide (now < l.closing x) && decide (t < l.closing x)) := by
    intro x
    by_cases ht : t < l.closing x
    · rw [decide_eq_true ht, decide_eq_true (Nat.lt_of_le_of_lt h ht), Bool.and_true]
    · rw [decide_eq_false ht, Bool.and_false]
  rw [openAt, openAt, Option.filter_filter]
  exact congrArg last.filter (funext hopen)

/-- A failure in an open window is counted in it, and the window stays as it is. -/
theorem openAt_mark_failure {t : Nat} {last : Option Window} {x : Window}
    (h : l.openAt t last = some x) :
    l.openAt t (l.mark last (t, .failure)) = some { x with since := x.since ++ [t] } := by
  have hx : t < l.closing x := of_decide_eq_true (Option.filter_eq_some_iff.mp h).2
  simp only [mark, h]
  exact Option.filter_eq_some_iff.mpr ⟨rfl, decide_eq_true hx⟩

/-- A failure that falls in no open window opens one. -/
theorem openAt_mark_opening {t : Nat} {last : Option Window} (h : l.openAt t last = none) :
    l.openAt t (l.mark last (t, .failure)) = some ⟨t, []⟩ := by
  have hlt : t < t + l.span := Nat.lt_add_of_pos_right l.lt_span
  simp only [mark, h]
  exact Option.filter_eq_some_iff.mpr ⟨rfl, decide_eq_true hlt⟩

/-! ## Requests -/

/-- A request: something asked of a limiter about a key, or any other call on the store. -/
inductive Request
  | record (k : RateLimitKey)
  | reset (k : RateLimitKey)
  | check (k : RateLimitKey)
  | other (c : AnyCall)

/-- The mark that a request leaves on a key. -/
def Request.mark? (k : RateLimitKey) : Request → Option Mark
  | .record j => if j = k then some .failure else none
  | .reset j => if j = k then some .reset else none
  | .check _ | .other _ => none

/-- Whether a request that is none of a limiter leaves the limiters' keys alone. -/
def Request.SparesLimits : Request → Prop
  | .other c => ∀ k : RateLimitKey, c.2.target ≠ some k.counterKey
  | _ => True

/-- The marks that timed requests leave on a key. -/
def marks (k : RateLimitKey) (es : List (Nat × Request)) : List (Nat × Mark) :=
  es.filterMap fun e => (e.2.mark? k).map fun m => (e.1, m)

/-- The last windows of all keys after a request at an instant. -/
def next (t : Nat) (r : Request) (last : RateLimitKey → Option Window) :
    RateLimitKey → Option Window :=
  fun k => (r.mark? k).elim (last k) fun m => l.mark (last k) (t, m)

/-- The world after a request. -/
def serve (w : World) : Request → World
  | .record k => l.record k w
  | .reset k => forget k w
  | .check k => (l.isLimited k w).2
  | .other c => (w.perform c.2).2

/-- A world at an instant. -/
def clocked (w : World) (t : Nat) : World := { w with now := t }

/-- The world after timed requests. -/
def attend (w : World) (es : List (Nat × Request)) : World :=
  es.foldl (fun w e => l.serve (clocked w e.1) e.2) w

/-- Whether the calls of others among timed requests leave a store in which no call has
overflowed. -/
def carries (w : World) : List (Nat × Request) → Bool
  | [] => true
  | (t, .other c) :: es =>
      !((clocked w t).perform c.2).2.store.poisoned &&
        carries (l.serve (clocked w t) (.other c)) es
  | (t, r) :: es => carries (l.serve (clocked w t) r) es

/-- The marks of timed requests are applied one after another. -/
theorem marks_cons (t : Nat) (r : Request) (es : List (Nat × Request)) (k : RateLimitKey)
    (last : RateLimitKey → Option Window) :
    (marks k ((t, r) :: es)).foldl l.mark (last k) =
      (marks k es).foldl l.mark (l.next t r last k) := by
  unfold marks next
  cases hm : r.mark? k with
  | none => rw [List.filterMap_cons_none (by rw [hm]; rfl), Option.elim_none]
  | some m => rw [List.filterMap_cons_some (by rw [hm]; rfl), List.foldl_cons, Option.elim_some]

/-- A request counts one failure more at most. -/
theorem next_failures_le (t : Nat) (r : Request) (last : RateLimitKey → Option Window)
    (k : RateLimitKey) (es : List (Nat × Request)) :
    (l.next t r last k).elim 0 Window.failures + es.length ≤
      (last k).elim 0 Window.failures + ((t, r) :: es).length := by
  rw [List.length_cons, next]
  cases r.mark? k with
  | none =>
      rw [Option.elim_none]
      omega
  | some m =>
      have hmark := l.mark_failures_le (last k) (t, m)
      rw [Option.elim_some]
      omega

/-- No more failures are counted than there are requests. -/
theorem foldl_failures_le (k : RateLimitKey) (es : List (Nat × Request))
    (last : RateLimitKey → Option Window) :
    ((marks k es).foldl l.mark (last k)).elim 0 Window.failures ≤
      (last k).elim 0 Window.failures + es.length := by
  induction es generalizing last with
  | nil => exact Nat.le_add_right _ _
  | cons e es ih =>
      obtain ⟨t, r⟩ := e
      rw [l.marks_cons t r es k last]
      exact Nat.le_trans (ih (l.next t r last)) (l.next_failures_le t r last k es)

/-- What the first of timed requests and the later ones do not overflow. -/
theorem carries_cons {w : World} {t : Nat} {r : Request} {es : List (Nat × Request)}
    (h : l.carries w ((t, r) :: es) = true) :
    (∀ c, r = .other c → ((clocked w t).perform c.2).2.store.poisoned = false) ∧
      l.carries (l.serve (clocked w t) r) es = true := by
  cases r with
  | other c =>
      obtain ⟨hsound, hrest⟩ := Bool.and_eq_true_iff.mp h
      rw [Bool.not_eq_true'] at hsound
      refine ⟨?_, hrest⟩
      rintro _ ⟨rfl⟩
      exact hsound
  | record | reset | check =>
      refine ⟨?_, h⟩
      intro c hc
      cases hc

/-! ## The world beside the reference -/

/-- What the store holds for a window: the number of its failures, until it is over. The number
stops at the highest one of 64 bits. -/
def entry (x : Window) : Entry :=
  ⟨showInteger (min (x.failures : Int) Range.int64.high), some (l.closing x)⟩

/-- A world at an instant whose store answers calls about limiters' keys and holds the windows that
are open, and in which no call has overflowed. -/
structure Keeps (t : Nat) (w : World) (last : RateLimitKey → Option Window) : Prop where
  now : w.now = t
  sound : w.store.poisoned = false
  serves : ∀ k : RateLimitKey, w.Serves k.counterKey
  holds : ∀ k : RateLimitKey, w.entry k.counterKey = (l.openAt t (last k)).map l.entry

/-- A failure that opens a window is written with the window's end as its expiry. -/
theorem entry_opening (t : Nat) :
    l.entry ⟨t, []⟩ = ⟨showInteger 1, expiryOf t (some l.window)⟩ := by
  have hone : min (((⟨t, []⟩ : Window).failures : Nat) : Int) Range.int64.high = 1 := by
    have hhigh : 1 ≤ Range.int64.high := by decide
    exact Int.min_eq_left hhigh
  rw [entry, hone, closing, span, expiryOf, Option.map_some, Clock.expiry, Duration.ttlSecs_eq]

/-- Counting a failure writes what the mark of a failure says. -/
theorem recordFailure_effect (k : RateLimitKey) (t : Nat) (last : Option Window) :
    ∃ n, (l.recordFailure k).effect t ((l.openAt t last).map l.entry) =
      .ok (n, (l.openAt t (l.mark last (t, .failure))).map l.entry) := by
  cases hx : l.openAt t last with
  | none =>
      rw [l.openAt_mark_opening hx, Option.map_some, l.entry_opening]
      exact ⟨1, rfl⟩
  | some x =>
      have hcount : ({ x with since := x.since ++ [t] } : Window).failures = x.failures + 1 := by
        simp only [Window.failures, List.length_append, List.length_singleton]
      have hadds (held : Option Entry) : (l.recordFailure k).effect t held =
          Entry.add k.counterKey 1 (expiryOf t (some l.window)) held := rfl
      rw [l.openAt_mark_failure hx, Option.map_some, Option.map_some, entry, entry, hcount, hadds,
        World.add_failure]
      exact ⟨_, rfl⟩

/-- Counting a failure does not overflow while the clock tells the end of a window that it opens and
the count stays in 64 bits. -/
theorem recordFailure_overflows (k : RateLimitKey) {t : Nat} (ht : l.told t = true)
    {last : Option Window} (hfew : last.elim 0 Window.failures < 0x7fffffffffffffff) :
    (l.recordFailure k).overflows t ((l.openAt t last).map l.entry) = false := by
  unfold told at ht
  cases hx : l.openAt t last with
  | none =>
      have huntold : Store.untold t (some l.window) = false := Store.untold_of_told ht
      rw [Option.map_none, recordFailure, Call.overflows, huntold]
  | some x =>
      have hlast : last = some x := (Option.filter_eq_some_iff.mp hx).1
      rw [hlast, Option.elim_some] at hfew
      have hcount := (World.inWord_min x.failures).count k.counterKey (some (l.closing x))
      have hfits : Range.int64.holds (min (x.failures : Int) Range.int64.high + 1) = true := by
        have hhigh : Range.int64.high = 0x7fffffffffffffff := rfl
        have hlow : Range.int64.low ≤ 0 := by decide
        simp only [Range.holds, Bool.and_eq_true, decide_eq_true_eq]
        omega
      have hword : Store.Entry.leavesWord k.counterKey (l.entry x) 1 = false := by
        rw [entry, Store.Entry.leavesWord, hcount]
        simp only [hfits, Bool.not_true]
      rw [Option.map_some, recordFailure, Call.overflows, hword]

/-- A look at what the store holds for a window is answered the number of its failures. -/
theorem attempts_effect (k : RateLimitKey) (t : Nat) (last : Option Window) :
    (attempts k).effect t ((l.openAt t last).map l.entry) =
      .ok (min (((l.openAt t last).elim 0 Window.failures : Nat) : Int) Range.int64.high,
        (l.openAt t last).map l.entry) := by
  cases l.openAt t last with
  | none => rfl
  | some x => exact World.look_failures k x.failures t (some (l.closing x))

namespace Keeps

variable {l} {t : Nat} {w v : World} {last : RateLimitKey → Option Window}

/-- Time closes windows, and entries go with them. -/
theorem later (h : l.Keeps t w last) {t' : Nat} (ht : t ≤ t') :
    l.Keeps t' (clocked w t') last := by
  refine ⟨rfl, h.sound, fun k => ⟨(h.serves k).available, (h.serves k).network⟩, ?_⟩
  intro k
  have hlater : (clocked w t').entry k.counterKey = (w.entry k.counterKey).filter (Entry.live t') :=
    w.store.entryAt_later (h.now ▸ ht) k.counterKey
  rw [hlater, h.holds k, l.openAt_later ht (last k), Option.filter_map]
  rfl

/-- A call that writes no limiter's key, and after which no call has overflowed, keeps the
windows. -/
theorem call (h : l.Keeps t w last) {a : Answer} (c : Call a)
    (hc : ∀ k : RateLimitKey, c.target ≠ some k.counterKey)
    (hsound : (w.perform c).2.store.poisoned = false) : l.Keeps t (w.perform c).2 last where
  now := (w.perform_now c).trans h.now
  sound := hsound
  serves := fun k => (h.serves k).perform c
  holds := fun k => ((h.serves k).entry_of_ne c (hc k)).trans (h.holds k)

/-- A look keeps the windows. -/
theorem look (h : l.Keeps t w last) {a : Answer} (c : Call a) (hc : c.Looks) :
    l.Keeps t (w.perform c).2 last := by
  have hsame := (h.serves ⟨[]⟩).perform_sound c hc.overflows
  refine h.call c ?_ (hsame.trans h.sound)
  intro k hk
  rw [hc.target] at hk
  cases hk

/-- What is done aside keeps the windows. -/
theorem aside (h : l.Keeps t w last) (hv : w.Via Deed.Aside v) : l.Keeps t v last := by
  refine hv.keeps (P := fun v => l.Keeps t v last) ?_ h
  intro u d hd hu
  cases d with
  | record r hr =>
      exact ⟨hu.now, hu.sound, fun k => ⟨(hu.serves k).available, (hu.serves k).network⟩, hu.holds⟩
  | call c => exact hu.look c.2 hd
  | scheduler name f =>
      exact ⟨hu.now, hu.sound, fun k => ⟨(hu.serves k).available, (hu.serves k).network⟩, hu.holds⟩
  | stage gates handlers next =>
      exact ⟨hu.now, hu.sound, fun k => ⟨(hu.serves k).available, (hu.serves k).network⟩, hu.holds⟩
  | runner | spawn | cancel | remove | reach => exact hd.elim

/-- A check answers whether the window that is open has as many failures as the limiter allows. -/
theorem check (h : l.Keeps t w last) (hword : l.maxAttempts < 0x100000000) (k : RateLimitKey) :
    (l.isLimited k w).1 =
      decide (l.maxAttempts ≤ (l.openAt t (last k)).elim 0 Window.failures) := by
  cases h.now
  have hattempts := l.attempts_effect k w.now (last k)
  rw [← h.holds k] at hattempts
  have hanswer := ((h.serves k).answers (attempts k) rfl hattempts).1
  cases hp : w.perform (attempts k) with
  | mk a u =>
      rw [hp] at hanswer
      rw [(l.isLimited_spec k hp).1, show a = _ from hanswer, l.limits_min _ hword]

/-- A call that writes one limiter's key leaves a window there. -/
theorem writes (h : l.Keeps t w last) (j : RateLimitKey) {a : Answer} (c : Call a)
    (hj : c.key? = some j.counterKey) (htarget : c.target = some j.counterKey) {m : Mark}
    (hbound : c.overflows t ((l.openAt t (last j)).map l.entry) = false)
    {x : a.Value} (heffect : c.effect t ((l.openAt t (last j)).map l.entry) =
      .ok (x, (l.openAt t (l.mark (last j) (t, m))).map l.entry)) :
    l.Keeps t (w.perform c).2 fun k => (if j = k then some m else none).elim (last k) fun m =>
      l.mark (last k) (t, m) := by
  cases h.now
  have hsound : (w.perform c).2.store.poisoned = false := by
    rw [(h.serves j).perform_poisoned c hj, h.holds j, h.sound, hbound]
    rfl
  refine ⟨w.perform_now c, hsound, fun k => (h.serves k).perform c, ?_⟩
  intro k
  by_cases hk : j = k
  · subst hk
    rw [if_pos rfl]
    rw [← h.holds j] at heffect
    exact ((h.serves j).answers c hj heffect).2
  · rw [if_neg hk]
    refine ((h.serves k).entry_of_ne c ?_).trans (h.holds k)
    rw [htarget]
    exact fun hkey => hk (counterKey_inj (Option.some.inj hkey))

/-- A request leaves on each key what its mark on the key says, if it does not overflow. -/
theorem serve (h : l.Keeps t w last) {r : Request} (hr : r.SparesLimits) (ht : l.told t = true)
    (hfew : ∀ k, (last k).elim 0 Window.failures < 0x7fffffffffffffff)
    (hother : ∀ c, r = .other c → (w.perform c.2).2.store.poisoned = false) :
    l.Keeps t (l.serve w r) (l.next t r last) := by
  cases r with
  | record j =>
      have hbound := l.recordFailure_overflows j ht (hfew j)
      obtain ⟨n, heffect⟩ := l.recordFailure_effect j t (last j)
      cases hp : w.perform (l.recordFailure j) with
      | mk a u =>
          have hwrites := h.writes j (l.recordFailure j) rfl rfl (m := .failure) hbound heffect
          rw [hp] at hwrites
          exact hwrites.aside (l.record_via j hp)
  | reset j =>
      cases hp : w.perform (Limiter.reset j) with
      | mk a u =>
          have hwrites := h.writes j (Limiter.reset j) rfl rfl (m := .reset) rfl (x := ()) rfl
          rw [hp] at hwrites
          exact hwrites.aside (forget_via j hp)
  | check j =>
      cases hp : w.perform (attempts j) with
      | mk a u =>
          have hcall := h.look (attempts j) (.attempts j)
          rw [hp] at hcall
          exact hcall.aside (l.isLimited_spec j hp).2
  | other c => exact h.call c.2 hr (hother c rfl)

/-- Timed requests leave on each key what their marks on the key say, as seen at a later instant, if
none of them overflows. -/
theorem attend (h : l.Keeps t w last) {es : List (Nat × Request)} {t' : Nat}
    (htimes : (t :: (es.map Prod.fst ++ [t'])).Pairwise (· ≤ ·))
    (hes : ∀ e ∈ es, e.2.SparesLimits) (ht : l.told t' = true)
    (hfew : ∀ k, (last k).elim 0 Window.failures + es.length < 0x7fffffffffffffff)
    (hbounds : l.carries w es = true) :
    l.Keeps t' (clocked (l.attend w es) t') fun k => (marks k es).foldl l.mark (last k) := by
  induction es generalizing t w last with
  | nil => exact h.later ((List.pairwise_cons.mp htimes).1 t' List.mem_cons_self)
  | cons e es ih =>
      obtain ⟨instant, r⟩ := e
      obtain ⟨hle, hrest⟩ := List.pairwise_cons.mp htimes
      have hlater := h.later (hle instant List.mem_cons_self)
      have htold := l.told_earlier ht ((List.pairwise_cons.mp hrest).1 t' (by simp))
      obtain ⟨hother, hcarries⟩ := l.carries_cons hbounds
      have hserved := hlater.serve (hes (instant, r) List.mem_cons_self) htold
        (fun k => Nat.lt_of_le_of_lt (Nat.le_add_right _ _) (hfew k)) hother
      have hend := ih hserved hrest (fun e he => hes e (List.mem_cons_of_mem _ he))
        (fun k => Nat.lt_of_le_of_lt (l.next_failures_le instant r last k es) (hfew k)) hcarries
      simp only [l.marks_cons instant r es]
      exact hend

end Keeps

/-- A limiter is an exact fixed window: over a store that answers, whose limiters' keys hold nothing
at first and are written by nobody else, a key is limited at an instant exactly if as many failures
have been counted in the window that is open then as the limiter allows. The key's entry is the
number of them and ends with the window, and one failure more leaves that end where it is. What the
window is depends on the failures and the resets of that key alone. This holds as long as the clock
tells the ends of windows and the failures can be counted in 64 bits; the limiter's calls then do
not overflow. -/
theorem limits_by_window {l : Limiter} (hword : l.maxAttempts < 0x100000000) {w : World}
    (hserves : ∀ k : RateLimitKey, w.Serves k.counterKey)
    (hfresh : ∀ k : RateLimitKey, w.entry k.counterKey = none) (hsound : w.store.poisoned = false)
    {es : List (Nat × Request)} {t : Nat}
    (htimes : (w.now :: (es.map Prod.fst ++ [t])).Pairwise (· ≤ ·))
    (hes : ∀ e ∈ es, e.2.SparesLimits) (htold : l.told t = true)
    (hfew : es.length < 0x7fffffffffffffff) (hbounds : l.carries w es = true) (k : RateLimitKey) :
    (l.isLimited k (clocked (l.attend w es) t)).1 =
        decide (l.maxAttempts ≤ l.failuresAt t (marks k es)) ∧
      (clocked (l.attend w es) t).entry k.counterKey =
        (l.openAt t (l.lastWindow (marks k es))).map l.entry ∧
      (∀ x ∈ l.openAt t (l.lastWindow (marks k es)),
        (l.record k (clocked (l.attend w es) t)).entry k.counterKey =
          some (l.entry { x with since := x.since ++ [t] })) ∧
      (l.attend w es).store.poisoned = false ∧
      (l.record k (clocked (l.attend w es) t)).store.poisoned = false := by
  have hstart : l.Keeps w.now w fun _ => none := ⟨rfl, hsound, hserves, hfresh⟩
  have hnone : ∀ _ : RateLimitKey, (none : Option Window).elim 0 Window.failures + es.length <
      0x7fffffffffffffff := by
    intro _
    rw [Option.elim_none, Nat.zero_add]
    exact hfew
  have hkeeps := hstart.attend htimes hes htold hnone hbounds
  have hcount : ∀ j, ((marks j es).foldl l.mark none).elim 0 Window.failures <
      0x7fffffffffffffff :=
    fun j => Nat.lt_of_le_of_lt (l.foldl_failures_le j es fun _ => none) (hnone j)
  have hrecords := hkeeps.serve (r := .record k) trivial htold hcount fun c hc => by cases hc
  refine ⟨hkeeps.check hword k, hkeeps.holds k, ?_, hkeeps.sound, hrecords.sound⟩
  intro x hx
  have hrecorded := hrecords.holds k
  have hmark : l.next t (.record k) (fun k => (marks k es).foldl l.mark none) k =
      l.mark (l.lastWindow (marks k es)) (t, .failure) := by
    simp only [next, Request.mark?, if_pos, Option.elim_some, lastWindow]
  rw [hmark, l.openAt_mark_failure hx] at hrecorded
  exact hrecorded

/-- Two failures in a window of a second and a half, which stays open for two seconds. -/
def twoFailures : Limiter := ⟨2, .ofMillis 1500, .failOpen⟩

/-- A client that attempts are counted under. -/
def client : RateLimitKey := ⟨"login:a".toList⟩

/-- Another client. -/
def neighbour : RateLimitKey := ⟨"login:b".toList⟩

/-- A client that fails twice while its neighbour is forgiven and jobs are counted. -/
def bursts : List (Nat × Request) :=
  [(0, .record client), (500000000, .record neighbour),
    (700000000, .other ⟨_, .decrement jobCounterKey⟩), (1900000000, .record client),
    (1900000000, .reset neighbour)]

theorem limits_by_window_bursts :
    (twoFailures.isLimited client (clocked (twoFailures.attend (World.around 0 .empty) bursts)
        1999999999)).1 = true ∧
      (twoFailures.isLimited neighbour (clocked (twoFailures.attend (World.around 0 .empty) bursts)
        1999999999)).1 = false ∧
      (twoFailures.isLimited client (clocked (twoFailures.attend (World.around 0 .empty) bursts)
        2000000000)).1 = false := by
  have hword : twoFailures.maxAttempts < 0x100000000 := by decide
  have hserves : ∀ k : RateLimitKey, (World.around 0 .empty).Serves k.counterKey :=
    fun k => World.serves_of_undisturbed rfl rfl
  have hes : ∀ e ∈ bursts, e.2.SparesLimits := by
    simp only [bursts, List.forall_mem_cons]
    refine ⟨trivial, trivial, ?_, trivial, trivial, nofun⟩
    exact fun k hk => counterKey_ne_jobCounterKey k (Option.some.inj hk).symm
  have hbounds : twoFailures.carries (World.around 0 .empty) bursts = true := by decide +kernel
  have hbefore := limits_by_window hword hserves (fun _ => rfl) rfl (t := 1999999999)
    (by decide) hes (by decide +kernel) (by decide) hbounds
  have hafter := limits_by_window hword hserves (fun _ => rfl) rfl (t := 2000000000)
    (by decide) hes (by decide +kernel) (by decide) hbounds client
  exact ⟨(hbefore client).1.trans (by decide), (hbefore neighbour).1.trans (by decide),
    hafter.1.trans (by decide)⟩

/-- A limiter whose windows are so long that the clock does not tell their ends. -/
def endless : Limiter := ⟨1, .ofSecs 0x8000000000000000, .failOpen⟩

/-- The first failure in a window whose end the clock does not tell breaks off: its caller gets
nothing and every later look is refused, so that a key is not limited under which as many failures
have been counted as the limiter allows. -/
theorem window_breaks_off :
    (Store.empty.ask 0 (endless.recordFailure client)).1 = none ∧
      ((Store.empty.ask 0 (endless.recordFailure client)).2.ask 0 (attempts client)).1 =
        some (.error .lockPoisoned) ∧
      endless.limits (.error .lockPoisoned) = false ∧
      endless.failuresAt 0 (marks client [(0, .record client)]) = endless.maxAttempts :=
  ⟨rfl, rfl, rfl, by decide +kernel⟩

end Limiter

end JobFleet
