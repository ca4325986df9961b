import JobFleet.Proofs.Store.Expiry
import JobFleet.Proofs.Store.Overflow
import JobFleet.Proofs.Table.Total

/-!
# The store against a map that forgets at once

The reference is a map from keys to entries from which, at every instant, all entries that have
run out are gone. The store drops such entries only on the way of a call that it answers, and
looks past them otherwise: nothing that can be asked of it tells it from the reference, whatever
was asked before and for however long it could not be reached, as long as no call has overflowed.
The reference has no bounds.
-/

namespace JobFleet

/-! ## Requests -/

/-- What can be asked of a store: a call, the time that a key has left, the number of keys, or to
be reached or not from now on. -/
inductive Store.Request
  | call (c : AnyCall)
  | remaining (key : String)
  | size
  | reach (available : Bool)

/-- What a request is told; a caller gets nothing from a call that overflows. -/
inductive Store.Reply
  | answer (a : Answer) (r : Option (Except StoreError a.Value))
  | remaining (left : Option Nat)
  | size (n : Nat)
  | done

/-- What a store tells a request at an instant, and the store afterwards. After a call has
overflowed, no key is seen. -/
def Store.handle (s : Store) (now : Nat) : Store.Request → Store.Reply × Store
  | .call c => (.answer c.1 (s.ask now c.2).1, (s.ask now c.2).2)
  | .remaining key => (.remaining (if s.poisoned then none else s.remaining now key), s)
  | .size => (.size (if s.poisoned then 0 else s.size now), s)
  | .reach available => (.done, { s with available })

/-- What a store tells timed requests one after another, and the store afterwards. -/
def Store.handleAll (s : Store) : List (Nat × Store.Request) → List Store.Reply × Store
  | [] => ([], s)
  | (t, r) :: es =>
      let (reply, s') := s.handle t r
      let (replies, s'') := s'.handleAll es
      (reply :: replies, s'')

/-- Whether none of the calls among timed requests overflows. -/
def Store.keepsBounds (s : Store) : List (Nat × Store.Request) → Bool
  | [] => true
  | (t, .call c) :: es => !s.overflows t c.2 && (s.handle t (.call c)).2.keepsBounds es
  | (t, r) :: es => (s.handle t r).2.keepsBounds es

/-! ## The reference -/

/-- A map of entries, and whether it can be reached. -/
structure EagerMap where
  entries : Table String Entry
  available : Bool

namespace EagerMap

/-- A map that can be reached and holds nothing. -/
def empty : EagerMap := ⟨∅, true⟩

/-- The map at an instant: what has run out by then is gone. -/
def upTo (m : EagerMap) (now : Nat) : EagerMap :=
  { m with entries := m.entries.filter fun _ e => e.live now }

/-- Gives a key another entry, or none. -/
def hold (m : EagerMap) (key : String) : Option Entry → EagerMap
  | some e => { m with entries := m.entries.insert key e }
  | none => { m with entries := m.entries.erase key }

/-- Makes a call: its effect on what its key holds. A call that fails does nothing. -/
def call {a : Answer} (m : EagerMap) (now : Nat) (c : Call a) :
    Except StoreError a.Value × EagerMap :=
  if m.available then
    match c.effect now (c.key?.bind m.entries.find?) with
    | .ok (v, after) => (.ok v, c.key?.elim m fun key => m.hold key after)
    | .error e => (.error e, m)
  else (.error .unavailable, m)

/-- What a map of this instant tells a request, and the map afterwards. -/
def handle (m : EagerMap) (now : Nat) : Store.Request → Store.Reply × EagerMap
  | .call c => (.answer c.1 (some (m.call now c.2).1), (m.call now c.2).2)
  | .remaining key => (.remaining ((m.entries.find? key).bind fun e => e.expires.map (· - now)), m)
  | .size => (.size m.entries.size, m)
  | .reach available => (.done, { m with available })

/-- What the map tells timed requests one after another, and the map afterwards: before each one,
what has run out is gone. -/
def handleAll (m : EagerMap) : List (Nat × Store.Request) → List Store.Reply × EagerMap
  | [] => ([], m)
  | (t, r) :: es =>
      let (reply, m') := (m.upTo t).handle t r
      let (replies, m'') := m'.handleAll es
      (reply :: replies, m'')

/-- Up to an instant a key holds what has not gone by then. -/
theorem upTo_find? (m : EagerMap) (now : Nat) (k : String) :
    (m.upTo now).entries.find? k = (m.entries.find? k).filter (Entry.live now) :=
  Table.find?_filter m.entries (fun _ e => e.live now) k

/-- A key holds what it is made to hold, and the others what they held. -/
theorem hold_find? (m : EagerMap) (key k : String) (after : Option Entry) :
    (m.hold key after).entries.find? k = if k = key then after else m.entries.find? k := by
  cases after with
  | some e => exact Table.find?_insert m.entries key k e
  | none => exact Table.find?_erase m.entries key k

/-- What a key holds does not decide whether the map is in reach. -/
theorem hold_available (m : EagerMap) (key : String) (after : Option Entry) :
    (m.hold key after).available = m.available := by
  cases after <;> rfl

section Calls

variable {a : Answer} {m : EagerMap} (now : Nat) (c : Call a)

/-- The answer of a call is that of its effect. -/
theorem call_answer (h : m.available = true) :
    (m.call now c).1 = (c.effect now (c.key?.bind m.entries.find?)).map Prod.fst := by
  unfold call
  rw [if_pos h]
  cases c.effect now (c.key?.bind m.entries.find?) <;> rfl

/-- A map out of reach refuses a call and stays as it is. -/
theorem call_unreached (h : m.available = false) : m.call now c = (.error .unavailable, m) := by
  simp [call, h]

/-- A call does not put the map out of reach. -/
theorem call_available : (m.call now c).2.available = m.available := by
  unfold call
  split
  · split
    · cases c.key? with
      | none => rfl
      | some key => exact m.hold_available key _
    · rfl
  · rfl

/-- A call leaves under its key what its effect says. -/
theorem call_find? (h : m.available = true) (k : String) :
    (m.call now c).2.entries.find? k =
      if c.key? = some k then c.leaves now (m.entries.find? k) else m.entries.find? k := by
  unfold call Call.leaves
  rw [if_pos h]
  cases hkey : c.key? with
  | none =>
      rw [if_neg nofun]
      cases c.effect now (Option.none.bind m.entries.find?) <;> rfl
  | some key =>
      rw [Option.bind_some]
      by_cases hk : key = k
      · subst hk
        rw [if_pos rfl]
        cases c.effect now (m.entries.find? key) with
        | error e => rfl
        | ok p => exact (m.hold_find? key key p.2).trans (if_pos rfl)
      · rw [if_neg fun he => hk (Option.some.inj he)]
        cases c.effect now (m.entries.find? key) with
        | error e => rfl
        | ok p => exact (m.hold_find? key k p.2).trans (if_neg fun he => hk he.symm)

end Calls

end EagerMap

/-! ## The store beside the reference -/

namespace Store

variable {s : Store} {now : Nat} {r : Request} {es : List (Nat × Request)}

/-- What the first of timed requests and the later ones do not overflow. -/
theorem keepsBounds_cons (h : s.keepsBounds ((now, r) :: es) = true) :
    (∀ c, r = .call c → s.overflows now c.2 = false) ∧
      (s.handle now r).2.keepsBounds es = true := by
  cases r with
  | call c =>
      obtain ⟨hcall, hrest⟩ := Bool.and_eq_true_iff.mp h
      refine ⟨?_, hrest⟩
      rintro _ ⟨⟩
      simpa using hcall
  | _ => exact ⟨nofun, h⟩

/-- A request that does not overflow leaves a store in which no call has. -/
theorem handle_poisoned (hs : s.poisoned = false)
    (hr : ∀ c, r = .call c → s.overflows now c.2 = false) :
    (s.handle now r).2.poisoned = false := by
  cases r with
  | call c =>
      refine (s.ask_poisons now c.2).trans ?_
      rw [hs, hr c rfl, Bool.or_false]
  | _ => exact hs

/-- Requests that do not overflow leave a store in which no call has. -/
theorem handleAll_poisoned (hs : s.poisoned = false) (h : s.keepsBounds es = true) :
    (s.handleAll es).2.poisoned = false := by
  induction es generalizing s with
  | nil => exact hs
  | cons e es ih =>
      obtain ⟨hcall, hrest⟩ := keepsBounds_cons h
      exact ih (handle_poisoned hs hcall) hrest

end Store

/-- A store that holds, at an instant, what the reference holds. -/
structure Store.Mirrors (s : Store) (now : Nat) (m : EagerMap) : Prop where
  available : s.available = m.available
  entryAt : ∀ k, s.entryAt now k = m.entries.find? k

namespace Store.Mirrors

variable {s : Store} {now : Nat} {m : EagerMap}

/-- What runs out is gone from the reference and passed over by the store. -/
theorem later (h : s.Mirrors now m) {t : Nat} (ht : now ≤ t) : s.Mirrors t (m.upTo t) where
  available := h.available
  entryAt := by
    intro k
    rw [s.entryAt_later ht, h.entryAt k, m.upTo_find?]

/-- A call finds the same under its key. -/
theorem heldBy (h : s.Mirrors now m) {a : Answer} (c : Call a) :
    s.heldBy now c = c.key?.bind m.entries.find? := by
  unfold Store.heldBy
  rw [show s.entryAt now = m.entries.find? from funext h.entryAt]

/-- A call is answered alike, and leaves alike what every key holds. -/
theorem call (h : s.Mirrors now m) {a : Answer} (c : Call a) :
    (s.apply now c).1 = (m.call now c).1 ∧ (s.apply now c).2.Mirrors now (m.call now c).2 := by
  cases hs : s.available with
  | false =>
      rw [apply_unavailable hs, m.call_unreached now c (h.available.symm.trans hs)]
      exact ⟨rfl, h⟩
  | true =>
      have hm := h.available.symm.trans hs
      refine ⟨?_, ?_, ?_⟩
      · rw [apply_answer s now c hs, m.call_answer now c hm, h.heldBy c]
      · rw [apply_available, m.call_available, h.available]
      · intro k
        rw [entryAt_apply s now c hs, m.call_find? now c hm, h.entryAt k]

/-- Store and map have as many keys. -/
theorem size (h : s.Mirrors now m) : s.size now = m.entries.size := by
  refine Table.size_eq (t := (s.purge now).entries) ?_
  intro k
  rw [purge_find?, h.entryAt k]

/-- Every request that does not overflow is told the same. -/
theorem handle (h : s.Mirrors now m) (hs : s.poisoned = false) {r : Request}
    (hr : ∀ c, r = .call c → s.overflows now c.2 = false) :
    (s.handle now r).1 = (m.handle now r).1 ∧
      (s.handle now r).2.Mirrors now (m.handle now r).2 := by
  cases r with
  | call c =>
      obtain ⟨hanswer, hafter⟩ := h.call c.2
      simp only [Store.handle, EagerMap.handle, s.ask_eq_apply now c.2 hs (hr c rfl), hanswer,
        true_and]
      exact hafter
  | remaining key =>
      refine ⟨?_, h⟩
      simp only [Store.handle, EagerMap.handle, hs, Bool.false_eq_true, if_false, Store.remaining,
        h.entryAt key]
  | size =>
      refine ⟨?_, h⟩
      simp only [Store.handle, EagerMap.handle, hs, Bool.false_eq_true, if_false, h.size]
  | reach available => exact ⟨rfl, rfl, h.entryAt⟩

/-- All requests of a sequence are told the same, and what is held later is the same. -/
theorem handleAll (h : s.Mirrors now m) (hs : s.poisoned = false) {es : List (Nat × Request)}
    (hbounds : s.keepsBounds es = true) {t : Nat}
    (htimes : (now :: (es.map Prod.fst ++ [t])).Pairwise (· ≤ ·)) :
    (s.handleAll es).1 = (m.handleAll es).1 ∧
      (s.handleAll es).2.Mirrors t ((m.handleAll es).2.upTo t) := by
  induction es generalizing s now m with
  | nil => exact ⟨rfl, h.later ((List.pairwise_cons.mp htimes).1 t List.mem_cons_self)⟩
  | cons e es ih =>
      obtain ⟨t', r⟩ := e
      obtain ⟨hle, hrest⟩ := List.pairwise_cons.mp htimes
      obtain ⟨hcall, hrests⟩ := keepsBounds_cons hbounds
      obtain ⟨hreply, hafter⟩ := (h.later (hle t' List.mem_cons_self)).handle hs hcall
      obtain ⟨hreplies, hend⟩ := ih hafter (handle_poisoned hs hcall) hrests hrest
      refine ⟨?_, hend⟩
      simp only [Store.handleAll, EagerMap.handleAll, hreply, hreplies]

end Store.Mirrors

/-! ## The last expiry -/

namespace Store

variable {s : Store} {now t : Nat}

/-- The expiries that the calls among timed requests fix for a key, one after another. -/
def fixings (key : String) (s : Store) : List (Nat × Request) → List (Option Nat)
  | [] => []
  | (t, .call c) :: es =>
      (s.fixed? key t c.2).toList ++ fixings key (s.handle t (.call c)).2 es
  | (t, r) :: es => fixings key (s.handle t r).2 es

/-- What a key holds has the expiry that was fixed for it last. -/
theorem last_fixing {k : String} {es : List (Nat × Request)} (hs : s.poisoned = false)
    (hbounds : s.keepsBounds es = true)
    (htimes : (now :: (es.map Prod.fst ++ [t])).Pairwise (· ≤ ·)) {past : List (Option Nat)}
    (hpast : ∀ e, s.entryAt now k = some e → past.getLast? = some e.expires) {e : Entry}
    (h : (s.handleAll es).2.entryAt t k = some e) :
    (past ++ s.fixings k es).getLast? = some e.expires := by
  induction es generalizing s now past with
  | nil =>
      rw [fixings, List.append_nil]
      have hle : now ≤ t := (List.pairwise_cons.mp htimes).1 t List.mem_cons_self
      have hthere : (s.entryAt now k).filter (Entry.live t) = some e :=
        (s.entryAt_later hle k).symm.trans h
      exact hpast e (Option.filter_eq_some_iff.mp hthere).1
  | cons x es ih =>
      obtain ⟨u, r⟩ := x
      obtain ⟨hle, hrest⟩ := List.pairwise_cons.mp htimes
      have hlater : ∀ e, s.entryAt u k = some e → past.getLast? = some e.expires := by
        intro e he
        rw [entryAt_later s (hle u List.mem_cons_self)] at he
        exact hpast e (Option.filter_eq_some_iff.mp he).1
      obtain ⟨hcall, hrests⟩ := keepsBounds_cons hbounds
      have hs' : (s.handle u r).2.poisoned = false := handle_poisoned hs hcall
      cases r with
      | call c =>
          rw [fixings, ← List.append_assoc]
          refine ih hs' hrests hrest ?_ h
          intro e he
          rw [Store.handle, s.ask_eq_apply u c.2 hs (hcall c rfl)] at he
          have hexpires := apply_expires he
          rw [List.getLast?_append]
          cases hfixed : s.fixed? k u c.2 with
          | some x =>
              rw [hfixed] at hexpires
              exact hexpires
          | none =>
              rw [hfixed, Option.none_or] at hexpires
              obtain ⟨e', he', hsame⟩ := Option.map_eq_some_iff.mp hexpires
              rw [← hsame]
              exact hlater e' he'
      | remaining key => exact ih hs' hrests hrest hlater h
      | size => exact ih hs' hrests hrest hlater h
      | reach available => exact ih hs' hrests hrest hlater h

end Store

/-- A call that adds to what a key holds keeps its expiry. -/
theorem Store.ask_adds {s : Store} {now : Nat} (hs : s.poisoned = false) {a : Answer} {c : Call a}
    (hadds : c.Adds) {k : String} (hkey : c.key? = some k) {x : Entry}
    (hx : s.entryAt now k = some x) :
    ∃ y, (s.ask now c).2.entryAt now k = some y ∧ y.expires = x.expires := by
  cases hc : s.overflows now c with
  | true => exact ⟨x, (s.ask_overflows_entryAt now c hs hc k).trans hx, rfl⟩
  | false =>
      rw [s.ask_eq_apply now c hs hc]
      cases hreach : s.available with
      | false =>
          rw [Store.apply_unavailable hreach]
          exact ⟨x, hx, rfl⟩
      | true =>
          rw [Store.entryAt_apply _ now c hreach, if_pos hkey, hx]
          exact hadds.leaves now x

/-- Whatever is asked of a store that begins empty, at times that do not go back, it tells what the
map that forgets at once tells, as long as no call overflows, and at any later instant it holds the
same under every key. A caller gets nothing from the next call exactly if that overflows. What a key
holds has the expiry that a successful call fixed for it last; calls that add to what a key holds
keep its expiry; and a call that fails, because the store cannot be reached or the key holds no
number, leaves every key as it is from then on. -/
theorem store_is_eager_map {es : List (Nat × Store.Request)} {now : Nat}
    (htimes : (es.map Prod.fst ++ [now]).Pairwise (· ≤ ·))
    (hbounds : Store.empty.keepsBounds es = true) :
    (Store.empty.handleAll es).1 = (EagerMap.empty.handleAll es).1 ∧
      (Store.empty.handleAll es).2.Mirrors now ((EagerMap.empty.handleAll es).2.upTo now) ∧
      (∀ (a : Answer) (c : Call a), ((Store.empty.handleAll es).2.ask now c).1 = none ↔
        (Store.empty.handleAll es).2.overflows now c = true) ∧
      (∀ k e, (Store.empty.handleAll es).2.entryAt now k = some e →
        (Store.empty.fixings k es).getLast? = some e.expires) ∧
      (∀ (a : Answer) (c : Call a) k x, c.Adds → c.key? = some k →
        (Store.empty.handleAll es).2.entryAt now k = some x →
        ∃ y, ((Store.empty.handleAll es).2.ask now c).2.entryAt now k = some y ∧
          y.expires = x.expires) ∧
      ∀ (a : Answer) (c : Call a) f,
        ((Store.empty.handleAll es).2.ask now c).1 = some (.error f) →
        (f = .unavailable ∨ ∃ key, c.key? = some key ∧ f = .notInteger key) ∧
          ∀ t, now ≤ t → ∀ k, ((Store.empty.handleAll es).2.ask now c).2.entryAt t k =
            (Store.empty.handleAll es).2.entryAt t k := by
  have hstart : Store.empty.Mirrors 0 EagerMap.empty := ⟨rfl, fun _ => rfl⟩
  have htimes' : (0 :: (es.map Prod.fst ++ [now])).Pairwise (· ≤ ·) :=
    List.pairwise_cons.mpr ⟨fun t _ => Nat.zero_le t, htimes⟩
  obtain ⟨hreplies, hend⟩ := hstart.handleAll rfl hbounds htimes'
  have hsound := Store.handleAll_poisoned (s := .empty) rfl hbounds
  refine ⟨hreplies, hend, ?_, ?_, ?_, ?_⟩
  · intro a c
    exact Store.ask_none_iff _ now c hsound
  · intro k e he
    have hnone : ∀ x, Store.empty.entryAt 0 k = some x → [].getLast? = some x.expires := by
      intro x hx
      cases hx
    exact Store.last_fixing rfl hbounds htimes' hnone he
  · intro a c k x hadds hkey hx
    exact Store.ask_adds hsound hadds hkey hx
  · intro a c f hf
    obtain ⟨hbound, hf'⟩ := Store.ask_error hsound hf
    rw [Store.ask_eq_apply _ now c hsound hbound]
    refine ⟨?_, fun t ht k => Store.apply_error hf' ht k⟩
    rcases Store.apply_fault hf' with ⟨hunreached, -⟩ | hnumber
    · exact .inl hunreached
    · exact .inr hnumber

/-- A key with one and a half seconds to live is there until the end of the second one, also while
the store cannot be reached, and an increment does not prolong the life of a counter. -/
theorem store_is_eager_map_outage :
    (EagerMap.empty.handleAll [(0, .call ⟨_, .set "lease" "mine" (some (.ofMillis 1500))⟩),
      (0, .call ⟨_, .increment "hits" (some (.ofMillis 1000))⟩),
      (999999999, .call ⟨_, .increment "hits" (some (.ofMillis 1000))⟩), (999999999, .size),
      (1000000000, .size), (1000000000, .reach false),
      (1999999999, .call ⟨_, .get "lease"⟩), (1999999999, .remaining "lease"),
      (2000000000, .remaining "lease"), (2000000000, .size), (2000000000, .reach true),
      (2000000000, .call ⟨_, .setIfAbsent "lease" "yours" none⟩),
      (2000000000, .call ⟨_, .increment "lease" none⟩),
      (2000000000, .call ⟨_, .get "lease"⟩)]).1 =
      [.answer .nothing (some (.ok ())), .answer .count (some (.ok 1)),
        .answer .count (some (.ok 2)), .size 2, .size 1, .done,
        .answer .text (some (.error .unavailable)), .remaining (some 1), .remaining none, .size 0,
        .done, .answer .flag (some (.ok true)),
        .answer .count (some (.error (.notInteger "lease"))),
        .answer .text (some (.ok (some "yours")))] :=
  (store_is_eager_map (show (_ ++ [3000000000]).Pairwise (· ≤ ·) by simp)
    (by decide +kernel)).1.symm.trans rfl

/-- A value is written for `2 ^ 63` seconds, and the clock does not tell the end of them. The caller
gets nothing, and from then on no call is answered and no key is seen, where the map that has no
bounds holds the value. -/
theorem store_breaks_off :
    (Store.empty.handleAll
        [(0, .call ⟨_, .set "k" "v" (some (.ofSecs 9223372036854775808))⟩),
          (0, .call ⟨_, .get "k"⟩), (0, .size)]).1 =
      [.answer .nothing none, .answer .text (some (.error .lockPoisoned)), .size 0] ∧
    (EagerMap.empty.handleAll
        [(0, .call ⟨_, .set "k" "v" (some (.ofSecs 9223372036854775808))⟩),
          (0, .call ⟨_, .get "k"⟩), (0, .size)]).1 =
      [.answer .nothing (some (.ok ())), .answer .text (some (.ok (some "v"))), .size 1] :=
  ⟨rfl, rfl⟩

end JobFleet
