import JobFleet.Proofs.Redis.Server
import JobFleet.Proofs.Store.Keys

/-!
# The two backends agree

A client of a documented server and the store in memory answer alike, and hold the same entries,
after every call of any timed sequence of the calls that the fleet's members issue, from nothing
and for fewer than `2 ^ 53` calls. What keeps them together is what is known of the numbers on
the keys that count: the counter of running jobs never leaves the number of calls made so far,
and the counters of attempts are between one and that number.
-/

namespace JobFleet.Redis

open Number (showInteger)

variable {σ ν : Type}

/-! ## Calls -/

/-- A key holds nothing, or the printed form of an integer between two bounds. -/
def Within (low high : Int) (held : Option Entry) : Prop :=
  ∀ e, held = some e → ∃ n : Int, e.value = showInteger n ∧ low ≤ n ∧ n ≤ high

/-- A wider range. -/
theorem Within.mono {low low' high high' : Int} {held : Option Entry} (h : Within low high held)
    (hl : low' ≤ low) (hh : high ≤ high') : Within low' high' held := by
  intro e he
  obtain ⟨n, hn, hlow, hhigh⟩ := h e he
  exact ⟨n, hn, by omega, by omega⟩

/-- The number on a key within bounds of exact integers; an absent key counts as zero. -/
theorem Within.number {low high : Int} {held : Option Entry} (h : Within low high held)
    (hl : -(0x20000000000000 - 1) ≤ low) (hh : high ≤ 0x20000000000000 - 1) (k : String) :
    ∃ n : Int, Shows held n ∧ Exact n ∧ Entry.number k held = .ok n ∧
      (held = none ∧ n = 0 ∨ held.isSome = true ∧ low ≤ n ∧ n ≤ high) := by
  cases held with
  | none => exact ⟨0, rfl, by decide, rfl, Or.inl ⟨rfl, rfl⟩⟩
  | some e =>
      obtain ⟨n, hn, hlow, hhigh⟩ := h e rfl
      have hexact : Exact n := by
        unfold Exact
        omega
      refine ⟨n, hn, hexact, ?_, Or.inr ⟨rfl, hlow, hhigh⟩⟩
      have hrange := (Number.Range.holds_iff _ _).mp (int64_of_exact hexact).1
      rw [Entry.number, Store.Entry.count, hn,
        Number.readInteger_showInteger (by decide) hrange]

/-- What a call that changes a number needs of it: all are exact, and one to be raised with a
time to live is positive if it is there at all. -/
def Reckons (held : Option Entry) {a : Answer} : Call a → Prop
  | .increment .. => Within 1 (0x20000000000000 - 2) held
  | .decrement _ | .incrementIfBelow .. =>
      Within (-(0x20000000000000 - 1)) (0x20000000000000 - 1) held
  | _ => True

/-- A server's reply and what it leaves are those of a call's effect. -/
def Follows (view : View σ) (now : Nat) (s : σ) (x : Reply × σ) {a : Answer} (c : Call a) : Prop :=
  x.1.answer c = (c.effect now (c.key?.bind (view s now))).map Prod.fst ∧ x.1 ≠ .lost ∧
    ∀ j, view x.2 now j =
      if c.key? = some j then c.leaves now (c.key?.bind (view s now)) else view s now j

/-- A command follows a call if it answers and leaves what the call's effect says. -/
theorem View.Does.follows {view : View σ} {now : Nat} {s : σ} {x : Reply × σ} {k : String}
    {r : Reply} {after : Option Entry} (h : view.Does now s x k r after) {a : Answer} {c : Call a}
    (hk : c.key? = some k) (hr : r ≠ .lost)
    (hanswer : r.answer c = (c.effect now (view s now k)).map Prod.fst)
    (hafter : c.leaves now (view s now k) = after) : Follows view now s x c := by
  refine ⟨?_, ?_, ?_⟩
  · rw [h.1, hk, Option.bind_some]
    exact hanswer
  · rw [h.1]
    exact hr
  · intro j
    rw [h.2 j, hk, Option.bind_some, hafter]
    simp only [Option.some.injEq, eq_comm]

/-- Most effects succeed: then the reply is read as their answer, and they leave the same. -/
theorem View.Does.follows_ok {view : View σ} {now : Nat} {s : σ} {x : Reply × σ} {k : String}
    {r : Reply} {after : Option Entry} (h : view.Does now s x k r after) {a : Answer} {c : Call a}
    {v : a.Value} (hk : c.key? = some k) (hr : r ≠ .lost) (hanswer : r.answer c = .ok v)
    (heffect : c.effect now (view s now k) = .ok (v, after)) : Follows view now s x c := by
  refine h.follows hk hr ?_ ?_
  · rw [hanswer, heffect]
    rfl
  · rw [Call.leaves, heffect]

/-- A call that asks for a yes or a no, and leaves the one or the other. -/
theorem View.Does.follows_flag {view : View σ} {now : Nat} {s : σ} {x : Reply × σ} {k : String}
    {p : Prop} [Decidable p] {yes no : Option Entry}
    (h : view.Does now s x k (.integer (if p then 1 else 0)) (if p then yes else no))
    {c : Call .flag} (hk : c.key? = some k) (hyes : (Reply.integer 1).answer c = .ok true)
    (hno : (Reply.integer 0).answer c = .ok false)
    (heffect : c.effect now (view s now k) = if p then .ok (true, yes) else .ok (false, no)) :
    Follows view now s x c := by
  by_cases hp : p
  · rw [if_pos hp, if_pos hp] at h
    exact h.follows_ok hk (by simp) hyes (heffect.trans (if_pos hp))
  · rw [if_neg hp, if_neg hp] at h
    exact h.follows_ok hk (by simp) hno (heffect.trans (if_neg hp))

/-- The time to live of a write, in the words of the server. -/
theorem expiryWords_eq (ttl : Option Duration) :
    expiryWords ttl = lifeWords (ttl.map Duration.ttlSecs) := by
  cases ttl <;> rfl

/-- A life in whole seconds ends where the store's expiry is. -/
theorem lifeEnd_ttlSecs (now : Nat) (ttl : Option Duration) :
    lifeEnd now (ttl.map Duration.ttlSecs) = expiryOf now ttl := by
  cases ttl <;> rfl

/-- A time to live is one second at least. -/
theorem one_le_life (ttl : Option Duration) : ∀ n ∈ ttl.map Duration.ttlSecs, 1 ≤ n := by
  intro n hn
  obtain ⟨d, -, rfl⟩ := Option.map_eq_some_iff.mp hn
  exact d.one_le_ttlSecs

/-- The 64 bits of a counter hold an exact number's neighbours. -/
theorem clamp_of_holds {n : Int} (h : Number.Range.int64.holds n = true) :
    Number.Range.int64.clamp n = n := by
  rw [Number.Range.holds_iff] at h
  unfold Number.Range.clamp
  omega

/-- Adding to an exact number that a key shows. -/
theorem add_of_shows {held : Option Entry} {n step : Int} {k : String} (expires : Option Nat)
    (hshows : Shows held n) (hnumber : Entry.number k held = .ok n)
    (hrange : Number.Range.int64.holds (n + step) = true) :
    Entry.add k step expires held = .ok (n + step, some ⟨showInteger (n + step),
      if held = none then expires else held.bind Entry.expires⟩) := by
  cases held with
  | none =>
      have hzero : n = 0 := hshows
      rw [hzero, Int.zero_add]
      rfl
  | some e =>
      have hcount : Store.Entry.count k e = .ok n := hnumber
      simp only [Entry.add, hcount, clamp_of_holds hrange, Store.Entry.recount, reduceCtorEq,
        if_false, Option.bind_some]

section Calls

variable {S : Server σ} {N : Numbers ν} {view : View σ} (hS : S.Documented view)
  (hN : N.Documented) (s : σ) (now : Nat)

include hS

/-- A conditional `SET` follows the call that writes where nothing is. -/
theorem Server.Documented.follows_setIfAbsent (k v : String) (ttl : Option Duration) :
    Follows view now s (S.run s now (["SET", k, v, "NX"] ++ expiryWords ttl))
      (.setIfAbsent k v ttl) := by
  have h := hS.setIfAbsent s now k v (ttl.map Duration.ttlSecs) (one_le_life ttl)
  rw [← expiryWords_eq, lifeEnd_ttlSecs] at h
  cases hv : view s now k with
  | none =>
      rw [hv] at h
      exact h.follows_ok rfl (by simp) rfl (by rw [hv]; rfl)
  | some e =>
      rw [hv] at h
      exact h.follows_ok rfl (by simp) rfl (by rw [hv]; rfl)

/-- `PING` follows its call. -/
theorem Server.Documented.follows_ping :
    Follows view now s (S.run s now ["PING"]) .ping := by
  have h := hS.ping s now ""
  refine ⟨?_, ?_, ?_⟩
  · rw [h.1]
    rfl
  · rw [h.1]
    rintro ⟨⟩
  · intro j
    have hj := (hS.ping s now j).2 j
    rw [if_pos rfl] at hj
    exact hj

/-- `DECR` follows its call as long as the counter is exact. -/
theorem Server.Documented.follows_decrement (k : String)
    (hheld : Within (-(0x20000000000000 - 1)) (0x20000000000000 - 1) (view s now k)) :
    Follows view now s (S.run s now ["DECR", k]) (.decrement k) := by
  obtain ⟨n, hshows, hexact, hnumber, -⟩ := hheld.number (by decide) (by decide) k
  have hrange := int64_of_exact hexact
  have h := hS.decrement s now k n hshows hrange.1 hrange.2.2
  have hadd := add_of_shows none hshows hnumber hrange.2.2
  refine h.follows_ok rfl (by simp) rfl (hadd.trans ?_)
  cases view s now k <;> rfl

/-- A text that is no number is refused on both sides. -/
theorem Server.Documented.follows_counter (k : String) :
    Follows view now s (S.run s now ["GET", k]) (.counter k) := by
  have hleaves : (Call.counter k).leaves now (view s now k) = view s now k := by
    simp only [Call.leaves, Call.effect]
    cases Entry.number k (view s now k) <;> rfl
  refine (hS.get s now k).follows rfl ?_ ?_ hleaves
  · cases view s now k <;> simp [Reply.ofHeld]
  · cases view s now k with
    | none => rfl
    | some e =>
        simp only [Reply.ofHeld, Reply.answer, Reply.text, Call.effect, Entry.number,
          Store.Entry.count, bind, Except.bind]
        cases Number.readInteger .int64 e.value <;> rfl

include hN

/-- The script that opens a window follows an increment with a time to live. -/
theorem Server.Documented.follows_increment (k : String) (ttl : Option Duration)
    (hheld : Within 1 (0x20000000000000 - 2) (view s now k)) :
    Follows view now s (S.execute N s now (.run .incrementWithTtl k [expiryArg ttl]))
      (.increment k ttl) := by
  obtain ⟨n, hshows, hexact, hnumber, hcases⟩ := hheld.number (by decide) (by decide) k
  have hnew : n = 0 ↔ view s now k = none := by
    rcases hcases with ⟨hnone, hzero⟩ | ⟨hsome, hlow, -⟩
    · simp only [hnone, hzero]
    · rw [Option.isSome_iff_ne_none] at hsome
      simp only [hsome, iff_false]
      omega
  have h := hS.incrementWithTtl hN s now k ttl hshows hnew.mp (by omega) (by omega)
  have hadd := add_of_shows (expiryOf now ttl) hshows hnumber (int64_of_exact hexact).2.1
  simp only [← hnew] at hadd
  exact h.follows_ok rfl (by simp) rfl hadd

/-- The script that heeds a ceiling follows its call. -/
theorem Server.Documented.follows_incrementIfBelow (k : String) (ceiling : Int)
    (hheld : Within (-(0x20000000000000 - 1)) (0x20000000000000 - 1) (view s now k)) :
    Follows view now s (S.execute N s now (.run .incrementIfBelow k [showInteger ceiling]))
      (.incrementIfBelow k ceiling) := by
  obtain ⟨n, hshows, hexact, hnumber, -⟩ := hheld.number (by decide) (by decide) k
  have h := hS.incrementIfBelow hN s now k ceiling hshows hexact
  by_cases hv : ceiling ≤ n
  · rw [if_pos hv, if_pos hv] at h
    refine h.follows_ok rfl (by simp) rfl ?_
    simp only [Call.effect, hnumber, if_pos hv]
    rfl
  · rw [if_neg hv, if_neg hv] at h
    refine h.follows_ok rfl (by simp) rfl ?_
    simp only [Call.effect, hnumber, if_neg hv]
    rfl

/-- Every call, if the numbers that it changes are exact. -/
theorem Server.Documented.follows {a : Answer} (c : Call a)
    (hc : Reckons (c.key?.bind (view s now)) c) :
    Follows view now s (S.execute N s now (.ofCall c)) c := by
  cases c with
  | ping => exact hS.follows_ping s now
  | get k =>
      refine (hS.get s now k).follows rfl ?_ ?_ rfl
      · cases view s now k <;> simp [Reply.ofHeld]
      · cases view s now k <;> rfl
  | set k v ttl =>
      have h := hS.set s now k v (ttl.map Duration.ttlSecs) (one_le_life ttl)
      rw [← expiryWords_eq, lifeEnd_ttlSecs] at h
      exact h.follows_ok rfl (by simp) rfl rfl
  | setIfAbsent k v ttl => exact hS.follows_setIfAbsent s now k v ttl
  | replace k expected v ttl =>
      exact (hS.compareAndSet hN s now k expected v ttl).follows_flag rfl rfl rfl rfl
  | delete k => exact (hS.delete s now k).follows_ok rfl (by simp) rfl rfl
  | increment k ttl => exact hS.follows_increment hN s now k ttl hc
  | decrement k => exact hS.follows_decrement s now k hc
  | counter k => exact hS.follows_counter s now k
  | incrementIfBelow k ceiling => exact hS.follows_incrementIfBelow hN s now k ceiling hc
  | acquireLock name token ttl =>
      exact hS.follows_setIfAbsent s now (lockKey name) token (some ttl)
  | releaseLock name token =>
      exact (hS.releaseIfOwner hN s now (lockKey name) token).follows_flag rfl rfl rfl rfl
  | extendLock name token ttl =>
      have h := hS.extendIfOwner hN s now (lockKey name) token ttl.one_le_ttlSecs
      exact h.follows_flag rfl rfl rfl rfl

end Calls

/-! ## Sequences -/

/-- The calls that the members of a fleet issue: those of runners on the statuses of jobs and on
the counter of running jobs, those of limiters on counters of attempts, and those of locks. -/
inductive Issued : {a : Answer} → Call a → Prop
  | ping : Issued .ping
  | status (j : JobKey) : Issued (.get j.statusKey)
  | writeStatus (j : JobKey) (value : String) (ttl : Option Duration) :
      Issued (.set j.statusKey value ttl)
  | claim (j : JobKey) (value : String) (ttl : Option Duration) :
      Issued (.setIfAbsent j.statusKey value ttl)
  | claimAnew (j : JobKey) (expected value : String) (ttl : Option Duration) :
      Issued (.replace j.statusKey expected value ttl)
  | takeSlot (ceiling : Int) : Issued (.incrementIfBelow jobCounterKey ceiling)
  | giveBack : Issued (.decrement jobCounterKey)
  | running : Issued (.counter jobCounterKey)
  | readRunning : Issued (.get jobCounterKey)
  | recordFailure (r : RateLimitKey) (window : Duration) :
      Issued (.increment r.counterKey (some window))
  | attempts (r : RateLimitKey) : Issued (.counter r.counterKey)
  | forget (r : RateLimitKey) : Issued (.delete r.counterKey)
  | acquire (name token : String) (ttl : Duration) : Issued (.acquireLock name token ttl)
  | release (name token : String) : Issued (.releaseLock name token)
  | extend (name token : String) (ttl : Duration) : Issued (.extendLock name token ttl)

/-- What a call answers, and what every key holds after it. -/
structure Outcome where
  kind : Answer
  answer : Except StoreError kind.Value
  entries : String → Option Entry

/-- The outcomes of timed calls on the store in memory. -/
def storeTrace (s : Store) : List (Nat × AnyCall) → List Outcome
  | [] => []
  | (t, c) :: cs =>
      let (answer, s') := s.apply t c.2
      ⟨c.1, answer, s'.entryAt t⟩ :: storeTrace s' cs

/-- The outcomes of timed calls that a client makes on a server. -/
def serverTrace (S : Server σ) (N : Numbers ν) (view : View σ) (client : Client) (s : σ) :
    List (Nat × AnyCall) → List Outcome
  | [] => []
  | (t, c) :: cs =>
      let (answer, client', s') := S.call N client s t c.2
      ⟨c.1, answer, view s' t⟩ :: serverTrace S N view client' s' cs

/-- What a key holds after a number of calls, if it is one that counts. -/
def Tame (calls : Nat) (k : String) (held : Option Entry) : Prop :=
  (k = jobCounterKey → Within (-calls) calls held) ∧
    ∀ r : RateLimitKey, k = r.counterKey → Within 1 calls held

/-- A server and a store that hold the same from an instant on, after a number of calls. -/
structure Together (view : View σ) (s : σ) (m : Store) (now calls : Nat) : Prop where
  reached : m.available = true
  same : ∀ k, view s now k = m.entryAt now k
  tame : ∀ k, Tame calls k (view s now k)

/-- What has gone holds no number out of range. -/
theorem Within.filter {low high : Int} {held : Option Entry} (h : Within low high held)
    (p : Entry → Bool) : Within low high (held.filter p) := by
  intro e he
  rw [Option.filter_eq_some_iff] at he
  exact h e he.1

/-- A count within bounds, raised or lowered by one, is within bounds that are wider by one. -/
theorem Within.entry {low high n : Int} (hl : low ≤ n) (hh : n ≤ high) (t : Option Nat) :
    Within low high (some ⟨showInteger n, t⟩) := by
  rintro e ⟨⟩
  exact ⟨n, rfl, hl, hh⟩

section Together

variable {S : Server σ} {N : Numbers ν} {view : View σ} (hS : S.Documented view)
  (hN : N.Documented) {s : σ} {m : Store} {now calls : Nat}

include hS in
/-- Two stores that agree do so at every later instant. -/
theorem Together.later (h : Together view s m now calls) {t : Nat} (ht : now ≤ t) :
    Together view s m t calls := by
  refine ⟨h.reached, ?_, ?_⟩
  · intro k
    rw [hS.passes s ht k, m.entryAt_later ht k, h.same k]
  · intro k
    rw [hS.passes s ht k]
    exact ⟨fun hk => ((h.tame k).1 hk).filter _, fun r hr => ((h.tame k).2 r hr).filter _⟩

/-- The calls that are issued find on their keys the numbers that they need. -/
theorem Issued.reckons {a : Answer} {c : Call a} (hc : Issued c) {held : Option Entry}
    (hheld : ∀ k, c.key? = some k → Tame calls k held) (hcalls : calls + 1 < 0x20000000000000) :
    Reckons held c := by
  cases hc with
  | takeSlot ceiling => exact ((hheld _ rfl).1 rfl).mono (by omega) (by omega)
  | giveBack => exact ((hheld _ rfl).1 rfl).mono (by omega) (by omega)
  | recordFailure r window => exact ((hheld _ rfl).2 r rfl).mono (by omega) (by omega)
  | _ => trivial

/-- One more call leaves more room. -/
theorem Tame.more {k : String} {held : Option Entry} (h : Tame calls k held) :
    Tame (calls + 1) k held :=
  ⟨fun hk => (h.1 hk).mono (by omega) (by omega), fun r hr => (h.2 r hr).mono (by omega) (by omega)⟩

/-- Nothing is asked of what a status key holds. -/
theorem tame_statusKey (j : JobKey) (held : Option Entry) : Tame calls j.statusKey held :=
  ⟨fun hk => absurd hk (statusKey_ne_jobCounterKey j),
    fun r hr => absurd hr.symm (counterKey_ne_statusKey r j)⟩

/-- Nothing is asked of what a lock key holds. -/
theorem tame_lockKey (name : String) (held : Option Entry) : Tame calls (lockKey name) held :=
  ⟨fun hk => absurd hk (lockKey_ne_jobCounterKey name),
    fun r hr => absurd hr.symm (counterKey_ne_lockKey r name)⟩

/-- The count of jobs moves by one with each call. -/
theorem tame_jobCounterKey {held : Option Entry} (h : Within (-calls) calls held) :
    Tame calls jobCounterKey held :=
  ⟨fun _ => h, fun r hr => absurd hr.symm (counterKey_ne_jobCounterKey r)⟩

/-- A count of attempts grows by one with each call. -/
theorem tame_counterKey (r : RateLimitKey) {held : Option Entry} (h : Within 1 calls held) :
    Tame calls r.counterKey held :=
  ⟨fun hk => absurd hk (counterKey_ne_jobCounterKey r), fun _ _ => h⟩

/-- Reading a counter leaves it alone. -/
theorem leaves_counter (now : Nat) (held : Option Entry) (k : String) :
    (Call.counter k).leaves now held = held := by
  simp only [Call.leaves, Call.effect]
  cases Entry.number k held <;> rfl

/-- The calls that are issued leave on their keys numbers that moved by one at most. -/
theorem Issued.tame {a : Answer} {c : Call a} (hc : Issued c) {held : Option Entry} {k : String}
    (hk : c.key? = some k) (hheld : Tame calls k held) (hcalls : calls + 1 < 0x20000000000000) :
    Tame (calls + 1) k (c.leaves now held) := by
  cases hc with
  | ping => cases hk
  | status j | writeStatus j | claim j | claimAnew j =>
      cases hk
      exact tame_statusKey j _
  | acquire name | release name | extend name =>
      cases hk
      exact tame_lockKey name _
  | readRunning => exact hheld.more
  | running | attempts r =>
      rw [leaves_counter]
      exact hheld.more
  | takeSlot ceiling =>
      cases hk
      have hwithin := hheld.1 rfl
      obtain ⟨n, -, -, hnumber, hcases⟩ := hwithin.number (by omega) (by omega) jobCounterKey
      refine tame_jobCounterKey ?_
      simp only [Call.leaves, Call.effect, hnumber]
      by_cases hn : ceiling ≤ n
      · rw [if_pos hn]
        exact hwithin.mono (by omega) (by omega)
      · rw [if_neg hn]
        exact Within.entry (by omega) (by omega) _
  | giveBack =>
      cases hk
      have hwithin := hheld.1 rfl
      obtain ⟨n, hshows, hexact, hnumber, hcases⟩ :=
        hwithin.number (by omega) (by omega) jobCounterKey
      refine tame_jobCounterKey ?_
      have hadd := add_of_shows none hshows hnumber (int64_of_exact hexact).2.2
      rw [Call.leaves, Call.effect, hadd]
      exact Within.entry (by omega) (by omega) _
  | recordFailure r window =>
      cases hk
      have hwithin := hheld.2 r rfl
      obtain ⟨n, hshows, hexact, hnumber, hcases⟩ :=
        hwithin.number (by omega) (by omega) r.counterKey
      refine tame_counterKey r ?_
      have hadd := add_of_shows (expiryOf now (some window)) hshows hnumber
        (int64_of_exact hexact).2.1
      rw [Call.leaves, Call.effect, hadd]
      exact Within.entry (by omega) (by omega) _
  | forget r =>
      cases hk
      refine tame_counterKey r ?_
      rintro e ⟨⟩

/-- A client of a server that listens reads the server's reply to the command of the call. -/
theorem call_answer (S : Server σ) (N : Numbers ν) (client : Client) (s : σ) (now : Nat)
    {a : Answer} (c : Call a) :
    (S.call N client s now c).1 = (S.execute N s now (.ofCall c)).1.answer c := by
  unfold Server.call Client.call Client.connect
  cases client.connected <;> rfl

/-- The client keeps no state of the server's. -/
theorem call_state (S : Server σ) (N : Numbers ν) (client : Client) (s : σ) (now : Nat)
    {a : Answer} (c : Call a) :
    (S.call N client s now c).2.2 = (S.execute N s now (.ofCall c)).2 := rfl

include hS hN

/-- A call that is issued is answered alike and keeps the two together. -/
theorem Together.step (h : Together view s m now calls) {a : Answer} {c : Call a} (hc : Issued c)
    (hcalls : calls + 1 < 0x20000000000000) (client : Client) :
    (S.call N client s now c).1 = (m.apply now c).1 ∧
      Together view (S.call N client s now c).2.2 (m.apply now c).2 now (calls + 1) := by
  have hheld : c.key?.bind (view s now) = m.heldBy now c := by
    unfold Store.heldBy
    cases c.key? with
    | none => rfl
    | some k => exact h.same k
  have hreckons : Reckons (c.key?.bind (view s now)) c := by
    refine hc.reckons ?_ hcalls
    intro k hk
    rw [hk]
    exact h.tame k
  obtain ⟨hanswer, -, hview⟩ := hS.follows hN s now c hreckons
  rw [hheld] at hanswer hview
  refine ⟨?_, ?_, ?_, ?_⟩
  · rw [call_answer, hanswer, m.apply_answer now c h.reached]
  · rw [m.apply_available, h.reached]
  · intro k
    rw [call_state, hview k, m.apply_entryAt now c h.reached k, h.same k]
  · intro k
    rw [call_state, hview k]
    by_cases hk : c.key? = some k
    · have htame := h.tame k
      have hself : m.heldBy now c = view s now k := by
        rw [← hheld, hk, Option.bind_some]
      rw [if_pos hk, hself]
      exact hc.tame hk htame hcalls
    · rw [if_neg hk]
      exact (h.tame k).more

/-- Two stores that agree give one trace of every sequence of calls. -/
theorem Together.trace (h : Together view s m now calls) {cs : List (Nat × AnyCall)}
    (htimes : (now :: cs.map Prod.fst).Pairwise (· ≤ ·)) (hissued : ∀ c ∈ cs, Issued c.2.2)
    (hcalls : calls + cs.length < 0x20000000000000) (client : Client) :
    serverTrace S N view client s cs = storeTrace m cs := by
  induction cs generalizing s m now calls client with
  | nil => rfl
  | cons c cs ih =>
      obtain ⟨t, c⟩ := c
      obtain ⟨hle, hrest⟩ := List.pairwise_cons.mp htimes
      have hlater := h.later hS (hle t List.mem_cons_self)
      simp only [List.length_cons] at hcalls
      obtain ⟨hanswer, hafter⟩ := hlater.step hS hN
        (hissued (t, c) List.mem_cons_self) (by omega) client
      have hentries : view (S.call N client s t c.2).2.2 t = (m.apply t c.2).2.entryAt t :=
        funext hafter.same
      have htail := ih hafter hrest (fun e he => hissued e (List.mem_cons_of_mem _ he)) (by omega)
        (S.call N client s t c.2).2.1
      simp only [serverTrace, storeTrace, hanswer, hentries, htail]

/-- The two backends agree: a client that has not been used, on a server that is documented,
listens and holds nothing, gives the same answers as an empty store in memory and holds the same
entries with the same expiry after every call, whatever timed calls are issued, as long as they
are fewer than `2 ^ 53`. -/
theorem backends_agree {start : Nat} (hempty : ∀ k, view s start k = none)
    {cs : List (Nat × AnyCall)} (htimes : (start :: cs.map Prod.fst).Pairwise (· ≤ ·))
    (hissued : ∀ c ∈ cs, Issued c.2.2) (hfew : cs.length < 0x20000000000000) :
    serverTrace S N view .fresh s cs = storeTrace .empty cs := by
  have hstart : Together view s .empty start 0 := by
    refine ⟨rfl, hempty, ?_⟩
    intro k
    rw [hempty k]
    refine ⟨?_, ?_⟩
    · rintro - e ⟨⟩
    · rintro r - e ⟨⟩
  exact hstart.trace hS hN htimes hissued (by omega) .fresh

end Together

/-- A job claimed, marked and claimed anew after it has run out; a counter that reaches its
ceiling and goes below zero; a window of failures that ends; and a lock that changes hands. -/
theorem backends_agree_day :
    let job : JobKey := ⟨"tick", by decide⟩
    let caller : RateLimitKey := ⟨"login:caller".toList⟩
    let minute : Duration := .ofSecs 60
    let cs : List (Nat × AnyCall) :=
      [(0, ⟨_, .setIfAbsent job.statusKey "queued" (some minute)⟩),
        (0, ⟨_, .incrementIfBelow jobCounterKey 1⟩), (0, ⟨_, .incrementIfBelow jobCounterKey 1⟩),
        (5, ⟨_, .replace job.statusKey "queued" "running" (some minute)⟩),
        (5, ⟨_, .acquireLock "leader" "a" minute⟩), (6, ⟨_, .acquireLock "leader" "b" minute⟩),
        (6, ⟨_, .decrement jobCounterKey⟩), (6, ⟨_, .decrement jobCounterKey⟩),
        (7, ⟨_, .increment caller.counterKey (some minute)⟩),
        (8, ⟨_, .increment caller.counterKey (some minute)⟩),
        (60000000005, ⟨_, .setIfAbsent job.statusKey "queued" none⟩),
        (60000000005, ⟨_, .releaseLock "leader" "a"⟩),
        (60000000007, ⟨_, .counter caller.counterKey⟩)]
    serverTrace Keyspace.server Keyspace.numbers Store.entryAt .fresh .empty cs =
      storeTrace .empty cs := by
  intro job caller minute cs
  refine backends_agree Keyspace.documented Keyspace.numbers_documented
    (show ∀ k, Store.empty.entryAt 0 k = none from fun _ => rfl) ?_ ?_ (by decide)
  · simp [cs]
  · simp only [cs, List.forall_mem_cons]
    exact ⟨.claim job _ _, .takeSlot 1, .takeSlot 1, .claimAnew job _ _ _, .acquire _ _ _,
      .acquire _ _ _, .giveBack, .giveBack, .recordFailure caller minute,
      .recordFailure caller minute, .claim job _ _, .release _ _, .attempts caller, by simp⟩

end JobFleet.Redis
