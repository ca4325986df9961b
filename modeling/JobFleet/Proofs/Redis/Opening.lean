import JobFleet.Proofs.Redis.Backends

/-!
# The increment that opens a window

A counter that is raised to one is to be gone a time to live later, and one that is raised to any
other number is to keep the instant at which it is gone. A client of a server does so whatever the
server holds, because the script looks at the count. The store in memory looks at whether the key
is there: a counter that stands at zero is raised to one without a new window, and keeps the
instant it had, or none.
-/

namespace JobFleet.Redis

open Number (showInteger)

variable {σ ν : Type}

/-- What an increment answered with a number is to do with the time that its key has: the one that
makes the count one gives the key its time to live in whole seconds, rounded up and at least one;
every other, and one without a time to live, leaves the instant at which the key is gone. -/
def Opens (now : Nat) (ttl : Option Duration) (n : Int) (held after : Option Entry) : Prop :=
  ∃ e, after = some e ∧ e.expires =
    match ttl with
    | some d =>
        if n = 1 then some (now + max 1 ((d.nanos + 999999999) / 1000000000) * 1000000000)
        else held.bind Entry.expires
    | none => held.bind Entry.expires

/-- The count that is one at last gets the time to live, and others keep what they had. -/
theorem opens_iff {now : Nat} {ttl : Option Duration} {n : Int} {held : Option Entry} {e : Entry} :
    Opens now ttl n held (some e) ↔
      e.expires = if n = 1 ∧ ttl ≠ none then expiryOf now ttl else held.bind Entry.expires := by
  have hmatch : (match ttl with
      | some d =>
          if n = 1 then some (now + max 1 ((d.nanos + 999999999) / 1000000000) * 1000000000)
          else held.bind Entry.expires
      | none => held.bind Entry.expires) =
      if n = 1 ∧ ttl ≠ none then expiryOf now ttl else held.bind Entry.expires := by
    cases ttl with
    | none => simp
    | some d => simp [expiryOf, Clock.expiry, d.ttlSecs_eq]
  simp only [Opens, Option.some.injEq, exists_eq_left', hmatch]

/-! ## A server -/

/-- The server raises a counter, or refuses to, and leaves the instant at which the key is gone;
it gives a key a number of seconds to live, or refuses to. -/
structure Server.Counts (S : Server σ) (view : View σ) : Prop where
  increment : ∀ (s : σ) (now : Nat) (k : String),
    (∃ message, (S.run s now ["INCR", k]).1 = .refused message) ∨
      ∃ n, Number.Range.int64.holds n = true ∧
        view.Does now s (S.run s now ["INCR", k]) k (.integer n)
          (some ⟨showInteger n, (view s now k).bind Entry.expires⟩)
  expire : ∀ (s : σ) (now : Nat) (k : String) (n : Nat), 1 ≤ n →
    (∃ message, (S.run s now ["EXPIRE", k, showInteger n]).1 = .refused message) ∨
      view.Does now s (S.run s now ["EXPIRE", k, showInteger n]) k
        (.integer (if (view s now k).isSome then 1 else 0))
        ((view s now k).map fun e => { e with expires := lifeEnd now (some n) })

/-- An integer of 64 bits that the script language does not hold exactly is rounded to one that is
as far away from zero. -/
def Numbers.Rounds (N : Numbers ν) : Prop :=
  ∀ n : Int, Number.Range.int64.holds n = true → ¬ Exact n → ¬ Exact (N.toInteger (N.ofInteger n))

/-- A count comes back as one exactly if it is one. -/
theorem Numbers.Rounds.eq_one_iff {N : Numbers ν} (hround : N.Rounds) (hN : N.Documented) {n : Int}
    (hn : Number.Range.int64.holds n = true) : N.toInteger (N.ofInteger n) = 1 ↔ n = 1 := by
  by_cases hexact : Exact n
  · rw [hN.toInteger n hexact]
  · have hfar := hround n hn hexact
    constructor
    · intro h
      rw [h] at hfar
      exact absurd (by decide) hfar
    · rintro rfl
      exact absurd (by decide) hexact

/-- An increment of a client of the server that is answered opens a window exactly if it makes the
count one. -/
theorem Server.Counts.opens {S : Server σ} {N : Numbers ν} {view : View σ} (hS : S.Counts view)
    (hN : N.Documented) (hround : N.Rounds) (client : Client) (s : σ) (now : Nat) (k : String)
    (ttl : Option Duration) {n : Int}
    (h : (S.call N client s now (.increment k ttl)).1 = .ok n) :
    Opens now ttl n (view s now k) (view (S.call N client s now (.increment k ttl)).2.2 now k) := by
  rw [call_state]
  rw [call_answer] at h
  simp only [Command.ofCall] at h ⊢
  rcases hS.increment s now k with ⟨message, hrefused⟩ | ⟨m, hm, hincr⟩
  · rw [Numbers.execute_increment_refused s now k N ttl hrefused] at h
    cases h
  have hone := hround.eq_one_iff hN hm
  rw [hN.execute_increment s now k ttl hincr.1] at h ⊢
  cases ttl with
  | none =>
      simp only [ite_self] at h ⊢
      rw [hincr.self, opens_iff]
      simp
  | some d =>
      by_cases hcount : m = 1
      · have hgiven := hS.expire (S.run s now ["INCR", k]).2 now k d.ttlSecs d.one_le_ttlSecs
        simp only [if_pos hcount] at h ⊢
        rcases hgiven with ⟨message, hrefused⟩ | hgiven
        · simp only [hrefused, Context.value] at h
          cases h
        · rw [hincr.self] at hgiven
          simp only [hgiven.1, Context.value] at h ⊢
          cases h
          rw [hgiven.self, Option.map_some, opens_iff]
          simp [hone.mpr hcount, lifeEnd, expiryOf, Clock.expiry]
      · simp only [if_neg hcount] at h ⊢
        cases h
        rw [hincr.self, opens_iff]
        simp [mt hone.mp hcount]

namespace Keyspace

/-- The server whose keys are the entries of a store raises counters so. -/
theorem counts : server.Counts Store.entryAt where
  increment s now k := by
    show (∃ message, (add (s.purge now) now k 1).1 = .refused message) ∨ ∃ n, _ ∧
      View.Does Store.entryAt now s (add (s.purge now) now k 1) k _ _
    cases hn : (s.entryAt now k).elim (some 0) fun e => readAny e.value with
    | none =>
        left
        unfold add
        rw [s.entryAt_purge, hn]
        exact ⟨_, rfl⟩
    | some n =>
        by_cases hrange : Number.Range.int64.holds (n + 1) = true
        · exact .inr ⟨n + 1, hrange, does_add_of_read s now k hn hrange⟩
        · left
          unfold add
          rw [s.entryAt_purge, hn]
          simp only [if_neg hrange]
          exact ⟨_, rfl⟩
  expire s now k n h := .inr (documented.expire s now k n h)

/-- Integers are read back as they were written. -/
theorem numbers_round : numbers.Rounds := fun _ _ h => h

end Keyspace

/-! ## The store in memory -/

/-- An increment that the store answers makes a new counter, with the time to live, or raises one
that is there and stops at the largest integer of 64 bits. -/
theorem store_increment (m : Store) (now : Nat) (k : String) (ttl : Option Duration) {n : Int}
    (h : (m.apply now (.increment k ttl)).1 = .ok n) :
    (m.entryAt now k = none ∧ n = 1 ∧ (m.apply now (.increment k ttl)).2.entryAt now k =
      some ⟨showInteger 1, expiryOf now ttl⟩) ∨
    ∃ e count, m.entryAt now k = some e ∧ Store.Entry.count k e = .ok count ∧
      n = Number.Range.int64.clamp (count + 1) ∧
      (m.apply now (.increment k ttl)).2.entryAt now k = some ⟨showInteger n, e.expires⟩ := by
  cases havailable : m.available with
  | false =>
      rw [Store.apply_unavailable havailable] at h
      cases h
  | true =>
      have hheld : m.heldBy now (.increment k ttl) = m.entryAt now k := rfl
      have hkey : (Call.increment k ttl).key? = some k := rfl
      rw [m.apply_answer now _ havailable, hheld] at h
      rw [m.apply_entryAt now _ havailable k, hheld, if_pos hkey]
      simp only [Call.leaves, Call.effect, Entry.add] at h ⊢
      cases hk : m.entryAt now k with
      | none =>
          rw [hk] at h
          cases h
          exact .inl ⟨rfl, rfl, rfl⟩
      | some e =>
          rw [hk] at h
          cases hcount : Store.Entry.count k e with
          | error f =>
              simp only [hcount] at h
              cases h
          | ok count =>
              simp only [hcount] at h ⊢
              cases h
              exact .inr ⟨e, count, rfl, hcount, rfl, rfl⟩

/-- An increment that the store answers opens a window as it is to exactly if the key is not a
counter that stands at zero and is gone at another instant, or never. -/
theorem store_opens_iff (m : Store) (now : Nat) (k : String) (ttl : Option Duration) {n : Int}
    (h : (m.apply now (.increment k ttl)).1 = .ok n) :
    Opens now ttl n (m.entryAt now k) ((m.apply now (.increment k ttl)).2.entryAt now k) ↔
      ∀ e d, m.entryAt now k = some e → ttl = some d → Store.Entry.count k e = .ok 0 →
        e.expires = some (Clock.expiry now d) := by
  rcases store_increment m now k ttl h with
    ⟨hnone, rfl, hafter⟩ | ⟨e, count, hk, hcount, hn, hafter⟩
  · rw [hnone, hafter, opens_iff]
    cases ttl <;> simp [expiryOf]
  · have hone : n = 1 ↔ count = 0 := by
      simp only [hn, Number.Range.clamp, Number.Range.int64]
      omega
    rw [hk, hafter, opens_iff]
    cases ttl with
    | none => simp
    | some d =>
        by_cases hzero : count = 0
        · simp [hone, hzero, hcount, expiryOf]
        · simp [hone, hzero, hcount]

/-- An increment that is answered with one gives its key the time to live from then on, and one
that is answered otherwise, or has no time to live, leaves the instant at which the key is gone: a
client of a server does so whatever the server holds; the store in memory does so exactly unless it
raises a counter that is there, stands at zero and is gone at another instant, or never. -/
theorem increment_opens {S : Server σ} {N : Numbers ν} {view : View σ} (hS : S.Counts view)
    (hN : N.Documented) (hround : N.Rounds) (now : Nat) (k : String) (ttl : Option Duration) :
    (∀ (client : Client) (s : σ) (n : Int),
      (S.call N client s now (.increment k ttl)).1 = .ok n →
        Opens now ttl n (view s now k)
          (view (S.call N client s now (.increment k ttl)).2.2 now k)) ∧
    ∀ (m : Store) (n : Int), (m.apply now (.increment k ttl)).1 = .ok n →
      (Opens now ttl n (m.entryAt now k) ((m.apply now (.increment k ttl)).2.entryAt now k) ↔
        ∀ e d, m.entryAt now k = some e → ttl = some d → Store.Entry.count k e = .ok 0 →
          e.expires = some (Clock.expiry now d)) :=
  ⟨fun client s _ h => hS.opens hN hround client s now k ttl h,
    fun m _ h => store_opens_iff m now k ttl h⟩

/-- A window of a minute is opened on a server and in a store that hold nothing. -/
theorem increment_opens_first :
    Opens 0 (some (.ofSecs 60)) 1 none
      ((Keyspace.server.call Keyspace.numbers .fresh .empty 0
        (.increment "logins" (some (.ofSecs 60)))).2.2.entryAt 0 "logins") ∧
    Opens 0 (some (.ofSecs 60)) 1 none
      ((Store.empty.apply 0 (.increment "logins" (some (.ofSecs 60)))).2.entryAt 0 "logins") := by
  obtain ⟨hserver, hstore⟩ := increment_opens Keyspace.counts Keyspace.numbers_documented
    Keyspace.numbers_round 0 "logins" (some (.ofSecs 60))
  exact ⟨hserver .fresh .empty 1 rfl, (hstore .empty 1 rfl).mpr nofun⟩

/-- A counter that is lowered from nothing and raised twice is raised to one by the second time
without a window: it stays for ever. -/
theorem increment_opens_nothing :
    let minute : Duration := .ofSecs 60
    let lowered := (Store.empty.apply 0 (.decrement "logins")).2
    let zero := (lowered.apply 0 (.increment "logins" (some minute))).2
    let one := zero.apply 0 (.increment "logins" (some minute))
    one.1 = .ok 1 ∧ one.2.entryAt 0 "logins" = some ⟨"1", none⟩ ∧
      ¬ Opens 0 (some minute) 1 (zero.entryAt 0 "logins") (one.2.entryAt 0 "logins") := by
  intro minute lowered zero one
  have hafter : one.2.entryAt 0 "logins" = some ⟨"1", none⟩ := by decide
  refine ⟨rfl, hafter, ?_⟩
  rw [hafter, opens_iff]
  decide

end JobFleet.Redis
