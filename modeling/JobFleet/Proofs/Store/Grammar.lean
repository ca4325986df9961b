import JobFleet.Proofs.Fleet.Counter
import JobFleet.Proofs.Schedule.Turn

/-!
# The grammar of the store

Every key of the fleet is of one of four kinds, told apart by its first letter. A kind says what
its keys may hold and how long: the counter a number for good, a job's status one of four words,
a counter of attempts a number of at least one, and a lock its owner's token. A call that the
grammar allows never meets a text that it cannot read, and leaves what the grammar allows.
-/

namespace JobFleet

open Number (Range showInteger)
open World (InWord)

/-- The kinds of keys that the fleet keeps. -/
inductive KeyKind
  | counter
  | status
  | attempts
  | lock
deriving DecidableEq, Repr

/-- A key that the attempts of some identity are counted under. -/
def RateLimitKey.Derived (k : RateLimitKey) : Prop :=
  ∃ scope identity client, derive scope identity client = .ok k

/-- The key of an attempt is derived. -/
theorem AuthScope.key_derived {a : AuthScope} {identity : String} {client : Option String}
    {k : RateLimitKey} (h : a.key identity client = .ok k) : k.Derived := by
  cases a with
  | login => exact ⟨_, _, _, h⟩
  | refresh => exact ⟨_, _, _, h⟩

namespace KeyKind

/-- The keys of a kind. -/
inductive Names : KeyKind → String → Prop
  | counter : Names .counter jobCounterKey
  | status (j : JobKey) : Names .status j.statusKey
  | attempts {k : RateLimitKey} (hk : k.Derived) : Names .attempts k.counterKey
  | lock (name : String) : Names .lock (lockKey name)

/-- The letter that the keys of a kind begin with. -/
def letter : KeyKind → Char
  | .counter => 'c'
  | .status => 'j'
  | .attempts => 'r'
  | .lock => 'l'

/-- Kinds of keys are told apart by their letters. -/
theorem letter_inj {κ κ' : KeyKind} (h : κ.letter = κ'.letter) : κ = κ' := by
  cases κ <;> cases κ' <;> first | rfl | exact absurd h (by decide)

variable {κ κ' : KeyKind} {k : String}

/-- A key begins with its kind's letter. -/
theorem Names.head? (h : κ.Names k) : k.toList.head? = some κ.letter := by
  cases h with
  | counter => exact head?_jobCounterKey
  | status j => exact head?_statusKey j
  | attempts hk => exact head?_counterKey _
  | lock name => exact head?_lockKey name

/-- No key is of two kinds. -/
theorem Names.unique (h : κ.Names k) (h' : κ'.Names k) : κ' = κ :=
  letter_inj (Option.some.inj (h'.head?.symm.trans h.head?))

end KeyKind

/-- What the grammar depends on: the locks that have an owner, and the times to live that members
of the fleet are told for the keys of a kind. -/
structure Grammar where
  owned : Lock → Prop
  told : KeyKind → Duration → Prop

namespace Grammar

/-- What a key of a kind may hold at an instant: it runs out no later than what is written at
that instant with the longest time to live that a member is told for the kind. -/
inductive Holds (G : Grammar) (now : Nat) : KeyKind → String → Entry → Prop
  | counter {n : Int} (hn : InWord n) : Holds G now .counter jobCounterKey ⟨showInteger n, none⟩
  | status {j : JobKey} {s : JobStatus} {t : Nat} {d : Duration} (hd : G.told .status d)
      (ht : t ≤ Clock.expiry now d) : Holds G now .status j.statusKey ⟨s.text, some t⟩
  | attempts {k : RateLimitKey} {n : Int} {t : Nat} {d : Duration} (hk : k.Derived)
      (hpos : 1 ≤ n) (hn : InWord n) (hd : G.told .attempts d) (ht : t ≤ Clock.expiry now d) :
      Holds G now .attempts k.counterKey ⟨showInteger n, some t⟩
  | lock {l : Lock} {t : Nat} {d : Duration} (hl : G.owned l) (hd : G.told .lock d)
      (ht : t ≤ Clock.expiry now d) : Holds G now .lock (lockKey l.name) ⟨l.token, some t⟩

/-- What a key may hold at an instant: nothing, or what some kind allows. -/
def Allows (G : Grammar) (now : Nat) (k : String) (held : Option Entry) : Prop :=
  ∀ e, held = some e → ∃ κ, G.Holds now κ k e

/-- The calls that keep to the grammar. -/
inductive Permits (G : Grammar) : {a : Answer} → Call a → Prop
  | look {a : Answer} {c : Call a} (h : c.Looks) : Permits G c
  | raise {ceiling : Int} (h : World.Fits ceiling) :
      Permits G (.incrementIfBelow jobCounterKey ceiling)
  | drop : Permits G (.decrement jobCounterKey)
  | claim {j : JobKey} {s : JobStatus} {d : Duration} (hd : G.told .status d) :
      Permits G (.setIfAbsent j.statusKey s.text (some d))
  | reclaim {j : JobKey} {s : JobStatus} {expected : String} {d : Duration}
      (hd : G.told .status d) : Permits G (.replace j.statusKey expected s.text (some d))
  | status {j : JobKey} {s : JobStatus} {d : Duration} (hd : G.told .status d) :
      Permits G (.set j.statusKey s.text (some d))
  | failure {l : Limiter} {k : RateLimitKey} (hk : k.Derived) (hd : G.told .attempts l.window) :
      Permits G (l.recordFailure k)
  | reset {k : RateLimitKey} (hk : k.Derived) : Permits G (Limiter.reset k)
  | lock {l : Lock} {c : Call .flag} (hl : G.owned l) (hd : G.told .lock l.ttl)
      (h : l.Asks c) : Permits G c

variable {G G' : Grammar} {now t : Nat} {κ : KeyKind} {k : String} {e : Entry}
  {held : Option Entry}

/-- What a key of a kind holds, the key is of the kind. -/
theorem Holds.names (h : G.Holds now κ k e) : κ.Names k := by
  cases h with
  | counter => exact .counter
  | status => exact .status _
  | attempts hk => exact .attempts hk
  | lock => exact .lock _

/-- A grammar with more owners and longer times to live, later on, allows more. -/
theorem Holds.mono (h : G.Holds now κ k e) (ho : ∀ l, G.owned l → G'.owned l)
    (hd : ∀ κ d, G.told κ d → G'.told κ d) (ht : now ≤ t) : G'.Holds t κ k e := by
  have hlater : ∀ d : Duration, Clock.expiry now d ≤ Clock.expiry t d :=
    fun d => Nat.add_le_add_right ht _
  cases h with
  | counter hn => exact .counter hn
  | status hd' ht' => exact .status (hd _ _ hd') (Nat.le_trans ht' (hlater _))
  | attempts hk hpos hn hd' ht' =>
      exact .attempts hk hpos hn (hd _ _ hd') (Nat.le_trans ht' (hlater _))
  | lock hl hd' ht' => exact .lock (ho _ hl) (hd _ _ hd') (Nat.le_trans ht' (hlater _))

/-- What a key may hold, it may hold later and among more members. -/
theorem Allows.mono (h : G.Allows now k held) (ho : ∀ l, G.owned l → G'.owned l)
    (hd : ∀ κ d, G.told κ d → G'.told κ d) (ht : now ≤ t) : G'.Allows t k held := by
  intro e he
  obtain ⟨κ, hκ⟩ := h e he
  exact ⟨κ, hκ.mono ho hd ht⟩

/-- Every key may hold nothing. -/
theorem allows_none : G.Allows now k none := nofun

/-- What is of a key's kind is allowed under it. -/
theorem Holds.allows (h : G.Holds now κ k e) : G.Allows now k (some e) := by
  rintro e' ⟨rfl⟩
  exact ⟨κ, h⟩

/-- What is allowed and does not run out is allowed. -/
theorem Allows.filter (h : G.Allows now k held) (p : Entry → Bool) :
    G.Allows now k (held.filter p) := by
  intro e he
  exact h e (Option.filter_eq_some_iff.mp he).1

/-- The counter's key holds a number for good, or nothing. -/
theorem Allows.counter (h : G.Allows now jobCounterKey held) :
    held = none ∨ ∃ n, InWord n ∧ held = some ⟨showInteger n, none⟩ := by
  cases held with
  | none => exact .inl rfl
  | some e =>
      obtain ⟨κ, hκ⟩ := h e rfl
      have hkind := KeyKind.Names.counter.unique hκ.names
      subst hkind
      cases hκ with
      | counter hn => exact .inr ⟨_, hn, rfl⟩

/-- A key of attempts holds a number of at least one, or nothing. -/
theorem Allows.attempts {k : RateLimitKey} (h : G.Allows now k.counterKey held) :
    held = none ∨ ∃ n t d, 1 ≤ n ∧ InWord n ∧ G.told .attempts d ∧ t ≤ Clock.expiry now d ∧
      held = some ⟨showInteger n, some t⟩ := by
  cases held with
  | none => exact .inl rfl
  | some e =>
      obtain ⟨κ, hκ⟩ := h e rfl
      have hletter := hκ.names.head?.symm.trans (head?_counterKey k)
      have hkind : κ = .attempts := KeyKind.letter_inj (Option.some.inj hletter)
      subst hkind
      generalize k.counterKey = key at hκ
      cases hκ with
      | attempts _ hpos hn hd ht => exact .inr ⟨_, _, _, hpos, hn, hd, ht, rfl⟩

/-! ## What permitted calls do -/

/-- What a permitted addition to a counter does. -/
theorem Allows.raise (h : G.Allows now jobCounterKey held) {ceiling : Int}
    (hc : World.Fits ceiling) :
    ∃ v after, (Call.incrementIfBelow jobCounterKey ceiling).effect now held = .ok (v, after) ∧
      G.Allows now jobCounterKey after := by
  have hnumber : ∃ n, InWord n ∧ Entry.number jobCounterKey held = .ok n ∧
      held.bind Entry.expires = none := by
    rcases h.counter with rfl | ⟨n, hn, rfl⟩
    · exact ⟨0, ⟨by decide, by decide⟩, rfl, rfl⟩
    · exact ⟨n, hn, hn.count _ _, rfl⟩
  obtain ⟨n, hn, hread, hexpires⟩ := hnumber
  simp only [Call.effect, hread, hexpires]
  split
  · exact ⟨_, _, rfl, h⟩
  · rename_i hlt
    have hnext : InWord (n + 1) := by
      unfold World.Fits at hc
      unfold InWord at hn ⊢
      omega
    exact ⟨_, _, rfl, (Holds.counter hnext).allows⟩

/-- The count of jobs can always be lowered. -/
theorem Allows.drop (h : G.Allows now jobCounterKey held) :
    ∃ v after, (Call.decrement jobCounterKey).effect now held = .ok (v, after) ∧
      G.Allows now jobCounterKey after := by
  rcases h.counter with rfl | ⟨n, hn, rfl⟩
  · have hone : InWord (-1) := ⟨by decide, by decide⟩
    exact ⟨_, _, rfl, (Holds.counter hone).allows⟩
  · simp only [Call.effect, Entry.add, hn.count]
    exact ⟨_, _, rfl, (Holds.counter (World.inWord_clamp _)).allows⟩

/-- A failure can always be counted under a limiter's key. -/
theorem Allows.failure {k : RateLimitKey} (h : G.Allows now k.counterKey held) {l : Limiter}
    (hk : k.Derived) (hd : G.told .attempts l.window) :
    ∃ v after, (l.recordFailure k).effect now held = .ok (v, after) ∧
      G.Allows now k.counterKey after := by
  rcases h.attempts with rfl | ⟨n, t, d, hpos, hn, hd', ht, rfl⟩
  · have hone : InWord 1 := ⟨by decide, by decide⟩
    have hfirst := Holds.attempts hk (Int.le_refl 1) hone hd (Nat.le_refl (Clock.expiry now _))
    exact ⟨_, _, rfl, hfirst.allows⟩
  · have hpos' : 1 ≤ Range.int64.clamp (n + 1) := by
      have hhigh : 1 ≤ Range.int64.high := by decide
      unfold Range.clamp
      omega
    simp only [Limiter.recordFailure, Call.effect, Entry.add, hn.count]
    exact ⟨_, _, rfl, (Holds.attempts hk hpos' (World.inWord_clamp _) hd' ht).allows⟩

/-- The attempts under a limiter's key can always be read, and are not negative. -/
theorem Allows.attempted {k : RateLimitKey} (h : G.Allows now k.counterKey held) :
    ∃ n : Int, 0 ≤ n ∧ (Limiter.attempts k).effect now held = .ok (n, held) := by
  rcases h.attempts with rfl | ⟨n, t, d, hpos, hn, hd, ht, rfl⟩
  · exact ⟨0, Int.le_refl 0, rfl⟩
  · refine ⟨n, Int.le_trans (by decide) hpos, ?_⟩
    simp only [Limiter.attempts, Call.effect, Entry.number, hn.count]

/-- A lock's call can always be answered, and leaves what a lock key may hold. -/
theorem Allows.asked {l : Lock} (h : G.Allows now (lockKey l.name) held) (hl : G.owned l)
    (hd : G.told .lock l.ttl) {c : Call .flag} (hc : l.Asks c) :
    ∃ v after, c.effect now held = .ok (v, after) ∧ G.Allows now (lockKey l.name) after := by
  have hgrant := (Holds.lock hl hd (Nat.le_refl (Clock.expiry now l.ttl))).allows
  cases hc with
  | acquire =>
      simp only [Lock.acquire, Call.effect]
      split
      · exact ⟨_, _, rfl, h⟩
      · exact ⟨_, _, rfl, hgrant⟩
  | extend =>
      simp only [Lock.extend, Call.effect]
      split
      · exact ⟨_, _, rfl, hgrant⟩
      · exact ⟨_, _, rfl, h⟩
  | release =>
      simp only [Lock.release, Call.effect]
      split
      · exact ⟨_, _, rfl, allows_none⟩
      · exact ⟨_, _, rfl, h⟩

/-- A call that the grammar permits succeeds on what it allows, and leaves what it allows. -/
theorem Permits.effect {a : Answer} {c : Call a} (h : G.Permits c)
    (hs : ∀ k, c.key? = some k → G.Allows now k held) :
    ∃ v after, c.effect now held = .ok (v, after) ∧
      ∀ k, c.key? = some k → G.Allows now k after := by
  have hown : ∀ {k : String}, c.key? = some k →
      (G.Allows now k held → ∃ v after, c.effect now held = .ok (v, after) ∧
        G.Allows now k after) →
      ∃ v after, c.effect now held = .ok (v, after) ∧
        ∀ k, c.key? = some k → G.Allows now k after := by
    intro k hk hstep
    obtain ⟨v, after, he, ha⟩ := hstep (hs k hk)
    refine ⟨v, after, he, ?_⟩
    intro k' hk'
    cases hk.symm.trans hk'
    exact ha
  cases h with
  | look h =>
      cases h with
      | ping => exact ⟨(), held, rfl, nofun⟩
      | get key => exact hown rfl fun h => ⟨_, _, rfl, h⟩
      | attempts k =>
          refine hown rfl fun h => ?_
          obtain ⟨n, -, he⟩ := h.attempted
          exact ⟨n, held, he, h⟩
  | raise hc => exact hown rfl fun h => h.raise hc
  | drop => exact hown rfl fun h => h.drop
  | claim hd =>
      refine hown rfl fun h => ?_
      simp only [Call.effect]
      split
      · exact ⟨_, _, rfl, h⟩
      · exact ⟨_, _, rfl, (Holds.status hd (Nat.le_refl _)).allows⟩
  | reclaim hd =>
      refine hown rfl fun h => ?_
      simp only [Call.effect]
      split
      · exact ⟨_, _, rfl, (Holds.status hd (Nat.le_refl _)).allows⟩
      · exact ⟨_, _, rfl, h⟩
  | status hd =>
      exact hown rfl fun _ => ⟨_, _, rfl, (Holds.status hd (Nat.le_refl _)).allows⟩
  | failure hk hd => exact hown rfl fun h => h.failure hk hd
  | reset hk => exact hown rfl fun _ => ⟨_, _, rfl, allows_none⟩
  | lock hl hd hc => exact hown hc.key fun h => h.asked hl hd hc

/-- A permitted call leaves what the grammar allows. -/
theorem Permits.leaves {a : Answer} {c : Call a} (h : G.Permits c)
    (hs : ∀ k, c.key? = some k → G.Allows now k held) (hk : c.key? = some k) :
    G.Allows now k (c.leaves now held) := by
  obtain ⟨v, after, he, ha⟩ := h.effect hs
  rw [Call.leaves, he]
  exact ha k hk

/-- A store that holds what the grammar allows carries a permitted call out, if it can be
reached: no text that it holds is unfit. -/
theorem Permits.apply {a : Answer} {c : Call a} (h : G.Permits c) {s : Store}
    (hs : ∀ k, G.Allows now k (s.entryAt now k)) :
    (∃ v, (s.apply now c).1 = .ok v) ∨ (s.apply now c).1 = .error .unavailable := by
  cases hav : s.available with
  | false => exact .inr (by rw [Store.apply_unavailable hav])
  | true =>
      have hheld : ∀ k, c.key? = some k → G.Allows now k (s.heldBy now c) := by
        intro k hk
        rw [s.heldBy_of_key now c hk]
        exact hs k
      obtain ⟨v, after, he, -⟩ := h.effect hheld
      exact .inl ⟨v, by rw [s.apply_answer now c hav, he]; rfl⟩

end Grammar

end JobFleet
