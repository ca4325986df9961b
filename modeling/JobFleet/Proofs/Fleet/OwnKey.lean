import JobFleet.Proofs.Fleet.Landing
import JobFleet.Proofs.Runner.HandIn

/-!
# The key that a hand-in reads

Two worlds that differ in what one key holds answer every call about other keys alike, whatever
is slipped in on the way, and still differ in that key alone afterwards. A hand-in makes calls
about its own job's key and no other: it goes the same way in both. Where its own key holds a
status other than failed, it never takes the job in.
-/

namespace JobFleet

/-! ## Stores -/

namespace Store

/-- Stores that differ in what one key holds at most. -/
structure SameBut (k : String) (now : Nat) (s t : Store) : Prop where
  available : t.available = s.available
  entryAt : ∀ j, j ≠ k → t.entryAt now j = s.entryAt now j

variable {a : Answer} {k : String} {now : Nat} {s t : Store}

/-- A call on another key finds the same. -/
theorem SameBut.heldBy (h : s.SameBut k now t) {c : Call a} (hc : c.key? ≠ some k) :
    t.heldBy now c = s.heldBy now c := by
  unfold Store.heldBy
  cases hkey : c.key? with
  | none => rfl
  | some j => exact h.entryAt j fun he => hc (hkey.trans (congrArg some he))

/-- A call about another key is answered alike. -/
theorem SameBut.apply_answer (h : s.SameBut k now t) {c : Call a} (hc : c.key? ≠ some k) :
    (t.apply now c).1 = (s.apply now c).1 := by
  cases ha : s.available with
  | false => rw [apply_unavailable ha, apply_unavailable (h.available.trans ha)]
  | true =>
      rw [Store.apply_answer s now c ha, Store.apply_answer t now c (h.available.trans ha),
        h.heldBy hc]

/-- The stores still differ in that key alone after a call. -/
theorem SameBut.apply (h : s.SameBut k now t) (c : Call a) :
    (s.apply now c).2.SameBut k now (t.apply now c).2 where
  available := by rw [apply_available, apply_available, h.available]
  entryAt := by
    intro j hj
    cases ha : s.available with
    | false =>
        rw [apply_unavailable ha, apply_unavailable (h.available.trans ha)]
        exact h.entryAt j hj
    | true =>
        rw [apply_entryAt s now c ha, apply_entryAt t now c (h.available.trans ha)]
        split
        · rename_i hkey
          have hc : c.key? ≠ some k := fun he => hj (Option.some.inj (hkey.symm.trans he))
          rw [h.heldBy hc]
        · exact h.entryAt j hj

end Store

/-! ## Worlds -/

namespace World

/-- Worlds that differ in what one key holds at most. -/
def SameBut (k : String) (w v : World) : Prop :=
  ∃ t, v = { w with store := t } ∧ w.store.SameBut k w.now t

variable {a : Answer} {k : String} {w v : World}

/-- What is done in step in two worlds: the answers are the same, and the worlds that are left
differ in one key at most. -/
def InStep {α : Type} (k : String) (x y : α × World) : Prop := y.1 = x.1 ∧ x.2.SameBut k y.2

/-- A call on another key is carried out in step. -/
theorem SameBut.carryOut (h : w.SameBut k v) {c : Call a} (hc : c.key? ≠ some k) :
    InStep k (w.carryOut c) (v.carryOut c) := by
  obtain ⟨t, rfl, hs⟩ := h
  exact ⟨hs.apply_answer hc, _, rfl, hs.apply c⟩

/-- Whatever is slipped in, it is taken in or refused in both worlds. -/
theorem SameBut.sneak (h : w.SameBut k v) (s : String × Option String) :
    InStep k (w.carryOut (sneakCall s)) (v.carryOut (sneakCall s)) := by
  obtain ⟨t, rfl, hs⟩ := h
  refine ⟨?_, _, rfl, hs.apply (sneakCall s)⟩
  cases ha : w.store.available with
  | false =>
      change (t.apply w.now _).1 = (w.store.apply w.now _).1
      rw [Store.apply_unavailable ha, Store.apply_unavailable (hs.available.trans ha)]
  | true => rw [carryOut_sneak ha, carryOut_sneak (hs.available.trans ha)]

/-- A call on another key meets its fault in step. -/
theorem SameBut.meet (h : w.SameBut k v) (f : Fault) {c : Call a} (hc : c.key? ≠ some k) :
    InStep k (w.meet f c) (v.meet f c) := by
  have hcarried := h.carryOut hc
  unfold World.meet
  cases f.error with
  | none => exact hcarried
  | some e =>
      cases f.late with
      | false => exact ⟨rfl, h⟩
      | true => exact ⟨rfl, hcarried.2⟩

/-- A call on another key suffers its fault in step. -/
theorem SameBut.suffer (h : w.SameBut k v) (f : Fault) {c : Call a} (hc : c.key? ≠ some k) :
    InStep k (w.suffer f c) (v.suffer f c) := by
  unfold World.suffer
  cases f.sneak with
  | none => exact h.meet f hc
  | some s =>
      obtain ⟨hanswer, hworlds⟩ := h.sneak s
      dsimp only
      rw [hanswer]
      cases (w.carryOut (sneakCall s)).1 with
      | error e => exact ⟨rfl, hworlds⟩
      | ok u => exact hworlds.meet f hc

/-- A call that meets no fault. -/
theorem perform_unmet {c : Call a} (h : (takeFault c.method w.network).1 = none) :
    w.perform c = (w.noting c).carryOut c := by
  unfold World.perform
  dsimp only [enter]
  rw [h]
  rfl

/-- A call that meets a fault. -/
theorem perform_met {c : Call a} {f : Fault} (h : (takeFault c.method w.network).1 = some f) :
    w.perform c = (w.noting c).suffer f c := by
  unfold World.perform
  dsimp only [enter]
  rw [h]
  rfl

/-- A call about another key ends alike in both worlds. -/
theorem SameBut.perform (h : w.SameBut k v) {c : Call a} (hc : c.key? ≠ some k) :
    InStep k (w.perform c) (v.perform c) := by
  have hnoted : (w.noting c).SameBut k (v.noting c) := by
    obtain ⟨t, rfl, hs⟩ := h
    exact ⟨t, rfl, hs⟩
  have hnetwork : v.network = w.network := by
    obtain ⟨t, rfl, hs⟩ := h
    rfl
  cases hmet : (takeFault c.method w.network).1 with
  | none =>
      rw [perform_unmet hmet, perform_unmet (hnetwork ▸ hmet)]
      exact hnoted.carryOut hc
  | some f =>
      rw [perform_met hmet, perform_met (hnetwork ▸ hmet)]
      exact hnoted.suffer f hc

/-- Where a call lands, a key that nothing is slipped in under holds what it held. -/
theorem landing_entry (c : Call a) (hs : w.Spared k) : (w.landing c).entry k = w.entry k := by
  unfold landing
  split
  · rename_i s hmet
    obtain ⟨f, hf, hsneak⟩ := Option.bind_eq_some_iff.mp hmet
    exact (w.noting c).entry_slip (hs f ((takeFault_spec c.method w.network).1 f hf)) hsneak
  · rfl

/-- Where nothing fails, a call is answered from what its key holds. -/
theorem Answers.perform_ok (h : w.Answers) {c : Call a} (hs : w.Spared k) (hk : c.key? = some k)
    {x : a.Value} {after : Option Entry} (he : c.effect w.now (w.entry k) = .ok (x, after)) :
    (w.perform c).1 = .ok x := by
  rw [← landing_entry c hs] at he
  exact (h.answers hk he).1

end World

/-! ## Hand-ins -/

namespace Enqueue

open World (SameBut InStep)

variable {k : String} {w v : World}

/-- Whatever happens apart from calls happens alike. -/
theorem push_same (h : w.SameBut k v) (name : String) (job : Job) :
    (push w name job).SameBut k (push v name job) := by
  obtain ⟨t, rfl, hs⟩ := h
  unfold push
  dsimp only
  cases w.runners.find? name with
  | none => exact ⟨t, rfl, hs⟩
  | some r =>
      dsimp only
      split
      · exact ⟨t, rfl, hs⟩
      · exact ⟨t, rfl, hs⟩

/-- Taking a job in reads no key. -/
theorem accept_same (e : Enqueue) (h : w.SameBut k v) : InStep k (e.accept w) (e.accept v) := by
  have hcounted : ((w.log (.runner (.enqueued e.job))).count e.runner fun s =>
      { s with enqueued := s.enqueued + 1 }).SameBut k
      ((v.log (.runner (.enqueued e.job))).count e.runner fun s =>
      { s with enqueued := s.enqueued + 1 }) := by
    obtain ⟨t, rfl, hs⟩ := h
    exact ⟨t, rfl, hs⟩
  obtain ⟨t, ht, hs⟩ := push_same hcounted e.runner e.job
  refine ⟨rfl, t, ?_, hs⟩
  unfold accept
  dsimp only
  rw [ht]
  rfl

/-- Logging an outcome reads no key. -/
theorem conclude_same (e : Enqueue) (outcome : EnqueueOutcome) (event : Runner.Event)
    (h : w.SameBut k v) : InStep k (e.conclude outcome event w) (e.conclude outcome event v) := by
  obtain ⟨t, rfl, hs⟩ := h
  exact ⟨rfl, t, rfl, hs⟩

/-- Logging a duplicate reads no key. -/
theorem concludeDuplicate_same (e : Enqueue) (event : Runner.Event) (h : w.SameBut k v) :
    InStep k (e.concludeDuplicate event w) (e.concludeDuplicate event v) := by
  obtain ⟨t, rfl, hs⟩ := h
  exact ⟨rfl, t, rfl, hs⟩

/-- The verdict on a status that was read reads no further key. -/
theorem judge_same (e : Enqueue) (held : Option String) (h : w.SameBut k v) :
    InStep k (e.judge held w) (e.judge held v) := by
  unfold judge
  split
  · exact ⟨rfl, h⟩
  · split
    · split
      · exact e.concludeDuplicate_same _ h
      · exact ⟨rfl, h⟩
    · exact e.concludeDuplicate_same _ h

/-- A hand-in takes its next step alike in worlds that differ in another key than its job's. -/
theorem step_same (self : TaskId) (e : Enqueue) (hk : e.job.key.statusKey ≠ k)
    (h : w.SameBut k v) : InStep k (e.step self w) (e.step self v) := by
  have hrunners : v.runners = w.runners := by
    obtain ⟨t, rfl, hs⟩ := h
    rfl
  have hneq : ∀ {a : Answer} {c : Call a}, c.key? = some e.job.key.statusKey → c.key? ≠ some k :=
    fun hc he => hk (Option.some.inj (hc.symm.trans he))
  unfold step
  rw [hrunners]
  cases w.runners.find? e.runner with
  | none => exact ⟨rfl, h⟩
  | some r =>
      dsimp only
      cases e.phase with
      | waiting =>
          dsimp only
          split
          · exact e.conclude_same _ _ h
          · obtain ⟨t, rfl, hs⟩ := h
            exact ⟨rfl, t, rfl, hs⟩
      | reading =>
          obtain ⟨hanswer, hworlds⟩ := h.perform (hneq (c := .get e.job.key.statusKey) rfl)
          cases hw : w.perform (.get e.job.key.statusKey) with
          | mk answer w' =>
              cases hv : v.perform (.get e.job.key.statusKey) with
              | mk answer' v' =>
                  rw [hw, hv] at hanswer hworlds
                  cases hanswer
                  cases answer with
                  | ok held => exact e.judge_same held hworlds
                  | error cause => exact e.conclude_same _ _ hworlds
      | claiming held =>
          have hclaim : (e.claim r.config.queuedTtl held).key? = some e.job.key.statusKey := by
            cases held <;> rfl
          obtain ⟨hanswer, hworlds⟩ := h.perform (hneq hclaim)
          dsimp only
          cases hw : w.perform (e.claim r.config.queuedTtl held) with
          | mk answer w' =>
              cases hv : v.perform (e.claim r.config.queuedTtl held) with
              | mk answer' v' =>
                  rw [hw, hv] at hanswer hworlds
                  cases hanswer
                  cases answer with
                  | ok granted =>
                      cases granted with
                      | true => exact e.accept_same hworlds
                      | false => exact e.concludeDuplicate_same _ hworlds
                  | error cause => exact e.conclude_same _ _ hworlds

/-! ## Keys that are taken -/

section Taken

variable {e : Enqueue} {x : Entry} {r : Runner}

/-- A status other than failed makes a duplicate of a job. -/
theorem judge_taken {raw : String} (h : raw ≠ JobStatus.failed.text) (w : World) :
    (e.judge (some raw) w).1 = .ended .duplicate := by
  unfold judge
  split
  · rename_i hnone
    cases hnone
  · rename_i raw' hraw
    cases hraw
    split
    · rename_i status hstatus
      split
      · rfl
      · rename_i hblocks
        exact absurd (text_of_free hstatus (Bool.eq_false_iff.mpr hblocks)) h
    · rfl

/-- A claim on a key that holds a status other than failed is denied. -/
theorem claim_taken (e : Enqueue) (hx : x.value ≠ JobStatus.failed.text) {held : Option String}
    (hfree : Free held) (now : Nat) (ttl : Duration) :
    (e.claim ttl held).effect now (some x) = .ok (false, some x) := by
  cases held with
  | none => rfl
  | some raw =>
      have hraw := hfree raw rfl
      have hne : ¬ (some x).map Entry.value = some raw := by
        intro he
        exact hx ((Option.some.inj he).trans hraw)
      exact if_neg hne

/-- While a key holds a status other than failed, a hand-in of its job that asks the store ends as
a duplicate, or fails with its call; it never takes the job in. -/
theorem step_taken (self : TaskId) (hr : w.runners.find? e.runner = some r)
    (hs : w.Spared e.job.key.statusKey) (hentry : w.entry e.job.key.statusKey = some x)
    (hx : x.value ≠ JobStatus.failed.text)
    (hfree : ∀ held, e.phase = .claiming held → Free held) (hasks : e.phase ≠ .waiting) :
    (e.step self w).1 = .ended .duplicate ∨
      (e.step self w).1 = .ended .unavailable ∧ ¬ w.Answers := by
  unfold step
  rw [hr]
  dsimp only
  cases hp : e.phase with
  | waiting => exact absurd hp hasks
  | reading =>
      have heffect : (Call.get e.job.key.statusKey).effect w.now (w.entry e.job.key.statusKey) =
          .ok (some x.value, some x) := by
        rw [hentry]
        rfl
      dsimp only
      cases hw : w.perform (.get e.job.key.statusKey) with
      | mk answer w' =>
          have hends := w.perform_ends (.get e.job.key.statusKey) rfl hs
          rw [hw] at hends
          cases answer with
          | ok held =>
              cases hends with
              | answered effect entry =>
                  rw [heffect] at effect
                  cases effect
                  exact .inl (judge_taken hx w')
          | error cause =>
              refine .inr ⟨rfl, fun ha => ?_⟩
              have hok := ha.perform_ok hs rfl heffect
              rw [hw] at hok
              cases hok
  | claiming held =>
      have hkey : (e.claim r.config.queuedTtl held).key? = some e.job.key.statusKey := by
        cases held <;> rfl
      have heffect := e.claim_taken hx (hfree held hp) w.now r.config.queuedTtl
      rw [← hentry] at heffect
      dsimp only
      cases hw : w.perform (e.claim r.config.queuedTtl held) with
      | mk answer w' =>
          have hends := w.perform_ends (e.claim r.config.queuedTtl held) hkey hs
          rw [hw] at hends
          cases answer with
          | ok granted =>
              cases hends with
              | answered effect entry =>
                  rw [heffect] at effect
                  cases effect
                  exact .inl rfl
          | error cause =>
              refine .inr ⟨rfl, fun ha => ?_⟩
              have hok := ha.perform_ok hs hkey heffect
              rw [hw] at hok
              cases hok

end Taken

end Enqueue

end JobFleet
