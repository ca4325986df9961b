import JobFleet.Proofs.Number.ReadBack
import JobFleet.Proofs.Redis.Interpreter
import JobFleet.Proofs.Store.Effect

/-!
# What a documented server does for each call

A server is documented when each command replies and leaves on its key what the manual of the
server says, and keys are gone from their instant of expiry on; the numbers of its script
language are exact when those below `2 ^ 53` are. On such a server the command or the script of
every call replies and leaves what the call's effect on its key says, provided that counters are
numbers far enough from the limit.
-/

namespace JobFleet.Redis

open Number (showInteger)

variable {σ ν : Type}

/-- What a key of a server holds at an instant. -/
abbrev View (σ : Type) : Type := σ → Nat → String → Option Entry

/-- A reply is the one given, one key is left with what is given, and every other key alone. -/
def View.Does (view : View σ) (now : Nat) (s : σ) (x : Reply × σ) (key : String) (reply : Reply)
    (after : Option Entry) : Prop :=
  x.1 = reply ∧ ∀ j, view x.2 now j = if j = key then after else view s now j

/-- A key holds the printed form of a number, or nothing where the number is zero. -/
def Shows (held : Option Entry) (n : Int) : Prop :=
  match held with
  | none => n = 0
  | some e => e.value = showInteger n

/-- The reply to reading a key. -/
def Reply.ofHeld : Option Entry → Reply
  | none => .nil
  | some e => .bulk e.value

/-- The words that give a key a number of seconds to live, if it is to go. -/
def lifeWords : Option Nat → List String
  | none => []
  | some n => ["EX", showInteger n]

/-- The instant at which a key with a number of seconds to live is gone. -/
def lifeEnd (now : Nat) (life : Option Nat) : Option Nat :=
  life.map fun n => now + n * 1000000000

/-- The server's commands do what its manual says. -/
structure Server.Documented (S : Server σ) (view : View σ) : Prop where
  passes : ∀ (s : σ) {now t : Nat}, now ≤ t → ∀ k, view s t k = (view s now k).filter (Entry.live t)
  ping : ∀ (s : σ) (now : Nat) (k : String),
    view.Does now s (S.run s now ["PING"]) k (.status "PONG") (view s now k)
  get : ∀ (s : σ) (now : Nat) (k : String),
    view.Does now s (S.run s now ["GET", k]) k (.ofHeld (view s now k)) (view s now k)
  set : ∀ (s : σ) (now : Nat) (k v : String) (life : Option Nat), (∀ n ∈ life, 1 ≤ n) →
    view.Does now s (S.run s now (["SET", k, v] ++ lifeWords life)) k (.status "OK")
      (some ⟨v, lifeEnd now life⟩)
  setIfAbsent : ∀ (s : σ) (now : Nat) (k v : String) (life : Option Nat), (∀ n ∈ life, 1 ≤ n) →
    view.Does now s (S.run s now (["SET", k, v, "NX"] ++ lifeWords life)) k
      (if (view s now k).isSome then .nil else .status "OK")
      (if (view s now k).isSome then view s now k else some ⟨v, lifeEnd now life⟩)
  delete : ∀ (s : σ) (now : Nat) (k : String),
    view.Does now s (S.run s now ["DEL", k]) k
      (.integer (if (view s now k).isSome then 1 else 0)) none
  increment : ∀ (s : σ) (now : Nat) (k : String) (n : Int), Shows (view s now k) n →
    Number.Range.int64.holds n → Number.Range.int64.holds (n + 1) →
    view.Does now s (S.run s now ["INCR", k]) k (.integer (n + 1))
      (some ⟨showInteger (n + 1), (view s now k).bind Entry.expires⟩)
  decrement : ∀ (s : σ) (now : Nat) (k : String) (n : Int), Shows (view s now k) n →
    Number.Range.int64.holds n → Number.Range.int64.holds (n - 1) →
    view.Does now s (S.run s now ["DECR", k]) k (.integer (n - 1))
      (some ⟨showInteger (n - 1), (view s now k).bind Entry.expires⟩)
  expire : ∀ (s : σ) (now : Nat) (k : String) (n : Nat), 1 ≤ n →
    view.Does now s (S.run s now ["EXPIRE", k, showInteger n]) k
      (.integer (if (view s now k).isSome then 1 else 0))
      ((view s now k).map fun e => { e with expires := lifeEnd now (some n) })

/-- An integer below `2 ^ 53` in magnitude, which a number of the script language holds exactly. -/
def Exact (n : Int) : Prop := n.natAbs < 0x20000000000000

instance (n : Int) : Decidable (Exact n) := Nat.decLt _ _

/-- An exact integer and its neighbours fit 64 bits. -/
theorem int64_of_exact {n : Int} (h : Exact n) :
    Number.Range.int64.holds n = true ∧ Number.Range.int64.holds (n + 1) = true ∧
      Number.Range.int64.holds (n - 1) = true := by
  unfold Exact at h
  simp only [Number.Range.holds_iff, Number.Range.int64]
  omega

/-- The numbers of the script language are those of the documentation: a text that writes an
integer and a reply of that integer become the same number, an exact one is returned as it is
and compared rightly with every other. -/
structure Numbers.Documented (N : Numbers ν) : Prop where
  ofText : ∀ n : Int, N.ofText (showInteger n) = some (N.ofInteger n)
  toInteger : ∀ n : Int, Exact n → N.toInteger (N.ofInteger n) = n
  below : ∀ m n : Int, Exact m → (N.le (N.ofInteger m) (N.ofInteger n) = true ↔ m ≤ n)
  above : ∀ m n : Int, Exact m → (N.le (N.ofInteger n) (N.ofInteger m) = true ↔ n ≤ m)

/-- An exact number is returned as it is. -/
theorem Numbers.Documented.reply_integer {S : Server σ} {N : Numbers ν} (hN : N.Documented)
    {now : Nat} {k : String} {args : List String} (n : Int) (hn : Exact n) :
    Context.reply ⟨S, N, now, k, args⟩ (.number (N.ofInteger n)) = .integer n :=
  congrArg Reply.integer (hN.toInteger n hn)

/-- A second command about the same key goes on where the first one ended. -/
theorem View.Does.trans {view : View σ} {now : Nat} {s : σ} {x y : Reply × σ} {k : String}
    {r r' : Reply} {after after' : Option Entry} (hx : view.Does now s x k r after)
    (hy : view.Does now x.2 y k r' after') : view.Does now s y k r' after' := by
  refine ⟨hy.1, ?_⟩
  intro j
  rw [hy.2 j, hx.2 j]
  split <;> rfl

/-- What a command leaves under its key. -/
theorem View.Does.self {view : View σ} {now : Nat} {s : σ} {x : Reply × σ} {k : String}
    {r : Reply} {after : Option Entry} (h : view.Does now s x k r after) :
    view x.2 now k = after := by
  rw [h.2 k, if_pos rfl]

/-- The same was done where only the reply is another. -/
theorem View.Does.reply {view : View σ} {now : Nat} {s : σ} {x : Reply × σ} {k : String}
    {r : Reply} {after : Option Entry} (h : view.Does now s x k r after) {r' r'' : Reply}
    (he : r' = r'') : view.Does now s (r', x.2) k r'' after := ⟨he, h.2⟩

/-! ## Scripts -/

/-- What reading a key is in a script. -/
def Value.ofHeld : Option Entry → Value ν
  | none => .truth false
  | some e => .text e.value

/-- What a key holds equals a text if it is that text. -/
theorem equal_ofHeld (C : Context σ ν) (held : Option Entry) (x : String) :
    C.equal (.ofHeld held) (.text x) = decide (held.map Entry.value = some x) := by
  cases held with
  | none => simp [Value.ofHeld, Context.equal]
  | some e => simp [Value.ofHeld, Context.equal]

/-- A command whose words have texts and which does something is issued in a script. -/
theorem View.Does.eval (C : Context σ ν) (names : List (String × Value ν)) (ws : List Word)
    {view : View σ} {s₀ s : σ} {k : String} {r : Reply} {after : Option Entry}
    {words : List String} {v : Value ν}
    (h : view.Does C.now s₀ (C.server.run s C.now words) k r after)
    (hw : ws.mapM C.word? = some words) (hv : C.value r = .ok v) :
    C.eval names (.call ws) s = .ok v (C.server.run s C.now words).2 :=
  C.eval_call_ok names s hw h.1 hv

section Scripts

variable {S : Server σ} {N : Numbers ν} {view : View σ} (hS : S.Documented view)
  (hN : N.Documented) (s : σ) (now : Nat) (k : String)

include hS

/-- `GET` gives a program what its key holds. -/
theorem Server.Documented.eval_get (args : List String) (names : List (String × Value ν)) :
    Context.eval ⟨S, N, now, k, args⟩ names (.call [.text "GET", .key]) s =
      .ok (.ofHeld (view s now k)) (S.run s now ["GET", k]).2 := by
  have hget := hS.get s now k
  refine View.Does.eval ⟨S, N, now, k, args⟩ names [.text "GET", .key] hget rfl ?_
  cases view s now k <;> rfl

/-- Reading a key and comparing what it holds with the first argument. -/
theorem Server.Documented.eval_owner (x : String) (args : List String)
    (names : List (String × Value ν)) :
    Context.eval ⟨S, N, now, k, x :: args⟩ names
        (.equal (.call [.text "GET", .key]) (.arg 1)) s =
      .ok (.truth (decide ((view s now k).map Entry.value = some x)))
        (S.run s now ["GET", k]).2 := by
  rw [Context.eval_equal _ _ _ (hS.eval_get s now k _ _) (Context.eval_arg _ _ _ 1)]
  exact congrArg (fun b => EStateM.Result.ok (Value.truth b) _) (equal_ofHeld _ _ x)

/-- The test of the scripts for owners: whether the key holds another text. -/
theorem Server.Documented.eval_stranger (x : String) (args : List String)
    (names : List (String × Value ν)) :
    Context.eval ⟨S, N, now, k, x :: args⟩ names
        (.differ (.call [.text "GET", .key]) (.arg 1)) s =
      .ok (.truth (!decide ((view s now k).map Entry.value = some x)))
        (S.run s now ["GET", k]).2 := by
  rw [Context.eval_differ _ _ _ (hS.eval_get s now k _ _) (Context.eval_arg _ _ _ 1)]
  exact congrArg (fun b => EStateM.Result.ok (Value.truth (!b)) _) (equal_ofHeld _ _ x)

include hN

/-- The script that releases a lock removes the key of its owner alone. -/
theorem Server.Documented.releaseIfOwner (token : String) :
    view.Does now s (S.execute N s now (.run .releaseIfOwner k [token])) k
      (.integer (if (view s now k).map Entry.value = some token then 1 else 0))
      (if (view s now k).map Entry.value = some token then none else view s now k) := by
  have hget := hS.get s now k
  simp only [Server.execute, Context.script, Script.program, Context.exec_seq, Context.exec_when,
    hS.eval_owner s now k token, Context.holds]
  by_cases hv : (view s now k).map Entry.value = some token
  · have hheld : (view (S.run s now ["GET", k]).2 now k).isSome = true := by
      rw [hget.self]
      cases he : view s now k with
      | none => rw [he] at hv; cases hv
      | some e => rfl
    have hdelete := hget.trans (hS.delete (S.run s now ["GET", k]).2 now k)
    have hcall := View.Does.eval ⟨S, N, now, k, [token]⟩ [] [.text "DEL", .key] hdelete rfl rfl
    simp only [hv, decide_true, if_true, Context.exec_answer, hcall, hheld]
    exact hdelete.reply (hN.reply_integer _ (by decide))
  · simp only [hv, decide_false, if_false, Context.exec_answer, Context.eval_number]
    exact hget.reply (hN.reply_integer _ (by decide))

/-- The script that extends a lock prolongs the key of its owner alone. -/
theorem Server.Documented.extendIfOwner (token : String) {n : Nat} (hn : 1 ≤ n) :
    view.Does now s (S.execute N s now (.run .extendIfOwner k [token, showInteger n])) k
      (.integer (if (view s now k).map Entry.value = some token then 1 else 0))
      (if (view s now k).map Entry.value = some token then some ⟨token, lifeEnd now (some n)⟩
        else view s now k) := by
  have hget := hS.get s now k
  simp only [Server.execute, Context.script, Script.program, Context.exec_seq, Context.exec_when,
    hS.eval_owner s now k token, Context.holds]
  by_cases hv : (view s now k).map Entry.value = some token
  · have hexpire := hget.trans (hS.expire (S.run s now ["GET", k]).2 now k n hn)
    obtain ⟨e, he, rfl⟩ := Option.map_eq_some_iff.mp hv
    rw [hget.self, he] at hexpire
    simp only [Option.isSome_some, if_true, Option.map_some] at hexpire
    have hcall := View.Does.eval ⟨S, N, now, k, [e.value, showInteger n]⟩ []
      [.text "EXPIRE", .key, .arg 2] hexpire rfl rfl
    simp only [he, Option.map_some, decide_true, if_true, Context.exec_answer, hcall]
    exact hexpire.reply (hN.reply_integer _ (by decide))
  · simp only [hv, decide_false, if_false, Context.exec_answer, Context.eval_number]
    exact hget.reply (hN.reply_integer _ (by decide))

omit hS in
/-- Whether an argument that writes an integer is positive. -/
theorem Numbers.Documented.eval_positive (args : List String) (names : List (String × Value ν))
    (i : Nat) {n : Int} (hi : args[i - 1]? = some (showInteger n)) :
    Context.eval ⟨S, N, now, k, args⟩ names (.above (.toNumber (.arg i)) (.number 0)) s =
      .ok (.truth (decide (0 < n))) s := by
  have hread : Context.eval ⟨S, N, now, k, args⟩ names (.toNumber (.arg i)) s =
      .ok (.number (N.ofInteger n)) s := by
    simp [hi, Context.toNumber, hN.ofText n]
  rw [Context.eval_above _ _ _ hread (Context.eval_number _ _ _ 0)]
  have hlow := hN.below 0 n (by decide)
  have hhigh := hN.above 0 n (by decide)
  congr 2
  rw [Bool.eq_iff_iff, Bool.and_eq_true, Bool.not_eq_true', ← Bool.not_eq_true, hlow, hhigh,
    decide_eq_true_iff]
  omega

/-- The script that replaces a value writes where it finds the expected one alone. -/
theorem Server.Documented.compareAndSet (expected value : String) (ttl : Option Duration) :
    view.Does now s
      (S.execute N s now (.run .compareAndSet k [expected, value, expiryArg ttl])) k
      (.integer (if (view s now k).map Entry.value = some expected then 1 else 0))
      (if (view s now k).map Entry.value = some expected then some ⟨value, expiryOf now ttl⟩
        else view s now k) := by
  have hget := hS.get s now k
  simp only [Server.execute, Context.script, Script.program, Context.exec_seq, Context.exec_when,
    Context.exec_branch, hS.eval_stranger s now k expected, Context.holds]
  by_cases hv : (view s now k).map Entry.value = some expected
  · have hpositive := hN.eval_positive (S := S) (S.run s now ["GET", k]).2 now k
      [expected, value, expiryArg ttl] [] 3 rfl
    simp only [hv, decide_true, Bool.not_true, Bool.false_eq_true, if_false, hpositive, if_true]
    cases ttl with
    | none =>
        have hset := hget.trans (hS.set (S.run s now ["GET", k]).2 now k value none (by simp))
        have hcall := View.Does.eval ⟨S, N, now, k, [expected, value, expiryArg none]⟩ []
          [.text "SET", .key, .arg 2] hset rfl rfl
        simp only [Option.map_none, Option.getD_none, Int.ofNat_zero, Int.lt_irrefl, decide_false,
          Bool.false_eq_true, if_false, Context.exec_perform, hcall, Context.exec_answer,
          Context.eval_number]
        exact hset.reply (hN.reply_integer _ (by decide))
    | some d =>
        have hlife : 1 ≤ d.ttlSecs := d.one_le_ttlSecs
        have hpos : (0 : Int) < d.ttlSecs := by omega
        have hset := hget.trans (hS.set (S.run s now ["GET", k]).2 now k value (some d.ttlSecs)
          (by simpa using hlife))
        have hcall := View.Does.eval ⟨S, N, now, k, [expected, value, expiryArg (some d)]⟩ []
          [.text "SET", .key, .arg 2, .text "EX", .arg 3] hset rfl rfl
        simp only [Option.map_some, Option.getD_some, hpos, decide_true, if_true,
          Context.exec_perform, hcall, Context.exec_answer, Context.eval_number]
        exact hset.reply (hN.reply_integer _ (by decide))
  · simp only [hv, decide_false, Bool.not_false, if_true, if_false, Context.exec_answer,
      Context.eval_number]
    exact hget.reply (hN.reply_integer _ (by decide))

omit hS in
/-- Whether the count is one. -/
theorem Numbers.Documented.eval_isOne (args : List String) (n : Int) :
    Context.eval ⟨S, N, now, k, args⟩ [("v", .number (N.ofInteger n))]
        (.equal (.name "v") (.number 1)) s = .ok (.truth (decide (n = 1))) s := by
  rw [Context.eval_equal _ _ _ (Context.eval_name _ _ _ "v") (Context.eval_number _ _ _ 1)]
  have hbelow := hN.below 1 n (by decide)
  have habove := hN.above 1 n (by decide)
  have hone : (N.le (N.ofInteger n) (N.ofInteger 1) && N.le (N.ofInteger 1) (N.ofInteger n)) =
      decide (n = 1) := by
    rw [Bool.eq_iff_iff, Bool.and_eq_true, hbelow, habove, decide_eq_true_iff]
    omega
  exact congrArg (fun b => EStateM.Result.ok (Value.truth b) _) hone

omit hS in
/-- The script that raises a counter returns the count, and gives the key its time to live before
if the count is one. -/
theorem Numbers.Documented.execute_increment (ttl : Option Duration) {n : Int}
    (hincr : (S.run s now ["INCR", k]).1 = .integer n) :
    S.execute N s now (.run .incrementWithTtl k [expiryArg ttl]) =
      match if n = 1 then ttl else none with
      | none => (.integer (N.toInteger (N.ofInteger n)), (S.run s now ["INCR", k]).2)
      | some d =>
          let x := S.run (S.run s now ["INCR", k]).2 now ["EXPIRE", k, showInteger d.ttlSecs]
          match Context.value ⟨S, N, now, k, [expiryArg ttl]⟩ x.1 with
          | .ok _ => (.integer (N.toInteger (N.ofInteger n)), x.2)
          | .error message => (.refused message, x.2) := by
  have hcall : Context.eval ⟨S, N, now, k, [expiryArg ttl]⟩ [] (.call [.text "INCR", .key]) s =
      .ok (.number (N.ofInteger n)) (S.run s now ["INCR", k]).2 :=
    Context.eval_call_ok _ _ _ rfl hincr rfl
  have hfirst := hN.eval_isOne (S := S) (S.run s now ["INCR", k]).2 now k [expiryArg ttl] n
  have hpositive := hN.eval_positive (S := S) (S.run s now ["INCR", k]).2 now k [expiryArg ttl]
    [("v", .number (N.ofInteger n))] 1 rfl
  simp only [Server.execute, Context.script, Script.program, Context.exec_seq, Context.exec_when,
    Context.exec_define, hcall, Context.eval_both, hfirst, hpositive, Context.holds]
  by_cases hone : n = 1
  · simp only [hone, decide_true, if_true]
    cases ttl with
    | none =>
        simp only [Option.map_none, Option.getD_none, Int.ofNat_zero, Int.lt_irrefl, decide_false,
          Bool.false_eq_true, if_false, Context.exec_answer, Context.eval_name]
        rfl
    | some d =>
        have hlife := d.one_le_ttlSecs
        have hpos : (0 : Int) < d.ttlSecs := by omega
        simp only [Option.map_some, Option.getD_some, hpos, decide_true, if_true,
          Context.exec_perform]
        have hwords : [Word.text "EXPIRE", .key, .arg 1].mapM
            (Context.word? ⟨S, N, now, k, [expiryArg (some d)]⟩) =
              some ["EXPIRE", k, showInteger d.ttlSecs] := rfl
        cases hv : Context.value ⟨S, N, now, k, [expiryArg (some d)]⟩
            (S.run (S.run s now ["INCR", k]).2 now ["EXPIRE", k, showInteger d.ttlSecs]).1 with
        | ok v =>
            rw [Context.eval_call_ok _ _ _ hwords rfl hv]
            rfl
        | error message => rw [Context.eval_call_fault _ _ _ hwords rfl hv]
  · simp only [hone, decide_false, Bool.false_eq_true, if_false, Context.exec_answer,
      Context.eval_name]
    rfl

omit hS hN in
/-- A counter that is not raised ends the script. -/
theorem Numbers.execute_increment_refused (N : Numbers ν) (ttl : Option Duration) {message : String}
    (hincr : (S.run s now ["INCR", k]).1 = .refused message) :
    S.execute N s now (.run .incrementWithTtl k [expiryArg ttl]) =
      (.refused message, (S.run s now ["INCR", k]).2) := by
  have hcall : Context.eval ⟨S, N, now, k, [expiryArg ttl]⟩ [] (.call [.text "INCR", .key]) s =
      .error message (S.run s now ["INCR", k]).2 := Context.eval_call_fault _ _ _ rfl hincr rfl
  simp only [Server.execute, Context.script, Script.program, Context.exec_seq,
    Context.exec_define, hcall]

/-- The script that opens a window counts, and sets the life of a new count. -/
theorem Server.Documented.incrementWithTtl (ttl : Option Duration) {n : Int}
    (hn : Shows (view s now k) n) (hnew : n = 0 → view s now k = none) (hle : 0 ≤ n)
    (hlt : n + 1 < 0x20000000000000) :
    view.Does now s (S.execute N s now (.run .incrementWithTtl k [expiryArg ttl])) k
      (.integer (n + 1))
      (some ⟨showInteger (n + 1),
        if n = 0 then expiryOf now ttl else (view s now k).bind Entry.expires⟩) := by
  have hexact : Exact n := by
    unfold Exact
    omega
  have hnext : Exact (n + 1) := by
    unfold Exact
    omega
  have hincr := hS.increment s now k n hn (int64_of_exact hexact).1 (int64_of_exact hexact).2.1
  have hreturned := congrArg Reply.integer (hN.toInteger (n + 1) hnext)
  rw [hN.execute_increment s now k ttl hincr.1]
  by_cases hzero : n = 0
  · rw [hnew hzero, Option.bind_none] at hincr
    rw [if_pos hzero, if_pos (by omega)]
    cases ttl with
    | none => exact hincr.reply hreturned
    | some d =>
        have hexpire := hincr.trans
          (hS.expire (S.run s now ["INCR", k]).2 now k d.ttlSecs d.one_le_ttlSecs)
        rw [hincr.self] at hexpire
        simp only [hexpire.1, Context.value]
        exact hexpire.reply hreturned
  · rw [if_neg hzero, if_neg (by omega)]
    exact hincr.reply hreturned

/-- The script that heeds a ceiling counts below it, and keeps the life of the count. -/
theorem Server.Documented.incrementIfBelow (ceiling : Int) {n : Int}
    (hn : Shows (view s now k) n) (hexact : Exact n) :
    view.Does now s (S.execute N s now (.run .incrementIfBelow k [showInteger ceiling])) k
      (.integer (if ceiling ≤ n then 0 else 1))
      (if ceiling ≤ n then view s now k
        else some ⟨showInteger (n + 1), (view s now k).bind Entry.expires⟩) := by
  have hget := hS.get s now k
  have hcurrent : Context.eval ⟨S, N, now, k, [showInteger ceiling]⟩ []
      (.toNumber (.either (.call [.text "GET", .key]) (.word (.text "0")))) s =
        .ok (.number (N.ofInteger n)) (S.run s now ["GET", k]).2 := by
    rw [Context.eval_toNumber, Context.eval_either, hS.eval_get s now k]
    cases hv : view s now k with
    | none =>
        rw [hv] at hn
        have hzero : n = 0 := hn
        have hshow : showInteger 0 = "0" := by decide
        have htext := hN.ofText 0
        rw [hshow] at htext
        subst hzero
        simp [Value.ofHeld, Context.holds, Context.word?, Context.toNumber, htext]
    | some e =>
        rw [hv] at hn
        have hvalue : e.value = showInteger n := hn
        simp [Value.ofHeld, Context.holds, Context.toNumber, hvalue, hN.ofText n]
  have hceiling : Context.eval ⟨S, N, now, k, [showInteger ceiling]⟩
      [("current", .number (N.ofInteger n))] (.toNumber (.arg 1)) (S.run s now ["GET", k]).2 =
        .ok (.number (N.ofInteger ceiling)) (S.run s now ["GET", k]).2 := by
    simp [Context.toNumber, hN.ofText ceiling]
  have htest := Context.eval_atLeast _ _ _
    (Context.eval_name ⟨S, N, now, k, [showInteger ceiling]⟩
      [("current", .number (N.ofInteger n))] (S.run s now ["GET", k]).2 "current") hceiling
  have horder : N.le (N.ofInteger ceiling) (N.ofInteger n) = decide (ceiling ≤ n) := by
    rw [Bool.eq_iff_iff, hN.above n ceiling hexact, decide_eq_true_iff]
  simp only [Server.execute, Context.script, Script.program, Context.exec_seq, Context.exec_when,
    Context.exec_define, hcurrent, htest, Context.holds, horder]
  by_cases hc : ceiling ≤ n
  · simp only [hc, decide_true, if_true, Context.exec_answer, Context.eval_number]
    exact hget.reply (hN.reply_integer _ (by decide))
  · have hincr := hget.trans (hS.increment (S.run s now ["GET", k]).2 now k n
      (by rw [hget.self]; exact hn) (int64_of_exact hexact).1
        (int64_of_exact hexact).2.1)
    rw [hget.self] at hincr
    have hcall := View.Does.eval ⟨S, N, now, k, [showInteger ceiling]⟩
      [("current", .number (N.ofInteger n))] [.text "INCR", .key] hincr rfl rfl
    simp only [hc, decide_false, Bool.false_eq_true, if_false, Context.exec_perform, hcall,
      Context.exec_answer, Context.eval_number]
    exact hincr.reply (hN.reply_integer _ (by decide))

end Scripts

/-! ## A documented server -/

namespace Keyspace

/-- Reads an integer of any size: as many digits as the text has letters bound it. -/
def readAny (text : String) : Option Int :=
  (Number.readInteger ⟨-(Nat.pow 10 text.length), Nat.pow 10 text.length⟩ text).toOption

/-- A number is below ten to the length of its text. -/
theorem natAbs_lt_length (n : Int) : n.natAbs < Nat.pow 10 (showInteger n).length := by
  have hdigits : ∀ k, k < Nat.pow 10 (Nat.toDigits 10 k).length := fun k =>
    (Nat.length_toDigits_le_iff (by decide) Nat.length_toDigits_pos).mp (Nat.le_refl _)
  cases n with
  | ofNat k => simpa [showInteger] using hdigits k
  | negSucc k =>
      have hlength : (showInteger (.negSucc k)).length = (Nat.toDigits 10 (k + 1)).length + 1 := by
        rw [showInteger, String.length_ofList, List.length_cons]
      have hpow : Nat.pow 10 ((Nat.toDigits 10 (k + 1)).length + 1) =
          Nat.pow 10 (Nat.toDigits 10 (k + 1)).length * 10 := rfl
      have hk := hdigits (k + 1)
      rw [hlength, hpow, Int.natAbs_negSucc]
      omega

/-- A number that is written is read back. -/
theorem readAny_showInteger (n : Int) : readAny (showInteger n) = some n := by
  have hbound := natAbs_lt_length n
  unfold readAny
  generalize Nat.pow 10 (showInteger n).length = b at hbound
  rw [Number.readInteger_showInteger (by constructor <;> simp only <;> omega)
    (by constructor <;> simp only <;> omega)]
  rfl

/-- Writes a text under a key, perhaps only where there is none. -/
def put (s : Store) (now : Nat) (k v : String) (life : Option Nat) (fresh : Bool) :
    Reply × Store :=
  if fresh && (s.entryAt now k).isSome then (.nil, s)
  else (.status "OK", s.write k ⟨v, lifeEnd now life⟩)

/-- Adds to the integer under a key. -/
def add (s : Store) (now : Nat) (k : String) (step : Int) : Reply × Store :=
  match (s.entryAt now k).elim (some 0) fun e => readAny e.value with
  | none => (.refused "ERR value is not an integer or out of range", s)
  | some n =>
      if Number.Range.int64.holds (n + step) then
        (.integer (n + step),
          s.write k ⟨showInteger (n + step), (s.entryAt now k).bind Entry.expires⟩)
      else (.refused "ERR increment or decrement would overflow", s)

/-- Gives a key a number of seconds to live, if it is there. -/
def expire (s : Store) (now : Nat) (k : String) (n : Nat) : Reply × Store :=
  match s.entryAt now k with
  | none => (.integer 0, s)
  | some e => (.integer 1, s.write k { e with expires := lifeEnd now (some n) })

/-- Does something with a number of seconds, if a text writes one. -/
def seconds (s : Store) (text : String) (f : Nat → Reply × Store) : Reply × Store :=
  match readAny text with
  | some n => f n.toNat
  | none => (.refused "ERR value is not an integer or out of range", s)

/-- A server whose keys are the entries of a store: what is gone is dropped first. -/
def server : Server Store where
  run s now words :=
    match words with
    | ["PING"] => (.status "PONG", s.purge now)
    | ["GET", k] => (.ofHeld (s.entryAt now k), s.purge now)
    | ["SET", k, v] => put (s.purge now) now k v none false
    | ["SET", k, v, "NX"] => put (s.purge now) now k v none true
    | ["SET", k, v, "EX", n] =>
        seconds (s.purge now) n fun n => put (s.purge now) now k v (some n) false
    | ["SET", k, v, "NX", "EX", n] =>
        seconds (s.purge now) n fun n => put (s.purge now) now k v (some n) true
    | ["DEL", k] =>
        (.integer (if (s.entryAt now k).isSome then 1 else 0), (s.purge now).remove k)
    | ["INCR", k] => add (s.purge now) now k 1
    | ["DECR", k] => add (s.purge now) now k (-1)
    | ["EXPIRE", k, n] => seconds (s.purge now) n fun n => expire (s.purge now) now k n
    | _ => (.refused "ERR unknown command", s.purge now)

section

variable (s : Store) (now : Nat) (k : String)

/-- A command that leaves the key as it is. -/
theorem does_same (r : Reply) :
    View.Does Store.entryAt now s (r, s.purge now) k r (s.entryAt now k) := by
  refine ⟨rfl, ?_⟩
  intro j
  rw [s.entryAt_purge]
  split
  · rename_i h
    rw [h]
  · rfl

/-- A command that writes its key. -/
theorem does_write (r : Reply) {e : Entry} (he : e.live now = true) :
    View.Does Store.entryAt now s (r, (s.purge now).write k e) k r (some e) := by
  refine ⟨rfl, ?_⟩
  intro j
  rw [(s.purge now).entryAt_write now k j e he, s.entryAt_purge]

/-- A command that removes its key. -/
theorem does_remove (r : Reply) :
    View.Does Store.entryAt now s (r, (s.purge now).remove k) k r none := by
  refine ⟨rfl, ?_⟩
  intro j
  rw [(s.purge now).entryAt_remove now k j, s.entryAt_purge]

/-- What is written for a second or more is there. -/
theorem live_lifeEnd (v : String) {life : Option Nat} (h : ∀ n ∈ life, 1 ≤ n) :
    Entry.live now ⟨v, lifeEnd now life⟩ = true := by
  cases life with
  | none => rfl
  | some n =>
      have hn : 1 ≤ n := h n rfl
      simp only [Entry.live, lifeEnd, Option.map_some, decide_eq_true_iff]
      omega

/-- The in-memory server's `SET` writes its key, unless it is held and may not be. -/
theorem does_put (v : String) {life : Option Nat} (h : ∀ n ∈ life, 1 ≤ n) (fresh : Bool) :
    View.Does Store.entryAt now s (put (s.purge now) now k v life fresh) k
      (if fresh && (s.entryAt now k).isSome then .nil else .status "OK")
      (if fresh && (s.entryAt now k).isSome then s.entryAt now k
        else some ⟨v, lifeEnd now life⟩) := by
  unfold put
  rw [s.entryAt_purge]
  split
  · exact does_same s now k _
  · exact does_write s now k _ (live_lifeEnd now v h)

/-- A sum with the number under a key, however that is written. -/
theorem does_add_of_read {n step : Int}
    (hn : (s.entryAt now k).elim (some 0) (fun e => readAny e.value) = some n)
    (hrange : Number.Range.int64.holds (n + step) = true) :
    View.Does Store.entryAt now s (add (s.purge now) now k step) k (.integer (n + step))
      (some ⟨showInteger (n + step), (s.entryAt now k).bind Entry.expires⟩) := by
  unfold add
  rw [s.entryAt_purge, hn]
  simp only [hrange, if_true]
  cases hv : s.entryAt now k with
  | none => exact does_write s now k _ rfl
  | some e => exact does_write s now k _ (Store.entryAt_live (e := e) hv)

/-- A key that shows a number holds one that can be read. -/
theorem read_of_shows {held : Option Entry} {n : Int} (h : Shows held n) :
    held.elim (some 0) (fun e => readAny e.value) = some n := by
  cases held with
  | none =>
      cases (h : n = 0)
      rfl
  | some e =>
      have hvalue : e.value = showInteger n := h
      rw [Option.elim_some, hvalue, readAny_showInteger]

/-- A sum with the number that a key shows. -/
theorem does_add {n step : Int} (hn : Shows (s.entryAt now k) n)
    (hrange : Number.Range.int64.holds (n + step) = true) :
    View.Does Store.entryAt now s (add (s.purge now) now k step) k (.integer (n + step))
      (some ⟨showInteger (n + step), (s.entryAt now k).bind Entry.expires⟩) :=
  does_add_of_read s now k (read_of_shows hn) hrange

end

/-- Such a server is documented. -/
theorem documented : server.Documented Store.entryAt where
  passes s _ _ h k := s.entryAt_later h k
  ping s now k := does_same s now k _
  get s now k := does_same s now k _
  set s now k v life h := by
    cases life with
    | none => exact does_put s now k v h false
    | some n =>
        show View.Does _ _ _ (seconds _ (showInteger n) _) _ _ _
        rw [seconds, readAny_showInteger]
        exact does_put s now k v h false
  setIfAbsent s now k v life h := by
    cases life with
    | none => exact does_put s now k v h true
    | some n =>
        show View.Does _ _ _ (seconds _ (showInteger n) _) _ _ _
        rw [seconds, readAny_showInteger]
        exact does_put s now k v h true
  delete s now k := does_remove s now k _
  increment s now k n hn _ hrange := does_add s now k hn hrange
  decrement s now k n hn _ hrange := does_add s now k hn hrange
  expire s now k n h := by
    show View.Does _ _ _ (seconds _ (showInteger n) _) _ _ _
    rw [seconds, readAny_showInteger]
    simp only [expire, s.entryAt_purge]
    cases hv : s.entryAt now k with
    | none =>
        have hsame := does_same s now k (.integer 0)
        rw [hv] at hsame
        exact hsame
    | some e => exact does_write s now k _ (live_lifeEnd now e.value (by simpa using h))

/-- Numbers without a limit hold every integer exactly. -/
def numbers : Numbers Int := ⟨id, readAny, id, fun m n => m ≤ n⟩

/-- Integers as numbers of scripts keep what is documented of them. -/
theorem numbers_documented : numbers.Documented where
  ofText n := readAny_showInteger n
  toInteger _ _ := rfl
  below _ _ _ := decide_eq_true_iff
  above _ _ _ := decide_eq_true_iff

end Keyspace

end JobFleet.Redis
