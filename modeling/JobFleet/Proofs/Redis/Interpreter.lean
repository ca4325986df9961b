import JobFleet.Redis.Script

/-!
# The interpreter, form by form

One equation for each form of expression and program on a given state of the server, so that a
script is run by rewriting.
-/

namespace JobFleet.Redis

namespace Context

section Sequence

variable {σ α β : Type} {x : EStateM String σ α} {f : α → EStateM String σ β} {s s' : σ}

/-- What follows a computation that gives a value goes on from there. -/
theorem bind_ok {a : α} (h : x s = .ok a s') : (x >>= f) s = f a s' := by
  change EStateM.bind x f s = f a s'
  unfold EStateM.bind
  rw [h]

/-- Nothing follows a fault. -/
theorem bind_error {message : String} (h : x s = .error message s') :
    (x >>= f) s = .error message s' := by
  change EStateM.bind x f s = .error message s'
  unfold EStateM.bind
  rw [h]

end Sequence

variable {σ ν : Type} (C : Context σ ν) (names : List (String × Value ν)) (s : σ)

/-- A word of the program's text. -/
@[simp] theorem eval_word (w : Word) :
    C.eval names (.word w) s = .ok (((C.word? w).map Value.text).getD .nil) s := rfl

/-- The key that the program is about. -/
@[simp] theorem eval_key : C.eval names .key s = .ok (.text C.key) s := rfl

/-- An argument, counted from one. -/
@[simp] theorem eval_arg (n : Nat) :
    C.eval names (.arg n) s = .ok ((C.args[n - 1]?.map Value.text).getD .nil) s := rfl

/-- A number of the program's text. -/
@[simp] theorem eval_number (n : Int) :
    C.eval names (.number n) s = .ok (.number (C.numbers.ofInteger n)) s := rfl

/-- A name that the program has given a value. -/
@[simp] theorem eval_name (x : String) :
    C.eval names (.name x) s = .ok ((names.lookup x).getD .nil) s := rfl

/-- A command is issued when all its words have a text. -/
theorem eval_call {ws : List Word} {words : List String} (h : ws.mapM C.word? = some words) :
    C.eval names (.call ws) s =
      match C.value (C.server.run s C.now words).1 with
      | .ok v => .ok v (C.server.run s C.now words).2
      | .error message => .error message (C.server.run s C.now words).2 := by
  change C.call ws s = _
  unfold call
  generalize ws.mapM C.word? = texts at h
  subst h
  rfl

/-- A command that is carried out is worth its reply. -/
theorem eval_call_ok {ws : List Word} {words : List String} {r : Reply} {v : Value ν}
    (hw : ws.mapM C.word? = some words) (hr : (C.server.run s C.now words).1 = r)
    (hv : C.value r = .ok v) :
    C.eval names (.call ws) s = .ok v (C.server.run s C.now words).2 := by
  rw [C.eval_call names s hw, hr, hv]

/-- A refused command ends the script. -/
theorem eval_call_fault {ws : List Word} {words : List String} {r : Reply} {message : String}
    (hw : ws.mapM C.word? = some words) (hr : (C.server.run s C.now words).1 = r)
    (hv : C.value r = .error message) :
    C.eval names (.call ws) s = .error message (C.server.run s C.now words).2 := by
  rw [C.eval_call names s hw, hr, hv]

/-- A value read as a number. -/
@[simp] theorem eval_toNumber (t : Term) :
    C.eval names (.toNumber t) s =
      match C.eval names t s with
      | .ok v s' => .ok (C.toNumber v) s'
      | .error message s' => .error message s' := by
  cases h : C.eval names t s with
  | ok v s' => exact bind_ok h
  | error message s' => exact bind_error h

/-- The first of two values that holds, or else the second. -/
@[simp] theorem eval_either (a b : Term) :
    C.eval names (.either a b) s =
      match C.eval names a s with
      | .ok v s' => if holds v then .ok v s' else C.eval names b s'
      | .error message s' => .error message s' := by
  cases h : C.eval names a s with
  | ok v s' =>
      refine (bind_ok h).trans ?_
      dsimp only
      cases holds v <;> rfl
  | error message s' => exact bind_error h

/-- The second of two values, if the first one holds. -/
@[simp] theorem eval_both (a b : Term) :
    C.eval names (.both a b) s =
      match C.eval names a s with
      | .ok v s' => if holds v then C.eval names b s' else .ok v s'
      | .error message s' => .error message s' := by
  cases h : C.eval names a s with
  | ok v s' =>
      refine (bind_ok h).trans ?_
      dsimp only
      cases holds v <;> rfl
  | error message s' => exact bind_error h

section Comparisons

variable {a b : Term} {s' s'' : σ}

/-- Whether two values are equal. -/
theorem eval_equal {v w : Value ν} (ha : C.eval names a s = .ok v s')
    (hb : C.eval names b s' = .ok w s'') :
    C.eval names (.equal a b) s = .ok (.truth (C.equal v w)) s'' :=
  (bind_ok ha).trans (bind_ok hb)

/-- Whether two values differ. -/
theorem eval_differ {v w : Value ν} (ha : C.eval names a s = .ok v s')
    (hb : C.eval names b s' = .ok w s'') :
    C.eval names (.differ a b) s = .ok (.truth (!C.equal v w)) s'' :=
  (bind_ok ha).trans (bind_ok hb)

/-- Two numbers are compared by the order of the numbers. -/
theorem eval_atLeast {x y : ν} (ha : C.eval names a s = .ok (.number x) s')
    (hb : C.eval names b s' = .ok (.number y) s'') :
    C.eval names (.atLeast a b) s = .ok (.truth (C.numbers.le y x)) s'' :=
  (bind_ok ha).trans (bind_ok hb)

/-- Whether a number is above another. -/
theorem eval_above {x y : ν} (ha : C.eval names a s = .ok (.number x) s')
    (hb : C.eval names b s' = .ok (.number y) s'') :
    C.eval names (.above a b) s =
      .ok (.truth (C.numbers.le y x && !C.numbers.le x y)) s'' :=
  (bind_ok ha).trans (bind_ok hb)

end Comparisons

/-- A program that does nothing. -/
@[simp] theorem exec_skip : C.exec names .skip s = .ok (none, names) s := rfl

/-- A value is given a name. -/
@[simp] theorem exec_define (x : String) (t : Term) :
    C.exec names (.define x t) s =
      match C.eval names t s with
      | .ok v s' => .ok (none, (x, v) :: names) s'
      | .error message s' => .error message s' := by
  cases h : C.eval names t s with
  | ok v s' => exact bind_ok h
  | error message s' => exact bind_error h

/-- A value is worked out and left unused. -/
@[simp] theorem exec_perform (t : Term) :
    C.exec names (.perform t) s =
      match C.eval names t s with
      | .ok _ s' => .ok (none, names) s'
      | .error message s' => .error message s' := by
  cases h : C.eval names t s with
  | ok v s' => exact bind_ok h
  | error message s' => exact bind_error h

/-- One of two programs, by a condition. -/
@[simp] theorem exec_branch (condition : Term) (yes no : Program) :
    C.exec names (.branch condition yes no) s =
      match C.eval names condition s with
      | .ok v s' => if holds v then C.exec names yes s' else C.exec names no s'
      | .error message s' => .error message s' := by
  cases h : C.eval names condition s with
  | ok v s' =>
      refine (bind_ok h).trans ?_
      dsimp only
      cases holds v <;> rfl
  | error message s' => exact bind_error h

/-- A program that runs only if a condition holds. -/
@[simp] theorem exec_when (condition : Term) (yes : Program) :
    C.exec names (.when condition yes) s =
      match C.eval names condition s with
      | .ok v s' => if holds v then C.exec names yes s' else .ok (none, names) s'
      | .error message s' => .error message s' := C.exec_branch names s condition yes .skip

/-- A value ends the program as its answer. -/
@[simp] theorem exec_answer (t : Term) :
    C.exec names (.answer t) s =
      match C.eval names t s with
      | .ok v s' => .ok (some v, names) s'
      | .error message s' => .error message s' := by
  cases h : C.eval names t s with
  | ok v s' => exact bind_ok h
  | error message s' => exact bind_error h

/-- What stands after a return is not run. -/
@[simp] theorem exec_seq (p q : Program) :
    C.exec names (.seq p q) s =
      match C.exec names p s with
      | .ok (some v, names') s' => .ok (some v, names') s'
      | .ok (none, names') s' => C.exec names' q s'
      | .error message s' => .error message s' := by
  cases h : C.exec names p s with
  | ok r s' =>
      obtain ⟨v?, names'⟩ := r
      refine (bind_ok h).trans ?_
      cases v? <;> rfl
  | error message s' => exact bind_error h

end Context

end JobFleet.Redis
