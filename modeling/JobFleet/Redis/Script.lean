import JobFleet.Redis.Client

/-!
# Scripts and the server that runs them

A script is a short program that the server runs in one step: it issues commands, looks at what
they reply and at its arguments, and returns a value. Texts and numbers are different values, a
reply of nothing is the value false, and a refused command ends the script. The server itself
and the numbers of the script language are parameters.
-/

namespace JobFleet.Redis

/-- A server: what it replies to a command at an instant, and its state afterwards. -/
structure Server (σ : Type) where
  run : σ → Nat → List String → Reply × σ

/-- The numbers of the script language: those that integers and texts become, the integer that
a returned number becomes, and their order. -/
structure Numbers (ν : Type) where
  ofInteger : Int → ν
  ofText : String → Option ν
  toInteger : ν → Int
  le : ν → ν → Bool

/-- A value of the script language. -/
inductive Value (ν : Type)
  | nil
  | truth (b : Bool)
  | number (x : ν)
  | text (s : String)
  | status (s : String)

/-- A word of a command: fixed, the key, or an argument, counted from one. -/
inductive Word
  | text (s : String)
  | key
  | arg (n : Nat)
deriving DecidableEq, Repr

/-- An expression. -/
inductive Term
  | word (w : Word)
  | number (n : Int)
  | name (x : String)
  | call (ws : List Word)
  | toNumber (t : Term)
  | either (a b : Term)
  | both (a b : Term)
  | equal (a b : Term)
  | differ (a b : Term)
  | atLeast (a b : Term)
  | above (a b : Term)
deriving Repr

/-- A program: it names values, issues commands, branches and returns. -/
inductive Program
  | skip
  | define (x : String) (t : Term)
  | perform (t : Term)
  | branch (condition : Term) (yes no : Program)
  | answer (t : Term)
  | seq (p q : Program)
deriving Repr

/-- A branch without an alternative. -/
def Program.when (condition : Term) (yes : Program) : Program := .branch condition yes .skip

/-- The key of the script, as a value. -/
def Term.key : Term := .word .key

/-- An argument of the script, as a value. -/
def Term.arg (n : Nat) : Term := .word (.arg n)

/-- The program of a script. -/
def Script.program : Script → Program
  | .incrementWithTtl =>
      .seq (.define "v" (.call [.text "INCR", .key])) <|
      .seq (.when (.both (.equal (.name "v") (.number 1))
          (.above (.toNumber (.arg 1)) (.number 0)))
        (.perform (.call [.text "EXPIRE", .key, .arg 1]))) <|
      .answer (.name "v")
  | .incrementIfBelow =>
      .seq (.define "current" (.toNumber (.either (.call [.text "GET", .key])
        (.word (.text "0"))))) <|
      .seq (.when (.atLeast (.name "current") (.toNumber (.arg 1))) (.answer (.number 0))) <|
      .seq (.perform (.call [.text "INCR", .key])) <|
      .answer (.number 1)
  | .compareAndSet =>
      .seq (.when (.differ (.call [.text "GET", .key]) (.arg 1)) (.answer (.number 0))) <|
      .seq (.branch (.above (.toNumber (.arg 3)) (.number 0))
        (.perform (.call [.text "SET", .key, .arg 2, .text "EX", .arg 3]))
        (.perform (.call [.text "SET", .key, .arg 2]))) <|
      .answer (.number 1)
  | .releaseIfOwner =>
      .seq (.when (.equal (.call [.text "GET", .key]) (.arg 1))
        (.answer (.call [.text "DEL", .key]))) <|
      .answer (.number 0)
  | .extendIfOwner =>
      .seq (.when (.equal (.call [.text "GET", .key]) (.arg 1))
        (.answer (.call [.text "EXPIRE", .key, .arg 2]))) <|
      .answer (.number 0)

/-- Where a script runs: the server and its numbers, the instant, the key and the arguments. -/
structure Context (σ ν : Type) where
  server : Server σ
  numbers : Numbers ν
  now : Nat
  key : String
  args : List String

namespace Context

variable {σ ν : Type} (C : Context σ ν)

/-- The text of a word; an argument that was not given has none. -/
def word? : Word → Option String
  | .text s => some s
  | .key => some C.key
  | .arg n => C.args[n - 1]?

/-- What a reply is in a script; a refused command is a fault. -/
def value : Reply → Except String (Value ν)
  | .integer n => .ok (.number (C.numbers.ofInteger n))
  | .bulk s => .ok (.text s)
  | .status s => .ok (.status s)
  | .nil => .ok (.truth false)
  | .refused message => .error message
  | .lost => .error "connection lost"

/-- What is replied for a returned value. -/
def reply : Value ν → Reply
  | .number x => .integer (C.numbers.toInteger x)
  | .text s => .bulk s
  | .status s => .status s
  | .truth true => .integer 1
  | .truth false | .nil => .nil

/-- Whether a value counts as true. -/
def holds : Value ν → Bool
  | .nil => false
  | .truth b => b
  | _ => true

/-- Reads a value as a number; what is none has no value. -/
def toNumber : Value ν → Value ν
  | .number x => .number x
  | .text s => ((C.numbers.ofText s).map Value.number).getD .nil
  | _ => .nil

/-- Whether two values are equal: those of different kinds never are. -/
def equal : Value ν → Value ν → Bool
  | .nil, .nil => true
  | .truth a, .truth b => a = b
  | .number x, .number y => C.numbers.le x y && C.numbers.le y x
  | .text s, .text t => s = t
  | _, _ => false

/-- Whether the first value is at most the second; only numbers and texts have an order. -/
def le : Value ν → Value ν → Except String Bool
  | .number x, .number y => .ok (C.numbers.le x y)
  | .text s, .text t => .ok (decide (¬ t < s))
  | _, _ => .error "attempt to compare"

/-- Issues a command. -/
def call (ws : List Word) : EStateM String σ (Value ν) := fun s =>
  match ws.mapM C.word? with
  | none => .error "command arguments must be strings or integers" s
  | some words =>
      match C.server.run s C.now words with
      | (r, t) =>
          match C.value r with
          | .ok v => .ok v t
          | .error message => .error message t

/-- A fault or a value, without a command. -/
def settle {α : Type} : Except String α → EStateM String σ α
  | .ok a => pure a
  | .error message => throw message

/-- Computes an expression, given the named values. -/
def eval (names : List (String × Value ν)) : Term → EStateM String σ (Value ν)
  | .word w => pure (((C.word? w).map Value.text).getD .nil)
  | .number n => pure (.number (C.numbers.ofInteger n))
  | .name x => pure ((names.lookup x).getD .nil)
  | .call ws => C.call ws
  | .toNumber t => do return C.toNumber (← eval names t)
  | .either a b => do
      let v ← eval names a
      if holds v then return v else eval names b
  | .both a b => do
      let v ← eval names a
      if holds v then eval names b else return v
  | .equal a b => do return .truth (C.equal (← eval names a) (← eval names b))
  | .differ a b => do return .truth (!C.equal (← eval names a) (← eval names b))
  | .atLeast a b => do
      let v ← eval names a
      let w ← eval names b
      return .truth (← settle (C.le w v))
  | .above a b => do
      let v ← eval names a
      let w ← eval names b
      return .truth ((← settle (C.le w v)) && !(← settle (C.le v w)))

/-- Runs a program, given the named values: the value returned, if one was, and the named
values afterwards. -/
def exec (names : List (String × Value ν)) :
    Program → EStateM String σ (Option (Value ν) × List (String × Value ν))
  | .skip => pure (none, names)
  | .define x t => do return (none, (x, ← C.eval names t) :: names)
  | .perform t => do
      let _ ← C.eval names t
      return (none, names)
  | .branch condition yes no => do
      if holds (← C.eval names condition) then exec names yes else exec names no
  | .answer t => do return (some (← C.eval names t), names)
  | .seq p q => do
      match ← exec names p with
      | (some v, names') => return (some v, names')
      | (none, names') => exec names' q

/-- Runs a script: the reply and the state of the server afterwards. What was done before a fault
stays done. -/
def script (program : Program) (s : σ) : Reply × σ :=
  match C.exec [] program s with
  | .ok (v, _) t => (C.reply (v.getD .nil), t)
  | .error message t => (.refused message, t)

end Context

/-- Carries out a command at an instant, in one step. -/
def Server.execute {σ ν : Type} (S : Server σ) (N : Numbers ν) (s : σ) (now : Nat) :
    Command → Reply × σ
  | .words ws => S.run s now ws
  | .run script key args => Context.script ⟨S, N, now, key, args⟩ script.program s

/-- A call of a client on a server that listens: the answer, the client and the server's state
afterwards. -/
def Server.call {σ ν : Type} (S : Server σ) (N : Numbers ν) (client : Client) (s : σ) (now : Nat)
    {a : Answer} (c : Call a) : Except StoreError a.Value × Client × σ :=
  let (reply, t) := S.execute N s now (Command.ofCall c)
  let exchange := client.call true reply c
  (exchange.answer, exchange.client, t)

end JobFleet.Redis
