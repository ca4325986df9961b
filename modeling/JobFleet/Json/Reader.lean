import JobFleet.Json.Value
import JobFleet.Net.Address

/-!
# Reading JSON by shape

A reader consumes the front of a text and expects one shape there. Faults are of two kinds: the
text is no JSON (`malformed`), or it is JSON of another shape (`mismatched`); the text is read
once from the left, so the first fault met is the one reported. Documents may nest 127 levels
deep where a value is kept, and without limit where it is skipped.
-/

namespace JobFleet.Json

/-- Why a reader stopped. -/
inductive Fault
  | malformed
  | mismatched
deriving DecidableEq, Repr

/-- Takes one shape from the front of a text. -/
abbrev Reader (α : Type) : Type := List Char → Except Fault (α × List Char)

/-- Whether a character may stand between tokens. -/
def isGap (c : Char) : Bool := c = ' ' || c = '\n' || c = '\t' || c = '\r'

/-- The text after the gap at its front. -/
def skipGap (cs : List Char) : List Char := cs.dropWhile isGap

/-- Reads given characters. -/
def readExactly : List Char → Reader Unit
  | [], cs => .ok ((), cs)
  | c :: rest, d :: ds => if c = d then readExactly rest ds else .error .malformed
  | _ :: _, [] => .error .malformed

/-- Reads one given character after a gap. -/
def readMark (c : Char) : Reader Unit := fun cs => readExactly [c] (skipGap cs)

/-- The opening brace of an object. -/
def openBrace : Char := Char.ofNat 0x7b

/-- The closing brace of an object. -/
def closeBrace : Char := Char.ofNat 0x7d

/-- Four hexadecimal digits as a number. -/
def readHex4 : Reader Nat
  | a :: b :: c :: d :: rest =>
      match Net.hexValue? a, Net.hexValue? b, Net.hexValue? c, Net.hexValue? d with
      | some a, some b, some c, some d => .ok (((a * 16 + b) * 16 + c) * 16 + d, rest)
      | _, _, _, _ => .error .malformed
  | _ => .error .malformed

/-- The character of a one-letter escape. -/
def simpleEscape? (c : Char) : Option Char :=
  if c = '"' ∨ c = '\\' ∨ c = '/' then some c
  else if c = 'b' then some (Char.ofNat 8)
  else if c = 'f' then some (Char.ofNat 12)
  else if c = 'n' then some '\n'
  else if c = 'r' then some '\r'
  else if c = 't' then some '\t'
  else none

/-- The character of an escape by number; a high surrogate must be followed by the escape of a
low one, and no surrogate may stand alone. -/
def readCodePoint : Reader Char := fun cs => do
  let (n, rest) ← readHex4 cs
  if 0xdc00 ≤ n ∧ n < 0xe000 then .error .malformed
  else if 0xd800 ≤ n ∧ n < 0xdc00 then
    let (_, rest) ← readExactly ['\\', 'u'] rest
    let (m, rest) ← readHex4 rest
    if 0xdc00 ≤ m ∧ m < 0xe000 then
      return (Char.ofNat (0x10000 + (n - 0xd800) * 0x400 + (m - 0xdc00)), rest)
    else .error .malformed
  else return (Char.ofNat n, rest)

/-- The characters of a string up to its closing quote. The first argument bounds the number of
characters still to be read. -/
def readStringTail : Nat → Reader (List Char)
  | 0, _ => .error .malformed
  | _ + 1, [] => .error .malformed
  | bound + 1, c :: rest =>
      if c = '"' then .ok ([], rest)
      else if c = '\\' then
        match rest with
        | [] => .error .malformed
        | e :: rest => do
            let (ch, rest) ←
              if e = 'u' then readCodePoint rest
              else match simpleEscape? e with
                | some ch => .ok (ch, rest)
                | none => .error .malformed
            let (tail, rest) ← readStringTail bound rest
            return (ch :: tail, rest)
      else if c.toNat < 0x20 then .error .malformed
      else do
        let (tail, rest) ← readStringTail bound rest
        return (c :: tail, rest)

/-- A string after its opening quote. -/
def readStringBody : Reader String := fun cs => do
  let (chars, rest) ← readStringTail (cs.length + 1) cs
  return (String.ofList chars, rest)

/-- Passes over a string after its opening quote; escapes by number need not form characters. -/
def skipStringTail : Nat → Reader Unit
  | 0, _ => .error .malformed
  | _ + 1, [] => .error .malformed
  | bound + 1, c :: rest =>
      if c = '"' then .ok ((), rest)
      else if c = '\\' then
        match rest with
        | [] => .error .malformed
        | e :: rest =>
            if e = 'u' then do
              let (_, rest) ← readHex4 rest
              skipStringTail bound rest
            else if (simpleEscape? e).isSome then skipStringTail bound rest
            else .error .malformed
      else if c.toNat < 0x20 then .error .malformed
      else skipStringTail bound rest

/-- The digits of a number's whole part: a zero alone, or digits that start with none. -/
def readWhole : Reader (List Char) := fun cs =>
  let ds := cs.takeWhile Char.isDigit
  let rest := cs.dropWhile Char.isDigit
  match ds with
  | [] => .error .malformed
  | '0' :: _ :: _ => .error .malformed
  | _ => .ok (ds, rest)

/-- At least one digit. -/
def readDigitRun : Reader (List Char) := fun cs =>
  let ds := cs.takeWhile Char.isDigit
  if ds.isEmpty then .error .malformed else .ok (ds, cs.dropWhile Char.isDigit)

/-- A number as it is written: whole digits, digits after the point if there is one, and an
exponent if there is one. -/
structure Literal where
  negative : Bool
  whole : List Char
  fraction : Option (List Char)
  exponent : Option Int

/-- Reads a number literal. -/
def readLiteral : Reader Literal := fun cs => do
  let (negative, cs) := match cs with
    | '-' :: rest => (true, rest)
    | cs => (false, cs)
  let (whole, cs) ← readWhole cs
  let (fraction, cs) ← match cs with
    | '.' :: rest => do
        let (ds, rest) ← readDigitRun rest
        pure (some ds, rest)
    | cs => pure (none, cs)
  let (exponent, cs) ← match cs with
    | c :: rest =>
        if c = 'e' ∨ c = 'E' then do
          let (down, rest) := match rest with
            | '+' :: rest => (false, rest)
            | '-' :: rest => (true, rest)
            | rest => (false, rest)
          let (ds, rest) ← readDigitRun rest
          let n : Int := Number.Binary64.digitsValue 0 ds
          pure (some (if down then -n else n), rest)
        else pure (none, c :: rest)
    | [] => pure (none, [])
  return (⟨negative, whole, fraction, exponent⟩, cs)

/-- Digits read onto a number as long as a word of 64 bits holds it, and how many are left. -/
def readIntoWord (n : Nat) : List Char → Nat × Nat
  | [] => (n, 0)
  | c :: rest =>
      let next := Number.Binary64.digitsValue n [c]
      if next < 0x10000000000000000 then readIntoWord next rest else (n, rest.length + 1)

/-- A literal as floating point. The leading digits count, as many as a word of 64 bits holds;
they and the power of ten are rounded each by itself. -/
def Literal.real (l : Literal) : Number.Binary64 :=
  let (n, dropped) := readIntoWord 0 l.whole
  let fraction := l.fraction.getD []
  let (n, unread) := readIntoWord n fraction
  .ofScaled l.negative n (dropped - (fraction.length - unread : Int) + l.exponent.getD 0)

/-- The number of a literal: whole numbers of 64 bits exactly, a negative zero and all others
as floating point, and none if that is infinite. -/
def Literal.numeral? (l : Literal) : Option Numeral :=
  let n := Number.Binary64.digitsValue 0 l.whole
  let real : Option Numeral :=
    match l.real with
    | .finite negative m e => some (.real (.finite negative m e))
    | _ => none
  match l.fraction, l.exponent with
  | none, none =>
      if l.negative then
        if 0 < n ∧ n ≤ 0x8000000000000000 then some (.integer (-(n : Int))) else real
      else if n < 0x10000000000000000 then some (.integer n) else real
  | _, _ => real

/-- Reads a number. -/
def readNumeral : Reader Numeral := fun cs => do
  let (l, rest) ← readLiteral cs
  match l.numeral? with
  | some n => return (n, rest)
  | none => .error .malformed

/-- Items between commas up to a closing bracket, after the opening one. The first argument
bounds the number of items, the second tells whether one has been read. -/
def readItems {α : Type} (item : Reader α) : Nat → Bool → Reader (List α)
  | 0, _, _ => .error .malformed
  | bound + 1, started, cs =>
      match skipGap cs with
      | [] => .error .malformed
      | c :: rest =>
          if c = ']' then .ok ([], rest)
          else do
            let cs ←
              if started then
                if c = ',' then
                  match skipGap rest with
                  | [] => .error .malformed
                  | d :: rest => if d = ']' then .error .malformed else .ok (d :: rest)
                else .error .malformed
              else .ok (c :: rest)
            let (x, rest) ← item cs
            let (xs, rest) ← readItems item bound true rest
            return (x :: xs, rest)

/-- The next name of an object, or nothing at its closing brace, which is left unread. The first
argument reads a name after its opening quote. -/
def readName {ν : Type} (body : Reader ν) (started : Bool) : Reader (Option ν) := fun cs =>
  match skipGap cs with
  | [] => .error .malformed
  | c :: rest =>
      if c = closeBrace then .ok (none, c :: rest)
      else do
        let cs ←
          if started then
            if c = ',' then .ok (skipGap rest) else .error .malformed
          else .ok (c :: rest)
        match cs with
        | '"' :: rest =>
            let (name, rest) ← body rest
            return (some name, rest)
        | _ => .error .malformed

/-- Folds over the members of an object after its opening brace: each name and the state so far
choose how the member's value is read into the next state. The closing brace is left unread. -/
def foldNamed {ν σ : Type} (body : Reader ν) (member : ν → σ → Reader σ) :
    Nat → Bool → σ → Reader σ
  | 0, _, _, _ => .error .malformed
  | bound + 1, started, s, cs => do
      let (name, rest) ← readName body started cs
      match name with
      | none => return (s, rest)
      | some name =>
          let (s, rest) ← member name s rest
          foldNamed body member bound true s rest

/-- Folds over the members of an object whose names are texts. -/
def foldMembers {σ : Type} (member : String → σ → Reader σ) : Nat → Bool → σ → Reader σ :=
  foldNamed readStringBody member

/-- Passes over a string after its opening quote. -/
def skipStringBody : Reader Unit := fun cs => skipStringTail (cs.length + 1) cs

/-- Reads the colon before a member's value, then the value. -/
def afterColon {α : Type} (value : Reader α) : Reader α := fun cs => do
  let (_, rest) ← readMark ':' cs
  value rest

/-- Reads a value that is kept, at most so many levels deep. -/
def readValue : Nat → Reader Value
  | depth, cs =>
      match skipGap cs with
      | [] => .error .malformed
      | c :: rest =>
          if c = '"' then do
            let (s, rest) ← readStringBody rest
            return (.text s, rest)
          else if c = '-' ∨ c.isDigit then do
            let (n, rest) ← readNumeral (c :: rest)
            return (.number n, rest)
          else if c = 't' then do
            let (_, rest) ← readExactly ['r', 'u', 'e'] rest
            return (.bool true, rest)
          else if c = 'f' then do
            let (_, rest) ← readExactly ['a', 'l', 's', 'e'] rest
            return (.bool false, rest)
          else if c = 'n' then do
            let (_, rest) ← readExactly ['u', 'l', 'l'] rest
            return (.null, rest)
          else if c = '[' then
            match depth with
            | 0 => .error .malformed
            | depth + 1 => do
                let (items, rest) ← readItems (readValue depth) (rest.length + 1) false rest
                return (.array items, rest)
          else if c = openBrace then
            match depth with
            | 0 => .error .malformed
            | depth + 1 => do
                let member := fun name members => afterColon fun cs => do
                  let (v, rest) ← readValue depth cs
                  return (putMember name v members, rest)
                let (members, rest) ← foldMembers member (rest.length + 1) false [] rest
                let (_, rest) ← readMark closeBrace rest
                return (.object members, rest)
          else .error .malformed

/-- Passes over a value of any depth. The first argument bounds the nesting. -/
def skipValue : Nat → Reader Unit
  | bound, cs =>
      match skipGap cs with
      | [] => .error .malformed
      | c :: rest =>
          if c = '"' then skipStringBody rest
          else if c = '-' ∨ c.isDigit then do
            let (_, rest) ← readLiteral (c :: rest)
            return ((), rest)
          else if c = 't' then readExactly ['r', 'u', 'e'] rest
          else if c = 'f' then readExactly ['a', 'l', 's', 'e'] rest
          else if c = 'n' then readExactly ['u', 'l', 'l'] rest
          else if c = '[' then
            match bound with
            | 0 => .error .malformed
            | bound + 1 => do
                let (_, rest) ← readItems (skipValue bound) (rest.length + 1) false rest
                return ((), rest)
          else if c = openBrace then
            match bound with
            | 0 => .error .malformed
            | bound + 1 => do
                let (_, rest) ← foldNamed skipStringBody (fun _ _ => afterColon (skipValue bound))
                  (rest.length + 1) false () rest
                readMark closeBrace rest
          else .error .malformed

/-- The fault of a value of an unwanted shape: whole scalars are read first, so that a malformed
one counts as such; brackets and braces are a mismatch at once. -/
def unwanted {α : Type} : Reader α := fun cs =>
  match skipGap cs with
  | [] => .error .malformed
  | c :: rest => do
      if c = '"' then
        let _ ← readStringBody rest
        .error .mismatched
      else if c = '-' ∨ c.isDigit then
        let _ ← readNumeral (c :: rest)
        .error .mismatched
      else if c = 't' then
        let _ ← readExactly ['r', 'u', 'e'] rest
        .error .mismatched
      else if c = 'f' then
        let _ ← readExactly ['a', 'l', 's', 'e'] rest
        .error .mismatched
      else if c = 'n' then
        let _ ← readExactly ['u', 'l', 'l'] rest
        .error .mismatched
      else if c = '[' ∨ c = openBrace then .error .mismatched
      else .error .malformed

/-- Reads a truth value. -/
def readBool : Reader Bool := fun cs =>
  match skipGap cs with
  | 't' :: rest => do
      let (_, rest) ← readExactly ['r', 'u', 'e'] rest
      return (true, rest)
  | 'f' :: rest => do
      let (_, rest) ← readExactly ['a', 'l', 's', 'e'] rest
      return (false, rest)
  | cs => unwanted cs

/-- Reads a whole number of a range. -/
def readInteger (r : Number.Range) : Reader Int := fun cs =>
  match skipGap cs with
  | c :: rest =>
      if c = '-' ∨ c.isDigit then do
        let (n, rest) ← readNumeral (c :: rest)
        match n with
        | .integer n => if r.holds n then return (n, rest) else .error .mismatched
        | .real _ => .error .mismatched
      else unwanted (c :: rest)
  | [] => .error .malformed

/-- Reads a string. -/
def readText : Reader String := fun cs =>
  match skipGap cs with
  | '"' :: rest => readStringBody rest
  | cs => unwanted cs

/-- Reads null as nothing and all else by a reader. -/
def readOptional {α : Type} (value : Reader α) : Reader (Option α) := fun cs =>
  match skipGap cs with
  | 'n' :: rest => do
      let (_, rest) ← readExactly ['u', 'l', 'l'] rest
      return (none, rest)
  | cs => do
      let (v, rest) ← value cs
      return (some v, rest)

/-- Reads a string that a partial function accepts. -/
def readTextAs {α : Type} (f : String → Option α) : Reader α := fun cs => do
  let (s, rest) ← readText cs
  match f s with
  | some a => return (a, rest)
  | none => .error .mismatched

/-- Reads one name of a fixed set, plain or as the only member of an object with value null. -/
def readChoice {α : Type} (f : String → Option α) : Reader α := fun cs =>
  match skipGap cs with
  | '"' :: rest => readTextAs f ('"' :: rest)
  | c :: rest =>
      if c = openBrace then do
        let (a, rest) ← readTextAs f rest
        let (_, rest) ← readMark ':' rest
        let (_, rest) ← match skipGap rest with
          | 'n' :: rest => readExactly ['u', 'l', 'l'] rest
          | rest => unwanted rest
        let (_, rest) ← readMark closeBrace rest
        return (a, rest)
      else .error .malformed
  | [] => .error .malformed

/-- Reads the next item of an array, or nothing at its closing bracket, which is left unread. -/
def readItem {α : Type} (started : Bool) (item : Reader α) : Reader (Option α) := fun cs =>
  match skipGap cs with
  | [] => .error .malformed
  | c :: rest =>
      if c = ']' then .ok (none, c :: rest)
      else do
        let cs ←
          if started then
            if c = ',' then
              match skipGap rest with
              | [] => .error .malformed
              | d :: rest => if d = ']' then .error .malformed else .ok (d :: rest)
            else .error .malformed
          else .ok (c :: rest)
        let (x, rest) ← item cs
        return (some x, rest)

/-- Reads the next item of an array and refuses its end. -/
def readNextItem {α : Type} (started : Bool) (item : Reader α) : Reader α := fun cs => do
  match ← readItem started item cs with
  | (some x, rest) => return (x, rest)
  | (none, _) => .error .mismatched

/-- Reads a record: an array of its fields in order, or an object of its fields by name. -/
def readRecord {α : Type} (items : Reader α) (members : Reader α) : Reader α := fun cs =>
  match skipGap cs with
  | c :: rest =>
      if c = '[' then do
        let (a, rest) ← items rest
        let (_, rest) ← readMark ']' rest
        return (a, rest)
      else if c = openBrace then do
        let (a, rest) ← members rest
        let (_, rest) ← readMark closeBrace rest
        return (a, rest)
      else unwanted (c :: rest)
  | [] => .error .malformed

/-- Reads a member's value into a place that must still be empty. -/
def readOnce {α : Type} (place : Option α) (value : Reader α) : Reader (Option α) := fun cs =>
  if place.isSome then .error .mismatched
  else do
    let (v, rest) ← afterColon value cs
    return (some v, rest)

/-- Passes over the value of a member that the record does not know. -/
def skipMember : Reader Unit := fun cs => afterColon (skipValue cs.length) cs

/-- The value in a place that must have been filled. -/
def filled {α : Type} (place : Option α) : Except Fault α :=
  match place with
  | some a => .ok a
  | none => .error .mismatched

/-- The deepest nesting of a value that is kept. -/
def maxDepth : Nat := 127

/-- Reads a whole document: one value with nothing but gaps around it. -/
def readDocument {α : Type} (value : Reader α) (s : String) : Except Fault α := do
  let (a, rest) ← value s.toList
  if (skipGap rest).isEmpty then return a else .error .malformed

end JobFleet.Json
