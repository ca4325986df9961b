import JobFleet.Duration

/-!
# Binary floating-point numbers of 64 bits

Reading rounds a decimal to the nearest number m · 2^e with m below 2^53, ties to the even m,
with all arithmetic done in exact integers. Printing gives the fewest digits that read back,
the nearest of those to the value, always in positional form. A number of seconds turns into a
duration by rounding its exact value to whole nanoseconds, ties to even.
-/

namespace JobFleet.Number

/-- A number of 64 bits: not a number, infinite, or a sign with m · 2^e. -/
inductive Binary64
  | nan
  | infinite (negative : Bool)
  | finite (negative : Bool) (mantissa : Nat) (exponent : Int)
deriving DecidableEq, Repr

/-- The quotient rounded to the nearest whole number, ties to even. -/
def roundDiv (num den : Nat) : Nat :=
  let q := num / den
  let r := num % den
  if den < 2 * r ∨ (2 * r = den ∧ q % 2 = 1) then q + 1 else q

namespace Binary64

/-- A fraction num / den divided by a power of two, as a fraction again. -/
def unscale (num den : Nat) (e : Int) : Nat × Nat :=
  if 0 ≤ e then (num, den * Nat.pow 2 e.toNat) else (num * Nat.pow 2 (-e).toNat, den)

/-- The nearest number to a positive fraction. -/
def ofFraction (negative : Bool) (num den : Nat) : Binary64 :=
  if num = 0 then .finite negative 0 (-1074)
  else
    let guess : Int := max (-1074) ((num.log2 : Int) - (den.log2 : Int) - 53)
    let (n, d) := unscale num den guess
    let e := if n / d < 0x20000000000000 then guess else guess + 1
    let (n, d) := unscale num den e
    let e' := if n / d < 0x20000000000000 then e else e + 1
    let (n, d) := unscale num den e'
    let m := roundDiv n d
    let (m, e') := if m = 0x20000000000000 then (0x10000000000000, e' + 1) else (m, e')
    if 971 < e' then .infinite negative else .finite negative m e'

/-- The nearest number to digits · 10^exponent. Magnitudes far outside the range are settled
by the count of digits alone. -/
def ofDecimal (negative : Bool) (digits : Nat) (exponent : Int) : Binary64 :=
  let magnitude : Int := (Nat.toDigits 10 digits).length + exponent
  if digits = 0 ∨ magnitude < -400 then .finite negative 0 (-1074)
  else if 400 < magnitude then .infinite negative
  else if 0 ≤ exponent then ofFraction negative (digits * Nat.pow 10 exponent.toNat) 1
  else ofFraction negative digits (Nat.pow 10 (-exponent).toNat)

/-- The nearest number to a product of two positive ones, the second perhaps inverted. -/
def times (negative : Bool) (x y : Nat × Int) (inverted : Bool) : Binary64 :=
  let (m, d) := if inverted then (x.1, y.1) else (x.1 * y.1, 1)
  let (n, d) := unscale m d (if inverted then y.2 - x.2 else -(x.2 + y.2))
  ofFraction negative n d

/-- A number times a power of ten, in the two roundings of the power and of the result. -/
def timesPowerOfTen (x : Binary64) (exponent : Int) : Binary64 :=
  match x, ofFraction false (Nat.pow 10 exponent.natAbs) 1 with
  | .finite negative m e, .finite _ n f => times negative (m, e) (n, f) (exponent < 0)
  | x, _ => x

/-- The largest power of ten that is a number. -/
def maxPower : Int := 308

/-- The number that a whole number and a power of ten give when each is rounded by itself; it
may miss the nearest one. A power too small for a number is taken in two steps. -/
def ofScaled (negative : Bool) (digits : Nat) (exponent : Int) : Binary64 :=
  let x := ofFraction negative digits 1
  if digits = 0 ∨ exponent < -2 * maxPower then .finite negative 0 (-1074)
  else if maxPower < exponent then .infinite negative
  else if exponent < -maxPower then
    (x.timesPowerOfTen (-maxPower)).timesPowerOfTen (exponent + maxPower)
  else x.timesPowerOfTen exponent

/-- The number that a run of ASCII digits writes, onto a number already read. -/
def digitsValue (acc : Nat) (cs : List Char) : Nat :=
  cs.foldl (fun n c => n * 10 + (c.toNat - '0'.toNat)) acc

/-- The part of a literal after its mantissa: nothing, or a marked exponent. -/
def readExponent : List Char → Option Int
  | [] => some 0
  | c :: rest =>
      if c = 'e' ∨ c = 'E' then
        let (negative, ds) := match rest with
          | '+' :: ds => (false, ds)
          | '-' :: ds => (true, ds)
          | ds => (false, ds)
        if ds.isEmpty || !ds.all Char.isDigit then none
        else
          let n : Int := digitsValue 0 ds
          some (if negative then -n else n)
      else none

/-- An unsigned decimal literal: digits with at most one point and at least one digit, then
perhaps an exponent. -/
def readMagnitude (negative : Bool) (cs : List Char) : Option Binary64 :=
  let whole := cs.takeWhile Char.isDigit
  let rest := cs.dropWhile Char.isDigit
  let (fraction, rest) := match rest with
    | '.' :: tail => (tail.takeWhile Char.isDigit, tail.dropWhile Char.isDigit)
    | rest => ([], rest)
  if whole.isEmpty && fraction.isEmpty then none
  else
    match readExponent rest with
    | none => none
    | some e =>
        let digits := digitsValue (digitsValue 0 whole) fraction
        some (ofDecimal negative digits (e - fraction.length))

/-- An unsigned literal: a name in any case, or a decimal. -/
def readUnsigned (negative : Bool) (cs : List Char) : Option Binary64 :=
  let name := String.ofList (cs.map Char.toLower)
  if name = "inf" ∨ name = "infinity" then some (.infinite negative)
  else if name = "nan" then some .nan
  else readMagnitude negative cs

/-- Reads a literal with an optional sign. -/
def read? (s : String) : Option Binary64 :=
  match s.toList with
  | '+' :: rest => readUnsigned false rest
  | '-' :: rest => readUnsigned true rest
  | cs => readUnsigned false cs

/-- The place p of the leading digit: the fraction num / den lies in [10^(p-1), 10^p). -/
def leadingPlace (num den : Nat) : Int :=
  if den ≤ num then (Nat.toDigits 10 (num / den)).length
  else
    let q := den / num
    let places : Int := (Nat.toDigits 10 q).length
    if q * num = den ∧ q = Nat.pow 10 (places.toNat - 1) then 2 - places else 1 - places

/-- The multiple of 10^grid nearest to the value that still reads back, if a neighbour of the
value on that grid does; a tie goes away from zero. All arguments are in units of 2^exponent / 4. -/
def onGrid (value low high : Nat) (closed : Bool) (exponent grid : Int) : Option Nat :=
  let e := exponent - 2
  -- Both sides of every comparison are multiplied by the same powers of two and ten.
  let up (x : Nat) : Nat := x * (if 0 ≤ e then Nat.pow 2 e.toNat else 1) *
    (if grid < 0 then Nat.pow 10 (-grid).toNat else 1)
  let unit : Nat := (if 0 ≤ e then 1 else Nat.pow 2 (-e).toNat) *
    (if grid < 0 then 1 else Nat.pow 10 grid.toNat)
  let inside (c : Nat) : Bool :=
    if closed then up low ≤ c * unit && c * unit ≤ up high
    else up low < c * unit && c * unit < up high
  let below := up value / unit
  let above := below + 1
  match inside below, inside above with
  | true, true =>
      if up value - below * unit < above * unit - up value then some below else some above
  | true, false => some below
  | false, true => some above
  | false, false => none

/-- The fewest digits that read back as m · 2^e, and the power of ten of the last one. -/
def shortest (m : Nat) (e : Int) : Nat × Int :=
  let value := 4 * m
  let low := if m = 0x10000000000000 ∧ -1074 < e then value - 1 else value - 2
  let place := if 0 ≤ e then leadingPlace (m * Nat.pow 2 e.toNat) 1
    else leadingPlace m (Nat.pow 2 (-e).toNat)
  let tries := (List.range 17).filterMap fun (i : Nat) =>
    let grid : Int := place - (i + 1)
    (onGrid value low (value + 2) (m % 2 = 0) e grid).map fun c => (c, grid)
  tries.headD (m, e)

/-- Digits with the power of ten of the last one, in positional form without trailing zeros
after the point. -/
def positional (digits : Nat) (place : Int) : List Char :=
  let ds := Nat.toDigits 10 digits
  if 0 ≤ place then ds ++ List.replicate place.toNat '0'
  else
    let after := (-place).toNat
    let padded := List.replicate (after + 1 - ds.length) '0' ++ ds
    let whole := padded.take (padded.length - after)
    let fraction := (padded.drop (padded.length - after)).reverse.dropWhile (· = '0')
    if fraction.isEmpty then whole else whole ++ '.' :: fraction.reverse

/-- The printed form. -/
def text : Binary64 → String
  | .nan => "NaN"
  | .infinite negative => if negative then "-inf" else "inf"
  | .finite negative m e =>
      let digits := if m = 0 then ['0'] else
        let (c, place) := shortest m e
        positional c place
      String.ofList (if negative then '-' :: digits else digits)

end Binary64

/-- Why a number of seconds is not a duration. -/
inductive SecondsError
  | negative
  | tooLarge
deriving DecidableEq, Repr

/-- The wording of each fault. -/
def SecondsError.message : SecondsError → String
  | .negative => "cannot convert float seconds to Duration: value is negative"
  | .tooLarge => "cannot convert float seconds to Duration: value is either too big or NaN"

/-- The duration nearest to a number of seconds. A negative zero is zero. -/
def Binary64.toDuration : Binary64 → Except SecondsError Duration
  | .nan => .error .tooLarge
  | .infinite negative => .error (if negative then .negative else .tooLarge)
  | .finite negative m e =>
      if negative ∧ m ≠ 0 then .error .negative
      else
        let nanos := if 0 ≤ e then m * Nat.pow 2 e.toNat * 1000000000
          else roundDiv (m * 1000000000) (Nat.pow 2 (-e).toNat)
        match Duration.ofParts? 0 nanos with
        | some d => .ok d
        | none => .error .tooLarge

end JobFleet.Number
