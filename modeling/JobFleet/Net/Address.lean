import JobFleet.Number.Integer

/-!
# Network addresses

Addresses of both families, read and printed in their canonical text form. Four octets are
written in decimal without leading zeros. Eight groups are written in hexadecimal; one gap of
two colons stands for at least one group of zeros, and the last two groups may be written as
four octets. Printing closes the longest run of at least two zero groups, the first of equals,
and shows addresses that embed four octets after ten zero octets and two full ones that way.
A socket address adds a port, and for eight groups brackets and perhaps a numeric scope.
-/

namespace JobFleet.Net

/-- An address of four octets or of eight groups of 16 bits. -/
inductive Address
  | v4 (a b c d : UInt8)
  | v6 (groups : Vector UInt16 8)
deriving DecidableEq, Repr

/-- An address with a port; eight-group addresses carry a numeric scope. -/
structure SocketAddress where
  address : Address
  port : UInt16
  scope : UInt32
deriving DecidableEq, Repr

/-- The value of a hexadecimal digit. -/
def hexValue? (c : Char) : Option Nat :=
  if c.isDigit then some (c.toNat - '0'.toNat)
  else if 'a' ≤ c ∧ c ≤ 'f' then some (c.toNat - 'a'.toNat + 10)
  else if 'A' ≤ c ∧ c ≤ 'F' then some (c.toNat - 'A'.toNat + 10)
  else none

/-- The digit values at the front of a text, and what follows them. -/
def takeDigits (radix : Nat) : List Char → List Nat × List Char
  | [] => ([], [])
  | c :: rest =>
      match hexValue? c with
      | some v =>
          if v < radix then
            let (vs, rest') := takeDigits radix rest
            (v :: vs, rest')
          else ([], c :: rest)
      | none => ([], c :: rest)

/-- The number that digit values write. -/
def valueOf (radix : Nat) (digits : List Nat) : Nat := digits.foldl (fun n d => n * radix + d) 0

/-- Reads an octet: one to three decimal digits, no leading zero, at most 255. -/
def readOctet (cs : List Char) : Option (UInt8 × List Char) :=
  let (ds, rest) := takeDigits 10 cs
  let n := valueOf 10 ds
  if ds.isEmpty ∨ 3 < ds.length ∨ (1 < ds.length ∧ ds.head? = some 0) ∨ 255 < n then none
  else some (n.toUInt8, rest)

/-- Reads a group: one to four hexadecimal digits. -/
def readGroup (cs : List Char) : Option (UInt16 × List Char) :=
  let (ds, rest) := takeDigits 16 cs
  if ds.isEmpty ∨ 4 < ds.length then none else some ((valueOf 16 ds).toUInt16, rest)

/-- Reads one given character. -/
def readChar (c : Char) : List Char → Option (List Char)
  | d :: rest => if d = c then some rest else none
  | [] => none

/-- Reads four octets between points. -/
def readOctets (cs : List Char) : Option ((UInt8 × UInt8 × UInt8 × UInt8) × List Char) := do
  let (a, cs) ← readOctet cs
  let (b, cs) ← readOctet (← readChar '.' cs)
  let (c, cs) ← readOctet (← readChar '.' cs)
  let (d, cs) ← readOctet (← readChar '.' cs)
  return ((a, b, c, d), cs)

/-- Two octets as one group. -/
def joinOctets (a b : UInt8) : UInt16 := a.toUInt16 * 256 + b.toUInt16

/-- Reads up to a number of groups between colons; four octets may stand for the last two
groups and end the run. Gives the groups, whether octets ended them, and what follows. -/
def readGroups (first : Bool) : Nat → List Char → List UInt16 × Bool × List Char
  | 0, cs => ([], false, cs)
  | limit + 1, cs =>
      match if first then some cs else readChar ':' cs with
      | none => ([], false, cs)
      | some inner =>
          match if limit = 0 then none else readOctets inner with
          | some ((a, b, c, d), rest) => ([joinOctets a b, joinOctets c d], true, rest)
          | none =>
              match readGroup inner with
              | some (g, rest) =>
                  let (gs, octets, rest') := readGroups false limit rest
                  (g :: gs, octets, rest')
              | none => ([], false, cs)

/-- Eight groups from a list, missing ones zero. -/
def groupsOf (gs : List UInt16) : Vector UInt16 8 := Vector.ofFn fun i => gs.getD i 0

/-- Reads eight groups, or fewer around one gap. -/
def readV6 (cs : List Char) : Option (Address × List Char) := do
  let (front, octets, rest) := readGroups true 8 cs
  if front.length = 8 then
    return (.v6 (groupsOf front), rest)
  else if octets then
    none
  else
    let rest ← readChar ':' rest
    let rest ← readChar ':' rest
    let (back, _, rest) := readGroups true (7 - front.length) rest
    let gap := List.replicate (8 - front.length - back.length) (0 : UInt16)
    return (.v6 (groupsOf (front ++ gap ++ back)), rest)

/-- Reads an address of either family. -/
def readAddress (cs : List Char) : Option (Address × List Char) :=
  match readOctets cs with
  | some ((a, b, c, d), rest) => some (.v4 a b c d, rest)
  | none => readV6 cs

/-- Reads a whole text as an address. -/
def Address.read? (s : String) : Option Address :=
  match readAddress s.toList with
  | some (a, []) => some a
  | _ => none

/-- Reads decimal digits as a number below a limit. -/
def readBelow (limit : Nat) (cs : List Char) : Option (Nat × List Char) :=
  let (ds, rest) := takeDigits 10 cs
  let n := valueOf 10 ds
  if ds.isEmpty ∨ limit ≤ n then none else some (n, rest)

/-- Reads a scope mark and number, or nothing for scope zero. -/
def readScope (cs : List Char) : UInt32 × List Char :=
  match readChar '%' cs with
  | none => (0, cs)
  | some inner =>
      match readBelow 0x100000000 inner with
      | some (n, rest) => (n.toUInt32, rest)
      | none => (0, cs)

/-- Reads a whole text as a socket address. -/
def SocketAddress.read? (s : String) : Option SocketAddress :=
  let port (cs : List Char) : Option UInt16 := do
    let (n, rest) ← readBelow 0x10000 (← readChar ':' cs)
    if rest.isEmpty then return n.toUInt16 else none
  let bracketed : Option SocketAddress := do
    let (address, rest) ← readV6 (← readChar '[' s.toList)
    let (scope, rest) := readScope rest
    let p ← port (← readChar ']' rest)
    return ⟨address, p, scope⟩
  match readOctets s.toList with
  | some ((a, b, c, d), rest) => (port rest).map fun p => ⟨.v4 a b c d, p, 0⟩
  | none => bracketed

/-- The decimal digits of a number. -/
def decimalDigits (n : Nat) : List Char := Nat.toDigits 10 n

/-- Four octets in decimal between points. -/
def octetsText (a b c d : UInt8) : List Char :=
  decimalDigits a.toNat ++ '.' :: (decimalDigits b.toNat ++ '.' ::
    (decimalDigits c.toNat ++ '.' :: decimalDigits d.toNat))

/-- Groups in hexadecimal between colons. -/
def groupsText : List UInt16 → List Char
  | [] => []
  | [g] => Nat.toDigits 16 g.toNat
  | g :: gs => Nat.toDigits 16 g.toNat ++ ':' :: groupsText gs

/-- The length of the run of zero groups at the front. -/
def zeroRun (gs : List UInt16) : Nat := (gs.takeWhile (· = 0)).length

/-- The start and length of the longest run of zero groups, the first of equals. -/
def longestZeroRun (gs : List UInt16) : Nat × Nat :=
  (List.range gs.length).foldl
    (fun best i => if best.2 < zeroRun (gs.drop i) then (i, zeroRun (gs.drop i)) else best) (0, 0)

/-- Eight groups with the longest run of at least two zeros closed. -/
def compressedText (gs : List UInt16) : List Char :=
  let (start, length) := longestZeroRun gs
  if 1 < length then
    groupsText (gs.take start) ++ ':' :: ':' :: groupsText (gs.drop (start + length))
  else groupsText gs

/-- The high and the low octet of a group. -/
def octetsOf (g : UInt16) : UInt8 × UInt8 := ((g / 256).toUInt8, (g % 256).toUInt8)

/-- The characters of an address in canonical form. -/
def Address.chars : Address → List Char
  | .v4 a b c d => octetsText a b c d
  | .v6 groups =>
      match groups.toList with
      | [0, 0, 0, 0, 0, 0xffff, high, low] =>
          let (a, b) := octetsOf high
          let (c, d) := octetsOf low
          ':' :: ':' :: 'f' :: 'f' :: 'f' :: 'f' :: ':' :: octetsText a b c d
      | gs => compressedText gs

/-- The canonical text of an address. -/
def Address.text (a : Address) : String := String.ofList a.chars

/-- The canonical text of a socket address. -/
def SocketAddress.text (s : SocketAddress) : String :=
  let port := ':' :: decimalDigits s.port.toNat
  match s.address with
  | .v4 .. => String.ofList (s.address.chars ++ port)
  | .v6 _ =>
      let scope := if s.scope = 0 then [] else '%' :: decimalDigits s.scope.toNat
      String.ofList ('[' :: (s.address.chars ++ scope ++ ']' :: port))

/-- The wording for a text that is not an address. -/
def addressFault : String := "invalid IP address syntax"

/-- The wording for a text that is not a socket address. -/
def socketAddressFault : String := "invalid socket address syntax"

end JobFleet.Net
