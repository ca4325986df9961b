/-!
# The SHA-256 digest

The digest of a byte string as eight words of 32 bits, and its text of 64 small hexadecimal
digits. The message is padded to whole blocks of 64 bytes by a single set bit, zeros and its
length in bits; each block is expanded to 64 words and mixed into the state in 64 rounds.
-/

namespace JobFleet.Digest

/-- The words added in the rounds: fractions of the cube roots of the first 64 primes. -/
def roundWords : List UInt32 := [
  0x428a2f98, 0x71374491, 0xb5c0fbcf, 0xe9b5dba5, 0x3956c25b, 0x59f111f1, 0x923f82a4, 0xab1c5ed5,
  0xd807aa98, 0x12835b01, 0x243185be, 0x550c7dc3, 0x72be5d74, 0x80deb1fe, 0x9bdc06a7, 0xc19bf174,
  0xe49b69c1, 0xefbe4786, 0x0fc19dc6, 0x240ca1cc, 0x2de92c6f, 0x4a7484aa, 0x5cb0a9dc, 0x76f988da,
  0x983e5152, 0xa831c66d, 0xb00327c8, 0xbf597fc7, 0xc6e00bf3, 0xd5a79147, 0x06ca6351, 0x14292967,
  0x27b70a85, 0x2e1b2138, 0x4d2c6dfc, 0x53380d13, 0x650a7354, 0x766a0abb, 0x81c2c92e, 0x92722c85,
  0xa2bfe8a1, 0xa81a664b, 0xc24b8b70, 0xc76c51a3, 0xd192e819, 0xd6990624, 0xf40e3585, 0x106aa070,
  0x19a4c116, 0x1e376c08, 0x2748774c, 0x34b0bcb5, 0x391c0cb3, 0x4ed8aa4a, 0x5b9cca4f, 0x682e6ff3,
  0x748f82ee, 0x78a5636f, 0x84c87814, 0x8cc70208, 0x90befffa, 0xa4506ceb, 0xbef9a3f7, 0xc67178f2]

/-- The eight chaining words. -/
structure State where
  a : UInt32
  b : UInt32
  c : UInt32
  d : UInt32
  e : UInt32
  f : UInt32
  g : UInt32
  h : UInt32
deriving DecidableEq, Repr

/-- Fractions of the square roots of the first eight primes. -/
def State.start : State :=
  ⟨0x6a09e667, 0xbb67ae85, 0x3c6ef372, 0xa54ff53a, 0x510e527f, 0x9b05688c, 0x1f83d9ab, 0x5be0cd19⟩

/-- A word turned right by a number of bits. -/
def turn (x : UInt32) (n : UInt32) : UInt32 := (x >>> n) ||| (x <<< (32 - n))

/-- One round of mixing. -/
def round (s : State) (k w : UInt32) : State :=
  let high := turn s.e 6 ^^^ turn s.e 11 ^^^ turn s.e 25
  let choice := (s.e &&& s.f) ^^^ (~~~s.e &&& s.g)
  let first := s.h + high + choice + k + w
  let low := turn s.a 2 ^^^ turn s.a 13 ^^^ turn s.a 22
  let majority := (s.a &&& s.b) ^^^ (s.a &&& s.c) ^^^ (s.b &&& s.c)
  ⟨first + (low + majority), s.a, s.b, s.c, s.d + first, s.e, s.f, s.g⟩

/-- The words of a block and those derived from them, newest first: each from the words 2, 7, 15
and 16 places before it. -/
def expand : Nat → List UInt32 → List UInt32
  | 0, ws => ws
  | n + 1, ws =>
      let w2 := ws.getD 1 0
      let w7 := ws.getD 6 0
      let w15 := ws.getD 14 0
      let w16 := ws.getD 15 0
      let s0 := turn w15 7 ^^^ turn w15 18 ^^^ (w15 >>> 3)
      let s1 := turn w2 17 ^^^ turn w2 19 ^^^ (w2 >>> 10)
      expand n ((w16 + s0 + w7 + s1) :: ws)

/-- Mixes one block of sixteen words into the state. -/
def absorb (s : State) (block : List UInt32) : State :=
  let ws := (expand 48 block.reverse).reverse
  let t := (roundWords.zip ws).foldl (fun s kw => round s kw.1 kw.2) s
  ⟨s.a + t.a, s.b + t.b, s.c + t.c, s.d + t.d, s.e + t.e, s.f + t.f, s.g + t.g, s.h + t.h⟩

/-- Bytes as words of four, the first byte highest. -/
def wordsOf : List UInt8 → List UInt32
  | a :: b :: c :: d :: rest =>
      (a.toUInt32 <<< 24 ||| b.toUInt32 <<< 16 ||| c.toUInt32 <<< 8 ||| d.toUInt32) :: wordsOf rest
  | _ => []

/-- The eight bytes of a number of 64 bits, highest first. -/
def lengthBytes (n : Nat) : List UInt8 :=
  (List.range 8).map fun i => (n / Nat.pow 256 (7 - i)).toUInt8

/-- The padding after a message of so many bytes. -/
def padding (length : Nat) : List UInt8 :=
  0x80 :: (List.replicate ((119 - length % 64) % 64) 0 ++ lengthBytes (length * 8))

/-- Mixes a number of blocks from the front of a list of words. -/
def absorbBlocks : Nat → List UInt32 → State → State
  | 0, _, s => s
  | n + 1, ws, s => absorbBlocks n (ws.drop 16) (absorb s (ws.take 16))

/-- The digest of a byte string. -/
def sha256 (bytes : List UInt8) : State :=
  let ws := wordsOf (bytes ++ padding bytes.length)
  absorbBlocks (ws.length / 16) ws State.start

/-- A number's lowest hexadecimal digits in small letters, as many as asked for. -/
def hexPadded (width n : Nat) : List Char :=
  (List.range width).map fun i => Nat.digitChar (n / Nat.pow 16 (width - 1 - i) % 16)

/-- A padded number has the width that was asked for. -/
theorem length_hexPadded (width n : Nat) : (hexPadded width n).length = width := by
  simp [hexPadded]

/-- The digest as hexadecimal digits. -/
def State.hex (s : State) : List Char :=
  [s.a, s.b, s.c, s.d, s.e, s.f, s.g, s.h].flatMap fun w => hexPadded 8 w.toNat

/-- A digest is written with sixty-four characters. -/
theorem State.length_hex (s : State) : s.hex.length = 64 := by
  simp [State.hex, length_hexPadded]

/-- The digest of the bytes of a text, as 64 hexadecimal digits. -/
def textDigest (s : String) : List Char := (sha256 s.toUTF8.toList).hex

/-- The digest of a text has sixty-four characters. -/
theorem length_textDigest (s : String) : (textDigest s).length = 64 := State.length_hex _

end JobFleet.Digest
