/-!
# Bytes and characters

Reading bytes as characters in two ways: exactly, where every byte must belong to a character,
and leniently, where each longest piece that begins no character becomes the replacement
character. Escapes of a percent sign and two hexadecimal digits stand for bytes.
-/

namespace JobFleet.Text

/-- The character that stands for bytes that are none. -/
def replacement : Char := Char.ofNat 0xfffd

/-- Whether a byte lies in a range. -/
def byteIn (low high : Nat) (b : UInt8) : Bool := low ≤ b.toNat && b.toNat ≤ high

/-- Whether a byte goes on a character. -/
def continues (b : UInt8) : Bool := byteIn 0x80 0xbf b

/-- The bytes that may follow a first byte of three or four. -/
def secondRange (first : UInt8) : Nat × Nat :=
  if first = 0xe0 then (0xa0, 0xbf)
  else if first = 0xed then (0x80, 0x9f)
  else if first = 0xf0 then (0x90, 0xbf)
  else if first = 0xf4 then (0x80, 0x8f)
  else (0x80, 0xbf)

/-- Whether a second byte may follow a first byte of three or four. -/
def follows (first second : UInt8) : Bool :=
  byteIn (secondRange first).1 (secondRange first).2 second

/-- The six low bits of a byte. -/
def lowBits (b : UInt8) : Nat := b.toNat % 0x40

/-- Reads bytes leniently. -/
def lenient : List UInt8 → List Char
  | [] => []
  | a :: rest =>
      if byteIn 0 0x7f a then Char.ofNat a.toNat :: lenient rest
      else if byteIn 0xc2 0xdf a then
        match rest with
        | b :: rest' =>
            if continues b then Char.ofNat (a.toNat % 0x20 * 0x40 + lowBits b) :: lenient rest'
            else replacement :: lenient (b :: rest')
        | [] => [replacement]
      else if byteIn 0xe0 0xef a then
        match rest with
        | b :: rest' =>
            if follows a b then
              match rest' with
              | c :: rest'' =>
                  if continues c then
                    Char.ofNat ((a.toNat % 0x10 * 0x40 + lowBits b) * 0x40 + lowBits c) ::
                      lenient rest''
                  else replacement :: lenient (c :: rest'')
              | [] => [replacement]
            else replacement :: lenient (b :: rest')
        | [] => [replacement]
      else if byteIn 0xf0 0xf4 a then
        match rest with
        | b :: rest' =>
            if follows a b then
              match rest' with
              | c :: rest'' =>
                  if continues c then
                    match rest'' with
                    | d :: rest''' =>
                        if continues d then
                          Char.ofNat (((a.toNat % 0x8 * 0x40 + lowBits b) * 0x40 + lowBits c) *
                            0x40 + lowBits d) :: lenient rest'''
                        else replacement :: lenient (d :: rest''')
                    | [] => [replacement]
                  else replacement :: lenient (c :: rest'')
              | [] => [replacement]
            else replacement :: lenient (b :: rest')
        | [] => [replacement]
      else replacement :: lenient rest
termination_by bytes => bytes.length

/-- Reads bytes exactly. -/
def ofUtf8? (bytes : List UInt8) : Option String := String.fromUTF8? ⟨bytes.toArray⟩

/-- The value of a byte that is a hexadecimal digit. -/
def hexByte? (b : UInt8) : Option UInt8 :=
  if byteIn 0x30 0x39 b then some (b - 0x30)
  else if byteIn 0x41 0x46 b then some (b - 0x37)
  else if byteIn 0x61 0x66 b then some (b - 0x57)
  else none

/-- Replaces escapes by the bytes they stand for; a percent sign without two digits stays. -/
def unescape : List UInt8 → List UInt8
  | [] => []
  | a :: rest =>
      if a = 0x25 then
        match rest with
        | b :: c :: rest' =>
            match hexByte? b, hexByte? c with
            | some x, some y => (x * 16 + y) :: unescape rest'
            | _, _ => a :: unescape (b :: c :: rest')
        | rest' => a :: unescape rest'
      else a :: unescape rest
termination_by bytes => bytes.length

end JobFleet.Text
