/-!
# UTF-8

Texts are exchanged as bytes. `encode` writes a text as UTF-8. `decodeLossy`
reads *any* bytes: each longest run of bytes that begins a character and is
then cut short or broken is read as one replacement character, so nothing that
a peer sends is refused for its encoding alone. `decode?` reads only what is
UTF-8.
-/

namespace Rota.Text

/-- The bytes of a text. -/
def encode (text : List Char) : List UInt8 :=
  text.flatMap String.utf8EncodeChar

/-- The character that stands for bytes that are no UTF-8. -/
def replacement : Char := Char.ofNat 0xFFFD

/-- **A character begun**: how many bytes are still owed, the range the next
one must fall in, and the bits collected so far. -/
structure Partial where
  /-- Bytes still owed. -/
  owed : Nat
  /-- Least value of the next byte. -/
  low : Nat
  /-- Greatest value of the next byte. -/
  high : Nat
  /-- The bits of the code point read so far. -/
  bits : Nat
  deriving Repr, DecidableEq

/-- The reader's state: the characters read, last first, and the character
that is begun, if any. -/
structure Decoding where
  /-- Characters read, last first. -/
  read : List Char := []
  /-- The character that is begun. -/
  begun : Option Partial := none
  deriving Repr, DecidableEq

/-- Take a byte that begins a character. -/
def Decoding.begin (read : List Char) (b : Nat) : Decoding :=
  if b < 0x80 then ⟨Char.ofNat b :: read, none⟩
  else if 0xC2 ≤ b ∧ b ≤ 0xDF then ⟨read, some ⟨1, 0x80, 0xBF, b % 0x20⟩⟩
  else if b = 0xE0 then ⟨read, some ⟨2, 0xA0, 0xBF, 0⟩⟩
  else if b = 0xED then ⟨read, some ⟨2, 0x80, 0x9F, 0xD⟩⟩
  else if 0xE1 ≤ b ∧ b ≤ 0xEF then ⟨read, some ⟨2, 0x80, 0xBF, b % 0x10⟩⟩
  else if b = 0xF0 then ⟨read, some ⟨3, 0x90, 0xBF, 0⟩⟩
  else if b = 0xF4 then ⟨read, some ⟨3, 0x80, 0x8F, 4⟩⟩
  else if 0xF1 ≤ b ∧ b ≤ 0xF3 then ⟨read, some ⟨3, 0x80, 0xBF, b % 8⟩⟩
  else ⟨replacement :: read, none⟩

/-- Take one byte. A byte that does not continue the character begun closes it
as broken, and is then looked at as the beginning of the next. -/
def Decoding.step (d : Decoding) (byte : UInt8) : Decoding :=
  let b := byte.toNat
  match d.begun with
  | none => begin d.read b
  | some p =>
    if p.low ≤ b ∧ b ≤ p.high then
      let bits := p.bits * 0x40 + b % 0x40
      if p.owed = 1 then ⟨Char.ofNat bits :: d.read, none⟩
      else ⟨d.read, some ⟨p.owed - 1, 0x80, 0xBF, bits⟩⟩
    else begin (replacement :: d.read) b

/-- Close a character that is still begun when the bytes end. -/
def Decoding.finish (d : Decoding) : List Char :=
  match d.begun with
  | none => d.read.reverse
  | some _ => (replacement :: d.read).reverse

/-- **Read bytes as UTF-8**, with a replacement character for each broken run. -/
def decodeLossy (bytes : List UInt8) : List Char :=
  (bytes.foldl Decoding.step {}).finish

/-- **Read bytes that are UTF-8**: those that come out again when what was read
is written. -/
def decode? (bytes : List UInt8) : Option (List Char) :=
  let text := decodeLossy bytes
  if encode text = bytes then some text else none

end Rota.Text
