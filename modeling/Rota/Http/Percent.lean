import Rota.Text.Characters

/-!
# Percent escapes

Characters that must not stand in an address or a form are written as the bytes
of their UTF-8, each as a percent sign and two hexadecimal digits. Undoing the
escapes gives bytes back, which need not be UTF-8.
-/

namespace Rota.Http

/-- **The escape of a byte.** -/
def escape (b : UInt8) : List Char :=
  ['%', Text.hexDigit true (b.toNat / 16), Text.hexDigit true (b.toNat % 16)]

/-- **Escape a text**: all characters but those of ASCII that may stay. -/
def escapeText (mayStay : Char → Bool) (text : List Char) : List Char :=
  text.flatMap fun c =>
    if c.toNat < 0x80 && mayStay c then [c] else (String.utf8EncodeChar c).flatMap escape

/-- The value of a byte that is a hexadecimal digit. -/
def hexByte? (b : UInt8) : Option Nat :=
  if b.toNat < 0x80 then Text.hexDigit? (Char.ofNat b.toNat) else none

/-- Undo the escapes in front of which `done` was read, last byte first. A
percent sign that begins no escape stands for itself. -/
def unescapeFrom (done : List UInt8) : List UInt8 → List UInt8
  | [] => done.reverse
  | b :: rest =>
    if b = 0x25 then
      match rest with
      | high :: low :: behind =>
        match hexByte? high, hexByte? low with
        | some h, some l => unescapeFrom (.ofNat (16 * h + l) :: done) behind
        | _, _ => unescapeFrom (b :: done) (high :: low :: behind)
      | rest => unescapeFrom (b :: done) rest
    else unescapeFrom (b :: done) rest
  termination_by bytes => bytes.length

/-- **Undo percent escapes.** -/
def unescape (bytes : List UInt8) : List UInt8 :=
  unescapeFrom [] bytes

end Rota.Http
