import Rota.Text.Characters

/-!
# Pieces of a text

A reader of a piece takes it from the front of a text, and yields its value and
the characters behind it; there is no result if the text does not begin with
such a piece.
-/

namespace Rota.Text

/-- **A reader of one piece** of a text. -/
abbrev Piece (α : Type) := List Char → Option (α × List Char)

namespace Piece

/-- From `least` to `most` decimal digits, as many as there are; without a
`most`, any number of them. -/
def digits (least : Nat) (most : Option Nat) : Piece Nat := fun text =>
  let window := match most with
    | some n => text.take n
    | none => text
  let run := window.takeWhile isDigit
  if run.length < least then none
  else some (ofDigits 10 run, text.drop run.length)

/-- Exactly this character. -/
def exactly (c : Char) : Piece Unit
  | d :: rest => if d = c then some ((), rest) else none
  | [] => none

/-- Two decimal digits. -/
def twoDigits : Piece Nat
  | a :: b :: rest =>
    match digit? a, digit? b with
    | some m, some n => some (10 * m + n, rest)
    | _, _ => none
  | _ => none

/-- A piece that may be missing. -/
def orNothing {α : Type} (piece : Piece α) : Piece (Option α) := fun text =>
  match piece text with
  | some (a, rest) => some (some a, rest)
  | none => some (none, text)

end Piece

end Rota.Text
