import Rota.Text.Piece
import Rota.Time.Timestamp

/-!
# Reading timestamps

Two readers of RFC 3339 text. `ofStored?` takes the strict form that
`Timestamp.storedText` writes, with any offset. `ofText?` is generous: it also
takes blanks between the parts, years with a sign, `UTC` for the offset, and
numbers with fewer digits.
-/

namespace Rota.Time

open Text (Piece)

namespace Piece

open Text.Piece

/-- The mark between date and time: `T` in either case, or a space. -/
def dateMark : Piece Unit
  | 'T' :: rest | 't' :: rest | ' ' :: rest => some ((), rest)
  | _ => none

/-- **A fraction of a second** behind its point, in nanoseconds. Digits behind
the ninth are passed over; without a point the fraction is zero. -/
def fraction : Piece Nat
  | '.' :: rest =>
    let run := (rest.take 9).takeWhile Text.isDigit
    if run.isEmpty then none
    else
      let behind := rest.drop run.length
      let behind := if run.length = 9 then behind.dropWhile Text.isDigit else behind
      some (Text.ofDigits 10 run * Nat.pow 10 (9 - run.length), behind)
  | text => some (0, text)

/-- **An offset from UTC**, in minutes: `Z`, or a sign, two digits of hours and
two of minutes, with `between` reading what stands between them. -/
def offset (between : Piece Unit) : Piece Int
  | 'Z' :: rest | 'z' :: rest => some (0, rest)
  | c :: rest => do
    let sign : Int ← if c = '+' then some 1
      else if c = '-' ∨ c = Char.ofNat 0x2212 then some (-1)
      else none
    let (hours, rest) ← twoDigits rest
    let ((), rest) ← between rest
    let (minutes, rest) ← twoDigits rest
    if hours < 24 ∧ minutes < 60 then
      some (sign * (hours * 60 + minutes : Nat), rest)
    else none
  | [] => none

/-- Any number of colons and blanks. -/
def colonsAndBlanks : Piece Unit := fun text =>
  some ((), text.dropWhile fun c => c = ':' || Text.isBlank c)

/-- A year: up to four digits, or a sign and any number of digits. -/
def signedYear : Piece Int
  | '-' :: rest => (digits 1 none rest).map fun (n, rest) => (-(n : Int), rest)
  | '+' :: rest => (digits 1 none rest).map fun (n, rest) => ((n : Int), rest)
  | text => (digits 1 (some 4) text).map fun (n, rest) => ((n : Int), rest)

/-- The offset in the generous form: `UTC`, in any case, stands for zero. -/
def generousOffset : Piece Int
  | text@(a :: b :: c :: rest) =>
    if a.toUpper = 'U' ∧ b.toUpper = 'T' ∧ c.toUpper = 'C' then some (0, rest)
    else offset colonsAndBlanks text
  | text => offset colonsAndBlanks text

/-- A number of one or two digits, behind any blanks. -/
def shortNumber : Piece Nat := fun text =>
  digits 1 (some 2) (Text.dropBlanks text)

/-- This character, behind any blanks. -/
def blankThen (c : Char) : Piece Unit := fun text =>
  exactly c (Text.dropBlanks text)

end Piece

namespace Timestamp

/-- The instant at which a clock with this offset shows these numbers. -/
def ofReading? (year : Int) (month day hour minute second nano : Nat) (offset : Int) :
    Option Timestamp := do
  let date ← Date.of? year month day
  let shown ← of? date hour minute second nano
  shown.ahead? (-offset)

/-- **Read the strict form**: four digits of year, two of everything else. -/
def ofStored? (text : String) : Option Timestamp := do
  let (year, rest) ← Text.Piece.digits 4 (some 4) text.toList
  let ((), rest) ← Text.Piece.exactly '-' rest
  let (month, rest) ← Text.Piece.twoDigits rest
  let ((), rest) ← Text.Piece.exactly '-' rest
  let (day, rest) ← Text.Piece.twoDigits rest
  let ((), rest) ← Piece.dateMark rest
  let (hour, rest) ← Text.Piece.twoDigits rest
  let ((), rest) ← Text.Piece.exactly ':' rest
  let (minute, rest) ← Text.Piece.twoDigits rest
  let ((), rest) ← Text.Piece.exactly ':' rest
  let (second, rest) ← Text.Piece.twoDigits rest
  let (nano, rest) ← Piece.fraction rest
  let (offset, rest) ← Piece.offset (Text.Piece.exactly ':') rest
  if rest.isEmpty then ofReading? year month day hour minute second nano offset else none

/-- **Read the generous form.** -/
def ofText? (text : String) : Option Timestamp := do
  let (year, rest) ← Piece.signedYear (Text.dropBlanks text.toList)
  let ((), rest) ← Piece.blankThen '-' rest
  let (month, rest) ← Piece.shortNumber rest
  let ((), rest) ← Piece.blankThen '-' rest
  let (day, rest) ← Piece.shortNumber rest
  let ((), rest) ← Piece.dateMark rest
  let (hour, rest) ← Piece.shortNumber rest
  let ((), rest) ← Piece.blankThen ':' rest
  let (minute, rest) ← Piece.shortNumber rest
  let ((), rest) ← Piece.blankThen ':' rest
  let (second, rest) ← Piece.shortNumber rest
  let (nano, rest) ← Piece.fraction rest
  let (offset, rest) ← Piece.generousOffset (Text.dropBlanks rest)
  if (Text.dropBlanks rest).isEmpty then
    ofReading? year month day hour minute second nano offset
  else none

end Timestamp

end Rota.Time
