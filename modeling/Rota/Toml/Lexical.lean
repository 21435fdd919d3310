import Rota.Text.Piece
import Rota.Time.Date

/-!
# Words of TOML

Blanks and comments, quoted texts, numbers and dates, each as a reader of one
piece of a text.
-/

namespace Rota.Toml.Lexical

open Text (Piece)

/-- May the character stand in a comment or a quoted text? All may but control
characters, of which only the tab may. -/
def isPlain (c : Char) : Bool :=
  c = '\t' || (0x20 ≤ c.toNat && c.toNat != 0x7F)

/-- A blank within a line. -/
def isSpace (c : Char) : Bool :=
  c = ' ' || c = '\t'

/-- The text without the blanks in front of it. -/
def skipSpace (text : List Char) : List Char :=
  text.dropWhile isSpace

/-- **The rest of a line**: blanks, and perhaps a comment. Yields the lines
behind it. -/
def endLine (inComment : Bool) : List Char → Option (List Char)
  | [] => some []
  | '\n' :: rest => some rest
  | '\r' :: '\n' :: rest => some rest
  | c :: rest =>
    if inComment then if isPlain c then endLine true rest else none
    else if isSpace c then endLine false rest
    else if c = '#' then endLine true rest
    else none

/-- **What may stand between the items of a list**: blanks, line ends, and
comments with their line ends. -/
def skipLines (inComment : Bool) : List Char → Option (List Char)
  | [] => if inComment then none else some []
  | '\n' :: rest => skipLines false rest
  | '\r' :: '\n' :: rest => skipLines false rest
  | c :: rest =>
    if inComment then if isPlain c then skipLines true rest else none
    else if isSpace c then skipLines false rest
    else if c = '#' then skipLines true rest
    else if c = '\r' then none
    else some (c :: rest)

/-! ## Quoted texts -/

/-- The character with this code point, if it is one. -/
def scalar? (n : Nat) : Option Char :=
  if n < 0xD800 ∨ (0xDFFF < n ∧ n ≤ 0x10FFFF) then some (Char.ofNat n) else none

/-- The character with a code point in so many hexadecimal digits. -/
def hexEscape (count : Nat) : Piece Char := fun text =>
  let digits := text.take count
  if digits.length = count ∧ digits.all (fun c => (Text.hexDigit? c).isSome) then
    (scalar? (Text.ofDigits 16 digits)).map fun c => (c, text.drop count)
  else none

/-- What follows a backslash. -/
def escaped : Piece Char
  | 'b' :: rest => some (Char.ofNat 8, rest)
  | 't' :: rest => some ('\t', rest)
  | 'n' :: rest => some ('\n', rest)
  | 'f' :: rest => some (Char.ofNat 12, rest)
  | 'r' :: rest => some ('\r', rest)
  | '"' :: rest => some ('"', rest)
  | '\\' :: rest => some ('\\', rest)
  | 'u' :: rest => hexEscape 4 rest
  | 'U' :: rest => hexEscape 8 rest
  | _ => none

/-- Behind a backslash that ends a line: the blanks and line ends up to the
next text. -/
def skipFold (seenLine : Bool) : List Char → Option (List Char)
  | '\n' :: rest => skipFold true rest
  | '\r' :: '\n' :: rest => skipFold true rest
  | c :: rest =>
    if isSpace c then skipFold seenLine rest
    else if seenLine then some (c :: rest) else none
  | [] => if seenLine then some [] else none

/-- The quotes at the front of a text, up to five of them. -/
def quotesAhead (quote : Char) (text : List Char) : Nat :=
  ((text.take 5).takeWhile (· = quote)).length

/-- **The inside of a quoted text**, up to behind its closing quotes. A text
over several lines ends with three quotes, before which one or two more may
stand as characters of it. `done` holds the characters read, last first. -/
def quoted (quote : Char) (escapes lines : Bool) : Nat → List Char → Piece String
  | 0, _, _ => none
  | fuel + 1, done, text =>
    match text with
    | [] => none
    | c :: rest =>
      if c = quote then
        if !lines then some (String.ofList done.reverse, rest)
        else
          let count := quotesAhead quote text
          if 3 ≤ count then
            some (String.ofList (List.replicate (count - 3) quote ++ done).reverse,
              text.drop count)
          else quoted quote escapes lines fuel (List.replicate count quote ++ done)
            (text.drop count)
      else if c = '\\' ∧ escapes then
        match if lines then skipFold false rest else none with
        | some rest => quoted quote escapes lines fuel done rest
        | none =>
          match escaped rest with
          | some (e, rest) => quoted quote escapes lines fuel (e :: done) rest
          | none => none
      else if c = '\n' ∧ lines then quoted quote escapes lines fuel ('\n' :: done) rest
      else if c = '\r' ∧ lines ∧ rest.head? = some '\n' then
        quoted quote escapes lines fuel ('\n' :: done) (rest.drop 1)
      else if isPlain c then quoted quote escapes lines fuel (c :: done) rest
      else none

/-- A line end right behind the opening quotes does not belong to the text. -/
def dropLine : List Char → List Char
  | '\n' :: rest => rest
  | '\r' :: '\n' :: rest => rest
  | text => text

/-- A quoted text on one line. -/
def quotedLine : Piece String
  | '"' :: rest => quoted '"' true false (rest.length + 1) [] rest
  | '\'' :: rest => quoted '\'' false false (rest.length + 1) [] rest
  | _ => none

/-- **A quoted text** of any kind. -/
def quotedText : Piece String
  | '"' :: '"' :: '"' :: rest => quoted '"' true true (rest.length + 1) [] (dropLine rest)
  | '\'' :: '\'' :: '\'' :: rest => quoted '\'' false true (rest.length + 1) [] (dropLine rest)
  | text => quotedLine text

/-! ## Names -/

/-- May the character stand in a name without quotes? -/
def isBare (c : Char) : Bool :=
  c.isAlphanum || c = '-' || c = '_'

/-- One part of a dotted name. -/
def simpleName (text : List Char) : Option (String × List Char) :=
  match text with
  | '"' :: _ | '\'' :: _ => quotedLine text
  | _ =>
    let run := text.takeWhile isBare
    if run.isEmpty then none else some (String.ofList run, text.drop run.length)

/-- The parts of a dotted name, with blanks around each. -/
def dottedParts : Nat → List String → Piece (List String)
  | 0, _, _ => none
  | fuel + 1, done, text => do
    let (name, rest) ← simpleName (skipSpace text)
    match skipSpace rest with
    | '.' :: rest => dottedParts fuel (name :: done) rest
    | rest => some ((name :: done).reverse, rest)

/-- Lists, tables and names may go less than this many levels deep. -/
def maxDepth : Nat := 80

/-- **A dotted name**: the names on the way, and the last one. -/
def dottedName : Piece (List String × String) := fun text => do
  let (names, rest) ← dottedParts (text.length + 1) [] text
  if maxDepth ≤ names.length then none
  let last ← names.getLast?
  return ((names.dropLast, last), rest)

/-! ## Numbers and dates -/

/-- Digits with single underscores between them. -/
def digitRun (isDigit : Char → Bool) (done : List Char) : Piece (List Char)
  | '_' :: c :: rest =>
    if done.isEmpty ∨ !isDigit c then none else digitRun isDigit (c :: done) rest
  | c :: rest =>
    if isDigit c then digitRun isDigit (c :: done) rest
    else if done.isEmpty then none
    else some (done.reverse, c :: rest)
  | [] => if done.isEmpty then none else some (done.reverse, [])

/-- The sign of a number, if it has one. -/
def sign : List Char → Bool × List Char
  | '-' :: rest => (true, rest)
  | '+' :: rest => (false, rest)
  | text => (false, text)

/-- The digits of a decimal number. A leading zero stands alone. -/
def wholeDigits : Piece (List Char)
  | '0' :: rest => some (['0'], rest)
  | text => digitRun Text.isDigit [] text

/-- The least number beyond the fractions, as the reader rounds them. -/
def fractionBound : Nat := Nat.pow 2 1024 - Nat.pow 2 970

/-- Is `digits · 10 ^ power` beyond the fractions? -/
def isBeyond (digits : List Char) (power : Int) : Bool :=
  let digits := digits.dropWhile (· = '0')
  let size : Int := digits.length + power
  if digits.isEmpty ∨ size < 300 then false
  else if 320 < size then true
  else
    let n := Text.ofDigits 10 digits
    if 0 ≤ power then fractionBound ≤ n * Nat.pow 10 power.toNat
    else fractionBound * Nat.pow 10 (-power).toNat ≤ n

/-- The power of ten behind its letter. -/
def power : Piece Int
  | c :: rest =>
    if c = 'e' ∨ c = 'E' then
      let (minus, rest) := sign rest
      (digitRun Text.isDigit [] rest).map fun (digits, rest) =>
        let n : Int := Text.ofDigits 10 digits
        (if minus then -n else n, rest)
    else none
  | [] => none

/-- **A fraction**: with a point, with a power of ten, or with both; or one of
the words for infinity and for no number. A fraction may not be too large, but
it may be too small. -/
def fraction : Piece Unit := fun text =>
  let (minus, rest) := sign text
  match rest with
  | 'i' :: 'n' :: 'f' :: rest => some ((), rest)
  | 'n' :: 'a' :: 'n' :: rest => some ((), rest)
  | _ => do
    let (whole, rest) ← wholeDigits rest
    let finish (behind : List Char) (e : Int) (rest : List Char) : Option (Unit × List Char) :=
      if !minus && isBeyond (whole ++ behind) (e - behind.length) then none
      else some ((), rest)
    match rest with
    | '.' :: rest =>
      let (behind, rest) ← digitRun Text.isDigit [] rest
      match rest with
      | c :: _ =>
        if c = 'e' ∨ c = 'E' then
          let (e, rest) ← power rest
          finish behind e rest
        else finish behind 0 rest
      | [] => finish behind 0 []
    | _ =>
      let (e, rest) ← power rest
      finish [] e rest

/-- A number of 64 bits with a sign, if it fits. -/
def fitting (n : Int) : Option Int :=
  if Int64.minValue.toInt ≤ n ∧ n ≤ Int64.maxValue.toInt then some n else none

/-- Digits of a base of two, eight or sixteen. -/
def basedDigits (base : Nat) : Piece Int := fun text => do
  let (digits, rest) ← digitRun (fun c => (Text.hexDigit? c).any (· < base)) [] text
  let n ← fitting (Text.ofDigits base digits)
  return (n, rest)

/-- **An integer.** -/
def integer : Piece Int
  | '0' :: 'x' :: rest => basedDigits 16 rest
  | '0' :: 'o' :: rest => basedDigits 8 rest
  | '0' :: 'b' :: rest => basedDigits 2 rest
  | text => do
    let (minus, rest) := sign text
    let (digits, rest) ← wholeDigits rest
    let n : Int := Text.ofDigits 10 digits
    let n ← fitting (if minus then -n else n)
    return (n, rest)

/-- A time of day. -/
def timeOfDay : Piece Unit := fun text => do
  let (hour, rest) ← Text.Piece.twoDigits text
  let ((), rest) ← Text.Piece.exactly ':' rest
  let (minute, rest) ← Text.Piece.twoDigits rest
  let ((), rest) ← Text.Piece.exactly ':' rest
  let (second, rest) ← Text.Piece.twoDigits rest
  if 24 ≤ hour ∨ 60 ≤ minute ∨ 60 < second then none
  match rest with
  | '.' :: c :: rest => if Text.isDigit c then some ((), rest.dropWhile Text.isDigit) else none
  | rest => some ((), rest)

/-- A day of the calendar. -/
def day : Piece Unit := fun text => do
  let (year, rest) ← Text.Piece.digits 4 (some 4) text
  let ((), rest) ← Text.Piece.exactly '-' rest
  let (month, rest) ← Text.Piece.twoDigits rest
  let ((), rest) ← Text.Piece.exactly '-' rest
  let (day, rest) ← Text.Piece.twoDigits rest
  let _ ← Time.Date.of? year month day
  return ((), rest)

/-- An offset from UTC, if there is one. -/
def offset : Piece Unit
  | 'Z' :: rest | 'z' :: rest => some ((), rest)
  | c :: rest =>
    if c = '+' ∨ c = '-' then do
      let (hour, rest) ← Text.Piece.twoDigits rest
      let ((), rest) ← Text.Piece.exactly ':' rest
      let (minute, rest) ← Text.Piece.twoDigits rest
      if 24 ≤ hour ∨ 60 ≤ minute then none
      return ((), rest)
    else some ((), c :: rest)
  | [] => some ((), [])

/-- **A date, a time, or both**, the latter perhaps with an offset. -/
def moment : Piece Unit := fun text =>
  match day text with
  | none => timeOfDay text
  | some ((), rest) =>
    match rest with
    | c :: behind =>
      if c = 'T' ∨ c = 't' ∨ c = ' ' then
        match timeOfDay behind with
        | some ((), rest) => offset rest
        | none => some ((), rest)
      else some ((), rest)
    | [] => some ((), [])

end Rota.Toml.Lexical
