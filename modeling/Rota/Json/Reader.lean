import Rota.Json.Document

/-!
# Reading JSON texts

A text is read into a `Document`. Nothing is refused: where the text stops
being JSON, the document says so, and what follows is not looked at.

Values nested deeper than `Document.maxDepth` are only skimmed, with a list of
the open brackets in place of recursion, so that the depth of a text costs no
depth of evaluation.
-/

namespace Rota.Document

/-- Is this one of the four blanks of JSON? -/
def isSpace (c : Char) : Bool :=
  c = ' ' || c = '\n' || c = '\t' || c = '\r'

/-- The text without the blanks in front of it. -/
def skipSpace (chars : List Char) : List Char :=
  chars.dropWhile isSpace

/-! ## Quoted texts -/

/-- **A quoted text in the making.** -/
structure Quoting where
  /-- The characters read, last first. -/
  read : List Char := []
  /-- The first half of a surrogate pair that waits for its second half. -/
  high : Option Nat := none
  /-- Was a surrogate found alone? -/
  alone : Bool := false

namespace Quoting

/-- Take a character. -/
def char (q : Quoting) (c : Char) : Quoting :=
  { read := c :: q.read, high := none, alone := q.alone || q.high.isSome }

/-- Take a unit of sixteen bits. -/
def unit (q : Quoting) (n : Nat) : Quoting :=
  if 0xDC00 ≤ n ∧ n ≤ 0xDFFF then
    match q.high with
    | some h =>
      { q with
        read := Char.ofNat (0x10000 + (h - 0xD800) * 0x400 + (n - 0xDC00)) :: q.read
        high := none }
    | none => { q with alone := true }
  else if 0xD800 ≤ n ∧ n ≤ 0xDBFF then
    { read := q.read, high := some n, alone := q.alone || q.high.isSome }
  else q.char (Char.ofNat n)

/-- The text, unless a surrogate stands alone in it. -/
def finish (q : Quoting) : Option String :=
  if q.alone || q.high.isSome then none else some (String.ofList q.read.reverse)

end Quoting

/-- The character that a letter behind a backslash stands for. -/
def escaped? : Char → Option Char
  | '"' => some '"'
  | '\\' => some '\\'
  | '/' => some '/'
  | 'b' => some (Char.ofNat 8)
  | 'f' => some (Char.ofNat 12)
  | 'n' => some '\n'
  | 'r' => some '\r'
  | 't' => some '\t'
  | _ => none

/-- The unit of sixteen bits with these four hexadecimal digits. -/
def hexUnit? (a b c d : Char) : Option Nat := do
  let a ← Text.hexDigit? a
  let b ← Text.hexDigit? b
  let c ← Text.hexDigit? c
  let d ← Text.hexDigit? d
  return ((a * 16 + b) * 16 + c) * 16 + d

/-- **Read a quoted text** from behind its opening quote to behind its closing
one. There is none if an escape is unknown, a control character stands in it,
or the closing quote is missing. -/
def readQuoted (q : Quoting) : List Char → Option (Option String × List Char)
  | [] => none
  | '"' :: rest => some (q.finish, rest)
  | '\\' :: 'u' :: a :: b :: c :: d :: rest =>
    match hexUnit? a b c d with
    | some n => readQuoted (q.unit n) rest
    | none => none
  | '\\' :: c :: rest =>
    match escaped? c with
    | some e => readQuoted (q.char e) rest
    | none => none
  | c :: rest => if c.toNat < 0x20 || c = '\\' then none else readQuoted (q.char c) rest

/-! ## Numbers -/

/-- The digits in front of the text, and what is behind them. -/
def spanDigits (chars : List Char) : List Char × List Char :=
  (chars.takeWhile Text.isDigit, chars.dropWhile Text.isDigit)

/-- The part of a number behind its point, if it has a point. -/
def readFraction : List Char → Option (Option (List Char) × List Char)
  | '.' :: rest =>
    let (digits, rest) := spanDigits rest
    if digits.isEmpty then none else some (some digits, rest)
  | chars => some (none, chars)

/-- A power of ten behind its sign. -/
def readPower (minus : Bool) (chars : List Char) : Option (Option Int × List Char) :=
  let (digits, rest) := spanDigits chars
  if digits.isEmpty then none
  else
    let n : Int := Text.ofDigits 10 digits
    some (some (if minus then -n else n), rest)

/-- The power of ten of a number, if it has one. -/
def readExponent : List Char → Option (Option Int × List Char)
  | c :: rest =>
    if c = 'e' ∨ c = 'E' then
      match rest with
      | '-' :: rest => readPower true rest
      | '+' :: rest => readPower false rest
      | rest => readPower false rest
    else some (none, c :: rest)
  | [] => some (none, [])

/-- **Read a number** behind its sign. A leading zero stands alone. -/
def readNumber (minus : Bool) (chars : List Char) : Option (Numeral × List Char) := do
  let (whole, rest) := spanDigits chars
  if whole.isEmpty ∨ (whole.head? = some '0' ∧ whole.length ≠ 1) then none
  let (behind, rest) ← readFraction rest
  let (power, rest) ← readExponent rest
  return (.ofParts minus whole behind power, rest)

/-! ## Values -/

/-- Read a value that is neither a list nor a record. -/
def readScalar : List Char → Option (Document × List Char)
  | 'n' :: 'u' :: 'l' :: 'l' :: rest => some (null, rest)
  | 't' :: 'r' :: 'u' :: 'e' :: rest => some (flag true, rest)
  | 'f' :: 'a' :: 'l' :: 's' :: 'e' :: rest => some (flag false, rest)
  | '"' :: rest => (readQuoted {} rest).map fun (s, rest) => (text s, rest)
  | '-' :: rest => (readNumber true rest).map fun (n, rest) => (number n, rest)
  | rest => (readNumber false rest).map fun (n, rest) => (number n, rest)

/-- The name of a member and the colon behind it, from behind the opening
quote. A missing colon leaves no rest. -/
def readName (chars : List Char) : Option (Option String × Option (List Char)) :=
  (readQuoted {} chars).map fun (name, rest) =>
    match skipSpace rest with
    | ':' :: rest => (name, some rest)
    | _ => (name, none)

/-- The kinds of bracket that can be open. -/
inductive Bracket where
  | square
  | curly

/-- What a skimming reader looks for next. -/
inductive Wanted where
  | value
  | name
  | next

/-- **Skim a value**: find its end without keeping anything of it. `opened`
holds the open brackets, innermost first. -/
def skim : Nat → Wanted → List Bracket → List Char → Option (List Char)
  | 0, _, _, _ => none
  | fuel + 1, .value, opened, chars =>
    match skipSpace chars with
    | '[' :: rest =>
      match skipSpace rest with
      | ']' :: rest => skim fuel .next opened rest
      | rest => skim fuel .value (.square :: opened) rest
    | '{' :: rest =>
      match skipSpace rest with
      | '}' :: rest => skim fuel .next opened rest
      | rest => skim fuel .name (.curly :: opened) rest
    | rest =>
      match readScalar rest with
      | some (_, rest) => skim fuel .next opened rest
      | none => none
  | fuel + 1, .name, opened, chars =>
    match skipSpace chars with
    | '"' :: rest =>
      match readName rest with
      | some (_, some rest) => skim fuel .value opened rest
      | _ => none
    | _ => none
  | fuel + 1, .next, opened, chars =>
    match opened with
    | [] => some chars
    | .square :: outer =>
      match skipSpace chars with
      | ',' :: rest => skim fuel .value opened rest
      | ']' :: rest => skim fuel .next outer rest
      | _ => none
    | .curly :: outer =>
      match skipSpace chars with
      | ',' :: rest => skim fuel .name opened rest
      | '}' :: rest => skim fuel .next outer rest
      | _ => none

/-- A value that was read, and what is behind it; nothing, if the text is
broken in it. -/
abbrev Found := Document × Option (List Char)

mutual

/-- **Read a value** at some depth of nesting. -/
def readValue : Nat → Nat → List Char → Found
  | 0, _, _ => (broken, none)
  | fuel + 1, depth, chars =>
    match skipSpace chars with
    | '[' :: rest =>
      if maxDepth ≤ depth + 1 then
        let after := skim (2 * chars.length + 2) .value [] chars
        (buried after.isSome, after)
      else match skipSpace rest with
        | ']' :: rest => (list [] true, some rest)
        | rest => readItems fuel (depth + 1) [] rest
    | '{' :: rest =>
      if maxDepth ≤ depth + 1 then
        let after := skim (2 * chars.length + 2) .value [] chars
        (buried after.isSome, after)
      else match skipSpace rest with
        | '}' :: rest => (record [] true, some rest)
        | rest => readMembers fuel (depth + 1) [] rest
    | rest =>
      match readScalar rest with
      | some (value, rest) => (value, some rest)
      | none => (broken, none)

/-- Read the items of a list; `done` holds those read, last first. -/
def readItems : Nat → Nat → List Document → List Char → Found
  | 0, _, done, _ => (list done.reverse false, none)
  | fuel + 1, depth, done, chars =>
    match readValue fuel depth chars with
    | (item, none) => (list (item :: done).reverse false, none)
    | (item, some rest) =>
      match skipSpace rest with
      | ',' :: rest => readItems fuel depth (item :: done) rest
      | ']' :: rest => (list (item :: done).reverse true, some rest)
      | _ => (list (item :: done).reverse false, none)

/-- Read the members of a record; `done` holds those read, last first. -/
def readMembers : Nat → Nat → List (Option String × Document) → List Char → Found
  | 0, _, done, _ => (record done.reverse false, none)
  | fuel + 1, depth, done, chars =>
    match skipSpace chars with
    | '"' :: rest =>
      match readName rest with
      | none => (record done.reverse false, none)
      | some (name, none) => (record ((name, broken) :: done).reverse false, none)
      | some (name, some rest) =>
        match readValue fuel depth rest with
        | (value, none) => (record ((name, value) :: done).reverse false, none)
        | (value, some rest) =>
          match skipSpace rest with
          | ',' :: rest => readMembers fuel depth ((name, value) :: done) rest
          | '}' :: rest => (record ((name, value) :: done).reverse true, some rest)
          | _ => (record ((name, value) :: done).reverse false, none)
    | _ => (record done.reverse false, none)

end

/-- **Read a text** as one value, and tell whether nothing but blanks is behind
it. Each step of the reader passes a character, so twice the length of the text
is fuel enough. -/
def ofText (text : String) : Document × Bool :=
  let chars := text.toList
  match readValue (2 * chars.length + 2) 0 chars with
  | (value, none) => (value, false)
  | (value, some rest) => (value, (skipSpace rest).isEmpty)

end Rota.Document
