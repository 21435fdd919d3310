import Rota.Http.Percent
import Rota.Text.Punycode
import Rota.Text.Utf8

/-!
# Hosts of addresses

A host is given by its name or its number, and every host has one written form:
names in small letters and in ASCII, numbers of 32 bits as four decimal parts,
numbers of 128 bits as hexadecimal pieces in brackets.
-/

namespace Rota.Http.Host

/-! ## Numbers of 32 bits -/

/-- Read a part of a number: hexadecimal behind `0x`, octal behind a zero, or
else decimal. -/
def numberPart? (text : List Char) : Option Nat :=
  let digits (base : Nat) (ds : List Char) : Option Nat :=
    if ds.all fun c => (Text.hexDigit? c).any (· < base) then some (Text.ofDigits base ds) else none
  match text with
  | [] => none
  | '0' :: 'x' :: ds | '0' :: 'X' :: ds => digits 16 ds
  | '0' :: d :: ds => digits 8 (d :: ds)
  | ds => digits 10 ds

/-- The parts of a host between its points; a point at the end ends nothing. -/
def parts (name : List Char) : List (List Char) :=
  let all := name.splitOn '.'
  if all.length > 1 ∧ all.getLast? = some [] then all.dropLast else all

/-- **Does a name end in a number?** Then it has to be a number as a whole. -/
def endsInNumber (name : List Char) : Bool :=
  match (parts name).getLast? with
  | none => false
  | some last => (!last.isEmpty && last.all Text.isDigit) || (numberPart? last).isSome

/-- **Read a number of 32 bits**: up to four parts, of which the last one fills
what the others leave. -/
def number? (name : List Char) : Option Nat := do
  let all := parts name
  if 4 < all.length then none
  let numbers ← all.mapM numberPart?
  let last ← numbers.getLast?
  let front := numbers.dropLast
  if front.all (· < 256) ∧ last < Nat.pow 256 (5 - numbers.length) then
    some (front.zipIdx.foldl (fun n (part, i) => n + part * Nat.pow 256 (3 - i)) last)
  else none

/-- The written form of a number of 32 bits. -/
def ofNumber (n : Nat) : String :=
  ".".intercalate ([3, 2, 1, 0].map fun i => toString (n / Nat.pow 256 i % 256))

/-! ## Numbers of 128 bits -/

/-- Read a piece of up to four hexadecimal digits. -/
def piece? (text : List Char) : Option Nat :=
  if 0 < text.length ∧ text.length ≤ 4 ∧ text.all fun c => (Text.hexDigit? c).isSome then
    some (Text.ofDigits 16 text)
  else none

/-- Read a part of four that stands in for two pieces: decimal, with no zero in
front. -/
def smallPart? (text : List Char) : Option Nat :=
  if 0 < text.length ∧ text.length ≤ 3 ∧ text.all Text.isDigit
      ∧ (text.length = 1 ∨ text.head? ≠ some '0') ∧ Text.ofDigits 10 text < 256 then
    some (Text.ofDigits 10 text)
  else none

/-- Read pieces between colons; four decimal parts may stand at the end if
`mayEnd` says so. -/
def pieces? (mayEnd : Bool) (text : List Char) : Option (List Nat) :=
  if text.isEmpty then some []
  else
    let all := text.splitOn ':'
    match all.getLast? with
    | some last =>
      if last.contains '.' then
        if !mayEnd then none
        else do
          let front ← all.dropLast.mapM piece?
          match ← (last.splitOn '.').mapM smallPart? with
          | [a, b, c, d] => some (front ++ [256 * a + b, 256 * c + d])
          | _ => none
      else all.mapM piece?
    | none => none

/-- **Read a number of 128 bits** as eight pieces; two colons together stand
for as many pieces of zero as are missing. -/
def pieces8? (text : List Char) : Option (List Nat) :=
  let joined := String.ofList text
  match joined.splitOn "::" with
  | [all] => do
    let ps ← pieces? true all.toList
    if ps.length = 8 then some ps else none
  | [front, behind] => do
    let f ← pieces? behind.isEmpty front.toList
    if behind.isEmpty ∧ front.contains '.' then none
    let b ← pieces? true behind.toList
    if f.length + b.length < 8 then
      some (f ++ List.replicate (8 - f.length - b.length) 0 ++ b)
    else none
  | _ => none

/-- The longest run of zeros, of two at least: where it begins, and its
length. -/
def zeroRun (pieces : List Nat) : Option (Nat × Nat) :=
  let runs := (List.range pieces.length).map fun i =>
    (i, ((pieces.drop i).takeWhile (· = 0)).length)
  runs.foldl (fun best (i, n) =>
    if 2 ≤ n ∧ best.all (·.2 < n) then some (i, n) else best) none

/-- The written form of a piece. -/
def ofPiece (n : Nat) : String :=
  String.ofList (Nat.toDigits 16 n)

/-- **The written form of eight pieces**: the first longest run of zeros is
left out. -/
def ofPieces (pieces : List Nat) : String :=
  let write (ps : List Nat) : String := ":".intercalate (ps.map ofPiece)
  match zeroRun pieces with
  | some (i, n) => "[" ++ write (pieces.take i) ++ "::" ++ write (pieces.drop (i + n)) ++ "]"
  | none => "[" ++ write pieces ++ "]"

/-! ## Names -/

/-- May a character not stand in the name of a host? -/
def isForbidden (c : Char) : Bool :=
  c.toNat ≤ 0x20 || c.toNat = 0x7F || "#/:<>?@[\\]^|%".toList.contains c

/-- The ranges of capital letters whose small letters follow at a fixed
distance, with that distance. -/
def capitals : List (Nat × Nat × Nat) :=
  [(0x41, 0x5A, 32), (0xC0, 0xD6, 32), (0xD8, 0xDE, 32), (0x391, 0x3A1, 32), (0x3A3, 0x3AB, 32),
   (0x400, 0x40F, 80), (0x410, 0x42F, 32)]

/-- The small letter of a capital one, of the Latin, Greek or Cyrillic
alphabet. -/
def small (c : Char) : Char :=
  match capitals.find? fun (low, high, _) => low ≤ c.toNat && c.toNat ≤ high with
  | some (_, _, distance) => Char.ofNat (c.toNat + distance)
  | none => c

/-- A label in ASCII. -/
def asciiLabel (label : List Char) : List Char :=
  if label.all (·.toNat < 0x80) then label else "xn--".toList ++ Text.Punycode.encode label

/-- **The written form of a name** in ASCII, unless something forbidden stands
in it. -/
def name? (text : List Char) : Option (List Char) :=
  let plain := Text.decodeLossy (unescape (Text.encode text))
  if plain.contains Text.replacement then none
  else
    let written := ['.'].intercalate (((plain.map small).splitOn '.').map asciiLabel)
    if written.isEmpty || written.any isForbidden then none else some written

/-- **The written form of a host.** -/
def ofText? (text : List Char) : Option String :=
  match text with
  | '[' :: rest =>
    if rest.getLast? = some ']' then (pieces8? rest.dropLast).map ofPieces else none
  | _ => do
    let name ← name? text
    if endsInNumber name then (number? name).map ofNumber else some (String.ofList name)

/-- **The written form of a host whose kind is not known**: it is only made
safe. -/
def ofForeignText? (text : List Char) : Option String :=
  match text with
  | '[' :: rest =>
    if rest.getLast? = some ']' then (pieces8? rest.dropLast).map ofPieces else none
  | _ =>
    if text.any fun c => "\x00\t\n\r #/:<>?@[\\]^|".toList.contains c then none
    else some (String.ofList (escapeText (fun c => 0x20 ≤ c.toNat && c.toNat ≠ 0x7F) text))

end Rota.Http.Host
