/-!
# Kinds of characters

Values of decimal and hexadecimal digits, and the decimal writing of a number
with a least number of places.

Blanks are the characters with the Unicode property `White_Space`. A message
that holds nothing else says nothing, and some texts are read after the blanks
in front of them were dropped.
-/

namespace Rota.Text

/-! ## Digits -/

/-- Is this one of the ten decimal digits of ASCII? -/
def isDigit (c : Char) : Bool :=
  '0' ≤ c && c ≤ '9'

/-- The value of a decimal digit. -/
def digit? (c : Char) : Option Nat :=
  if isDigit c then some (c.toNat - '0'.toNat) else none

/-- The value of a hexadecimal digit, in either case. -/
def hexDigit? (c : Char) : Option Nat :=
  if isDigit c then some (c.toNat - '0'.toNat)
  else if 'a' ≤ c && c ≤ 'f' then some (c.toNat - 'a'.toNat + 10)
  else if 'A' ≤ c && c ≤ 'F' then some (c.toNat - 'A'.toNat + 10)
  else none

/-- The number that a run of digits of the given base stands for; characters
that are no digits count as zero. -/
def ofDigits (base : Nat) (digits : List Char) : Nat :=
  digits.foldl (fun n c => n * base + (hexDigit? c).getD 0) 0

/-- The hexadecimal digit of a value below sixteen. -/
def hexDigit (upper : Bool) (n : Nat) : Char :=
  if n < 10 then Char.ofNat ('0'.toNat + n)
  else if upper then Char.ofNat ('A'.toNat + (n - 10))
  else Char.ofNat ('a'.toNat + (n - 10))

/-- A number in decimal, with zeros in front up to `width` places. -/
def padded (width n : Nat) : String :=
  let digits := Nat.toDigits 10 n
  String.ofList (List.replicate (width - digits.length) '0' ++ digits)

/-! ## Blanks -/

/-- The ranges of code points with the property `White_Space`, in order. -/
def blankRanges : List (Nat × Nat) :=
  [(0x09, 0x0D), (0x20, 0x20), (0x85, 0x85), (0xA0, 0xA0), (0x1680, 0x1680),
   (0x2000, 0x200A), (0x2028, 0x2029), (0x202F, 0x202F), (0x205F, 0x205F), (0x3000, 0x3000)]

/-- **A blank character**: one with the Unicode property `White_Space`. -/
def isBlank (c : Char) : Bool :=
  blankRanges.any fun (low, high) => low ≤ c.toNat && c.toNat ≤ high

/-- The text without the blanks in front of it. -/
def dropBlanks (text : List Char) : List Char :=
  text.dropWhile isBlank

/-- Is every character of the text blank? The empty text is blank too. -/
def allBlank (text : String) : Bool :=
  text.toList.all isBlank

end Rota.Text
