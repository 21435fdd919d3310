import Rota.Decimal.Shortest

/-!
# Numbers in JSON texts

A number that stands in a JSON text is kept as what it can be read as: a
natural number of 64 bits, a negative one of 63, a binary fraction, or nothing
at all if it lies beyond the fractions.

A whole number with more digits than fit is read as a fraction. Its digits are
collected while they fit into 64 bits; each further digit only moves the power
of ten.
-/

namespace Rota

/-- **A number as it can be read.** -/
inductive Numeral where
  /-- A natural number below `2 ^ 64`. -/
  | natural (n : Nat)
  /-- The negative of a number from 1 up to `2 ^ 63`. -/
  | negative (n : Nat)
  /-- A binary fraction. -/
  | fraction (x : Decimal.Binary64)
  /-- A number too large for a fraction. -/
  | overflow
  deriving DecidableEq, Repr, Inhabited

namespace Numeral

/-- The number of values of a collected significand. -/
def significandBound : Nat := UInt64.size

/-- Collect the digits before the point: the significand, and the number of
digits that did not fit. -/
def collectWhole (digits : List Char) : Nat × Nat :=
  digits.foldl
    (fun (significand, dropped) c =>
      let grown := significand * 10 + (Text.digit? c).getD 0
      if dropped = 0 ∧ grown < significandBound then (grown, 0) else (significand, dropped + 1))
    (0, 0)

/-- Collect the digits behind the point: the significand, and the number of
digits that went into it. The first digit that does not fit ends it. -/
def collectFraction : Nat → Nat → List Char → Nat × Nat
  | significand, taken, [] => (significand, taken)
  | significand, taken, c :: rest =>
    let grown := significand * 10 + (Text.digit? c).getD 0
    if grown < significandBound then collectFraction grown (taken + 1) rest
    else (significand, taken)

/-- The fraction with this sign, significand and power of ten. -/
def ofScaled (minus : Bool) (significand : Nat) (power : Int) : Numeral :=
  match Decimal.Binary64.scale? significand power with
  | some x => fraction (if minus then x.negate else x)
  | none => overflow

/-- **The number with these parts**: a sign, the digits before the point, those
behind it, and the power of ten. -/
def ofParts (minus : Bool) (whole : List Char) (behind : Option (List Char))
    (power : Option Int) : Numeral :=
  let (significand, dropped) := collectWhole whole
  match behind, power with
  | none, none =>
    if dropped ≠ 0 then ofScaled minus significand dropped
    else if !minus then natural significand
    else if significand = 0 ∨ Nat.pow 2 63 < significand then ofScaled minus significand 0
    else negative significand
  | none, some e => ofScaled minus significand (dropped + e)
  | some digits, e =>
    let (significand, taken) := collectFraction significand 0 digits
    ofScaled minus significand (dropped - taken + e.getD 0)

/-- The text of a number, where it has one. -/
def text? : Numeral → Option String
  | natural n => some (toString n)
  | negative n => some ("-" ++ toString n)
  | fraction x => some (Decimal.numberText x)
  | overflow => none

end Numeral

end Rota
