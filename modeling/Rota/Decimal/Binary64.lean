/-!
# Binary fractions of 64 bits

Numbers in the 64-bit binary format: a sign, a significand of 53 bits and a
power of two. A value is kept as its bits, so that equality is equality of
what is stored, and its parts can be computed with exactly.

`scale?` forms a significand times a power of ten by a multiplication or a
division in this format. It rounds each step, so it is fast and not always the
nearest value; that is the reading of decimal fractions used here.
-/

namespace Rota.Decimal

/-- **A number of the 64-bit binary format**, by its bits. -/
structure Binary64 where
  bits : UInt64
  deriving DecidableEq, Repr, Inhabited

namespace Binary64

/-- The number as an operand of arithmetic. -/
def toFloat (x : Binary64) : Float :=
  Float.ofBits x.bits

/-- The result of arithmetic as a number. -/
def ofFloat (f : Float) : Binary64 :=
  ⟨f.toBits⟩

/-- Is the sign set? -/
def isNegative (x : Binary64) : Bool :=
  x.bits.toNat ≥ Nat.pow 2 63

/-- The number with the other sign. -/
def negate (x : Binary64) : Binary64 :=
  ⟨x.bits ^^^ 0x8000000000000000⟩

/-- The field that holds the power of two. -/
def exponentField (x : Binary64) : Nat :=
  x.bits.toNat / Nat.pow 2 52 % Nat.pow 2 11

/-- The field that holds the fraction. -/
def fractionField (x : Binary64) : Nat :=
  x.bits.toNat % Nat.pow 2 52

/-- **The absolute value as `m · 2 ^ q`**, for a finite number. -/
def parts (x : Binary64) : Nat × Int :=
  if x.exponentField = 0 then (x.fractionField, -1074)
  else (Nat.pow 2 52 + x.fractionField, (x.exponentField : Int) - 1075)

/-- A power of ten, rounded to the format. -/
def tenTo (n : Nat) : Float :=
  Float.ofScientific 1 false n

/-- The largest power of ten that the format holds. -/
def maxTen : Nat := 308

/-- Scale a value by a power of ten in steps that the format can take. There
is no result if the value grows out of range. -/
def scaleFrom : Nat → Float → Int → Option Float
  | 0, f, _ => some f
  | fuel + 1, f, exponent =>
    if exponent.natAbs ≤ maxTen then
      if 0 ≤ exponent then
        let scaled := f * tenTo exponent.natAbs
        if scaled.isInf then none else some scaled
      else some (f / tenTo exponent.natAbs)
    else if f == 0 then some f
    else if 0 ≤ exponent then none
    else scaleFrom fuel (f / tenTo maxTen) (exponent + maxTen)

/-- **A significand times a power of ten.** Dividing by the largest power of
ten turns any significand into zero within four steps. -/
def scale? (significand : Nat) (exponent : Int) : Option Binary64 :=
  (scaleFrom 6 significand.toUInt64.toFloat exponent).map ofFloat

end Binary64

end Rota.Decimal
