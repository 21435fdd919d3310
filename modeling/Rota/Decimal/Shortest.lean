import Rota.Decimal.Binary64
import Rota.Text.Characters

/-!
# The shortest decimal

The decimal text of a binary fraction has as few digits as still read back as
the same number, and of those that few digits the nearest to it. For one, two,
… seventeen digits the two neighbours of the value on the decimal grid of that
many digits are tried, in exact arithmetic; the first grid that has a point
close enough wins.
-/

namespace Rota.Decimal

/-- **A positive rational interval**, with a value in it, over one denominator:
the values that are read back as this number. -/
structure Interval where
  low : Nat
  value : Nat
  high : Nat
  denominator : Nat
  /-- Do the ends belong to it? -/
  closed : Bool
  deriving Repr

namespace Interval

/-- Does the fraction `n / d` lie in the interval? -/
def contains (i : Interval) (n d : Nat) : Bool :=
  if i.closed then
    i.low * d ≤ n * i.denominator && n * i.denominator ≤ i.high * d
  else
    i.low * d < n * i.denominator && n * i.denominator < i.high * d

/-- The numbers that round to the finite number `x`. The gap below a power of
two is half as wide as the one above it. -/
def of (x : Binary64) : Interval :=
  let (m, q) := x.parts
  let below := if x.fractionField = 0 ∧ 1 < x.exponentField then 1 else 2
  let scale := if 0 ≤ q then Nat.pow 2 q.toNat else 1
  { low := (4 * m - below) * scale
    value := 4 * m * scale
    high := (4 * m + 2) * scale
    denominator := if 0 ≤ q then 4 else 4 * Nat.pow 2 (-q).toNat
    closed := m % 2 = 0 }

end Interval

/-- **A decimal**: digits times a power of ten. -/
structure Digits where
  digits : Nat
  exponent : Int
  deriving DecidableEq, Repr, Inhabited

/-- The power of ten as a fraction. -/
def tenPower (e : Int) : Nat × Nat :=
  if 0 ≤ e then (Nat.pow 10 e.toNat, 1) else (1, Nat.pow 10 (-e).toNat)

/-- The point of the grid `10 ^ e` that lies in the interval, if one of the
two neighbours of its value does: the nearer one, and the even one of two that
are equally near. -/
def Interval.onGrid? (i : Interval) (e : Int) : Option Digits :=
  let (num, den) := tenPower e
  let step := num * i.denominator
  let d := i.value * den / step
  let rest := i.value * den % step
  let fits (d : Nat) : Bool := d != 0 && i.contains (d * num) den
  let upFirst := step < 2 * rest || (2 * rest == step && d % 2 == 1)
  let first := if upFirst then d + 1 else d
  let second := if upFirst then d else d + 1
  if fits first then some ⟨first, e⟩ else if fits second then some ⟨second, e⟩ else none

/-- The power of ten of the first digit, searched downward from `e`. -/
def leadingPower (i : Interval) : Nat → Int → Int
  | 0, e => e
  | fuel + 1, e =>
    let (num, den) := tenPower e
    if num * i.denominator ≤ i.value * den then e else leadingPower i fuel (e - 1)

/-- The first grid with a fitting point, from coarse to fine. -/
def firstGrid (i : Interval) : Nat → Int → Digits
  | 0, e => ⟨i.value / i.denominator, e⟩
  | fuel + 1, e => (i.onGrid? e).getD (firstGrid i fuel (e - 1))

/-- Move the zeros at the end of the digits into the power of ten. -/
def Digits.trim : Nat → Digits → Digits
  | 0, d => d
  | fuel + 1, d =>
    if d.digits ≠ 0 ∧ d.digits % 10 = 0 then
      Digits.trim fuel ⟨d.digits / 10, d.exponent + 1⟩
    else d

/-- **The shortest decimal** of the absolute value of a finite number that is
not zero. -/
def shortest (x : Binary64) : Digits :=
  let i := Interval.of x
  (firstGrid i 17 (leadingPower i 640 309)).trim 20

/-- **How a number is written out**: plain while its first digit stands from
the fifth place behind the point up to the sixteenth before it, with a
fraction in any case, and otherwise with a power of ten. -/
def numberText (x : Binary64) : String :=
  let sign := if x.isNegative then "-" else ""
  let (m, _) := x.parts
  if m = 0 then sign ++ "0.0"
  else
    let d := shortest x
    let digits := Nat.toDigits 10 d.digits
    -- the number of digits before the point
    let whole : Int := digits.length + d.exponent
    if 0 ≤ d.exponent ∧ whole ≤ 16 then
      sign ++ String.ofList (digits ++ List.replicate d.exponent.toNat '0') ++ ".0"
    else if 0 < whole ∧ whole ≤ 16 then
      sign ++ String.ofList (digits.take whole.toNat) ++ "."
        ++ String.ofList (digits.drop whole.toNat)
    else if -5 < whole ∧ whole ≤ 0 then
      sign ++ "0." ++ String.ofList (List.replicate (-whole).toNat '0' ++ digits)
    else
      let power := whole - 1
      let mark := if power < 0 then "e-" else "e+"
      let fraction := if digits.length = 1 then ""
        else "." ++ String.ofList (digits.drop 1)
      sign ++ String.ofList (digits.take 1) ++ fraction ++ mark ++ toString power.natAbs

end Rota.Decimal
