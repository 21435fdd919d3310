/-!
# Punycode

Names of hosts are written in ASCII. A label with other characters is written
as its ASCII characters, followed by a run of digits of base 36 that tells
which other characters stand where: the characters are inserted in the order
of their code points, and each number tells how far to go on from the last
insertion. The weight of the digits adapts to the numbers met so far.
-/

namespace Rota.Text.Punycode

/-- The digit of a value below 36. -/
def digit (n : Nat) : Char :=
  if n < 26 then Char.ofNat ('a'.toNat + n) else Char.ofNat ('0'.toNat + (n - 26))

/-- The threshold of the digit at a position, given the bias. -/
def threshold (position bias : Nat) : Nat :=
  max 1 (min 26 (position - bias))

theorem threshold_pos (position bias : Nat) : 1 ≤ threshold position bias := by
  unfold threshold; omega

theorem threshold_le (position bias : Nat) : threshold position bias ≤ 26 := by
  unfold threshold; omega

/-- **The digits of a number**, least weight first. -/
def number (bias position n : Nat) : List Char :=
  let t := threshold position bias
  if n < t then [digit n]
  else digit (t + (n - t) % (36 - t)) :: number bias (position + 36) ((n - t) / (36 - t))
  termination_by n
  decreasing_by
    have h₁ := threshold_pos position bias
    have h₂ := threshold_le position bias
    exact Nat.lt_of_le_of_lt (Nat.div_le_self _ _) (by omega)

/-- Bring a distance down to a size for which the bias is known. -/
def reduce (k delta : Nat) : Nat × Nat :=
  if 455 < delta then reduce (k + 36) (delta / 35) else (k, delta)
  termination_by delta
  decreasing_by exact Nat.div_lt_self (by omega) (by omega)

/-- **The bias after a number**, given how many characters there are now. -/
def adapt (delta count : Nat) (isFirst : Bool) : Nat :=
  let delta := if isFirst then delta / 700 else delta / 2
  let (k, delta) := reduce 0 (delta + delta / count)
  k + 36 * delta / (delta + 38)

/-- How far the writing has got. -/
structure Progress where
  /-- The digits written, last first. -/
  written : List Char := []
  /-- The distance from the last insertion. -/
  delta : Nat := 0
  bias : Nat := 72
  /-- The number of characters placed so far. -/
  placed : Nat

/-- Go past one character of the text while inserting those with the code point
`point`. -/
def pass (basic point : Nat) (p : Progress) (c : Char) : Progress :=
  if c.toNat < point then { p with delta := p.delta + 1 }
  else if c.toNat = point then
    { written := (number p.bias 36 p.delta).reverse ++ p.written
      delta := 0
      bias := adapt p.delta (p.placed + 1) (p.placed == basic)
      placed := p.placed + 1 }
  else p

/-- Insert the characters of each of the code points, in ascending order. -/
def insertAll (text : List Char) (basic : Nat) : Nat → Progress → List Nat → Progress
  | _, p, [] => p
  | reached, p, point :: rest =>
    let p := { p with delta := p.delta + (point - reached) * (p.placed + 1) }
    let p := text.foldl (pass basic point) p
    insertAll text basic (point + 1) { p with delta := p.delta + 1 } rest

/-- **A text in ASCII.** -/
def encode (text : List Char) : List Char :=
  let basic := text.filter (·.toNat < 0x80)
  let others := (text.filter (0x80 ≤ ·.toNat)).map Char.toNat
  let points := (others.mergeSort fun a b => decide (a ≤ b)).eraseDups
  let p := insertAll text basic.length 0x80 { placed := basic.length } points
  basic ++ (if basic.isEmpty then [] else ['-']) ++ p.written.reverse

end Rota.Text.Punycode
