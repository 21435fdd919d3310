import Mathlib.Algebra.Group.Nat.Defs
import Mathlib.Data.List.Basic
import Rota.Text.Piece

/-!
# Decimal writing, read back

A number in decimal is a run of digits that stands for this number, and so it is with
zeros in front of it. A reader that takes digits from the front of a text takes all of
them, and nothing behind them, if the next character is no digit (`Piece.digits_of_stops`)
or as many may be taken as there are (`Piece.digits_of_length`).
-/

namespace Rota.Text

/-- **Only digits.** -/
def IsNumeral (run : List Char) : Prop :=
  ∀ c ∈ run, isDigit c = true

theorem isDigit_eq (c : Char) : isDigit c = c.isDigit := by
  unfold isDigit Char.isDigit
  rfl

theorem ne_of_isDigit {c d : Char} (hc : isDigit c = true) (hd : isDigit d = false) : c ≠ d := by
  rintro rfl
  rw [hc] at hd
  cases hd

theorem digit?_of_isDigit {c : Char} (h : isDigit c = true) :
    digit? c = some (c.toNat - '0'.toNat) :=
  if_pos h

theorem hexDigit?_of_isDigit {c : Char} (h : isDigit c = true) :
    hexDigit? c = some (c.toNat - '0'.toNat) :=
  if_pos h

theorem isNumeral_toDigits (n : Nat) : IsNumeral (Nat.toDigits 10 n) := by
  intro c hc
  rw [isDigit_eq]
  exact Nat.isDigit_of_mem_toDigits (by decide) (by decide) hc

/-- A number begins with a digit. -/
theorem exists_toDigits (n : Nat) :
    ∃ c run, Nat.toDigits 10 n = c :: run ∧ isDigit c = true := by
  cases h : Nat.toDigits 10 n with
  | nil => exact absurd h Nat.toDigits_ne_nil
  | cons c run => exact ⟨c, run, rfl, isNumeral_toDigits n c (h ▸ List.mem_cons_self ..)⟩

theorem isNumeral_append {run more : List Char} :
    IsNumeral (run ++ more) ↔ IsNumeral run ∧ IsNumeral more :=
  List.forall_mem_append

theorem isNumeral_zeros (n : Nat) : IsNumeral (List.replicate n '0') := by
  intro c hc
  rw [List.eq_of_mem_replicate hc]
  decide

/-- The number that a run of digits stands for. -/
theorem ofDigits_eq {run : List Char} (h : IsNumeral run) :
    ofDigits 10 run = Nat.ofDigitChars 10 run 0 := by
  unfold ofDigits
  rw [Nat.ofDigitChars_eq_foldl]
  refine List.foldl_ext _ _ 0 fun n c hc => ?_
  rw [hexDigit?_of_isDigit (h c hc), Option.getD_some, Nat.mul_comm]

/-- Only zero begins with a zero. -/
theorem head?_toDigits {n : Nat} (h : n ≠ 0) : (Nat.toDigits 10 n).head? ≠ some '0' := by
  induction n using Nat.strongRecOn with
  | ind n ih =>
    by_cases hn : n < 10
    · have hdigit : ∀ d < 10, d ≠ 0 → [d.digitChar].head? ≠ some '0' := by decide
      rw [Nat.toDigits_of_lt_base hn]
      exact hdigit n hn h
    · rw [Nat.toDigits_of_base_le (by decide) (by omega),
        List.head?_append_of_ne_nil _ Nat.toDigits_ne_nil]
      exact ih (n / 10) (by omega) (by omega)

/-! ## Zeros in front -/

theorem toList_padded (width n : Nat) :
    (padded width n).toList
      = List.replicate (width - (Nat.toDigits 10 n).length) '0' ++ Nat.toDigits 10 n :=
  String.toList_ofList

theorem isNumeral_padded (width n : Nat) : IsNumeral (padded width n).toList := by
  rw [toList_padded, isNumeral_append]
  exact ⟨isNumeral_zeros _, isNumeral_toDigits n⟩

theorem ofDigits_padded (width n : Nat) : ofDigits 10 (padded width n).toList = n := by
  rw [ofDigits_eq (isNumeral_padded width n), toList_padded, Nat.ofDigitChars_append,
    Nat.ofDigitChars_replicate_zero, Nat.mul_zero, Nat.ofDigitChars_ten_toDigits]

theorem le_length_padded (width n : Nat) : width ≤ (padded width n).toList.length := by
  rw [toList_padded, List.length_append, List.length_replicate]
  omega

/-- A number that has room is written in exactly so many places. -/
theorem length_padded {width n : Nat} (hw : 0 < width) (hn : n < 10 ^ width) :
    (padded width n).toList.length = width := by
  have hlen : (Nat.toDigits 10 n).length ≤ width :=
    (Nat.length_toDigits_le_iff (by decide) hw).2 hn
  rw [toList_padded, List.length_append, List.length_replicate]
  omega

/-! ## Taking digits from the front -/

/-- The text does not go on with a digit. -/
def Stops (rest : List Char) : Prop :=
  ∀ c ∈ rest.head?, isDigit c = false

theorem stops_nil : Stops [] := by
  simp [Stops]

theorem stops_cons {c : Char} {rest : List Char} (h : isDigit c = false) : Stops (c :: rest) := by
  simp [Stops, h]

theorem Stops.take {rest : List Char} (h : Stops rest) (n : Nat) : Stops (rest.take n) := by
  intro c hc
  rw [List.head?_take] at hc
  split at hc
  · simp at hc
  · exact h c hc

theorem takeWhile_isDigit {run rest : List Char} (h : IsNumeral run) (hr : Stops rest) :
    (run ++ rest).takeWhile isDigit = run := by
  rw [List.takeWhile_append_of_pos h]
  cases rest with
  | nil => simp
  | cons c rest => rw [List.takeWhile_cons_of_neg (by simp [hr c rfl]), List.append_nil]

theorem Stops.dropWhile {rest : List Char} (hr : Stops rest) : rest.dropWhile isDigit = rest := by
  cases rest with
  | nil => rfl
  | cons c rest => exact List.dropWhile_cons_of_neg (by simp [hr c rfl])

theorem dropWhile_isDigit {run rest : List Char} (h : IsNumeral run) (hr : Stops rest) :
    (run ++ rest).dropWhile isDigit = rest := by
  rw [List.dropWhile_append_of_pos h, hr.dropWhile]

namespace Piece

/-- **A run of digits is taken as a whole** if the text does not go on with a digit. -/
theorem digits_of_stops {least : Nat} {run rest : List Char} (h : IsNumeral run)
    (hl : least ≤ run.length) (hr : Stops rest) :
    digits least none (run ++ rest) = some (ofDigits 10 run, rest) := by
  unfold digits
  dsimp only
  rw [takeWhile_isDigit h hr, if_neg (by omega), List.drop_left]

/-- As many digits are taken as there may be, whatever comes next. -/
theorem digits_of_length {least most : Nat} {run rest : List Char} (h : IsNumeral run)
    (hl : least ≤ run.length) (hm : run.length = most) :
    digits least (some most) (run ++ rest) = some (ofDigits 10 run, rest) := by
  have hrun : run.takeWhile isDigit = run := by
    rw [← List.append_nil run, takeWhile_isDigit h stops_nil, List.append_nil]
  subst hm
  unfold digits
  dsimp only
  rw [List.take_left, hrun, if_neg (by omega), List.drop_left]

end Piece

end Rota.Text
