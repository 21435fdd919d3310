import Rota.Proofs.Text.Decimal
import Rota.Time.Reading

/-!
# Instants in texts

The text of an instant is read back as this instant (`ofText?_text`). Every number of it
has its places filled with zeros, so a reader that takes as many digits as there may be
stops where the number ends; the fraction has the digits that are needed, and what was
left out of it are zeros.
-/

namespace Rota.Time

open Text (IsNumeral Stops isNumeral_padded ofDigits_padded length_padded le_length_padded)

/-! ## Blanks -/

theorem not_isBlank_of_isDigit {c : Char} (h : Text.isDigit c = true) :
    Text.isBlank c = false := by
  have hc : 48 ≤ c.toNat ∧ c.toNat ≤ 57 := by
    rw [Text.isDigit, Bool.and_eq_true, decide_eq_true_eq, decide_eq_true_eq] at h
    exact h
  simp only [Text.isBlank, Text.blankRanges, List.any_cons, List.any_nil, Bool.or_false,
    Bool.or_eq_false_iff, Bool.and_eq_false_iff, decide_eq_false_iff_not]
  omega

theorem dropBlanks_cons {c : Char} {rest : List Char} (h : Text.isBlank c = false) :
    Text.dropBlanks (c :: rest) = c :: rest :=
  List.dropWhile_cons_of_neg (by simp [h])

/-- No blanks are in front of a number. -/
theorem dropBlanks_numeral {run rest : List Char} (h : IsNumeral run) (hr : run ≠ []) :
    Text.dropBlanks (run ++ rest) = run ++ rest := by
  cases run with
  | nil => exact absurd rfl hr
  | cons c run => exact dropBlanks_cons (not_isBlank_of_isDigit (h c (List.mem_cons_self ..)))

/-! ## Days -/

theorem daysIn_le (year : Int) (month : Nat) : daysIn year month ≤ 31 := by
  unfold daysIn
  repeat' split
  all_goals decide

theorem daysIn_of_lt {month : Nat} (year : Int) (h : 12 < month) : daysIn year month = 0 := by
  unfold daysIn
  split <;> first | rfl | omega

theorem Date.day_lt (d : Date) : d.day < 100 := by
  have hday := d.isDay.2.2.2
  have hle := daysIn_le d.year d.month
  omega

theorem Date.month_lt (d : Date) : d.month < 100 := by
  have hday := d.isDay.2.2
  refine Nat.lt_of_not_le fun hm => ?_
  rw [daysIn_of_lt d.year (by omega)] at hday
  omega

/-! ## The parts of a text -/

section Parts

variable {n : Nat} (rest : List Char)

theorem padded_ne_nil {width : Nat} (h : 0 < width) : (Text.padded width n).toList ≠ [] := by
  intro hnil
  have hle := le_length_padded width n
  rw [hnil] at hle
  exact absurd hle (by simp; omega)

/-- A number of two places is read in full. -/
theorem shortNumber_padded (h : n < 100) :
    Piece.shortNumber ((Text.padded 2 n).toList ++ rest) = some (n, rest) := by
  have hlen : (Text.padded 2 n).toList.length = 2 := length_padded (by decide) h
  unfold Piece.shortNumber
  rw [dropBlanks_numeral (isNumeral_padded 2 n) (padded_ne_nil (by decide)),
    Text.Piece.digits_of_length (isNumeral_padded 2 n) (by omega) hlen, ofDigits_padded]

theorem blankThen_cons {c : Char} (h : Text.isBlank c = false) :
    Piece.blankThen c (c :: rest) = some ((), rest) := by
  unfold Piece.blankThen
  rw [dropBlanks_cons h]
  exact if_pos rfl

/-- A number without a sign is a year of up to four digits. -/
theorem signedYear_of_isNumeral {run : List Char} (h : IsNumeral run) (hr : run ≠ []) :
    Piece.signedYear (run ++ rest)
      = (Text.Piece.digits 1 (some 4) (run ++ rest)).map fun (n, rest) => ((n : Int), rest) := by
  cases run with
  | nil => exact absurd rfl hr
  | cons c run =>
    have hc := h c (List.mem_cons_self ..)
    unfold Piece.signedYear
    split
    · next heq =>
      rw [(List.cons.inj heq).1] at hc
      exact absurd hc (by decide)
    · next heq =>
      rw [(List.cons.inj heq).1] at hc
      exact absurd hc (by decide)
    · rfl

/-- **A year** is read back, with its sign if it has one. -/
theorem signedYear_yearText (year : Int) :
    Piece.signedYear ((Timestamp.yearText year).toList ++ '-' :: rest)
      = some (year, '-' :: rest) := by
  have hpad := isNumeral_padded 4
  have hsigned : ∀ n, Text.Piece.digits 1 none ((Text.padded 4 n).toList ++ '-' :: rest)
      = some (n, '-' :: rest) := fun n => by
    have hle := le_length_padded 4 n
    rw [Text.Piece.digits_of_stops (hpad n) (by omega) (Text.stops_cons (by decide)),
      ofDigits_padded]
  unfold Timestamp.yearText
  split
  · next hyear =>
    have hlen : (Text.padded 4 year.toNat).toList.length = 4 :=
      length_padded (by decide) (by omega)
    rw [signedYear_of_isNumeral _ (hpad _) (padded_ne_nil (by decide)),
      Text.Piece.digits_of_length (hpad _) (by omega) hlen, ofDigits_padded]
    exact congrArg (fun y => some (y, _)) (Int.toNat_of_nonneg hyear.1)
  · split
    · next hyear =>
      have hneg : (-(year.natAbs : Int)) = year := by omega
      rw [String.toList_append, show ("-" : String).toList = ['-'] from rfl]
      simp only [List.cons_append, List.nil_append, Piece.signedYear, hsigned, Option.map_some,
        hneg]
    · next hyear =>
      have hpos : (year.natAbs : Int) = year := by omega
      rw [String.toList_append, show ("+" : String).toList = ['+'] from rfl]
      simp only [List.cons_append, List.nil_append, Piece.signedYear, hsigned, Option.map_some,
        hpos]

/-- A fraction of at most nine places is read in full, and filled up to nine. -/
theorem fraction_padded {rest : List Char} {places : Nat} (hpos : 0 < places) (hle : places ≤ 9)
    (hn : n < 10 ^ places) (hr : Stops rest) :
    Piece.fraction ('.' :: ((Text.padded places n).toList ++ rest))
      = some (n * Nat.pow 10 (9 - places), rest) := by
  have hlen : (Text.padded places n).toList.length = places := length_padded hpos hn
  have hrun : (((Text.padded places n).toList ++ rest).take 9).takeWhile Text.isDigit
      = (Text.padded places n).toList := by
    rw [List.take_append, List.take_of_length_le (by omega)]
    exact Text.takeWhile_isDigit (isNumeral_padded _ _) (hr.take _)
  rw [Piece.fraction, hrun, if_neg (by simpa using padded_ne_nil hpos), List.drop_left, hlen,
    ofDigits_padded]
  dsimp only
  rw [hr.dropWhile, ite_self]

/-- **A fraction of a second** is read back, with the zeros that were left out. -/
theorem fraction_fractionText {rest : List Char} (h : n < 1000000000) (hr : Stops rest)
    (hdot : rest.head? ≠ some '.') :
    Piece.fraction ((Timestamp.fractionText n).toList ++ rest) = some (n, rest) := by
  have hdots : ∀ text : String, ("." ++ text).toList = '.' :: text.toList := fun text => by
    rw [String.toList_append]
    rfl
  unfold Timestamp.fractionText
  split
  · next hzero =>
    subst hzero
    cases rest with
    | nil => rfl
    | cons c rest =>
      have hc : c ≠ '.' := fun hc => hdot (congrArg some hc)
      rw [show ("" : String).toList = [] from rfl, List.nil_append]
      unfold Piece.fraction
      split
      · next heq => exact absurd (List.cons.inj heq).1 hc
      · rfl
  · split
    · rw [hdots, List.cons_append, fraction_padded (by decide) (by decide) (by omega) hr]
      exact congrArg (fun k => some (k, rest)) (show n / 1000000 * 1000000 = n by omega)
    · split
      · rw [hdots, List.cons_append, fraction_padded (by decide) (by decide) (by omega) hr]
        exact congrArg (fun k => some (k, rest)) (show n / 1000 * 1000 = n by omega)
      · rw [hdots, List.cons_append, fraction_padded (by decide) (by decide) (by omega) hr]
        exact congrArg (fun k => some (k, rest)) (Nat.mul_one n)

end Parts

/-! ## The whole text -/

namespace Timestamp

/-- A clock that shows UTC shows the instant itself. -/
theorem ahead?_zero (t : Timestamp) : t.ahead? 0 = some t := by
  have hh := t.hour_lt
  have hm := t.minute_lt
  have htotal : ((t.hour * 60 + t.minute : Nat) : Int).toNat = t.hour * 60 + t.minute := rfl
  unfold ahead?
  dsimp only
  rw [Int.add_zero, if_neg (by omega), if_neg (by omega), htotal, Option.bind_some,
    show (t.hour * 60 + t.minute) / 60 = t.hour by omega,
    show (t.hour * 60 + t.minute) % 60 = t.minute by omega]
  exact dif_pos ⟨hh, hm, t.second_le, t.nano_lt⟩

theorem ofReading?_self (t : Timestamp) :
    ofReading? t.date.year t.date.month t.date.day t.hour t.minute t.second t.nano 0 = some t := by
  have hof : of? t.date t.hour t.minute t.second t.nano = some t :=
    dif_pos ⟨t.hour_lt, t.minute_lt, t.second_le, t.nano_lt⟩
  unfold ofReading?
  rw [Date.of?_fields, Option.bind_eq_bind, Option.bind_some, hof, Option.bind_eq_bind,
    Option.bind_some]
  exact t.ahead?_zero

theorem dropBlanks_yearText (year : Int) (rest : List Char) :
    Text.dropBlanks ((yearText year).toList ++ rest) = (yearText year).toList ++ rest := by
  unfold yearText
  split
  · exact dropBlanks_numeral (isNumeral_padded _ _) (padded_ne_nil (by decide))
  · split
    · rw [String.toList_append]
      exact dropBlanks_cons (by decide)
    · rw [String.toList_append]
      exact dropBlanks_cons (by decide)

theorem toList_textWith (offset : String) (t : Timestamp) :
    (t.textWith offset).toList
      = (yearText t.date.year).toList ++ '-' :: ((Text.padded 2 t.date.month).toList
        ++ '-' :: ((Text.padded 2 t.date.day).toList
        ++ 'T' :: ((Text.padded 2 t.hour).toList
        ++ ':' :: ((Text.padded 2 t.minute).toList
        ++ ':' :: ((Text.padded 2 t.second).toList
        ++ ((fractionText t.nano).toList ++ offset.toList)))))) := by
  unfold textWith
  simp

/-- **The text of an instant is read back** as this instant. -/
theorem ofText?_text (t : Timestamp) : ofText? t.text = some t := by
  have hhour := t.hour_lt
  have hminute := t.minute_lt
  have hsecond := t.second_le
  have hnano : Piece.fraction ((fractionText t.nano).toList ++ ['Z']) = some (t.nano, ['Z']) :=
    fraction_fractionText t.nano_lt (Text.stops_cons (by decide)) (by decide)
  unfold ofText? text
  rw [toList_textWith, dropBlanks_yearText, signedYear_yearText,
    show ("Z" : String).toList = ['Z'] from rfl]
  simp only [Option.bind_eq_bind, Option.bind_some, blankThen_cons _ (c := '-') (by decide),
    blankThen_cons _ (c := ':') (by decide), Piece.dateMark,
    shortNumber_padded _ t.date.month_lt, shortNumber_padded _ t.date.day_lt,
    shortNumber_padded _ (by omega : t.hour < 100),
    shortNumber_padded _ (by omega : t.minute < 100),
    shortNumber_padded _ (by omega : t.second < 100), hnano]
  exact t.ofReading?_self

end Timestamp

end Rota.Time
