import Rota.Proofs.Time.Exchange

/-!
# Instants in stored rows

A stored row names an instant in the strict form: four digits of year, two of everything
else, and an offset. It is read back as this instant if its year has four digits
(`ofStored?_storedText`). A year of any other length is written with its sign, and no
strict reader takes that for an instant (`ofStored?_eq_none`).
-/

namespace Rota.Time

open Text (IsNumeral isNumeral_padded ofDigits_padded length_padded)

/-- A number of two places is read as its two digits. -/
theorem twoDigits_padded {n : Nat} (h : n < 100) (rest : List Char) :
    Text.Piece.twoDigits ((Text.padded 2 n).toList ++ rest) = some (n, rest) := by
  have hrun := isNumeral_padded 2 n
  have hvalue := ofDigits_padded 2 n
  have hlen : (Text.padded 2 n).toList.length = 2 := length_padded (by decide) h
  obtain ⟨a, b, hab⟩ := List.length_eq_two.1 hlen
  rw [hab] at hrun hvalue ⊢
  have ha := hrun a (by simp)
  have hb := hrun b (by simp)
  simp only [Text.ofDigits, List.foldl_cons, List.foldl_nil, Text.hexDigit?_of_isDigit ha,
    Text.hexDigit?_of_isDigit hb, Option.getD_some] at hvalue
  rw [List.cons_append, List.cons_append, List.nil_append, Text.Piece.twoDigits,
    Text.digit?_of_isDigit ha, Text.digit?_of_isDigit hb]
  exact congrArg (fun k => some (k, rest)) (by omega)

theorem exactly_cons (c : Char) (rest : List Char) :
    Text.Piece.exactly c (c :: rest) = some ((), rest) :=
  if_pos rfl

namespace Timestamp

/-- **Is the year one of four digits?** -/
def HasPlainYear (t : Timestamp) : Prop :=
  0 ≤ t.date.year ∧ t.date.year ≤ 9999

instance (t : Timestamp) : Decidable t.HasPlainYear :=
  inferInstanceAs (Decidable (_ ∧ _))

/-- A year of four digits is read in full, whatever comes next. -/
theorem digits_yearText {t : Timestamp} (h : t.HasPlainYear) (rest : List Char) :
    Text.Piece.digits 4 (some 4) ((yearText t.date.year).toList ++ rest)
      = some (t.date.year.toNat, rest) := by
  have hlt : t.date.year.toNat < 10 ^ 4 := by
    have hle := h.2
    omega
  have hlen : (Text.padded 4 t.date.year.toNat).toList.length = 4 := length_padded (by decide) hlt
  unfold HasPlainYear at h
  unfold yearText
  rw [if_pos h, Text.Piece.digits_of_length (isNumeral_padded 4 _) (Nat.le_of_eq hlen.symm) hlen,
    ofDigits_padded]

/-- **The stored text of an instant is read back** as this instant, if its year has four
digits. -/
theorem ofStored?_storedText {t : Timestamp} (h : t.HasPlainYear) :
    ofStored? t.storedText = some t := by
  have hhour := t.hour_lt
  have hminute := t.minute_lt
  have hsecond := t.second_le
  have hnano : Piece.fraction ((fractionText t.nano).toList ++ ("+00:00" : String).toList)
      = some (t.nano, ("+00:00" : String).toList) :=
    fraction_fractionText t.nano_lt (Text.stops_cons (by decide)) (by decide)
  have hoffset : Piece.offset (Text.Piece.exactly ':') ("+00:00" : String).toList
      = some (0, []) := by
    decide
  have hyear : (t.date.year.toNat : Int) = t.date.year := Int.toNat_of_nonneg h.1
  unfold ofStored? storedText
  rw [toList_textWith, digits_yearText h]
  simp only [Option.bind_eq_bind, Option.bind_some, exactly_cons, Piece.dateMark,
    twoDigits_padded t.date.month_lt, twoDigits_padded t.date.day_lt,
    twoDigits_padded (by omega : t.hour < 100), twoDigits_padded (by omega : t.minute < 100),
    twoDigits_padded (by omega : t.second < 100), hnano, hoffset, List.isEmpty_nil, if_true, hyear]
  exact t.ofReading?_self

/-- **A year of another length** cannot be read. -/
theorem ofStored?_eq_none {t : Timestamp} (h : ¬ t.HasPlainYear) :
    ofStored? t.storedText = none := by
  -- the text begins with a sign, which is no digit
  have hsign : ∃ c rest, Text.isDigit c = false ∧ t.storedText.toList = c :: rest := by
    unfold HasPlainYear at h
    unfold storedText
    rw [toList_textWith, yearText, if_neg h]
    split
    · rw [String.toList_append]
      exact ⟨'-', _, rfl, rfl⟩
    · rw [String.toList_append]
      exact ⟨'+', _, rfl, rfl⟩
  obtain ⟨c, rest, hc, htext⟩ := hsign
  unfold ofStored?
  rw [htext]
  unfold Text.Piece.digits
  simp [hc]

end Timestamp

end Rota.Time
