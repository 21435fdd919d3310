import Rota.Text.Characters
import Rota.Time.Date

/-!
# Timestamps

Instants on the UTC time line, to the nanosecond, and their text by RFC 3339.
The text carries as many fraction digits as are needed, in groups of three, so
that it reads back as the same instant.
-/

namespace Rota.Time

/-- **An instant in UTC.** The second 60 is a leap second. -/
structure Timestamp where
  /-- The day. -/
  date : Date
  /-- Hours of the day. -/
  hour : Nat
  /-- Minutes of the hour. -/
  minute : Nat
  /-- Seconds of the minute. -/
  second : Nat
  /-- Nanoseconds of the second. -/
  nano : Nat := 0
  hour_lt : hour < 24 := by decide
  minute_lt : minute < 60 := by decide
  second_le : second ≤ 60 := by decide
  nano_lt : nano < 1000000000 := by decide
  deriving DecidableEq, Repr

namespace Timestamp

/-- The first instant of the year 1970. -/
def epoch : Timestamp := ⟨.epoch, 0, 0, 0, 0, by decide, by decide, by decide, by decide⟩

instance : Inhabited Timestamp := ⟨epoch⟩

/-- The instant with these numbers, if there is one. -/
def of? (date : Date) (hour minute second nano : Nat) : Option Timestamp :=
  if h : hour < 24 ∧ minute < 60 ∧ second ≤ 60 ∧ nano < 1000000000 then
    some ⟨date, hour, minute, second, nano, h.1, h.2.1, h.2.2.1, h.2.2.2⟩
  else none

/-- The same reading of a clock that is `minutes` ahead of this one. -/
def ahead? (t : Timestamp) (minutes : Int) : Option Timestamp :=
  let total : Int := (t.hour * 60 + t.minute : Nat) + minutes
  let ofDay (date : Option Date) (n : Int) : Option Timestamp :=
    date.bind fun d => of? d (n.toNat / 60) (n.toNat % 60) t.second t.nano
  if total < 0 then ofDay t.date.previous? (total + 1440)
  else if 1440 ≤ total then ofDay t.date.next? (total - 1440)
  else ofDay (some t.date) total

/-- A year in four digits; a year outside of 0 to 9999 also has its sign. -/
def yearText (year : Int) : String :=
  if 0 ≤ year ∧ year ≤ 9999 then Text.padded 4 year.toNat
  else if year < 0 then "-" ++ Text.padded 4 year.natAbs
  else "+" ++ Text.padded 4 year.natAbs

/-- **The fraction of a second**: none, or three, six or nine digits, the
fewest that lose nothing. -/
def fractionText (nano : Nat) : String :=
  if nano = 0 then ""
  else if nano % 1000000 = 0 then "." ++ Text.padded 3 (nano / 1000000)
  else if nano % 1000 = 0 then "." ++ Text.padded 6 (nano / 1000)
  else "." ++ Text.padded 9 nano

/-- The text of an instant, with the given mark for its offset. -/
def textWith (offset : String) (t : Timestamp) : String :=
  yearText t.date.year ++ "-" ++ Text.padded 2 t.date.month ++ "-" ++ Text.padded 2 t.date.day
    ++ "T" ++ Text.padded 2 t.hour ++ ":" ++ Text.padded 2 t.minute ++ ":"
    ++ Text.padded 2 t.second ++ fractionText t.nano ++ offset

/-- **The text of an instant** in exchanged values, marked as UTC by `Z`. -/
def text (t : Timestamp) : String :=
  t.textWith "Z"

/-- The text of an instant in stored rows, marked as UTC by a zero offset. -/
def storedText (t : Timestamp) : String :=
  t.textWith "+00:00"

end Timestamp

end Rota.Time
