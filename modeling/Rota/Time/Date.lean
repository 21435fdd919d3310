/-!
# Dates

Days of the proleptic Gregorian calendar. A `Date` is a year, a month and a day
that exist together, so reading one can fail but computing with it cannot
leave the calendar – except at its two ends, where there is no next or no
previous day to name.
-/

namespace Rota.Time

/-- The first and the last year that a date can have. -/
def firstYear : Int := -262143

@[inherit_doc firstYear]
def lastYear : Int := 262142

/-- **Leap years**: every fourth, but of the full centuries only every fourth. -/
def isLeap (year : Int) : Bool :=
  (year % 4 == 0 && year % 100 != 0) || year % 400 == 0

/-- The number of days of a month; zero for a number that names no month. -/
def daysIn (year : Int) (month : Nat) : Nat :=
  match month with
  | 1 | 3 | 5 | 7 | 8 | 10 | 12 => 31
  | 4 | 6 | 9 | 11 => 30
  | 2 => if isLeap year then 29 else 28
  | _ => 0

/-- Do these numbers name a day of the calendar? -/
def IsDay (year : Int) (month day : Nat) : Prop :=
  firstYear ≤ year ∧ year ≤ lastYear ∧ 1 ≤ day ∧ day ≤ daysIn year month

instance (year : Int) (month day : Nat) : Decidable (IsDay year month day) := by
  unfold IsDay; infer_instance

/-- **A day of the calendar.** -/
structure Date where
  /-- The year; year 0 comes before year 1. -/
  year : Int
  /-- The month, counted from one. -/
  month : Nat
  /-- The day of the month, counted from one. -/
  day : Nat
  isDay : IsDay year month day
  deriving DecidableEq, Repr

namespace Date

/-- The date with these numbers, if there is one. -/
def of? (year : Int) (month day : Nat) : Option Date :=
  if h : IsDay year month day then some ⟨year, month, day, h⟩ else none

/-- The first day of the year 1970. -/
def epoch : Date := ⟨1970, 1, 1, by decide⟩

instance : Inhabited Date := ⟨epoch⟩

@[simp] theorem of?_fields (d : Date) : of? d.year d.month d.day = some d := by
  simp [of?, d.isDay]

/-- The day after. -/
def next? (d : Date) : Option Date :=
  (of? d.year d.month (d.day + 1)).orElse fun _ =>
    (of? d.year (d.month + 1) 1).orElse fun _ => of? (d.year + 1) 1 1

/-- The day before. -/
def previous? (d : Date) : Option Date :=
  (of? d.year d.month (d.day - 1)).orElse fun _ =>
    (of? d.year (d.month - 1) (daysIn d.year (d.month - 1))).orElse fun _ =>
      of? (d.year - 1) 12 31

end Date

end Rota.Time
