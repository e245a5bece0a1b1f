import WideColumn.Numeral
/-!
Dates of the Gregorian calendar, extended without end in both directions, as counts of days since 1970.
-/

namespace WideColumn

/-- A day by year, month and day of the month; years before the year 1 are zero and below. -/
structure Date where
  year : Int
  month : Nat
  day : Nat
  deriving DecidableEq

namespace Date

/-- Whether a year has a 29th of February. -/
def isLeap (year : Int) : Bool :=
  decide (year % 4 = 0) && (decide (year % 100 ≠ 0) || decide (year % 400 = 0))

/-- Days of a month, zero for a number that is no month. -/
def monthLength (year : Int) (month : Nat) : Nat :=
  if month = 2 then (if isLeap year then 29 else 28)
  else if month = 4 ∨ month = 6 ∨ month = 9 ∨ month = 11 then 30
  else if 1 ≤ month ∧ month ≤ 12 then 31
  else 0

/-- Whether the date is one of the calendar. -/
def isValid (d : Date) : Bool := decide (1 ≤ d.day) && decide (d.day ≤ monthLength d.year d.month)

/-- Days since 1970. Years are counted from March, so that a leap day ends its year. -/
def dayNumber (d : Date) : Int :=
  let year := if d.month ≤ 2 then d.year - 1 else d.year
  let month : Int := if d.month ≤ 2 then d.month + 9 else d.month - 3
  365 * year + year / 4 - year / 100 + year / 400 + (153 * month + 2) / 5 + d.day - 719469

/-- The date of a day number. Four centuries have 146097 days; of the centuries in them the last, and of the
years in a group of four the last, is a day longer. -/
def ofDayNumber (n : Int) : Date :=
  let days := n + 719468
  let era := days / 146097
  let inEra := days % 146097
  let yearInEra := (inEra - inEra / 1460 + inEra / 36524 - inEra / 146096) / 365
  let inYear := inEra - (365 * yearInEra + yearInEra / 4 - yearInEra / 100)
  let month := (5 * inYear + 2) / 153
  let day := inYear - (153 * month + 2) / 5 + 1
  let year := yearInEra + era * 400
  if month < 10 then ⟨year, (month + 3).toNat, day.toNat⟩ else ⟨year + 1, (month - 9).toNat, day.toNat⟩

end Date

end WideColumn
