import Reckoner.Time.Clock
/-!
Dates of the Gregorian calendar, extended to all years from -262143 to 262142, and counting days
between them. The day numbers count from the first of January of the year 1, which is day 0.
-/
namespace Reckoner

/-- Whether a year has a 29th of February. -/
def isLeapYear (year : Int) : Bool := year % 4 == 0 && (year % 100 != 0 || year % 400 == 0)

/-- The days of a month of a year. -/
def daysInMonth (year : Int) (month : Nat) : Nat :=
  if month = 2 then (if isLeapYear year then 29 else 28)
  else if month = 4 ∨ month = 6 ∨ month = 9 ∨ month = 11 then 30
  else 31

/-- Whether year, month and day are those of a date. -/
def isDate (year : Int) (month day : Nat) : Bool :=
  decide (-262143 ≤ year) && decide (year ≤ 262142) && decide (1 ≤ month) && decide (month ≤ 12) &&
    decide (1 ≤ day) && decide (day ≤ daysInMonth year month)

structure Date where
  year : Int
  month : Nat
  day : Nat
  isDate : isDate year month day = true
deriving DecidableEq, Repr

namespace Date

/-- The date with these parts, if there is one. -/
def ofParts? (year : Int) (month day : Nat) : Option Date :=
  if h : Reckoner.isDate year month day = true then some ⟨year, month, day, h⟩ else none

/-- The days before the first of January of a year. -/
def daysBeforeYear (year : Int) : Int :=
  365 * (year - 1) + (year - 1) / 4 - (year - 1) / 100 + (year - 1) / 400

/-- The days of a year before the first of a month. -/
def daysBeforeMonth (year : Int) : (month : Nat) → Nat
  | 0 => 0
  | 1 => 0
  | month + 1 => daysBeforeMonth year month + daysInMonth year month

/-- The number of a day. -/
def number (d : Date) : Int :=
  daysBeforeYear d.year + (daysBeforeMonth d.year d.month : Nat) + d.day - 1

/-- The year in which the day with this number lies. -/
def yearOf (n : Int) : Int :=
  let y := n * 400 / 146097 + 1
  if n < daysBeforeYear y then y - 1
  else if daysBeforeYear (y + 1) ≤ n then y + 1
  else y

/-- The month and the day of the month for the day `rest` days after the first of `month`, looking
at `fuel` further months. -/
def monthFrom (year : Int) (month rest : Nat) : Nat → Nat × Nat
  | 0 => (month, rest + 1)
  | fuel + 1 =>
    if rest < daysInMonth year month then (month, rest + 1)
    else monthFrom year (month + 1) (rest - daysInMonth year month) fuel

/-- The date of the day with this number, if its year is in range. -/
def ofNumber? (n : Int) : Option Date :=
  let year := yearOf n
  let p := monthFrom year 1 (n - daysBeforeYear year).toNat 11
  ofParts? year p.1 p.2

/-- The date so many days later (or earlier, below zero). -/
def shift (d : Date) (days : Int) : Except Error Date :=
  orError (ofNumber? (d.number + days)) (.overflow "date arithmetic")

/-- The whole days of a duration, cut toward zero. -/
def wholeDays (d : Duration) : Except Error Int := do
  let s ← d.seconds
  orError (s.dividedBy TimeUnit.day.length).toInt64? (.overflow "date arithmetic")

/-- The date a duration later. -/
def after (d : Date) (p : Duration) : Except Error Date := do
  let n ← wholeDays p
  d.shift n

/-- The date a duration earlier. -/
def before (d : Date) (p : Duration) : Except Error Date := do
  let n ← wholeDays p
  if TimeOfDay.countable (-n) then d.shift (-n) else .error (.overflow "date arithmetic")

/-- The days from `e` to `d`. -/
def since (d e : Date) : Duration := ⟨(Decimal.ofInt? (d.number - e.number)).getD .zero, .day⟩

end Date
end Reckoner
