/-!
# The calendar

Dates of the proleptic Gregorian calendar in the years 1 to 9999, counted in days
from the first of January 1970. A date may be written by month and day or by week
and weekday.
-/

namespace LeadDesk

namespace Calendar

/-- A leap year. -/
def isLeap (year : Nat) : Bool := year % 4 = 0 ∧ (year % 100 ≠ 0 ∨ year % 400 = 0)

/-- The number of days of a month. -/
def daysInMonth (year month : Nat) : Nat :=
  if month = 2 then (if isLeap year then 29 else 28)
  else if month = 4 ∨ month = 6 ∨ month = 9 ∨ month = 11 then 30 else 31

/-- The number of days before a year, counted from the first of January of year 1. -/
def daysBeforeYear (year : Nat) : Nat :=
  let y := year - 1
  y * 365 + y / 4 - y / 100 + y / 400

/-- The number of days before a month within its year. -/
def daysBeforeMonth (year month : Nat) : Nat :=
  (List.range (month - 1)).foldl (fun days m => days + daysInMonth year (m + 1)) 0

/-- Days from the first of January of year 1 to the first of January 1970. -/
def epochDays : Nat := 719162

/-- Days from the first of January 1970 to a date. -/
def dayNumber (year month day : Nat) : Int :=
  (daysBeforeYear year + daysBeforeMonth year month + (day - 1) : Nat) - (epochDays : Int)

/-- The month and the day of the `n`th day of a year, from zero. Months left to look at are
counted down. -/
def monthAndDay (year : Nat) : Nat → Nat → Nat → Nat × Nat
  | 0, month, n => (month, n + 1)
  | left + 1, month, n =>
    let size := daysInMonth year month
    if n < size then (month, n + 1) else monthAndDay year left (month + 1) (n - size)

/-- Year, month and day of a day number. -/
def dateOfDay (days : Int) : Nat × Nat × Nat :=
  let n := (days + epochDays).toNat
  let centuries4 := n / 146097
  let n := n % 146097
  let centuries := min (n / 36524) 3
  let n := n - centuries * 36524
  let years4 := n / 1461
  let n := n % 1461
  let years := min (n / 365) 3
  let n := n - years * 365
  let year := centuries4 * 400 + centuries * 100 + years4 * 4 + years + 1
  let (month, day) := monthAndDay year 11 1 n
  (year, month, day)

/-- The weekday of a day number, Monday being zero. -/
def weekday (days : Int) : Nat := ((days + 3) % 7).toNat

/-- The day number of the Monday that starts week one of a year. The week with the year's first
Thursday is week one. -/
def weekOneMonday (year : Nat) : Int :=
  let first := dayNumber year 1 1
  let shift := weekday first
  let monday := first - shift
  if shift > 3 then monday + 7 else monday

/-- The day number of a weekday, from one, in a week of a year, when the year has that week. -/
def dayOfWeek? (year week day : Nat) : Option Int :=
  let first := weekday (dayNumber year 1 1)
  let hasWeek53 := first = 3 ∨ (first = 2 ∧ isLeap year)
  let weekOk := (1 ≤ week ∧ week ≤ 52) ∨ (week = 53 ∧ hasWeek53)
  if weekOk ∧ 1 ≤ day ∧ day ≤ 7 then
    some (weekOneMonday year + ((week - 1) * 7 + (day - 1) : Nat))
  else none

end Calendar

end LeadDesk
