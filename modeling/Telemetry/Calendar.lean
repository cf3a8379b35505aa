/-! The Gregorian calendar, with days counted from the first day of year 1. -/

namespace Telemetry

structure Date where
  year : Nat
  month : Nat
  day : Nat
  deriving DecidableEq

namespace Calendar

def isLeap (year : Nat) : Bool :=
  year % 4 = 0 && (year % 100 ≠ 0 || year % 400 = 0)

def daysInMonth (year : Nat) : Nat → Nat
  | 2 => if isLeap year then 29 else 28
  | 4 | 6 | 9 | 11 => 30
  | _ => 31

def daysBeforeYear (year : Nat) : Nat :=
  let past := year - 1
  past * 365 + past / 4 - past / 100 + past / 400

def daysBeforeMonth (year : Nat) : Nat → Nat
  | 0 | 1 => 0
  | month + 2 => daysBeforeMonth year (month + 1) + daysInMonth year (month + 1)

def lastYear : Nat := 9999

def IsDate (date : Date) : Prop :=
  1 ≤ date.year ∧ date.year ≤ lastYear ∧ 1 ≤ date.month ∧ date.month ≤ 12 ∧
    1 ≤ date.day ∧ date.day ≤ daysInMonth date.year date.month

instance (date : Date) : Decidable (IsDate date) :=
  inferInstanceAs (Decidable (_ ∧ _))

/-- How many days lie before a date. -/
def dayNumber (date : Date) : Nat :=
  daysBeforeYear date.year + daysBeforeMonth date.year date.month + (date.day - 1)

def dayCount : Nat :=
  daysBeforeYear (lastYear + 1)

/-- The last month, counting down from `month`, that starts on the day of the year or before. -/
def monthOf (year dayOfYear : Nat) : Nat → Nat
  | 0 => 1
  | month + 1 =>
    if daysBeforeMonth year (month + 1) ≤ dayOfYear then month + 1
    else monthOf year dayOfYear month

/-- The date with a given number of days before it: whole spans of 400, 100, 4 and 1 years are
taken off in turn, where the last year of a span may have one day more. -/
def dateOf (number : Nat) : Date :=
  let in400 := number % 146097
  let centuries := min (in400 / 36524) 3
  let in100 := in400 - centuries * 36524
  let in4 := in100 % 1461
  let years := min (in4 / 365) 3
  let year := number / 146097 * 400 + centuries * 100 + in100 / 1461 * 4 + years + 1
  let dayOfYear := in4 - years * 365
  let month := monthOf year dayOfYear 12
  ⟨year, month, dayOfYear - daysBeforeMonth year month + 1⟩

end Calendar

end Telemetry
