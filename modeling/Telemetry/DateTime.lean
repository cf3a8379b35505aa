import Telemetry.Calendar

/-!
Date-times with microseconds in years 1 to 9999. A date-time counts the microseconds on its own
clock and may carry the offset of that clock from UTC; one without an offset is read as UTC.
-/

namespace Telemetry

structure TimeOfDay where
  hour : Nat
  minute : Nat
  second : Nat
  micro : Nat
  deriving DecidableEq

namespace TimeOfDay

def microsPerMinute : Nat := 60000000
def microsPerDay : Nat := 86400000000

def IsTime (time : TimeOfDay) : Prop :=
  time.hour < 24 ∧ time.minute < 60 ∧ time.second < 60 ∧ time.micro < 1000000

instance (time : TimeOfDay) : Decidable (IsTime time) :=
  inferInstanceAs (Decidable (_ ∧ _))

/-- Microseconds since midnight. -/
def micros (time : TimeOfDay) : Nat :=
  ((time.hour * 60 + time.minute) * 60 + time.second) * 1000000 + time.micro

def ofMicros (n : Nat) : TimeOfDay :=
  ⟨n / 3600000000, n / 60000000 % 60, n / 1000000 % 60, n % 1000000⟩

end TimeOfDay

/-- How far a clock is ahead of UTC, in microseconds: less than a day either way. -/
structure UtcOffset where
  micros : Int
  within_day : micros.natAbs < TimeOfDay.microsPerDay := by decide
  deriving DecidableEq

namespace UtcOffset

def utc : UtcOffset := ⟨0, by decide⟩

def ofMinutes (minutes : Int) (within : minutes.natAbs < 1440) : UtcOffset where
  micros := minutes * TimeOfDay.microsPerMinute
  within_day := by
    simp only [TimeOfDay.microsPerMinute, TimeOfDay.microsPerDay]
    omega

end UtcOffset

structure DateTime where
  /-- Microseconds on the clock since the start of year 1. -/
  clock : Nat
  offset : Option UtcOffset
  in_range : clock < Calendar.dayCount * TimeOfDay.microsPerDay
  deriving DecidableEq

namespace DateTime

def date (t : DateTime) : Date :=
  Calendar.dateOf (t.clock / TimeOfDay.microsPerDay)

def time (t : DateTime) : TimeOfDay :=
  .ofMicros (t.clock % TimeOfDay.microsPerDay)

/-- A clock reading as a date-time, if it lies in the represented years. -/
def ofClock? (clock : Int) (offset : Option UtcOffset) : Option DateTime :=
  if h : 0 ≤ clock ∧ clock.toNat < Calendar.dayCount * TimeOfDay.microsPerDay then
    some ⟨clock.toNat, offset, h.2⟩
  else none

def ofParts? (date : Date) (time : TimeOfDay) (offset : Option UtcOffset) : Option DateTime :=
  if Calendar.IsDate date ∧ time.IsTime then
    ofClock? (Calendar.dayNumber date * TimeOfDay.microsPerDay + time.micros : Nat) offset
  else none

/-- Microseconds from the start of year 1 in UTC to the moment that is meant. -/
def instant (t : DateTime) : Int :=
  t.clock - t.offset.elim 0 UtcOffset.micros

/-- The same moment on a clock that shows UTC, if that lies in the represented years. -/
def toUtc? (t : DateTime) : Option DateTime :=
  ofClock? t.instant (some .utc)

/-- The same clock reading, taken as UTC if it has no offset. -/
def assumeUtc (t : DateTime) : DateTime :=
  { t with offset := some (t.offset.getD .utc) }

def unixEpoch : DateTime :=
  ⟨719162 * TimeOfDay.microsPerDay, some .utc, by decide⟩

end DateTime

end Telemetry
