import Telemetry.Text.Blank
import Telemetry.Text.Digit
import Telemetry.Value.Literal

/-!
Timestamps as text: a date and a time of day, a fraction of any length, and an offset from UTC.
Reading keeps microseconds; writing gives UTC and no more digits than are needed.
-/

namespace Telemetry.Timestamp

open Text (isDigit isAsciiDigit)

inductive Fault where
  | notATimestamp (given : Value)
  | foreignDigits (text : List Char)
  | offsetOutOfRange (minutes : Int)
  | yearOutOfRange (year : Nat)
  | monthOutOfRange
  | dayOutOfRange
  | hourOutOfRange
  | minuteOutOfRange
  | secondOutOfRange
  deriving DecidableEq

def Fault.message : Fault → String
  | .notATimestamp given => given.literalText ++ " is not a valid RFC3339 timestamp"
  | .foreignDigits text => "Invalid isoformat string: " ++ String.ofList (Text.quoted text)
  | .offsetOutOfRange minutes =>
    "offset must be a timedelta strictly between -timedelta(hours=24) and timedelta(hours=24), " ++
      "not " ++ String.ofList (spanLiteral (minutes * TimeOfDay.microsPerMinute)) ++ "."
  | .yearOutOfRange year => "year " ++ toString year ++ " is out of range"
  | .monthOutOfRange => "month must be in 1..12"
  | .dayOutOfRange => "day is out of range for month"
  | .hourOutOfRange => "hour must be in 0..23"
  | .minuteOutOfRange => "minute must be in 0..59"
  | .secondOutOfRange => "second must be in 0..59"

/-! ### The written form -/

/-- A written offset: nothing and `Z` are UTC. -/
inductive Zone where
  | utc
  | shifted (behind : Bool) (hours minutes : List Char)
  deriving DecidableEq

/-- The parts of a timestamp as they are written, with digits of any script. -/
structure Written where
  year : List Char
  month : List Char
  day : List Char
  hour : List Char
  minute : List Char
  second : List Char
  fraction : List Char
  zone : Zone
  deriving DecidableEq

/-- Exactly `count` digits, and the text after them. -/
def takeDigits? : Nat → List Char → Option (List Char × List Char)
  | 0, cs => some ([], cs)
  | count + 1, c :: cs =>
    if isDigit c then (takeDigits? count cs).map fun found => (c :: found.1, found.2) else none
  | _ + 1, [] => none

/-- One character of a class, dropped. -/
def dropOne? (allowed : Char → Bool) : List Char → Option (List Char)
  | c :: cs => if allowed c then some cs else none
  | [] => none

def readZone? : List Char → Option Zone
  | [] | ['Z'] | ['z'] => some .utc
  | sign :: rest => do
    if sign ≠ '+' && sign ≠ '-' then none
    else
      let (hours, rest) ← takeDigits? 2 rest
      let rest ← dropOne? (· = ':') rest
      let (minutes, rest) ← takeDigits? 2 rest
      if rest.isEmpty then some (.shifted (sign = '-') hours minutes) else none

/-- A point must be followed by a digit. -/
def readFraction? : List Char → Option (List Char × List Char)
  | '.' :: rest =>
    let digits := rest.takeWhile isDigit
    if digits.isEmpty then none else some (digits, rest.dropWhile isDigit)
  | rest => some ([], rest)

/-- A date and a time with `T`, `t` or a space between them, a fraction and an offset. -/
def read? (cs : List Char) : Option Written := do
  let (year, cs) ← takeDigits? 4 cs
  let cs ← dropOne? (· = '-') cs
  let (month, cs) ← takeDigits? 2 cs
  let cs ← dropOne? (· = '-') cs
  let (day, cs) ← takeDigits? 2 cs
  let cs ← dropOne? (fun c => c = 'T' || c = 't' || c = ' ') cs
  let (hour, cs) ← takeDigits? 2 cs
  let cs ← dropOne? (· = ':') cs
  let (minute, cs) ← takeDigits? 2 cs
  let cs ← dropOne? (· = ':') cs
  let (second, cs) ← takeDigits? 2 cs
  let (fraction, cs) ← readFraction? cs
  let zone ← readZone? cs
  return ⟨year, month, day, hour, minute, second, fraction, zone⟩

/-! ### The meaning of the written form -/

/-- The first six digits of a fraction, zeros where there are fewer. -/
def microDigits (fraction : List Char) : List Char :=
  let kept := fraction.take 6
  kept ++ List.replicate (6 - kept.length) '0'

def Zone.digits : Zone → List Char
  | .utc => []
  | .shifted _ hours minutes => hours ++ minutes

def Zone.text : Zone → List Char
  | .utc => "+00:00".toList
  | .shifted behind hours minutes =>
    (if behind then '-' else '+') :: hours ++ ':' :: minutes

/-- The form with all its parts, fraction and offset included. -/
def Written.text (w : Written) : List Char :=
  w.year ++ '-' :: w.month ++ '-' :: w.day ++ 'T' :: w.hour ++ ':' :: w.minute ++
    ':' :: w.second ++ '.' :: microDigits w.fraction ++ w.zone.text

/-- The digits that count. Those of a fraction beyond the sixth do not. -/
def Written.digits (w : Written) : List Char :=
  w.year ++ w.month ++ w.day ++ w.hour ++ w.minute ++ w.second ++ microDigits w.fraction ++
    w.zone.digits

def number (digits : List Char) : Nat :=
  Nat.ofDigitChars 10 digits 0

def Zone.minutes : Zone → Int
  | .utc => 0
  | .shifted behind hours minutes =>
    let ahead : Int := number hours * 60 + number minutes
    if behind then -ahead else ahead

def Written.date (w : Written) : Date :=
  ⟨number w.year, number w.month, number w.day⟩

def Written.time (w : Written) : TimeOfDay :=
  ⟨number w.hour, number w.minute, number w.second, number (microDigits w.fraction)⟩

/-- The first thing that is wrong with the numbers of a date and a time. -/
def rangeFault (date : Date) (time : TimeOfDay) : Fault :=
  if date.year < 1 ∨ Calendar.lastYear < date.year then .yearOutOfRange date.year
  else if date.month < 1 ∨ 12 < date.month then .monthOutOfRange
  else if date.day < 1 ∨ Calendar.daysInMonth date.year date.month < date.day then .dayOutOfRange
  else if 24 ≤ time.hour then .hourOutOfRange
  else if 60 ≤ time.minute then .minuteOutOfRange
  else .secondOutOfRange

def Written.dateTime (w : Written) : Except Fault DateTime :=
  if w.digits.all isAsciiDigit then
    if h : w.zone.minutes.natAbs < 1440 then
      match DateTime.ofParts? w.date w.time (some (.ofMinutes w.zone.minutes h)) with
      | some t => .ok t
      | none => .error (rangeFault w.date w.time)
    else .error (.offsetOutOfRange w.zone.minutes)
  else .error (.foreignDigits w.text)

def parseText (text : String) : Except Fault DateTime :=
  match read? (Text.trim text.toList) with
  | some written => written.dateTime
  | none => .error (.notATimestamp (.str text))

def parse : Value → Except Fault DateTime
  | .dateTime t => .ok t.assumeUtc
  | .str text => parseText text
  | given => .error (.notATimestamp given)

/-! ### Writing -/

/-- The time in UTC has no represented date. -/
inductive OutOfCalendar where
  | outOfCalendar
  deriving DecidableEq

def OutOfCalendar.message : OutOfCalendar → String
  | .outOfCalendar => "date value out of range"

/-- The fraction without zeros at its end, and without a point if nothing is left. -/
def fractionText (micro : Nat) : List Char :=
  if micro = 0 then []
  else '.' :: Text.trimEndWith (· = '0') (Decimal.padded 6 micro)

/-- The year is written with as many digits as it has. -/
def textOfUtc (t : DateTime) : List Char :=
  Decimal.natText t.date.year ++ '-' :: Decimal.padded 2 t.date.month ++
    '-' :: Decimal.padded 2 t.date.day ++ 'T' :: t.clockText ++ fractionText t.time.micro ++ ['Z']

def format (t : DateTime) : Except OutOfCalendar String :=
  match t.toUtc? with
  | some utc => .ok (String.ofList (textOfUtc utc))
  | none => .error .outOfCalendar

end Telemetry.Timestamp
