import Telemetry.Decimal.Format
import Telemetry.Text.Quoted
import Telemetry.Text.Split
import Telemetry.Value

/-! The literal form of values, as messages show them. -/

namespace Telemetry

open Decimal (natText intText padded)

/-- A span of microseconds as days, seconds and microseconds, leaving out what is zero. -/
def spanLiteral (micros : Int) : List Char :=
  let days := micros / TimeOfDay.microsPerDay
  let seconds := micros / 1000000 % 86400
  let parts :=
    [("days=", days), ("seconds=", seconds), ("microseconds=", micros % 1000000)].filter
      fun part => part.2 ≠ 0
  "datetime.timedelta(".toList ++
    (if parts.isEmpty then ['0']
      else Text.join [',', ' '] (parts.map fun part => part.1.toList ++ intText part.2)) ++ [')']

namespace UtcOffset

/-- A clock as `+HH:MM`, with seconds and a fraction only if they are not zero. -/
def text (offset : UtcOffset) : List Char :=
  let ahead := TimeOfDay.ofMicros offset.micros.natAbs
  (if offset.micros < 0 then '-' else '+') :: padded 2 ahead.hour ++ ':' :: padded 2 ahead.minute ++
    (if ahead.second = 0 ∧ ahead.micro = 0 then [] else ':' :: padded 2 ahead.second) ++
    (if ahead.micro = 0 then [] else '.' :: padded 6 ahead.micro)

def literal (offset : UtcOffset) : List Char :=
  if offset.micros = 0 then "datetime.timezone.utc".toList
  else "datetime.timezone(".toList ++ spanLiteral offset.micros ++ [')']

end UtcOffset

namespace DateTime

/-- Year, month and day; then hours, minutes, and as much of the rest as is not zero. -/
def literal (t : DateTime) : List Char :=
  let date := t.date
  let time := t.time
  let rest :=
    if time.micro ≠ 0 then [time.second, time.micro]
    else if time.second ≠ 0 then [time.second] else []
  let numbers := [date.year, date.month, date.day, time.hour, time.minute] ++ rest
  let zone := t.offset.elim [] fun offset => ["tzinfo=".toList ++ offset.literal]
  "datetime.datetime(".toList ++ Text.join [',', ' '] (numbers.map natText ++ zone) ++ [')']

def dateText (t : DateTime) : List Char :=
  padded 4 t.date.year ++ '-' :: padded 2 t.date.month ++ '-' :: padded 2 t.date.day

def clockText (t : DateTime) : List Char :=
  padded 2 t.time.hour ++ ':' :: padded 2 t.time.minute ++ ':' :: padded 2 t.time.second

/-- ISO 8601 with the fraction only if there is one. -/
def isoText (separator : Char) (t : DateTime) : List Char :=
  t.dateText ++ separator :: t.clockText ++
    (if t.time.micro = 0 then [] else '.' :: padded 6 t.time.micro) ++
    t.offset.elim [] UtcOffset.text

/-- ISO 8601 with a fraction of six digits. -/
def fullText (t : DateTime) : List Char :=
  t.dateText ++ 'T' :: t.clockText ++ '.' :: padded 6 t.time.micro ++
    t.offset.elim [] UtcOffset.text

end DateTime

namespace Value

mutual
def literal : Value → List Char
  | .null => "None".toList
  | .bool b => (if b then "True" else "False").toList
  | .int n => intText n
  | .float x => Decimal.literalFormat.text x
  | .str s => Text.quoted s.toList
  | .bytes octets => 'b' :: Text.quotedOctets octets
  | .buffer octets => "bytearray(b".toList ++ Text.quotedBuffer octets ++ [')']
  | .dateTime t => t.literal
  | .list items => '[' :: Text.join [',', ' '] (itemLiterals items) ++ [']']
  | .tuple items =>
    '(' :: Text.join [',', ' '] (itemLiterals items) ++
      (if items.length = 1 then [',', ')'] else [')'])
  | .object fields => '\x7b' :: Text.join [',', ' '] (fieldLiterals fields) ++ ['\x7d']
def itemLiterals : List Value → List (List Char)
  | [] => []
  | item :: rest => literal item :: itemLiterals rest
def fieldLiterals : List (String × Value) → List (List Char)
  | [] => []
  | (name, item) :: rest =>
    (Text.quoted name.toList ++ ':' :: ' ' :: literal item) :: fieldLiterals rest
end

def literalText (v : Value) : String :=
  String.ofList v.literal

/-- A value inside a sentence: texts without quotes, all else in literal form. -/
def display : Value → String
  | .str s => s
  | .dateTime t => String.ofList (t.isoText ' ')
  | v => v.literalText

end Value

end Telemetry
