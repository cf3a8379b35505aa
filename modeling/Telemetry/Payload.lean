import Telemetry.Base64
import Telemetry.Timestamp

/-!
Payloads made ready to be sent: date-times are moved to UTC, octets become base64 where the format
has no octets of its own, and every sequence becomes a list.
-/

namespace Telemetry.Payload

open Timestamp (OutOfCalendar)

/-- A date-time in UTC; one without an offset is taken as UTC. -/
def utcTime (t : DateTime) : Except OutOfCalendar Value :=
  t.toUtc?.elim (.error .outOfCalendar) fun utc => .ok (.dateTime utc)

def octetText (octets : List UInt8) : Value :=
  .str (String.ofList (Base64.encodePadded octets))

mutual
def normalize (encodeOctets : Bool) : Value → Except OutOfCalendar Value
  | .bytes octets => .ok (if encodeOctets then octetText octets else .bytes octets)
  | .buffer octets => .ok (if encodeOctets then octetText octets else .buffer octets)
  | .dateTime t => utcTime t
  | .list items => .list <$> normalizeItems encodeOctets items
  | .tuple items => .list <$> normalizeItems encodeOctets items
  | .object fields => .object <$> normalizeFields encodeOctets fields
  | v => .ok v
def normalizeItems (encodeOctets : Bool) : List Value → Except OutOfCalendar (List Value)
  | [] => .ok []
  | item :: rest => do
    let item ← normalize encodeOctets item
    let rest ← normalizeItems encodeOctets rest
    return item :: rest
def normalizeFields (encodeOctets : Bool) :
    List (String × Value) → Except OutOfCalendar (List (String × Value))
  | [] => .ok []
  | (name, item) :: rest => do
    let item ← normalize encodeOctets item
    let rest ← normalizeFields encodeOctets rest
    return (name, item) :: rest
end

end Telemetry.Payload
