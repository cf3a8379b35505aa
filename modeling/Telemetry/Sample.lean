import Telemetry.Timestamp
import Telemetry.Value.Fields
import Telemetry.Value.Misfit

/-!
Samples of datastreams. The timestamp of a sample is kept to the microsecond, and beside it the
text that was received, which may be finer.
-/

namespace Telemetry

/-- What was sent at one moment on one path. -/
structure Sample where
  value : Value
  timestamp : DateTime
  reception : Option DateTime
  wire : String
  deriving DecidableEq

/-- What was sent at one moment on all paths of an object. -/
structure ObjectSample where
  values : List (String × Value)
  timestamp : Option DateTime
  wire : String
  deriving DecidableEq

inductive Sample.Fault where
  | noTimestamp
  | badTimestamp (fault : Timestamp.Fault)
  deriving DecidableEq

def Sample.Fault.message : Sample.Fault → String
  | .noTimestamp => "datastream value has no timestamp"
  | .badTimestamp fault => fault.message

inductive Sample.ReadFault where
  | misfit (fault : Value.Misfit)
  | undecodable (fault : Sample.Fault)
  deriving DecidableEq

/-- A timestamp as received; what is no text has no such form. -/
def wireText : Value → String
  | .str text => text
  | _ => ""

/-- A timestamp that may be left out. -/
def momentIfGiven (v : Value) : Except Timestamp.Fault (Option DateTime) :=
  if v.isTruthy then some <$> Timestamp.parse v else .ok none

namespace Sample

/-- The name of the field that holds the moment of a sample. -/
def timestampName : String := "timestamp"

def ofFields (fields : List (String × Value)) : Except Fault Sample :=
  match FieldList.get? fields timestampName with
  | none => .error .noTimestamp
  | some given => do
    let timestamp ← (Timestamp.parse given).mapError .badTimestamp
    let reception ←
      (momentIfGiven (Value.fieldOrNull fields "reception_timestamp")).mapError .badTimestamp
    return ⟨Value.fieldOrNull fields "value", timestamp, reception, wireText given⟩

def containsText (part : List Char) : List Char → Bool
  | [] => part.isEmpty
  | c :: rest => part.isPrefixOf (c :: rest) || containsText part rest

/-- Whether the name of the timestamp occurs in a value, where that is a question at all. -/
def mentionsTimestamp : Value → Except Value.Misfit Bool
  | .object fields => .ok (FieldList.has fields timestampName)
  | .str text => .ok (containsText timestampName.toList text.toList)
  | .list items | .tuple items => .ok (items.contains (.str timestampName))
  | _ => .error .unusable

def ofValue (v : Value) : Except ReadFault Sample := do
  if ← (mentionsTimestamp v).mapError .misfit then
    (ofFields (← v.fields?.mapError .misfit)).mapError .undecodable
  else throw (.undecodable .noTimestamp)

end Sample

namespace ObjectSample

/-- Every field but the timestamp is a value of the sample. -/
def ofFields (fields : List (String × Value)) : Except Sample.Fault ObjectSample := do
  let given := Value.fieldOrNull fields Sample.timestampName
  let timestamp ← (momentIfGiven given).mapError .badTimestamp
  return ⟨FieldList.erase fields Sample.timestampName, timestamp, wireText given⟩

def ofValue (v : Value) : Except Sample.ReadFault ObjectSample := do
  (ofFields (← v.fields?.mapError .misfit)).mapError .undecodable

end ObjectSample

end Telemetry
