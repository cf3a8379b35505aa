import Telemetry.Sample

/-! Devices as the service describes them, and the links between the pages of a listing. -/

namespace Telemetry

/-- What a device announces or has announced about one of its interfaces. -/
structure Introspection where
  name : Value
  major : Int
  minor : Int
  exchangedMessages : Int
  exchangedBytes : Int
  deriving DecidableEq

/-- The description of a device. What is not converted may be a value of any kind. -/
structure Device where
  id : Value
  connected : Bool
  credentialsInhibited : Bool
  receivedMessages : Int
  receivedBytes : Int
  lastSeenIp : Value
  lastCredentialsRequestIp : Value
  lastConnection : Option DateTime
  lastDisconnection : Option DateTime
  firstRegistration : Option DateTime
  firstCredentialsRequest : Option DateTime
  introspection : List (String × Introspection)
  aliases : List (Value × Value)
  attributes : List (Value × Value)
  previousInterfaces : List Introspection
  deriving DecidableEq

inductive Device.Fault where
  | misfit (fault : Value.Misfit)
  | badInteger (fault : Text.IntegerFault)
  | badPair (index length : Nat)
  | badTimestamp (fault : Timestamp.Fault)
  deriving DecidableEq

namespace Device

/-- A value of the wrong kind has no message. -/
def Fault.message? : Fault → Option String
  | .misfit _ => none
  | .badInteger fault => some fault.message
  | .badPair index length => some (Value.PairsFault.badLength index length).message
  | .badTimestamp fault => some fault.message

def Fault.ofInteger : Value.IntegerFault → Fault
  | .misfit fault => .misfit fault
  | .unreadable fault => .badInteger fault

def Fault.ofPairs : Value.PairsFault → Fault
  | .notPairs => .misfit .unusable
  | .badLength index length => .badPair index length

/-- A count that is zero when it is not given. -/
def count (fields : List (String × Value)) (name : String) : Except Fault Int :=
  ((FieldList.get? fields name).getD (.int 0)).toInteger.mapError .ofInteger

def flag (fields : List (String × Value)) (name : String) : Bool :=
  (Value.fieldOrNull fields name).isTruthy

def moment (fields : List (String × Value)) (name : String) : Except Fault (Option DateTime) :=
  (momentIfGiven (Value.fieldOrNull fields name)).mapError .badTimestamp

def pairs (fields : List (String × Value)) (name : String) :
    Except Fault (List (Value × Value)) :=
  let given := Value.fieldOrNull fields name
  if given.isTruthy then given.toPairs.mapError .ofPairs else .ok []

end Device

namespace Introspection

open Device (Fault count)

/-- An entry of a device; a name that is known from elsewhere wins unless it is empty. -/
def ofValue (name : Option String) (v : Value) : Except Fault Introspection := do
  let fields ← v.fields?.mapError .misfit
  let name :=
    match name.filter (· ≠ "") with
    | some name => .str name
    | none => (FieldList.get? fields "name").getD (.str "")
  return {
    name
    major := ← count fields "major"
    minor := ← count fields "minor"
    exchangedMessages := ← count fields "exchanged_msgs"
    exchangedBytes := ← count fields "exchanged_bytes" }

end Introspection

namespace Device

def ofFields (fields : List (String × Value)) : Except Fault Device := do
  let current ← (Value.fieldOrNull fields "introspection").optionalFields.mapError .misfit
  let introspection ← current.mapM fun entry => do
    return (entry.1, ← Introspection.ofValue (some entry.1) entry.2)
  let previous ← (Value.fieldOrNull fields "previous_interfaces").optionalElements.mapError .misfit
  let previousInterfaces ← previous.mapM (Introspection.ofValue none)
  return {
    id := (FieldList.get? fields "id").getD (.str "")
    connected := flag fields "connected"
    credentialsInhibited := flag fields "credentials_inhibited"
    receivedMessages := ← count fields "total_received_msgs"
    receivedBytes := ← count fields "total_received_bytes"
    lastSeenIp := Value.fieldOrNull fields "last_seen_ip"
    lastCredentialsRequestIp := Value.fieldOrNull fields "last_credentials_request_ip"
    lastConnection := ← moment fields "last_connection"
    lastDisconnection := ← moment fields "last_disconnection"
    firstRegistration := ← moment fields "first_registration"
    firstCredentialsRequest := ← moment fields "first_credentials_request"
    introspection
    aliases := ← pairs fields "aliases"
    attributes := ← pairs fields "attributes"
    previousInterfaces }

def ofValue (v : Value) : Except Fault Device := do
  ofFields (← v.fields?.mapError .misfit)

end Device

/-- The links of a page to itself and to the next one; nothing where there is none. -/
structure Links where
  own : Value
  next : Value
  deriving DecidableEq

namespace Links

/-- A value that counts as not given is nothing. -/
def given (v : Value) : Value :=
  if v.isTruthy then v else .null

def ofValue (v : Value) : Except Value.Misfit Links := do
  let fields ← v.optionalFields
  return ⟨given (Value.fieldOrNull fields "self"), given (Value.fieldOrNull fields "next")⟩

end Links

end Telemetry
