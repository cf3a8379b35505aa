import Telemetry.Schema.Decoder
import Telemetry.Trigger.Basic
import Telemetry.Value.Pairs

/-!
Triggers as documents: decoding every field, and writing the fields that are set. A device trigger
is written without the fields that are for data alone.
-/

namespace Telemetry

open Schema (required optional nullable under setFields)

/-! ### Known values in a document -/

namespace Value

inductive Unwritable where
  | octets (fault : Text.EncodingFault)
  /-- A name that has no UTF-8 form. -/
  | tornName (name : Text.Letters)
  | tooDeep
  deriving DecidableEq

def Unwritable.message : Unwritable → String
  | .octets fault => fault.message
  | .tornName name => name.tornMessage
  | .tooDeep => "Circular reference detected (depth exceeded)"

/-- An offset to whole seconds, of which only the minutes are shown. One that rounds to nothing is
UTC. -/
def isoZoneText (offset : UtcOffset) : List Char :=
  let seconds := (offset.micros.natAbs + 500000) / 1000000
  if seconds = 0 then ['Z']
  else
    (if offset.micros < 0 then '-' else '+') ::
      Decimal.padded 2 (seconds / 3600) ++ ':' :: Decimal.padded 2 (seconds / 60 % 60)

/-- ISO 8601 with `Z` for UTC. -/
def isoDocumentText (t : DateTime) : String :=
  String.ofList (({ t with offset := none } : DateTime).isoText 'T' ++
    t.offset.elim [] isoZoneText)

/-- Octets that are no text cannot stand in a document. -/
def octetsAsText (octets : List UInt8) : Except Unwritable Value :=
  match Text.decodeUtf8 octets with
  | .ok cs => .ok (.str (String.ofList cs))
  | .error fault => .error (.octets { fault with flaw := .invalid })

/-- A value may stand below so many others, itself counted. -/
def depthLimit : Nat := 255

mutual
/-- The nearest value that a document can hold, no deeper than so many levels: numbers that are not
finite become nothing. -/
def toDocumentWithin : Value → Nat → Except Unwritable Value
  | _, 0 => .error .tooDeep
  | .float x, _ + 1 => .ok (if x.isFinite then .float x else .null)
  | .bytes octets, _ + 1 | .buffer octets, _ + 1 => octetsAsText octets
  | .dateTime t, _ + 1 => .ok (.str (isoDocumentText t))
  | .list items, levels + 1 => .list <$> itemsToDocument items levels
  | .tuple items, levels + 1 => .list <$> itemsToDocument items levels
  | .object fields, levels + 1 => .object <$> fieldsToDocument fields levels
  | v, _ + 1 => .ok v
def itemsToDocument : List Value → Nat → Except Unwritable (List Value)
  | [], _ => .ok []
  | item :: rest, levels => do
    let item ← toDocumentWithin item levels
    let rest ← itemsToDocument rest levels
    return item :: rest
def fieldsToDocument : List (String × Value) → Nat → Except Unwritable (List (String × Value))
  | [], _ => .ok []
  | (name, item) :: rest, levels => do
    let item ← toDocumentWithin item levels
    let rest ← fieldsToDocument rest levels
    return (name, item) :: rest
end

def toDocument (v : Value) : Except Unwritable Value :=
  v.toDocumentWithin depthLimit

end Value

/-! ### Decoding -/

namespace Trigger.Action

/-- An action from its fields and from what its headers are decoded to. -/
def decodeWith (headers : Except Schema.Fault (FieldList String)) (fields : FieldList Value) :
    Except Schema.Fault Action := do
  let url ← required fields "http_url" Schema.text
  let method ← optional fields "http_method" none (nullable (Schema.member HttpMethod))
  let headers ← headers
  let ignoreSslErrors ← optional fields "ignore_ssl_errors" false Schema.boolean
  return { url, method, headers, ignoreSslErrors }

def headersField : String :=
  "http_static_headers"

def decodeFields (fields : FieldList Value) : Except Schema.Fault Action :=
  decodeWith (optional fields headersField [] (Schema.dictionary Schema.text)) fields

def decode : Schema.Decoder Action :=
  Schema.record "TriggerActionDTO" decodeFields

end Trigger.Action

namespace SimpleTrigger

def decodeFields (fields : List (String × Value)) : Except Schema.Fault SimpleTrigger := do
  let kind ← optional fields "type" none (nullable (Schema.member Kind))
  let condition ← optional fields "on" none (nullable (Schema.member Condition))
  let deviceId ← optional fields "device_id" none (nullable Schema.text)
  let groupName ← optional fields "group_name" none (nullable Schema.text)
  let interfaceName ← optional fields "interface_name" none (nullable Schema.text)
  let interfaceMajor ← optional fields "interface_major" none (nullable Schema.integer)
  let matchPath ← optional fields "match_path" none (nullable Schema.text)
  let operator ← optional fields "value_match_operator" none
    (nullable (Schema.member MatchOperator))
  let knownValue ← optional fields "known_value" .null .ok
  return {
    kind, condition, deviceId, groupName, interfaceName, interfaceMajor, matchPath, operator,
    knownValue }

def decode : Schema.Decoder SimpleTrigger :=
  Schema.record "SimpleTriggerDTO" decodeFields

end SimpleTrigger

namespace Trigger

def decodeFields (fields : List (String × Value)) : Except Schema.Fault Trigger := do
  let name ← required fields "name" Schema.nonEmptyText
  let action ← required fields "action" Action.decode
  let simpleTriggers ← required fields "simple_triggers" (Schema.nonEmptyList SimpleTrigger.decode)
  return { name, action, simpleTriggers }

end Trigger

/-! ### Encoding -/

def Trigger.Action.toFields (a : Action) : List (String × Value) :=
  setFields [
    ("http_url", some (.str a.url)),
    ("http_method", a.method.map Wording.toValue),
    (headersField, some (.object (a.headers.map fun header => (header.1, .str header.2)))),
    ("ignore_ssl_errors", some (.bool a.ignoreSslErrors))]

namespace SimpleTrigger

/-- The fields that only data triggers have. -/
def dataFields : List String :=
  ["interface_name", "interface_major", "match_path", "value_match_operator", "known_value"]

/-- The fields that are set, the known value apart as a document can hold it. -/
def allFields (t : SimpleTrigger) (knownValue : Value) : List (String × Value) :=
  setFields [
    ("type", t.kind.map Wording.toValue),
    ("on", t.condition.map Wording.toValue),
    ("device_id", t.deviceId.map .str),
    ("group_name", t.groupName.map .str),
    ("interface_name", t.interfaceName.map .str),
    ("interface_major", t.interfaceMajor.map .int),
    ("match_path", t.matchPath.map .str),
    ("value_match_operator", t.operator.map Wording.toValue),
    ("known_value", if t.knownValue.isNull then none else some knownValue)]

def toDocument (t : SimpleTrigger) : Except Value.Unwritable Value := do
  let fields := t.allFields (← t.knownValue.toDocument)
  if t.kind = some .device then
    return .object (fields.filter fun field => !dataFields.contains field.1)
  else return .object fields

end SimpleTrigger

def Trigger.toDocument (t : Trigger) : Except Value.Unwritable Value := do
  if let some name := t.tornName then throw (.tornName name)
  let simpleTriggers ← t.simpleTriggers.mapM SimpleTrigger.toDocument
  return .object [
    ("name", .str t.name),
    ("action", .object t.action.toFields),
    ("simple_triggers", .list simpleTriggers)]

/-! ### Drafts -/

inductive Trigger.Draft.Fault where
  | malformed (fault : Schema.Fault)
  | headers (fault : Value.PairsFault)
  | unwritable (fault : Value.Unwritable)
  deriving DecidableEq

namespace Trigger.Draft

def liftSchema {α : Type} : Except Schema.Fault α → Except Fault α :=
  Except.mapError .malformed

/-- Headers whose names need not be texts yet. -/
def decodeHeaders (pairs : List (Value × Value)) : Except Schema.Fault (FieldList String) :=
  under Action.headersField (Schema.pairsOf Schema.text [] pairs)

def actionFields (a : Action.Draft) : FieldList Value :=
  [("http_url", a.url), ("http_method", a.method), ("ignore_ssl_errors", a.ignoreSslErrors)]

def simpleFields (t : SimpleTrigger.Draft) : List (String × Value) :=
  [("type", t.kind), ("on", t.condition), ("device_id", t.deviceId), ("group_name", t.groupName),
    ("interface_name", t.interfaceName), ("interface_major", t.interfaceMajor),
    ("match_path", t.matchPath), ("value_match_operator", t.operator),
    ("known_value", t.knownValue)]

/-- The headers are read as pairs before anything else. The action is validated first, then the
conditions, each on its own, then the rest. -/
def validate (t : Draft) : Except Fault Trigger := do
  let headers ← t.action.headers.toPairs.mapError .headers
  let action ← liftSchema (Action.decodeWith (decodeHeaders headers) (actionFields t.action))
  let simpleTriggers ← t.simpleTriggers.mapM fun s =>
    liftSchema (SimpleTrigger.decodeFields (simpleFields s))
  let name ← liftSchema (under "name" (Schema.nonEmptyText t.name))
  if simpleTriggers.isEmpty then
    liftSchema (under "simple_triggers" (Schema.fail .emptyList))
  else return { name, action, simpleTriggers, tornName := t.tornName }

def toDocument (t : Draft) : Except Fault Value := do
  let trigger ← t.validate
  Except.mapError .unwritable trigger.toDocument

end Trigger.Draft

end Telemetry
