import Telemetry.Schema.Decoder
import Telemetry.Trigger.Basic

/-!
The rules that a trigger document must keep, checked in a fixed order; the first one that is broken
is reported.
-/

namespace Telemetry

open Schema (optional nullable)

/-! ### Simple triggers -/

inductive SimpleTrigger.Violation where
  | kindOrConditionUnset
  | unknownKind (given : String)
  | unsuitedCondition (given : String)
  | noTarget
  | twoTargets
  | dataOnDevice
  | targetOnData
  | noInterface
  | noMajor
  | noPath
  | noOperator
  | unknownOperator (given : String)
  | noKnownValue
  deriving DecidableEq

namespace SimpleTrigger

def Violation.message : Violation → String
  | .kindOrConditionUnset => "Invalid trigger condition: Type and On must be set"
  | .unknownKind given => "Invalid trigger condition: invalid Type value '" ++ given ++ "'"
  | .unsuitedCondition given => "Invalid trigger condition: invalid On value '" ++ given ++ "'"
  | .noTarget => "Invalid trigger condition: DeviceID or GroupName must be set"
  | .twoTargets => "Invalid trigger condition: DeviceID or GroupName cannot both be set"
  | .dataOnDevice =>
    "Invalid trigger: cannot set properties for data trigger on a device trigger"
  | .targetOnData => "Invalid trigger condition: DeviceID or GroupName cannot be set"
  | .noInterface => "Invalid data trigger: interface not set, use * to catch all"
  | .noMajor => "Invalid data trigger: InterfaceMajor must be set"
  | .noPath => "Invalid data trigger: MatchPath not set"
  | .noOperator => "Invalid data trigger: ValueMatchOperator not set"
  | .unknownOperator given =>
    "Invalid data trigger: invalid ValueMatchOperator value '" ++ given ++ "'"
  | .noKnownValue => "Invalid data trigger: KnownValue not set"

/-- The fields of a simple trigger as they are given, words not yet read. -/
structure Presence where
  kind : Option String
  condition : Option String
  deviceId : Option String
  groupName : Option String
  interfaceName : Option String
  /-- A major version may be given as a number or as text. -/
  interfaceMajor : Option Value
  matchPath : Option String
  operator : Option String
  knownValue : Value
  deriving DecidableEq

/-- An integer or a text, as it is; what is neither is reported as no integer. -/
def integerOrText : Schema.Decoder Value
  | .int n => .ok (.int n)
  | .str s => .ok (.str s)
  | _ => Schema.under "int" (Schema.fail .notInteger)

def Presence.decodeFields (fields : List (String × Value)) : Except Schema.Fault Presence := do
  let kind ← optional fields "type" none (nullable Schema.strictText)
  let condition ← optional fields "on" none (nullable Schema.strictText)
  let deviceId ← optional fields "device_id" none (nullable Schema.strictText)
  let groupName ← optional fields "group_name" none (nullable Schema.strictText)
  let interfaceName ← optional fields "interface_name" none (nullable Schema.strictText)
  let interfaceMajor ← optional fields "interface_major" none (nullable integerOrText)
  let matchPath ← optional fields "match_path" none (nullable Schema.strictText)
  let operator ← optional fields "value_match_operator" none (nullable Schema.strictText)
  let knownValue ← optional fields "known_value" .null .ok
  return {
    kind, condition, deviceId, groupName, interfaceName, interfaceMajor, matchPath, operator,
    knownValue }

def Presence.decode : Schema.Decoder Presence :=
  Schema.record "RequiredSimpleTriggerDTO" Presence.decodeFields

namespace Presence

def hasDataField (p : Presence) : Bool :=
  p.interfaceName.isSome || p.interfaceMajor.isSome || p.matchPath.isSome || p.operator.isSome ||
    !p.knownValue.isNull

/-- A device trigger names a device or a group, and has nothing that is about data. -/
def deviceViolation (p : Presence) (condition : String) : Option Violation :=
  if !(Wording.ofWire? condition).any Condition.isDevice then some (.unsuitedCondition condition)
  else if p.deviceId.isNone && p.groupName.isNone then some .noTarget
  else if p.deviceId.isSome && p.groupName.isSome then some .twoTargets
  else if p.hasDataField then some .dataOnDevice
  else none

/-- A data trigger says where it looks and what it compares with. -/
def dataViolation (p : Presence) (condition : String) : Option Violation :=
  if !(Wording.ofWire? condition).any (!Condition.isDevice ·) then
    some (.unsuitedCondition condition)
  else if p.deviceId.isSome || p.groupName.isSome then some .targetOnData
  else
    match p.interfaceName with
    | none => some .noInterface
    | some interface =>
      if p.interfaceMajor.isNone && interface ≠ "*" then some .noMajor
      else if p.matchPath.isNone then some .noPath
      else
        match p.operator with
        | none => some .noOperator
        | some operator =>
          match Wording.ofWire? (α := MatchOperator) operator with
          | none => some (.unknownOperator operator)
          | some known => if p.knownValue.isNull && known ≠ .all then some .noKnownValue else none

def violation (p : Presence) : Option Violation :=
  match p.kind, p.condition with
  | some kind, some condition =>
    match Wording.ofWire? (α := Kind) kind with
    | none => some (.unknownKind kind)
    | some .device => p.deviceViolation condition
    | some .data => p.dataViolation condition
  | _, _ => some .kindOrConditionUnset

end Presence

end SimpleTrigger

/-! ### Triggers -/

inductive Trigger.Violation where
  | noName
  | noAction
  | incompleteAction
  | unknownMethod
  | noSimpleTriggers
  | manySimpleTriggers
  | simple (violation : SimpleTrigger.Violation)
  deriving DecidableEq

namespace Trigger

def Violation.message : Violation → String
  | .noName => "Invalid trigger: name must be set"
  | .noAction => "Invalid trigger: action must be set"
  | .incompleteAction => "Invalid trigger: action must have at least an url and a method set"
  | .unknownMethod => "Invalid trigger: invalid method for action"
  | .noSimpleTriggers => "Invalid trigger: no triggers are present"
  | .manySimpleTriggers =>
    "Invalid trigger: usage of more than one trigger is currently unsupported"
  | .simple violation => violation.message

structure ActionPresence where
  url : Option String
  method : Option String
  deriving DecidableEq

structure Presence where
  name : Option String
  action : Option ActionPresence
  simpleTriggers : Option (List SimpleTrigger.Presence)
  deriving DecidableEq

def ActionPresence.decode : Schema.Decoder ActionPresence :=
  Schema.record "RequiredTriggerActionDTO" fun fields => do
    let url ← optional fields "http_url" none (nullable Schema.strictText)
    let method ← optional fields "http_method" none (nullable Schema.strictText)
    return { url, method }

def Presence.decodeFields (fields : List (String × Value)) : Except Schema.Fault Presence := do
  let name ← optional fields "name" none (nullable Schema.strictText)
  let action ← optional fields "action" none (nullable ActionPresence.decode)
  let simpleTriggers ← optional fields "simple_triggers" none
    (nullable (Schema.list SimpleTrigger.Presence.decode))
  return { name, action, simpleTriggers }

def Presence.decode : Schema.Decoder Presence :=
  Schema.record "RequiredTriggerDTO" Presence.decodeFields

def ActionPresence.violation (a : ActionPresence) : Option Violation :=
  match a.url, a.method with
  | some _, some method =>
    if (Wording.ofWire? (α := HttpMethod) method).isNone then some .unknownMethod else none
  | _, _ => some .incompleteAction

/-- Exactly one simple trigger is supported. -/
def simpleViolation : Option (List SimpleTrigger.Presence) → Option Violation
  | none | some [] => some .noSimpleTriggers
  | some [simple] => simple.violation.map .simple
  | some _ => some .manySimpleTriggers

def Presence.violation (p : Presence) : Option Violation :=
  if p.name.getD "" = "" then some .noName
  else
    match p.action with
    | none => some .noAction
    | some action => action.violation.or (simpleViolation p.simpleTriggers)

end Trigger

end Telemetry
