import Telemetry.Text.Letter
import Telemetry.Value.Fields
import Telemetry.Wording

/-!
Triggers: subscriptions that call a web hook when a condition on devices or on data is met. A draft
is a trigger put together by hand, with any value in any field.
-/

namespace Telemetry

/-! ### Enumerations -/

inductive MatchOperator where
  | all
  | equal
  | differ
  | bigger
  | biggerEqual
  | smaller
  | smallerEqual
  | contains
  | notContains
  deriving DecidableEq

inductive Condition where
  | deviceConnected
  | deviceDisconnected
  | deviceError
  | incomingData
  | valueStored
  | valueChange
  | valueChangeApplied
  | pathCreated
  | pathRemoved
  deriving DecidableEq

inductive SimpleTrigger.Kind where
  | data
  | device
  deriving DecidableEq

inductive HttpMethod where
  | post
  | get
  | put
  | patch
  | delete
  deriving DecidableEq

instance : Wording MatchOperator where
  label := "TriggerMatchOperator"
  members := [.all, .equal, .differ, .bigger, .biggerEqual, .smaller, .smallerEqual, .contains,
    .notContains]
  wire
    | .all => "*"
    | .equal => "=="
    | .differ => "!="
    | .bigger => ">"
    | .biggerEqual => ">="
    | .smaller => "<"
    | .smallerEqual => "<="
    | .contains => "contains"
    | .notContains => "not_contains"
  memberName
    | .all => "ALL"
    | .equal => "EQUAL"
    | .differ => "DIFFER"
    | .bigger => "BIGGER"
    | .biggerEqual => "BIGGER_EQUAL"
    | .smaller => "SMALLER"
    | .smallerEqual => "SMALLER_EQUAL"
    | .contains => "CONTAINS"
    | .notContains => "NOT_CONTAINS"
  wire_injective a b := by cases a <;> cases b <;> decide
  mem_members a := by cases a <;> decide

instance : Wording Condition where
  label := "TriggerOn"
  members := [.deviceConnected, .deviceDisconnected, .deviceError, .incomingData, .valueStored,
    .valueChange, .valueChangeApplied, .pathCreated, .pathRemoved]
  wire
    | .deviceConnected => "device_connected"
    | .deviceDisconnected => "device_disconnected"
    | .deviceError => "device_error"
    | .incomingData => "incoming_data"
    | .valueStored => "value_stored"
    | .valueChange => "value_change"
    | .valueChangeApplied => "value_change_applied"
    | .pathCreated => "path_created"
    | .pathRemoved => "path_removed"
  memberName
    | .deviceConnected => "DEVICE_CONNECTED"
    | .deviceDisconnected => "DEVICE_DISCONNECTED"
    | .deviceError => "DEVICE_ERROR"
    | .incomingData => "INCOMING_DATA"
    | .valueStored => "VALUE_STORED"
    | .valueChange => "VALUE_CHANGE"
    | .valueChangeApplied => "VALUE_CHANGE_APPLIED"
    | .pathCreated => "PATH_CREATED"
    | .pathRemoved => "PATH_REMOVED"
  wire_injective a b := by cases a <;> cases b <;> decide
  mem_members a := by cases a <;> decide

instance SimpleTrigger.Kind.wireEnum : Wording SimpleTrigger.Kind where
  label := "SimpleTriggerType"
  members := [.data, .device]
  wire
    | .data => "data_trigger"
    | .device => "device_trigger"
  memberName
    | .data => "DATA"
    | .device => "DEVICE"
  wire_injective a b := by cases a <;> cases b <;> decide
  mem_members a := by cases a <;> decide

instance : Wording HttpMethod where
  label := "HTTPMethod"
  members := [.post, .get, .put, .patch, .delete]
  wire
    | .post => "post"
    | .get => "get"
    | .put => "put"
    | .patch => "patch"
    | .delete => "delete"
  memberName
    | .post => "POST"
    | .get => "GET"
    | .put => "PUT"
    | .patch => "PATCH"
    | .delete => "DELETE"
  wire_injective a b := by cases a <;> cases b <;> decide
  mem_members a := by cases a <;> decide

def Condition.isDevice : Condition → Bool
  | .deviceConnected | .deviceDisconnected | .deviceError => true
  | _ => false

/-! ### Triggers -/

structure Trigger.Action where
  url : String
  method : Option HttpMethod := none
  headers : List (String × String) := []
  ignoreSslErrors : Bool := false
  deriving DecidableEq

/-- One condition of a trigger. A known value of nothing is unset. -/
structure SimpleTrigger where
  kind : Option SimpleTrigger.Kind := none
  condition : Option Condition := none
  deviceId : Option String := none
  groupName : Option String := none
  interfaceName : Option String := none
  interfaceMajor : Option Int := none
  matchPath : Option String := none
  operator : Option MatchOperator := none
  knownValue : Value := .null
  deriving DecidableEq

structure Trigger where
  name : String
  action : Trigger.Action
  simpleTriggers : List SimpleTrigger
  /-- The first name inside a known value that has no UTF-8 form; what the known value shows of it
  is not the whole name. -/
  tornName : Option Text.Letters := none
  deriving DecidableEq

structure Trigger.Action.Draft where
  url : Value
  method : Wording.Held HttpMethod := .raw .null
  headers : Value := .object []
  ignoreSslErrors : Value := .bool false
  deriving DecidableEq

structure SimpleTrigger.Draft where
  kind : Wording.Held SimpleTrigger.Kind := .raw .null
  condition : Wording.Held Condition := .raw .null
  deviceId : Value := .null
  groupName : Value := .null
  interfaceName : Value := .null
  interfaceMajor : Value := .null
  matchPath : Value := .null
  operator : Wording.Held MatchOperator := .raw .null
  knownValue : Value := .null
  deriving DecidableEq

structure Trigger.Draft where
  name : Value
  action : Trigger.Action.Draft
  simpleTriggers : List SimpleTrigger.Draft := []
  tornName : Option Text.Letters := none
  deriving DecidableEq

def Trigger.Action.toDraft (a : Action) : Draft where
  url := .str a.url
  method := .ofOption a.method
  headers := .object (a.headers.map fun header => (header.1, .str header.2))
  ignoreSslErrors := .bool a.ignoreSslErrors

def SimpleTrigger.toDraft (t : SimpleTrigger) : Draft where
  kind := .ofOption t.kind
  condition := .ofOption t.condition
  deviceId := .ofText? t.deviceId
  groupName := .ofText? t.groupName
  interfaceName := .ofText? t.interfaceName
  interfaceMajor := .ofInt? t.interfaceMajor
  matchPath := .ofText? t.matchPath
  operator := .ofOption t.operator
  knownValue := t.knownValue

def Trigger.toDraft (t : Trigger) : Draft where
  name := .str t.name
  action := t.action.toDraft
  simpleTriggers := t.simpleTriggers.map SimpleTrigger.toDraft
  tornName := t.tornName

end Telemetry
