import Telemetry.MappingType
import Telemetry.Value.Fields

/-!
Interfaces: versioned descriptions of what a device sends or receives, made of mappings that bind
endpoints to value types. A draft is an interface put together by hand, with any value in any field.
-/

namespace Telemetry

/-! ### Enumerations -/

inductive Interface.Kind where
  | properties
  | datastream
  deriving DecidableEq

inductive Ownership where
  | device
  | server
  deriving DecidableEq

/-- Whether endpoints are sampled one by one or together as one object. -/
inductive Aggregation where
  | individual
  | object
  deriving DecidableEq

inductive Reliability where
  | unreliable
  | guaranteed
  | unique
  deriving DecidableEq

/-- What becomes of a sample that cannot be sent at once. -/
inductive Retention where
  | discard
  | volatile
  | stored
  deriving DecidableEq

/-- Whether stored samples expire. -/
inductive DatabaseRetention where
  | noTtl
  | useTtl
  deriving DecidableEq

instance Interface.Kind.wireEnum : Wording Interface.Kind where
  label := "InterfaceType"
  members := [.properties, .datastream]
  wire
    | .properties => "properties"
    | .datastream => "datastream"
  memberName
    | .properties => "PROPERTIES"
    | .datastream => "DATASTREAM"
  wire_injective a b := by cases a <;> cases b <;> decide
  mem_members a := by cases a <;> decide

instance : Wording Ownership where
  label := "InterfaceOwnership"
  members := [.device, .server]
  wire
    | .device => "device"
    | .server => "server"
  memberName
    | .device => "DEVICE"
    | .server => "SERVER"
  wire_injective a b := by cases a <;> cases b <;> decide
  mem_members a := by cases a <;> decide

instance : Wording Aggregation where
  label := "InterfaceAggregation"
  members := [.individual, .object]
  wire
    | .individual => "individual"
    | .object => "object"
  memberName
    | .individual => "INDIVIDUAL"
    | .object => "OBJECT"
  wire_injective a b := by cases a <;> cases b <;> decide
  mem_members a := by cases a <;> decide

instance : Wording Reliability where
  label := "MappingReliability"
  members := [.unreliable, .guaranteed, .unique]
  wire
    | .unreliable => "unreliable"
    | .guaranteed => "guaranteed"
    | .unique => "unique"
  memberName
    | .unreliable => "UNRELIABLE"
    | .guaranteed => "GUARANTEED"
    | .unique => "UNIQUE"
  wire_injective a b := by cases a <;> cases b <;> decide
  mem_members a := by cases a <;> decide

instance : Wording Retention where
  label := "MappingRetention"
  members := [.discard, .volatile, .stored]
  wire
    | .discard => "discard"
    | .volatile => "volatile"
    | .stored => "stored"
  memberName
    | .discard => "DISCARD"
    | .volatile => "VOLATILE"
    | .stored => "STORED"
  wire_injective a b := by cases a <;> cases b <;> decide
  mem_members a := by cases a <;> decide

instance : Wording DatabaseRetention where
  label := "MappingDatabaseRetentionPolicy"
  members := [.noTtl, .useTtl]
  wire
    | .noTtl => "no_ttl"
    | .useTtl => "use_ttl"
  memberName
    | .noTtl => "NO_TTL"
    | .useTtl => "USE_TTL"
  wire_injective a b := by cases a <;> cases b <;> decide
  mem_members a := by cases a <;> decide

/-! ### Mappings and interfaces -/

structure Mapping where
  endpoint : String
  type : MappingType
  reliability : Option Reliability := none
  retention : Option Retention := none
  databaseRetention : Option DatabaseRetention := none
  databaseRetentionTtl : Option Int := none
  expiry : Int := 0
  explicitTimestamp : Bool := false
  allowUnset : Bool := false
  description : Option String := none
  doc : Option String := none
  deriving DecidableEq

structure Interface where
  name : String
  major : Nat
  minor : Nat
  kind : Interface.Kind
  ownership : Ownership
  aggregation : Option Aggregation := none
  explicitTimestamp : Bool := false
  hasMetadata : Bool := false
  description : Option String := none
  doc : Option String := none
  mappings : List Mapping
  deriving DecidableEq

/-- A mapping put together by hand. What stands for its type is left open, since not every rule looks
at it. -/
structure Mapping.Draft (Typing : Type := MappingType) where
  endpoint : String
  type : Typing
  reliability : Wording.Held Reliability := .raw .null
  retention : Wording.Held Retention := .raw .null
  databaseRetention : Wording.Held DatabaseRetention := .raw .null
  databaseRetentionTtl : Value := .null
  expiry : Value := .int 0
  explicitTimestamp : Value := .bool false
  allowUnset : Value := .bool false
  description : Value := .null
  doc : Value := .null
  deriving DecidableEq

structure Interface.Draft (Typing : Type := MappingType) where
  name : Value
  major : Value
  minor : Value
  kind : Value
  ownership : Value
  aggregation : Wording.Held Aggregation := .raw .null
  explicitTimestamp : Value := .bool false
  hasMetadata : Value := .bool false
  description : Value := .null
  doc : Value := .null
  mappings : List (Mapping.Draft Typing) := []
  deriving DecidableEq

namespace Mapping

def toDraft (m : Mapping) : Draft where
  endpoint := m.endpoint
  type := m.type
  reliability := .ofOption m.reliability
  retention := .ofOption m.retention
  databaseRetention := .ofOption m.databaseRetention
  databaseRetentionTtl := .ofInt? m.databaseRetentionTtl
  expiry := .int m.expiry
  explicitTimestamp := .bool m.explicitTimestamp
  allowUnset := .bool m.allowUnset
  description := .ofText? m.description
  doc := .ofText? m.doc

/-- Whether a text holds the mark that begins a parameter. -/
def hasParameter : List Char → Bool
  | [] => false
  | '%' :: '\x7b' :: _ => true
  | _ :: rest => hasParameter rest

def Draft.isParametric (m : Draft) : Bool :=
  hasParameter m.endpoint.toList

end Mapping

namespace Interface

def toDraft (i : Interface) : Draft where
  name := .str i.name
  major := .int i.major
  minor := .int i.minor
  kind := Wording.toValue i.kind
  ownership := Wording.toValue i.ownership
  aggregation := .ofOption i.aggregation
  explicitTimestamp := .bool i.explicitTimestamp
  hasMetadata := .bool i.hasMetadata
  description := .ofText? i.description
  doc := .ofText? i.doc
  mappings := i.mappings.map Mapping.toDraft

namespace Draft

def isParametric (i : Draft) : Bool :=
  i.mappings.any Mapping.Draft.isParametric

def isObject (i : Draft) : Bool :=
  i.aggregation.value = Wording.toValue Aggregation.object

def isProperties (i : Draft) : Bool :=
  i.kind = Wording.toValue Kind.properties

end Draft

end Interface

end Telemetry
