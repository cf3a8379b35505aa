import Telemetry.Interface.Basic
import Telemetry.Schema.Decoder

/-! Interfaces as documents: decoding every field, and writing the fields that are set. -/

namespace Telemetry

open Schema (required optional nullable under setFields)

namespace Mapping

def decodeFields (fields : List (String × Value)) : Except Schema.Fault Mapping := do
  let endpoint ← required fields "endpoint" Schema.nonEmptyText
  let type ← required fields "type" (Schema.member MappingType)
  let reliability ← optional fields "reliability" none (nullable (Schema.member Reliability))
  let retention ← optional fields "retention" none (nullable (Schema.member Retention))
  let databaseRetention ← optional fields "database_retention_policy" none
    (nullable (Schema.member DatabaseRetention))
  let databaseRetentionTtl ← optional fields "database_retention_ttl" none
    (nullable Schema.integer)
  let expiry ← optional fields "expiry" 0 Schema.integer
  let explicitTimestamp ← optional fields "explicit_timestamp" false Schema.boolean
  let allowUnset ← optional fields "allow_unset" false Schema.boolean
  let description ← optional fields "description" none (nullable Schema.text)
  let doc ← optional fields "doc" none (nullable Schema.text)
  return {
    endpoint, type, reliability, retention, databaseRetention, databaseRetentionTtl, expiry,
    explicitTimestamp, allowUnset, description, doc }

def decode : Schema.Decoder Mapping :=
  Schema.record "MappingDTO" decodeFields

def toFields (m : Mapping) : List (String × Value) :=
  setFields [
    ("endpoint", some (.str m.endpoint)),
    ("type", some (Wording.toValue m.type)),
    ("reliability", m.reliability.map Wording.toValue),
    ("retention", m.retention.map Wording.toValue),
    ("database_retention_policy", m.databaseRetention.map Wording.toValue),
    ("database_retention_ttl", m.databaseRetentionTtl.map .int),
    ("expiry", some (.int m.expiry)),
    ("explicit_timestamp", some (.bool m.explicitTimestamp)),
    ("allow_unset", some (.bool m.allowUnset)),
    ("description", m.description.map .str),
    ("doc", m.doc.map .str)]

namespace Draft

/-- The fields of a draft as they stand. -/
def toFields (m : Draft) : List (String × Value) :=
  [("endpoint", .str m.endpoint),
    ("type", Wording.toValue m.type),
    ("reliability", m.reliability),
    ("retention", m.retention),
    ("database_retention_policy", m.databaseRetention),
    ("database_retention_ttl", m.databaseRetentionTtl),
    ("expiry", m.expiry),
    ("explicit_timestamp", m.explicitTimestamp),
    ("allow_unset", m.allowUnset),
    ("description", m.description),
    ("doc", m.doc)]

def validate (m : Draft) : Except Schema.Fault Mapping :=
  decodeFields m.toFields

end Draft

end Mapping

namespace Interface

/-- Decodes the fields of an interface, its mappings by the given decoder. -/
def decodeFieldsWith (mappings : List (String × Value) → Except Schema.Fault (List Mapping))
    (fields : List (String × Value)) : Except Schema.Fault Interface := do
  let name ← required fields "interface_name" Schema.nonEmptyText
  let major ← required fields "version_major" Schema.natural
  let minor ← required fields "version_minor" Schema.natural
  let kind ← required fields "type" (Schema.member Kind)
  let ownership ← required fields "ownership" (Schema.member Ownership)
  let aggregation ← optional fields "aggregation" none (nullable (Schema.member Aggregation))
  let explicitTimestamp ← optional fields "explicit_timestamp" false Schema.boolean
  let hasMetadata ← optional fields "has_metadata" false Schema.boolean
  let description ← optional fields "description" none (nullable Schema.text)
  let doc ← optional fields "doc" none (nullable Schema.text)
  let mappings ← mappings fields
  return {
    name, major, minor, kind, ownership, aggregation, explicitTimestamp, hasMetadata,
    description, doc, mappings }

def decodeFields (fields : List (String × Value)) : Except Schema.Fault Interface :=
  decodeFieldsWith (fun fields => required fields "mappings" (Schema.nonEmptyList Mapping.decode))
    fields

def toFields (i : Interface) : List (String × Value) :=
  setFields [
    ("interface_name", some (.str i.name)),
    ("version_major", some (.int i.major)),
    ("version_minor", some (.int i.minor)),
    ("type", some (Wording.toValue i.kind)),
    ("ownership", some (Wording.toValue i.ownership)),
    ("aggregation", i.aggregation.map Wording.toValue),
    ("explicit_timestamp", some (.bool i.explicitTimestamp)),
    ("has_metadata", some (.bool i.hasMetadata)),
    ("description", i.description.map .str),
    ("doc", i.doc.map .str),
    ("mappings", some (.list (i.mappings.map fun m => .object m.toFields)))]

def toDocument (i : Interface) : Value :=
  .object i.toFields

namespace Draft

/-- The fields of a draft as they stand, its mappings apart. -/
def toFields (i : Draft) : List (String × Value) :=
  [("interface_name", i.name),
    ("version_major", i.major),
    ("version_minor", i.minor),
    ("type", i.kind),
    ("ownership", i.ownership),
    ("aggregation", i.aggregation),
    ("explicit_timestamp", i.explicitTimestamp),
    ("has_metadata", i.hasMetadata),
    ("description", i.description),
    ("doc", i.doc)]

/-- The mappings are validated first, each on its own. -/
def validate (i : Draft) : Except Schema.Fault Interface := do
  let mappings ← i.mappings.mapM Mapping.Draft.validate
  decodeFieldsWith
    (fun _ =>
      if mappings.isEmpty then under "mappings" (Schema.fail .emptyList) else return mappings)
    i.toFields

def toDocument (i : Draft) : Except Schema.Fault Value :=
  Interface.toDocument <$> i.validate

end Draft

end Interface

end Telemetry
