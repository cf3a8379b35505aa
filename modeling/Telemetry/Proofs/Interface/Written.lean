import Telemetry.Interface.Reader
import Telemetry.Proofs.Json.RoundTrip
import Telemetry.Proofs.Schema.Kinds

/-!
Interfaces and what is written of them. The fields of a document and those of a draft hold the same
under every name, so both are decoded to the interface that they were taken from.
-/

namespace Telemetry

open Schema (required optional nullable text nonEmptyText member integer boolean natural under
  required_of_held optional_of_held)
open Value (fieldOrNull)

variable {fields : FieldList Value}

/-! ### Mappings -/

namespace Mapping

variable {m : Mapping}

theorem decodeFields_iff : decodeFields fields = .ok m ↔
    required fields "endpoint" nonEmptyText = .ok m.endpoint ∧
    required fields "type" (member MappingType) = .ok m.type ∧
    nullable (member Reliability) (fieldOrNull fields "reliability") = .ok m.reliability ∧
    nullable (member Retention) (fieldOrNull fields "retention") = .ok m.retention ∧
    nullable (member DatabaseRetention) (fieldOrNull fields "database_retention_policy") =
      .ok m.databaseRetention ∧
    nullable integer (fieldOrNull fields "database_retention_ttl") = .ok m.databaseRetentionTtl ∧
    optional fields "expiry" 0 integer = .ok m.expiry ∧
    optional fields "explicit_timestamp" false boolean = .ok m.explicitTimestamp ∧
    optional fields "allow_unset" false boolean = .ok m.allowUnset ∧
    nullable text (fieldOrNull fields "description") = .ok m.description ∧
    nullable text (fieldOrNull fields "doc") = .ok m.doc := by
  simp only [decodeFields, Schema.optional_nullable, bind_eq_ok, pure_eq_ok, Schema.under_ok]
  constructor
  · rintro ⟨_, endpoint, _, type, _, reliability, _, retention, _, databaseRetention, _, ttl, _, expiry,
      _, explicitTimestamp, _, allowUnset, _, description, _, doc, rfl⟩
    exact ⟨endpoint, type, reliability, retention, databaseRetention, ttl, expiry, explicitTimestamp,
      allowUnset, description, doc⟩
  · rintro ⟨endpoint, type, reliability, retention, databaseRetention, ttl, expiry, explicitTimestamp,
      allowUnset, description, doc⟩
    exact ⟨_, endpoint, _, type, _, reliability, _, retention, _, databaseRetention, _, ttl, _, expiry,
      _, explicitTimestamp, _, allowUnset, _, description, _, doc, rfl⟩

theorem decodeFields_of_held (named : m.endpoint ≠ "")
    (same : ∀ name, fieldOrNull fields name = fieldOrNull m.toDraft.toFields name) :
    decodeFields fields = .ok m := by
  rw [decodeFields_iff, same, same, same, same, same, same]
  have endpoint : nonEmptyText (.str m.endpoint) = .ok m.endpoint :=
    Schema.nonEmptyText_ok.mpr ⟨rfl, named⟩
  exact ⟨required_of_held (same _) nofun endpoint,
    required_of_held (same _) nofun (Schema.member_toValue m.type),
    Schema.nullable_held m.reliability, Schema.nullable_held m.retention,
    Schema.nullable_held m.databaseRetention, Schema.nullable_integer m.databaseRetentionTtl,
    optional_of_held (same _) nofun rfl, optional_of_held (same _) nofun rfl,
    optional_of_held (same _) nofun rfl, Schema.nullable_text m.description,
    Schema.nullable_text m.doc⟩

theorem Draft.validate_toDraft (named : m.endpoint ≠ "") : m.toDraft.validate = .ok m :=
  decodeFields_of_held named fun _ => rfl

def presence (m : Mapping) : Interface.MappingPresence :=
  ⟨some m.endpoint, some (wire m.type)⟩

end Mapping

/-! ### Interfaces -/

namespace Interface

variable {i : Interface} {mappings : FieldList Value → Except Schema.Fault (List Mapping)}

theorem decodeFieldsWith_iff : decodeFieldsWith mappings fields = .ok i ↔
    required fields "interface_name" nonEmptyText = .ok i.name ∧
    required fields "version_major" natural = .ok i.major ∧
    required fields "version_minor" natural = .ok i.minor ∧
    required fields "type" (member Kind) = .ok i.kind ∧
    required fields "ownership" (member Ownership) = .ok i.ownership ∧
    nullable (member Aggregation) (fieldOrNull fields "aggregation") = .ok i.aggregation ∧
    optional fields "explicit_timestamp" false boolean = .ok i.explicitTimestamp ∧
    optional fields "has_metadata" false boolean = .ok i.hasMetadata ∧
    nullable text (fieldOrNull fields "description") = .ok i.description ∧
    nullable text (fieldOrNull fields "doc") = .ok i.doc ∧
    mappings fields = .ok i.mappings := by
  simp only [decodeFieldsWith, Schema.optional_nullable, bind_eq_ok, pure_eq_ok, Schema.under_ok]
  constructor
  · rintro ⟨_, name, _, major, _, minor, _, kind, _, ownership, _, aggregation, _, explicitTimestamp,
      _, hasMetadata, _, description, _, doc, _, mappings, rfl⟩
    exact ⟨name, major, minor, kind, ownership, aggregation, explicitTimestamp, hasMetadata,
      description, doc, mappings⟩
  · rintro ⟨name, major, minor, kind, ownership, aggregation, explicitTimestamp, hasMetadata,
      description, doc, mappings⟩
    exact ⟨_, name, _, major, _, minor, _, kind, _, ownership, _, aggregation, _, explicitTimestamp,
      _, hasMetadata, _, description, _, doc, _, mappings, rfl⟩

theorem decodeFieldsWith_of_held (named : i.name ≠ "")
    (same : ∀ name, name ≠ "mappings" → fieldOrNull fields name = fieldOrNull i.toDraft.toFields name)
    (listed : mappings fields = .ok i.mappings) : decodeFieldsWith mappings fields = .ok i := by
  rw [decodeFieldsWith_iff, same _ (by decide), same _ (by decide), same _ (by decide)]
  have name : nonEmptyText (.str i.name) = .ok i.name := Schema.nonEmptyText_ok.mpr ⟨rfl, named⟩
  exact ⟨required_of_held (same _ (by decide)) nofun name,
    required_of_held (same _ (by decide)) nofun (Schema.natural_ok.mpr rfl),
    required_of_held (same _ (by decide)) nofun (Schema.natural_ok.mpr rfl),
    required_of_held (same _ (by decide)) nofun (Schema.member_toValue i.kind),
    required_of_held (same _ (by decide)) nofun (Schema.member_toValue i.ownership),
    Schema.nullable_held i.aggregation, optional_of_held (same _ (by decide)) nofun rfl,
    optional_of_held (same _ (by decide)) nofun rfl, Schema.nullable_text i.description,
    Schema.nullable_text i.doc, listed⟩

/-- The mandatory texts are not empty, and there are mappings. -/
structure IsReadable (i : Interface) : Prop where
  named : i.name ≠ ""
  endpoints : ∀ m ∈ i.mappings, m.endpoint ≠ ""
  mapped : i.mappings ≠ []

/-- An interface is what its own draft is validated as. -/
theorem IsReadable.validate_toDraft (readable : i.IsReadable) : i.toDraft.validate = .ok i := by
  have mappings : i.toDraft.mappings.mapM Mapping.Draft.validate = .ok i.mappings := by
    rw [mapM_ok]
    refine List.forall₂_map_left_iff.mpr (List.forall₂_same.mpr fun m member => ?_)
    exact Mapping.Draft.validate_toDraft (readable.endpoints m member)
  refine bind_eq_ok.mpr ⟨_, mappings, decodeFieldsWith_of_held readable.named (fun _ _ => rfl) ?_⟩
  rw [List.isEmpty_eq_false_iff.mpr readable.mapped]
  rfl

def presence (i : Interface) : Presence :=
  ⟨some i.name, some i.major, some i.minor, some i.kind, some i.ownership,
    some (i.mappings.map Mapping.presence)⟩

end Interface

end Telemetry
