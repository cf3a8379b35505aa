import Telemetry.Proofs.Interface.RoundTrip
import Telemetry.Proofs.Schema.Completion

/-!
Documents of interfaces read and written again. Every field of its declared kind is written as it was
given, a few fields that were left out are written with their defaults, and nothing else is.
-/

namespace Telemetry

open Schema (HasKinds Completion FieldKind setFields keeps_text keeps_nonEmptyText keeps_member
  keeps_integer keeps_natural keeps_boolean completed_of_required completed_of_optional
  completed_of_nullable completed_of_getD)

/-! ### Mappings -/

namespace Mapping

def fieldKinds : FieldList FieldKind :=
  [("endpoint", .text), ("type", .text), ("reliability", .text), ("retention", .text),
    ("database_retention_policy", .text), ("database_retention_ttl", .integer), ("expiry", .integer),
    ("explicit_timestamp", .boolean), ("allow_unset", .boolean), ("description", .text), ("doc", .text)]

def fieldDefaults : FieldList Value :=
  [("reliability", .str "unreliable"), ("retention", .str "discard"),
    ("database_retention_policy", .str "no_ttl"), ("expiry", .int 0),
    ("explicit_timestamp", .bool false), ("allow_unset", .bool false)]

theorem completion_toFields {fields : FieldList Value} {m : Mapping} (typed : HasKinds fieldKinds fields)
    (decoded : decodeFields fields = .ok m) :
    Completion fieldKinds fieldDefaults fields m.withDefaults.toFields := by
  obtain ⟨endpoint, type, reliability, retention, databaseRetention, databaseRetentionTtl, expiry,
    explicitTimestamp, allowUnset, description, doc⟩ := decodeFields_iff.mp decoded
  refine Schema.completion_setFields rfl (by decide) ?_
  simp only [List.forall_mem_cons, List.not_mem_nil, false_implies, implies_true, and_true]
  exact ⟨completed_of_required keeps_nonEmptyText typed (by decide) endpoint,
    completed_of_required keeps_member typed (by decide) type,
    completed_of_getD keeps_member typed (by decide) rfl reliability,
    completed_of_getD keeps_member typed (by decide) rfl retention,
    completed_of_getD keeps_member typed (by decide) rfl databaseRetention,
    completed_of_nullable keeps_integer typed (by decide) rfl databaseRetentionTtl,
    completed_of_optional keeps_integer typed (by decide) rfl expiry,
    completed_of_optional keeps_boolean typed (by decide) rfl explicitTimestamp,
    completed_of_optional keeps_boolean typed (by decide) rfl allowUnset,
    completed_of_nullable keeps_text typed (by decide) rfl description,
    completed_of_nullable keeps_text typed (by decide) rfl doc⟩

end Mapping

/-! ### Interfaces -/

namespace Interface

/-- The kinds of the fields of an interface, its mappings apart. -/
def fieldKinds : FieldList FieldKind :=
  [("interface_name", .text), ("version_major", .integer), ("version_minor", .integer), ("type", .text),
    ("ownership", .text), ("aggregation", .text), ("explicit_timestamp", .boolean),
    ("has_metadata", .boolean), ("description", .text), ("doc", .text)]

def fieldDefaults : FieldList Value :=
  [("aggregation", .str "individual"), ("explicit_timestamp", .bool false), ("has_metadata", .bool false)]

variable {fields : FieldList Value} {i : Interface}

def singleFields (i : Interface) : FieldList Value :=
  setFields [
    ("interface_name", some (.str i.name)),
    ("version_major", some (.int i.major)),
    ("version_minor", some (.int i.minor)),
    ("type", some (Wording.toValue i.kind)),
    ("ownership", some (Wording.toValue i.ownership)),
    ("aggregation", i.aggregation.map Wording.toValue),
    ("explicit_timestamp", some (.bool i.explicitTimestamp)),
    ("has_metadata", some (.bool i.hasMetadata)),
    ("description", i.description.map .str),
    ("doc", i.doc.map .str)]

theorem toFields_eq : i.toFields =
    i.singleFields ++ [("mappings", .list (i.mappings.map fun m => .object m.toFields))] := by
  -- The mappings stand last and are always set.
  have mappings : setFields [("mappings", some (.list (i.mappings.map fun m => .object m.toFields)))] =
      [("mappings", .list (i.mappings.map fun m => .object m.toFields))] := rfl
  rw [singleFields, ← mappings, ← Schema.setFields_append]
  rfl

theorem completion_singleFields (typed : HasKinds fieldKinds fields)
    (decoded : decodeFields fields = .ok i) :
    Completion fieldKinds fieldDefaults fields i.withDefaults.singleFields := by
  obtain ⟨name, major, minor, kind, ownership, aggregation, explicitTimestamp, hasMetadata, description,
    doc, -⟩ := decodeFieldsWith_iff.mp decoded
  refine Schema.completion_setFields rfl (by decide) ?_
  simp only [List.forall_mem_cons, List.not_mem_nil, false_implies, implies_true, and_true]
  exact ⟨completed_of_required keeps_nonEmptyText typed (by decide) name,
    (completed_of_required keeps_natural typed (by decide) major :),
    (completed_of_required keeps_natural typed (by decide) minor :),
    completed_of_required keeps_member typed (by decide) kind,
    completed_of_required keeps_member typed (by decide) ownership,
    completed_of_getD keeps_member typed (by decide) rfl aggregation,
    completed_of_optional keeps_boolean typed (by decide) rfl explicitTimestamp,
    completed_of_optional keeps_boolean typed (by decide) rfl hasMetadata,
    completed_of_nullable keeps_text typed (by decide) rfl description,
    completed_of_nullable keeps_text typed (by decide) rfl doc⟩

/-- The mappings are written in the order in which they were given, each of them completed. -/
theorem toDocument_completes {content : Json.Document} (raw : ∀ given, content ≠ .value given)
    (read : content.read = .ok (.object fields)) (parsed : parse content = .ok i)
    (typed : HasKinds fieldKinds fields)
    (mappingsTyped : ∀ items, FieldList.get? fields "mappings" = some (.list items) →
      ∀ given, .object given ∈ items → HasKinds Mapping.fieldKinds given) :
    ∃ given written mappings,
      FieldList.get? fields "mappings" = some (.list (given.map .object)) ∧
      i.toDraft.toDocument = .ok (.object (written ++ [("mappings", .list (mappings.map .object))])) ∧
      Completion fieldKinds fieldDefaults fields written ∧
      List.Forall₂ (Completion Mapping.fieldKinds Mapping.fieldDefaults) given mappings := by
  obtain ⟨_, lenient, same, each, decoded, rfl⟩ := decodeFields_of_parse raw parsed
  cases read.symm.trans same
  obtain ⟨-, given, held, mappings⟩ := mappings_of_decodeFields each decoded
  have readable := (isReadable_of_decodeFields each decoded).withDefaults
  refine ⟨given, lenient.withDefaults.singleFields, lenient.withDefaults.mappings.map Mapping.toFields,
    held, ?_, completion_singleFields typed decoded, ?_⟩
  · rw [Draft.toDocument, readable.validate_toDraft, List.map_map]
    exact congrArg (Except.ok ∘ Value.object) toFields_eq
  · rw [Interface.withDefaults, List.forall₂_map_right_iff, List.forall₂_map_right_iff]
    have typedEach : ∀ inner ∈ given, HasKinds Mapping.fieldKinds inner := fun inner member =>
      mappingsTyped _ held inner (List.mem_map_of_mem member)
    refine ((List.forall₂_and_left _ _).mpr ⟨typedEach, mappings⟩).imp fun inner m holds => ?_
    exact Mapping.completion_toFields holds.1 holds.2

/-- A mapping with an explicit word. -/
def openingFields : FieldList Value :=
  [("type", .str "boolean"), ("endpoint", .str "/open"), ("reliability", .str "unique"), ("doc", .str "")]

/-- A mapping with null in the place of a word, and a field of no meaning. -/
def flowFields : FieldList Value :=
  [("endpoint", .str "/flow"), ("type", .str "double"), ("retention", .null), ("expiry", .int 60),
    ("unit", .str "l")]

def valvesFields : FieldList Value :=
  [("ownership", .str "server"), ("interface_name", .str "org.example.Valves"), ("version_major", .int 1),
    ("version_minor", .int 0), ("type", .str "datastream"), ("note", .str ""), ("aggregation", .null),
    ("mappings", .list [.object openingFields, .object flowFields])]

def valves : Interface where
  name := "org.example.Valves"
  major := 1
  minor := 0
  kind := .datastream
  ownership := .server
  aggregation := some .individual
  mappings := [
    { endpoint := "/open", type := ⟨.boolean, false⟩, reliability := some .unique,
      retention := some .discard, databaseRetention := some .noTtl, doc := some "" },
    { endpoint := "/flow", type := ⟨.double, false⟩, reliability := some .unreliable,
      retention := some .discard, databaseRetention := some .noTtl, expiry := 60 }]

theorem toDocument_completes_of_valves :
    parse (.text (Json.writeString (.object valvesFields))) = .ok valves ∧
      ∃ written opening flow,
        valves.toDraft.toDocument =
          .ok (.object (written ++ [("mappings", .list [.object opening, .object flow])])) ∧
        FieldList.get? written "ownership" = some (.str "server") ∧
        FieldList.get? written "aggregation" = some (.str "individual") ∧
        FieldList.get? opening "reliability" = some (.str "unique") ∧
        FieldList.get? flow "retention" = some (.str "discard") ∧
        "unit" ∉ FieldList.names flow := by
  have fits : Json.Fits Json.nestingLimit (.object valvesFields) := by
    constructor <;> decide +kernel
  have read := Json.Document.read_writeString fits
  have raw : ∀ given, Json.Document.text (Json.writeString (.object valvesFields)) ≠ .value given := nofun
  have parsed : parse (.text (Json.writeString (.object valvesFields))) = .ok valves := by
    rw [parse_of_spells (Json.Document.spells_writeString fits)]
    decide +kernel
  have mappingsTyped : ∀ items, FieldList.get? valvesFields "mappings" = some (.list items) →
      ∀ given, .object given ∈ items → HasKinds Mapping.fieldKinds given := by
    intro items held given member
    cases held
    rcases List.mem_pair.mp member with same | same <;> cases same <;> decide
  obtain ⟨given, written, mappings, held, document, single, each⟩ :=
    toDocument_completes raw read parsed (by decide) mappingsTyped
  have listed : [openingFields, flowFields].map Value.object = given.map .object :=
    Value.list.inj (Option.some.inj held)
  obtain rfl := List.map_injective_iff.mpr (fun _ _ => Value.object.inj) listed
  obtain ⟨opening, later, first, others, rfl⟩ := List.forall₂_cons_left_iff.mp each
  obtain ⟨flow, last, second, ends, rfl⟩ := List.forall₂_cons_left_iff.mp others
  obtain rfl := List.forall₂_nil_left_iff.mp ends
  refine ⟨parsed, written, opening, flow, document, ?_⟩
  exact ⟨single.kept "ownership" (by decide) (by decide),
    single.added "aggregation" (by decide) (by decide),
    first.kept "reliability" (by decide) (by decide),
    second.added "retention" (by decide) (by decide),
    fun member => absurd (second.declared _ member) (by decide)⟩

end Interface

end Telemetry
