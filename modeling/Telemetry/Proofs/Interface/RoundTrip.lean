import Telemetry.Proofs.Interface.Written

/-!
Interfaces written and read again. A draft with fields of their kinds, whatever its enumerations hold,
is completed and written, and what is read of it is what it was completed to. Every interface that was
read is such a draft.
-/

namespace Telemetry

open Value (fieldOrNull)

/-! ### Drafts -/

def Mapping.Draft.numbers (m : Draft) : List Value :=
  [m.databaseRetentionTtl, m.expiry]

namespace Interface

def Draft.numbers (d : Draft) : List Value :=
  d.major :: d.minor :: d.mappings.flatMap Mapping.Draft.numbers

variable {fields : FieldList Value} {i : Interface}

theorem mappings_of_decodeFields (content : Json.fieldsAreContent fields = true)
    (decoded : decodeFields fields = .ok i) : i.mappings ≠ [] ∧ ∃ inner,
      FieldList.get? fields "mappings" = some (.list (inner.map .object)) ∧
      List.Forall₂ (fun fields m => Mapping.decodeFields fields = .ok m) inner i.mappings := by
  obtain ⟨-, -, -, -, -, -, -, -, -, -, mappings⟩ := decodeFieldsWith_iff.mp decoded
  obtain ⟨v, held, listed⟩ := Schema.required_ok.mp mappings
  obtain ⟨listed, mapped⟩ := Schema.nonEmptyList_ok.mp listed
  refine ⟨mapped, ?_⟩
  obtain ⟨items, rfl | rfl, each⟩ := Schema.list_ok.mp listed
  · obtain ⟨inner, rfl, records⟩ := Schema.exists_records each
    exact ⟨inner, held, records⟩
  · cases isContent_of_get? content held

theorem isReadable_of_decodeFields (content : Json.fieldsAreContent fields = true)
    (decoded : decodeFields fields = .ok i) : i.IsReadable := by
  obtain ⟨mapped, inner, -, each⟩ := mappings_of_decodeFields content decoded
  obtain ⟨name, -⟩ := decodeFieldsWith_iff.mp decoded
  obtain ⟨_, -, nonEmpty⟩ := Schema.required_ok.mp name
  refine ⟨(Schema.nonEmptyText_ok.mp nonEmpty).2, ?_, mapped⟩
  refine Schema.forall_mem_of_forall₂ each fun _ _ m decoded => ?_
  obtain ⟨endpoint, -⟩ := Mapping.decodeFields_iff.mp decoded
  obtain ⟨_, -, nonEmpty⟩ := Schema.required_ok.mp endpoint
  exact (Schema.nonEmptyText_ok.mp nonEmpty).2

theorem tornText?_of_isWhole {tree : Json.Tree} (whole : tree.isWhole = true) : tornText? tree = none := by
  have endpoints : ∀ m ∈ (tree.field? "mappings").elim [] Json.Tree.items,
      m.hasTornText "endpoint" = false := by
    intro m member
    cases held : tree.field? "mappings" with
    | none =>
      rw [held] at member
      cases member
    | some mappings =>
      rw [held] at member
      have whole := Json.Tree.isWhole_of_field? whole held
      exact Json.Tree.hasTornText_of_isWhole (Json.Tree.isWhole_of_mem_items whole member) "endpoint"
  rw [tornText?, Json.Tree.hasTornText_of_isWhole whole, if_neg Bool.false_ne_true]
  dsimp only
  rw [List.findIdx?_eq_none_iff.mpr endpoints]
  rfl

/-- Where all texts and names of a document are Unicode, its value alone says what is read of it. -/
theorem parse_of_spells {content : Json.Document} (spells : content.Spells (.object fields)) :
    parse content = ofFields fields none := by
  obtain ⟨tree, read, whole, shown⟩ := spells
  rw [parse, read]
  dsimp only
  rw [ofTree, shown, tornText?_of_isWhole whole]

/-- The text of the document spells it, and whatever spells it is read as the interface. -/
def Holds (document : Value) (i : Interface) : Prop :=
  (Json.Document.text (Json.writeString document)).Spells document ∧
    ∀ content : Json.Document, content.Spells document → parse content = .ok i

theorem fields_of_parse {content : Json.Document} (parsed : parse content = .ok i) :
    ∃ fields torn, content.read = .ok (.object fields) ∧ ofFields fields torn = .ok i := by
  unfold parse at parsed
  split at parsed
  · cases parsed
  · cases parsed
  · rename_i tree read
    unfold ofTree at parsed
    split at parsed
    · rename_i fields shown
      exact ⟨fields, _, Json.Document.read_eq_ok_iff.mpr ⟨tree, read, shown⟩, parsed⟩
    · cases parsed

theorem decodeFields_of_ofFields {torn : Option TornText} (read : ofFields fields torn = .ok i) :
    ∃ given, decodeFields fields = .ok given ∧ given.withDefaults = i := by
  unfold ofFields at read
  split at read
  · cases read
  · split at read
    · cases read
    · cases torn with
      | some text => cases read
      | none =>
        rw [Option.elim_none] at read
        split at read
        · cases read
        · rename_i given decoded
          exact ⟨given, decoded, Except.ok.inj read⟩

/-- What is read of a document is decoded from the fields of an object and completed. -/
theorem decodeFields_of_parse {content : Json.Document} (raw : ∀ given, content ≠ .value given)
    (parsed : parse content = .ok i) : ∃ fields given, content.read = .ok (.object fields) ∧
      Json.fieldsAreContent fields = true ∧ decodeFields fields = .ok given ∧ given.withDefaults = i := by
  obtain ⟨fields, _, read, ofFields⟩ := fields_of_parse parsed
  obtain ⟨given, decoded, settled⟩ := decodeFields_of_ofFields ofFields
  exact ⟨fields, given, read, (Bool.and_eq_true_iff.mp (Json.isContent_of_read raw read)).2, decoded,
    settled⟩

/-! ### Defaults -/

theorem withDefaults_withDefaults : i.withDefaults.withDefaults = i.withDefaults := by
  simp only [withDefaults, List.map_map]
  rfl

theorem IsReadable.withDefaults (readable : i.IsReadable) : i.withDefaults.IsReadable := by
  refine ⟨readable.named, fun m member => ?_, mt List.map_eq_nil_iff.mp readable.mapped⟩
  obtain ⟨given, isMapping, rfl⟩ := List.mem_map.mp member
  exact readable.endpoints given isMapping

/-- A document that gives some of its fields in other kinds than those that are declared. -/
def sensorsDocument : Value := .object [
  ("interface_name", .str "org.example.Sensors"), ("version_major", .int 0), ("version_minor", .int 1),
  ("type", .str "datastream"), ("ownership", .str "device"), ("has_metadata", .str "Yes"),
  ("mappings", .list [.object [("endpoint", .str "/value"), ("type", .str "integerarray"),
    ("expiry", .str " 1_0 "), ("allow_unset", .int 1)]])]

def sensors : Interface where
  name := "org.example.Sensors"
  major := 0
  minor := 1
  kind := .datastream
  ownership := .device
  aggregation := some .individual
  hasMetadata := true
  mappings := [{
    endpoint := "/value", type := ⟨.integer, true⟩, reliability := some .unreliable,
    retention := some .discard, databaseRetention := some .noTtl, expiry := 10, allowUnset := true }]

end Interface

end Telemetry
