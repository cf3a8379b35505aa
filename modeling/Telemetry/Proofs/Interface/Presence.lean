import Telemetry.Interface.Reader
import Telemetry.Proofs.Json.RoundTrip
import Telemetry.Proofs.Schema.Kinds

/-!
Mandatory fields of interface documents. Where those that are given have their declared kinds, a
document is refused for a mandatory field exactly if the field is the first of them that is missing,
whatever stands in all other fields.
-/

namespace Telemetry.Interface

open Schema (HasKinds nullable)
open Value (fieldOrNull)

variable {fields inner : FieldList Value} {v : Value} {f : MandatoryField}
  {found more : List (MandatoryField × Value)}

/-! ### Fields in order -/

/-- Null, empty text, or a list of nothing. -/
def isMissing : Value → Bool
  | .null | .list [] => true
  | .str s => s = ""
  | _ => false

def objectsOf : Value → List (FieldList Value)
  | .list items => items.filterMap fun
    | .object fields => some fields
    | _ => none
  | _ => []

def held (fields : FieldList Value) (wanted : List MandatoryField) : List (MandatoryField × Value) :=
  wanted.map fun f => (f, fieldOrNull fields f.name)

/-- The mandatory fields in the order in which they are looked for, each with its value. -/
def mandatory (fields : FieldList Value) : List (MandatoryField × Value) :=
  held fields [.interfaceName, .majorVersion, .minorVersion, .kind, .ownership, .mappings] ++
    (objectsOf (fieldOrNull fields "mappings")).flatMap (held · [.endpoint, .mappingType])

def firstMissing (found : List (MandatoryField × Value)) : Option MandatoryField :=
  (found.find? fun entry => isMissing entry.2).map Prod.fst

theorem firstMissing_cons : firstMissing ((f, v) :: found) =
    if isMissing v then some f else firstMissing found := by
  unfold firstMissing
  rw [List.find?_cons]
  cases isMissing v <;> rfl

theorem firstMissing_append :
    firstMissing (found ++ more) = (firstMissing found).or (firstMissing more) := by
  unfold firstMissing
  rw [List.find?_append, Option.map_or]

theorem isMissing_ofText? (o : Option String) : isMissing (.ofText? o) = isBlank o := by
  cases o <;> simp [isMissing, isBlank, Value.ofText?]

theorem isMissing_ofInt? (o : Option Int) : isMissing (.ofInt? o) = o.isNone := by
  cases o <;> rfl

/-! ### Declared kinds -/

/-- The declared kinds of the mandatory fields. -/
structure Declared (fields : FieldList Value) : Prop where
  plain : HasKinds
    [("interface_name", .text), ("version_major", .integer), ("version_minor", .integer)] fields
  kind : ∃ o : Option Kind, fieldOrNull fields "type" = o.elim .null Wording.toValue
  ownership : ∃ o : Option Ownership, fieldOrNull fields "ownership" = o.elim .null Wording.toValue
  mappings : fieldOrNull fields "mappings" = .null ∨
    ∃ items : List (FieldList Value), fieldOrNull fields "mappings" = .list (items.map .object) ∧
      ∀ inner ∈ items, HasKinds [("endpoint", .text), ("type", .text)] inner

theorem objectsOf_map (items : List (FieldList Value)) :
    objectsOf (.list (items.map .object)) = items := by
  show (items.map Value.object).filterMap _ = items
  rw [List.filterMap_map]
  exact List.filterMap_some

theorem MappingPresence.exists_decoded
    (typed : HasKinds [("endpoint", .text), ("type", .text)] inner) :
    ∃ m, MappingPresence.decode (.object inner) = .ok m ∧
      m.firstMissing = Interface.firstMissing (held inner [.endpoint, .mappingType]) := by
  obtain ⟨endpoint, isEndpoint⟩ := typed.text "endpoint" (by decide)
  obtain ⟨type, isType⟩ := typed.text "type" (by decide)
  refine ⟨⟨endpoint, type⟩, ?_, ?_⟩
  · simp only [MappingPresence.decode, Schema.record, Schema.optional_nullable, bind_eq_ok,
      pure_eq_ok, Schema.under_ok, Schema.nullable_strictText_iff]
    exact ⟨endpoint, isEndpoint, type, isType, rfl⟩
  · simp only [held, List.map_cons, List.map_nil, MandatoryField.name, isEndpoint, isType,
      firstMissing_cons, isMissing_ofText?]
    rfl

theorem exists_mappingPresences {items : List (FieldList Value)}
    (typed : ∀ inner ∈ items, HasKinds [("endpoint", .text), ("type", .text)] inner) :
    ∃ mappings, Schema.list MappingPresence.decode (.list (items.map .object)) = .ok mappings ∧
      (mappings = [] ↔ items = []) ∧
      mappings.findSome? MappingPresence.firstMissing =
        firstMissing (items.flatMap (held · [.endpoint, .mappingType])) := by
  obtain ⟨mappings, each⟩ := Schema.exists_forall₂ fun inner member =>
    MappingPresence.exists_decoded (typed inner member)
  have decoded : List.Forall₂ (fun inner m => MappingPresence.decode (.object inner) = .ok m)
      items mappings := each.imp fun _ _ both => both.1
  refine ⟨mappings, Schema.list_ok.mpr ⟨_, .inl rfl, List.forall₂_map_left_iff.mpr decoded⟩, ?_, ?_⟩
  · rw [← List.length_eq_zero_iff, ← List.length_eq_zero_iff, each.length_eq]
  · clear typed decoded
    induction each with
    | nil => rfl
    | cons first _ ih =>
      rw [List.flatMap_cons, firstMissing_append, List.findSome?_cons, ih, first.2]
      cases firstMissing (held _ _) <;> rfl

theorem exists_mappings (declared : Declared fields) :
    ∃ mappings,
      nullable (Schema.list MappingPresence.decode) (fieldOrNull fields "mappings") = .ok mappings ∧
      (mappings.getD []).isEmpty = isMissing (fieldOrNull fields "mappings") ∧
      (mappings.getD []).findSome? MappingPresence.firstMissing = firstMissing
        ((objectsOf (fieldOrNull fields "mappings")).flatMap (held · [.endpoint, .mappingType])) := by
  rcases declared.mappings with null | ⟨items, isList, typed⟩
  · rw [null]
    exact ⟨none, rfl, rfl, rfl⟩
  · obtain ⟨mappings, decoded, empty, first⟩ := exists_mappingPresences typed
    rw [isList, Schema.nullable_of_ne (by simp), decoded, objectsOf_map]
    refine ⟨some mappings, rfl, ?_, first⟩
    cases items with
    | nil =>
      rw [empty.mpr rfl]
      rfl
    | cons inner rest =>
      have some : mappings ≠ [] := fun none => List.cons_ne_nil inner rest (empty.mp none)
      exact List.isEmpty_eq_false_iff.mpr some

theorem Presence.firstMissing_eq (p : Presence) : p.firstMissing =
    if isBlank p.name then some .interfaceName
    else if p.major.isNone then some .majorVersion
    else if p.minor.isNone then some .minorVersion
    else if p.kind.isNone then some .kind
    else if p.ownership.isNone then some .ownership
    else if (p.mappings.getD []).isEmpty then some .mappings
    else (p.mappings.getD []).findSome? MappingPresence.firstMissing := by
  unfold Presence.firstMissing
  rcases p.mappings with _ | _ | _ <;> rfl

theorem isMissing_toValue {α : Type} [Wording α]
    (worded : ∀ a ∈ Wording.members (α := α), wire a ≠ "") (o : Option α) :
    isMissing (o.elim .null Wording.toValue) = o.isNone := by
  cases o with
  | none => rfl
  | some a => simpa [isMissing, Wording.toValue] using worded a (Wording.mem_members a)

theorem exists_presence (declared : Declared fields) :
    ∃ p, Presence.decodeFields fields = .ok p ∧
      p.firstMissing = firstMissing (mandatory fields) := by
  obtain ⟨name, isName⟩ := declared.plain.text "interface_name" (by decide)
  obtain ⟨major, isMajor⟩ := declared.plain.integer "version_major" (by decide)
  obtain ⟨minor, isMinor⟩ := declared.plain.integer "version_minor" (by decide)
  obtain ⟨kind, isKind⟩ := declared.kind
  obtain ⟨ownership, isOwnership⟩ := declared.ownership
  obtain ⟨mappings, decoded, empty, first⟩ := exists_mappings declared
  refine ⟨⟨name, major, minor, kind, ownership, mappings⟩, ?_, ?_⟩
  · have integer : ∀ o, nullable Schema.strictInteger (.ofInt? o) = .ok o := by
      intro o
      cases o <;> rfl
    simp only [Presence.decodeFields, Schema.optional_nullable, bind_eq_ok, pure_eq_ok,
      Schema.under_ok, Schema.nullable_strictText_iff, isMajor, isMinor, isKind, isOwnership]
    exact ⟨name, isName, major, integer major, minor, integer minor, kind,
      Schema.nullable_member kind, ownership, Schema.nullable_member ownership, mappings, decoded, rfl⟩
  · rw [Presence.firstMissing_eq]
    simp only [mandatory, held, List.map_cons, List.map_nil, List.cons_append, List.nil_append,
      MandatoryField.name, firstMissing_cons, isName, isMajor, isMinor, isKind, isOwnership,
      isMissing_ofText?, isMissing_ofInt?, isMissing_toValue (α := Kind) (by decide),
      isMissing_toValue (α := Ownership) (by decide), empty, first]

/-! ### Reasons -/

theorem MandatoryField.reason_injective {f g : MandatoryField} (same : f.reason = g.reason) :
    f = g := by
  let all : List MandatoryField := [.interfaceName, .majorVersion, .minorVersion, .kind, .ownership,
    .mappings, .endpoint, .mappingType]
  have distinct : (all.map reason).Nodup := by decide +kernel
  have mem_all : ∀ f, f ∈ all := by
    intro f
    cases f <;> decide
  exact List.inj_on_of_nodup_map distinct (mem_all f) (mem_all g) same

/-- Whether a text starts in upper case. -/
def isSentence (s : String) : Bool :=
  s.toList.head?.any Char.isUpper

theorem isSentence_append {s : String} (starts : isSentence s = true) (t : String) :
    isSentence (s ++ t) = true := by
  unfold isSentence at starts ⊢
  rw [String.toList_append, List.head?_append]
  cases head : s.toList.head? with
  | none =>
    rw [head] at starts
    cases starts
  | some c => rwa [head] at starts

theorem isSentence_message (cause : Schema.Cause) : isSentence cause.message = true := by
  cases cause with
  | belowMinimum | notAbove | notMember | notRecord => exact isSentence_append (by decide +kernel) _
  | _ => decide +kernel

theorem MandatoryField.isSentence_reason (f : MandatoryField) : isSentence f.reason = false := by
  cases f <;> decide +kernel

/-! ### Documents -/

/-- The reason tells a field that is missing from all that the full decoding may find later. -/
theorem ofFields_missing_iff {p : Presence} (decoded : Presence.decodeFields fields = .ok p)
    (torn : Option TornText) (f : MandatoryField) :
    (∃ fault, ofFields fields torn = .error fault ∧ fault.field = some f.name ∧
      fault.reason = f.reason) ↔ p.firstMissing = some f := by
  unfold ofFields
  rw [decoded]
  dsimp only
  cases p.firstMissing with
  | some g =>
    constructor
    · rintro ⟨_, refused, -, reason⟩
      cases refused
      rw [MandatoryField.reason_injective reason]
    · intro same
      cases same
      exact ⟨.missing f, rfl, rfl, rfl⟩
  | none =>
    refine iff_of_false ?_ nofun
    rintro ⟨fault, refused, -, reason⟩
    cases lenient : torn.elim (decodeFields fields) fun text => .error (text.fault fields) with
    | ok i =>
      rw [lenient] at refused
      cases refused
    | error inner =>
      rw [lenient] at refused
      cases refused
      have sentence : isSentence inner.cause.message = true := isSentence_message inner.cause
      rw [show inner.cause.message = f.reason from reason, f.isSentence_reason] at sentence
      cases sentence

/-- A document is refused for a mandatory field exactly if the field is the first that is missing. -/
theorem parse_missing_iff {document : Json.Document} (read : document.read = .ok (.object fields))
    (declared : Declared fields) (f : MandatoryField) :
    (∃ fault, parse document = .error fault ∧ fault.field = some f.name ∧ fault.reason = f.reason) ↔
      firstMissing (mandatory fields) = some f := by
  obtain ⟨p, decoded, first⟩ := exists_presence declared
  obtain ⟨tree, read, shown⟩ := Json.Document.read_eq_ok_iff.mp read
  rw [← first, ← ofFields_missing_iff decoded (tornText? tree), parse, read]
  dsimp only
  rw [ofTree, shown]

/-- Nothing is missing before the type of the second mapping, and much is wrong beside it. -/
theorem parse_missing_type :
    let mappings : List (FieldList Value) := [[("endpoint", .str "/a"), ("type", .str "complex")],
      [("expiry", .str "never"), ("type", .str ""), ("endpoint", .str "/b")], [("doc", .list [])]]
    let fields : FieldList Value := [("aggregation", .int 7), ("interface_name", .str "org.Values"),
      ("version_major", .int 0), ("version_minor", .int 0), ("ownership", .str "device"),
      ("vendor", .list [.null]), ("mappings", .list (mappings.map .object)),
      ("type", .str "datastream")]
    ∃ fault, parse (.text (Json.writeString (.object fields))) = .error fault ∧
      fault.field = some "type" ∧ fault.reason = "missing type in mapping" := by
  intro mappings fields
  have fits : Json.Fits Json.nestingLimit (.object fields) := by
    constructor <;> decide +kernel
  have declared : Declared fields :=
    ⟨by decide, ⟨some .datastream, rfl⟩, ⟨some .device, rfl⟩, .inr ⟨mappings, rfl, by decide⟩⟩
  exact (parse_missing_iff (Json.Document.read_writeString fits) declared .mappingType).mpr
    (by decide +kernel)

end Telemetry.Interface
