import Telemetry.Proofs.Json.RoundTrip
import Telemetry.Proofs.Trigger.Written

/-!
Triggers written and read again. What is read of an accepted trigger's document is the trigger itself,
unless its known value holds a number that no document can hold.
-/

namespace Telemetry.Trigger

open Value (fieldOrNull)

variable {t : Trigger} {s : SimpleTrigger}

/-! ### Drafts -/

theorem Draft.decode_action {a : Action} (distinct : (FieldList.names a.headers).Nodup) :
    Action.decodeWith (decodeHeaders (a.headers.map fun header => (.str header.1, .str header.2)))
      (actionFields a.toDraft) = .ok a := by
  have headers : decodeHeaders (a.headers.map fun header => (.str header.1, .str header.2)) =
      .ok a.headers := by
    have inOrder : FieldList.merge [] a.headers = a.headers := FieldList.ofList_eq_self distinct
    rw [decodeHeaders, pairsOf_headers, inOrder]
    rfl
  have method : fieldOrNull (actionFields a.toDraft) "http_method" =
      (Wording.Held.ofOption a.method).value := rfl
  rw [Action.decodeWith, headers, Schema.optional_nullable, method, Schema.nullable_held]
  rfl

theorem Draft.decode_simpleTriggers (simple : List SimpleTrigger) :
    ((simple.map SimpleTrigger.toDraft).mapM fun s =>
      liftSchema (SimpleTrigger.decodeFields (simpleFields s))) = .ok simple := by
  induction simple with
  | nil => rfl
  | cons s rest ih =>
    rw [List.map_cons, List.mapM_cons, SimpleTrigger.decodeFields_simpleFields, ih]
    rfl

/-- A trigger is what its own draft is validated as. -/
theorem Draft.validate_toDraft (named : t.name ≠ "") (nonempty : t.simpleTriggers ≠ [])
    (distinct : (FieldList.names t.action.headers).Nodup) : t.toDraft.validate = .ok t := by
  have headers : t.toDraft.action.headers.toPairs =
      .ok (t.action.headers.map fun header => (.str header.1, .str header.2)) := by
    show Except.ok (List.map _ (List.map _ _)) = _
    rw [List.map_map]
    rfl
  have action : Action.decodeWith
      (decodeHeaders (t.action.headers.map fun header => (.str header.1, .str header.2)))
      (actionFields t.toDraft.action) = .ok t.action := decode_action distinct
  have simple : (t.toDraft.simpleTriggers.mapM fun s =>
      liftSchema (SimpleTrigger.decodeFields (simpleFields s))) = .ok t.simpleTriggers :=
    decode_simpleTriggers t.simpleTriggers
  have name : Schema.nonEmptyText t.toDraft.name = .ok t.name :=
    Schema.nonEmptyText_ok.mpr ⟨rfl, named⟩
  have counted : t.simpleTriggers.isEmpty = false := List.isEmpty_eq_false_iff.mpr nonempty
  rw [validate, headers]
  show (do let action ← liftSchema (Action.decodeWith _ _); _) = _
  rw [action, simple, name]
  show (if t.simpleTriggers.isEmpty = true then _ else _) = _
  rw [counted]
  rfl

/-! ### Documents -/

/-- The fields of a document with one condition. -/
def documentFields (t : Trigger) (s : SimpleTrigger) : List (String × Value) :=
  [("name", .str t.name), ("action", .object t.action.toFields),
    ("simple_triggers", .list [.object s.recordedFields])]

theorem Accepted.withDefaults_action (accepted : t.Accepted s) :
    t.withDefaults.action = t.action := by
  obtain ⟨m, method⟩ := Option.isSome_iff_exists.mp accepted.method
  obtain ⟨name, ⟨⟩, simple⟩ := t
  dsimp only at method
  subst method
  rfl

theorem Accepted.withDefaults_simpleTriggers (accepted : t.Accepted s) :
    t.withDefaults.simpleTriggers = [s.withDefaults] := by
  rw [withDefaults, accepted.single]
  rfl

theorem Accepted.toDocument (accepted : t.Accepted s) (whole : t.tornName = none) :
    t.withDefaults.toDocument =
      if s.knownValue.depth ≤ Value.depthLimit then .ok (.object (documentFields t s))
      else .error .tooDeep := by
  have noName : t.withDefaults.tornName = none := whole
  rw [Trigger.toDocument, noName, accepted.withDefaults_simpleTriggers, accepted.withDefaults_action,
    List.mapM_cons, SimpleTrigger.toDocument_withDefaults accepted.kept accepted.knownValue]
  dsimp only
  by_cases shallow : s.knownValue.depth ≤ Value.depthLimit
  · rw [if_pos shallow, if_pos shallow]
    rfl
  · rw [if_neg shallow, if_neg shallow]
    rfl

theorem fields_of_parse {content : Json.Document} (parsed : parse content = .ok t) :
    ∃ tree fields given, content.tree = .ok tree ∧ tree.shown = .object fields ∧
      ofFields fields (nameIsTorn tree) = .ok given ∧ t = { given with tornName := tornNameOf tree } := by
  unfold parse at parsed
  split at parsed
  · cases parsed
  · cases parsed
  · rename_i tree read
    unfold ofTree at parsed
    split at parsed
    · rename_i fields shown
      obtain ⟨given, decoded, same⟩ := bind_eq_ok.mp parsed
      exact ⟨tree, fields, given, read, shown, decoded, (pure_eq_ok.mp same).symm⟩
    · cases parsed

/-- The names of headers and the names inside the known value are all Unicode. -/
structure NamesAreWhole (tree : Json.Tree) : Prop where
  headers : ∀ action members, tree.field? "action" = some action →
    action.field? Action.headersField = some (.object members) →
      ∀ member ∈ members, member.1.isTorn = false
  known : tornNameOf tree = none

theorem namesAreWhole_of_isWhole {tree : Json.Tree} (whole : tree.isWhole = true) :
    NamesAreWhole tree := by
  constructor
  · intro action members isAction isHeaders
    have whole := Json.Tree.isWhole_of_field? (Json.Tree.isWhole_of_field? whole isAction) isHeaders
    exact fun member inside => (Json.Tree.membersAreWhole_iff.mp whole member inside).1
  · rw [Option.eq_none_iff_forall_ne_some]
    intro letters found
    obtain ⟨conditions, isList, found⟩ := Option.bind_eq_some_iff.mp found
    obtain ⟨condition, isFirst, found⟩ := Option.bind_eq_some_iff.mp found
    obtain ⟨v, isKnown, found⟩ := Option.bind_eq_some_iff.mp found
    have whole := Json.Tree.isWhole_of_field? whole isList
    have whole := Json.Tree.isWhole_of_field? (Json.Tree.isWhole_of_item? whole isFirst) isKnown
    rw [Json.Tree.tornName?_of_isWhole v whole] at found
    cases found

theorem nameIsTorn_of_isWhole {tree : Json.Tree} (whole : tree.isWhole = true) :
    nameIsTorn tree = false :=
  Json.Tree.hasTornText_of_isWhole whole "name"

/-- Where all texts and names of a document are Unicode, its value alone says what is read of it. -/
theorem parse_of_spells {content : Json.Document} {fields : FieldList Value}
    (spells : content.Spells (.object fields)) : parse content = ofFields fields false := by
  obtain ⟨tree, read, whole, shown⟩ := spells
  rw [parse, read]
  dsimp only
  rw [ofTree, shown]
  dsimp only
  rw [nameIsTorn_of_isWhole whole, (namesAreWhole_of_isWhole whole).known]
  cases decoded : ofFields fields false with
  | error fault => rfl
  | ok t =>
    have noName := tornName_of_ofFields decoded
    show Except.ok { t with tornName := none } = _
    rw [← noName]

theorem Accepted.validate_toDraft (accepted : t.Accepted s) :
    t.withDefaults.toDraft.validate = .ok t.withDefaults := by
  have named : t.withDefaults.name ≠ "" := accepted.named
  apply Draft.validate_toDraft named
  · rw [accepted.withDefaults_simpleTriggers]
    exact List.cons_ne_nil _ _
  · rw [accepted.withDefaults_action]
    exact accepted.headers

/-- Nothing, in so many lists. -/
def nested : Nat → Value
  | 0 => .null
  | n + 1 => .list [nested n]

end Telemetry.Trigger
