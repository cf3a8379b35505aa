import Telemetry.Proofs.Schema.Decoder
import Telemetry.Trigger.Reader

/-!
What an accepted trigger is. The rules are checked on a strict reading of the fields and the trigger
is made from a lenient one; where the rules are kept, the two agree, so they hold of the trigger too.
-/

namespace Telemetry

open Schema (optional nullable under strictText text member integer required)
open Value (fieldOrNull)

variable {fields : List (String × Value)}

namespace SimpleTrigger

variable {p : Presence} {t : SimpleTrigger}

/-- What the rules see of a simple trigger. -/
def presence (t : SimpleTrigger) : Presence where
  kind := t.kind.map wire
  condition := t.condition.map wire
  deviceId := t.deviceId
  groupName := t.groupName
  interfaceName := t.interfaceName
  interfaceMajor := t.interfaceMajor.map .int
  matchPath := t.matchPath
  operator := t.operator.map wire
  knownValue := t.knownValue

/-! ### The two readings -/

theorem Presence.decodeFields_iff : Presence.decodeFields fields = .ok p ↔
    nullable strictText (fieldOrNull fields "type") = .ok p.kind ∧
    nullable strictText (fieldOrNull fields "on") = .ok p.condition ∧
    nullable strictText (fieldOrNull fields "device_id") = .ok p.deviceId ∧
    nullable strictText (fieldOrNull fields "group_name") = .ok p.groupName ∧
    nullable strictText (fieldOrNull fields "interface_name") = .ok p.interfaceName ∧
    nullable integerOrText (fieldOrNull fields "interface_major") = .ok p.interfaceMajor ∧
    nullable strictText (fieldOrNull fields "match_path") = .ok p.matchPath ∧
    nullable strictText (fieldOrNull fields "value_match_operator") = .ok p.operator ∧
    fieldOrNull fields "known_value" = p.knownValue := by
  simp only [Presence.decodeFields, Schema.optional_nullable, Schema.optional_any, bind_eq_ok, pure_eq_ok,
    Schema.under_ok, Except.ok.injEq]
  constructor
  · rintro ⟨_, kind, _, condition, _, deviceId, _, groupName, _, interfaceName, _, interfaceMajor, _,
      matchPath, _, operator, _, knownValue, rfl⟩
    exact ⟨kind, condition, deviceId, groupName, interfaceName, interfaceMajor, matchPath, operator,
      knownValue⟩
  · rintro ⟨kind, condition, deviceId, groupName, interfaceName, interfaceMajor, matchPath, operator,
      knownValue⟩
    exact ⟨_, kind, _, condition, _, deviceId, _, groupName, _, interfaceName, _, interfaceMajor, _,
      matchPath, _, operator, _, knownValue, rfl⟩

theorem decodeFields_iff : decodeFields fields = .ok t ↔
    nullable (member Kind) (fieldOrNull fields "type") = .ok t.kind ∧
    nullable (member Condition) (fieldOrNull fields "on") = .ok t.condition ∧
    nullable text (fieldOrNull fields "device_id") = .ok t.deviceId ∧
    nullable text (fieldOrNull fields "group_name") = .ok t.groupName ∧
    nullable text (fieldOrNull fields "interface_name") = .ok t.interfaceName ∧
    nullable integer (fieldOrNull fields "interface_major") = .ok t.interfaceMajor ∧
    nullable text (fieldOrNull fields "match_path") = .ok t.matchPath ∧
    nullable (member MatchOperator) (fieldOrNull fields "value_match_operator") = .ok t.operator ∧
    fieldOrNull fields "known_value" = t.knownValue := by
  simp only [decodeFields, Schema.optional_nullable, Schema.optional_any, bind_eq_ok, pure_eq_ok,
    Schema.under_ok, Except.ok.injEq]
  constructor
  · rintro ⟨_, kind, _, condition, _, deviceId, _, groupName, _, interfaceName, _, interfaceMajor, _,
      matchPath, _, operator, _, knownValue, rfl⟩
    exact ⟨kind, condition, deviceId, groupName, interfaceName, interfaceMajor, matchPath, operator,
      knownValue⟩
  · rintro ⟨kind, condition, deviceId, groupName, interfaceName, interfaceMajor, matchPath, operator,
      knownValue⟩
    exact ⟨_, kind, _, condition, _, deviceId, _, groupName, _, interfaceName, _, interfaceMajor, _,
      matchPath, _, operator, _, knownValue, rfl⟩

theorem condition_of_kept (kept : t.presence.violation = none) :
    t.kind.isSome = true ∧ t.condition.isSome = true := by
  obtain ⟨kind, condition, _⟩ := t
  cases kind with
  | none => cases kept
  | some kind =>
    cases condition with
    | none => cases kept
    | some condition => exact ⟨rfl, rfl⟩

theorem hasDataField_of_kept {condition : String} (kept : p.deviceViolation condition = none) :
    p.hasDataField = false := by
  unfold Presence.deviceViolation at kept
  split_ifs at kept with unsuited none two data
  exact eq_false_of_ne_true data

theorem operator_of_kept {condition : String} (kept : p.dataViolation condition = none) :
    p.operator.isSome = true := by
  cases operator : p.operator with
  | some _ => rfl
  | none =>
    unfold Presence.dataViolation at kept
    rw [operator] at kept
    split at kept
    · cases kept
    split at kept
    · cases kept
    split at kept
    · cases kept
    split at kept
    · cases kept
    split at kept <;> cases kept

/-- A device trigger that keeps the rules has nothing that is about data. -/
theorem fields_of_device (kept : t.presence.violation = none) (device : t.kind = some .device) :
    t.interfaceName = none ∧ t.interfaceMajor = none ∧ t.matchPath = none ∧ t.operator = none ∧
      t.knownValue = .null := by
  obtain ⟨condition, given⟩ := Option.isSome_iff_exists.mp (condition_of_kept kept).2
  have violation : t.presence.violation = t.presence.deviceViolation (wire condition) := by
    simp only [Presence.violation, presence, device, given, Option.map_some, Wording.ofWire?_wire]
  have nothing := hasDataField_of_kept (violation.symm.trans kept)
  simp only [Presence.hasDataField, presence, Option.isSome_map, Bool.or_eq_false_iff,
    Option.isSome_eq_false_iff, Option.isNone_iff_eq_none, Bool.not_eq_false'] at nothing
  obtain ⟨⟨⟨⟨interfaceName, interfaceMajor⟩, matchPath⟩, operator⟩, knownValue⟩ := nothing
  refine ⟨interfaceName, interfaceMajor, matchPath, operator, ?_⟩
  cases known : t.knownValue with
  | null => rfl
  | _ =>
    rw [known] at knownValue
    cases knownValue

theorem operator_of_data (kept : t.presence.violation = none) (data : t.kind = some .data) :
    t.operator.isSome = true := by
  obtain ⟨condition, given⟩ := Option.isSome_iff_exists.mp (condition_of_kept kept).2
  have violation : t.presence.violation = t.presence.dataViolation (wire condition) := by
    simp only [Presence.violation, presence, data, given, Option.map_some, Wording.ofWire?_wire]
  have operator := operator_of_kept (violation.symm.trans kept)
  rwa [presence, Option.isSome_map] at operator

end SimpleTrigger

/-! ### Triggers -/

namespace Trigger

variable {t : Trigger} {s : SimpleTrigger} {a : Action}

/-- What holds of a trigger that was read from a document, before its defaults are filled in. -/
structure Accepted (t : Trigger) (s : SimpleTrigger) : Prop where
  named : t.name ≠ ""
  method : t.action.method.isSome = true
  headers : (FieldList.names t.action.headers).Nodup
  single : t.simpleTriggers = [s]
  kept : s.presence.violation = none
  major : ∀ n, s.interfaceMajor = some n → Json.isContent (.int n) = true
  knownValue : Json.isContent s.knownValue = true

theorem decodeFields_of_ofFields {torn : Bool} (read : ofFields fields torn = .ok t) :
    ∃ p given, Presence.decodeFields fields = .ok p ∧ p.violation = none ∧
      decodeFields fields = .ok given ∧ given.withDefaults = t := by
  unfold ofFields at read
  split at read
  · cases read
  · rename_i p strict
    split at read
    · cases read
    · rename_i kept
      cases torn with
      | true => cases read
      | false =>
        split at read
        · cases read
        · rename_i given lenient
          exact ⟨p, given, strict, kept, lenient, Except.ok.inj read⟩

theorem tornName_of_ofFields {torn : Bool} (read : ofFields fields torn = .ok t) :
    t.tornName = none := by
  obtain ⟨_, given, -, -, decoded, rfl⟩ := decodeFields_of_ofFields read
  simp only [decodeFields, bind_eq_ok, pure_eq_ok] at decoded
  obtain ⟨_, -, _, -, _, -, rfl⟩ := decoded
  rfl

end Trigger

end Telemetry
