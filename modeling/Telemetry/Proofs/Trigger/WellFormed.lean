import Telemetry.Proofs.Schema.Kinds
import Telemetry.Proofs.Trigger.RoundTrip
import Telemetry.Proofs.Wording

/-!
Well-formed trigger documents. Among the documents whose fields have their declared kinds, exactly the
well-formed ones are read as triggers, and every other one is refused for a rule that it breaks.
-/

namespace Telemetry

open Schema (FieldKind HasKinds IsSet isSet_of_text ofText?_eq_iff optional nullable strictText text
  member integer required_of_held)
open Value (fieldOrNull)

variable {fields : FieldList Value}

/-- A chain of refusals lets through what none of them refuses. -/
theorem guard_eq_none {α : Type} {refused : Prop} [Decidable refused] {reason : α} {rest : Option α} :
    (if refused then some reason else rest) = none ↔ ¬refused ∧ rest = none := by
  split <;> simp [*]

/-! ### Simple triggers -/

namespace SimpleTrigger

def fieldKinds : FieldList FieldKind :=
  [("type", .text), ("on", .text), ("device_id", .text), ("group_name", .text),
    ("interface_name", .text), ("interface_major", .integer), ("match_path", .text),
    ("value_match_operator", .text)]

/-- A condition on a device or on a group of devices. -/
structure WatchesDevices (fields : FieldList Value) : Prop where
  kind : fieldOrNull fields "type" = Wording.toValue Kind.device
  condition : ∃ c : Condition, c.isDevice = true ∧ fieldOrNull fields "on" = Wording.toValue c
  target : IsSet fields "device_id" ↔ ¬IsSet fields "group_name"
  noData : ∀ name ∈ dataFields, ¬IsSet fields name

/-- A condition on the data of one interface, or of any. -/
structure WatchesData (fields : FieldList Value) : Prop where
  kind : fieldOrNull fields "type" = Wording.toValue Kind.data
  condition : ∃ c : Condition, c.isDevice = false ∧ fieldOrNull fields "on" = Wording.toValue c
  noDevice : ¬IsSet fields "device_id"
  noGroup : ¬IsSet fields "group_name"
  interface : IsSet fields "interface_name"
  path : IsSet fields "match_path"
  major : IsSet fields "interface_major" ∨ fieldOrNull fields "interface_name" = .str "*"
  operator : ∃ o : MatchOperator, fieldOrNull fields "value_match_operator" = Wording.toValue o ∧
    (IsSet fields "known_value" ∨ o = .all)

def WellFormed (fields : FieldList Value) : Prop :=
  WatchesDevices fields ∨ WatchesData fields

variable {p : Presence} {condition : String}

theorem deviceViolation_eq_none_iff : p.deviceViolation condition = none ↔
    (∃ c : Condition, c.isDevice = true ∧ condition = wire c) ∧
      (p.deviceId ≠ none ↔ ¬p.groupName ≠ none) ∧ p.hasDataField = false := by
  simp only [← Wording.any_ofWire?_iff, Presence.deviceViolation, guard_eq_none]
  cases p.deviceId <;> cases p.groupName <;> simp

theorem dataViolation_eq_none_iff : p.dataViolation condition = none ↔
    (∃ c : Condition, (!c.isDevice) = true ∧ condition = wire c) ∧
      (p.deviceId = none ∧ p.groupName = none) ∧
      ∃ interface, p.interfaceName = some interface ∧
        (p.interfaceMajor ≠ none ∨ interface = "*") ∧ p.matchPath ≠ none ∧
        ∃ word, p.operator = some word ∧
          ∃ o : MatchOperator, (!p.knownValue.isNull || o = .all) = true ∧ word = wire o := by
  simp only [← Wording.any_ofWire?_iff]
  rw [Presence.dataViolation, guard_eq_none, guard_eq_none]
  cases p.interfaceName with
  | none => simp
  | some interface =>
    dsimp only
    rw [guard_eq_none, guard_eq_none]
    cases p.operator with
    | none => simp
    | some word =>
      cases read : Wording.ofWire? (α := MatchOperator) word with
      | none => simp [read]
      | some o => simp [read, or_iff_not_imp_left]

theorem violation_eq_none_iff : p.violation = none ↔
    (p.kind = some (wire Kind.device) ∧
      ∃ condition, p.condition = some condition ∧ p.deviceViolation condition = none) ∨
    (p.kind = some (wire Kind.data) ∧
      ∃ condition, p.condition = some condition ∧ p.dataViolation condition = none) := by
  unfold Presence.violation
  cases p.kind with
  | none => simp
  | some kind =>
    cases p.condition with
    | none => simp
    | some condition =>
      cases read : Wording.ofWire? (α := Kind) kind with
      | none =>
        have unknown := Wording.ofWire?_eq_none_iff.mp read
        simp [read, unknown]
      | some k =>
        obtain rfl := Wording.wire_of_ofWire? read
        have distinct : wire Kind.device ≠ wire Kind.data := by decide
        cases k <;> simp [Wording.ofWire?_wire, distinct, distinct.symm]

/-! ### Documents of simple triggers -/

theorem isSet_major {name : String}
    (strict : nullable integerOrText (fieldOrNull fields name) = .ok p.interfaceMajor) :
    IsSet fields name ↔ p.interfaceMajor ≠ none := by
  rcases Schema.nullable_ok strict with ⟨null, none⟩ | ⟨given, _, -, some⟩
  · simp [IsSet, null, none]
  · simp [IsSet, given, some]

theorem isSet_known {name : String} (strict : fieldOrNull fields name = p.knownValue) :
    IsSet fields name ↔ p.knownValue.isNull = false := by
  rw [IsSet, strict]
  cases p.knownValue <;> simp [Value.isNull]

theorem hasDataField_iff (strict : Presence.decodeFields fields = .ok p) :
    p.hasDataField = false ↔ ∀ name ∈ dataFields, ¬IsSet fields name := by
  obtain ⟨-, -, -, -, interfaceName, interfaceMajor, matchPath, operator, knownValue⟩ :=
    Presence.decodeFields_iff.mp strict
  rw [Schema.nullable_strictText_iff] at interfaceName matchPath operator
  simp [Presence.hasDataField, dataFields, isSet_of_text interfaceName, isSet_major interfaceMajor,
    isSet_of_text matchPath, isSet_of_text operator, isSet_known knownValue, and_assoc]

theorem watchesDevices_iff (strict : Presence.decodeFields fields = .ok p) :
    WatchesDevices fields ↔ p.kind = some (wire Kind.device) ∧
      ∃ condition, p.condition = some condition ∧ p.deviceViolation condition = none := by
  obtain ⟨kind, condition, deviceId, groupName, -⟩ := Presence.decodeFields_iff.mp strict
  rw [Schema.nullable_strictText_iff] at kind condition deviceId groupName
  simp only [deviceViolation_eq_none_iff, hasDataField_iff strict, ← isSet_of_text deviceId,
    ← isSet_of_text groupName]
  constructor
  · rintro ⟨isKind, ⟨c, suited, isCondition⟩, target, noData⟩
    exact ⟨ofText?_eq_iff.mp (kind.symm.trans isKind), wire c,
      ofText?_eq_iff.mp (condition.symm.trans isCondition), ⟨c, suited, rfl⟩, target, noData⟩
  · rintro ⟨isKind, _, isCondition, ⟨c, suited, rfl⟩, target, noData⟩
    exact ⟨kind.trans (ofText?_eq_iff.mpr isKind),
      ⟨c, suited, condition.trans (ofText?_eq_iff.mpr isCondition)⟩, target, noData⟩

theorem watchesData_iff (strict : Presence.decodeFields fields = .ok p) :
    WatchesData fields ↔ p.kind = some (wire Kind.data) ∧
      ∃ condition, p.condition = some condition ∧ p.dataViolation condition = none := by
  obtain ⟨kind, condition, deviceId, groupName, interfaceName, interfaceMajor, matchPath, operator,
    knownValue⟩ := Presence.decodeFields_iff.mp strict
  rw [Schema.nullable_strictText_iff] at kind condition deviceId groupName interfaceName matchPath operator
  have noDevice : p.deviceId = none ↔ ¬IsSet fields "device_id" := by
    rw [isSet_of_text deviceId, not_not]
  have noGroup : p.groupName = none ↔ ¬IsSet fields "group_name" := by
    rw [isSet_of_text groupName, not_not]
  simp only [dataViolation_eq_none_iff, noDevice, noGroup, ← isSet_major interfaceMajor,
    ← isSet_of_text matchPath, Bool.or_eq_true, Bool.not_eq_true', decide_eq_true_eq,
    ← isSet_known knownValue]
  constructor
  · intro rules
    obtain ⟨c, suited, isCondition⟩ := rules.condition
    obtain ⟨o, isOperator, compared⟩ := rules.operator
    obtain ⟨interface, isInterface⟩ :=
      Option.ne_none_iff_exists'.mp ((isSet_of_text interfaceName).mp rules.interface)
    refine ⟨ofText?_eq_iff.mp (kind.symm.trans rules.kind), wire c,
      ofText?_eq_iff.mp (condition.symm.trans isCondition), ⟨c, by simp [suited], rfl⟩,
      ⟨rules.noDevice, rules.noGroup⟩, interface, isInterface, ?_, rules.path, wire o,
      ofText?_eq_iff.mp (operator.symm.trans isOperator), o, compared, rfl⟩
    refine rules.major.imp_right fun any => ?_
    have named := ofText?_eq_iff.mp (interfaceName.symm.trans any)
    exact Option.some.inj (isInterface.symm.trans named)
  · rintro ⟨isKind, _, isCondition, ⟨c, suited, rfl⟩, ⟨device, group⟩, interface, isInterface, major,
      path, _, isOperator, o, compared, rfl⟩
    refine ⟨kind.trans (ofText?_eq_iff.mpr isKind),
      ⟨c, by simpa using suited, condition.trans (ofText?_eq_iff.mpr isCondition)⟩, device, group, ?_,
      path, ?_, o, operator.trans (ofText?_eq_iff.mpr isOperator), compared⟩
    · rw [isSet_of_text interfaceName, isInterface]
      exact Option.some_ne_none _
    · refine major.imp_right ?_
      rintro rfl
      exact interfaceName.trans (ofText?_eq_iff.mpr isInterface)

theorem wellFormed_iff (strict : Presence.decodeFields fields = .ok p) :
    WellFormed fields ↔ p.violation = none := by
  rw [WellFormed, watchesDevices_iff strict, watchesData_iff strict, violation_eq_none_iff]

theorem exists_presence (typed : HasKinds fieldKinds fields) :
    ∃ p, Presence.decodeFields fields = .ok p := by
  obtain ⟨kind, isKind⟩ := typed.text "type" (by decide)
  obtain ⟨condition, isCondition⟩ := typed.text "on" (by decide)
  obtain ⟨deviceId, isDeviceId⟩ := typed.text "device_id" (by decide)
  obtain ⟨groupName, isGroupName⟩ := typed.text "group_name" (by decide)
  obtain ⟨interfaceName, isInterfaceName⟩ := typed.text "interface_name" (by decide)
  obtain ⟨interfaceMajor, isInterfaceMajor⟩ := typed.integer "interface_major" (by decide)
  obtain ⟨matchPath, isMatchPath⟩ := typed.text "match_path" (by decide)
  obtain ⟨operator, isOperator⟩ := typed.text "value_match_operator" (by decide)
  refine ⟨⟨kind, condition, deviceId, groupName, interfaceName, interfaceMajor.map .int, matchPath,
    operator, fieldOrNull fields "known_value"⟩, Presence.decodeFields_iff.mpr ?_⟩
  simp only [Schema.nullable_strictText_iff]
  refine ⟨isKind, isCondition, isDeviceId, isGroupName, isInterfaceName, ?_, isMatchPath, isOperator, trivial⟩
  rw [isInterfaceMajor]
  exact nullable_integerOrText interfaceMajor

/-- The words of the enumerations are all that the lenient reading can trip over. -/
theorem exists_decoded (typed : HasKinds fieldKinds fields) {kind : Option Kind}
    {condition : Option Condition} {operator : Option MatchOperator}
    (isKind : fieldOrNull fields "type" = kind.elim .null Wording.toValue)
    (isCondition : fieldOrNull fields "on" = condition.elim .null Wording.toValue)
    (isOperator : fieldOrNull fields "value_match_operator" = operator.elim .null Wording.toValue) :
    ∃ t, decodeFields fields = .ok t := by
  obtain ⟨deviceId, isDeviceId⟩ := typed.text "device_id" (by decide)
  obtain ⟨groupName, isGroupName⟩ := typed.text "group_name" (by decide)
  obtain ⟨interfaceName, isInterfaceName⟩ := typed.text "interface_name" (by decide)
  obtain ⟨interfaceMajor, isInterfaceMajor⟩ := typed.integer "interface_major" (by decide)
  obtain ⟨matchPath, isMatchPath⟩ := typed.text "match_path" (by decide)
  refine ⟨⟨kind, condition, deviceId, groupName, interfaceName, interfaceMajor, matchPath, operator,
    fieldOrNull fields "known_value"⟩, decodeFields_iff.mpr ?_⟩
  rw [isKind, isCondition, isDeviceId, isGroupName, isInterfaceName, isInterfaceMajor, isMatchPath,
    isOperator]
  exact ⟨Schema.nullable_member kind, Schema.nullable_member condition, Schema.nullable_text deviceId,
    Schema.nullable_text groupName, Schema.nullable_text interfaceName,
    Schema.nullable_integer interfaceMajor, Schema.nullable_text matchPath,
    Schema.nullable_member operator, rfl⟩

theorem WellFormed.exists_decoded (rules : WellFormed fields) (typed : HasKinds fieldKinds fields) :
    ∃ t, decodeFields fields = .ok t := by
  rcases rules with rules | rules
  · obtain ⟨c, -, condition⟩ := rules.condition
    have kind : fieldOrNull fields "type" = (some Kind.device).elim .null Wording.toValue := rules.kind
    have condition : fieldOrNull fields "on" = (some c).elim .null Wording.toValue := condition
    have operator : fieldOrNull fields "value_match_operator" =
        (none : Option MatchOperator).elim .null Wording.toValue :=
      not_not.mp (rules.noData "value_match_operator" (by decide))
    exact SimpleTrigger.exists_decoded typed kind condition operator
  · obtain ⟨c, -, condition⟩ := rules.condition
    obtain ⟨o, operator, -⟩ := rules.operator
    have kind : fieldOrNull fields "type" = (some Kind.data).elim .null Wording.toValue := rules.kind
    have condition : fieldOrNull fields "on" = (some c).elim .null Wording.toValue := condition
    have operator : fieldOrNull fields "value_match_operator" =
        (some o).elim .null Wording.toValue := operator
    exact SimpleTrigger.exists_decoded typed kind condition operator

end SimpleTrigger

/-! ### Triggers -/

namespace Trigger

/-- The declared kinds of the fields of an action; only its texts may be null. -/
structure Action.Declared (fields : FieldList Value) : Prop where
  texts : HasKinds [("http_url", .text), ("http_method", .text)] fields
  headers : ∀ v, FieldList.get? fields headersField = some v →
    ∃ headers : FieldList String, v = .object (headers.map fun header => (header.1, .str header.2))
  ignoreSslErrors : ∀ v, FieldList.get? fields "ignore_ssl_errors" = some v → ∃ b, v = .bool b

/-- The declared kinds of the fields of a trigger and of what is inside it. -/
structure Declared (fields : FieldList Value) : Prop where
  name : HasKinds [("name", .text)] fields
  action : fieldOrNull fields "action" = .null ∨
    ∃ inner, fieldOrNull fields "action" = .object inner ∧ Action.Declared inner
  simpleTriggers : fieldOrNull fields "simple_triggers" = .null ∨
    ∃ items : List (FieldList Value),
      fieldOrNull fields "simple_triggers" = .list (items.map .object) ∧
        ∀ inner ∈ items, HasKinds SimpleTrigger.fieldKinds inner

structure Action.WellFormed (fields : FieldList Value) : Prop where
  url : IsSet fields "http_url"
  method : ∃ m : HttpMethod, fieldOrNull fields "http_method" = Wording.toValue m

structure WellFormed (fields : FieldList Value) : Prop where
  named : IsSet fields "name" ∧ fieldOrNull fields "name" ≠ .str ""
  action : ∃ inner, fieldOrNull fields "action" = .object inner ∧ Action.WellFormed inner
  single : ∃ inner, fieldOrNull fields "simple_triggers" = .list [.object inner] ∧
    SimpleTrigger.WellFormed inner

theorem ActionPresence.violation_eq_none_iff {a : ActionPresence} : a.violation = none ↔
    a.url ≠ none ∧ ∃ m : HttpMethod, a.method = some (wire m) := by
  unfold ActionPresence.violation
  cases a.url with
  | none => simp
  | some url =>
    cases a.method with
    | none => simp
    | some word =>
      have known : (∃ m : HttpMethod, word = wire m) ↔ Wording.ofWire? (α := HttpMethod) word ≠ none := by
        rw [Ne, Wording.ofWire?_eq_none_iff]
        simp
      simp [known]

theorem simpleViolation_eq_none_iff {given : Option (List SimpleTrigger.Presence)} :
    simpleViolation given = none ↔ ∃ simple, given = some [simple] ∧ simple.violation = none := by
  constructor
  · intro kept
    unfold simpleViolation at kept
    split at kept
    · cases kept
    · cases kept
    · exact ⟨_, rfl, Option.map_eq_none_iff.mp kept⟩
    · cases kept
  · rintro ⟨simple, rfl, kept⟩
    exact Option.map_eq_none_iff.mpr kept

theorem Presence.violation_eq_none_iff {p : Presence} : p.violation = none ↔
    (p.name ≠ none ∧ p.name ≠ some "") ∧ (∃ action, p.action = some action ∧ action.violation = none) ∧
      ∃ simple, p.simpleTriggers = some [simple] ∧ simple.violation = none := by
  rw [Presence.violation, guard_eq_none]
  have named : ¬p.name.getD "" = "" ↔ p.name ≠ none ∧ p.name ≠ some "" := by
    cases p.name <;> simp
  rw [named, ← simpleViolation_eq_none_iff]
  cases p.action <;> simp

theorem Action.exists_presence (declared : Action.Declared fields) :
    ∃ p, ActionPresence.decode (.object fields) = .ok p ∧
      (Action.WellFormed fields ↔ p.violation = none) := by
  obtain ⟨url, isUrl⟩ := declared.texts.text "http_url" (by decide)
  obtain ⟨method, isMethod⟩ := declared.texts.text "http_method" (by decide)
  refine ⟨⟨url, method⟩, ?_, ?_⟩
  · simp only [ActionPresence.decode, Schema.record, Schema.optional_nullable, bind_eq_ok, pure_eq_ok,
      Schema.under_ok, Schema.nullable_strictText_iff]
    exact ⟨url, isUrl, method, isMethod, rfl⟩
  · rw [ActionPresence.violation_eq_none_iff, ← isSet_of_text isUrl]
    constructor
    · rintro ⟨isSet, m, given⟩
      exact ⟨isSet, m, ofText?_eq_iff.mp (isMethod.symm.trans given)⟩
    · rintro ⟨isSet, m, given⟩
      exact ⟨isSet, m, isMethod.trans (ofText?_eq_iff.mpr given)⟩

theorem Action.WellFormed.exists_decoded (rules : Action.WellFormed fields)
    (declared : Action.Declared fields) : ∃ a, Action.decodeFields fields = .ok a := by
  obtain ⟨m, isMethod⟩ := rules.method
  obtain ⟨o, isUrl⟩ := declared.texts.text "http_url" (by decide)
  obtain ⟨url, rfl⟩ := Option.ne_none_iff_exists'.mp ((isSet_of_text isUrl).mp rules.url)
  have urlRead : Schema.required fields "http_url" text = .ok url :=
    required_of_held isUrl (by simp [Value.ofText?]) rfl
  have method : optional fields "http_method" none (nullable (member HttpMethod)) = .ok (some m) := by
    rw [Schema.optional_nullable, Schema.under_ok, isMethod]
    exact Schema.nullable_member (some m)
  obtain ⟨headers, headersRead⟩ : ∃ headers,
      optional fields headersField [] (Schema.dictionary text) = .ok headers := by
    apply Schema.exists_optional
    intro v held
    obtain ⟨headers, rfl⟩ := declared.headers v held
    exact ⟨headers, fieldsOf_headers headers⟩
  obtain ⟨ignores, ignoresRead⟩ : ∃ ignores,
      optional fields "ignore_ssl_errors" false Schema.boolean = .ok ignores := by
    apply Schema.exists_optional
    intro v held
    obtain ⟨b, rfl⟩ := declared.ignoreSslErrors v held
    exact ⟨b, rfl⟩
  refine ⟨⟨url, some m, headers, ignores⟩, ?_⟩
  rw [decodeFields, decodeWith, urlRead, method, headersRead, ignoresRead]
  rfl

/-! ### Documents of triggers -/

theorem exists_actionPresence (declared : Declared fields) :
    ∃ action, nullable ActionPresence.decode (fieldOrNull fields "action") = .ok action ∧
      ((∃ inner, fieldOrNull fields "action" = .object inner ∧ Action.WellFormed inner) ↔
        ∃ a, action = some a ∧ a.violation = none) := by
  rcases declared.action with null | ⟨inner, isAction, declared⟩
  · rw [null]
    exact ⟨none, rfl, by simp⟩
  · obtain ⟨a, decoded, rules⟩ := Action.exists_presence declared
    rw [isAction, Schema.nullable_of_ne (by simp), decoded]
    exact ⟨some a, rfl, by simp [rules]⟩

theorem exists_simplePresence (declared : Declared fields) :
    ∃ simple, nullable (Schema.list SimpleTrigger.Presence.decode)
        (fieldOrNull fields "simple_triggers") = .ok simple ∧
      ((∃ inner, fieldOrNull fields "simple_triggers" = .list [.object inner] ∧
          SimpleTrigger.WellFormed inner) ↔
        ∃ p, simple = some [p] ∧ p.violation = none) := by
  rcases declared.simpleTriggers with null | ⟨items, isList, typed⟩
  · rw [null]
    exact ⟨none, rfl, by simp⟩
  · obtain ⟨found, each⟩ := Schema.exists_forall₂ fun inner member =>
      SimpleTrigger.exists_presence (typed inner member)
    have decoded : Schema.list SimpleTrigger.Presence.decode (.list (items.map .object)) = .ok found :=
      Schema.list_ok.mpr ⟨_, .inl rfl, List.forall₂_map_left_iff.mpr each⟩
    rw [isList, Schema.nullable_of_ne (by simp), decoded]
    refine ⟨some found, rfl, ?_⟩
    constructor
    · rintro ⟨inner, single, rules⟩
      obtain ⟨_, rfl, same⟩ := List.map_eq_singleton_iff.mp (Value.list.inj single)
      cases same
      cases each with
      | cons strict rest =>
        cases rest
        exact ⟨_, rfl, (SimpleTrigger.wellFormed_iff strict).mp rules⟩
    · rintro ⟨p, single, kept⟩
      cases single
      cases each with
      | cons strict rest =>
        cases rest
        exact ⟨_, rfl, (SimpleTrigger.wellFormed_iff strict).mpr kept⟩

theorem exists_presence (declared : Declared fields) :
    ∃ p, Presence.decodeFields fields = .ok p ∧ (WellFormed fields ↔ p.violation = none) := by
  obtain ⟨name, isName⟩ := declared.name.text "name" (by decide)
  obtain ⟨action, actionRead, actionRules⟩ := exists_actionPresence declared
  obtain ⟨simple, simpleRead, simpleRules⟩ := exists_simplePresence declared
  refine ⟨⟨name, action, simple⟩, ?_, ?_⟩
  · simp only [Presence.decodeFields, Schema.optional_nullable, bind_eq_ok, pure_eq_ok, Schema.under_ok,
      Schema.nullable_strictText_iff]
    exact ⟨name, isName, action, actionRead, simple, simpleRead, rfl⟩
  · rw [Presence.violation_eq_none_iff, ← isSet_of_text isName, ← actionRules, ← simpleRules]
    have nonempty : fieldOrNull fields "name" ≠ .str "" ↔ name ≠ some "" := by
      rw [isName, Ne, ofText?_eq_iff]
    rw [← nonempty]
    constructor
    · intro rules
      exact ⟨rules.named, rules.action, rules.single⟩
    · rintro ⟨named, action, single⟩
      exact ⟨named, action, single⟩

theorem WellFormed.exists_decoded (rules : WellFormed fields) (declared : Declared fields) :
    ∃ t, decodeFields fields = .ok t := by
  have name : ∃ name, Schema.required fields "name" Schema.nonEmptyText = .ok name := by
    obtain ⟨isSet, nonempty⟩ := rules.named
    obtain ⟨o, isName⟩ := declared.name.text "name" (by decide)
    obtain ⟨name, rfl⟩ := Option.ne_none_iff_exists'.mp ((isSet_of_text isName).mp isSet)
    refine ⟨name, required_of_held isName (by simp [Value.ofText?]) (Schema.nonEmptyText_ok.mpr ⟨rfl, ?_⟩)⟩
    rintro rfl
    exact nonempty isName
  have action : ∃ action, Schema.required fields "action" Action.decode = .ok action := by
    obtain ⟨inner, isAction, actionRules⟩ := rules.action
    rcases declared.action with null | ⟨_, same, declared⟩
    · cases isAction.symm.trans null
    · cases isAction.symm.trans same
      obtain ⟨a, decoded⟩ := actionRules.exists_decoded declared
      exact ⟨a, required_of_held isAction (by simp) decoded⟩
  have simple : ∃ simple, Schema.required fields "simple_triggers"
      (Schema.nonEmptyList SimpleTrigger.decode) = .ok simple := by
    obtain ⟨inner, isSingle, simpleRules⟩ := rules.single
    rcases declared.simpleTriggers with null | ⟨items, same, typed⟩
    · cases isSingle.symm.trans null
    · obtain ⟨_, rfl, object⟩ := List.map_eq_singleton_iff.mp (Value.list.inj (same.symm.trans isSingle))
      cases object
      obtain ⟨s, decoded⟩ := simpleRules.exists_decoded (typed inner List.mem_cons_self)
      have item : SimpleTrigger.decode (.object inner) = .ok s := decoded
      have items := Schema.nonEmptyList_ok.mpr ⟨Schema.list_of_singleton item, List.cons_ne_nil s []⟩
      exact ⟨[s], required_of_held isSingle (by simp) items⟩
  obtain ⟨name, nameRead⟩ := name
  obtain ⟨action, actionRead⟩ := action
  obtain ⟨simple, simpleRead⟩ := simple
  refine ⟨⟨name, action, simple, none⟩, ?_⟩
  rw [decodeFields, nameRead, actionRead, simpleRead]
  rfl

/-- The rules are complete: what breaks none of them is read as a trigger unless its name is no Unicode,
and all else of the declared kinds is refused for one of them. -/
theorem parse_isOk_iff_wellFormed {content : Json.Document} {tree : Json.Tree}
    (read : content.tree = .ok tree) (shown : tree.shown = .object fields)
    (declared : Declared fields) :
    ((∃ t, parse content = .ok t) ↔ WellFormed fields ∧ nameIsTorn tree = false) ∧
      ((∃ fault, parse content = .error (.malformed fault)) ↔
        WellFormed fields ∧ nameIsTorn tree = true) ∧
      ((∃ violation, parse content = .error (.broken violation)) ↔ ¬WellFormed fields) := by
  obtain ⟨p, strict, rules⟩ := exists_presence declared
  have parsed : parse content = ofTree tree := by
    rw [parse, read]
  rw [parsed, ofTree, shown]
  dsimp only
  rw [ofFields, strict, rules]
  dsimp only
  cases kept : p.violation with
  | some violation => simp
  | none =>
    obtain ⟨t, decoded⟩ := (rules.mpr kept).exists_decoded declared
    cases nameIsTorn tree with
    | true => simp [Schema.under, Schema.fail]
    | false => simp [decoded]

/-- A document on errors of one device, whose condition may name a group as well. -/
def namedGateway (name : String) (group : Value) : FieldList Value :=
  [("name", .str name), ("note", .list []),
    ("action", .object [("http_url", .str ""), ("http_method", .str "put"),
      (Action.headersField, .object [("token", .str "1")]), ("ignore_ssl_errors", .bool true)]),
    ("simple_triggers", .list [.object [("type", .str "device_trigger"), ("on", .str "device_error"),
      ("device_id", .str "1"), ("group_name", group), ("known_value", .null)]])]

def gatewayFields (group : Value) : FieldList Value :=
  namedGateway "gateway" group

theorem declared_namedGateway (name : String) {group : Value}
    (given : group = .null ∨ group = .str "field") : Declared (namedGateway name group) := by
  have simple : ∀ inner ∈ [[("type", .str "device_trigger"), ("on", .str "device_error"),
      ("device_id", .str "1"), ("group_name", group), ("known_value", .null)]],
      HasKinds SimpleTrigger.fieldKinds inner := by
    rcases given with rfl | rfl <;> decide
  refine ⟨?_, .inr ⟨_, rfl, by decide, ?_, ?_⟩, .inr ⟨_, rfl, simple⟩⟩
  · intro field member
    obtain rfl := List.mem_singleton.mp member
    exact .inr rfl
  · intro v held
    cases held
    exact ⟨[("token", "1")], rfl⟩
  · intro v held
    cases held
    exact ⟨true, rfl⟩

theorem wellFormed_namedGateway {name : String} (named : name ≠ "") :
    WellFormed (namedGateway name .null) := by
  refine ⟨by simpa [IsSet, namedGateway, fieldOrNull, FieldList.get?_cons] using named,
    ⟨_, rfl, ?_, .put, rfl⟩, ⟨_, rfl, .inl ⟨rfl, ⟨.deviceError, rfl, rfl⟩, ?_, ?_⟩⟩⟩
  · simp [IsSet, fieldOrNull, FieldList.get?_cons]
  · simp [IsSet, fieldOrNull, FieldList.get?_cons]
  · simp [IsSet, fieldOrNull, FieldList.get?_cons, SimpleTrigger.dataFields]

theorem parse_isOk_iff_wellFormed_of_gateway :
    (∃ t, parse (.text (Json.writeString (.object (gatewayFields .null)))) = .ok t) ∧
      ∃ violation, parse (.text (Json.writeString (.object (gatewayFields (.str "field"))))) =
        .error (.broken violation) := by
  have fits : Json.Fits Json.nestingLimit (.object (gatewayFields .null)) ∧
      Json.Fits Json.nestingLimit (.object (gatewayFields (.str "field"))) := by
    constructor <;> constructor <;> decide +kernel
  obtain ⟨one, read, whole, shown⟩ := Json.Document.spells_writeString fits.1
  obtain ⟨both, read', -, shown'⟩ := Json.Document.spells_writeString fits.2
  have accepts := parse_isOk_iff_wellFormed read shown (declared_namedGateway _ (.inl rfl))
  have refuses := parse_isOk_iff_wellFormed read' shown' (declared_namedGateway _ (.inr rfl))
  refine ⟨accepts.1.mpr ⟨wellFormed_namedGateway (by decide), nameIsTorn_of_isWhole whole⟩,
    refuses.2.2.mpr ?_⟩
  rintro ⟨-, -, _, single, rules⟩
  cases single
  rcases rules with rules | rules
  · have target := rules.target
    simp [IsSet, fieldOrNull, FieldList.get?_cons] at target
  · exact absurd rules.kind (by decide)

/-- The same document with half of a pair for its name. -/
def tornGateway : String :=
  "\x7b\"name\": \"\\ud800\", \"note\": [], \"action\": \x7b\"http_url\": \"\", \"http_method\": \"put\", " ++
  "\"http_static_headers\": \x7b\"token\": \"1\"\x7d, \"ignore_ssl_errors\": true\x7d, " ++
  "\"simple_triggers\": [\x7b\"type\": \"device_trigger\", \"on\": \"device_error\", " ++
  "\"device_id\": \"1\", \"group_name\": null, \"known_value\": null\x7d]\x7d"

/-- A document that breaks no rule and is no trigger. -/
theorem wellFormed_and_refused : ∃ fields, (Json.Document.text tornGateway).read = .ok (.object fields) ∧
    Declared fields ∧ WellFormed fields ∧ ¬∃ t, parse (.text tornGateway) = .ok t := by
  have taken : (Json.Document.text tornGateway).tree.map (fun tree => (tree.shown, ofTree tree)) =
      .ok (.object (namedGateway "\uFFFD" .null), .error (.malformed ⟨["name"], .notUnicode⟩)) := by
    decide +kernel
  cases read : (Json.Document.text tornGateway).tree with
  | error fault =>
    rw [read] at taken
    cases taken
  | ok tree =>
    rw [read] at taken
    obtain ⟨shown, refused⟩ := Prod.mk.inj (Except.ok.inj taken)
    refine ⟨_, Json.Document.read_eq_ok_iff.mpr ⟨tree, read, shown⟩,
      declared_namedGateway _ (.inl rfl), wellFormed_namedGateway (by decide), ?_⟩
    rintro ⟨t, parsed⟩
    rw [parse, read] at parsed
    cases refused.symm.trans parsed

end Trigger

end Telemetry
