import Telemetry.Proofs.Trigger.Rules

/-!
What is written of an accepted trigger. Each of its parts is read back from its fields; a known value
is read back as what a document can hold of it, which is the value itself where its numbers are finite.
-/

namespace Telemetry

open Schema (setFields setFields_filter)

/-! ### Known values -/

namespace Value

mutual
/-- Whether every number in a value, at any depth, is finite. -/
def isFinite : Value → Bool
  | .float x => x.isFinite
  | .list items | .tuple items => areFinite items
  | .object fields => fieldsAreFinite fields
  | _ => true
def areFinite : List Value → Bool
  | [] => true
  | item :: rest => isFinite item && areFinite rest
def fieldsAreFinite : List (String × Value) → Bool
  | [] => true
  | (_, item) :: rest => isFinite item && fieldsAreFinite rest
end

mutual
/-- A value with nothing in the place of every number that is not finite. -/
def nulled : Value → Value
  | .float x => if x.isFinite then .float x else .null
  | .list items => .list (itemsNulled items)
  | .tuple items => .tuple (itemsNulled items)
  | .object fields => .object (fieldsNulled fields)
  | v => v
def itemsNulled : List Value → List Value
  | [] => []
  | item :: rest => nulled item :: itemsNulled rest
def fieldsNulled : List (String × Value) → List (String × Value)
  | [] => []
  | (name, item) :: rest => (name, nulled item) :: fieldsNulled rest
end

theorem names_fieldsNulled (fields : List (String × Value)) :
    FieldList.names (fieldsNulled fields) = FieldList.names fields := by
  induction fields with
  | nil => rfl
  | cons field rest ih => exact congrArg (field.1 :: ·) ih

theorem toDocumentWithin_zero (v : Value) : v.toDocumentWithin 0 = .error .tooDeep := by
  rw [toDocumentWithin]

mutual
/-- What a document holds is written with nothing in the place of numbers that are not finite, if it
does not nest too deep. -/
theorem toDocumentWithin_eq : ∀ (v : Value) (levels : Nat), Json.isContent v = true →
    v.toDocumentWithin levels = if v.depth ≤ levels then .ok v.nulled else .error .tooDeep
  | v, 0, _ => by
    rw [toDocumentWithin_zero, if_neg (Nat.not_le.mpr v.depth_pos)]
  | .null, levels + 1, _ | .bool _, levels + 1, _ | .int _, levels + 1, _ | .str _, levels + 1, _
  | .float _, levels + 1, _ => (if_pos (Nat.le_add_left 1 levels)).symm
  | .list items, levels + 1, content => by
    rw [toDocumentWithin, itemsToDocument_eq items levels content, depth]
    simp only [Nat.add_le_add_iff_right]
    split <;> rfl
  | .object fields, levels + 1, content => by
    rw [toDocumentWithin, fieldsToDocument_eq fields levels (Bool.and_eq_true_iff.mp content).2, depth]
    simp only [Nat.add_le_add_iff_right]
    split <;> rfl
theorem itemsToDocument_eq : ∀ (items : List Value) (levels : Nat), Json.areContent items = true →
    itemsToDocument items levels =
      if itemsDepth items ≤ levels then .ok (itemsNulled items) else .error .tooDeep
  | [], levels, _ => (if_pos (Nat.zero_le levels)).symm
  | item :: rest, levels, content => by
    obtain ⟨first, later⟩ := Bool.and_eq_true_iff.mp content
    rw [itemsToDocument, toDocumentWithin_eq item levels first, itemsToDocument_eq rest levels later,
      itemsDepth]
    simp only [Nat.max_le, ite_and]
    split
    · split <;> rfl
    · rfl
theorem fieldsToDocument_eq : ∀ (fields : List (String × Value)) (levels : Nat),
    Json.fieldsAreContent fields = true → fieldsToDocument fields levels =
      if fieldsDepth fields ≤ levels then .ok (fieldsNulled fields) else .error .tooDeep
  | [], levels, _ => (if_pos (Nat.zero_le levels)).symm
  | (name, item) :: rest, levels, content => by
    obtain ⟨first, later⟩ := Bool.and_eq_true_iff.mp content
    rw [fieldsToDocument, toDocumentWithin_eq item levels first, fieldsToDocument_eq rest levels later,
      fieldsDepth]
    simp only [Nat.max_le, ite_and]
    split
    · split <;> rfl
    · rfl
end

mutual
theorem isContent_nulled : ∀ v : Value, Json.isContent v = true → Json.isContent v.nulled = true
  | .null, content | .bool _, content | .int _, content | .str _, content => content
  | .float x, content => by
    rw [nulled]
    split
    · exact content
    · rfl
  | .list items, content => areContent_itemsNulled items content
  | .object fields, content => by
    obtain ⟨distinct, each⟩ := Bool.and_eq_true_iff.mp content
    rw [nulled, Json.isContent, names_fieldsNulled, distinct, fieldsAreContent_fieldsNulled fields each]
    rfl
theorem areContent_itemsNulled : ∀ items : List Value, Json.areContent items = true →
    Json.areContent (itemsNulled items) = true
  | [], _ => rfl
  | item :: rest, content => by
    obtain ⟨first, later⟩ := Bool.and_eq_true_iff.mp content
    rw [itemsNulled, Json.areContent, isContent_nulled item first, areContent_itemsNulled rest later]
    rfl
theorem fieldsAreContent_fieldsNulled : ∀ fields : List (String × Value),
    Json.fieldsAreContent fields = true → Json.fieldsAreContent (fieldsNulled fields) = true
  | [], _ => rfl
  | (name, item) :: rest, content => by
    obtain ⟨first, later⟩ := Bool.and_eq_true_iff.mp content
    rw [fieldsNulled, Json.fieldsAreContent, isContent_nulled item first,
      fieldsAreContent_fieldsNulled rest later]
    rfl
end

mutual
theorem depth_nulled : ∀ v : Value, v.nulled.depth = v.depth
  | .null | .bool _ | .int _ | .str _ | .bytes _ | .buffer _ | .dateTime _ => rfl
  | .float x => by
    rw [nulled]
    split <;> rfl
  | .list items => congrArg (· + 1) (itemsDepth_itemsNulled items)
  | .tuple items => congrArg (· + 1) (itemsDepth_itemsNulled items)
  | .object fields => congrArg (· + 1) (fieldsDepth_fieldsNulled fields)
theorem itemsDepth_itemsNulled : ∀ items : List Value, itemsDepth (itemsNulled items) = itemsDepth items
  | [] => rfl
  | item :: rest => by
    rw [itemsNulled, itemsDepth, itemsDepth, depth_nulled item, itemsDepth_itemsNulled rest]
theorem fieldsDepth_fieldsNulled : ∀ fields : List (String × Value),
    fieldsDepth (fieldsNulled fields) = fieldsDepth fields
  | [] => rfl
  | (name, item) :: rest => by
    rw [fieldsNulled, fieldsDepth, fieldsDepth, depth_nulled item, fieldsDepth_fieldsNulled rest]
end

mutual
theorem nulled_eq_iff : ∀ v : Value, v.nulled = v ↔ v.isFinite = true
  | .null | .bool _ | .int _ | .str _ | .bytes _ | .buffer _ | .dateTime _ => by simp [nulled, isFinite]
  | .float x => by
    rw [nulled, isFinite]
    split <;> simp [*]
  | .list items => by
    rw [nulled, isFinite, Value.list.injEq, itemsNulled_eq_iff items]
  | .tuple items => by
    rw [nulled, isFinite, Value.tuple.injEq, itemsNulled_eq_iff items]
  | .object fields => by
    rw [nulled, isFinite, Value.object.injEq, fieldsNulled_eq_iff fields]
theorem itemsNulled_eq_iff : ∀ items : List Value, itemsNulled items = items ↔ areFinite items = true
  | [] => by simp [itemsNulled, areFinite]
  | item :: rest => by
    rw [itemsNulled, List.cons.injEq, areFinite, Bool.and_eq_true, nulled_eq_iff item,
      itemsNulled_eq_iff rest]
theorem fieldsNulled_eq_iff : ∀ fields : List (String × Value),
    fieldsNulled fields = fields ↔ fieldsAreFinite fields = true
  | [] => by simp [fieldsNulled, fieldsAreFinite]
  | (name, item) :: rest => by
    rw [fieldsNulled, List.cons.injEq, Prod.mk.injEq, fieldsAreFinite, Bool.and_eq_true,
      nulled_eq_iff item, fieldsNulled_eq_iff rest]
    exact and_congr_left' (and_iff_right rfl)
end

end Value

/-! ### Simple triggers -/

namespace SimpleTrigger

variable {s : SimpleTrigger}

/-- The fields of a simple trigger in a document. -/
def recordedFields (s : SimpleTrigger) : List (String × Value) :=
  s.allFields s.knownValue.nulled

theorem withDefaults_of_data (kept : s.presence.violation = none) (data : s.kind = some .data) :
    s.withDefaults = s := by
  obtain ⟨o, operator⟩ := Option.isSome_iff_exists.mp (operator_of_data kept data)
  obtain ⟨c, condition⟩ := Option.isSome_iff_exists.mp (condition_of_kept kept).2
  obtain ⟨⟩ := s
  dsimp only at data operator condition
  subst data operator condition
  rfl

/-- A device trigger is written as it was before an operator was filled in. Only a known value can nest
too deep. -/
theorem toDocument_withDefaults (kept : s.presence.violation = none)
    (content : Json.isContent s.knownValue = true) :
    s.withDefaults.toDocument =
      if s.knownValue.depth ≤ Value.depthLimit then .ok (.object s.recordedFields)
      else .error .tooDeep := by
  have written : s.knownValue.toDocument = _ := s.knownValue.toDocumentWithin_eq Value.depthLimit content
  obtain ⟨k, kind⟩ := Option.isSome_iff_exists.mp (condition_of_kept kept).1
  cases k with
  | data =>
    have noDevice : s.kind ≠ some .device := by
      rw [kind]
      decide
    rw [withDefaults_of_data kept kind, toDocument, written]
    by_cases shallow : s.knownValue.depth ≤ Value.depthLimit
    · rw [if_pos shallow, if_pos shallow]
      show (if s.kind = some .device then _ else _) = _
      rw [if_neg noDevice]
      rfl
    · rw [if_neg shallow, if_neg shallow]
      rfl
  | device =>
    obtain ⟨interfaceName, interfaceMajor, matchPath, operator, knownValue⟩ := fields_of_device kept kind
    obtain ⟨c, condition⟩ := Option.isSome_iff_exists.mp (condition_of_kept kept).2
    obtain ⟨⟩ := s
    dsimp only at kind condition interfaceName interfaceMajor matchPath operator knownValue
    subst kind condition interfaceName interfaceMajor matchPath operator knownValue
    show Except.ok (Value.object ((setFields _).filter fun field => !dataFields.contains field.1)) = _
    rw [setFields_filter fun name => !dataFields.contains name]
    rfl

open Trigger.Draft (simpleFields)

theorem decodeFields_simpleFields : decodeFields (simpleFields s.toDraft) = .ok s :=
  decodeFields_iff.mpr ⟨Schema.nullable_held s.kind, Schema.nullable_held s.condition,
    Schema.nullable_text s.deviceId, Schema.nullable_text s.groupName,
    Schema.nullable_text s.interfaceName, Schema.nullable_integer s.interfaceMajor,
    Schema.nullable_text s.matchPath, Schema.nullable_held s.operator, rfl⟩

theorem nullable_integerOrText (o : Option Int) :
    Schema.nullable integerOrText (.ofInt? o) = .ok (o.map .int) := by
  cases o <;> rfl

theorem Presence.decodeFields_simpleFields :
    Presence.decodeFields (simpleFields s.toDraft) = .ok s.presence :=
  Presence.decodeFields_iff.mpr ⟨Schema.nullable_strictText_held s.kind,
    Schema.nullable_strictText_held s.condition, Schema.nullable_strictText s.deviceId,
    Schema.nullable_strictText s.groupName, Schema.nullable_strictText s.interfaceName,
    nullable_integerOrText s.interfaceMajor, Schema.nullable_strictText s.matchPath,
    Schema.nullable_strictText_held s.operator, rfl⟩

end SimpleTrigger

/-! ### Actions -/

namespace Trigger

variable {a : Action}

theorem Action.fieldsOf_headers (headers : List (String × String)) :
    Schema.fieldsOf Schema.text (headers.map fun header => (header.1, .str header.2)) = .ok headers := by
  induction headers with
  | nil => rfl
  | cons header rest ih =>
    rw [List.map_cons, Schema.fieldsOf, ih]
    rfl

theorem Draft.pairsOf_headers {headers found : FieldList String} :
    Schema.pairsOf Schema.text found (headers.map fun header => (.str header.1, .str header.2)) =
      .ok (found.merge headers) := by
  induction headers generalizing found with
  | nil => rfl
  | cons header rest ih =>
    rw [List.map_cons, Schema.pairsOf]
    exact ih

end Trigger

end Telemetry
