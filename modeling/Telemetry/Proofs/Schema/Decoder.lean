import Telemetry.Proofs.Except
import Telemetry.Proofs.Json.Content
import Telemetry.Proofs.Value.Fields
import Telemetry.Schema.Decoder

/-!
Decoders of fields. A field that may be null is decoded alike whether it is null or absent, so a
record depends only on what stands under its names. A strict decoder of text agrees with the lenient
ones wherever it succeeds.
-/

namespace Telemetry

variable {ε α β : Type}

theorem isContent_of_get? {fields : List (String × Value)} {name : String} {v : Value}
    (content : Json.fieldsAreContent fields = true) (held : FieldList.get? fields name = some v) :
    Json.isContent v = true := by
  obtain ⟨before, after, rfl, -⟩ := FieldList.exists_split held
  exact Json.fieldsAreContent_iff.mp content _ (List.mem_append_right _ List.mem_cons_self)

theorem isContent_fieldOrNull {fields : List (String × Value)} {name : String}
    (content : Json.fieldsAreContent fields = true) :
    Json.isContent (Value.fieldOrNull fields name) = true := by
  rw [Value.fieldOrNull]
  cases held : FieldList.get? fields name with
  | none => rfl
  | some v => exact isContent_of_get? content held

namespace Schema

variable {fields : List (String × Value)} {name step : String} {decode : Decoder α} {v : Value} {a : α}

theorem under_ok {result : Except Fault α} : under step result = .ok a ↔ result = .ok a := by
  cases result with
  | error fault => constructor <;> intro failed <;> cases failed
  | ok b => exact Iff.rfl

theorem nullable_of_ne (given : v ≠ .null) : nullable decode v = some <$> decode v := by
  cases v with
  | null => exact absurd rfl given
  | _ => rfl

/-- A field that is null counts as one that is absent. -/
theorem optional_nullable :
    optional fields name none (nullable decode) =
      under name (nullable decode (Value.fieldOrNull fields name)) := by
  rw [optional, Value.fieldOrNull]
  cases FieldList.get? fields name <;> rfl

theorem optional_any :
    optional fields name .null .ok = .ok (Value.fieldOrNull fields name) := by
  rw [optional, Value.fieldOrNull]
  cases FieldList.get? fields name <;> rfl

theorem required_ok : required fields name decode = .ok a ↔
    ∃ v, FieldList.get? fields name = some v ∧ decode v = .ok a := by
  rw [required]
  cases FieldList.get? fields name with
  | none =>
    constructor
    · intro missing
      cases missing
    · rintro ⟨v, held, -⟩
      cases held
  | some v =>
    rw [under_ok]
    constructor
    · exact fun decoded => ⟨v, rfl, decoded⟩
    · rintro ⟨_, held, decoded⟩
      cases held
      exact decoded

theorem optional_ok {default : α} : optional fields name default decode = .ok a ↔
    FieldList.get? fields name = none ∧ default = a ∨
      ∃ v, FieldList.get? fields name = some v ∧ decode v = .ok a := by
  rw [optional]
  cases FieldList.get? fields name with
  | none => simp
  | some v => simp [under_ok]

/-! ### Strict and lenient decoders -/

theorem nullable_ok {o : Option α} (decoded : nullable decode v = .ok o) :
    v = .null ∧ o = none ∨ v ≠ .null ∧ ∃ a, decode v = .ok a ∧ o = some a := by
  by_cases null : v = .null
  · subst null
    exact .inl ⟨rfl, (Except.ok.inj decoded).symm⟩
  · rw [nullable_of_ne null] at decoded
    obtain ⟨a, first, rfl⟩ := map_ok decoded
    exact .inr ⟨null, a, first, rfl⟩

theorem member_ok [Wording α] (decoded : member α v = .ok a) : text v = .ok (wire a) := by
  unfold member at decoded
  cases given : text v with
  | error fault =>
    rw [given] at decoded
    cases decoded
  | ok s =>
    rw [given] at decoded
    dsimp only at decoded
    cases found : Wording.ofWire? (α := α) s with
    | none =>
      rw [found] at decoded
      cases decoded
    | some b =>
      rw [found] at decoded
      obtain rfl : b = a := Except.ok.inj decoded
      rw [Wording.wire_of_ofWire? found]

theorem record_ok {decodeRecord : List (String × Value) → Except Fault α} :
    record name decodeRecord v = .ok a ↔ ∃ inner, v = .object inner ∧ decodeRecord inner = .ok a := by
  cases v with
  | object inner => simp [record]
  | _ =>
    constructor
    · intro failed
      cases failed
    · rintro ⟨_, same, -⟩
      cases same

/-- The position of an item shows in faults alone. -/
theorem itemsFrom_ok {items : List Value} {found : List α} {position : Nat} :
    itemsFrom decode position items = .ok found ↔
      List.Forall₂ (fun item a => decode item = .ok a) items found := by
  induction items generalizing found position with
  | nil =>
    rw [List.forall₂_nil_left_iff]
    exact ⟨fun walked => (Except.ok.inj walked).symm, fun none => none ▸ rfl⟩
  | cons item rest ih =>
    simp only [itemsFrom, bind_eq_ok, pure_eq_ok, under_ok, ih, List.forall₂_cons_left_iff]
    constructor
    · rintro ⟨a, first, later, others, rfl⟩
      exact ⟨a, later, first, others, rfl⟩
    · rintro ⟨a, later, first, others, rfl⟩
      exact ⟨a, first, later, others, rfl⟩

theorem exists_forall₂ {holds : β → α → Prop} {items : List β}
    (each : ∀ item ∈ items, ∃ a, holds item a) : ∃ found, List.Forall₂ holds items found := by
  induction items with
  | nil => exact ⟨[], .nil⟩
  | cons item rest ih =>
    obtain ⟨a, first⟩ := each item List.mem_cons_self
    obtain ⟨later, others⟩ := ih fun other member => each other (List.mem_cons_of_mem _ member)
    exact ⟨a :: later, .cons first others⟩

theorem forall_mem_of_forall₂ {holds : β → α → Prop} {kept : α → Prop} {items : List β} {found : List α}
    (each : List.Forall₂ holds items found)
    (keeps : ∀ item ∈ items, ∀ a, holds item a → kept a) : ∀ a ∈ found, kept a := by
  induction each with
  | nil => nofun
  | cons first _ ih =>
    obtain ⟨here, later⟩ := List.forall_mem_cons.mp keeps
    exact List.forall_mem_cons.mpr ⟨here _ first, ih later⟩

theorem exists_records {decodeRecord : List (String × Value) → Except Fault α} {items : List Value}
    {found : List α} (each : List.Forall₂ (fun item a => record name decodeRecord item = .ok a) items found) :
    ∃ inner, items = inner.map .object ∧
      List.Forall₂ (fun fields a => decodeRecord fields = .ok a) inner found := by
  induction each with
  | nil => exact ⟨[], rfl, .nil⟩
  | cons first _ ih =>
    obtain ⟨fields, rfl, decoded⟩ := record_ok.mp first
    obtain ⟨inner, rfl, others⟩ := ih
    exact ⟨fields :: inner, rfl, .cons decoded others⟩

theorem list_ok {found : List α} : list decode v = .ok found ↔
    ∃ items, (v = .list items ∨ v = .tuple items) ∧
      List.Forall₂ (fun item a => decode item = .ok a) items found := by
  cases v with
  | list items => simp [list, itemsFrom_ok]
  | tuple items => simp [list, itemsFrom_ok]
  | _ =>
    constructor
    · intro failed
      cases failed
    · rintro ⟨_, same | same, -⟩ <;> cases same

theorem list_of_singleton {item : Value} (decoded : decode item = .ok a) :
    list decode (.list [item]) = .ok [a] :=
  list_ok.mpr ⟨[item], .inl rfl, .cons decoded .nil⟩

theorem nonEmptyList_ok {items : List α} :
    nonEmptyList decode v = .ok items ↔ list decode v = .ok items ∧ items ≠ [] := by
  unfold nonEmptyList
  rw [bind_eq_ok]
  constructor
  · rintro ⟨found, first, rest⟩
    split at rest
    · cases rest
    · rename_i nonempty
      cases rest
      exact ⟨first, mt List.isEmpty_iff.mpr nonempty⟩
  · rintro ⟨first, nonempty⟩
    refine ⟨items, first, ?_⟩
    rw [List.isEmpty_eq_false_iff.mpr nonempty]
    rfl

theorem nonEmptyText_ok {s : String} : nonEmptyText v = .ok s ↔ text v = .ok s ∧ s ≠ "" := by
  unfold nonEmptyText
  rw [bind_eq_ok]
  constructor
  · rintro ⟨given, first, rest⟩
    split at rest
    · cases rest
    · rename_i nonempty
      cases rest
      exact ⟨first, nonempty⟩
  · rintro ⟨first, nonempty⟩
    refine ⟨s, first, ?_⟩
    rw [if_neg nonempty]
    rfl

theorem natural_ok {n : Nat} : natural v = .ok n ↔ integer v = .ok (n : Int) := by
  unfold natural
  rw [bind_eq_ok]
  constructor
  · rintro ⟨m, read, rest⟩
    split at rest
    · cases rest
    · rename_i notNegative
      cases rest
      rw [read, Int.toNat_of_nonneg (not_lt.mp notNegative)]
  · intro read
    refine ⟨n, read, ?_⟩
    rw [if_neg (Int.natCast_nonneg n).not_gt]
    rfl

theorem member_toValue [Wording α] (a : α) : member α (Wording.toValue a) = .ok a := by
  show (Wording.ofWire? (wire a)).elim _ _ = _
  rw [Wording.ofWire?_wire]
  rfl

theorem nullable_member [Wording α] (o : Option α) :
    nullable (member α) (o.elim .null Wording.toValue) = .ok o := by
  cases o with
  | none => rfl
  | some a =>
    show some <$> member α (Wording.toValue a) = _
    rw [member_toValue]
    rfl

theorem nullable_text (o : Option String) : nullable text (.ofText? o) = .ok o := by
  cases o <;> rfl

theorem nullable_strictText (o : Option String) : nullable strictText (.ofText? o) = .ok o := by
  cases o <;> rfl

theorem nullable_strictText_member [Wording α] (o : Option α) :
    nullable strictText (o.elim .null Wording.toValue) = .ok (o.map wire) := by
  cases o <;> rfl

/-- Members in a draft are decoded as such, by the strict decoder as their words. -/
theorem nullable_held [Wording α] (m : Option α) :
    nullable (member α) (Wording.Held.ofOption m).value = .ok m := by
  rw [Wording.value_ofOption, nullable_member]

theorem nullable_strictText_held [Wording α] (m : Option α) :
    nullable strictText (Wording.Held.ofOption m).value = .ok (m.map wire) := by
  rw [Wording.value_ofOption, nullable_strictText_member]

theorem nullable_integer (o : Option Int) : nullable integer (.ofInt? o) = .ok o := by
  cases o <;> rfl

theorem get?_setFields {given : List (String × Option Value)}
    (distinct : (FieldList.names given).Nodup) :
    FieldList.get? (setFields given) name = (FieldList.get? given name).join := by
  induction given with
  | nil => rfl
  | cons field rest ih =>
    obtain ⟨fresh, later⟩ := List.nodup_cons.mp distinct
    obtain ⟨key, item⟩ := field
    rw [FieldList.get?_cons]
    cases item with
    | none =>
      have skipped : setFields ((key, none) :: rest) = setFields rest := rfl
      rw [skipped, ih later]
      by_cases same : key = name
      · subst same
        rw [if_pos rfl, FieldList.get?_eq_none_iff.mpr fresh]
        rfl
      · rw [if_neg same]
    | some v =>
      have kept : setFields ((key, some v) :: rest) = (key, v) :: setFields rest := rfl
      rw [kept, FieldList.get?_cons, ih later]
      split <;> rfl

theorem setFields_append {given more : List (String × Option Value)} :
    setFields (given ++ more) = setFields given ++ setFields more :=
  List.filterMap_append

theorem setFields_filter {given : List (String × Option Value)} (keep : String → Bool) :
    (setFields given).filter (fun field => keep field.1) =
      setFields (given.filter fun field => keep field.1) := by
  induction given with
  | nil => rfl
  | cons field rest ih =>
    obtain ⟨key, item⟩ := field
    cases item with
    | none =>
      have skipped : setFields ((key, none) :: rest) = setFields rest := rfl
      rw [skipped, ih, List.filter_cons]
      split <;> rfl
    | some v =>
      have kept : setFields ((key, some v) :: rest) = (key, v) :: setFields rest := rfl
      rw [kept, List.filter_cons, List.filter_cons, ih]
      split <;> rfl

theorem names_setFields_sublist {given : List (String × Option Value)} :
    (FieldList.names (setFields given)).Sublist (FieldList.names given) := by
  induction given with
  | nil => exact List.Sublist.slnil
  | cons field rest ih =>
    obtain ⟨key, item⟩ := field
    cases item with
    | none => exact ih.cons _
    | some v => exact ih.cons_cons _

end Schema

end Telemetry
