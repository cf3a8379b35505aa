import Telemetry.Proofs.Schema.Kinds

/-!
Records that are read and written again. A decoder that keeps the values of a kind loses nothing of a
field of that kind, so what is written is the record that was read, completed with defaults.
-/

namespace Telemetry.Schema

open Value (fieldOrNull)

variable {α : Type} {kinds : FieldList FieldKind} {defaults fields : FieldList Value} {kind : FieldKind}
  {decode : Decoder α} {write : α → Value} {name : String} {v : Value} {a : α}

/-! ### Decoders that lose nothing -/

/-- What is decoded of a value of the kind is written as that value, and null is not decoded. -/
structure Keeps (kind : FieldKind) (decode : Decoder α) (write : α → Value) : Prop where
  kept : ∀ {v a}, kind.admits v = true → decode v = .ok a → write a = v
  null : ∀ a, decode .null ≠ .ok a

theorem keeps_text : Keeps .text text .str where
  kept {v a} admitted decoded := by
    cases v with
    | str s => exact congrArg Value.str (Except.ok.inj decoded).symm
    | _ => cases admitted
  null a decoded := by cases decoded

theorem keeps_nonEmptyText : Keeps .text nonEmptyText .str where
  kept admitted decoded := keeps_text.kept admitted (nonEmptyText_ok.mp decoded).1
  null a decoded := by cases decoded

theorem keeps_member [Wording α] : Keeps .text (member α) Wording.toValue where
  kept admitted decoded := keeps_text.kept admitted (member_ok decoded)
  null a decoded := by cases decoded

theorem keeps_integer : Keeps .integer integer .int where
  kept {v a} admitted decoded := by
    cases v with
    | int n => exact congrArg Value.int (Except.ok.inj decoded).symm
    | _ => cases admitted
  null a decoded := by cases decoded

theorem keeps_natural : Keeps .integer natural fun n => .int n where
  kept admitted decoded := keeps_integer.kept admitted (natural_ok.mp decoded)
  null a decoded := by cases decoded

theorem keeps_boolean : Keeps .boolean boolean .bool where
  kept {v a} admitted decoded := by
    cases v with
    | bool b => exact congrArg Value.bool (Except.ok.inj decoded).symm
    | _ => cases admitted
  null a decoded := by cases decoded

/-! ### Fields -/

/-- What belongs under a name: the given value if there is one, else the default if there is one. -/
def completed (defaults fields : FieldList Value) (name : String) : Option Value :=
  if IsSet fields name then some (fieldOrNull fields name) else FieldList.get? defaults name

theorem completed_of_held (keeps : Keeps kind decode write) (typed : HasKinds kinds fields)
    (declared : (name, kind) ∈ kinds) (held : fieldOrNull fields name = v) (decoded : decode v = .ok a) :
    some (write a) = completed defaults fields name := by
  subst held
  have isSet : IsSet fields name := by
    intro null
    rw [null] at decoded
    exact keeps.null a decoded
  have admitted := (typed _ declared).resolve_left isSet
  rw [completed, if_pos isSet, keeps.kept admitted decoded]

theorem completed_of_unset (null : fieldOrNull fields name = .null) :
    completed defaults fields name = FieldList.get? defaults name :=
  if_neg (not_not_intro null)

theorem completed_of_required (keeps : Keeps kind decode write) (typed : HasKinds kinds fields)
    (declared : (name, kind) ∈ kinds) (decoded : required fields name decode = .ok a) :
    some (write a) = completed defaults fields name := by
  obtain ⟨v, held, read⟩ := required_ok.mp decoded
  exact completed_of_held keeps typed declared (congrArg (Option.getD · Value.null) held) read

theorem completed_of_optional {default : α} (keeps : Keeps kind decode write)
    (typed : HasKinds kinds fields) (declared : (name, kind) ∈ kinds)
    (byDefault : FieldList.get? defaults name = some (write default))
    (decoded : optional fields name default decode = .ok a) :
    some (write a) = completed defaults fields name := by
  rcases optional_ok.mp decoded with ⟨absent, rfl⟩ | ⟨v, held, read⟩
  · have null : fieldOrNull fields name = .null := congrArg (Option.getD · Value.null) absent
    rw [completed_of_unset null, byDefault]
  · exact completed_of_required keeps typed declared (required_ok.mpr ⟨v, held, read⟩)

theorem completed_of_nullable {o : Option α} (keeps : Keeps kind decode write)
    (typed : HasKinds kinds fields) (declared : (name, kind) ∈ kinds)
    (noDefault : FieldList.get? defaults name = none)
    (decoded : nullable decode (fieldOrNull fields name) = .ok o) :
    o.map write = completed defaults fields name := by
  rcases nullable_ok decoded with ⟨null, rfl⟩ | ⟨-, a, read, rfl⟩
  · exact ((completed_of_unset null).trans noDefault).symm
  · exact completed_of_held keeps typed declared rfl read

theorem completed_of_getD {o : Option α} {default : α} (keeps : Keeps kind decode write)
    (typed : HasKinds kinds fields) (declared : (name, kind) ∈ kinds)
    (byDefault : FieldList.get? defaults name = some (write default))
    (decoded : nullable decode (fieldOrNull fields name) = .ok o) :
    some (write (o.getD default)) = completed defaults fields name := by
  rcases nullable_ok decoded with ⟨null, rfl⟩ | ⟨-, a, read, rfl⟩
  · exact ((completed_of_unset null).trans byDefault).symm
  · exact completed_of_held keeps typed declared rfl read

/-! ### Records -/

/-- One record holds what is set in another, and the defaults of what is not, and nothing else. -/
structure Completion (kinds : FieldList FieldKind) (defaults given written : FieldList Value) : Prop where
  kept : ∀ name ∈ FieldList.names kinds, IsSet given name →
    FieldList.get? written name = some (fieldOrNull given name)
  added : ∀ name ∈ FieldList.names kinds, ¬IsSet given name →
    FieldList.get? written name = FieldList.get? defaults name
  declared : ∀ name ∈ FieldList.names written, name ∈ FieldList.names kinds
  distinct : (FieldList.names written).Nodup

theorem completion_setFields {given : FieldList Value} {entries : FieldList (Option Value)}
    (names : FieldList.names entries = FieldList.names kinds)
    (distinct : (FieldList.names kinds).Nodup)
    (each : ∀ entry ∈ entries, entry.2 = completed defaults given entry.1) :
    Completion kinds defaults given (setFields entries) := by
  have held : ∀ name ∈ FieldList.names kinds,
      FieldList.get? (setFields entries) name = completed defaults given name := by
    intro name declared
    -- Names occur once, so what is listed under a name is what is held under it.
    rw [← names] at distinct declared
    obtain ⟨entry, member, rfl⟩ := List.mem_map.mp declared
    rw [get?_setFields distinct, (FieldList.get?_eq_some_iff distinct).mpr member, ← each entry member]
    rfl
  have sublist : (FieldList.names (setFields entries)).Sublist (FieldList.names kinds) := by
    rw [← names]
    exact names_setFields_sublist
  refine ⟨fun name declared isSet => ?_, fun name declared unset => ?_, fun _ member => sublist.subset member,
    sublist.nodup distinct⟩
  · rw [held name declared, completed, if_pos isSet]
  · rw [held name declared, completed, if_neg unset]

end Telemetry.Schema
