import Telemetry.Proofs.Schema.Decoder

/-!
Fields of the kinds that are declared for them. A field that is given in its declared kind is taken as
it stands by the strict decoders and by the lenient ones.
-/

namespace Telemetry.Schema

open Value (fieldOrNull)

inductive FieldKind where
  | text
  | integer
  | boolean
  deriving DecidableEq

def FieldKind.admits : FieldKind → Value → Bool
  | .text, .str _ | .integer, .int _ | .boolean, .bool _ => true
  | _, _ => false

/-- Every declared field is null, absent or of its kind. -/
def HasKinds (kinds : FieldList FieldKind) (fields : FieldList Value) : Prop :=
  ∀ field ∈ kinds, fieldOrNull fields field.1 = .null ∨
    field.2.admits (fieldOrNull fields field.1) = true

instance {kinds : FieldList FieldKind} {fields : FieldList Value} : Decidable (HasKinds kinds fields) :=
  inferInstanceAs (Decidable (∀ _ ∈ kinds, _))

/-- Whether a field is there with another value than null. -/
def IsSet (fields : FieldList Value) (name : String) : Prop :=
  fieldOrNull fields name ≠ .null

instance {fields : FieldList Value} {name : String} : Decidable (IsSet fields name) :=
  inferInstanceAs (Decidable (_ ≠ _))

variable {kinds : FieldList FieldKind} {fields : FieldList Value} {v : Value}

theorem HasKinds.text (typed : HasKinds kinds fields) (name : String)
    (declared : (name, .text) ∈ kinds) : ∃ o, fieldOrNull fields name = .ofText? o := by
  rcases typed _ declared with null | given
  · exact ⟨none, null⟩
  · cases held : fieldOrNull fields name with
    | str s => exact ⟨some s, rfl⟩
    | _ =>
      simp only [held] at given
      cases given

theorem HasKinds.integer (typed : HasKinds kinds fields) (name : String)
    (declared : (name, .integer) ∈ kinds) : ∃ o, fieldOrNull fields name = .ofInt? o := by
  rcases typed _ declared with null | given
  · exact ⟨none, null⟩
  · cases held : fieldOrNull fields name with
    | int n => exact ⟨some n, rfl⟩
    | _ =>
      simp only [held] at given
      cases given

theorem ofText?_eq_iff {o : Option String} {s : String} : Value.ofText? o = .str s ↔ o = some s := by
  cases o <;> simp [Value.ofText?]

theorem isSet_of_text {name : String} {o : Option String}
    (held : fieldOrNull fields name = .ofText? o) : IsSet fields name ↔ o ≠ none := by
  rw [IsSet, held]
  cases o <;> simp [Value.ofText?]

theorem nullable_strictText_iff {o : Option String} :
    nullable strictText v = .ok o ↔ v = .ofText? o := by
  constructor
  · intro decoded
    rcases nullable_ok decoded with ⟨rfl, rfl⟩ | ⟨-, s, first, rfl⟩
    · rfl
    · cases v with
      | str given => exact congrArg Value.str (Except.ok.inj first)
      | _ => cases first
  · rintro rfl
    exact nullable_strictText o

/-! ### Fields with a default -/

variable {α : Type} {name : String} {default : α} {decode : Decoder α}

theorem get?_of_fieldOrNull (held : fieldOrNull fields name = v) (given : v ≠ .null) :
    FieldList.get? fields name = some v := by
  unfold Value.fieldOrNull at held
  cases found : FieldList.get? fields name with
  | none =>
    rw [found] at held
    exact absurd held.symm given
  | some w =>
    rw [found] at held
    exact congrArg some held

theorem required_of_held {a : α} (held : fieldOrNull fields name = v) (given : v ≠ .null)
    (decoded : decode v = .ok a) : required fields name decode = .ok a :=
  required_ok.mpr ⟨v, get?_of_fieldOrNull held given, decoded⟩

theorem optional_of_held {a : α} (held : fieldOrNull fields name = v) (given : v ≠ .null)
    (decoded : decode v = .ok a) : optional fields name default decode = .ok a := by
  rw [optional, get?_of_fieldOrNull held given]
  exact under_ok.mpr decoded

theorem exists_optional
    (each : ∀ v, FieldList.get? fields name = some v → ∃ a, decode v = .ok a) :
    ∃ a, optional fields name default decode = .ok a := by
  unfold optional
  cases held : FieldList.get? fields name with
  | none => exact ⟨default, rfl⟩
  | some v =>
    obtain ⟨a, decoded⟩ := each v held
    exact ⟨a, under_ok.mpr decoded⟩

end Telemetry.Schema
