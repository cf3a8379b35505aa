import Telemetry.Wording

/-!
Members and their words. A value stands for a member just if it is the word of it, and completing a field
keeps the member that it holds.
-/

namespace Telemetry.Wording

variable {α : Type} [Wording α] {word : String} {v : Value} {member default : α}

/-! ### Reading -/

theorem ofWire?_eq_some_iff : ofWire? word = some member ↔ word = wire member := by
  constructor
  · exact fun read => (wire_of_ofWire? read).symm
  · rintro rfl
    exact ofWire?_wire member

theorem ofWire?_eq_none_iff : ofWire? (α := α) word = none ↔ ∀ member : α, word ≠ wire member := by
  simp only [Option.eq_none_iff_forall_ne_some, ne_eq, ofWire?_eq_some_iff]

theorem any_ofWire?_iff {holds : α → Bool} :
    (ofWire? word).any holds = true ↔ ∃ member : α, holds member = true ∧ word = wire member := by
  simp only [Option.any_eq_true, ofWire?_eq_some_iff, and_comm]

theorem ofValue?_eq_some_iff : ofValue? v = some member ↔ v = toValue member := by
  cases v with
  | str word => rw [ofValue?, ofWire?_eq_some_iff, toValue, Value.str.injEq]
  | _ => exact iff_of_false nofun nofun

/-! ### Completing -/

@[simp] theorem coerce_member : coerce (.member member) default = member := rfl

@[simp] theorem coerce_ofOption (m : Option α) : coerce (.ofOption m) default = m.getD default := by
  cases m <;> rfl

/-- What a field of an enumeration holds before and after: a member is kept, a word makes room for its
member, and whatever else it is for the default. -/
inductive Settles (default : α) : Held α → Held α → Prop where
  | kept (member : α) : Settles default (.member member) (.member member)
  | read (member : α) : Settles default (.raw (toValue member)) (.member member)
  | unset {v : Value} (other : ∀ member : α, v ≠ toValue member) :
      Settles default (.raw v) (.member default)

theorem settles_coerce (held : Held α) (default : α) :
    Settles default held (.member (coerce held default)) := by
  cases held with
  | member a => exact .kept a
  | raw v =>
    rw [coerce]
    cases found : ofValue? (α := α) v with
    | some member =>
      obtain rfl := ofValue?_eq_some_iff.mp found
      exact .read member
    | none =>
      apply Settles.unset
      rintro member rfl
      rw [ofValue?_toValue] at found
      cases found

end Telemetry.Wording
