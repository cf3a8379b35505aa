import Telemetry.Value.Literal

/-!
Closed enumerations whose members stand for words on the wire. The main statements say that a
word is read as the member that is written with it, and as no other.
-/

namespace Telemetry

/-- An enumeration with a distinct word for each member. -/
class Wording (α : Type) where
  label : String
  members : List α
  wire : α → String
  memberName : α → String
  wire_injective : ∀ a b : α, wire a = wire b → a = b
  mem_members : ∀ a : α, a ∈ members

export Wording (wire)

namespace Wording

variable {α : Type} [Wording α]

def ofWire? (text : String) : Option α :=
  (members (α := α)).find? fun member => wire member = text

def ofValue? : Value → Option α
  | .str text => ofWire? text
  | _ => none

def toValue (member : α) : Value :=
  .str (wire member)

def isValid (α : Type) [Wording α] (v : Value) : Bool :=
  (ofValue? (α := α) v).isSome

structure Unknown where
  given : Value
  label : String
  deriving DecidableEq

def Unknown.message (unknown : Unknown) : String :=
  "'" ++ unknown.given.display ++ "' is not a valid " ++ unknown.label

def ofValue (α : Type) [Wording α] (v : Value) : Except Unknown α :=
  (ofValue? v).elim (.error ⟨v, label α⟩) .ok

/-- What a field of an enumeration holds: a member, or any value as it stands, be it a word of one. -/
inductive Held (α : Type) where
  | member (a : α)
  | raw (v : Value)
  deriving DecidableEq

instance : Coe Value (Held α) := ⟨.raw⟩

/-- A member is one with its word, wherever it is compared or written. -/
def Held.value : Held α → Value
  | .member a => toValue a
  | .raw v => v

instance : CoeOut (Held α) Value := ⟨Held.value⟩

def Held.ofOption (m : Option α) : Held α :=
  m.elim (.raw .null) .member

/-- The member that is held or that a value stands for, or else the default. -/
def coerce (held : Held α) (default : α) : α :=
  match held with
  | .member a => a
  | .raw v => (ofValue? v).getD default

theorem ofWire?_wire (member : α) : ofWire? (wire member) = some member := by
  unfold ofWire?
  cases found : (members (α := α)).find? fun m => wire m = wire member with
  | none =>
    have := List.find?_eq_none.mp found member (mem_members member)
    simp at this
  | some other =>
    have same := List.find?_some found
    exact congrArg some (wire_injective _ _ (by simpa using same))

theorem wire_of_ofWire? {text : String} {member : α} (h : ofWire? text = some member) :
    wire member = text := by
  simpa using List.find?_some h

theorem value_ofOption (m : Option α) : (Held.ofOption m).value = m.elim .null toValue := by
  cases m <;> rfl

theorem ofValue?_toValue (member : α) : ofValue? (toValue member) = some member :=
  ofWire?_wire member

end Wording

end Telemetry
