import Telemetry.Binary64
import Telemetry.DateTime

/-!
Values of any kind that telemetry may carry: what a document can hold, and besides it octets,
date-times and fixed sequences that a program offers to be sent.
-/

namespace Telemetry

/-- The fields of an object in the order of their first appearance. -/
abbrev FieldList (α : Type) := List (String × α)

inductive Value where
  | null
  | bool (b : Bool)
  | int (n : Int)
  | float (x : Binary64)
  | str (s : String)
  | bytes (octets : List UInt8)
  | buffer (octets : List UInt8)
  | dateTime (t : DateTime)
  | list (items : List Value)
  | tuple (items : List Value)
  | object (fields : List (String × Value))
  deriving Inhabited

namespace Value

/-! ### Equality -/

mutual
def same : Value → Value → Bool
  | .null, .null => true
  | .bool a, .bool b => a = b
  | .int a, .int b => a = b
  | .float a, .float b => a = b
  | .str a, .str b => a = b
  | .bytes a, .bytes b => a = b
  | .buffer a, .buffer b => a = b
  | .dateTime a, .dateTime b => a = b
  | .list a, .list b => sameItems a b
  | .tuple a, .tuple b => sameItems a b
  | .object a, .object b => sameFields a b
  | _, _ => false
def sameItems : List Value → List Value → Bool
  | [], [] => true
  | a :: as, b :: bs => same a b && sameItems as bs
  | _, _ => false
def sameFields : List (String × Value) → List (String × Value) → Bool
  | [], [] => true
  | (k, a) :: as, (l, b) :: bs => k = l && same a b && sameFields as bs
  | _, _ => false
end

mutual
theorem same_iff : ∀ a b : Value, same a b = true ↔ a = b
  | .null, b => by cases b <;> simp [same]
  | .bool _, b => by cases b <;> simp [same]
  | .int _, b => by cases b <;> simp [same]
  | .float _, b => by cases b <;> simp [same]
  | .str _, b => by cases b <;> simp [same]
  | .bytes _, b => by cases b <;> simp [same]
  | .buffer _, b => by cases b <;> simp [same]
  | .dateTime _, b => by cases b <;> simp [same]
  | .list as, b => by cases b <;> simp [same, sameItems_iff as]
  | .tuple as, b => by cases b <;> simp [same, sameItems_iff as]
  | .object as, b => by cases b <;> simp [same, sameFields_iff as]
theorem sameItems_iff : ∀ as bs : List Value, sameItems as bs = true ↔ as = bs
  | [], bs => by cases bs <;> simp [sameItems]
  | a :: as, bs => by cases bs <;> simp [sameItems, same_iff a, sameItems_iff as]
theorem sameFields_iff : ∀ as bs : List (String × Value), sameFields as bs = true ↔ as = bs
  | [], bs => by cases bs <;> simp [sameFields]
  | (k, a) :: as, bs => by
    cases bs <;> simp [sameFields, same_iff a, sameFields_iff as, Prod.ext_iff]
end

instance : DecidableEq Value := fun a b => decidable_of_iff _ (same_iff a b)

/-! ### Kinds -/

def isNull : Value → Bool
  | .null => true
  | _ => false

def isObject : Value → Bool
  | .object _ => true
  | _ => false

/-- Whether a value counts as given: nothing, false, zero and whatever is empty do not. -/
def isTruthy : Value → Bool
  | .null => false
  | .bool b => b
  | .int n => n ≠ 0
  | .float x => !x.isZero
  | .str s => s ≠ ""
  | .bytes octets | .buffer octets => !octets.isEmpty
  | .dateTime _ => true
  | .list items | .tuple items => !items.isEmpty
  | .object fields => !fields.isEmpty

def kindName : Value → String
  | .null => "NoneType"
  | .bool _ => "bool"
  | .int _ => "int"
  | .float _ => "float"
  | .str _ => "str"
  | .bytes _ => "bytes"
  | .buffer _ => "bytearray"
  | .dateTime _ => "datetime"
  | .list _ => "list"
  | .tuple _ => "tuple"
  | .object _ => "dict"

/-! ### Optional text and numbers -/

def ofText? (text : Option String) : Value :=
  text.elim .null .str

def ofInt? (n : Option Int) : Value :=
  n.elim .null .int

end Value

end Telemetry
