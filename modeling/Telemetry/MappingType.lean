import Telemetry.Wording

/-! The types of the values that a mapping carries: seven scalars and arrays of each. -/

namespace Telemetry

inductive Scalar where
  | double
  | integer
  | boolean
  | longInteger
  | string
  | binaryBlob
  | dateTime
  deriving DecidableEq

structure MappingType where
  scalar : Scalar
  isArray : Bool := false
  deriving DecidableEq

namespace Scalar

def all : List Scalar :=
  [.double, .integer, .boolean, .longInteger, .string, .binaryBlob, .dateTime]

def wire : Scalar → String
  | .double => "double"
  | .integer => "integer"
  | .boolean => "boolean"
  | .longInteger => "longinteger"
  | .string => "string"
  | .binaryBlob => "binaryblob"
  | .dateTime => "datetime"

def memberName : Scalar → String
  | .double => "DOUBLE"
  | .integer => "INTEGER"
  | .boolean => "BOOLEAN"
  | .longInteger => "LONG_INTEGER"
  | .string => "STRING"
  | .binaryBlob => "BINARY_BLOB"
  | .dateTime => "DATETIME"

end Scalar

namespace MappingType

def element (t : MappingType) : MappingType :=
  { t with isArray := false }

/-- The type of arrays of this type; an array type is its own. -/
def asArray (t : MappingType) : MappingType :=
  { t with isArray := true }

instance : Wording MappingType where
  label := "MappingType"
  members := Scalar.all.map (⟨·, false⟩) ++ Scalar.all.map (⟨·, true⟩)
  wire t := t.scalar.wire ++ if t.isArray then "array" else ""
  memberName t := t.scalar.memberName ++ if t.isArray then "_ARRAY" else ""
  wire_injective := by
    rintro ⟨s, _ | _⟩ ⟨t, _ | _⟩ <;> cases s <;> cases t <;> decide
  mem_members := by
    rintro ⟨s, _ | _⟩ <;> cases s <;> decide

end MappingType

end Telemetry
