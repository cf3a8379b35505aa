import Telemetry.MappingType

/-!
Which mapping types a value can be sent as. Integers widen to long integers and doubles when they
fit; sequences are typed by their elements.
-/

namespace Telemetry

def fitsSigned (bits : Nat) (n : Int) : Bool :=
  let bound : Int := Nat.pow 2 (bits - 1)
  decide (-bound ≤ n) && decide (n < bound)

namespace Value

def scalarTypes : Value → List Scalar
  | .bool _ => [.boolean]
  | .int n =>
    if fitsSigned 32 n then [.integer, .longInteger, .double]
    else if fitsSigned 64 n then [.longInteger, .double]
    else []
  | .float _ => [.double]
  | .str _ => [.string]
  | .bytes _ | .buffer _ => [.binaryBlob]
  | .dateTime _ => [.dateTime]
  | _ => []

/-- The scalar types that all of the values share, taking away from the candidates what each value
does not admit. -/
def sharedTypes (candidates : List Scalar) (items : List Value) : List Scalar :=
  items.foldl (fun kept item => kept.filter (item.scalarTypes.contains ·)) candidates

def mappingTypes : Value → List MappingType
  | .list items | .tuple items => (sharedTypes Scalar.all items).map (⟨·, true⟩)
  | v => v.scalarTypes.map (⟨·, false⟩)

/-- The kind of a value, with the kinds of its elements in alphabetical order. -/
def describe (v : Value) : String :=
  match v with
  | .list items | .tuple items =>
    let kinds := (items.map kindName).eraseDups.mergeSort fun a b => decide (a ≤ b)
    v.kindName ++ "[" ++ String.intercalate ", " kinds ++ "]"
  | v => v.kindName

end Value

structure TypedValue where
  type : MappingType
  value : Value
  deriving DecidableEq

structure TypeMismatch where
  expected : MappingType
  offered : String
  deriving DecidableEq

def TypeMismatch.message (fault : TypeMismatch) : String :=
  "Value of type " ++ fault.offered ++ " does not match type restrictions for " ++
    wire fault.expected

def TypeMismatch.details (fault : TypeMismatch) : List (String × Value) :=
  [("expected", Wording.toValue fault.expected), ("offered", .str fault.offered)]

/-- The value tagged with the type, if it can be sent as that type. -/
def MappingType.check (type : MappingType) (v : Value) : Except TypeMismatch TypedValue :=
  if v.mappingTypes.contains type then .ok ⟨type, v⟩ else .error ⟨type, v.describe⟩

end Telemetry
