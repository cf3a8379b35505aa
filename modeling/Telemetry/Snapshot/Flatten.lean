import Telemetry.Snapshot.Basic

/-!
Trees flattened as far as possible: subtrees without a leaf give nothing, and a leaf that cannot be
decoded is set aside.
-/

namespace Telemetry.Snapshot

/-- A flattened tree: what was decoded by path, and the paths of the leaves set aside. -/
structure Flat (α : Type) where
  found : FieldList α
  dropped : List String
  deriving DecidableEq

def Flat.empty {α : Type} : Flat α :=
  ⟨[], []⟩

def Flat.add {α : Type} (acc : Flat α) (path : String) : Except Fault α → Flat α
  | .ok a => { acc with found := acc.found.insert path a }
  | .error _ => { acc with dropped := acc.dropped ++ [path] }

/-- A node with a scalar value and a timestamp is a sample. -/
def isSampleNode (node : List (String × Value)) : Bool :=
  holdsScalar node "value" && FieldList.has node Sample.timestampName

mutual
def flattenIndividual (path : String) (acc : Flat Sample) : Value → Flat Sample
  | .object node =>
    if isSampleNode node then acc.add path (decodeSample node)
    else flattenIndividualFields path acc node
  | _ => acc
def flattenIndividualFields (path : String) (acc : Flat Sample) :
    List (String × Value) → Flat Sample
  | [] => acc
  | (segment, child) :: rest =>
    flattenIndividualFields path (flattenIndividual (childPath path segment) acc child) rest
end

mutual
/-- A list stands for its first element, the newest sample. -/
def flattenObject (path : String) (acc : Flat ObjectSample) : Value → Flat ObjectSample
  | .list (newest :: _) => acc.add path (decodeObjectSample newest)
  | .object node =>
    if holdsScalar node Sample.timestampName then
      acc.add path (decodeObjectSample (.object node))
    else flattenObjectFields path acc node
  | _ => acc
def flattenObjectFields (path : String) (acc : Flat ObjectSample) :
    List (String × Value) → Flat ObjectSample
  | [] => acc
  | (segment, child) :: rest =>
    flattenObjectFields path (flattenObject (childPath path segment) acc child) rest
end

mutual
/-- Whatever is no object is a property. -/
def flattenProperties (path : String) (acc : FieldList Value) : Value → FieldList Value
  | .object node => flattenPropertiesFields path acc node
  | v => acc.insert path v
def flattenPropertiesFields (path : String) (acc : FieldList Value) :
    List (String × Value) → FieldList Value
  | [] => acc
  | (segment, child) :: rest =>
    flattenPropertiesFields path (flattenProperties (childPath path segment) acc child) rest
end

/-! ### Envelopes -/

def Flat.rows {α : Type} (row : α → Row) (flat : Flat α) : Flat Row :=
  ⟨flat.found.map fun entry => (entry.1, row entry.2), flat.dropped⟩

def flattenTree (data : Value) : Aggregation → Flat Row
  | .individual => (flattenIndividual "" .empty data).rows .individual
  | .object => (flattenObject "" .empty data).rows .object

def samplesOf (document : Json.Document) (aggregation : Aggregation) :
    Except Fault (Flat Row) := do
  return flattenTree (← readData document) aggregation

def propertiesOf (document : Json.Document) : Except Fault (FieldList Value) := do
  let data ← readData document
  return if data.isNull then [] else flattenProperties "" [] data

end Telemetry.Snapshot
