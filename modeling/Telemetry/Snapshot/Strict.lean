import Telemetry.Snapshot.Flatten

/-!
Trees read in full or not at all: below every node there must be a sample or a further node.
-/

namespace Telemetry.Snapshot

def hasSubtree (node : List (String × Value)) : Bool :=
  node.any fun field => field.2.isObject

mutual
/-- A node with a scalar value is a sample; otherwise its objects are walked. -/
def readIndividual (path : String) : Value → Except Fault (FieldList Sample)
  | .object node =>
    if holdsScalar node "value" then do
      return [(path, ← decodeSample node)]
    else if hasSubtree node then readIndividualFields path [] node
    else .error (.noSample path)
  | data => .error (.notATree data)
def readIndividualFields (path : String) (acc : FieldList Sample) :
    List (String × Value) → Except Fault (FieldList Sample)
  | [] => .ok acc
  | (segment, child) :: rest =>
    if child.isObject then do
      let below ← readIndividual (childPath path segment) child
      readIndividualFields path (acc.merge below) rest
    else readIndividualFields path acc rest
end

mutual
/-- A node with a scalar timestamp is a sample; otherwise its objects are walked. -/
def readObject (path : String) : Value → Except Fault (FieldList ObjectSample)
  | .object node =>
    if holdsScalar node Sample.timestampName then do
      return [(path, ← decodeObjectSample (.object node))]
    else if hasSubtree node then readObjectFields path [] node
    else .error (.noSample path)
  | data => .error (.notATree data)
def readObjectFields (path : String) (acc : FieldList ObjectSample) :
    List (String × Value) → Except Fault (FieldList ObjectSample)
  | [] => .ok acc
  | (segment, child) :: rest =>
    if child.isObject then do
      let below ← readObject (childPath path segment) child
      readObjectFields path (acc.merge below) rest
    else readObjectFields path acc rest
end

mutual
/-- Whatever is no object is a property; those of a subtree are collected on their own. -/
def collectProperties (path : String) : Value → FieldList Value
  | .object node => collectPropertiesFields path [] node
  | v => [(path, v)]
def collectPropertiesFields (path : String) (acc : FieldList Value) :
    List (String × Value) → FieldList Value
  | [] => acc
  | (segment, child) :: rest =>
    let below := collectProperties (childPath path segment) child
    collectPropertiesFields path (acc.merge below) rest
end

def readProperties (data : Value) : Except Fault (FieldList Value) :=
  if data.isObject then .ok (collectProperties "" data) else .error (.notATree data)

/-! ### Lists of samples -/

/-- The content of a page: rows in order, or a flattened tree. -/
inductive Content where
  | list (rows : List Row)
  | tree (rows : FieldList Row)
  deriving DecidableEq

def decodeRow (aggregation : Aggregation) (row : Value) : Except Fault Row :=
  match aggregation, row with
  | .object, row => .object <$> decodeObjectSample row
  | .individual, .object node => .individual <$> decodeSample node
  | .individual, row => .error (.notATree row)

/-- A list is read row by row, anything else is flattened as far as possible. -/
def readRows (aggregation : Aggregation) : Value → Except Fault Content
  | .list rows => .list <$> rows.mapM (decodeRow aggregation)
  | data => .ok (.tree (flattenTree data aggregation).found)

end Telemetry.Snapshot
