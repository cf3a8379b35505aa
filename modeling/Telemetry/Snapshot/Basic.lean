import Telemetry.Interface.Basic
import Telemetry.Json.Reader
import Telemetry.Sample

/-!
Documents of telemetry: an envelope whose `data` is a tree of path segments with samples at its
leaves, or a list of samples.
-/

namespace Telemetry.Snapshot

inductive Fault where
  | excess (excess : Json.Excess)
  | unreadable (fault : Json.Fault)
  | badSample (fault : Sample.Fault) (node : List (String × Value))
  | notASample (node : Value)
  | notATree (data : Value)
  /-- Below the path there is neither a sample nor a subtree. -/
  | noSample (path : String)
  deriving DecidableEq

def malformedMessage : String :=
  "Could not parse Datastream - payload is likely malformed"

def Fault.message : Fault → String
  | .excess what => what.message
  | .unreadable fault => "Could not decode payload: " ++ fault.message
  | .badSample fault _ => fault.message
  | .notASample _ => "object datastream sample is not an object"
  | .notATree _ | .noSample _ => malformedMessage

def Fault.details : Fault → List (String × Value)
  | .excess _ => []
  | .unreadable fault => [("error", .str fault.message)]
  | .badSample _ node => [("node", .object node)]
  | .notASample node => [("node", node)]
  | .notATree data => [("data", data)]
  | .noSample path => [("path", .str path)]

def readDocument (document : Json.Document) : Except Fault Value :=
  match document.read with
  | .ok v => .ok v
  | .error (.excess excess) => .error (.excess excess)
  | .error fault => .error (.unreadable fault)

/-- The content of an envelope; nothing if there is no envelope. -/
def dataOf : Value → Value
  | .object fields => Value.fieldOrNull fields "data"
  | _ => .null

def readData (document : Json.Document) : Except Fault Value :=
  dataOf <$> readDocument document

/-! ### Samples -/

def decodeSample (node : List (String × Value)) : Except Fault Sample :=
  (Sample.ofFields node).mapError (.badSample · node)

def decodeObjectSample : Value → Except Fault ObjectSample
  | .object node => (ObjectSample.ofFields node).mapError (.badSample · node)
  | node => .error (.notASample node)

inductive Row where
  | individual (sample : Sample)
  | object (sample : ObjectSample)
  deriving DecidableEq

/-! ### Paths -/

def childPath (path segment : String) : String :=
  path ++ "/" ++ segment

/-- Whether a node has a field of this name that is no object: then it is a leaf, and not a tree
with a segment of that name. -/
def holdsScalar (node : List (String × Value)) (name : String) : Bool :=
  (FieldList.get? node name).any fun v => !v.isObject

end Telemetry.Snapshot
