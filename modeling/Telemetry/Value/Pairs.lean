import Telemetry.Value

/-! Values read as finite maps: objects, and sequences whose elements are pairs. -/

namespace Telemetry.Value

inductive PairsFault where
  | notPairs
  | badLength (index length : Nat)
  deriving DecidableEq

def PairsFault.message : PairsFault → String
  | .notPairs => ""
  | .badLength index length =>
    "dictionary update sequence element #" ++ toString index ++ " has length " ++
      toString length ++ "; 2 is required"

/-- The elements of a value that can be walked: characters, octets, items or names. -/
def elements? : Value → Option (List Value)
  | .str s => some (s.toList.map fun c => .str (String.singleton c))
  | .bytes octets | .buffer octets => some (octets.map fun b => .int b.toNat)
  | .list items | .tuple items => some items
  | .object fields => some (fields.map fun field => .str field.1)
  | _ => none

mutual
/-- Whether a value may be a key: whatever can be changed later may not. -/
def isKey : Value → Bool
  | .list _ | .object _ | .buffer _ => false
  | .tuple items => areKeys items
  | _ => true
def areKeys : List Value → Bool
  | [] => true
  | item :: rest => isKey item && areKeys rest
end

/-- A number in the form that tells whether it is the same key as another. -/
def keyForm : Value → Value
  | .bool b => .int (if b then 1 else 0)
  | .float x => if x.isIntegral then x.truncate?.elim (.float x) .int else .float x
  | v => v

/-- Sets a key, which keeps its place if it is there already. -/
def setPair : List (Value × Value) → Value → Value → List (Value × Value)
  | [], key, item => [(key, item)]
  | (other, old) :: rest, key, item =>
    if keyForm other = keyForm key then (other, item) :: rest
    else (other, old) :: setPair rest key item

/-- Adds pairs in turn; the first element that is no pair is reported with its index. -/
def addPairs (acc : List (Value × Value)) (index : Nat) :
    List Value → Except PairsFault (List (Value × Value))
  | [] => .ok acc
  | element :: rest =>
    match element.elements? with
    | none => .error .notPairs
    | some [key, item] =>
      if key.isKey then addPairs (setPair acc key item) (index + 1) rest else .error .notPairs
    | some other => .error (.badLength index other.length)

def toPairs (v : Value) : Except PairsFault (List (Value × Value)) :=
  match v with
  | .object fields => .ok (fields.map fun field => (.str field.1, field.2))
  | v => v.elements?.elim (.error .notPairs) (addPairs [] 0)

end Telemetry.Value
