import Telemetry.Text.Integer
import Telemetry.Value.Pairs

/-!
Values used in a place that their kind does not fit: fields of what is no object, elements of what
cannot be walked, integers from what is no number.
-/

namespace Telemetry.Value

inductive Misfit where
  /-- Fields are asked of a value that is no object. -/
  | fieldless
  /-- The kind of the value does not allow this use at all. -/
  | unusable
  /-- An object is asked for a field that it lacks. -/
  | absent
  deriving DecidableEq

def fields? : Value → Except Misfit (List (String × Value))
  | .object fields => .ok fields
  | _ => .error .fieldless

/-- The fields of an object, none for a value that counts as not given. -/
def optionalFields (v : Value) : Except Misfit (List (String × Value)) :=
  if v.isTruthy then v.fields? else .ok []

/-- The elements of a value, none for a value that counts as not given. -/
def optionalElements (v : Value) : Except Misfit (List Value) :=
  if v.isTruthy then v.elements?.elim (.error .unusable) .ok else .ok []

inductive IntegerFault where
  | misfit (fault : Misfit)
  | unreadable (fault : Text.IntegerFault)
  deriving DecidableEq

/-- The integer that a value stands for: a fraction is cut off, a text is read. -/
def toInteger : Value → Except IntegerFault Int
  | .bool b => .ok (if b then 1 else 0)
  | .int n => .ok n
  | .float x =>
    match x.truncate? with
    | some n => .ok n
    | none => .error (.unreadable (if x.isNaN then .notANumber else .infinite))
  | .str text => (Text.readInteger 10 text.toList).mapError .unreadable
  | _ => .error (.misfit .unusable)

end Telemetry.Value
