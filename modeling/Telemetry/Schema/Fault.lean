import Telemetry.Wording

/-! What can be wrong with a field, and where the field is. -/

namespace Telemetry.Schema

inductive Cause where
  | missing
  | notText
  | notUnicode
  | emptyText
  | notInteger
  | unreadableInteger
  | fractionalInteger
  | notFinite
  | hugeInteger
  | belowMinimum (least : Int)
  | notNumber
  | unreadableNumber
  | notAbove (bound : Int)
  | notBoolean
  | unreadableBoolean
  | notMember (words : List String)
  | notList
  | emptyList
  | notDictionary
  /-- Not an object that a record of the given name could be made of. -/
  | notRecord (name : String)
  deriving DecidableEq

/-- Words in quotes, with commas and a last "or". -/
def alternatives : List String → String
  | [] => ""
  | [word] => "'" ++ word ++ "'"
  | [word, last] => "'" ++ word ++ "' or '" ++ last ++ "'"
  | word :: rest => "'" ++ word ++ "', " ++ alternatives rest

def Cause.message : Cause → String
  | .missing => "Field required"
  | .notText => "Input should be a valid string"
  | .notUnicode => "Input should be a valid string, unable to parse raw data as a unicode string"
  | .emptyText => "String should have at least 1 character"
  | .notInteger => "Input should be a valid integer"
  | .unreadableInteger => "Input should be a valid integer, unable to parse string as an integer"
  | .fractionalInteger => "Input should be a valid integer, got a number with a fractional part"
  | .notFinite => "Input should be a finite number"
  | .hugeInteger => "Unable to parse input string as an integer, exceeded maximum size"
  | .belowMinimum least => "Input should be greater than or equal to " ++ toString least
  | .notNumber => "Input should be a valid number"
  | .unreadableNumber => "Input should be a valid number, unable to parse string as a number"
  | .notAbove bound => "Input should be greater than " ++ toString bound
  | .notBoolean => "Input should be a valid boolean"
  | .unreadableBoolean => "Input should be a valid boolean, unable to interpret input"
  | .notMember words => "Input should be " ++ alternatives words
  | .notList => "Input should be a valid list"
  | .emptyList => "List should have at least 1 item after validation, not 0"
  | .notDictionary => "Input should be a valid dictionary"
  | .notRecord name => "Input should be a valid dictionary or instance of " ++ name

/-- The first fault of a document: the steps that lead to the field, and what is wrong there. -/
structure Fault where
  path : List String
  cause : Cause
  deriving DecidableEq

def Fault.location (fault : Fault) : String :=
  String.intercalate "." fault.path

def Fault.message (fault : Fault) : String :=
  fault.location ++ ": " ++ fault.cause.message

/-- The same fault seen from one level further out. -/
def Fault.below (step : String) (fault : Fault) : Fault :=
  { fault with path := step :: fault.path }

end Telemetry.Schema
