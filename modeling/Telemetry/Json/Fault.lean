import Telemetry.Text.Encoding

/-! What can be wrong with a document. -/

namespace Telemetry.Json

inductive Flaw where
  | byteOrderMark
  | expectedValue
  | expectedName
  | expectedColon
  | expectedComma
  | unterminatedText
  | controlCharacter
  | unknownEscape
  | badCodeUnit
  | extraData
  deriving DecidableEq

def Flaw.message : Flaw → String
  | .byteOrderMark => "Unexpected UTF-8 BOM (decode using utf-8-sig)"
  | .expectedValue => "Expecting value"
  | .expectedName => "Expecting property name enclosed in double quotes"
  | .expectedColon => "Expecting ':' delimiter"
  | .expectedComma => "Expecting ',' delimiter"
  | .unterminatedText => "Unterminated string starting at"
  | .controlCharacter => "Invalid control character at"
  | .unknownEscape => "Invalid \\escape"
  | .badCodeUnit => "Invalid \\uXXXX escape"
  | .extraData => "Extra data"

/-- A place in a text: lines and columns count from one, characters from zero. -/
structure Place where
  line : Nat
  column : Nat
  index : Nat
  deriving DecidableEq

def placeAfter (before : List Char) : Place :=
  ⟨before.count '\n' + 1, (before.reverse.takeWhile (· ≠ '\n')).length + 1, before.length⟩

/-- Integers of more digits are refused. -/
def integerDigitLimit : Nat := 4300

def longIntegerMessage (digits : Nat) : String :=
  "Exceeds the limit (" ++ toString integerDigitLimit ++
    " digits) for integer string conversion: value has " ++ toString digits ++
    " digits; use sys.set_int_max_str_digits() to increase the limit"

/-- Lists and objects that can be open at a time: what a stack of a thousand calls has room for
besides those that lead to a reader. -/
def nestingLimit : Nat := 990

/-- Too much of what is well-formed, where a reader minds nothing else. -/
inductive Excess where
  /-- An integer with more digits than are converted. -/
  | longInteger (digits : Nat)
  /-- One list or object more than can be open at a time. -/
  | nesting (object : Bool)
  deriving DecidableEq

def Excess.message : Excess → String
  | .longInteger digits => longIntegerMessage digits
  | .nesting object =>
    "maximum recursion depth exceeded while decoding a JSON " ++
      (if object then "object" else "array") ++ " from a unicode string"

inductive Fault where
  | malformed (flaw : Flaw) (place : Place)
  | undecodable (fault : Text.EncodingFault)
  | excess (excess : Excess)
  deriving DecidableEq

def Fault.message : Fault → String
  | .malformed flaw place =>
    flaw.message ++ ": line " ++ toString place.line ++ " column " ++ toString place.column ++
      " (char " ++ toString place.index ++ ")"
  | .undecodable fault => fault.message
  | .excess what => what.message

end Telemetry.Json
