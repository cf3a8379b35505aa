import Telemetry.Json.Fault
import Telemetry.Text.Blank
import Telemetry.Text.Digit
import Telemetry.Text.Quoted

/-!
Integers written by people: white space around them, a sign, digits of any script, and single
underscores between digits are accepted.
-/

namespace Telemetry.Text

inductive IntegerFault where
  | badLiteral (base : Nat) (text : List Char)
  | tooLong (digits : Nat)
  | infinite
  | notANumber
  deriving DecidableEq

/-- At most this much of a text is quoted in a message. -/
def quotationLimit : Nat := 200

def IntegerFault.message : IntegerFault → String
  | .badLiteral base text =>
    "invalid literal for int() with base " ++ toString base ++ ": " ++
      String.ofList ((quoted text).take quotationLimit)
  | .tooLong digits => Json.longIntegerMessage digits
  | .infinite => "cannot convert float infinity to integer"
  | .notANumber => "cannot convert float NaN to integer"

/-- The value of a digit in a base of at most 36. -/
def digitIn? (base : Nat) (c : Char) : Option Nat :=
  let value : Option Nat :=
    if 'a' ≤ c && c ≤ 'z' then some (c.toNat - 87)
    else if 'A' ≤ c && c ≤ 'Z' then some (c.toNat - 55)
    else digitValue? c
  value.filter (· < base)

/-- Digits with at most one underscore between two of them; none of them may be missing. -/
def readDigits? (base : Nat) : List Char → Option (List Nat)
  | [] => none
  | [c] => (digitIn? base c).map ([·])
  | c :: '_' :: rest => return (← digitIn? base c) :: (← readDigits? base rest)
  | c :: rest => return (← digitIn? base c) :: (← readDigits? base rest)

/-- Sixteen as a base may be announced before the digits. -/
def dropBaseMark (base : Nat) (cs : List Char) : List Char :=
  if base ≠ 16 then cs
  else
    match cs with
    | '0' :: x :: '_' :: rest => if x = 'x' || x = 'X' then rest else cs
    | '0' :: x :: rest => if x = 'x' || x = 'X' then rest else cs
    | _ => cs

/-- Whether numbers in a base are limited in length: those in a power of two are not. -/
def isLimited (base : Nat) : Bool :=
  base = 10

/-- A number that begins with too many digits is reported as such, whatever stands after them. -/
def readInteger (base : Nat) (cs : List Char) : Except IntegerFault Int :=
  let (negative, unsigned) := readSign (trimWith isWhite cs)
  let bare := dropBaseMark base unsigned
  let belongs (c : Char) : Bool := c = '_' || (digitIn? base c).isSome
  match readDigits? base (bare.takeWhile belongs) with
  | none => .error (.badLiteral base cs)
  | some digits =>
    if isLimited base && Json.integerDigitLimit < digits.length then .error (.tooLong digits.length)
    else if bare.dropWhile belongs ≠ [] then .error (.badLiteral base cs)
    else
      let magnitude : Nat := digits.foldl (fun acc digit => acc * base + digit) 0
      .ok (if negative then -magnitude else magnitude)

end Telemetry.Text
