import Telemetry.Schema.Fault
import Telemetry.Text.Blank
import Telemetry.Text.Digit

/-!
Integers written as text in a document. White space around them, a sign, zeros before them, single
underscores between digits and a fraction of zeros are accepted. A minus sign may also stand between
the zeros and the digits.
-/

namespace Telemetry.Schema.Numeral

/-- An integer may have this many digits, not counting zeros before it. -/
def digitLimit : Nat := 4300

/-- Whether a text begins with more digits than an integer may have. -/
def isOversized (cs : List Char) : Bool :=
  let unsigned := if cs.head? = some '-' then cs.drop 1 else cs
  let digits := unsigned.takeWhile Text.isAsciiDigit
  digits.head? ≠ some '0' && digitLimit < digits.length

/-- What follows a zero, without further zeros and the underscores among them. The last of these is
kept in front of a point and at the end. -/
def afterZero (last : Char) : List Char → List Char
  | [] => [last]
  | c :: rest =>
    if c = '0' || c = '_' then afterZero c rest
    else if c = '.' then last :: c :: rest
    else c :: rest

def dropLeadingZeros : List Char → List Char
  | '0' :: rest => afterZero '0' rest
  | cs => cs

/-- The digits before a point that only zeros follow, of which there is at least one. -/
def dropZeroFraction (cs : List Char) : List Char :=
  match cs.dropWhile (· ≠ '.') with
  | '.' :: '0' :: zeros => if zeros.all (· = '0') then cs.takeWhile (· ≠ '.') else cs
  | _ => cs

/-- Digits with at most one underscore between two of them. -/
def plainDigits? : List Char → Option (List Char)
  | [] => none
  | [c] => if Text.isAsciiDigit c then some [c] else none
  | c :: '_' :: rest => if Text.isAsciiDigit c then (plainDigits? rest).map (c :: ·) else none
  | c :: rest => if Text.isAsciiDigit c then (plainDigits? rest).map (c :: ·) else none

/-- The digits behind a minus sign that zeros stand before. One underscore may separate them from
the sign, but further zeros may not. -/
def lateDigits? (cs : List Char) : Option (List Char) :=
  let digits? := plainDigits? (dropZeroFraction (if cs.head? = some '_' then cs.drop 1 else cs))
  digits?.filter fun digits => digits.head? ≠ some '0' || digits.length = 1

/-- Whether a number is negative, and its digits unless they are too many. The minus sign stands
first or behind zeros. -/
def signedDigits? (cs : List Char) : Option (Bool × List Char) :=
  let (negative, unsigned) := Text.readSign cs
  let signed? :=
    match unsigned, dropLeadingZeros unsigned with
    | '0' :: _, '-' :: late =>
      if negative then none else (lateDigits? late).map (true, ·)
    | _, number => (plainDigits? (dropZeroFraction number)).map (negative, ·)
  signed?.filter (·.2.length ≤ digitLimit)

def read? (cs : List Char) : Option Int :=
  (signedDigits? cs).map fun (negative, digits) =>
    let magnitude := Nat.ofDigitChars 10 digits 0
    if negative then -(magnitude : Int) else magnitude

/-- Only what begins with too many digits is reported as such: a number that turns out to be too
long once it is cleaned is reported like one that cannot be read. -/
def read (cs : List Char) : Except Cause Int :=
  if isOversized cs then .error .hugeInteger
  else (read? (Text.trimWith Text.isWhite cs)).elim (.error .unreadableInteger) .ok

end Telemetry.Schema.Numeral
