import Telemetry.Decimal.Shortest

/-! How a binary64 number is written down: its shortest digits under a record of layout choices. -/

namespace Telemetry.Decimal

structure Format where
  /-- Numbers whose leading digit has a place in this range are written without an exponent. -/
  lowestPlace : Int
  highestPlace : Int
  nan : String
  infinity : String
  negativeInfinity : String

def literalFormat : Format :=
  ⟨-4, 15, "nan", "inf", "-inf"⟩

def documentFormat : Format :=
  ⟨-4, 15, "NaN", "Infinity", "-Infinity"⟩

def natText (n : Nat) : List Char :=
  Nat.toDigits 10 n

def intText (n : Int) : List Char :=
  if n < 0 then '-' :: natText n.natAbs else natText n.natAbs

def padded (width n : Nat) : List Char :=
  List.replicate (width - (natText n).length) '0' ++ natText n

/-- An exponent has a sign and at least two digits. -/
def exponentText (place : Int) : List Char :=
  'e' :: (if place < 0 then '-' else '+') :: padded 2 place.natAbs

/-- Digits without an exponent, the first one at the given place; there is always a fraction. -/
def positional (digits : List Char) (place : Int) : List Char :=
  if place < 0 then
    '0' :: '.' :: List.replicate ((-place).toNat - 1) '0' ++ digits
  else
    let whole := place.toNat + 1
    let front := digits.take whole ++ List.replicate (whole - digits.length) '0'
    let back := digits.drop whole
    front ++ '.' :: (if back.isEmpty then ['0'] else back)

/-- Digits with an exponent: a point follows the first digit if there are more. -/
def scientific (digits : List Char) (place : Int) : List Char :=
  match digits with
  | [] => exponentText place
  | first :: [] => first :: exponentText place
  | first :: more => first :: '.' :: more ++ exponentText place

/-- The layout of a decimal: zeros at the end of its digits do not count. -/
def Format.layout (style : Format) (value : Scaled) : List Char :=
  let digits := natText value.digits
  let place : Int := value.exponent + digits.length - 1
  let kept := (digits.reverse.dropWhile (· = '0')).reverse
  if value.digits = 0 then ['0', '.', '0']
  else if style.lowestPlace ≤ place ∧ place ≤ style.highestPlace then
    positional kept place
  else scientific kept place

def Format.text (style : Format) (x : Binary64) : List Char :=
  match x.read with
  | .nan => style.nan.toList
  | .infinite negative =>
    if negative then style.negativeInfinity.toList else style.infinity.toList
  | .finite negative significand exponent =>
    (if negative then ['-'] else []) ++
      style.layout (if significand = 0 then ⟨0, 0⟩ else shortest x significand exponent)

end Telemetry.Decimal
