/-!
Binary floating point numbers of 64 bits, kept as their bit pattern. A finite number is a sign
and a natural number times a power of two; every conversion is exact integer arithmetic with one
rounding, to nearest and ties to even.
-/

namespace Telemetry

/-- A binary64 number. Two of them are equal when their bits are. -/
structure Binary64 where
  bits : UInt64
  deriving DecidableEq, Inhabited

namespace Binary64

/-- What a bit pattern stands for; a finite number is `significand * 2 ^ exponent`. -/
inductive Reading where
  | finite (negative : Bool) (significand : Nat) (exponent : Int)
  | infinite (negative : Bool)
  | nan
  deriving DecidableEq

/-- The weight of the highest bit, which is set in negative numbers: `2 ^ 63`. -/
def signBit : Nat := 0x8000000000000000

/-- The weight of the leading digit of a significand, which is not stored: `2 ^ 52`. -/
def leadingBit : Nat := 0x10000000000000

def isNegative (x : Binary64) : Bool :=
  signBit ≤ x.bits.toNat

def read (x : Binary64) : Reading :=
  let raw : Nat := x.bits.toNat / leadingBit % 2048
  let fraction : Nat := x.bits.toNat % leadingBit
  if raw = 2047 then
    if fraction = 0 then .infinite x.isNegative else .nan
  else if raw = 0 then .finite x.isNegative fraction (-1074)
  else .finite x.isNegative (leadingBit + fraction) ((raw : Int) - 1075)

/-- The bits of infinity, which are also the least pattern that is no finite magnitude. -/
def infinityBits : Nat := 2047 * leadingBit

def ofMagnitude (negative : Bool) (magnitude : Nat) : Binary64 :=
  ⟨UInt64.ofNat (if negative then signBit + magnitude else magnitude)⟩

def infinity (negative : Bool) : Binary64 :=
  ofMagnitude negative infinityBits

def nan : Binary64 :=
  ⟨0x7FF8000000000000⟩

def zero (negative : Bool) : Binary64 :=
  ofMagnitude negative 0

def isNaN (x : Binary64) : Bool :=
  x.read = .nan

def isFinite (x : Binary64) : Bool :=
  match x.read with
  | .finite .. => true
  | _ => false

def isZero (x : Binary64) : Bool :=
  match x.read with
  | .finite _ significand _ => significand = 0
  | _ => false

/-! ### Rounding -/

/-- The quotient to the nearest natural number, a tie to the even one. -/
def roundDiv (num den : Nat) : Nat :=
  let quotient := num / den
  let rest := 2 * (num % den)
  if rest < den then quotient
  else if den < rest then quotient + 1
  else if quotient % 2 = 0 then quotient else quotient + 1

/-- The exponent of the last place of the number nearest to `num / den`. -/
def lastPlace (num den : Nat) : Int :=
  let guess : Int := (num.log2 : Int) - den.log2 - 52
  let low : Bool :=
    if 0 ≤ guess then num < den * Nat.pow 2 (52 + guess.toNat)
    else num * Nat.pow 2 (-guess).toNat < den * leadingBit
  max (if low then guess - 1 else guess) (-1074)

/-- The number nearest to `num / den`; infinite when that is out of range. -/
def ofRatio (negative : Bool) (num den : Nat) : Binary64 :=
  if num = 0 then zero negative
  else
    let place := lastPlace num den
    let significand :=
      if 0 ≤ place then roundDiv num (den * Nat.pow 2 place.toNat)
      else roundDiv (num * Nat.pow 2 (-place).toNat) den
    ofMagnitude negative (min ((place + 1074).toNat * leadingBit + significand) infinityBits)

/-- Beyond this many places every decimal is out of range or rounds to zero. -/
def decimalRange : Int := 400

/-- The number nearest to `digits * 10 ^ exponent`. -/
def ofDecimal (negative : Bool) (digits : Nat) (exponent : Int) : Binary64 :=
  let size : Int := exponent + (digits.log2 / 3 : Nat)
  if digits = 0 then zero negative
  else if decimalRange < exponent then infinity negative
  else if size < -decimalRange then zero negative
  else if 0 ≤ exponent then ofRatio negative (digits * Nat.pow 10 exponent.toNat) 1
  else ofRatio negative digits (Nat.pow 10 (-exponent).toNat)

def ofInt (n : Int) : Binary64 :=
  ofRatio (n < 0) n.natAbs 1

/-! ### Integers -/

/-- The integer between zero and a finite number that is nearest to it. -/
def truncate? (x : Binary64) : Option Int :=
  match x.read with
  | .finite negative significand exponent =>
    let magnitude : Nat :=
      if 0 ≤ exponent then significand * Nat.pow 2 exponent.toNat
      else significand / Nat.pow 2 (-exponent).toNat
    some (if negative then -magnitude else magnitude)
  | _ => none

def isIntegral (x : Binary64) : Bool :=
  match x.read with
  | .finite _ significand exponent => 0 ≤ exponent || significand % Nat.pow 2 (-exponent).toNat = 0
  | _ => false

end Binary64

end Telemetry
