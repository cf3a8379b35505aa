import Telemetry.Binary64

/-!
The fewest decimal digits that read back to a binary64 number. A candidate with `n` digits is one
of the two neighbours of the number on the grid of `n` digits, and is taken only if reading it
gives the number again.
-/

namespace Telemetry.Decimal

/-- A decimal number `digits * 10 ^ exponent`. -/
structure Scaled where
  digits : Nat
  exponent : Int
  deriving DecidableEq

/-- Whether `num / den < 10 ^ exponent`. -/
def belowPower (num den : Nat) (exponent : Int) : Bool :=
  if 0 ≤ exponent then num < den * Nat.pow 10 exponent.toNat
  else num * Nat.pow 10 (-exponent).toNat < den

/-- The least power of ten above `num / den`, from the binary logarithms and a few comparisons. -/
def scale (num den : Nat) : Int :=
  let guess : Int := ((num.log2 : Int) - den.log2) * 30103 / 100000 - 1
  let steps := [0, 1, 2, 3].find? fun step => belowPower num den (guess + step)
  guess + steps.getD 3

/-- Powers of ten move between the two sides of a quotient. -/
def shiftRatio (num den : Nat) (exponent : Int) : Nat × Nat :=
  if 0 ≤ exponent then (num, den * Nat.pow 10 exponent.toNat)
  else (num * Nat.pow 10 (-exponent).toNat, den)

/-- The neighbours of `num / den` on the grid `10 ^ exponent`, the nearer one first; a tie goes to
the even one. -/
def neighbours (num den : Nat) (exponent : Int) : List Nat :=
  let (top, bottom) := shiftRatio num den exponent
  let floor := top / bottom
  let rest := 2 * (top % bottom)
  if rest < bottom || (rest = bottom && floor % 2 = 0) then [floor, floor + 1]
  else [floor + 1, floor]

def readsBack (x : Binary64) (candidate : Scaled) : Bool :=
  Binary64.ofDecimal x.isNegative candidate.digits candidate.exponent = x

/-- The exact decimal value of `significand * 2 ^ exponent`. -/
def exact (significand : Nat) (exponent : Int) : Scaled :=
  if 0 ≤ exponent then ⟨significand * Nat.pow 2 exponent.toNat, 0⟩
  else ⟨significand * Nat.pow 5 (-exponent).toNat, exponent⟩

/-- The shortest decimal that reads back to a finite number with the given parts. -/
def shortest (x : Binary64) (significand : Nat) (exponent : Int) : Scaled :=
  let (num, den) : Nat × Nat :=
    if 0 ≤ exponent then (significand * Nat.pow 2 exponent.toNat, 1)
    else (significand, Nat.pow 2 (-exponent).toNat)
  let top := scale num den
  let candidates := (List.range 17).flatMap fun n =>
    let grid := top - (n + 1 : Nat)
    (neighbours num den grid).map (Scaled.mk · grid)
  (candidates.find? (readsBack x)).getD (exact significand exponent)

end Telemetry.Decimal
