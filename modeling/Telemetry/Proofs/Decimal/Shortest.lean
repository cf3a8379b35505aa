import Telemetry.Decimal.Shortest
import Telemetry.Proofs.Binary64

/-!
The digits that a finite number is written with. They read back to the number: a candidate is taken
only if it does, and where none does the exact value is written.
-/

namespace Telemetry.Decimal

open Binary64 (ofDecimal)

variable {x : Binary64} {negative : Bool} {significand : Nat} {exponent : Int}

theorem exact_readsBack (finite : x.read = .finite negative significand exponent) :
    ofDecimal x.isNegative (exact significand exponent).digits (exact significand exponent).exponent =
      x := by
  obtain ⟨rfl, -⟩ := Binary64.read_finite finite
  refine Eq.trans ?_ (Binary64.ofRatio_of_finite finite)
  rw [exact]
  split
  · rw [Binary64.ofDecimal_eq, Binary64.ofDecimalRatio, if_pos (Int.le_refl 0)]
    show Binary64.ofRatio _ (significand * Nat.pow 2 exponent.toNat * 1) 1 = _
    rw [Nat.mul_one]
  · rename_i fractional
    obtain ⟨m, shift⟩ := Int.eq_ofNat_of_zero_le (show 0 ≤ -exponent by omega)
    rw [Binary64.ofDecimal_eq, Binary64.ofDecimalRatio, if_neg fractional, shift, Int.toNat_natCast]
    simp only [Nat.pow_eq]
    refine Binary64.ofRatio_congr (Nat.pow_pos (by decide)) (Nat.pow_pos (by decide)) ?_
    have ten : 10 ^ m = 5 ^ m * 2 ^ m := by rw [← Nat.mul_pow]
    rw [ten, Nat.mul_assoc]

theorem shortest_readsBack (finite : x.read = .finite negative significand exponent) :
    ofDecimal x.isNegative (shortest x significand exponent).digits
      (shortest x significand exponent).exponent = x := by
  unfold shortest
  dsimp only
  generalize candidates : List.flatMap _ _ = found
  cases taken : found.find? (readsBack x) with
  | none => exact exact_readsBack finite
  | some candidate =>
    have reads : readsBack x candidate = true := List.find?_some taken
    exact of_decide_eq_true reads

end Telemetry.Decimal
