import Mathlib.Algebra.Order.Field.Basic
import Mathlib.Algebra.Order.Field.Power
import Mathlib.Tactic.FieldSimp
import Mathlib.Tactic.Linarith
import Mathlib.Tactic.Positivity
import Mathlib.Tactic.Ring
import Telemetry.Binary64

/-!
Rounding to binary64. The number nearest to a quotient depends on the quotient alone, and so does the
number nearest to a decimal; a finite number is the one nearest to its own exact value.
-/

namespace Telemetry.Binary64

variable {num den num' den' k digits : Nat} {negative : Bool} {x : Binary64}

/-! ### Rounding a quotient -/

theorem roundDiv_mul (hk : 0 < k) : roundDiv (num * k) (den * k) = roundDiv num den := by
  have quotient : num * k / (den * k) = num / den := Nat.mul_div_mul_right num den hk
  have rest : 2 * (num * k % (den * k)) = 2 * (num % den) * k := by
    rw [Nat.mul_mod_mul_right, Nat.mul_assoc]
  have below : 2 * (num % den) * k < den * k ↔ 2 * (num % den) < den :=
    Nat.mul_lt_mul_right hk
  have above : den * k < 2 * (num % den) * k ↔ den < 2 * (num % den) :=
    Nat.mul_lt_mul_right hk
  simp only [roundDiv, quotient, rest, below, above]

theorem roundDiv_exact (hd : 0 < den) : roundDiv (num * den) den = num := by
  rw [roundDiv, Nat.mul_mod_left, Nat.mul_zero, if_pos hd]
  exact Nat.mul_div_cancel num hd

theorem roundDiv_eq_zero (small : 2 * num < den) : roundDiv num den = 0 := by
  have below : num < den := by omega
  rw [roundDiv, Nat.mod_eq_of_lt below, if_pos small]
  exact Nat.div_eq_of_lt below

theorem le_roundDiv : num / den ≤ roundDiv num den := by
  unfold roundDiv
  dsimp only
  split
  · exact Nat.le_refl _
  · split
    · omega
    · split <;> omega

/-! ### The last place -/

/-- The binary order of `num / den`: `2 ^ order` is the greatest power of two that is not above it. -/
def HasOrder (num den : Nat) (order : Int) : Prop :=
  (2 : ℚ) ^ order * den ≤ num ∧ (num : ℚ) < 2 ^ (order + 1) * den

theorem HasOrder.unique {a b : Int} (hd : 0 < den) (first : HasOrder num den a)
    (second : HasOrder num den b) : a = b := by
  have positive : (0 : ℚ) < den := by exact_mod_cast hd
  have below : ∀ {a b : Int}, HasOrder num den a → HasOrder num den b → a < b + 1 := by
    intro a b first second
    have lt : (2 : ℚ) ^ a * den < 2 ^ (b + 1) * den := first.1.trans_lt second.2
    exact (zpow_lt_zpow_iff_right₀ (by norm_num)).mp (lt_of_mul_lt_mul_right lt positive.le)
  have := below first second
  have := below second first
  omega

theorem HasOrder.mul (hk : 0 < k) {order : Int} (has : HasOrder num den order) :
    HasOrder (num * k) (den * k) order := by
  have positive : (0 : ℚ) < k := by exact_mod_cast hk
  obtain ⟨low, high⟩ := has
  constructor
  · push_cast
    rw [← mul_assoc]
    exact mul_le_mul_of_nonneg_right low positive.le
  · push_cast
    rw [← mul_assoc]
    exact mul_lt_mul_of_pos_right high positive

/-- The test by which the guess of the last place is mended. -/
theorem low_iff (num den : Nat) (guess : Int) :
    (if 0 ≤ guess then decide (num < den * Nat.pow 2 (52 + guess.toNat))
      else decide (num * Nat.pow 2 (-guess).toNat < den * leadingBit)) = true ↔
      (num : ℚ) < 2 ^ (guess + 52) * den := by
  have two : (2 : ℚ) ≠ 0 := by norm_num
  split
  · rename_i high
    obtain ⟨m, rfl⟩ := Int.eq_ofNat_of_zero_le high
    have place : (m : Int) + 52 = ((52 + m : Nat) : Int) := by omega
    rw [decide_eq_true_eq, Int.toNat_natCast, place, zpow_natCast, Nat.pow_eq, Nat.mul_comm]
    norm_cast
  · rename_i low
    obtain ⟨m, shift⟩ := Int.eq_ofNat_of_zero_le (show 0 ≤ -guess by omega)
    obtain rfl : guess = -m := by omega
    have positive : (0 : ℚ) < 2 ^ m := by positivity
    have place : (2 : ℚ) ^ (-(m : Int) + 52) = 2 ^ 52 / 2 ^ m := by
      rw [neg_add_eq_sub, zpow_sub₀ two, zpow_natCast]
      rfl
    have leading : leadingBit = 2 ^ 52 := rfl
    rw [decide_eq_true_eq, neg_neg, Int.toNat_natCast, place, leading, Nat.pow_eq,
      div_mul_eq_mul_div, lt_div_iff₀ positive, Nat.mul_comm den]
    norm_cast

theorem exists_order (hn : 0 < num) (hd : 0 < den) :
    ∃ order, HasOrder num den order ∧ lastPlace num den = max (order - 52) (-1074) := by
  have two : (2 : ℚ) ≠ 0 := by norm_num
  have numLow : (2 : ℚ) ^ num.log2 ≤ num := by exact_mod_cast Nat.log2_self_le hn.ne'
  have numHigh : (num : ℚ) < 2 ^ (num.log2 + 1) := by exact_mod_cast Nat.lt_log2_self
  have denLow : (2 : ℚ) ^ den.log2 ≤ den := by exact_mod_cast Nat.log2_self_le hd.ne'
  have denHigh : (den : ℚ) < 2 ^ (den.log2 + 1) := by exact_mod_cast Nat.lt_log2_self
  have test := low_iff num den ((num.log2 : Int) - den.log2 - 52)
  rw [sub_add_cancel] at test
  unfold lastPlace
  dsimp only
  by_cases low : (num : ℚ) < 2 ^ ((num.log2 : Int) - den.log2) * den
  · refine ⟨(num.log2 : Int) - den.log2 - 1, ⟨?_, ?_⟩, ?_⟩
    · have power : (2 : ℚ) ^ ((num.log2 : Int) - den.log2 - 1) * 2 ^ (den.log2 + 1) = 2 ^ num.log2 := by
        rw [← zpow_natCast, ← zpow_natCast, ← zpow_add₀ two]
        congr 1
        push_cast
        ring
      have positive : (0 : ℚ) < 2 ^ ((num.log2 : Int) - den.log2 - 1) := by positivity
      calc (2 : ℚ) ^ ((num.log2 : Int) - den.log2 - 1) * den
          ≤ 2 ^ ((num.log2 : Int) - den.log2 - 1) * 2 ^ (den.log2 + 1) :=
            mul_le_mul_of_nonneg_left denHigh.le positive.le
        _ = 2 ^ num.log2 := power
        _ ≤ num := numLow
    · rwa [sub_add_cancel]
    · rw [if_pos (test.mpr low)]
      congr 1
      omega
  · refine ⟨(num.log2 : Int) - den.log2, ⟨not_lt.mp low, ?_⟩, ?_⟩
    · have power : (2 : ℚ) ^ ((num.log2 : Int) - den.log2 + 1) * 2 ^ den.log2 = 2 ^ (num.log2 + 1) := by
        rw [← zpow_natCast, ← zpow_natCast, ← zpow_add₀ two]
        congr 1
        push_cast
        ring
      have positive : (0 : ℚ) < 2 ^ ((num.log2 : Int) - den.log2 + 1) := by positivity
      calc (num : ℚ) < 2 ^ (num.log2 + 1) := numHigh
        _ = 2 ^ ((num.log2 : Int) - den.log2 + 1) * 2 ^ den.log2 := power.symm
        _ ≤ 2 ^ ((num.log2 : Int) - den.log2 + 1) * den :=
            mul_le_mul_of_nonneg_left denLow positive.le
    · rw [if_neg (mt test.mp low)]

theorem lastPlace_of_order (hn : 0 < num) (hd : 0 < den) {order : Int}
    (has : HasOrder num den order) : lastPlace num den = max (order - 52) (-1074) := by
  obtain ⟨order', has', place⟩ := exists_order hn hd
  rw [place, has.unique hd has']

theorem lastPlace_mul (hn : 0 < num) (hd : 0 < den) (hk : 0 < k) :
    lastPlace (num * k) (den * k) = lastPlace num den := by
  obtain ⟨order, has, place⟩ := exists_order hn hd
  rw [place, lastPlace_of_order (Nat.mul_pos hn hk) (Nat.mul_pos hd hk) (has.mul hk)]

/-! ### Quotients -/

@[simp] theorem ofRatio_zero : ofRatio negative 0 den = zero negative := by
  rw [ofRatio, if_pos rfl]

theorem ofRatio_mul (hd : 0 < den) (hk : 0 < k) :
    ofRatio negative (num * k) (den * k) = ofRatio negative num den := by
  by_cases nothing : num = 0
  · rw [nothing, Nat.zero_mul, ofRatio_zero, ofRatio_zero]
  · have hn : 0 < num := Nat.pos_of_ne_zero nothing
    have scaled : ∀ factor, num * k * factor = num * factor * k ∧ den * k * factor = den * factor * k :=
      fun factor => ⟨Nat.mul_right_comm num k factor, Nat.mul_right_comm den k factor⟩
    rw [ofRatio, ofRatio, if_neg (Nat.mul_pos hn hk).ne', if_neg nothing, lastPlace_mul hn hd hk]
    simp only [scaled, roundDiv_mul hk]

/-- The number nearest to a quotient depends on the quotient alone. -/
theorem ofRatio_congr (hd : 0 < den) (hd' : 0 < den') (same : num * den' = num' * den) :
    ofRatio negative num den = ofRatio negative num' den' := by
  rw [← ofRatio_mul hd hd', same, Nat.mul_comm den, ofRatio_mul hd' hd]

theorem HasOrder.lt_of_lt (hd : 0 < den) {order bound : Int} (has : HasOrder num den order)
    (lt : (num : ℚ) < 2 ^ bound * den) : order < bound := by
  have positive : (0 : ℚ) < den := by exact_mod_cast hd
  have powers : (2 : ℚ) ^ order * den < 2 ^ bound * den := has.1.trans_lt lt
  exact (zpow_lt_zpow_iff_right₀ (by norm_num)).mp (lt_of_mul_lt_mul_right powers positive.le)

theorem HasOrder.le_of_le (hd : 0 < den) {order bound : Int} (has : HasOrder num den order)
    (le : (2 : ℚ) ^ bound * den ≤ num) : bound ≤ order := by
  have positive : (0 : ℚ) < den := by exact_mod_cast hd
  have powers : (2 : ℚ) ^ bound * den < 2 ^ (order + 1) * den := le.trans_lt has.2
  have := (zpow_lt_zpow_iff_right₀ (by norm_num)).mp (lt_of_mul_lt_mul_right powers positive.le)
  omega

/-- The significand has its leading digit unless the number is too small for that. -/
theorem leadingBit_le_roundDiv {m : Nat} (hd : 0 < den) (low : 2 ^ (52 + m) * den ≤ num) :
    leadingBit ≤ roundDiv num (den * Nat.pow 2 m) := by
  refine le_trans ?_ le_roundDiv
  have scaled : 0 < den * Nat.pow 2 m := Nat.mul_pos hd (Nat.pow_pos (by decide))
  refine (Nat.le_div_iff_mul_le scaled).mpr ?_
  calc leadingBit * (den * Nat.pow 2 m) = 2 ^ (52 + m) * den := by
        show 2 ^ 52 * (den * 2 ^ m) = _
        ring
    _ ≤ num := low

theorem ofRatio_of_large (hd : 0 < den) {m : Nat} (hm : 972 ≤ m)
    (large : 2 ^ (52 + m) * den ≤ num) : ofRatio negative num den = infinity negative := by
  have hn : 0 < num := lt_of_lt_of_le (Nat.mul_pos (Nat.pow_pos (by decide)) hd) large
  obtain ⟨order, has, place⟩ := exists_order hn hd
  have high : ((52 + m : Nat) : Int) ≤ order := has.le_of_le hd (by exact_mod_cast large)
  obtain ⟨l, shift⟩ := Int.eq_ofNat_of_zero_le (show 0 ≤ order - 52 by omega)
  have last : lastPlace num den = l := by omega
  have low : 2 ^ (52 + l) * den ≤ num := by
    have exponent : order = ((52 + l : Nat) : Int) := by omega
    have := has.1
    rw [exponent] at this
    exact_mod_cast this
  have significand := leadingBit_le_roundDiv hd low
  have beyond : infinityBits ≤ ((l : Int) + 1074).toNat * leadingBit +
      roundDiv num (den * Nat.pow 2 l) := by
    have weight : 2046 ≤ ((l : Int) + 1074).toNat := by omega
    calc infinityBits = 2046 * leadingBit + leadingBit := rfl
      _ ≤ _ := Nat.add_le_add (Nat.mul_le_mul_right _ weight) significand
  rw [ofRatio, if_neg hn.ne', last]
  simp only [Int.toNat_natCast, if_pos (Int.natCast_nonneg l)]
  rw [Nat.min_eq_right beyond]
  rfl

theorem ofRatio_of_small (hd : 0 < den) {m : Nat} (hm : m = 1074) (small : 2 * (num * 2 ^ m) < den) :
    ofRatio negative num den = zero negative := by
  by_cases nothing : num = 0
  · rw [nothing, ofRatio_zero]
  · have hn : 0 < num := Nat.pos_of_ne_zero nothing
    obtain ⟨order, has, place⟩ := exists_order hn hd
    have low : order < -(m : Int) := by
      refine has.lt_of_lt hd ?_
      rw [zpow_neg, zpow_natCast, inv_mul_eq_div, lt_div_iff₀ (by positivity)]
      have less : num * 2 ^ m < den := by omega
      exact_mod_cast less
    have last : lastPlace num den = -(m : Int) := by omega
    have rounded : roundDiv (num * Nat.pow 2 m) den = 0 := roundDiv_eq_zero small
    rw [ofRatio, if_neg nothing, last]
    have weight : (-(m : Int) + 1074).toNat = 0 := by omega
    have negative : ¬0 ≤ -(m : Int) := by omega
    simp only [weight, if_neg negative, neg_neg, Int.toNat_natCast, rounded]
    rfl

/-! ### Decimals -/

/-- The exact quotient of a decimal. -/
def ofDecimalRatio (negative : Bool) (digits : Nat) (exponent : Int) : Binary64 :=
  if 0 ≤ exponent then ofRatio negative (digits * Nat.pow 10 exponent.toNat) 1
  else ofRatio negative digits (Nat.pow 10 (-exponent).toNat)

theorem two_pow_le_ten_pow {n : Nat} (h : n ≤ 3 * k) : 2 ^ n ≤ 10 ^ k := by
  calc 2 ^ n ≤ 2 ^ (3 * k) := Nat.pow_le_pow_right (by decide) h
    _ = 8 ^ k := by rw [pow_mul]; norm_num
    _ ≤ 10 ^ k := Nat.pow_le_pow_left (by decide) k

theorem digits_lt : digits < 10 ^ (digits.log2 / 3 + 1) := by
  calc digits < 2 ^ (digits.log2 + 1) := Nat.lt_log2_self
    _ ≤ 10 ^ (digits.log2 / 3 + 1) := two_pow_le_ten_pow (by omega)

theorem ofDecimal_zero (exponent : Int) : ofDecimal negative 0 exponent = zero negative := by
  simp [ofDecimal]

/-- The bounds that are tried first change nothing. -/
theorem ofDecimal_eq (exponent : Int) :
    ofDecimal negative digits exponent = ofDecimalRatio negative digits exponent := by
  by_cases nothing : digits = 0
  · subst nothing
    simp [ofDecimal, ofDecimalRatio]
  · have hn : 0 < digits := Nat.pos_of_ne_zero nothing
    unfold ofDecimal
    dsimp only
    rw [if_neg nothing]
    split
    · rename_i large
      obtain ⟨m, rfl⟩ := Int.eq_ofNat_of_zero_le (show 0 ≤ exponent by unfold decimalRange at large; omega)
      have wide : 400 < m := by unfold decimalRange at large; omega
      rw [ofDecimalRatio, if_pos (Int.natCast_nonneg m), Int.toNat_natCast, Nat.pow_eq]
      refine (ofRatio_of_large (m := 3 * m - 52) Nat.one_pos (by omega) ?_).symm
      calc 2 ^ (52 + (3 * m - 52)) * 1 ≤ 10 ^ m := by
            rw [Nat.mul_one]
            exact two_pow_le_ten_pow (by omega)
        _ ≤ digits * 10 ^ m := Nat.le_mul_of_pos_left _ hn
    · split
      · rename_i small
        unfold decimalRange at small
        obtain ⟨m, shift⟩ := Int.eq_ofNat_of_zero_le (show 0 ≤ -exponent by omega)
        have place : digits.log2 / 3 + 401 ≤ m := by omega
        rw [ofDecimalRatio, if_neg (by omega), shift, Int.toNat_natCast, Nat.pow_eq]
        obtain ⟨least, isLeast⟩ : ∃ least : Nat, least = 1074 := ⟨_, rfl⟩
        refine (ofRatio_of_small (Nat.pow_pos (by decide)) isLeast ?_).symm
        calc 2 * (digits * 2 ^ least) = digits * 2 ^ (least + 1) := by ring
          _ < 10 ^ (digits.log2 / 3 + 1) * 10 ^ (m - (digits.log2 / 3 + 1)) :=
              Nat.mul_lt_mul_of_lt_of_le digits_lt (two_pow_le_ten_pow (by omega)) (by positivity)
          _ = 10 ^ m := by
              rw [← pow_add]
              congr 1
              omega
      · rfl

/-- Zeros at the end of the digits may be counted in the exponent. -/
theorem ofDecimal_shift (exponent : Int) :
    ofDecimal negative (digits * 10 ^ k) exponent = ofDecimal negative digits (exponent + k) := by
  rw [ofDecimal_eq, ofDecimal_eq, ofDecimalRatio, ofDecimalRatio]
  by_cases whole : 0 ≤ exponent
  · obtain ⟨m, rfl⟩ := Int.eq_ofNat_of_zero_le whole
    rw [if_pos whole, if_pos (by omega), Int.toNat_natCast, ← Int.natCast_add, Int.toNat_natCast,
      Nat.pow_eq, Nat.pow_eq, Nat.mul_assoc, ← pow_add, Nat.add_comm k]
  · obtain ⟨m, shift⟩ := Int.eq_ofNat_of_zero_le (show 0 ≤ -exponent by omega)
    rw [if_neg whole, shift, Int.toNat_natCast, Nat.pow_eq]
    have power : 0 < 10 ^ m := Nat.pow_pos (by decide)
    by_cases moved : 0 ≤ exponent + k
    · obtain ⟨l, sum⟩ := Int.eq_ofNat_of_zero_le moved
      rw [if_pos moved, sum, Int.toNat_natCast, Nat.pow_eq]
      refine ofRatio_congr power Nat.one_pos ?_
      have exponents : k = l + m := by omega
      rw [exponents, pow_add]
      ring
    · obtain ⟨l, sum⟩ := Int.eq_ofNat_of_zero_le (show 0 ≤ -(exponent + k) by omega)
      rw [if_neg moved, sum, Int.toNat_natCast, Nat.pow_eq]
      refine ofRatio_congr power (Nat.pow_pos (by decide)) ?_
      have exponents : m = k + l := by omega
      rw [exponents, pow_add]
      ring

/-! ### Exact values -/

variable {significand : Nat} {exponent : Int}

theorem ofMagnitude_of_bits {magnitude : Nat}
    (bits : x.bits.toNat = (if x.isNegative then signBit + magnitude else magnitude)) :
    ofMagnitude x.isNegative magnitude = x := by
  have fits := x.bits.toNat_lt
  have same : UInt64.ofNat x.bits.toNat = x.bits := UInt64.ofNat_toNat
  rw [ofMagnitude, ← bits, same]

theorem toNat_bits : x.bits.toNat =
    (if x.isNegative then signBit + x.bits.toNat % signBit else x.bits.toNat % signBit) := by
  have fits := x.bits.toNat_lt
  unfold isNegative signBit
  split
  · rename_i high
    have := of_decide_eq_true high
    omega
  · rename_i low
    have := of_decide_eq_false (eq_false_of_ne_true low)
    omega

theorem eq_infinity {negative : Bool} (infinite : x.read = .infinite negative) :
    x = infinity negative := by
  unfold read at infinite
  dsimp only at infinite
  split at infinite
  · rename_i top
    split at infinite
    · rename_i whole
      cases infinite
      have magnitude : x.bits.toNat % signBit = infinityBits := by
        unfold infinityBits leadingBit signBit at *
        omega
      refine (ofMagnitude_of_bits ?_).symm
      rw [← magnitude]
      exact toNat_bits
    · cases infinite
  · split at infinite <;> cases infinite

/-- The parts of a finite number, and how its bits are put together from them. -/
theorem read_finite (finite : x.read = .finite negative significand exponent) :
    negative = x.isNegative ∧ -1074 ≤ exponent ∧ significand < 2 * leadingBit ∧
      (exponent = -1074 ∨ leadingBit ≤ significand) ∧
      (exponent + 1074).toNat * leadingBit + significand < infinityBits ∧
      ofMagnitude x.isNegative ((exponent + 1074).toNat * leadingBit + significand) = x := by
  unfold read at finite
  dsimp only at finite
  split at finite
  · split at finite <;> cases finite
  · split at finite
    · rename_i _ subnormal
      cases finite
      have fraction : x.bits.toNat % leadingBit < leadingBit := Nat.mod_lt _ (by decide)
      have magnitude : x.bits.toNat % leadingBit = x.bits.toNat % signBit := by
        unfold leadingBit signBit at *
        omega
      refine ⟨rfl, by omega, by omega, .inl rfl, ?_, ofMagnitude_of_bits ?_⟩
      · simp only [infinityBits, leadingBit] at *
        omega
      · have total : ((-1074 : Int) + 1074).toNat * leadingBit + x.bits.toNat % leadingBit =
            x.bits.toNat % signBit := by
          rw [← magnitude]
          simp
        rw [total]
        exact toNat_bits
    · rename_i special normal
      cases finite
      have fraction : x.bits.toNat % leadingBit < leadingBit := Nat.mod_lt _ (by decide)
      generalize raw : x.bits.toNat / leadingBit % 2048 = weight at *
      have place : ((weight : Int) - 1075 + 1074).toNat = weight - 1 := by omega
      have magnitude : (weight - 1) * leadingBit + (leadingBit + x.bits.toNat % leadingBit) =
          x.bits.toNat % signBit := by
        unfold leadingBit signBit at *
        omega
      refine ⟨rfl, by omega, by omega, .inr (by omega), ?_, ofMagnitude_of_bits ?_⟩
      · rw [place]
        simp only [infinityBits, leadingBit] at *
        omega
      · rw [place, magnitude]
        exact toNat_bits

theorem HasOrder.of_significand (positive : 0 < significand) {m : Nat} :
    HasOrder (significand * 2 ^ m) 1 (significand.log2 + m) ∧
      HasOrder significand (2 ^ m) (significand.log2 - m) := by
  have two : (2 : ℚ) ≠ 0 := by norm_num
  have low : (2 : ℚ) ^ significand.log2 ≤ significand := by
    exact_mod_cast Nat.log2_self_le positive.ne'
  have high : (significand : ℚ) < 2 ^ (significand.log2 + 1) := by exact_mod_cast Nat.lt_log2_self
  have power : (0 : ℚ) < 2 ^ m := by positivity
  refine ⟨⟨?_, ?_⟩, ⟨?_, ?_⟩⟩
  · rw [zpow_add₀ two, zpow_natCast, zpow_natCast]
    push_cast
    rw [mul_one]
    exact mul_le_mul_of_nonneg_right low power.le
  · rw [add_right_comm, zpow_add₀ two, zpow_natCast]
    push_cast
    rw [mul_one]
    exact mul_lt_mul_of_pos_right (by exact_mod_cast high) power
  · rw [zpow_sub₀ two, zpow_natCast, zpow_natCast]
    push_cast
    rw [div_mul_cancel₀ _ power.ne']
    exact low
  · rw [sub_add_eq_add_sub, zpow_sub₀ two, zpow_natCast]
    push_cast
    rw [div_mul_cancel₀ _ power.ne']
    exact_mod_cast high

/-- A finite number is the one nearest to its own value. -/
theorem ofRatio_of_finite (finite : x.read = .finite negative significand exponent) :
    (if 0 ≤ exponent then ofRatio negative (significand * Nat.pow 2 exponent.toNat) 1
      else ofRatio negative significand (Nat.pow 2 (-exponent).toNat)) = x := by
  obtain ⟨rfl, least, short, leading, below, same⟩ := read_finite finite
  by_cases nothing : significand = 0
  · have low : exponent = -1074 := leading.resolve_right (by rw [nothing]; decide)
    rw [nothing, low] at same
    rw [nothing, Nat.zero_mul, ofRatio_zero, ofRatio_zero, ite_self]
    exact same
  · have positive : 0 < significand := Nat.pos_of_ne_zero nothing
    have place : max ((significand.log2 : Int) + exponent - 52) (-1074) = exponent := by
      have order : significand.log2 < 53 := (Nat.log2_lt nothing).mpr short
      rcases leading with low | high
      · omega
      · have : 52 ≤ significand.log2 := (Nat.le_log2 nothing).mpr high
        omega
    split
    · rename_i whole
      obtain ⟨m, rfl⟩ := Int.eq_ofNat_of_zero_le whole
      have order := (HasOrder.of_significand positive (m := m)).1
      have last : lastPlace (significand * 2 ^ m) 1 = m := by
        rw [lastPlace_of_order (Nat.mul_pos positive (Nat.pow_pos (by decide))) Nat.one_pos order]
        exact place
      have power : 0 < 2 ^ m := Nat.pow_pos (by decide)
      rw [Int.toNat_natCast, Nat.pow_eq, ofRatio, if_neg (Nat.mul_pos positive power).ne', last]
      simp only [if_pos whole, Int.toNat_natCast, Nat.one_mul, Nat.pow_eq, roundDiv_exact power]
      rw [Nat.min_eq_left below.le]
      exact same
    · rename_i fractional
      obtain ⟨m, shift⟩ := Int.eq_ofNat_of_zero_le (show 0 ≤ -exponent by omega)
      obtain rfl : exponent = -m := by omega
      have order := (HasOrder.of_significand positive (m := m)).2
      have power : 0 < 2 ^ m := Nat.pow_pos (by decide)
      have last : lastPlace significand (2 ^ m) = -m := by
        rw [lastPlace_of_order positive power order]
        exact place
      rw [neg_neg, Int.toNat_natCast, Nat.pow_eq, ofRatio, if_neg nothing, last]
      simp only [if_neg fractional, neg_neg, Int.toNat_natCast, Nat.pow_eq, roundDiv_exact power]
      rw [Nat.min_eq_left below.le]
      exact same

/-! ### Numbers that are read -/

theorem bits_ofMagnitude {magnitude : Nat} (below : magnitude ≤ infinityBits) :
    (ofMagnitude negative magnitude).bits.toNat =
      if negative then signBit + magnitude else magnitude := by
  have fits : (if negative then signBit + magnitude else magnitude) < 2 ^ 64 := by
    unfold infinityBits leadingBit at below
    unfold signBit
    split <;> omega
  rw [ofMagnitude, UInt64.toNat_ofNat', Nat.mod_eq_of_lt fits]

/-- The sign bit is above the parts of a pattern that its magnitude is put together from. -/
theorem parts_ofMagnitude (negative : Bool) {magnitude : Nat} (below : magnitude ≤ infinityBits) :
    (ofMagnitude negative magnitude).bits.toNat / leadingBit % 2048 = magnitude / leadingBit ∧
      (ofMagnitude negative magnitude).bits.toNat % leadingBit = magnitude % leadingBit := by
  rw [bits_ofMagnitude below]
  unfold infinityBits at below
  unfold leadingBit signBit at *
  split <;> omega

theorem isNaN_ofMagnitude {magnitude : Nat} (below : magnitude ≤ infinityBits) :
    (ofMagnitude negative magnitude).isNaN = false := by
  obtain ⟨weight, fraction⟩ := parts_ofMagnitude negative below
  rw [isNaN, decide_eq_false_iff_not, read, weight, fraction]
  split
  · rename_i special
    have last : magnitude % leadingBit = 0 := by
      unfold infinityBits at below
      unfold leadingBit at *
      omega
    rw [if_pos last]
    exact nofun
  · split <;> exact nofun

theorem isNaN_ofRatio : (ofRatio negative num den).isNaN = false := by
  unfold ofRatio
  split
  · exact isNaN_ofMagnitude (Nat.zero_le _)
  · exact isNaN_ofMagnitude (Nat.min_le_right _ _)

/-- No decimal is read as what is no number. -/
theorem isNaN_ofDecimal : (ofDecimal negative digits exponent).isNaN = false := by
  rw [ofDecimal_eq, ofDecimalRatio]
  split <;> exact isNaN_ofRatio

end Telemetry.Binary64
