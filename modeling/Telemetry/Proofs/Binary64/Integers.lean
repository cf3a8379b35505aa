import Telemetry.Proofs.Binary64

/-!
Integers among the binary64 numbers. A number stands for an integer exactly when the integer has at
most 53 binary digits before zeros begin, and is not out of range.
-/

namespace Telemetry.Binary64

variable {x : Binary64} {n : Int} {negative : Bool} {raw fraction m e : Nat}

/-- The exact value of a finite number. -/
def value? (x : Binary64) : Option ℚ :=
  match x.read with
  | .finite negative significand exponent =>
    some ((if negative then -1 else 1) * (significand * 2 ^ exponent))
  | _ => none

/-- Some number stands for the integer exactly. -/
def IsExact (n : Int) : Prop :=
  ∃ x : Binary64, x.value? = some (n : ℚ)

theorem value?_eq_some {v : ℚ} (h : x.value? = some v) :
    ∃ negative significand exponent, x.read = .finite negative significand exponent ∧
      |v| = significand * 2 ^ exponent := by
  unfold value? at h
  split at h
  · rename_i negative significand exponent finite
    obtain rfl := Option.some.inj h
    have positive : (0 : ℚ) ≤ significand * 2 ^ exponent := by positivity
    refine ⟨negative, significand, exponent, finite, ?_⟩
    cases negative <;> simp [abs_of_nonneg positive]
  · cases h

/-! ### Numbers from their parts -/

theorem isNegative_ofMagnitude {magnitude : Nat} (below : magnitude ≤ infinityBits) :
    (ofMagnitude negative magnitude).isNegative = negative := by
  rw [isNegative, bits_ofMagnitude below]
  unfold infinityBits leadingBit at below
  unfold signBit
  cases negative
  · exact decide_eq_false (by simp; omega)
  · exact decide_eq_true (by simp)

theorem read_ofMagnitude (weight : 0 < raw) (finite : raw < 2047) (short : fraction < leadingBit) :
    (ofMagnitude negative (raw * leadingBit + fraction)).read =
      .finite negative (leadingBit + fraction) ((raw : Int) - 1075) := by
  have below : raw * leadingBit + fraction ≤ infinityBits := by
    unfold infinityBits leadingBit at *
    omega
  have top : (raw * leadingBit + fraction) / leadingBit = raw := by
    unfold leadingBit at *
    omega
  have rest : (raw * leadingBit + fraction) % leadingBit = fraction := by
    unfold leadingBit at *
    omega
  obtain ⟨upper, lower⟩ := parts_ofMagnitude negative below
  simp only [read, upper, lower, top, rest, isNegative_ofMagnitude below]
  rw [if_neg (by omega), if_neg (by omega)]

theorem value?_zero : (zero false).value? = some 0 := by
  have read : (zero false).read = .finite false 0 (-1074) := by decide
  simp [value?, read]

/-! ### Short significands -/

/-- At most 53 binary digits, with zeros after them. -/
def HasShortSignificand (n : Int) : Prop :=
  ∃ m e, m < 2 * leadingBit ∧ n.natAbs = m * 2 ^ e

theorem hasShortSignificand_of_le (small : n.natAbs ≤ 2 * leadingBit) : HasShortSignificand n := by
  rcases Nat.lt_or_eq_of_le small with less | same
  · exact ⟨n.natAbs, 0, less, by simp⟩
  · exact ⟨1, 53, by decide, by rw [same]; rfl⟩

/-- Leading zeros of a significand are taken from the exponent. -/
theorem exists_leading (shift : Nat) : ∀ {m : Nat}, 0 < m → m < 2 * leadingBit →
    leadingBit ≤ m * 2 ^ shift → ∃ k ≤ shift, leadingBit ≤ m * 2 ^ k ∧ m * 2 ^ k < 2 * leadingBit := by
  induction shift with
  | zero =>
    intro m _ short leading
    exact ⟨0, Nat.le_refl 0, leading, by simpa using short⟩
  | succ shift ih =>
    intro m positive short leading
    by_cases normal : leadingBit ≤ m
    · exact ⟨0, Nat.zero_le _, by simpa using normal, by simpa using short⟩
    · have doubled : m * 2 ^ (shift + 1) = 2 * m * 2 ^ shift := by ring
      obtain ⟨k, bound, low, high⟩ := ih (m := 2 * m) (by omega) (by omega) (doubled ▸ leading)
      have same : m * 2 ^ (k + 1) = 2 * m * 2 ^ k := by ring
      exact ⟨k + 1, by omega, same ▸ low, same ▸ high⟩

/-- Beyond every finite number. -/
def range : Nat := 2 ^ 1024

theorem range_eq {k : Nat} (sum : 52 + k = 1024) : range = leadingBit * 2 ^ k := by
  rw [range, ← sum, pow_add]
  rfl

theorem lt_range {k : Nat} (short : m < 2 * leadingBit) (low : k < 972) : m * 2 ^ k < range := by
  obtain ⟨l, last⟩ : ∃ l, l = 972 := ⟨_, rfl⟩
  calc m * 2 ^ k < 2 * leadingBit * 2 ^ k := Nat.mul_lt_mul_of_pos_right short (by positivity)
    _ = leadingBit * 2 ^ (k + 1) := by ring
    _ ≤ leadingBit * 2 ^ l :=
        Nat.mul_le_mul_left _ (Nat.pow_le_pow_right (by decide) (by omega))
    _ = range := (range_eq (by rw [last])).symm

theorem range_le {k : Nat} (leading : leadingBit ≤ m) (high : 972 ≤ k) : range ≤ m * 2 ^ k := by
  obtain ⟨l, last⟩ : ∃ l, l = 972 := ⟨_, rfl⟩
  calc range = leadingBit * 2 ^ l := range_eq (by rw [last])
    _ ≤ m * 2 ^ k := Nat.mul_le_mul leading (Nat.pow_le_pow_right (by decide) (by omega))

theorem short_of_isExact (exact : IsExact n) : n.natAbs < range ∧ HasShortSignificand n := by
  obtain ⟨x, hx⟩ := exact
  obtain ⟨negative, significand, exponent, finite, value⟩ := value?_eq_some hx
  obtain ⟨-, least, short, leading, below, -⟩ := read_finite finite
  have magnitude : (n.natAbs : ℚ) = significand * 2 ^ exponent := by
    rw [← value, Nat.cast_natAbs, Int.cast_abs]
  rcases Int.le_total 0 exponent with whole | fractional
  · obtain ⟨k, rfl⟩ := Int.eq_ofNat_of_zero_le whole
    have same : n.natAbs = significand * 2 ^ k := by exact_mod_cast magnitude
    have low : k < 972 := by
      have weight : ((k : Int) + 1074).toNat = k + 1074 := by omega
      rw [weight] at below
      unfold infinityBits leadingBit at *
      omega
    exact ⟨same ▸ lt_range short low, significand, k, short, same⟩
  · obtain ⟨k, shift⟩ := Int.eq_ofNat_of_zero_le (show 0 ≤ -exponent by omega)
    obtain rfl : exponent = -k := by omega
    have scaled : n.natAbs * 2 ^ k = significand := by
      rw [zpow_neg, zpow_natCast, ← div_eq_mul_inv, eq_div_iff (by positivity)] at magnitude
      exact_mod_cast magnitude
    have small : n.natAbs < 2 * leadingBit :=
      lt_of_le_of_lt (Nat.le_mul_of_pos_right _ (by positivity)) (scaled ▸ short)
    refine ⟨?_, hasShortSignificand_of_le small.le⟩
    simpa using lt_range small (Nat.succ_pos 971)

/-- A short significand is shifted until its leading digit is where a number has it. -/
theorem exists_value (negative : Bool) (positive : 0 < m) (short : m < 2 * leadingBit)
    (bound : m * 2 ^ e < range) :
    ∃ x : Binary64, x.value? = some ((if negative then -1 else 1) * ((m : ℚ) * 2 ^ e)) := by
  obtain ⟨k, few, low, high⟩ :=
    exists_leading 52 positive short (Nat.le_mul_of_pos_left (2 ^ 52) positive)
  obtain ⟨fraction, split⟩ := Nat.exists_eq_add_of_le low
  have finite : e + 1075 - k < 2047 := by
    by_contra large
    obtain ⟨j, rfl⟩ := Nat.exists_eq_add_of_le (show k ≤ e by omega)
    have beyond := range_le low (show 972 ≤ j by omega)
    rw [Nat.mul_assoc, ← pow_add] at beyond
    omega
  have read : (ofMagnitude negative ((e + 1075 - k) * leadingBit + fraction)).read =
      .finite negative (leadingBit + fraction) (((e + 1075 - k : Nat) : Int) - 1075) :=
    read_ofMagnitude (by omega) finite (by omega)
  have exponent : ((e + 1075 - k : Nat) : Int) - 1075 = e - k := by omega
  have magnitude : ((leadingBit + fraction : Nat) : ℚ) * 2 ^ ((e : Int) - k) = m * 2 ^ e := by
    rw [← split, zpow_sub₀ (by norm_num), zpow_natCast, zpow_natCast]
    push_cast
    field_simp
  exact ⟨_, by rw [value?, read, exponent, ← magnitude]⟩

theorem isExact_of_short (bound : n.natAbs < range) (short : HasShortSignificand n) : IsExact n := by
  obtain ⟨m, e, digits, same⟩ := short
  rcases Nat.eq_zero_or_pos m with rfl | positive
  · obtain rfl : n = 0 := Int.natAbs_eq_zero.mp (by rw [same, Nat.zero_mul])
    exact ⟨zero false, by simpa using value?_zero⟩
  · obtain ⟨x, value⟩ := exists_value (decide (n < 0)) positive digits (same ▸ bound)
    have magnitude : (m : ℚ) * 2 ^ e = |(n : ℚ)| := by
      rw [← Int.cast_abs, ← Nat.cast_natAbs, same]
      push_cast
      rfl
    refine ⟨x, value.trans (congrArg some ?_)⟩
    rw [magnitude]
    rcases lt_or_ge n 0 with below | above
    · have sign : (n : ℚ) < 0 := by exact_mod_cast below
      simp [below, abs_of_neg sign]
    · have sign : (0 : ℚ) ≤ n := by exact_mod_cast above
      simp [not_lt.mpr above, abs_of_nonneg sign]

theorem isExact_iff : IsExact n ↔ n.natAbs < range ∧ HasShortSignificand n :=
  ⟨short_of_isExact, fun h => isExact_of_short h.1 h.2⟩

end Telemetry.Binary64
