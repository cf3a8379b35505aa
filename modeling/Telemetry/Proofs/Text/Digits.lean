import Mathlib.Algebra.Ring.Nat
import Telemetry.Decimal.Format
import Telemetry.Text.Blank
import Telemetry.Text.Digit

/-!
Decimal digits that are written and read. What is written are digits `0` to `9`, as many as the
number needs or as are asked for, and they stand for the number.
-/

namespace Telemetry.Text

variable {c : Char}

theorem isAsciiDigit_iff : isAsciiDigit c = true ↔ 48 ≤ c.toNat ∧ c.toNat ≤ 57 := by
  simp only [isAsciiDigit, Bool.and_eq_true, decide_eq_true_eq]
  rfl

/-- Digits of the first script have the least code points. -/
theorem digitValue?_of_ascii (h : isAsciiDigit c = true) : digitValue? c = some (c.toNat - 48) := by
  obtain ⟨low, high⟩ := isAsciiDigit_iff.mp h
  have found : (48 ≤ c.toNat && c.toNat < 48 + 10) = true := by
    simp only [Bool.and_eq_true, decide_eq_true_eq]
    omega
  simp only [digitValue?, digitZeros, List.find?_cons, found, Option.map_some]

theorem isDigit_of_ascii (h : isAsciiDigit c = true) : isDigit c = true := by
  simp [isDigit, digitValue?_of_ascii h]

theorem isBlank_of_ascii (h : isAsciiDigit c = true) : isBlank c = false := by
  obtain ⟨low, high⟩ := isAsciiDigit_iff.mp h
  simp only [isBlank, Bool.or_eq_false_iff, Bool.and_eq_false_iff, decide_eq_false_iff_not,
    beq_eq_false_iff_ne]
  omega

/-! ### Trimming -/

theorem trim_of_ends {cs : List Char} {first last : Char} (head : cs.head? = some first)
    (end_ : cs.getLast? = some last) (hf : isBlank first = false) (hl : isBlank last = false) :
    trim cs = cs := by
  have front : cs.dropWhile isBlank = cs := by
    cases cs with
    | nil => rfl
    | cons c rest =>
      obtain rfl := Option.some.inj head
      simp [hf]
  have back : cs.reverse.dropWhile isBlank = cs.reverse := by
    cases h : cs.reverse with
    | nil => rfl
    | cons c rest =>
      have same : cs.getLast? = some c := by rw [← List.head?_reverse, h, List.head?_cons]
      obtain rfl := Option.some.inj (same.symm.trans end_)
      simp [hl]
  rw [trim, trimWith, front, back, List.reverse_reverse]

theorem trimWith_eq_self {drop : Char → Bool} {cs : List Char} (keep : ∀ c ∈ cs, drop c = false) :
    trimWith drop cs = cs := by
  have kept : ∀ {ds : List Char}, (∀ c ∈ ds, drop c = false) → ds.dropWhile drop = ds := by
    intro ds keep
    cases ds with
    | nil => rfl
    | cons d rest => simp [keep d List.mem_cons_self]
  rw [trimWith, kept keep, kept fun c member => keep c (List.mem_reverse.mp member),
    List.reverse_reverse]

theorem trimEndWith_append_zeros (cs : List Char) :
    ∃ k, trimEndWith (· = '0') cs ++ List.replicate k '0' = cs := by
  have zeros : cs.reverse.takeWhile (· = '0') =
      List.replicate (cs.reverse.takeWhile (· = '0')).length '0' :=
    List.eq_replicate_of_mem fun c h => by simpa using List.all_eq_true.mp List.all_takeWhile c h
  refine ⟨(cs.reverse.takeWhile (· = '0')).length, ?_⟩
  calc trimEndWith (· = '0') cs ++ List.replicate _ '0'
      = (cs.reverse.dropWhile (· = '0')).reverse ++ (cs.reverse.takeWhile (· = '0')).reverse := by
        rw [trimEndWith, zeros, List.reverse_replicate, List.length_replicate]
    _ = (cs.reverse.takeWhile (· = '0') ++ cs.reverse.dropWhile (· = '0')).reverse := by
        rw [List.reverse_append]
    _ = cs := by rw [List.takeWhile_append_dropWhile, List.reverse_reverse]

end Telemetry.Text

namespace Telemetry.Decimal

open Text (isAsciiDigit)

variable {n width : Nat}

theorem ascii_natText {c : Char} (h : c ∈ natText n) : isAsciiDigit c = true := by
  have digit := Nat.isDigit_of_mem_toDigits (by decide) (by decide) h
  rw [Text.isAsciiDigit_iff]
  simp only [Char.isDigit, Bool.and_eq_true, decide_eq_true_eq] at digit
  exact digit

theorem natText_ne_nil : natText n ≠ [] :=
  Nat.toDigits_ne_nil

theorem length_natText_le {k : Nat} (hk : 0 < k) : (natText n).length ≤ k ↔ n < 10 ^ k :=
  Nat.length_toDigits_le_iff (by decide) hk

theorem ascii_padded {c : Char} (h : c ∈ padded width n) : isAsciiDigit c = true := by
  rcases List.mem_append.mp h with zero | digit
  · obtain rfl := (List.mem_replicate.mp zero).2
    decide
  · exact ascii_natText digit

theorem length_padded (hw : 0 < width) (h : n < 10 ^ width) : (padded width n).length = width := by
  have short := (length_natText_le hw).mpr h
  simp only [padded, List.length_append, List.length_replicate]
  omega

/-- Digits stand for less than the power of ten with as many zeros. -/
theorem ofDigitChars_lt {digits : List Char} {start : Nat}
    (ascii : ∀ c ∈ digits, isAsciiDigit c = true) :
    Nat.ofDigitChars 10 digits start < (start + 1) * 10 ^ digits.length := by
  induction digits generalizing start with
  | nil => simp [Nat.ofDigitChars]
  | cons c rest ih =>
    obtain ⟨low, high⟩ := Text.isAsciiDigit_iff.mp (ascii c List.mem_cons_self)
    have step : 10 * start + (c.toNat - '0'.toNat) + 1 ≤ (start + 1) * 10 := by
      have : '0'.toNat = 48 := rfl
      omega
    rw [Nat.ofDigitChars_cons, List.length_cons, Nat.pow_succ', ← Nat.mul_assoc]
    calc Nat.ofDigitChars 10 rest (10 * start + (c.toNat - '0'.toNat))
        < (10 * start + (c.toNat - '0'.toNat) + 1) * 10 ^ rest.length :=
          ih fun d member => ascii d (List.mem_cons_of_mem _ member)
      _ ≤ (start + 1) * 10 * 10 ^ rest.length := Nat.mul_le_mul_right _ step

theorem length_natText_ofDigitChars {digits : List Char} (nonempty : digits ≠ [])
    (ascii : ∀ c ∈ digits, isAsciiDigit c = true) :
    (natText (Nat.ofDigitChars 10 digits 0)).length ≤ digits.length := by
  have bound : Nat.ofDigitChars 10 digits 0 < (0 + 1) * 10 ^ digits.length := ofDigitChars_lt ascii
  rw [Nat.zero_add, Nat.one_mul] at bound
  exact (length_natText_le (List.length_pos_iff.mpr nonempty)).mpr bound

theorem ofDigitChars_natText : Nat.ofDigitChars 10 (natText n) 0 = n :=
  Nat.ofDigitChars_ten_toDigits

theorem ofDigitChars_padded : Nat.ofDigitChars 10 (padded width n) 0 = n := by
  rw [padded, Nat.ofDigitChars_append, Nat.ofDigitChars_replicate_zero, Nat.mul_zero,
    ofDigitChars_natText]

end Telemetry.Decimal
