import Telemetry.Proofs.Calendar
import Telemetry.Proofs.Text.Digits
import Telemetry.Proofs.Timestamp.Spelling

/-!
Timestamps that are written and read back. A written timestamp is read part by part as it was
written if its year has four digits, and not at all if it has fewer.
-/

namespace Telemetry.Timestamp

open Text (isDigit isAsciiDigit)
open Decimal (natText padded)

variable {cs rest digits : List Char} {count : Nat} {c : Char}

/-! ### Readers of one part -/

theorem areDigits_of_ascii (all : ∀ d ∈ digits, isAsciiDigit d = true)
    (length : digits.length = count) : AreDigits count digits :=
  ⟨length, fun d member => Text.isDigit_of_ascii (all d member)⟩

theorem areDigits_padded {width n : Nat} (hw : 0 < width) (h : n < 10 ^ width) :
    AreDigits width (padded width n) :=
  areDigits_of_ascii (fun _ => Decimal.ascii_padded) (Decimal.length_padded hw h)

/-- Fewer digits than are asked for, with something else after them. -/
theorem takeDigits?_of_short (short : digits.length < count) (end_ : isDigit c = false) :
    takeDigits? count (digits ++ c :: rest) = none := by
  induction digits generalizing count with
  | nil =>
    obtain ⟨k, rfl⟩ := Nat.exists_eq_add_of_lt short
    simp [takeDigits?, end_]
  | cons d more ih =>
    obtain ⟨k, rfl⟩ : ∃ k, count = k + 1 := ⟨count - 1, by simp at short; omega⟩
    have inner : takeDigits? k (more ++ c :: rest) = none := ih (by simpa using short)
    simp [takeDigits?, inner]

/-! ### Fractions -/

def fractionDigits (micro : Nat) : List Char :=
  if micro = 0 then [] else Text.trimEndWith (· = '0') (padded 6 micro)

/-- A written fraction is short of six digits by zeros only. -/
theorem fractionDigits_append_zeros {micro : Nat} (h : micro ≠ 0) :
    ∃ k, fractionDigits micro ++ List.replicate k '0' = padded 6 micro := by
  simpa [fractionDigits, h] using Text.trimEndWith_append_zeros (padded 6 micro)

theorem ascii_fractionDigits {micro : Nat} (h : c ∈ fractionDigits micro) :
    isAsciiDigit c = true := by
  by_cases zero : micro = 0
  · simp [fractionDigits, zero] at h
  · obtain ⟨k, whole⟩ := fractionDigits_append_zeros zero
    exact Decimal.ascii_padded (whole ▸ List.mem_append_left _ h)

theorem fractionDigits_ne_nil {micro : Nat} (h : micro ≠ 0) : fractionDigits micro ≠ [] := by
  intro none
  obtain ⟨k, whole⟩ := fractionDigits_append_zeros h
  have value : Nat.ofDigitChars 10 (padded 6 micro) 0 = micro := Decimal.ofDigitChars_padded
  rw [← whole, none, List.nil_append, Nat.ofDigitChars_replicate_zero] at value
  omega

theorem fractionText_eq (micro : Nat) : fractionText micro = pointed (fractionDigits micro) := by
  by_cases zero : micro = 0
  · subst zero
    rfl
  · rw [pointed, if_neg (fractionDigits_ne_nil zero)]
    simp [fractionText, fractionDigits, zero]

/-! ### The whole timestamp -/

def writtenUtc (t : DateTime) : Written where
  year := natText t.date.year
  month := padded 2 t.date.month
  day := padded 2 t.date.day
  hour := padded 2 t.time.hour
  minute := padded 2 t.time.minute
  second := padded 2 t.time.second
  fraction := fractionDigits t.time.micro
  zone := .utc

theorem isDate_date (t : DateTime) : Calendar.IsDate t.date := by
  apply Calendar.isDate_dateOf
  have bound := t.in_range
  exact Nat.div_lt_of_lt_mul (by rw [Nat.mul_comm]; exact bound)

theorem isTime_time (t : DateTime) : t.time.IsTime := by
  have inDay : t.clock % TimeOfDay.microsPerDay < 86400000000 := Nat.mod_lt _ (by decide)
  simp only [DateTime.time, TimeOfDay.ofMicros, TimeOfDay.IsTime]
  omega

def textAfterYear (t : DateTime) : List Char :=
  padded 2 t.date.month ++ '-' :: padded 2 t.date.day ++ 'T' :: t.clockText ++
    fractionText t.time.micro ++ ['Z']

theorem textOfUtc_eq (t : DateTime) :
    textOfUtc t = natText t.date.year ++ '-' :: textAfterYear t := by
  simp [textOfUtc, textAfterYear]

theorem spells_writtenUtc {t : DateTime} (late : 1000 ≤ t.date.year) :
    (writtenUtc t).Spells (textOfUtc t) := by
  obtain ⟨-, lastYear, -, lastMonth, -, lastDay⟩ := isDate_date t
  obtain ⟨hour, minute, second, micro⟩ := isTime_time t
  have year : (natText t.date.year).length = 4 := by
    have atMost := (Decimal.length_natText_le (n := t.date.year) (k := 4) (by decide)).mpr
      (Nat.lt_succ_of_le lastYear)
    have atLeast := Decimal.length_natText_le (n := t.date.year) (k := 3) (by decide)
    omega
  have day : t.date.day < 100 := by
    have : Calendar.daysInMonth t.date.year t.date.month ≤ 31 := by
      unfold Calendar.daysInMonth
      repeat' split
      all_goals omega
    omega
  have two : ∀ {n}, n < 100 → AreDigits 2 (padded 2 n) := fun h => areDigits_padded (by decide) h
  exact {
    year := areDigits_of_ascii (fun _ => Decimal.ascii_natText) year
    month := two (by omega)
    day := two day
    hour := two (by omega)
    minute := two (by omega)
    second := two (by omega)
    fraction := fun d member => Text.isDigit_of_ascii (ascii_fractionDigits member)
    text := ⟨'T', ['Z'], .inl rfl, .upper, by
      simp [textOfUtc, DateTime.clockText, writtenUtc, fractionText_eq]⟩ }

theorem read?_textOfUtc {t : DateTime} (late : 1000 ≤ t.date.year) :
    read? (textOfUtc t) = some (writtenUtc t) :=
  read?_eq_some_iff.mpr (spells_writtenUtc late)

theorem read?_textOfUtc_of_early {t : DateTime} (early : t.date.year < 1000) :
    read? (textOfUtc t) = none := by
  have short : (natText t.date.year).length < 4 := by
    have := (Decimal.length_natText_le (n := t.date.year) (k := 3) (by decide)).mpr early
    omega
  rw [textOfUtc_eq, read?, takeDigits?_of_short short (by decide)]
  rfl

end Telemetry.Timestamp
