import Mathlib.Algebra.Order.Field.Rat
import Mathlib.Tactic.FieldSimp
import Mathlib.Tactic.NormNum
import Mathlib.Tactic.Ring
import Telemetry.Proofs.Timestamp.Written

/-!
The moments that timestamps mean. A timestamp means an exact moment, with its whole fraction
counted; reading keeps the microseconds of it, and writing a moment of whole microseconds loses
nothing.
-/

namespace Telemetry

namespace Timestamp

open Text (isAsciiDigit)
open Decimal (natText padded)

/-! ### Exact moments -/

def digitsNumber (digits : List Char) : Nat :=
  digits.foldl (fun n c => 10 * n + (Text.digitValue? c).getD 0) 0

/-- The part of a second that the digits after the point stand for, in microseconds. -/
def fractionMicros (digits : List Char) : ℚ :=
  digitsNumber digits * 10 ^ 6 / 10 ^ digits.length

/-- Microseconds from the start of year 1 in UTC to the moment that is written, with its whole
fraction. -/
def Written.exact (w : Written) : ℚ :=
  (Calendar.dayNumber w.date * TimeOfDay.microsPerDay : Nat) +
    (TimeOfDay.micros ⟨number w.hour, number w.minute, number w.second, 0⟩ : Nat) +
    fractionMicros w.fraction - (w.zone.minutes * TimeOfDay.microsPerMinute : Int)

def instantOf? (text : String) : Option ℚ :=
  match read? (Text.trim text.toList) with
  | some w => w.dateTime.toOption.map fun _ => w.exact
  | none => none

theorem parseText_eq_ok_iff {text : String} {t : DateTime} :
    parseText text = .ok t ↔
      ∃ w, read? (Text.trim text.toList) = some w ∧ w.dateTime = .ok t := by
  unfold parseText
  cases read? (Text.trim text.toList) <;> simp

theorem instantOf?_isSome_iff {text : String} :
    (instantOf? text).isSome = true ↔ ∃ t, parseText text = .ok t := by
  unfold instantOf? parseText
  cases read? (Text.trim text.toList) with
  | none => simp
  | some w => cases h : w.dateTime <;> simp [Except.toOption, h]

theorem instantOf?_of_read {text : String} {w : Written} {t : DateTime}
    (read : read? (Text.trim text.toList) = some w) (built : w.dateTime = .ok t) :
    instantOf? text = some w.exact := by
  rw [instantOf?, read]
  simp [built, Except.toOption]

/-! ### What is written -/

variable {t : DateTime} {digits : List Char}

theorem digitsNumber_of_ascii (all : ∀ d ∈ digits, isAsciiDigit d = true) :
    digitsNumber digits = Nat.ofDigitChars 10 digits 0 := by
  have folded : ∀ (ds : List Char) n, (∀ d ∈ ds, isAsciiDigit d = true) →
      ds.foldl (fun n c => 10 * n + (Text.digitValue? c).getD 0) n = Nat.ofDigitChars 10 ds n := by
    intro ds
    induction ds with
    | nil => intro n _; rfl
    | cons d rest ih =>
      intro n all
      have value := Text.digitValue?_of_ascii (all d List.mem_cons_self)
      rw [List.foldl_cons, Nat.ofDigitChars_cons, value]
      exact ih _ fun d h => all d (List.mem_cons_of_mem _ h)
  exact folded digits 0 all

theorem fractionDigits_zeros {micro : Nat} (nonzero : micro ≠ 0) (h : micro < 1000000) :
    ∃ k, fractionDigits micro ++ List.replicate k '0' = padded 6 micro ∧
      (fractionDigits micro).length + k = 6 := by
  obtain ⟨k, whole⟩ := fractionDigits_append_zeros nonzero
  have length : (padded 6 micro).length = 6 := Decimal.length_padded (by decide) h
  rw [← whole, List.length_append, List.length_replicate] at length
  exact ⟨k, whole, length⟩

/-- Six digits make microseconds, and zeros at their end need not be there. -/
theorem fractionMicros_fractionDigits {micro : Nat} (h : micro < 1000000) :
    fractionMicros (fractionDigits micro) = micro := by
  by_cases zero : micro = 0
  · subst zero
    simp [fractionMicros, fractionDigits, digitsNumber]
  · obtain ⟨k, whole, length⟩ := fractionDigits_zeros zero h
    have value : 10 ^ k * digitsNumber (fractionDigits micro) = micro := by
      rw [digitsNumber_of_ascii fun _ => ascii_fractionDigits, ← Nat.ofDigitChars_replicate_zero,
        ← Nat.ofDigitChars_append, whole, Decimal.ofDigitChars_padded]
    have split : (10 : ℚ) ^ 6 = 10 ^ (fractionDigits micro).length * 10 ^ k := by
      rw [← pow_add, length]
    have scaled : (micro : ℚ) = 10 ^ k * digitsNumber (fractionDigits micro) := by
      exact_mod_cast value.symm
    rw [fractionMicros, split, scaled]
    field_simp

theorem microDigits_fractionDigits {micro : Nat} (h : micro < 1000000) :
    microDigits (fractionDigits micro) = padded 6 micro := by
  by_cases zero : micro = 0
  · subst zero
    rfl
  · obtain ⟨k, whole, length⟩ := fractionDigits_zeros zero h
    rw [microDigits, List.take_of_length_le (by omega), ← whole]
    congr 2
    omega

theorem micros_ofMicros {n : Nat} : (TimeOfDay.ofMicros n).micros = n := by
  simp only [TimeOfDay.ofMicros, TimeOfDay.micros]
  omega

theorem date_writtenUtc : (writtenUtc t).date = t.date := by
  simp only [Written.date, writtenUtc, number, Decimal.ofDigitChars_natText,
    Decimal.ofDigitChars_padded]

theorem time_writtenUtc : (writtenUtc t).time = t.time := by
  have micro := (isTime_time t).2.2.2
  simp only [Written.time, writtenUtc, number, microDigits_fractionDigits micro,
    Decimal.ofDigitChars_padded]

theorem ascii_digits_writtenUtc : (writtenUtc t).digits.all isAsciiDigit = true := by
  have micro := (isTime_time t).2.2.2
  rw [List.all_eq_true]
  intro c member
  simp only [Written.digits, writtenUtc, microDigits_fractionDigits micro, Zone.digits,
    List.append_nil, List.mem_append] at member
  rcases member with (((((year | month) | day) | hour) | minute) | second) | fraction
  · exact Decimal.ascii_natText year
  all_goals exact Decimal.ascii_padded ‹_›

/-- A clock is put together again from its date and its time of day. -/
theorem clock_eq : Calendar.dayNumber t.date * TimeOfDay.microsPerDay + t.time.micros = t.clock := by
  rw [DateTime.date, Calendar.dayNumber_dateOf, DateTime.time, micros_ofMicros]
  exact Nat.div_add_mod' _ _

theorem dateTime_writtenUtc (utc : t.offset = some .utc) : (writtenUtc t).dateTime = .ok t := by
  have parts : DateTime.ofParts? t.date t.time (some .utc) = some t := by
    have inRange := t.in_range
    rw [DateTime.ofParts?, if_pos ⟨isDate_date t, isTime_time t⟩, clock_eq, DateTime.ofClock?,
      dif_pos ⟨Int.natCast_nonneg _, by simpa using inRange⟩]
    obtain ⟨clock, offset, _⟩ := t
    simp_all
  have within : (writtenUtc t).zone.minutes.natAbs < 1440 := by
    show (0 : Int).natAbs < 1440
    decide
  have zone : UtcOffset.ofMinutes (writtenUtc t).zone.minutes within = .utc := rfl
  rw [Written.dateTime, if_pos ascii_digits_writtenUtc, dif_pos within, zone, date_writtenUtc,
    time_writtenUtc, parts]

theorem exact_writtenUtc : (writtenUtc t).exact = t.clock := by
  have whole : (TimeOfDay.micros ⟨t.time.hour, t.time.minute, t.time.second, 0⟩) + t.time.micro =
      t.time.micros := by simp [TimeOfDay.micros]
  have zone : (writtenUtc t).zone.minutes = 0 := rfl
  have fraction : fractionMicros (writtenUtc t).fraction = t.time.micro :=
    fractionMicros_fractionDigits (isTime_time t).2.2.2
  rw [Written.exact, date_writtenUtc, fraction, zone]
  simp only [writtenUtc, number, Decimal.ofDigitChars_padded]
  rw [← clock_eq, ← whole]
  push_cast
  ring

/-! ### Writing and reading back -/

theorem toUtc?_spec {utc : DateTime} (h : t.toUtc? = some utc) :
    utc.offset = some .utc ∧ (utc.clock : Int) = t.instant := by
  unfold DateTime.toUtc? DateTime.ofClock? at h
  split at h
  · rename_i range
    cases h
    exact ⟨rfl, Int.toNat_of_nonneg range.1⟩
  · cases h

theorem instant_of_utc (inUtc : t.offset = some .utc) : t.instant = t.clock := by
  rw [DateTime.instant, inUtc]
  simp [UtcOffset.utc]

theorem toUtc?_of_utc (inUtc : t.offset = some .utc) : t.toUtc? = some t := by
  rw [DateTime.toUtc?, instant_of_utc inUtc, DateTime.ofClock?,
    dif_pos ⟨Int.natCast_nonneg _, t.in_range⟩]
  cases t
  cases inUtc
  rfl

theorem trim_textOfUtc : Text.trim (textOfUtc t) = textOfUtc t := by
  obtain ⟨first, rest, year⟩ := List.exists_cons_of_ne_nil
    (Decimal.natText_ne_nil (n := t.date.year))
  have digit : isAsciiDigit first = true :=
    Decimal.ascii_natText (n := t.date.year) (by rw [year]; exact List.mem_cons_self)
  have head : (textOfUtc t).head? = some first := by
    rw [textOfUtc_eq, year]
    rfl
  have last : (textOfUtc t).getLast? = some 'Z' := by
    rw [textOfUtc, List.getLast?_append]
    rfl
  exact Text.trim_of_ends head last (Text.isBlank_of_ascii digit) (by decide)

theorem format_eq_ok_iff {text : String} :
    format t = .ok text ↔ ∃ utc, t.toUtc? = some utc ∧ String.ofList (textOfUtc utc) = text := by
  unfold format
  cases t.toUtc? <;> simp

theorem read?_of_late (late : 1000 ≤ t.date.year) :
    read? (Text.trim (String.ofList (textOfUtc t)).toList) = some (writtenUtc t) := by
  rw [String.toList_ofList, trim_textOfUtc, read?_textOfUtc late]

theorem read?_of_early (early : t.date.year < 1000) :
    read? (Text.trim (String.ofList (textOfUtc t)).toList) = none := by
  rw [String.toList_ofList, trim_textOfUtc, read?_textOfUtc_of_early early]

/-- A written text with a year of four digits is read as the same moment on a clock in UTC. -/
theorem parseText_of_late (utc : t.offset = some .utc) (late : 1000 ≤ t.date.year) :
    parseText (String.ofList (textOfUtc t)) = .ok t :=
  parseText_eq_ok_iff.mpr ⟨_, read?_of_late late, dateTime_writtenUtc utc⟩

theorem parseText_of_early (early : t.date.year < 1000) :
    parseText (String.ofList (textOfUtc t)) =
      .error (.notATimestamp (.str (String.ofList (textOfUtc t)))) := by
  rw [parseText, read?_of_early early]

/-- A text that is written and can be read means the very moment that was written. -/
theorem instantOf?_format {text : String} {moment : DateTime} (h : format t = .ok text)
    (readable : parseText text = .ok moment) : instantOf? text = some (t.instant : ℚ) := by
  obtain ⟨utc, inUtc, rfl⟩ := format_eq_ok_iff.mp h
  obtain ⟨offset, clock⟩ := toUtc?_spec inUtc
  rcases Nat.lt_or_ge utc.date.year 1000 with early | late
  · rw [parseText_of_early early] at readable
    cases readable
  · rw [instantOf?_of_read (read?_of_late late) (dateTime_writtenUtc offset), exact_writtenUtc,
      ← clock]
    rfl

def ReadsBack (t : DateTime) : Prop :=
  ∃ text moment, format t = .ok text ∧ parseText text = .ok moment

theorem readsBack_unixEpoch : ReadsBack .unixEpoch := by
  have inUtc : DateTime.unixEpoch.toUtc? = some .unixEpoch := rfl
  exact ⟨_, _, format_eq_ok_iff.mpr ⟨_, inUtc, rfl⟩, parseText_of_late rfl (by decide +kernel)⟩

end Timestamp

end Telemetry
