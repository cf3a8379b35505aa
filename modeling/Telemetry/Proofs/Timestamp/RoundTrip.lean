import Telemetry.Proofs.Timestamp.Instant

/-!
Timestamps that are written and read back. Every moment whose date in UTC is represented can be written.
What is written is read as the same moment in UTC from the year 1000 on, and refused before: a year is
written with as many digits as it has, and four are asked for.
-/

namespace Telemetry.Timestamp

variable {t utc : DateTime}

/-- The moment at which years begin to have four digits, counted as `DateTime.instant` counts. -/
def fourDigitYears : Nat :=
  Calendar.daysBeforeYear 1000 * TimeOfDay.microsPerDay

/-! ### What can be written -/

theorem exists_toUtc?_iff :
    (∃ utc, t.toUtc? = some utc) ↔
      0 ≤ t.instant ∧ t.instant < Calendar.dayCount * TimeOfDay.microsPerDay := by
  have range : 0 ≤ t.instant ∧ t.instant.toNat < Calendar.dayCount * TimeOfDay.microsPerDay ↔
      0 ≤ t.instant ∧ t.instant < Calendar.dayCount * TimeOfDay.microsPerDay := by
    refine and_congr_right fun start => ?_
    rw [Int.toNat_lt start]
    push_cast
    rfl
  rw [← range]
  unfold DateTime.toUtc? DateTime.ofClock?
  split
  · rename_i inside
    exact iff_of_true ⟨_, rfl⟩ inside
  · rename_i outside
    exact iff_of_false (by simp) outside

/-! ### What is read back -/

theorem four_digits_iff : 1000 ≤ utc.date.year ↔ fourDigitYears ≤ utc.clock := by
  have days : Calendar.dayNumber utc.date = utc.clock / TimeOfDay.microsPerDay :=
    Calendar.dayNumber_dateOf _
  have earlier : Calendar.dayNumber utc.date < Calendar.daysBeforeYear 1000 ↔
      utc.date.year < 1000 := Calendar.dayNumber_lt_iff (isDate_date utc)
  rw [days, Nat.div_lt_iff_lt_mul (by decide)] at earlier
  rw [← not_lt, ← not_lt, ← earlier]
  rfl

/-- Moments that can be written, those that are then read back, and what they are read as. -/
theorem format_reads_back (t : DateTime) :
    ((∃ text, format t = .ok text) ↔
      0 ≤ t.instant ∧ t.instant < Calendar.dayCount * TimeOfDay.microsPerDay) ∧
    ∀ text, format t = .ok text →
      ((fourDigitYears : Int) ≤ t.instant →
        ∃ u, parseText text = .ok u ∧ u.offset = some .utc ∧ u.instant = t.instant) ∧
      (t.instant < fourDigitYears → parseText text = .error (.notATimestamp (.str text))) := by
  constructor
  · rw [← exists_toUtc?_iff]
    simp only [format_eq_ok_iff]
    exact ⟨fun ⟨_, utc, inUtc, _⟩ => ⟨utc, inUtc⟩, fun ⟨utc, inUtc⟩ => ⟨_, utc, inUtc, rfl⟩⟩
  · intro text written
    obtain ⟨utc, inUtc, rfl⟩ := format_eq_ok_iff.mp written
    obtain ⟨offset, clock⟩ := toUtc?_spec inUtc
    have same : utc.instant = t.instant := by
      rw [DateTime.instant, offset, ← clock]
      simp [UtcOffset.utc]
    have late : (fourDigitYears : Int) ≤ t.instant ↔ 1000 ≤ utc.date.year := by
      rw [← clock, Int.ofNat_le, four_digits_iff]
    rw [← not_le, late, not_le]
    exact ⟨fun late => ⟨utc, parseText_of_late offset late, offset, same⟩, parseText_of_early⟩

/-- Half past midnight in March for UTC, on a clock that is an hour and a microsecond behind and still
shows the leap day. -/
def endOfLeapDay : DateTime :=
  ⟨Calendar.dayNumber ⟨2020, 2, 29⟩ * TimeOfDay.microsPerDay +
    TimeOfDay.micros ⟨23, 30, 0, 500⟩, some ⟨-3600000001, by decide⟩, by decide⟩

theorem format_reads_back_of_leap_day :
    ∃ text u, format endOfLeapDay = .ok text ∧ parseText text = .ok u ∧ u.offset = some .utc ∧
      u.instant = endOfLeapDay.instant := by
  obtain ⟨written, back⟩ := format_reads_back endOfLeapDay
  obtain ⟨text, isText⟩ := written.mpr (by decide)
  obtain ⟨u, read, offset, same⟩ := (back text isText).1 (by decide)
  exact ⟨text, u, isText, read, offset, same⟩

/-- The last microsecond of the year 999 in UTC. -/
def lastOfThreeDigits : DateTime :=
  ⟨fourDigitYears - 1, some .utc, by decide⟩

theorem format_of_three_digits :
    format lastOfThreeDigits = .ok "999-12-31T23:59:59.999999Z" ∧
      parseText "999-12-31T23:59:59.999999Z" =
        .error (.notATimestamp (.str "999-12-31T23:59:59.999999Z")) :=
  ⟨by decide +kernel, by decide +kernel⟩

end Telemetry.Timestamp
