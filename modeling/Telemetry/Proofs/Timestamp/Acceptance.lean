import Telemetry.Proofs.Timestamp.Truncation

/-!
Which texts are timestamps. A text is read exactly when it is spelled from digits `0` to `9` that make
a date, a time of day and an offset of less than a day. Two things pass that no timestamp should hold:
digits of other scripts after the sixth of a fraction, and 60 minutes or more beside the hours of an
offset.
-/

namespace Telemetry.Timestamp

open Text (isAsciiDigit)

variable {w : Written} {zone : Zone}

/-! ### Parts in range -/

def AreAscii (digits : List Char) : Prop :=
  ∀ d ∈ digits, isAsciiDigit d = true

theorem areAscii_append {digits more : List Char} :
    AreAscii (digits ++ more) ↔ AreAscii digits ∧ AreAscii more :=
  List.forall_mem_append

/-- The digits before the fraction. -/
def Written.wholeDigits (w : Written) : List Char :=
  w.year ++ w.month ++ w.day ++ w.hour ++ w.minute ++ w.second

def Zone.hourField : Zone → Nat
  | .utc => 0
  | .shifted _ hours _ => number hours

def Zone.minuteField : Zone → Nat
  | .utc => 0
  | .shifted _ _ minutes => number minutes

structure Written.IsInRange (w : Written) : Prop where
  date : Calendar.IsDate w.date
  hour : number w.hour ≤ 23
  minute : number w.minute ≤ 59
  second : number w.second ≤ 59

structure Written.IsStandard (w : Written) : Prop extends w.IsInRange where
  ascii : AreAscii (w.wholeDigits ++ w.fraction ++ w.zone.digits)
  zoneHour : w.zone.hourField ≤ 23
  zoneMinute : w.zone.minuteField ≤ 59

/-- Digits of a fraction that are not kept may be of any script, and an offset counts as a whole. -/
structure Written.IsAccepted (w : Written) : Prop extends w.IsInRange where
  ascii : AreAscii (w.wholeDigits ++ w.fraction.take 6 ++ w.zone.digits)
  zone : w.zone.hourField * 60 + w.zone.minuteField < 24 * 60

def IsStandardText (text : String) : Prop :=
  ∃ w : Written, w.Spells (Text.trim text.toList) ∧ w.IsStandard

theorem isStandard_iff : w.IsStandard ↔
    w.IsAccepted ∧ AreAscii (w.fraction.drop 6) ∧ w.zone.minuteField ≤ 59 := by
  have fraction : AreAscii w.fraction ↔ AreAscii (w.fraction.take 6) ∧ AreAscii (w.fraction.drop 6) := by
    rw [← areAscii_append, List.take_append_drop]
  constructor
  · rintro ⟨range, ascii, hour, minute⟩
    simp only [areAscii_append, fraction] at ascii
    obtain ⟨⟨whole, kept, dropped⟩, zone⟩ := ascii
    refine ⟨⟨range, ?_, by omega⟩, dropped, minute⟩
    simp only [areAscii_append]
    exact ⟨⟨whole, kept⟩, zone⟩
  · rintro ⟨⟨range, ascii, offset⟩, dropped, minute⟩
    simp only [areAscii_append] at ascii
    obtain ⟨⟨whole, kept⟩, zone⟩ := ascii
    refine ⟨range, ?_, by omega, minute⟩
    simp only [areAscii_append, fraction]
    exact ⟨⟨whole, kept, dropped⟩, zone⟩

/-! ### What is read -/

theorem natAbs_minutes : zone.minutes.natAbs = zone.hourField * 60 + zone.minuteField := by
  cases zone with
  | utc => rfl
  | shifted behind hours minutes =>
    simp only [Zone.minutes, Zone.hourField, Zone.minuteField]
    cases behind <;> simp <;> omega

theorem areAscii_digits : AreAscii w.digits ↔
    AreAscii (w.wholeDigits ++ w.fraction.take 6 ++ w.zone.digits) := by
  have zeros : AreAscii (List.replicate (6 - (w.fraction.take 6).length) '0') := by
    intro d member
    obtain rfl := List.eq_of_mem_replicate member
    rfl
  have micro : AreAscii (microDigits w.fraction) ↔ AreAscii (w.fraction.take 6) := by
    rw [microDigits, areAscii_append]
    exact and_iff_left zeros
  show AreAscii (w.wholeDigits ++ microDigits w.fraction ++ w.zone.digits) ↔ _
  simp only [areAscii_append, micro]

theorem number_microDigits_lt {fraction : List Char} (ascii : AreAscii (microDigits fraction)) :
    number (microDigits fraction) < 1000000 := by
  have length : (microDigits fraction).length = 6 := by
    simp only [microDigits, List.length_append, List.length_take, List.length_replicate]
    omega
  have bound : number (microDigits fraction) < (0 + 1) * 10 ^ (microDigits fraction).length :=
    Decimal.ofDigitChars_lt ascii
  rw [length] at bound
  exact bound

/-- Parts of a date and a time always make a date-time. -/
theorem exists_ofParts? {date : Date} {time : TimeOfDay} (isDate : Calendar.IsDate date)
    (isTime : time.IsTime) (offset : Option UtcOffset) :
    ∃ t, DateTime.ofParts? date time offset = some t := by
  have inDay := micros_lt isTime
  have inCalendar : Calendar.dayNumber date < Calendar.dayCount :=
    (Calendar.dayNumber_lt_iff isDate).mpr (Nat.lt_succ_of_le isDate.2.1)
  have inRange : Calendar.dayNumber date * TimeOfDay.microsPerDay + time.micros <
      Calendar.dayCount * TimeOfDay.microsPerDay := by
    have next := Nat.mul_le_mul_right TimeOfDay.microsPerDay (Nat.succ_le_of_lt inCalendar)
    rw [Nat.succ_mul] at next
    omega
  rw [DateTime.ofParts?, if_pos ⟨isDate, isTime⟩, DateTime.ofClock?,
    dif_pos ⟨Int.natCast_nonneg _, by rwa [Int.toNat_natCast]⟩]
  exact ⟨_, rfl⟩

theorem exists_dateTime_iff : (∃ t, w.dateTime = .ok t) ↔ w.IsAccepted := by
  constructor
  · rintro ⟨t, built⟩
    obtain ⟨ascii, isDate, ⟨hour, minute, second, -⟩, -, within, -⟩ := dateTime_ok built
    rw [natAbs_minutes] at within
    exact ⟨⟨isDate, Nat.le_of_lt_succ hour, Nat.le_of_lt_succ minute, Nat.le_of_lt_succ second⟩,
      areAscii_digits.mp (List.all_eq_true.mp ascii), within⟩
  · rintro ⟨⟨isDate, hour, minute, second⟩, kept, offset⟩
    have ascii : AreAscii w.digits := areAscii_digits.mpr kept
    have micro : AreAscii (microDigits w.fraction) := by
      intro d member
      apply ascii
      simp [Written.digits, member]
    have isTime : w.time.IsTime := ⟨Nat.lt_succ_of_le hour, Nat.lt_succ_of_le minute,
      Nat.lt_succ_of_le second, number_microDigits_lt micro⟩
    have within : w.zone.minutes.natAbs < 1440 := by
      rw [natAbs_minutes]
      exact offset
    obtain ⟨t, parts⟩ := exists_ofParts? isDate isTime (some (.ofMinutes w.zone.minutes within))
    rw [Written.dateTime, if_pos (List.all_eq_true.mpr ascii), dif_pos within, parts]
    exact ⟨t, rfl⟩

theorem exists_parse_iff {text : String} : (∃ t, parse (.str text) = .ok t) ↔
    ∃ w : Written, w.Spells (Text.trim text.toList) ∧ w.IsAccepted := by
  simp only [parse, parseText_eq_ok_iff, read?_eq_some_iff, ← exists_dateTime_iff]
  constructor
  · rintro ⟨t, w, spelled, built⟩
    exact ⟨w, spelled, t, built⟩
  · rintro ⟨w, spelled, t, built⟩
    exact ⟨t, w, spelled, built⟩

/-- A text is read exactly when its parts are accepted and is a fault otherwise, and the texts of the
standard are those that are read without either excess. -/
theorem parse_accepts (text : String) :
    ((∃ t, parse (.str text) = .ok t) ↔
      ∃ w : Written, w.Spells (Text.trim text.toList) ∧ w.IsAccepted) ∧
    ((∃ fault, parse (.str text) = .error fault) ↔
      ¬∃ w : Written, w.Spells (Text.trim text.toList) ∧ w.IsAccepted) ∧
    (IsStandardText text ↔ ∃ w : Written, w.Spells (Text.trim text.toList) ∧ w.IsAccepted ∧
      AreAscii (w.fraction.drop 6) ∧ w.zone.minuteField ≤ 59) := by
  refine ⟨exists_parse_iff, ?_, ?_⟩
  · rw [← exists_parse_iff]
    cases parse (.str text) <;> simp
  · exact exists_congr fun w => and_congr_right fun _ => isStandard_iff

theorem not_isStandardText {text : String} (spelled : w.Spells (Text.trim text.toList))
    (excess : ¬w.IsStandard) : ¬IsStandardText text := by
  rintro ⟨v, others, standard⟩
  exact excess (spelled.unique others ▸ standard)

/-- An offset of 22 hours and 99 minutes, and a seventh digit of another script. -/
theorem excesses_accepted :
    ((∃ t, parse (.str "2020-01-01T00:00:00+22:99") = .ok t) ∧
      ¬IsStandardText "2020-01-01T00:00:00+22:99") ∧
    (∃ t, parse (.str "2020-01-01T00:00:00.000000٣Z") = .ok t) ∧
      ¬IsStandardText "2020-01-01T00:00:00.000000٣Z" := by
  refine ⟨⟨⟨_, rfl⟩, ?_⟩, ⟨_, rfl⟩, ?_⟩
  · refine not_isStandardText (read?_eq_some_iff.mp rfl) fun standard => ?_
    exact absurd standard.zoneMinute (by decide)
  · refine not_isStandardText (read?_eq_some_iff.mp rfl) fun standard => ?_
    exact absurd (standard.ascii '٣' (by decide)) (by decide)

end Telemetry.Timestamp
