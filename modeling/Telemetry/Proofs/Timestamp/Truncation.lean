import Mathlib.Data.Rat.Floor
import Mathlib.Order.Bounds.Basic
import Mathlib.Tactic.Linarith
import Telemetry.Proofs.Timestamp.Instant
import Telemetry.Proofs.Timestamp.Spelling

/-!
What reading leaves out. The digits of a fraction beyond the sixth are dropped, so a timestamp is read as
the last whole microsecond that is not after the moment it means, and moments in order are read in
order.
-/

namespace Telemetry.Timestamp

open Text (isAsciiDigit digitValue?)

variable {digits more : List Char} {w : Written} {t : DateTime} {text : String}

/-! ### Numbers of digits -/

theorem getD_digitValue?_lt (c : Char) : (digitValue? c).getD 0 < 10 := by
  unfold digitValue?
  cases found : Text.digitZeros.find? fun first => first ≤ c.toNat && c.toNat < first + 10 with
  | none => exact Nat.succ_pos 9
  | some first =>
    have near := List.find?_some found
    simp only [Bool.and_eq_true, decide_eq_true_eq] at near
    simp only [Option.map_some, Option.getD_some]
    omega

theorem digitsNumber_append :
    digitsNumber (digits ++ more) = digitsNumber digits * 10 ^ more.length + digitsNumber more := by
  have folded : ∀ (ds : List Char) n, ds.foldl (fun n c => 10 * n + (digitValue? c).getD 0) n =
      n * 10 ^ ds.length + digitsNumber ds := by
    intro ds
    induction ds with
    | nil => simp [digitsNumber]
    | cons d rest ih =>
      intro n
      have first : digitsNumber (d :: rest) =
          (10 * 0 + (digitValue? d).getD 0) * 10 ^ rest.length + digitsNumber rest := ih _
      rw [List.foldl_cons, ih, first, List.length_cons, pow_succ]
      ring
  rw [digitsNumber, List.foldl_append]
  exact folded more _

theorem digitsNumber_lt : digitsNumber digits < 10 ^ digits.length := by
  induction digits with
  | nil => decide
  | cons d rest ih =>
    have first : digitsNumber (d :: rest) = (digitValue? d).getD 0 * 10 ^ rest.length +
        digitsNumber rest := by
      rw [← List.singleton_append, digitsNumber_append]
      simp [digitsNumber]
    have value := getD_digitValue?_lt d
    rw [first, List.length_cons, pow_succ]
    nlinarith

theorem number_microDigits (ascii : ∀ d ∈ digits.take 6, isAsciiDigit d = true) :
    number (microDigits digits) =
      digitsNumber (digits.take 6) * 10 ^ (6 - (digits.take 6).length) := by
  rw [number, microDigits, Nat.ofDigitChars_append, Nat.ofDigitChars_replicate_zero,
    digitsNumber_of_ascii ascii, Nat.mul_comm]

/-- The digits that are dropped make less than the place of the last digit that is kept. -/
theorem dropped_lt : digitsNumber (digits.drop 6) * 10 ^ (6 - (digits.take 6).length) <
    10 ^ (digits.drop 6).length := by
  have rest : digitsNumber (digits.drop 6) < 10 ^ (digits.drop 6).length := digitsNumber_lt
  rcases Nat.lt_or_ge 6 digits.length with long | short
  · have full : (digits.take 6).length = 6 := by
      rw [List.length_take]
      omega
    simpa [full] using rest
  · have none : digits.drop 6 = [] := List.drop_eq_nil_of_le short
    rw [none] at rest ⊢
    have zero : digitsNumber [] = 0 := rfl
    simp [zero]

/-- Six digits are the whole microseconds of a fraction. -/
theorem floor_fractionMicros (ascii : ∀ d ∈ digits.take 6, isAsciiDigit d = true) :
    ⌊fractionMicros digits⌋ = number (microDigits digits) := by
  have total : digitsNumber digits = digitsNumber (digits.take 6) * 10 ^ (digits.drop 6).length +
      digitsNumber (digits.drop 6) := by rw [← digitsNumber_append, List.take_append_drop]
  have places : 10 ^ digits.length = 10 ^ (digits.take 6).length * 10 ^ (digits.drop 6).length := by
    rw [← pow_add, ← List.length_append, List.take_append_drop]
  have six : 10 ^ 6 = 10 ^ (digits.take 6).length * 10 ^ (6 - (digits.take 6).length) := by
    rw [← pow_add, Nat.add_sub_cancel' (List.length_take_le 6 digits)]
  have bounds : number (microDigits digits) * 10 ^ digits.length ≤ digitsNumber digits * 10 ^ 6 ∧
      digitsNumber digits * 10 ^ 6 < (number (microDigits digits) + 1) * 10 ^ digits.length := by
    have dropped : digitsNumber (digits.drop 6) * 10 ^ (6 - (digits.take 6).length) <
        10 ^ (digits.drop 6).length := dropped_lt
    have positive : 0 < 10 ^ (digits.take 6).length := by positivity
    rw [number_microDigits ascii, total, places, six]
    generalize digitsNumber (digits.take 6) = kept, digitsNumber (digits.drop 6) = rest,
      10 ^ (digits.take 6).length = front, 10 ^ (digits.drop 6).length = back,
      10 ^ (6 - (digits.take 6).length) = missing at *
    have scaled : (kept * back + rest) * (front * missing) =
        kept * missing * (front * back) + front * (rest * missing) := by ring
    rw [scaled]
    constructor
    · exact Nat.le_add_right _ _
    · rw [Nat.add_one_mul]
      exact Nat.add_lt_add_left (Nat.mul_lt_mul_of_pos_left dropped positive) _
  have positive : (0 : ℚ) < 10 ^ digits.length := by positivity
  rw [fractionMicros, Int.floor_eq_iff, le_div_iff₀ positive, div_lt_iff₀ positive]
  exact_mod_cast bounds

/-! ### Moments -/

theorem dateTime_ok (h : w.dateTime = .ok t) :
    w.digits.all isAsciiDigit = true ∧ Calendar.IsDate w.date ∧ w.time.IsTime ∧
      t.clock = Calendar.dayNumber w.date * TimeOfDay.microsPerDay + w.time.micros ∧
      ∃ within, t.offset = some (.ofMinutes w.zone.minutes within) := by
  unfold Written.dateTime at h
  split at h
  · rename_i ascii
    split at h
    · split at h
      · rename_i built
        cases h
        unfold DateTime.ofParts? DateTime.ofClock? at built
        split at built
        · rename_i valid
          split at built
          · cases built
            exact ⟨ascii, valid.1, valid.2, Int.toNat_natCast _, _, rfl⟩
          · cases built
        · cases built
      · cases h
    · cases h
  · cases h

theorem ofMicros_micros {time : TimeOfDay} (h : time.IsTime) : .ofMicros time.micros = time := by
  obtain ⟨hour, minute, second, micro⟩ := time
  simp only [TimeOfDay.IsTime] at h
  simp only [TimeOfDay.ofMicros, TimeOfDay.micros, TimeOfDay.mk.injEq]
  omega

theorem micros_lt {time : TimeOfDay} (h : time.IsTime) : time.micros < TimeOfDay.microsPerDay := by
  simp only [TimeOfDay.IsTime] at h
  simp only [TimeOfDay.micros, TimeOfDay.microsPerDay]
  omega

/-- The clock shows the date and the time of day that are written, to six digits. -/
theorem date_time_of_dateTime (h : w.dateTime = .ok t) : t.date = w.date ∧ t.time = w.time := by
  obtain ⟨-, isDate, isTime, clock, -⟩ := dateTime_ok h
  have inDay := micros_lt isTime
  have day : t.clock / TimeOfDay.microsPerDay = Calendar.dayNumber w.date := by
    rw [clock, Nat.add_comm, Nat.add_mul_div_right _ _ (by decide), Nat.div_eq_of_lt inDay,
      Nat.zero_add]
  have rest : t.clock % TimeOfDay.microsPerDay = w.time.micros := by
    rw [clock, Nat.mul_add_mod_of_lt inDay]
  rw [DateTime.date, DateTime.time, day, rest, Calendar.dateOf_dayNumber isDate,
    ofMicros_micros isTime]
  exact ⟨rfl, rfl⟩

theorem floor_exact (h : w.dateTime = .ok t) : ⌊w.exact⌋ = t.instant := by
  obtain ⟨ascii, -, -, clock, within, offset⟩ := dateTime_ok h
  have kept : ∀ d ∈ w.fraction.take 6, isAsciiDigit d = true := by
    intro d member
    refine List.all_eq_true.mp ascii d ?_
    simp [Written.digits, microDigits, member]
  have micros : w.time.micros =
      TimeOfDay.micros ⟨number w.hour, number w.minute, number w.second, 0⟩ +
        number (microDigits w.fraction) := by
    simp [Written.time, TimeOfDay.micros]
  have ahead : t.offset.elim 0 UtcOffset.micros = w.zone.minutes * TimeOfDay.microsPerMinute := by
    rw [offset]
    rfl
  rw [Written.exact, Int.floor_sub_intCast, ← Nat.cast_add, Int.floor_natCast_add,
    floor_fractionMicros kept, DateTime.instant, clock, micros, ahead]
  push_cast
  ring

/-! ### Texts -/

/-- How a text is read: part by part as it is spelled, and as the last whole microsecond that is not
after the moment it means. -/
structure Truncates (text : String) (w : Written) (t : DateTime) : Prop where
  spelled : w.Spells (Text.trim text.toList)
  date : t.date = w.date
  time : t.time = w.time
  instant : IsGreatest {n : ℤ | (n : ℚ) ≤ w.exact} t.instant

theorem exists_truncates (h : parseText text = .ok t) : ∃ w, Truncates text w t := by
  obtain ⟨w, read, built⟩ := parseText_eq_ok_iff.mp h
  obtain ⟨date, time⟩ := date_time_of_dateTime built
  refine ⟨w, read?_eq_some_iff.mp read, date, time, ?_⟩
  have below : (⌊w.exact⌋ : ℚ) ≤ w.exact := Int.floor_le w.exact
  rw [← floor_exact built]
  exact ⟨below, fun n early => Int.le_floor.mpr early⟩

theorem parseText_truncates {a b : String} {s t : DateTime} (first : parseText a = .ok s)
    (second : parseText b = .ok t) :
    ∃ v w, Truncates a v s ∧ Truncates b w t ∧ (v.exact ≤ w.exact → s.instant ≤ t.instant) := by
  obtain ⟨v, before⟩ := exists_truncates first
  obtain ⟨w, after⟩ := exists_truncates second
  refine ⟨v, w, before, after, fun ordered => ?_⟩
  have reached : (s.instant : ℚ) ≤ w.exact := le_trans before.instant.1 ordered
  exact after.instant.2 reached

/-- A leap day ends between the two, on clocks that are apart. -/
theorem parseText_truncates_across_leap_day :
    ∃ s t, parseText "2020-02-29T23:59:59.9999999-00:30" = .ok s ∧
      parseText "2020-03-01 01:30:00+01:00" = .ok t ∧
      ∃ v w, Truncates "2020-02-29T23:59:59.9999999-00:30" v s ∧
        Truncates "2020-03-01 01:30:00+01:00" w t ∧ (v.exact ≤ w.exact → s.instant ≤ t.instant) := by
  have first : ∃ s, parseText "2020-02-29T23:59:59.9999999-00:30" = .ok s := ⟨_, rfl⟩
  have second : ∃ t, parseText "2020-03-01 01:30:00+01:00" = .ok t := ⟨_, rfl⟩
  obtain ⟨s, first⟩ := first
  obtain ⟨t, second⟩ := second
  exact ⟨s, t, first, second, parseText_truncates first second⟩

end Telemetry.Timestamp
