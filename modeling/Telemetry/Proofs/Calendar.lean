import Telemetry.DateTime

/-!
The calendar counted forwards and back. The date with a number of days before it has that number
of days before it, and lies in the represented years if the number does. Later dates have more days
before them, so each date is found again from their number.
-/

namespace Telemetry.Calendar

/-! ### Years -/

/-- The days of whole spans of 400, 100, 4 and 1 years, where no span is missing its last year. -/
theorem daysBeforeYear_spans {a b c d : Nat} (hb : b ≤ 3) (hc : c ≤ 24) (hd : d ≤ 3) :
    daysBeforeYear (a * 400 + b * 100 + c * 4 + d + 1) =
      a * 146097 + b * 36524 + c * 1461 + d * 365 := by
  have fours : (a * 400 + b * 100 + c * 4 + d) / 4 = a * 100 + b * 25 + c := by omega
  have centuries : (a * 400 + b * 100 + c * 4 + d) / 100 = a * 4 + b := by omega
  have quads : (a * 400 + b * 100 + c * 4 + d) / 400 = a := by omega
  simp only [daysBeforeYear, Nat.add_sub_cancel, fours, centuries, quads]
  omega

/-- Where a day lies: in which span of each length, and on which day of its year. The day after the
365th is there in a leap year only. -/
theorem dateOf_spans (n : Nat) :
    ∃ a b c d e, b ≤ 3 ∧ c ≤ 24 ∧ d ≤ 3 ∧ n = a * 146097 + b * 36524 + c * 1461 + d * 365 + e ∧
      (e < 365 ∨ e = 365 ∧ d = 3 ∧ (c = 24 → b = 3)) ∧
      dateOf n =
        let year := a * 400 + b * 100 + c * 4 + d + 1
        let month := monthOf year e 12
        ⟨year, month, e - daysBeforeMonth year month + 1⟩ := by
  refine ⟨n / 146097, min (n % 146097 / 36524) 3,
    (n % 146097 - min (n % 146097 / 36524) 3 * 36524) / 1461,
    min ((n % 146097 - min (n % 146097 / 36524) 3 * 36524) % 1461 / 365) 3, _,
    by omega, by omega, by omega, ?_, ?_, rfl⟩ <;> omega

theorem isLeap_iff (year : Nat) :
    isLeap year = true ↔ year % 4 = 0 ∧ (year % 100 ≠ 0 ∨ year % 400 = 0) := by
  simp [isLeap]

/-! ### Months -/

theorem daysBeforeMonth_succ {year month : Nat} (h : 1 ≤ month) :
    daysBeforeMonth year (month + 1) = daysBeforeMonth year month + daysInMonth year month := by
  obtain ⟨m, rfl⟩ := Nat.exists_eq_add_of_le' h
  rfl

theorem daysBeforeMonth_end (year : Nat) :
    daysBeforeMonth year 13 = if isLeap year then 366 else 365 := by
  simp only [daysBeforeMonth, daysInMonth]
  split <;> rfl

/-- The month found is the last of those tried that starts early enough. -/
theorem monthOf_spec {year e : Nat} (last : Nat) (hl : 1 ≤ last)
    (before : e < daysBeforeMonth year (last + 1)) :
    1 ≤ monthOf year e last ∧ monthOf year e last ≤ last ∧
      daysBeforeMonth year (monthOf year e last) ≤ e ∧
      e < daysBeforeMonth year (monthOf year e last + 1) := by
  induction last with
  | zero => omega
  | succ month ih =>
    unfold monthOf
    split
    · rename_i starts
      exact ⟨by omega, by omega, starts, before⟩
    · rename_i late
      have next : 1 ≤ month := by
        rcases Nat.eq_zero_or_pos month with rfl | pos
        · exact absurd (Nat.zero_le e) late
        · exact pos
      obtain ⟨low, high, start, stop⟩ := ih next (by omega)
      exact ⟨low, by omega, start, stop⟩

/-! ### Dates -/

theorem dayOfYear_spec {year e : Nat} (inYear : e < if isLeap year then 366 else 365) :
    let month := monthOf year e 12
    let day := e - daysBeforeMonth year month + 1
    1 ≤ month ∧ month ≤ 12 ∧ 1 ≤ day ∧ day ≤ daysInMonth year month ∧
      daysBeforeMonth year month + (day - 1) = e := by
  obtain ⟨low, high, start, stop⟩ :=
    monthOf_spec 12 (by decide) (by rw [daysBeforeMonth_end]; exact inYear)
  rw [daysBeforeMonth_succ low] at stop
  refine ⟨low, high, ?_, ?_, ?_⟩ <;> omega

theorem leap_of_last {a b c d e : Nat} (hc : c ≤ 24)
    (he : e < 365 ∨ e = 365 ∧ d = 3 ∧ (c = 24 → b = 3)) :
    e < if isLeap (a * 400 + b * 100 + c * 4 + d + 1) then 366 else 365 := by
  split
  · omega
  · rename_i common
    rw [isLeap_iff] at common
    omega

theorem dayNumber_dateOf (n : Nat) : dayNumber (dateOf n) = n := by
  obtain ⟨a, b, c, d, e, hb, hc, hd, hn, he, date⟩ := dateOf_spans n
  obtain ⟨-, -, -, -, day⟩ := dayOfYear_spec (leap_of_last (a := a) hc he)
  simp only [date, dayNumber, daysBeforeYear_spans hb hc hd]
  omega

theorem isDate_dateOf {n : Nat} (represented : n < dayCount) : IsDate (dateOf n) := by
  obtain ⟨a, b, c, d, e, hb, hc, hd, hn, he, date⟩ := dateOf_spans n
  obtain ⟨low, high, first, last, -⟩ := dayOfYear_spec (leap_of_last (a := a) hc he)
  have count : dayCount = 3652059 := rfl
  rw [date]
  refine ⟨by dsimp only; omega, ?_, low, high, first, last⟩
  simp only [lastYear]
  omega

/-! ### Order -/

variable {a b d : Date} {year : Nat}

def daysInYear (year : Nat) : Nat :=
  if isLeap year then 366 else 365

theorem daysBeforeYear_succ (first : 1 ≤ year) :
    daysBeforeYear (year + 1) = daysBeforeYear year + daysInYear year := by
  have fours : year / 4 = (year - 1) / 4 + if year % 4 = 0 then 1 else 0 := by split <;> omega
  have centuries : year / 100 = (year - 1) / 100 + if year % 100 = 0 then 1 else 0 := by
    split <;> omega
  have quads : year / 400 = (year - 1) / 400 + if year % 400 = 0 then 1 else 0 := by
    split <;> omega
  have fewer : (year - 1) / 100 ≤ (year - 1) / 4 := by omega
  have leap := isLeap_iff year
  simp only [daysBeforeYear, daysInYear, Nat.add_sub_cancel]
  grind

theorem daysBeforeYear_mono {first last : Nat} (h : first ≤ last) :
    daysBeforeYear first ≤ daysBeforeYear last := by
  induction h with
  | refl => exact Nat.le_refl _
  | @step last _ ih =>
    rcases Nat.eq_zero_or_pos last with rfl | positive
    · exact ih
    · rw [daysBeforeYear_succ positive]
      exact Nat.le_add_right_of_le ih

theorem daysBeforeMonth_mono {month last : Nat} (first : 1 ≤ month) (h : month ≤ last) :
    daysBeforeMonth year month ≤ daysBeforeMonth year last := by
  induction h with
  | refl => exact Nat.le_refl _
  | step later ih =>
    rw [daysBeforeMonth_succ (Nat.le_trans first later)]
    exact Nat.le_add_right_of_le ih

/-- Every day of a month lies before every later month of its year. -/
theorem dayOfYear_lt {last : Nat} (h : IsDate d) (later : d.month < last) :
    daysBeforeMonth d.year d.month + (d.day - 1) < daysBeforeMonth d.year last := by
  obtain ⟨-, -, month, -, day, lastDay⟩ := h
  have next : daysBeforeMonth d.year (d.month + 1) ≤ daysBeforeMonth d.year last :=
    daysBeforeMonth_mono (Nat.le_add_left 1 d.month) later
  rw [daysBeforeMonth_succ month] at next
  omega

theorem dayNumber_lt_iff (h : IsDate d) :
    dayNumber d < daysBeforeYear year ↔ d.year < year := by
  constructor
  · intro before
    refine Nat.lt_of_not_le fun late => ?_
    have := daysBeforeYear_mono late
    unfold dayNumber at before
    omega
  · intro earlier
    have inYear := dayOfYear_lt h (Nat.lt_succ_of_le h.2.2.2.1)
    rw [daysBeforeMonth_end] at inYear
    have next := daysBeforeYear_mono (Nat.succ_le_of_lt earlier)
    rw [Nat.succ_eq_add_one, daysBeforeYear_succ h.1, daysInYear] at next
    unfold dayNumber
    omega

/-- Dates by year, then by month, then by day. -/
def IsBefore (a b : Date) : Prop :=
  a.year < b.year ∨ a.year = b.year ∧ (a.month < b.month ∨ a.month = b.month ∧ a.day < b.day)

theorem dayNumber_lt (ha : IsDate a) (h : IsBefore a b) : dayNumber a < dayNumber b := by
  rcases h with year | ⟨year, month | ⟨month, day⟩⟩
  · have before := (dayNumber_lt_iff ha).mpr year
    have start : daysBeforeYear b.year ≤ dayNumber b := by
      unfold dayNumber
      omega
    omega
  · have inYear := dayOfYear_lt ha month
    unfold dayNumber
    rw [year] at inYear ⊢
    omega
  · have first := ha.2.2.2.2.1
    unfold dayNumber
    rw [year, month]
    omega

theorem eq_or_isBefore (a b : Date) : a = b ∨ IsBefore a b ∨ IsBefore b a := by
  obtain ⟨y, m, d⟩ := a
  obtain ⟨y', m', d'⟩ := b
  simp only [IsBefore, Date.mk.injEq]
  omega

theorem dayNumber_injective (ha : IsDate a) (hb : IsDate b) (h : dayNumber a = dayNumber b) :
    a = b := by
  rcases eq_or_isBefore a b with same | before | after
  · exact same
  · have := dayNumber_lt ha before
    omega
  · have := dayNumber_lt hb after
    omega

theorem dateOf_dayNumber (h : IsDate d) : dateOf (dayNumber d) = d := by
  have represented : dayNumber d < dayCount :=
    (dayNumber_lt_iff h).mpr (Nat.lt_succ_of_le h.2.1)
  exact dayNumber_injective (isDate_dateOf represented) h (dayNumber_dateOf _)

end Telemetry.Calendar
