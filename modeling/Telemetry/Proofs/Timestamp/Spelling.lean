import Telemetry.Timestamp

/-!
How timestamps are spelled. Reading a timestamp takes apart exactly the texts that are spelled from its
parts, so a text has one reading at most.
-/

namespace Telemetry.Timestamp

open Text (isDigit)

variable {cs rest digits : List Char} {count : Nat} {w : Written} {zone : Zone}

/-! ### Spelled forms -/

/-- So many digits, of any script. -/
def AreDigits (count : Nat) (digits : List Char) : Prop :=
  digits.length = count ∧ ∀ d ∈ digits, isDigit d = true

/-- A fraction without digits has no point either. -/
def pointed (digits : List Char) : List Char :=
  if digits = [] then [] else '.' :: digits

inductive Zone.Spells : Zone → List Char → Prop where
  | absent : Spells .utc []
  | upper : Spells .utc ['Z']
  | lower : Spells .utc ['z']
  | ahead {hours minutes : List Char} (h : AreDigits 2 hours) (m : AreDigits 2 minutes) :
      Spells (.shifted false hours minutes) ('+' :: (hours ++ ':' :: minutes))
  | behind {hours minutes : List Char} (h : AreDigits 2 hours) (m : AreDigits 2 minutes) :
      Spells (.shifted true hours minutes) ('-' :: (hours ++ ':' :: minutes))

/-- The text is spelled from the parts: `year-month-day`, a `T` or a space, `hour:minute:second`, a
point before the digits of a fraction, and an offset. -/
structure Written.Spells (w : Written) (cs : List Char) : Prop where
  year : AreDigits 4 w.year
  month : AreDigits 2 w.month
  day : AreDigits 2 w.day
  hour : AreDigits 2 w.hour
  minute : AreDigits 2 w.minute
  second : AreDigits 2 w.second
  fraction : ∀ d ∈ w.fraction, isDigit d = true
  text : ∃ mark zone, (mark = 'T' ∨ mark = 't' ∨ mark = ' ') ∧ w.zone.Spells zone ∧
    cs = w.year ++ '-' :: (w.month ++ '-' :: (w.day ++ mark :: (w.hour ++ ':' :: (w.minute ++
      ':' :: (w.second ++ (pointed w.fraction ++ zone))))))

/-! ### Readers of one part -/

theorem takeDigits?_eq_some_iff :
    takeDigits? count cs = some (digits, rest) ↔ AreDigits count digits ∧ cs = digits ++ rest := by
  induction count generalizing cs digits with
  | zero =>
    simp only [takeDigits?, AreDigits, List.length_eq_zero_iff, Option.some.injEq, Prod.mk.injEq]
    constructor
    · rintro ⟨rfl, rfl⟩
      exact ⟨⟨rfl, nofun⟩, rfl⟩
    · rintro ⟨⟨rfl, -⟩, rfl⟩
      exact ⟨rfl, rfl⟩
  | succ count ih =>
    constructor
    · intro h
      cases cs with
      | nil => cases h
      | cons c cs =>
        unfold takeDigits? at h
        split at h
        · rename_i digit
          obtain ⟨⟨more, after⟩, found, same⟩ := Option.map_eq_some_iff.mp h
          obtain ⟨rfl, rfl⟩ := Prod.mk.inj same
          obtain ⟨⟨length, all⟩, rfl⟩ := ih.mp found
          exact ⟨⟨congrArg (· + 1) length, List.forall_mem_cons.mpr ⟨digit, all⟩⟩, rfl⟩
        · cases h
    · rintro ⟨⟨length, all⟩, rfl⟩
      cases digits with
      | nil => cases length
      | cons d more =>
        obtain ⟨first, others⟩ := List.forall_mem_cons.mp all
        have inner : takeDigits? count (more ++ rest) = some (more, rest) :=
          ih.mpr ⟨⟨Nat.succ.inj length, others⟩, rfl⟩
        simp [takeDigits?, first, inner]

theorem dropOne?_eq_some_iff {allowed : Char → Bool} :
    dropOne? allowed cs = some rest ↔ ∃ c, allowed c = true ∧ cs = c :: rest := by
  cases cs with
  | nil => simp [dropOne?]
  | cons c cs =>
    simp only [dropOne?, Option.ite_none_right_eq_some, Option.some.injEq, List.cons.injEq]
    constructor
    · rintro ⟨h, rfl⟩
      exact ⟨c, h, rfl, rfl⟩
    · rintro ⟨_, h, rfl, rfl⟩
      exact ⟨h, rfl⟩

theorem pointed_of_readFraction? (h : readFraction? cs = some (digits, rest)) :
    (∀ d ∈ digits, isDigit d = true) ∧ cs = pointed digits ++ rest := by
  unfold readFraction? at h
  split at h
  · rename_i after
    dsimp only at h
    split at h
    · cases h
    · rename_i nonempty
      obtain ⟨rfl, rfl⟩ := Prod.mk.inj (Option.some.inj h)
      refine ⟨List.all_eq_true.mp List.all_takeWhile, ?_⟩
      rw [pointed, if_neg (by simpa using nonempty), List.cons_append, List.takeWhile_append_dropWhile]
  · obtain ⟨rfl, rfl⟩ := Prod.mk.inj (Option.some.inj h)
    exact ⟨nofun, rfl⟩

/-- What follows a fraction must not go on with it. -/
theorem readFraction?_pointed (all : ∀ d ∈ digits, isDigit d = true)
    (ends : ∀ c, rest.head? = some c → isDigit c = false ∧ c ≠ '.') :
    readFraction? (pointed digits ++ rest) = some (digits, rest) := by
  cases digits with
  | nil =>
    cases rest with
    | nil => rfl
    | cons c after =>
      have other := (ends c rfl).2
      simp only [pointed, if_true, List.nil_append]
      unfold readFraction?
      split
      · simp_all
      · rfl
  | cons d more =>
    have stop : rest.takeWhile isDigit = [] ∧ rest.dropWhile isDigit = rest := by
      cases rest with
      | nil => exact ⟨rfl, rfl⟩
      | cons c after => simp [(ends c rfl).1]
    rw [pointed, if_neg (List.cons_ne_nil d more), List.cons_append, readFraction?,
      List.takeWhile_append_of_pos all, List.dropWhile_append_of_pos all, stop.1, stop.2]
    simp

theorem readZone?_eq_some_iff : readZone? cs = some zone ↔ zone.Spells cs := by
  constructor
  · intro h
    unfold readZone? at h
    split at h
    · obtain rfl := Option.some.inj h
      exact .absent
    · obtain rfl := Option.some.inj h
      exact .upper
    · obtain rfl := Option.some.inj h
      exact .lower
    · rename_i sign after _ _
      split at h
      · cases h
      · rename_i signed
        simp only [Option.bind_eq_bind, Option.bind_eq_some_iff, Prod.exists,
          takeDigits?_eq_some_iff, dropOne?_eq_some_iff, decide_eq_true_eq] at h
        obtain ⟨hours, _, ⟨h, rfl⟩, _, ⟨_, rfl, rfl⟩, minutes, tail, ⟨m, rfl⟩, h'⟩ := h
        split at h'
        · rename_i last
          obtain rfl := Option.some.inj h'
          obtain rfl := List.isEmpty_iff.mp last
          rw [List.append_nil]
          by_cases minus : sign = '-'
          · simpa [minus] using Zone.Spells.behind h m
          · have plus : sign = '+' := by simpa [minus] using signed
            simpa [plus] using Zone.Spells.ahead h m
        · cases h'
  · have digits : ∀ {d after}, AreDigits 2 d → takeDigits? 2 (d ++ after) = some (d, after) :=
      fun h => takeDigits?_eq_some_iff.mpr ⟨h, rfl⟩
    have colon : ∀ {after}, dropOne? (· = ':') (':' :: after) = some after := rfl
    intro spelled
    cases spelled with
    | absent | upper | lower => rfl
    | ahead h m | behind h m =>
      have last := takeDigits?_eq_some_iff.mpr ⟨m, (List.append_nil _).symm⟩
      simp [readZone?, digits h, colon, last]

theorem Zone.Spells.ends {c : Char} (spelled : zone.Spells cs) (first : cs.head? = some c) :
    isDigit c = false ∧ c ≠ '.' := by
  cases spelled with
  | absent => cases first
  | upper | lower | ahead | behind =>
    obtain rfl := Option.some.inj first
    exact ⟨by decide, by decide⟩

/-! ### The whole timestamp -/

theorem read?_eq_some_iff : read? cs = some w ↔ w.Spells cs := by
  constructor
  · intro h
    simp only [read?, Option.bind_eq_bind, Option.bind_eq_some_iff, Prod.exists,
      takeDigits?_eq_some_iff, dropOne?_eq_some_iff, readZone?_eq_some_iff, Bool.or_eq_true,
      decide_eq_true_eq] at h
    obtain ⟨year, _, ⟨y, rfl⟩, _, ⟨_, rfl, rfl⟩, month, _, ⟨mo, rfl⟩, _, ⟨_, rfl, rfl⟩,
      day, _, ⟨d, rfl⟩, _, ⟨mark, marked, rfl⟩, hour, _, ⟨h, rfl⟩, _, ⟨_, rfl, rfl⟩,
      minute, _, ⟨mi, rfl⟩, _, ⟨_, rfl, rfl⟩, second, _, ⟨s, rfl⟩, fraction, rest, f,
      zone, spelled, whole⟩ := h
    obtain ⟨digits, rfl⟩ := pointed_of_readFraction? f
    cases whole
    exact ⟨y, mo, d, h, mi, s, digits, mark, rest, or_assoc.mp marked, spelled, rfl⟩
  · rintro ⟨y, mo, d, h, mi, s, digits, mark, rest, marked, spelled, rfl⟩
    have part : ∀ {count ds after}, AreDigits count ds →
        takeDigits? count (ds ++ after) = some (ds, after) :=
      fun are => takeDigits?_eq_some_iff.mpr ⟨are, rfl⟩
    have drop : ∀ {allowed c after}, allowed c = true → dropOne? allowed (c :: after) = some after :=
      fun {_ c _} yes => dropOne?_eq_some_iff.mpr ⟨c, yes, rfl⟩
    have separator : (mark = 'T' || mark = 't' || mark = ' ') = true := by
      simpa [or_assoc] using marked
    have fraction := readFraction?_pointed digits fun _ => spelled.ends
    simp only [read?, part y, part mo, part d, part h, part mi, part s, drop, decide_true, separator,
      fraction, readZone?_eq_some_iff.mpr spelled, Option.bind_eq_bind, Option.bind_some]
    rfl

/-- A text has one reading. -/
theorem Written.Spells.unique {v : Written} (first : v.Spells cs) (second : w.Spells cs) : v = w :=
  Option.some.inj ((read?_eq_some_iff.mpr first).symm.trans (read?_eq_some_iff.mpr second))

end Telemetry.Timestamp
