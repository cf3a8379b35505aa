import Telemetry.DeviceId
import Telemetry.Proofs.Base64
import Telemetry.Proofs.Uuid

/-!
The form of device identifiers. Whatever has 22 characters of the URL-safe alphabet stands for 128 bits.
A text is taken for an identifier if it has that form, and also if a line break follows the 22 characters.
-/

namespace Telemetry.DeviceId

open Base64 (Alphabet)

variable {c : Char} {cs id : List Char} {text : String} {u : Uuid}

/-! ### Characters and digits -/

def isIdChar (c : Char) : Bool :=
  ('A' ≤ c && c ≤ 'Z') || ('a' ≤ c && c ≤ 'z') || ('0' ≤ c && c ≤ '9') || c = '-' || c = '_'

structure HasForm (cs : List Char) : Prop where
  length : cs.length = 22
  chars : ∀ c ∈ cs, isIdChar c = true

/-- A line break may follow the form. -/
def HasLooseForm (cs : List Char) : Prop :=
  ∃ id, HasForm id ∧ (cs = id ∨ cs = id ++ ['\n'])

theorem isIdChar_lt (allowed : isIdChar c = true) : c.toNat < 128 := by
  simp only [isIdChar, Bool.or_eq_true, Bool.and_eq_true, decide_eq_true_eq] at allowed
  rcases allowed with (((upper | lower) | digit) | rfl) | rfl
  · have range : 65 ≤ c.toNat ∧ c.toNat ≤ 90 := upper
    omega
  · have range : 97 ≤ c.toNat ∧ c.toNat ≤ 122 := lower
    omega
  · have range : 48 ≤ c.toNat ∧ c.toNat ≤ 57 := digit
    omega
  · decide
  · decide

theorem isIdChar_iff : isIdChar c = true ↔ ∃ d < 64, Alphabet.urlSafe.char d = c := by
  constructor
  · intro allowed
    have all : ∀ n < 128, isIdChar (Char.ofNat n) = true → Char.ofNat n ∈ Alphabet.urlSafe.chars := by
      decide +kernel
    have member := all c.toNat (isIdChar_lt allowed)
    rw [Char.ofNat_toNat] at member
    obtain ⟨d, inside, same⟩ := List.getElem_of_mem (member allowed)
    exact ⟨d, Base64.length_chars ▸ inside, (Base64.char_eq_getElem inside).trans same⟩
  · rintro ⟨d, small, rfl⟩
    have all : Alphabet.urlSafe.chars.all isIdChar = true := by decide
    exact List.all_eq_true.mp all _ (Base64.char_mem small)

theorem hasForm_iff : HasForm cs ↔
    ∃ ds : List Nat, ds.length = 22 ∧ (∀ d ∈ ds, d < 64) ∧ ds.map Alphabet.urlSafe.char = cs := by
  constructor
  · rintro ⟨length, chars⟩
    have written : ∀ {cs : List Char}, (∀ c ∈ cs, isIdChar c = true) →
        ∃ ds : List Nat, (∀ d ∈ ds, d < 64) ∧ ds.map Alphabet.urlSafe.char = cs := by
      intro cs chars
      induction cs with
      | nil => exact ⟨[], nofun, rfl⟩
      | cons c rest ih =>
        obtain ⟨first, others⟩ := List.forall_mem_cons.mp chars
        obtain ⟨d, small, rfl⟩ := isIdChar_iff.mp first
        obtain ⟨ds, all, rfl⟩ := ih others
        exact ⟨d :: ds, List.forall_mem_cons.mpr ⟨small, all⟩, rfl⟩
    obtain ⟨ds, small, rfl⟩ := written chars
    exact ⟨ds, by simpa using length, small, rfl⟩
  · rintro ⟨ds, length, small, rfl⟩
    refine ⟨by simpa using length, fun c member => ?_⟩
    obtain ⟨d, digit, rfl⟩ := List.mem_map.mp member
    exact isIdChar_iff.mpr ⟨d, small d digit, rfl⟩

/-! ### What is read -/

theorem body?_eq_some_iff : body? cs = some id ↔ id.length = 22 ∧ (cs = id ∨ cs = id ++ ['\n']) := by
  constructor
  · intro found
    unfold body? at found
    split at found
    · rename_i exact_
      obtain rfl := Option.some.inj found
      exact ⟨exact_, .inl rfl⟩
    · split at found
      · rename_i broken
        obtain rfl := Option.some.inj found
        simp only [Bool.and_eq_true, decide_eq_true_eq] at broken
        obtain ⟨size, last⟩ := broken
        obtain ⟨init, rfl⟩ := List.getLast?_eq_some_iff.mp last
        have length : init.length = 22 := by
          rw [List.length_append] at size
          exact Nat.succ.inj size
        have taken : (init ++ ['\n']).take DeviceId.length = init := List.take_left' length
        rw [taken]
        exact ⟨length, .inr rfl⟩
      · cases found
  · rintro ⟨size, rfl | rfl⟩
    · exact if_pos size
    · simp [body?, length, size]

theorem toUuid?_eq_some_iff : toUuid? text = some u ↔
    ∃ ds : List Nat, ds.length = 22 ∧ (∀ d ∈ ds, d < 64) ∧
    (text.toList = ds.map Alphabet.urlSafe.char ∨
      text.toList = ds.map Alphabet.urlSafe.char ++ ['\n']) ∧
    Base64.octets ds = u.octets := by
  simp only [toUuid?, Option.bind_eq_bind, Option.bind_eq_some_iff, body?_eq_some_iff,
    Base64.decode?_eq_some_iff, Uuid.ofOctets?_eq_some_iff]
  constructor
  · rintro ⟨_, ⟨size, text⟩, _, ⟨ds, small, rfl, rfl⟩, same⟩
    exact ⟨ds, by simpa using size, small, text, same⟩
  · rintro ⟨ds, size, small, text, same⟩
    exact ⟨_, ⟨by simpa using size, text⟩, _, ⟨ds, small, rfl, rfl⟩, same⟩

theorem isValid_iff : isValid text = true ↔ HasLooseForm text.toList := by
  rw [isValid, Option.isSome_iff_exists]
  constructor
  · rintro ⟨u, read⟩
    obtain ⟨ds, length, small, text, -⟩ := toUuid?_eq_some_iff.mp read
    exact ⟨_, hasForm_iff.mpr ⟨ds, length, small, rfl⟩, text⟩
  · rintro ⟨id, form, text⟩
    obtain ⟨ds, length, small, rfl⟩ := hasForm_iff.mp form
    have size : (Base64.octets ds).length = 16 := by rw [Base64.length_octets, length]
    exact ⟨⟨Base64.octets ds, size⟩, toUuid?_eq_some_iff.mpr ⟨ds, length, small, text, rfl⟩⟩

theorem HasForm.unbroken (form : HasForm cs) : cs.getLast? ≠ some '\n' := by
  intro last
  have allowed := form.chars '\n' (List.mem_of_getLast? last)
  exact absurd allowed (by decide)

theorem hasForm_iff_unbroken : HasForm cs ↔ HasLooseForm cs ∧ cs.getLast? ≠ some '\n' := by
  constructor
  · intro form
    exact ⟨⟨cs, form, .inl rfl⟩, form.unbroken⟩
  · rintro ⟨⟨id, form, rfl | rfl⟩, unbroken⟩
    · exact form
    · exact absurd List.getLast?_concat unbroken

/-- A text is taken for an identifier, by its form and where its kind is to be found out, exactly when
it has the loose form, which leaves line breaks at the end as the one excess over the form. -/
theorem isValid_up_to_break (text : String) :
    (isValid text = true ↔ HasLooseForm text.toList) ∧
    (resolve .autodiscover text = .deviceId ↔ HasLooseForm text.toList) ∧
    (resolve .autodiscover text = .deviceAlias ↔ ¬HasLooseForm text.toList) ∧
    (HasForm text.toList ↔ HasLooseForm text.toList ∧ text.toList.getLast? ≠ some '\n') := by
  refine ⟨isValid_iff, ?_, ?_, hasForm_iff_unbroken⟩
  all_goals
    rw [← isValid_iff, resolve]
    cases isValid text <;> simp

/-- A line break passes, so an alias is taken for an identifier. -/
theorem break_accepted :
    isValid "f0VMRgIBAQAAAAAAAAAAAA\n" = true ∧ ¬HasForm "f0VMRgIBAQAAAAAAAAAAAA\n".toList ∧
      resolve .autodiscover "f0VMRgIBAQAAAAAAAAAAAA\n" = .deviceId :=
  ⟨by decide +kernel, fun form => absurd form.length (by decide), by decide +kernel⟩

end Telemetry.DeviceId
