import Mathlib.Data.List.Basic
import Telemetry.Proofs.DeviceId.Form

/-!
Identifiers and UUIDs turned into each other. A UUID comes back from its identifier. An identifier comes
back from its UUID up to the four bits of its last digit that stand for nothing, so sixteen texts have the
UUID in common and one of them is written.
-/

namespace Telemetry.DeviceId

open Base64 (Alphabet octets)

variable {text given : String} {u v : Uuid}

/-! ### Digits of identifiers -/

/-- The text has these digits, with the last one apart. -/
structure HasDigits (text : String) (ds : List Nat) (x : Nat) : Prop where
  length : ds.length = 21
  small : ∀ d ∈ ds, d < 64
  last : x < 64
  text : text.toList = ds.map Alphabet.urlSafe.char ++ [Alphabet.urlSafe.char x]

theorem HasForm.exists_digits (form : HasForm text.toList) : ∃ ds x, HasDigits text ds x := by
  obtain ⟨all, length, small, same⟩ := hasForm_iff.mp form
  obtain rfl | ⟨ds, x, rfl⟩ := List.eq_nil_or_concat' all
  · cases length
  · simp only [List.forall_mem_append, List.forall_mem_singleton] at small
    rw [List.length_append] at length
    exact ⟨ds, x, Nat.succ.inj length, small.1, small.2, by simp [← same]⟩

theorem char_injective {x y : Nat} (hx : x < 64) (hy : y < 64)
    (same : Alphabet.urlSafe.char x = Alphabet.urlSafe.char y) : x = y := by
  have read : Alphabet.urlSafe.digit? (Alphabet.urlSafe.char y) = some x := same ▸ Base64.digit?_char hx
  exact Option.some.inj (read.symm.trans (Base64.digit?_char hy))

/-- The last characters of identifiers as they are written: no bits of theirs stand for nothing. -/
def finals : List Char := ['A', 'Q', 'g', 'w']

theorem char_mem_finals_iff {x : Nat} (small : x < 64) :
    Alphabet.urlSafe.char x ∈ finals ↔ x / 16 * 16 = x := by
  have all : ∀ x < 64, Alphabet.urlSafe.char x ∈ finals ↔ x / 16 * 16 = x := by decide +kernel
  exact all x small

variable {ds es : List Nat} {x y : Nat}

theorem HasDigits.take (digits : HasDigits text ds x) :
    text.toList.take 21 = ds.map Alphabet.urlSafe.char := by
  rw [digits.text]
  exact List.take_left' (by rw [List.length_map, digits.length])

theorem HasDigits.getLast? (digits : HasDigits text ds x) :
    text.toList.getLast? = some (Alphabet.urlSafe.char x) := by
  rw [digits.text, List.getLast?_concat]

theorem take_eq_iff (first : HasDigits text ds x) (second : HasDigits given es y) :
    text.toList.take 21 = given.toList.take 21 ↔ ds = es := by
  rw [first.take, second.take]
  constructor
  · intro same
    have read := Base64.mapM_digit?_eq_some_iff.mpr ⟨first.small, same⟩
    exact Option.some.inj (read.symm.trans (Base64.mapM_digit?_eq_some_iff.mpr ⟨second.small, rfl⟩))
  · rintro rfl
    rfl

/-- The value of the last digit without the four bits that stand for nothing. -/
def topBits (text : String) : Option Nat :=
  (text.toList.getLast?.bind Alphabet.urlSafe.digit?).map (· / 16)

theorem HasDigits.topBits (digits : HasDigits text ds x) : topBits text = some (x / 16) := by
  rw [DeviceId.topBits, digits.getLast?, Option.bind_some, Base64.digit?_char digits.last]
  rfl

/-! ### Conversions -/

theorem hasForm_ofUuid (u : Uuid) : HasForm (ofUuid u).toList := by
  refine hasForm_iff.mpr ⟨Base64.digits u.octets, ?_, fun _ => Base64.digits_lt, ?_⟩
  · rw [Base64.length_digits, u.size]
  · rw [ofUuid, String.toList_ofList, Base64.encode]

theorem toUuid?_ofUuid (u : Uuid) : toUuid? (ofUuid u) = some u := by
  refine toUuid?_eq_some_iff.mpr ⟨Base64.digits u.octets, ?_, fun _ => Base64.digits_lt, .inl ?_,
    Base64.octets_digits u.octets⟩
  · rw [Base64.length_digits, u.size]
  · rw [ofUuid, String.toList_ofList, Base64.encode]

theorem uuidText_of_toUuid? (read : toUuid? text = some u) : uuidText (.str text) = .ok u.text := by
  simp only [uuidText, toUuid, read]
  rfl

theorem ofUuidText_text (u : Uuid) : ofUuidText u.text = .ok (ofUuid u) := by
  rw [ofUuidText, Uuid.parse_text]
  rfl

/-- An identifier stands for the octets of its digits. -/
theorem HasDigits.exists_uuid (digits : HasDigits text ds x) :
    ∃ u, toUuid? text = some u ∧ u.octets = octets (ds ++ [x]) := by
  have length : (ds ++ [x]).length = 22 := by
    rw [List.length_append, digits.length]
    rfl
  have size : (octets (ds ++ [x])).length = 16 := by rw [Base64.length_octets, length]
  refine ⟨⟨octets (ds ++ [x]), size⟩, toUuid?_eq_some_iff.mpr ⟨ds ++ [x], length, ?_, .inl ?_, rfl⟩, rfl⟩
  · simp only [List.forall_mem_append, List.forall_mem_singleton]
    exact ⟨digits.small, digits.last⟩
  · rw [digits.text, List.map_append]
    rfl

/-- What is written for these octets has the digits but for the last four bits. -/
theorem HasDigits.ofUuid (digits : HasDigits text ds x) (same : u.octets = octets (ds ++ [x])) :
    HasDigits (ofUuid u) ds (x / 16 * 16) := by
  have last := digits.last
  refine ⟨digits.length, digits.small, by omega, ?_⟩
  have length : ds.length % 4 = 1 := by rw [digits.length]
  rw [DeviceId.ofUuid, String.toList_ofList, Base64.encode, same,
    Base64.digits_octets_concat length digits.small last, List.map_append]
  rfl

theorem HasDigits.eq_iff (first : HasDigits text ds x) (second : HasDigits given ds y) :
    text = given ↔ x = y := by
  rw [← String.toList_inj, first.text, second.text]
  constructor
  · intro same
    obtain ⟨-, last⟩ := List.append_inj' same rfl
    exact char_injective first.last second.last (List.cons.inj last).1
  · rintro rfl
    rfl

theorem uuidText_eq_iff (first : toUuid? text = some u) (second : toUuid? given = some v) :
    uuidText (.str text) = uuidText (.str given) ↔ u.octets = v.octets := by
  rw [uuidText_of_toUuid? first, uuidText_of_toUuid? second, Except.ok.injEq]
  constructor
  · intro same
    have parsed : Uuid.parse u.text = Uuid.parse v.text := congrArg Uuid.parse same
    rw [Uuid.parse_text, Uuid.parse_text] at parsed
    rw [Except.ok.inj parsed]
  · intro same
    rw [Uuid.octets_injective same]

/-- Conversions lose nothing from a UUID on. From an identifier on they lose the last four bits of its
last digit and nothing else. -/
theorem conversions_agree :
    (∀ u : Uuid, HasForm (ofUuid u).toList ∧ isValid (ofUuid u) = true ∧
      uuidText (.str (ofUuid u)) = .ok u.text ∧ u.IsCanonical u.text.toList) ∧
    (∀ d : String, HasForm d.toList → ∃ text e, uuidText (.str d) = .ok text ∧
      ofUuidText text = .ok e ∧ HasForm e.toList ∧ e.toList.take 21 = d.toList.take 21 ∧
      (e = d ↔ ∃ c ∈ finals, d.toList.getLast? = some c)) ∧
    ∀ d e : String, HasForm d.toList → HasForm e.toList →
      (uuidText (.str d) = uuidText (.str e) ↔
        d.toList.take 21 = e.toList.take 21 ∧ topBits d = topBits e) := by
  refine ⟨fun u => ?_, fun d form => ?_, fun d e dForm eForm => ?_⟩
  · have valid : isValid (ofUuid u) = true := by
      rw [isValid, toUuid?_ofUuid]
      rfl
    exact ⟨hasForm_ofUuid u, valid, uuidText_of_toUuid? (toUuid?_ofUuid u), u.isCanonical_text⟩
  · obtain ⟨ds, x, digits⟩ := form.exists_digits
    obtain ⟨u, read, same⟩ := digits.exists_uuid
    have written := digits.ofUuid same
    refine ⟨u.text, ofUuid u, uuidText_of_toUuid? read, ofUuidText_text u, hasForm_ofUuid u,
      (take_eq_iff written digits).mpr rfl, ?_⟩
    rw [written.eq_iff digits, ← char_mem_finals_iff digits.last, digits.getLast?]
    simp
  · obtain ⟨ds, x, first⟩ := dForm.exists_digits
    obtain ⟨es, y, second⟩ := eForm.exists_digits
    obtain ⟨u, readFirst, uOctets⟩ := first.exists_uuid
    obtain ⟨v, readSecond, vOctets⟩ := second.exists_uuid
    have dsLength : ds.length % 4 = 1 := by rw [first.length]
    have esLength : es.length % 4 = 1 := by rw [second.length]
    rw [uuidText_eq_iff readFirst readSecond, uOctets, vOctets,
      Base64.octets_concat_eq_iff dsLength esLength first.small second.small first.last second.last,
      take_eq_iff first second, first.topBits, second.topBits, Option.some.injEq]

/-- Two texts for one UUID, of which the first is written. -/
theorem conversions_agree_of_aliases :
    HasForm "f0VMRgIBAQAAAAAAAAAAAA".toList ∧ HasForm "f0VMRgIBAQAAAAAAAAAAAP".toList ∧
      uuidText (.str "f0VMRgIBAQAAAAAAAAAAAA") = uuidText (.str "f0VMRgIBAQAAAAAAAAAAAP") ∧
      ∃ text, uuidText (.str "f0VMRgIBAQAAAAAAAAAAAP") = .ok text ∧
        ∃ e, ofUuidText text = .ok e ∧ e ≠ "f0VMRgIBAQAAAAAAAAAAAP" := by
  have first : HasForm "f0VMRgIBAQAAAAAAAAAAAA".toList := ⟨rfl, List.all_eq_true.mp (by decide)⟩
  have second : HasForm "f0VMRgIBAQAAAAAAAAAAAP".toList := ⟨rfl, List.all_eq_true.mp (by decide)⟩
  obtain ⟨-, back, shared⟩ := conversions_agree
  obtain ⟨text, e, read, written, -, -, exact_⟩ := back _ second
  refine ⟨first, second, (shared _ _ first second).mpr ⟨by decide, by decide⟩, text, read, e, written, ?_⟩
  intro same
  obtain ⟨c, final, last⟩ := exact_.mp same
  obtain rfl := Option.some.inj last
  exact absurd final (by decide)

end Telemetry.DeviceId
