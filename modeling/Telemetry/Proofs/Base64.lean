import Mathlib.Data.List.GetD
import Telemetry.Base64

/-!
Base64 that is written and read. Octets come back from their digits, with and without padding. Digits
come back from their octets up to the bits that fill no octet, so texts that differ in those bits alone
stand for the same octets.
-/

namespace Telemetry.Base64

variable {alphabet : Alphabet} {c : Char} {d x y : Nat} {ds es : List Nat} {cs : List Char}
  {data : List UInt8}

/-! ### Digits and octets -/

theorem octets_digits (data : List UInt8) : octets (digits data) = data := by
  have same : ∀ {n : Nat} {b : UInt8}, n = b.toNat → UInt8.ofNat n = b := by
    rintro n b rfl
    exact UInt8.ofNat_toNat
  fun_induction digits data with
  | case1 => rfl
  | case2 a =>
    have := a.toNat_lt
    rw [octets, same (b := a) (by omega)]
  | case3 a b =>
    have := a.toNat_lt
    have := b.toNat_lt
    rw [octets, same (b := a) (by omega), same (b := b) (by omega)]
  | case4 a b c rest ih =>
    have := a.toNat_lt
    have := b.toNat_lt
    have := c.toNat_lt
    rw [octets, ih, same (b := a) (by omega), same (b := b) (by omega), same (b := c) (by omega)]

theorem length_digits (data : List UInt8) : (digits data).length = (data.length * 8 + 5) / 6 := by
  fun_induction digits data with
  | case1 | case2 | case3 => simp
  | case4 a b c rest ih =>
    simp only [List.length_cons, ih]
    omega

theorem length_octets (ds : List Nat) : (octets ds).length = ds.length * 6 / 8 := by
  fun_induction octets ds with
  | case1 w x y z rest ih =>
    simp only [List.length_cons, ih]
    omega
  | case2 | case3 => simp
  | case4 ds more three two =>
    match ds with
    | [] | [_] => simp
    | [w, x] => exact absurd rfl (two w x)
    | [w, x, y] => exact absurd rfl (three w x y)
    | w :: x :: y :: z :: rest => exact absurd rfl (more w x y z rest)

theorem digits_lt (member : d ∈ digits data) : d < 64 := by
  fun_induction digits data with
  | case1 => cases member
  | case2 a =>
    have := a.toNat_lt
    simp only [List.mem_cons, List.not_mem_nil, or_false] at member
    omega
  | case3 a b =>
    have := a.toNat_lt
    have := b.toNat_lt
    simp only [List.mem_cons, List.not_mem_nil, or_false] at member
    omega
  | case4 a b c rest ih =>
    have := a.toNat_lt
    have := b.toNat_lt
    have := c.toNat_lt
    simp only [List.mem_cons] at member
    rcases member with first | second | third | fourth | later
    · omega
    · omega
    · omega
    · omega
    · exact ih later

/-- A last digit that begins an octet more than the digits before it keeps its two highest bits. -/
theorem digits_octets_concat : ∀ {ds : List Nat}, ds.length % 4 = 1 → (∀ d ∈ ds, d < 64) →
    x < 64 → digits (octets (ds ++ [x])) = ds ++ [x / 16 * 16]
  | [w], _, small, last => by
    have first : w < 64 := small w List.mem_cons_self
    simp only [List.cons_append, List.nil_append, octets, digits, UInt8.toNat_ofNat',
      List.cons.injEq, and_true]
    omega
  | w :: x' :: y :: z :: rest, length, small, last => by
    have inner : rest.length % 4 = 1 := by
      simp only [List.length_cons] at length
      omega
    simp only [List.forall_mem_cons] at small
    obtain ⟨hw, hx, hy, hz, others⟩ := small
    have tail := digits_octets_concat inner others last
    simp only [List.cons_append, octets, digits, tail, UInt8.toNat_ofNat', List.cons.injEq, and_true]
    omega
  | [], length, _, _ | [_, _], length, _, _ | [_, _, _], length, _, _ => by simp at length

theorem octets_concat_eq_iff (hds : ds.length % 4 = 1) (hes : es.length % 4 = 1)
    (ds_lt : ∀ d ∈ ds, d < 64) (es_lt : ∀ d ∈ es, d < 64) (hx : x < 64) (hy : y < 64) :
    octets (ds ++ [x]) = octets (es ++ [y]) ↔ ds = es ∧ x / 16 = y / 16 := by
  have dsDigits := digits_octets_concat hds ds_lt hx
  have esDigits := digits_octets_concat hes es_lt hy
  constructor
  · intro same
    rw [same, esDigits] at dsDigits
    obtain ⟨rfl, last⟩ := List.append_inj' dsDigits rfl
    simp only [List.cons.injEq, and_true] at last
    exact ⟨rfl, by omega⟩
  · rintro ⟨rfl, top⟩
    rw [← octets_digits (octets (ds ++ [x])), dsDigits, top, ← esDigits, octets_digits]

/-! ### Alphabets -/

theorem length_chars : alphabet.chars.length = 64 := by
  cases alphabet <;> rfl

theorem char_eq_getElem (inside : d < alphabet.chars.length) : alphabet.char d = alphabet.chars[d] :=
  List.getD_eq_getElem _ _ inside

theorem char_mem (small : d < 64) : alphabet.char d ∈ alphabet.chars := by
  have inside : d < alphabet.chars.length := length_chars ▸ small
  rw [char_eq_getElem inside]
  exact List.getElem_mem inside

theorem digit?_char (small : d < 64) : alphabet.digit? (alphabet.char d) = some d := by
  have all : ∀ d < 64, alphabet.digit? (alphabet.char d) = some d := by
    cases alphabet <;> decide +kernel
  exact all d small

theorem digit?_eq_some_iff : alphabet.digit? c = some d ↔ d < 64 ∧ alphabet.char d = c := by
  constructor
  · intro found
    obtain ⟨inside, same, -⟩ := List.idxOf?_eq_some_iff.mp found
    refine ⟨length_chars ▸ inside, ?_⟩
    rw [char_eq_getElem inside, same]
  · rintro ⟨small, rfl⟩
    exact digit?_char small

theorem mapM_digit?_eq_some_iff :
    cs.mapM alphabet.digit? = some ds ↔ (∀ d ∈ ds, d < 64) ∧ ds.map alphabet.char = cs := by
  induction cs generalizing ds with
  | nil =>
    simp only [List.mapM_nil, Option.pure_def, Option.some.injEq, List.map_eq_nil_iff]
    constructor
    · rintro rfl
      exact ⟨nofun, rfl⟩
    · rintro ⟨-, rfl⟩
      rfl
  | cons c rest ih =>
    simp only [List.mapM_cons, Option.bind_eq_bind, Option.bind_eq_some_iff, Option.pure_def,
      Option.some.injEq, digit?_eq_some_iff, ih]
    constructor
    · rintro ⟨d, ⟨small, rfl⟩, others, ⟨all, rfl⟩, rfl⟩
      exact ⟨List.forall_mem_cons.mpr ⟨small, all⟩, rfl⟩
    · rintro ⟨all, whole⟩
      obtain ⟨d, others, rfl, same, later⟩ := List.map_eq_cons_iff.mp whole
      obtain ⟨small, rest_lt⟩ := List.forall_mem_cons.mp all
      exact ⟨d, ⟨small, same⟩, others, ⟨rest_lt, later⟩, rfl⟩

theorem decode?_map_char (small : ∀ d ∈ ds, d < 64) :
    decode? alphabet (ds.map alphabet.char) = some (octets ds) := by
  rw [decode?, mapM_digit?_eq_some_iff.mpr ⟨small, rfl⟩]
  rfl

theorem decode?_eq_some_iff : decode? alphabet cs = some data ↔
    ∃ ds, (∀ d ∈ ds, d < 64) ∧ ds.map alphabet.char = cs ∧ octets ds = data := by
  simp only [decode?, Option.map_eq_map, Option.map_eq_some_iff, mapM_digit?_eq_some_iff, and_assoc]

theorem decode?_encode (alphabet : Alphabet) (data : List UInt8) :
    decode? alphabet (encode alphabet data) = some data := by
  rw [encode, decode?_map_char fun _ => digits_lt, octets_digits]

/-! ### Padding -/

theorem mem_chars_of_mem_encode (member : c ∈ encode alphabet data) : c ∈ alphabet.chars := by
  obtain ⟨d, digit, rfl⟩ := List.mem_map.mp member
  exact char_mem (digits_lt digit)

theorem decodePadded?_encodePadded (data : List UInt8) :
    decodePadded? (encodePadded data) = some data := by
  have body : (encodePadded data).takeWhile (· ≠ '=') = encode .standard data := by
    have plain : ∀ c ∈ encode .standard data, (c ≠ '=' : Bool) = true := by
      intro c member
      have all : ∀ c ∈ Alphabet.standard.chars, (c ≠ '=' : Bool) = true :=
        List.all_eq_true.mp (by decide)
      exact all c (mem_chars_of_mem_encode member)
    have padding : (List.replicate (paddingSize data.length) '=').takeWhile (· ≠ '=') = [] := by
      cases paddingSize data.length <;> rfl
    rw [encodePadded, List.takeWhile_append_of_pos plain, padding, List.append_nil]
  simp only [decodePadded?, body, decode?_encode, Option.bind_eq_bind, Option.bind_some]
  exact if_pos rfl

theorem ascii_encodePadded (member : c ∈ encodePadded data) : c.toNat < 128 := by
  rcases List.mem_append.mp member with digit | padding
  · have all : Alphabet.standard.chars.all (·.toNat < 128) = true := by decide
    exact of_decide_eq_true (List.all_eq_true.mp all c (mem_chars_of_mem_encode digit))
  · obtain rfl := List.eq_of_mem_replicate padding
    decide

end Telemetry.Base64
