import Mathlib.Data.List.Induction
import Telemetry.Proofs.Text.Hexadecimal
import Telemetry.Proofs.Text.Split
import Telemetry.Uuid

/-!
Identifiers as text. The text of an identifier has one form, two digits in lower case for each of its
octets in five groups, and is read as the identifier it was written for.
-/

namespace Telemetry.Uuid

open Text (hexDigit hexValue? isLowerHex join pieces)

variable {octets : List UInt8} {u v : Uuid}

theorem octets_injective (same : u.octets = v.octets) : u = v := by
  cases u
  cases v
  cases same
  rfl

theorem ofOctets?_eq_some_iff : ofOctets? octets = some u ↔ octets = u.octets := by
  unfold ofOctets?
  split
  · obtain ⟨_, _⟩ := u
    simp
  · rename_i other
    constructor
    · intro none
      cases none
    · intro same
      exact absurd (same ▸ u.size) other

/-! ### Octets in hexadecimal digits -/

/-- The two digits of each octet. -/
def nibbles (octets : List UInt8) : List Nat :=
  octets.flatMap fun b => [b.toNat / 16, b.toNat % 16]

theorem nibbles_lt {d : Nat} (member : d ∈ nibbles octets) : d < 16 := by
  obtain ⟨b, -, digit⟩ := List.mem_flatMap.mp member
  have := b.toNat_lt
  simp only [List.mem_cons, List.not_mem_nil, or_false] at digit
  omega

theorem hexOf_eq (octets : List UInt8) : hexOf octets = (nibbles octets).map hexDigit := by
  have pair : ∀ n, Text.hexText 2 n = [hexDigit (n / 16), hexDigit (n % 16)] := by
    intro n
    rw [Text.hexDigit_mod]
    rfl
  rw [hexOf, nibbles, List.map_flatMap]
  simp only [pair, List.map_cons, List.map_nil]

theorem length_hexOf (octets : List UInt8) : (hexOf octets).length = 2 * octets.length := by
  induction octets with
  | nil => rfl
  | cons b rest ih =>
    show (Text.hexText 2 b.toNat ++ hexOf rest).length = 2 * (rest.length + 1)
    rw [List.length_append, ih, Nat.mul_succ, Nat.add_comm]
    rfl

theorem isLowerHex_of_mem_hexOf {c : Char} (member : c ∈ hexOf octets) : isLowerHex c = true :=
  Text.isLowerHex_of_mem (hexOf_eq octets ▸ member)

theorem foldl_nibbles (octets : List UInt8) (start : Nat) :
    (nibbles octets).foldl (fun n d => n * 16 + d) start =
      octets.foldl (fun n b => n * 256 + b.toNat) start := by
  induction octets generalizing start with
  | nil => rfl
  | cons b rest ih =>
    have octet : (start * 16 + b.toNat / 16) * 16 + b.toNat % 16 = start * 256 + b.toNat := by omega
    show (nibbles rest).foldl _ ((start * 16 + b.toNat / 16) * 16 + b.toNat % 16) = _
    rw [octet, ih, List.foldl_cons]

theorem bigEndian_foldl (octets : List UInt8) :
    Digest.bigEndian octets.length (octets.foldl (fun n b => n * 256 + b.toNat) 0) = octets := by
  induction octets using List.reverseRecOn with
  | nil => rfl
  | append_singleton init b ih =>
    have := b.toNat_lt
    generalize number : init.foldl (fun n b => n * 256 + b.toNat) 0 = n at ih
    have before : (n * 256 + b.toNat) / 256 = n := by omega
    have last : (n * 256 + b.toNat) % 256 = b.toNat := by omega
    rw [List.length_append, List.foldl_append, number]
    simp only [List.length_cons, List.length_nil, List.foldl_cons, List.foldl_nil, Digest.bigEndian,
      before, last, ih, UInt8.ofNat_toNat]

/-! ### The text of an identifier -/

/-- Five groups of 8, 4, 4, 4 and 12 digits in lower case, with two digits for each octet. -/
structure IsCanonical (u : Uuid) (cs : List Char) : Prop where
  groups : (pieces '-' cs).map List.length = [8, 4, 4, 4, 12]
  lower : ∀ c ∈ cs, c = '-' ∨ isLowerHex c = true
  digits : (cs.filter (· ≠ '-')).map hexValue? = (nibbles u.octets).map some

def groups (u : Uuid) : List (List Char) :=
  [hexOf (u.octets.take 4), hexOf ((u.octets.drop 4).take 2), hexOf ((u.octets.drop 6).take 2),
    hexOf ((u.octets.drop 8).take 2), hexOf (u.octets.drop 10)]

theorem toList_text (u : Uuid) : u.text.toList = join ['-'] u.groups := by
  simp [text, groups, join]

theorem isLowerHex_of_mem_groups {u : Uuid} {group : List Char} (member : group ∈ u.groups) :
    ∀ c ∈ group, isLowerHex c = true := by
  intro c digit
  simp only [groups, List.mem_cons, List.not_mem_nil, or_false] at member
  rcases member with rfl | rfl | rfl | rfl | rfl
  all_goals exact isLowerHex_of_mem_hexOf digit

theorem hyphen_not_mem {u : Uuid} {group : List Char} (member : group ∈ u.groups) : '-' ∉ group :=
  fun hyphen => absurd (isLowerHex_of_mem_groups member '-' hyphen) (by decide)

theorem flatten_groups (u : Uuid) : u.groups.flatten = hexOf u.octets := by
  have joined : u.octets.take 4 ++ ((u.octets.drop 4).take 2 ++ ((u.octets.drop 6).take 2 ++
      ((u.octets.drop 8).take 2 ++ u.octets.drop 10))) = u.octets := by
    have next : ∀ k, (u.octets.drop k).take 2 ++ u.octets.drop (k + 2) = u.octets.drop k := by
      intro k
      rw [← List.drop_drop, List.take_append_drop]
    rw [next 8, next 6, next 4, List.take_append_drop]
  simp only [groups, List.flatten_cons, List.flatten_nil, List.append_nil, hexOf,
    ← List.flatMap_append, joined]

theorem lower_text {u : Uuid} : ∀ c ∈ u.text.toList, c = '-' ∨ isLowerHex c = true := by
  intro c member
  rw [toList_text] at member
  rcases Text.mem_join member with hyphen | ⟨group, isGroup, digit⟩
  · exact .inl hyphen
  · exact .inr (isLowerHex_of_mem_groups isGroup c digit)

theorem filter_text (u : Uuid) : u.text.toList.filter (· ≠ '-') = hexOf u.octets := by
  rw [toList_text, Text.filter_join fun _ => hyphen_not_mem, flatten_groups]

theorem isCanonical_text (u : Uuid) : u.IsCanonical u.text.toList := by
  refine ⟨?_, lower_text, ?_⟩
  · have nonempty : u.groups ≠ [] := List.cons_ne_nil _ _
    rw [toList_text, Text.pieces_join nonempty fun _ => hyphen_not_mem]
    simp [groups, length_hexOf, u.size]
  · rw [filter_text, hexOf_eq, List.map_map]
    refine List.map_congr_left fun d member => ?_
    rw [Function.comp_apply, Text.hexValue?_hexDigit, Nat.mod_eq_of_lt (nibbles_lt member)]

/-! ### Reading -/

theorem removeWord_of_not_mem {first : Char} {word cs : List Char} (absent : first ∉ cs) :
    removeWord (first :: word) cs = cs := by
  induction cs with
  | nil => rw [removeWord]
  | cons c rest ih =>
    obtain ⟨differs, later⟩ := not_or.mp (mt List.mem_cons.mpr absent)
    have none : ¬(first :: word ≠ [] ∧ (first :: word).isPrefixOf (c :: rest) = true) := by
      simp [List.isPrefixOf, differs]
    rw [removeWord, if_neg none, ih later]

theorem parse_text (u : Uuid) : parse u.text = .ok u := by
  have absent : ∀ {mark : Char}, mark ≠ '-' → isLowerHex mark = false → mark ∉ u.text.toList := by
    intro mark notHyphen notDigit member
    rcases lower_text mark member with hyphen | digit
    · exact notHyphen hyphen
    · exact absurd digit (by simp [notDigit])
  have unmarked : removeWord "uuid:".toList (removeWord "urn:".toList u.text.toList) =
      u.text.toList := by
    have noMark : 'u' ∉ u.text.toList := absent (by decide) rfl
    rw [show "urn:".toList = 'u' :: ['r', 'n', ':'] from rfl, removeWord_of_not_mem noMark]
    exact removeWord_of_not_mem noMark
  have bare : Text.trimWith (fun c => c = '\x7b' || c = '\x7d') u.text.toList = u.text.toList := by
    apply Text.trimWith_eq_self
    intro c member
    have opening : c ≠ '\x7b' := fun same => absent (by decide) rfl (same ▸ member)
    have closing : c ≠ '\x7d' := fun same => absent (by decide) rfl (same ▸ member)
    simp [opening, closing]
  have length : (hexOf u.octets).length = 32 := by rw [length_hexOf, u.size]
  have nonempty : nibbles u.octets ≠ [] := by
    intro none
    rw [hexOf_eq, none] at length
    cases length
  have number := Text.readInteger_map_hexDigit nonempty fun _ => nibbles_lt
  rw [← hexOf_eq, foldl_nibbles] at number
  have octets : ofNat (u.octets.foldl (fun n b => n * 256 + b.toNat) 0) = u := by
    obtain ⟨octets, size⟩ := u
    have back := bigEndian_foldl octets
    rw [size] at back
    simp only [ofNat, back]
  have natural (n : Nat) : ¬(n : Int) < 0 := by omega
  simp only [parse, unmarked, bare, filter_text, length, number, natural, octets, ne_eq,
    not_true_eq_false, if_false, Int.toNat_natCast]

end Telemetry.Uuid
