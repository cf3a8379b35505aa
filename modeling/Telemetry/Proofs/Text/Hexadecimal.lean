import Mathlib.Data.List.TakeWhile
import Telemetry.Proofs.Text.Digits
import Telemetry.Text.Integer

/-!
Hexadecimal digits that are written and read. A number is read from its digits in lower case, which
hold nothing else that reading takes notice of.
-/

namespace Telemetry.Text

variable {ds : List Nat} {cs : List Char} {base d : Nat}

/-! ### Digits -/

def isLowerHex (c : Char) : Bool :=
  ('0' ≤ c && c ≤ '9') || ('a' ≤ c && c ≤ 'f')

theorem hexDigit_mod (n : Nat) : hexDigit (n % 16) = hexDigit n := by
  rw [hexDigit, hexDigit, Nat.mod_mod]

theorem isLowerHex_hexDigit (n : Nat) : isLowerHex (hexDigit n) = true := by
  have all : ∀ d < 16, isLowerHex (hexDigit d) = true := by decide
  rw [← hexDigit_mod]
  exact all (n % 16) (Nat.mod_lt n (by decide))

theorem hexValue?_hexDigit (n : Nat) : hexValue? (hexDigit n) = some (n % 16) := by
  have all : ∀ d < 16, hexValue? (hexDigit d) = some d := by decide
  rw [← hexDigit_mod]
  exact all (n % 16) (Nat.mod_lt n (by decide))

theorem digitIn?_hexDigit (small : d < 16) : digitIn? 16 (hexDigit d) = some d := by
  have all : ∀ d < 16, digitIn? 16 (hexDigit d) = some d := by decide +kernel
  exact all d small

theorem isLowerHex_of_mem {c : Char} (member : c ∈ ds.map hexDigit) : isLowerHex c = true := by
  obtain ⟨d, -, rfl⟩ := List.mem_map.mp member
  exact isLowerHex_hexDigit d

theorem ne_of_isLowerHex {c mark : Char} (digit : isLowerHex c = true)
    (other : isLowerHex mark = false) : c ≠ mark := by
  rintro rfl
  rw [other] at digit
  cases digit

theorem isWhite_of_isLowerHex {c : Char} (digit : isLowerHex c = true) : isWhite c = false := by
  simp only [isLowerHex, Bool.or_eq_true, Bool.and_eq_true, decide_eq_true_eq] at digit
  have range : (48 ≤ c.toNat ∧ c.toNat ≤ 57) ∨ (97 ≤ c.toNat ∧ c.toNat ≤ 102) := digit
  have blank : isBlank c = false := by
    simp only [isBlank, Bool.or_eq_false_iff, Bool.and_eq_false_iff, decide_eq_false_iff_not,
      beq_eq_false_iff_ne]
    omega
  rw [isWhite, blank, Bool.false_and]

/-! ### Numbers -/

theorem readSign_of_unsigned (plain : ∀ c ∈ cs, c ≠ '-' ∧ c ≠ '+') : readSign cs = (false, cs) := by
  unfold readSign
  split
  · exact absurd rfl (plain '-' List.mem_cons_self).1
  · exact absurd rfl (plain '+' List.mem_cons_self).2
  · rfl

theorem dropBaseMark_of_unmarked (plain : ∀ c ∈ cs, c ≠ 'x' ∧ c ≠ 'X') :
    dropBaseMark base cs = cs := by
  have second : ∀ {c x : Char} {rest : List Char}, cs = c :: x :: rest →
      ¬(x = 'x' || x = 'X') = true := by
    rintro c x rest rfl
    simpa using plain x (by simp)
  unfold dropBaseMark
  split
  · rfl
  · split
    · exact if_neg (second rfl)
    · exact if_neg (second rfl)
    · rfl

theorem readDigits?_of_plain (nonempty : cs ≠ []) (plain : '_' ∉ cs) :
    readDigits? base cs = cs.mapM (digitIn? base) := by
  fun_induction readDigits? base cs with
  | case1 => exact absurd rfl nonempty
  | case2 c =>
    rw [List.mapM_cons, List.mapM_nil]
    cases digitIn? base c <;> rfl
  | case3 c rest ih => simp at plain
  | case4 c rest single marked ih =>
    have later : rest ≠ [] := fun none => single (none ▸ rfl)
    rw [ih later fun member => plain (List.mem_cons_of_mem _ member), List.mapM_cons]

theorem mapM_digitIn? (small : ∀ d ∈ ds, d < 16) :
    (ds.map hexDigit).mapM (digitIn? 16) = some ds := by
  induction ds with
  | nil => rfl
  | cons d rest ih =>
    obtain ⟨first, others⟩ := List.forall_mem_cons.mp small
    rw [List.map_cons, List.mapM_cons, digitIn?_hexDigit first, ih others]
    rfl

/-- A number is read from its digits. -/
theorem readInteger_map_hexDigit (nonempty : ds ≠ []) (small : ∀ d ∈ ds, d < 16) :
    readInteger 16 (ds.map hexDigit) =
      .ok ((ds.foldl (fun n d => n * 16 + d) 0 : Nat) : Int) := by
  have other : ∀ {mark : Char}, isLowerHex mark = false → ∀ c ∈ ds.map hexDigit, c ≠ mark :=
    fun isOther c member => ne_of_isLowerHex (isLowerHex_of_mem member) isOther
  have trimmed : trimWith isWhite (ds.map hexDigit) = ds.map hexDigit :=
    trimWith_eq_self fun c member => isWhite_of_isLowerHex (isLowerHex_of_mem member)
  have unsigned : readSign (ds.map hexDigit) = (false, ds.map hexDigit) :=
    readSign_of_unsigned fun c member => ⟨other rfl c member, other rfl c member⟩
  have unmarked : dropBaseMark 16 (ds.map hexDigit) = ds.map hexDigit :=
    dropBaseMark_of_unmarked fun c member => ⟨other rfl c member, other rfl c member⟩
  have belong : ∀ c ∈ ds.map hexDigit, (c = '_' || (digitIn? 16 c).isSome) = true := by
    intro c member
    obtain ⟨d, digit, rfl⟩ := List.mem_map.mp member
    rw [digitIn?_hexDigit (small d digit), Option.isSome_some, Bool.or_true]
  have taken := List.takeWhile_eq_self_iff.mpr belong
  have dropped := List.dropWhile_eq_nil_iff.mpr belong
  have plain : '_' ∉ ds.map hexDigit := fun member => other rfl '_' member rfl
  have read : readDigits? 16 (ds.map hexDigit) = some ds := by
    rw [readDigits?_of_plain (by simpa using nonempty) plain, mapM_digitIn? small]
  have unlimited : isLimited 16 = false := rfl
  simp only [readInteger, trimmed, unsigned, unmarked, taken, dropped, read, unlimited,
    Bool.false_and, Bool.false_eq_true, if_false, ne_eq, not_true_eq_false]

end Telemetry.Text
