import Telemetry.Proofs.Json.Numeral
import Telemetry.Proofs.Value.Depth
import Telemetry.Proofs.Value.Fields

/-!
What documents hold. Whatever is read from a text or from octets has no kind that a document lacks,
no integer of more digits than are converted, one form of not-a-number, and no name that is repeated
in an object.
-/

namespace Telemetry.Json

open Decimal (natText)
open Text (isAsciiDigit)

mutual
def isContent : Value → Bool
  | .null | .bool _ | .str _ => true
  | .int n => (natText n.natAbs).length ≤ integerDigitLimit
  | .float x => !x.isNaN || x = .nan
  | .list items => areContent items
  | .object fields => decide (FieldList.names fields).Nodup && fieldsAreContent fields
  | _ => false
def areContent : List Value → Bool
  | [] => true
  | item :: rest => isContent item && areContent rest
def fieldsAreContent : List (String × Value) → Bool
  | [] => true
  | (_, item) :: rest => isContent item && fieldsAreContent rest
end

theorem fieldsAreContent_iff {fields : List (String × Value)} :
    fieldsAreContent fields = true ↔ ∀ field ∈ fields, isContent field.2 = true := by
  induction fields with
  | nil => simp [fieldsAreContent]
  | cons field rest ih => simp [fieldsAreContent, ih]

/-- What a document can hold, with no more than so many levels. -/
structure Fits (levels : Nat) (v : Value) : Prop where
  content : isContent v = true
  shallow : v.depth ≤ levels

variable {levels : Nat}

theorem Fits.mono {v : Value} {more : Nat} (fits : Fits levels v) (le : levels ≤ more) : Fits more v :=
  ⟨fits.content, fits.shallow.trans le⟩

theorem Fits.leaf {v : Value} (single : v.depth = 1) (content : isContent v = true) :
    Fits (levels + 1) v := by
  refine ⟨content, ?_⟩
  omega

theorem mem_of_mem_insert {fields : FieldList Value} {name : String} {item : Value}
    {field : String × Value} (member : field ∈ fields.insert name item) :
    field ∈ fields ∨ field.2 = item := by
  induction fields with
  | nil =>
    obtain rfl := List.mem_singleton.mp member
    exact .inr rfl
  | cons first rest ih =>
    rw [FieldList.insert] at member
    split at member
    · rcases List.mem_cons.mp member with rfl | later
      · exact .inr rfl
      · exact .inl (List.mem_cons_of_mem _ later)
    · rcases List.mem_cons.mp member with rfl | later
      · exact .inl List.mem_cons_self
      · exact (ih later).imp_left (List.mem_cons_of_mem _)

theorem fieldsAreContent_merge {fields update : FieldList Value}
    (first : fieldsAreContent fields = true) (later : fieldsAreContent update = true) :
    fieldsAreContent (fields.merge update) = true := by
  induction update generalizing fields with
  | nil => exact first
  | cons field rest ih =>
    obtain ⟨item, others⟩ := Bool.and_eq_true_iff.mp later
    refine ih (fieldsAreContent_iff.mpr fun other member => ?_) others
    rcases mem_of_mem_insert member with old | new
    · exact fieldsAreContent_iff.mp first other old
    · rw [new]
      exact item

theorem isContent_object {members : List (String × Value)} (each : fieldsAreContent members = true) :
    isContent (.object (FieldList.ofList members)) = true := by
  rw [isContent, decide_eq_true FieldList.nodup_names_ofList, Bool.true_and]
  exact fieldsAreContent_merge rfl each

/-! ### Numbers -/

theorem isContent_numeral {n : Numeral} {v : Value} (nonempty : n.whole ≠ [])
    (ascii : ∀ c ∈ n.whole, isAsciiDigit c = true) (value : n.value = .ok v) : isContent v = true := by
  rw [Numeral.value] at value
  split at value
  · split at value
    · cases value
    · rename_i short
      cases value
      have digits : ∀ negative : Bool,
          (if negative then -(digitsValue n.whole : Int) else digitsValue n.whole).natAbs =
            digitsValue n.whole := by
        intro negative
        cases negative <;> simp
      rw [isContent, digits]
      exact decide_eq_true ((Decimal.length_natText_ofDigitChars nonempty ascii).trans (by omega))
  · cases value
    rw [isContent, Binary64.isNaN_ofDecimal]
    rfl

theorem isContent_readScalar {cs rest : List Char} {v : Value}
    (read : readScalar cs = .ok (v, rest)) : isContent v = true := by
  unfold readScalar at read
  split at read
  · rename_i found isWord
    cases read
    obtain ⟨word, member, dropped⟩ := List.exists_of_findSome?_eq_some isWord
    obtain ⟨_, -, same⟩ := Option.map_eq_some_iff.mp dropped
    obtain rfl : word.2 = v := congrArg Prod.fst same
    have all : ∀ word ∈ words, isContent word.2 = true := by decide
    exact all word member
  · split at read
    · rename_i numeral others isNumeral
      cases value : numeral.value with
      | error s =>
        rw [value] at read
        cases read
      | ok given =>
        rw [value] at read
        cases read
        obtain ⟨nonempty, ascii⟩ := whole_of_readNumeral? isNumeral
        exact isContent_numeral nonempty ascii value
    · cases read

/-! ### Values -/

theorem Step.map_eq_ok {α β : Type} {f : α → β} {step : Step α} {b : β} {rest : List Char}
    (mapped : step.map f = .ok (b, rest)) : ∃ a, step = .ok (a, rest) ∧ f a = b := by
  cases step with
  | error s => cases mapped
  | ok found =>
    obtain ⟨a, others⟩ := found
    cases mapped
    exact ⟨a, rfl, rfl⟩

/-- What the readers of values, of items and of members give with so much fuel. -/
theorem isContent_read (halves : Halves) (fuel : Nat) :
    (∀ room cs tree rest, readValue halves fuel room cs = .ok (tree, rest) →
      isContent tree.shown = true) ∧
    (∀ room cs items rest, readItems halves fuel room cs = .ok (items, rest) →
      areContent (Tree.itemsShown items) = true) ∧
    ∀ room cs members rest, readMembers halves fuel room cs = .ok (members, rest) →
      fieldsAreContent (Tree.membersShown members) = true := by
  induction fuel with
  | zero =>
    refine ⟨fun room cs tree rest read => ?_, fun room cs items rest read => ?_,
      fun room cs members rest read => ?_⟩ <;> cases read
  | succ fuel ih =>
    obtain ⟨values, items, members⟩ := ih
    refine ⟨fun room cs tree rest read => ?_, fun room cs found rest read => ?_,
      fun room cs found rest read => ?_⟩
    · unfold readValue at read
      split at read
      · obtain ⟨letters, -, rfl⟩ := Step.map_eq_ok read
        rfl
      · split at read
        · cases read
        · split at read
          · cases read
            rfl
          · obtain ⟨found, inner, rfl⟩ := Step.map_eq_ok read
            exact items _ _ found rest inner
      · split at read
        · cases read
        · split at read
          · cases read
            rfl
          · obtain ⟨found, inner, rfl⟩ := Step.map_eq_ok read
            exact isContent_object (members _ _ found rest inner)
      · obtain ⟨v, scalar, rfl⟩ := Step.map_eq_ok read
        exact isContent_readScalar scalar
    · unfold readItems at read
      split at read
      · cases read
      · rename_i item others first
        have here := values room _ item others first
        split at read
        · cases read
          rw [Tree.itemsShown, areContent, here]
          rfl
        · obtain ⟨later, inner, rfl⟩ := Step.map_eq_ok read
          rw [Tree.itemsShown, areContent, here, Bool.true_and]
          exact items _ _ later rest inner
        · cases read
    · unfold readMembers at read
      split at read
      · cases read
      · split at read
        · cases read
        · rename_i name _ _ item others first
          have here := values room _ item others first
          split at read
          · cases read
            rw [Tree.membersShown, fieldsAreContent, here]
            rfl
          · obtain ⟨later, inner, rfl⟩ := Step.map_eq_ok read
            rw [Tree.membersShown, fieldsAreContent, here, Bool.true_and]
            exact members _ _ later rest inner
          · cases read

theorem isContent_readLetters {letters : Text.Letters} {tree : Tree}
    (read : readLetters letters = .ok tree) : isContent tree.shown = true := by
  unfold readLetters at read
  dsimp only at read
  split at read
  · cases read
  · rename_i found rest first
    split at read
    · cases read
      exact (isContent_read _ _).1 _ _ tree rest first
    · cases read

theorem Document.read_eq_ok_iff {document : Document} {v : Value} :
    document.read = .ok v ↔ ∃ tree, document.tree = .ok tree ∧ tree.shown = v := by
  rw [Document.read]
  cases document.tree <;> simp [Except.map]

/-- Whatever a document that is not taken apart yet is read as. -/
theorem isContent_of_read {document : Document} {v : Value} (raw : ∀ given, document ≠ .value given)
    (read : document.read = .ok v) : isContent v = true := by
  obtain ⟨tree, taken, rfl⟩ := Document.read_eq_ok_iff.mp read
  cases document with
  | text letters =>
    rw [Document.tree] at taken
    split at taken
    · cases taken
    · exact isContent_readLetters taken
  | octets data =>
    rw [Document.tree] at taken
    split at taken
    · cases taken
    · exact isContent_readLetters taken
  | value given => exact absurd rfl (raw given)

end Telemetry.Json
