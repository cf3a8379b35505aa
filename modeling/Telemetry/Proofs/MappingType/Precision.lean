import Telemetry.Proofs.Binary64.Integers
import Telemetry.Proofs.MappingType.Elementwise

/-!
Integers and the types they can be sent as. The integer types are offered exactly when every integer
fits the word of the type, and so are doubles, with the bounds of the longer word; so the integers that
a double has no room for are those of more than 53 binary digits.
-/

namespace Telemetry

open Binary64 (IsExact HasShortSignificand isExact_iff)

theorem fitsSigned_iff {bits : Nat} {n : Int} :
    fitsSigned bits n = true ↔ -2 ^ (bits - 1) ≤ n ∧ n < 2 ^ (bits - 1) := by
  simp [fitsSigned]

namespace Value

variable {v : Value} {isArray : Bool} {ns : List Int} {n : Int} {s : Scalar}

/-- A single integer, or a sequence of integers. -/
inductive OfIntegers : Value → Bool → List Int → Prop where
  | single (n : Int) : OfIntegers (.int n) false [n]
  | list (ns : List Int) : OfIntegers (.list (ns.map .int)) true ns
  | tuple (ns : List Int) : OfIntegers (.tuple (ns.map .int)) true ns

theorem mem_mappingTypes_integers (integers : OfIntegers v isArray ns) :
    ⟨s, isArray⟩ ∈ v.mappingTypes ↔ ∀ n ∈ ns, s ∈ (Value.int n).scalarTypes := by
  cases integers with
  | single n => simp [mem_mappingTypes_single]
  | list => simp [mem_mappingTypes_sequence (v := .list (ns.map .int)) rfl]
  | tuple => simp [mem_mappingTypes_sequence (v := .tuple (ns.map .int)) rfl]

/-- The bits of the signed word that integers of a type have to fit. -/
def wordOf : Scalar → Option Nat
  | .integer => some 32
  | .longInteger | .double => some 64
  | _ => none

theorem mem_scalarTypes_int : s ∈ (Value.int n).scalarTypes ↔
    (wordOf s).any fun bits => fitsSigned bits n := by
  have wider : fitsSigned 32 n = true → fitsSigned 64 n = true := by
    simp only [fitsSigned_iff]
    omega
  by_cases narrow : fitsSigned 32 n = true
  · cases s <;> simp [scalarTypes, wordOf, narrow, wider narrow]
  · by_cases wide : fitsSigned 64 n = true <;> cases s <;>
      simp [scalarTypes, wordOf, narrow, wide]

/-- An integer of at most 64 bits is in range of doubles, so only its digits count. -/
theorem isExact_iff_of_fits (fits : -2 ^ 63 ≤ n ∧ n < 2 ^ 63) :
    IsExact n ↔ HasShortSignificand n := by
  have bound : n.natAbs < Binary64.range := by
    have word : 1 * 2 ^ 64 < Binary64.range := Binary64.lt_range (by decide) (by decide)
    omega
  exact isExact_iff.trans (and_iff_right bound)

/-- The types of integers say which words they fit. Integers that can be sent as doubles fit 64 bits,
and a double stands for such an integer exactly when it has at most 53 digits before zeros begin. -/
theorem integers_typed (integers : OfIntegers v isArray ns) :
    (⟨.integer, isArray⟩ ∈ v.mappingTypes ↔ ∀ n ∈ ns, -2 ^ 31 ≤ n ∧ n < 2 ^ 31) ∧
      (⟨.longInteger, isArray⟩ ∈ v.mappingTypes ↔ ∀ n ∈ ns, -2 ^ 63 ≤ n ∧ n < 2 ^ 63) ∧
      (⟨.double, isArray⟩ ∈ v.mappingTypes ↔ ∀ n ∈ ns, -2 ^ 63 ≤ n ∧ n < 2 ^ 63) ∧
      (⟨.double, isArray⟩ ∈ v.mappingTypes → ∀ n ∈ ns,
        (IsExact n ↔ HasShortSignificand n) ∧ (n.natAbs ≤ 2 ^ 53 → IsExact n)) ∧
      ∀ type, (∃ typed, MappingType.check type v = .ok typed) ↔ type ∈ v.mappingTypes := by
  have typed := fun s => (mem_mappingTypes_integers integers (s := s)).trans
    (forall₂_congr fun n _ => mem_scalarTypes_int)
  have doubles : ⟨.double, isArray⟩ ∈ v.mappingTypes ↔ ∀ n ∈ ns, -2 ^ 63 ≤ n ∧ n < 2 ^ 63 := by
    simpa [wordOf, fitsSigned_iff] using typed .double
  refine ⟨?_, ?_, doubles, fun admitted n member => ?_, fun _ => exists_check_iff⟩
  · simpa [wordOf, fitsSigned_iff] using typed .integer
  · simpa [wordOf, fitsSigned_iff] using typed .longInteger
  · have exact := isExact_iff_of_fits (doubles.mp admitted n member)
    exact ⟨exact, fun small => exact.mpr (Binary64.hasShortSignificand_of_le small)⟩

theorem integers_typed_of_mixed :
    (⟨.double, true⟩ ∈ (list ([3, -2 ^ 60].map .int)).mappingTypes ∧
      ⟨.integer, true⟩ ∉ (list ([3, -2 ^ 60].map .int)).mappingTypes) ∧
      IsExact (-2 ^ 60) := by
  obtain ⟨narrow, -, wide, exact, -⟩ := integers_typed (.list [3, -2 ^ 60])
  have doubles := wide.mpr (by decide)
  refine ⟨⟨doubles, fun admitted => absurd (narrow.mp admitted) (by decide)⟩, ?_⟩
  exact (exact doubles (-2 ^ 60) (by decide)).1.mpr ⟨1, 60, by decide, by decide⟩

/-- The least integer that no double stands for can be sent as one. -/
theorem double_of_odd_integer :
    ⟨.double, false⟩ ∈ (Value.int (2 ^ 53 + 1)).mappingTypes ∧ ¬IsExact (2 ^ 53 + 1) := by
  refine ⟨by decide, fun exact => ?_⟩
  obtain ⟨m, e, short, same⟩ := (isExact_iff.mp exact).2
  have total : m * 2 ^ e = 2 ^ 53 + 1 := same.symm
  unfold Binary64.leadingBit at short
  cases e with
  | zero => omega
  | succ e =>
    have even : m * 2 ^ (e + 1) = 2 * (m * 2 ^ e) := by ring
    omega

end Value

end Telemetry
