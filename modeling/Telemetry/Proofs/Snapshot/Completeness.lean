import Telemetry.Proofs.Snapshot.Leaves
import Telemetry.Snapshot.Strict

/-!
Trees that are read in full. Below every node of a complete tree there is a sample or a further
node; such a tree has the same leaves whether it is flattened or read in full.
-/

namespace Telemetry.Snapshot

mutual
/-- Every node reached is a sample that can be decoded, or has a node below it. -/
def complete : Value → Bool
  | .object node =>
    if holdsScalar node "value" then (decodeSample node).toOption.isSome
    else hasSubtree node && completeFields node
  | _ => false
def completeFields : List (String × Value) → Bool
  | [] => true
  | (_, child) :: rest => (!child.isObject || complete child) && completeFields rest
end

theorem isSampleNode_of_decodes {node : List (String × Value)} {sample : Sample}
    (scalar : holdsScalar node "value" = true) (decoded : decodeSample node = .ok sample) :
    isSampleNode node = true := by
  have has : FieldList.has node Sample.timestampName = true := by
    unfold decodeSample Sample.ofFields at decoded
    rw [FieldList.has]
    cases held : FieldList.get? node Sample.timestampName with
    | none =>
      rw [held] at decoded
      cases decoded
    | some given => rfl
  rw [isSampleNode, scalar, has]
  rfl

mutual
theorem readIndividual_of_complete (path : String) : ∀ v : Value, complete v = true →
    ∃ samples, DecodesTo decodeSample (leaves sampleLeaf v) samples ∧
      readIndividual path v = .ok (FieldList.ofList (entriesAt path samples))
  | .object node, whole => by
    by_cases scalar : holdsScalar node "value" = true
    · rw [complete, if_pos scalar] at whole
      cases decoded : decodeSample node with
      | error fault =>
        rw [decoded] at whole
        cases whole
      | ok sample =>
        refine ⟨[([], sample)], ?_, ?_⟩
        · simp only [leaves, sampleLeaf, isSampleNode_of_decodes scalar decoded, if_true]
          exact .cons ⟨rfl, decoded⟩ .nil
        · rw [readIndividual, if_pos scalar, decoded]
          rfl
    · rw [complete, if_neg scalar, Bool.and_eq_true] at whole
      obtain ⟨samples, decodes, read⟩ := readIndividualFields_of_complete path [] node whole.2
      have inner : isSampleNode node = false := by simp [isSampleNode, scalar]
      refine ⟨samples, ?_, ?_⟩
      · simpa only [leaves, sampleLeaf, inner, Bool.false_eq_true, if_false] using decodes
      · rw [readIndividual, if_neg scalar, if_pos whole.1, read]
        rfl
  | .null, whole | .bool _, whole | .int _, whole | .float _, whole | .str _, whole
  | .bytes _, whole | .buffer _, whole | .dateTime _, whole | .list _, whole | .tuple _, whole => by
    cases whole
theorem readIndividualFields_of_complete (path : String) (acc : FieldList Sample) :
    ∀ node : List (String × Value), completeFields node = true →
      ∃ samples, DecodesTo decodeSample (leavesFields sampleLeaf node) samples ∧
        readIndividualFields path acc node = .ok (acc.merge (entriesAt path samples))
  | [], _ => ⟨[], .nil, rfl⟩
  | (segment, child) :: rest, whole => by
    obtain ⟨first, later⟩ := Bool.and_eq_true_iff.mp (by rwa [completeFields] at whole)
    by_cases isObject : child.isObject = true
    · obtain ⟨below, decodes, read⟩ := readIndividual_of_complete (childPath path segment) child
        (by simpa [isObject] using first)
      obtain ⟨others, decodes', read'⟩ := readIndividualFields_of_complete path
        (acc.merge (FieldList.ofList (entriesAt (childPath path segment) below))) rest later
      refine ⟨_, decodes.child.append decodes', ?_⟩
      rw [readIndividualFields, if_pos isObject, read]
      refine read'.trans ?_
      rw [FieldList.merge_ofList, merge_entriesAt_append, merge_entriesAt_child]
    · obtain ⟨others, decodes, read⟩ := readIndividualFields_of_complete path acc rest later
      have none : leaves sampleLeaf child = [] := by
        cases child <;> first | rfl | exact absurd rfl isObject
      refine ⟨others, ?_, ?_⟩
      · rw [leavesFields, none]
        exact decodes
      · rw [readIndividualFields, if_neg isObject, read]
end

mutual
theorem collectProperties_eq (path : String) : ∀ v : Value,
    collectProperties path v = FieldList.ofList (entriesAt path (leaves propertyLeaf v))
  | .object node => by
    have below := collectPropertiesFields_eq path [] node
    simpa [collectProperties, leaves, propertyLeaf, FieldList.ofList] using below
  | .null | .bool _ | .int _ | .float _ | .str _ | .bytes _ | .buffer _ | .dateTime _ | .list _
  | .tuple _ => by rfl
theorem collectPropertiesFields_eq (path : String) (acc : FieldList Value) :
    ∀ node : List (String × Value), collectPropertiesFields path acc node =
      acc.merge (entriesAt path (leavesFields propertyLeaf node))
  | [] => by rfl
  | (segment, child) :: rest => by
    rw [collectPropertiesFields, collectProperties_eq _ child, collectPropertiesFields_eq path _ rest,
      leavesFields, merge_entriesAt_append, merge_entriesAt_child, FieldList.merge_ofList]
end

end Telemetry.Snapshot
