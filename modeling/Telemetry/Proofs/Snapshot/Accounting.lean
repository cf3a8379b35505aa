import Mathlib.Data.List.Nodup
import Telemetry.Proofs.Json.Content
import Telemetry.Proofs.Snapshot.LostLeaves

/-!
Every leaf is accounted for. Flattening a tree of any shape updates what was found with the leaves
that decode and sets the paths of all others aside, both in the order in which they are met. Where no
name holds a slash no two leaves share a path, so each is found or set aside, and not both.
-/

namespace Telemetry

variable {α : Type}

/-- What the update holds under a name counts before what was there. -/
theorem FieldList.get?_merge {fields update : FieldList α} {name : String}
    (distinct : (names update).Nodup) :
    get? (merge fields update) name = (get? update name).or (get? fields name) := by
  induction update generalizing fields with
  | nil => rfl
  | cons field rest ih =>
    obtain ⟨fresh, later⟩ := List.nodup_cons.mp distinct
    show get? (merge (insert fields field.1 field.2) rest) name = _
    rw [ih later, get?_cons]
    by_cases same : field.1 = name
    · subst same
      rw [get?_eq_none_iff.mpr fresh, get?_insert_same, if_pos rfl]
      rfl
    · rw [get?_insert_of_ne same, if_neg same]

namespace Snapshot

variable {β : Type} {decode : β → Except Fault α} {path : String} {acc : Flat α}
  {found : List (List String × β)} {leafOf : Value → Option β} {v : Value}
  {node : List (String × Value)}

/-- The leaves that decode, under their paths. -/
def decodedAt (decode : β → Except Fault α) (path : String) (found : List (List String × β)) :
    FieldList α :=
  found.filterMap fun leaf => (decode leaf.2).toOption.map fun a => (pathText path leaf.1, a)

/-- The paths of the leaves that do not decode. -/
def undecodedAt (decode : β → Except Fault α) (path : String) (found : List (List String × β)) :
    List String :=
  (found.filter fun leaf => (decode leaf.2).toOption.isNone).map fun leaf => pathText path leaf.1

theorem Flat.addAll_eq : acc.addAll decode path found =
    ⟨acc.found.merge (decodedAt decode path found), acc.dropped ++ undecodedAt decode path found⟩ := by
  have foundEq : (acc.addAll decode path found).found =
      acc.found.merge (decodedAt decode path found) := by
    induction found generalizing acc with
    | nil => rfl
    | cons leaf rest ih =>
      show ((acc.add (pathText path leaf.1) (decode leaf.2)).addAll decode path rest).found = _
      rw [ih]
      unfold decodedAt
      rw [List.filterMap_cons]
      cases decode leaf.2 <;> rfl
  have droppedEq : (acc.addAll decode path found).dropped =
      acc.dropped ++ undecodedAt decode path found := Flat.dropped_addAll
  rw [← foundEq, ← droppedEq]

theorem mem_undecodedAt {name : String} : name ∈ undecodedAt decode path found ↔
    ∃ leaf ∈ found, (decode leaf.2).toOption = none ∧ pathText path leaf.1 = name := by
  simp [undecodedAt, and_assoc]

theorem mem_decodedAt {entry : String × α} : entry ∈ decodedAt decode path found ↔
    ∃ leaf ∈ found, decode leaf.2 = .ok entry.2 ∧ pathText path leaf.1 = entry.1 := by
  unfold decodedAt
  rw [List.mem_filterMap]
  refine exists_congr fun leaf => and_congr_right fun _ => ?_
  cases decode leaf.2 with
  | error fault => simp [Except.toOption]
  | ok a =>
    simp only [Except.toOption, Option.map_some, Option.some.injEq, Except.ok.injEq]
    exact Prod.ext_iff.trans and_comm

/-! ### Paths of leaves -/

theorem head_of_mem_leavesFields {leaf : List String × β} (member : leaf ∈ leavesFields leafOf node) :
    ∃ segment ∈ FieldList.names node, leaf.1.head? = some segment := by
  induction node with
  | nil => cases member
  | cons field rest ih =>
    rcases List.mem_append.mp member with here | there
    · obtain ⟨below, -, rfl⟩ := List.mem_map.mp here
      exact ⟨field.1, List.mem_cons_self, rfl⟩
    · obtain ⟨segment, inRest, head⟩ := ih there
      exact ⟨segment, List.mem_cons_of_mem _ inRest, head⟩

theorem leaves_of_not_object (single : v.isObject = false) :
    leaves leafOf v = (leafOf v).toList.map fun leaf => ([], leaf) := by
  cases v with
  | object node => cases single
  | _ => rfl

theorem nodup_leaves_of_fields
    (below : ∀ node, v = .object node → ((leavesFields leafOf node).map Prod.fst).Nodup) :
    ((leaves leafOf v).map Prod.fst).Nodup := by
  by_cases isObject : v.isObject = true
  · obtain ⟨node, rfl⟩ : ∃ node, v = .object node := by
      cases v with
      | object node => exact ⟨node, rfl⟩
      | _ => cases isObject
    rw [leaves]
    cases leafOf (.object node) with
    | some leaf => exact List.pairwise_singleton _ _
    | none => exact below node rfl
  · rw [leaves_of_not_object (eq_false_of_ne_true isObject)]
    cases leafOf v with
    | none => exact List.nodup_nil
    | some leaf => exact List.pairwise_singleton _ _

theorem nodup_leavesFields (distinct : Distinct node) :
    ((leavesFields leafOf node).map Prod.fst).Nodup := by
  induction distinct with
  | nil => exact List.nodup_nil
  | @cons segment child rest fresh _ _ ihBelow ihLater =>
    rw [leavesFields, List.map_append, List.map_map]
    refine List.Nodup.append ?_ ihLater ?_
    · have inner := nodup_leaves_of_fields ihBelow
      rw [show (Prod.fst ∘ fun leaf : List String × β => (segment :: leaf.1, leaf.2)) =
        (segment :: ·) ∘ Prod.fst from rfl, ← List.map_map]
      exact inner.map List.cons_injective
    · intro segments here there
      obtain ⟨leaf, -, rfl⟩ := List.mem_map.mp here
      obtain ⟨other, member, same⟩ := List.mem_map.mp there
      obtain ⟨name, inRest, head⟩ := head_of_mem_leavesFields member
      rw [same] at head
      obtain rfl : segment = name := Option.some.inj head
      exact fresh inRest

mutual
theorem distinct_of_isContent : ∀ v : Value, Json.isContent v = true →
    ∀ node, v = .object node → Distinct node
  | .object node, content, _, rfl => by
    rw [Json.isContent, Bool.and_eq_true, decide_eq_true_eq] at content
    exact distinctFields_of_isContent node content.1 content.2
theorem distinctFields_of_isContent : ∀ node : List (String × Value),
    (FieldList.names node).Nodup → Json.fieldsAreContent node = true → Distinct node
  | [], _, _ => .nil
  | (segment, child) :: rest, names, content => by
    obtain ⟨fresh, distinct⟩ := List.nodup_cons.mp names
    obtain ⟨first, later⟩ := Bool.and_eq_true_iff.mp content
    exact .cons fresh (distinct_of_isContent child first)
      (distinctFields_of_isContent rest distinct later)
end

mutual
/-- No name of a node, or of a node below it, holds a slash. -/
def slashless : Value → Bool
  | .object node => slashlessFields node
  | _ => true
def slashlessFields : List (String × Value) → Bool
  | [] => true
  | (segment, child) :: rest =>
    !segment.toList.contains '/' && slashless child && slashlessFields rest
end

mutual
theorem slashless_segments : ∀ v : Value, slashless v = true →
    ∀ leaf ∈ leaves leafOf v, ∀ segment ∈ leaf.1, '/' ∉ segment.toList
  | .object node, plain, leaf, member => by
    rw [leaves] at member
    split at member
    · obtain rfl := List.mem_singleton.mp member
      exact fun _ none => absurd none List.not_mem_nil
    · exact slashless_segmentsFields node plain leaf member
  | .null, _, leaf, member | .bool _, _, leaf, member | .int _, _, leaf, member
  | .float _, _, leaf, member | .str _, _, leaf, member | .bytes _, _, leaf, member
  | .buffer _, _, leaf, member | .dateTime _, _, leaf, member | .list _, _, leaf, member
  | .tuple _, _, leaf, member => by
    rw [leaves_of_not_object rfl] at member
    obtain ⟨_, _, rfl⟩ := List.mem_map.mp member
    exact fun _ none => absurd none List.not_mem_nil
theorem slashless_segmentsFields : ∀ node : List (String × Value), slashlessFields node = true →
    ∀ leaf ∈ leavesFields leafOf node, ∀ segment ∈ leaf.1, '/' ∉ segment.toList
  | [], _, leaf, member => absurd member List.not_mem_nil
  | (segment, child) :: rest, plain, leaf, member => by
    rw [slashlessFields, Bool.and_eq_true, Bool.and_eq_true] at plain
    obtain ⟨⟨first, inner⟩, later⟩ := plain
    rcases List.mem_append.mp member with here | there
    · obtain ⟨below, inBelow, rfl⟩ := List.mem_map.mp here
      intro name inPath
      rcases List.mem_cons.mp inPath with rfl | deeper
      · simpa using first
      · exact slashless_segments child inner below inBelow name deeper
    · exact slashless_segmentsFields rest later leaf there
end

theorem nodup_paths (distinct : ∀ node, v = .object node → Distinct node)
    (plain : slashless v = true) :
    ((leaves leafOf v).map fun leaf => pathText path leaf.1).Nodup := by
  have segments : ((leaves leafOf v).map Prod.fst).Nodup :=
    nodup_leaves_of_fields fun node same => nodup_leavesFields (distinct node same)
  rw [← Function.comp_def (pathText path) Prod.fst, ← List.map_map]
  refine segments.map_on fun a inA b inB same => ?_
  obtain ⟨leaf, member, rfl⟩ := List.mem_map.mp inA
  obtain ⟨other, member', rfl⟩ := List.mem_map.mp inB
  exact pathText_injective (slashless_segments v plain leaf member)
    (slashless_segments v plain other member') same

/-! ### Leaves that are settled -/

/-- A leaf that decodes stands under its path, which is not set aside. The path of any other leaf is
set aside, and under it stands what stood there before. -/
def Settled (decode : β → Except Fault α) (path : String) (found : List (List String × β))
    (before after : Flat α) (leaf : List String × β) : Prop :=
  match decode leaf.2 with
  | .ok a =>
    after.found.get? (pathText path leaf.1) = some a ∧
      pathText path leaf.1 ∉ undecodedAt decode path found
  | .error _ =>
    after.found.get? (pathText path leaf.1) = before.found.get? (pathText path leaf.1) ∧
      pathText path leaf.1 ∈ undecodedAt decode path found

theorem nodup_names_decodedAt (distinct : (found.map fun leaf => pathText path leaf.1).Nodup) :
    (FieldList.names (decodedAt decode path found)).Nodup := by
  induction found with
  | nil => exact List.nodup_nil
  | cons leaf rest ih =>
    obtain ⟨fresh, later⟩ := List.nodup_cons.mp distinct
    rw [decodedAt, List.filterMap_cons]
    cases decode leaf.2 with
    | error fault => exact ih later
    | ok a =>
      refine List.nodup_cons.mpr ⟨fun member => fresh ?_, ih later⟩
      obtain ⟨entry, inRest, same⟩ := List.mem_map.mp member
      obtain ⟨other, inFound, -, isPath⟩ := mem_decodedAt.mp inRest
      exact List.mem_map.mpr ⟨other, inFound, isPath.trans same⟩

theorem settled_addAll (distinct : (found.map fun leaf => pathText path leaf.1).Nodup)
    {leaf : List String × β} (member : leaf ∈ found) :
    Settled decode path found acc (acc.addAll decode path found) leaf := by
  have names : (FieldList.names (decodedAt decode path found)).Nodup := nodup_names_decodedAt distinct
  have single : ∀ other ∈ found, pathText path other.1 = pathText path leaf.1 → other = leaf :=
    fun other inFound same => List.inj_on_of_nodup_map distinct inFound member same
  unfold Settled
  rw [Flat.addAll_eq]
  dsimp only
  rw [FieldList.get?_merge names]
  split
  · rename_i a decoded
    have here : FieldList.get? (decodedAt decode path found) (pathText path leaf.1) = some a :=
      (FieldList.get?_eq_some_iff names).mpr (mem_decodedAt.mpr ⟨leaf, member, decoded, rfl⟩)
    rw [here]
    refine ⟨rfl, fun setAside => ?_⟩
    obtain ⟨other, inFound, none, same⟩ := mem_undecodedAt.mp setAside
    rw [single other inFound same, decoded] at none
    cases none
  · rename_i fault failed
    have absent : FieldList.get? (decodedAt decode path found) (pathText path leaf.1) = none := by
      rw [FieldList.get?_eq_none_iff]
      intro inNames
      obtain ⟨entry, inDecoded, same⟩ := List.mem_map.mp inNames
      obtain ⟨other, inFound, decoded, isPath⟩ := mem_decodedAt.mp inDecoded
      rw [single other inFound (isPath.trans same), failed] at decoded
      cases decoded
    rw [absent]
    refine ⟨rfl, mem_undecodedAt.mpr ⟨leaf, member, ?_, rfl⟩⟩
    rw [failed]
    rfl

/-- Flattening accounts for every leaf of every tree: those that decode update what was found, the
paths of the others are set aside, both in the order of the document. Where no name of a node is
repeated or holds a slash, no two leaves share a path, and each is settled in one way. -/
theorem flattenings_account (path : String) (v : Value) :
    (∀ acc : Flat Sample, flattenIndividual path acc v =
      ⟨acc.found.merge (decodedAt decodeSample path (leaves sampleLeaf v)),
        acc.dropped ++ undecodedAt decodeSample path (leaves sampleLeaf v)⟩) ∧
    (∀ acc : Flat ObjectSample, flattenObject path acc v =
      ⟨acc.found.merge (decodedAt decodeObjectSample path (leaves objectLeaf v)),
        acc.dropped ++ undecodedAt decodeObjectSample path (leaves objectLeaf v)⟩) ∧
    ((∀ node, v = .object node → Distinct node) → slashless v = true →
      (((leaves sampleLeaf v).map fun leaf => pathText path leaf.1).Nodup ∧
        ∀ acc, ∀ leaf ∈ leaves sampleLeaf v,
          Settled decodeSample path (leaves sampleLeaf v) acc (flattenIndividual path acc v) leaf) ∧
      (((leaves objectLeaf v).map fun leaf => pathText path leaf.1).Nodup ∧
        ∀ acc, ∀ leaf ∈ leaves objectLeaf v,
          Settled decodeObjectSample path (leaves objectLeaf v) acc (flattenObject path acc v)
            leaf)) := by
  refine ⟨fun acc => ?_, fun acc => ?_, fun distinct plain => ⟨?_, ?_⟩⟩
  · rw [flattenIndividual_eq, Flat.addAll_eq]
  · rw [flattenObject_eq, Flat.addAll_eq]
  · have paths : ((leaves sampleLeaf v).map fun leaf => pathText path leaf.1).Nodup :=
      nodup_paths distinct plain
    refine ⟨paths, fun acc leaf member => ?_⟩
    rw [flattenIndividual_eq]
    exact settled_addAll paths member
  · have paths : ((leaves objectLeaf v).map fun leaf => pathText path leaf.1).Nodup :=
      nodup_paths distinct plain
    refine ⟨paths, fun acc leaf member => ?_⟩
    rw [flattenObject_eq]
    exact settled_addAll paths member

/-- Two leaves, of which one has no text for a timestamp, and what is no leaf. -/
theorem flattenings_account_undated :
    let v := Value.object
      [("a", .object [("value", .int 1), ("timestamp", .str "2020-01-01T00:00:00Z")]),
        ("b", .object [("c", .object [("value", .list []), ("timestamp", .int 5)])]),
        ("value", .int 7)]
    let before : Flat Sample := ⟨[], ["/x"]⟩
    (∀ node, v = .object node → Distinct node) ∧ slashless v = true ∧
      ((leaves sampleLeaf v).map fun leaf => pathText "/p" leaf.1) = ["/p/a", "/p/b/c"] ∧
      (flattenIndividual "/p" before v).dropped = ["/x", "/p/b/c"] ∧
      ∀ leaf ∈ leaves sampleLeaf v, Settled decodeSample "/p" (leaves sampleLeaf v) before
        (flattenIndividual "/p" before v) leaf := by
  intro v before
  have distinct : ∀ node, v = .object node → Distinct node :=
    distinct_of_isContent v (by decide +kernel)
  have plain : slashless v = true := by decide +kernel
  have ⟨individual, _, settled⟩ := flattenings_account "/p" v
  refine ⟨distinct, plain, by decide +kernel, ?_, (settled distinct plain).1.2 before⟩
  rw [individual]
  decide +kernel

end Snapshot

end Telemetry
