import Telemetry.Proofs.Sample
import Telemetry.Proofs.Snapshot.Completeness

/-!
The two ways to read a tree. Where a tree can be read in full, flattening it as far as possible gives
the same entries in the same order and sets nothing aside, also where several paths have one text.
-/

namespace Telemetry.Snapshot

open Sample (timestampName)

variable {node inner below rest : List (String × Value)} {segment name : String} {child v : Value}

/-! ### Nodes that are reached -/

/-- A node, or one that is reached from it through objects without passing a sample. -/
inductive Reached (node : List (String × Value)) : List (String × Value) → Prop
  | here : Reached node node
  | child {inner below : List (String × Value)} {segment : String} (reached : Reached node inner)
    (walked : holdsScalar inner "value" = false) (member : (segment, .object below) ∈ inner) :
    Reached node below

theorem Reached.from_child (walked : holdsScalar node "value" = false)
    (member : (segment, .object inner) ∈ node) (reached : Reached inner below) :
    Reached node below := by
  induction reached with
  | here => exact .child .here walked member
  | child _ walked' member' ih => exact .child ih walked' member'

/-- A sample that can be decoded, or a node that is no sample and has an object below it. -/
def Reads (node : List (String × Value)) : Prop :=
  holdsScalar node "value" = true ∧ (∃ sample, decodeSample node = .ok sample) ∨
    holdsScalar node "value" = false ∧ hasSubtree node = true

theorem completeFields_iff : completeFields node = true ↔
    ∀ segment below, (segment, .object below) ∈ node → complete (.object below) = true := by
  induction node with
  | nil => simp [completeFields]
  | cons field rest ih =>
    obtain ⟨segment, child⟩ := field
    rw [completeFields, Bool.and_eq_true, ih]
    constructor
    · rintro ⟨first, later⟩ name below member
      rcases List.mem_cons.mp member with same | inRest
      · cases same
        exact first
      · exact later name below inRest
    · intro all
      refine ⟨?_, fun name below member => all name below (List.mem_cons_of_mem _ member)⟩
      cases child with
      | object below => exact all segment below List.mem_cons_self
      | _ => rfl

theorem reads_of_complete (whole : complete (.object node) = true) : Reads node := by
  rw [complete] at whole
  split at whole
  · rename_i scalar
    exact .inl ⟨scalar, exists_ok_iff.mpr whole⟩
  · rename_i inner
    exact .inr ⟨eq_false_of_ne_true inner, (Bool.and_eq_true_iff.mp whole).1⟩

theorem complete_of_reached (whole : complete (.object node) = true) (reached : Reached node below) :
    complete (.object below) = true := by
  induction reached with
  | here => exact whole
  | @child inner below segment _ walked member ih =>
    rw [complete, if_neg (by simp [walked]), Bool.and_eq_true] at ih
    exact completeFields_iff.mp ih.2 segment below member

mutual
theorem complete_of_reads : ∀ v : Value, ∀ node, v = .object node →
    (∀ below, Reached node below → Reads below) → complete v = true
  | .object node, _, rfl, reads => by
    rw [complete]
    rcases reads node .here with ⟨scalar, decoded⟩ | ⟨walked, subtree⟩
    · rw [if_pos scalar]
      exact exists_ok_iff.mp decoded
    · rw [if_neg (by simp [walked]), subtree, Bool.true_and]
      refine completeFields_of_reads node fun segment inner member below reached => ?_
      exact reads below (.from_child walked member reached)
theorem completeFields_of_reads : ∀ node : List (String × Value),
    (∀ segment inner, (segment, .object inner) ∈ node → ∀ below, Reached inner below → Reads below) →
      completeFields node = true
  | [], _ => by rfl
  | (segment, child) :: rest, reads => by
    have later := completeFields_of_reads rest fun name inner member =>
      reads name inner (List.mem_cons_of_mem _ member)
    rw [completeFields, later, Bool.and_true, Bool.or_eq_true]
    by_cases isObject : child.isObject = true
    · right
      cases child with
      | object inner => exact complete_of_reads (.object inner) inner rfl (reads segment inner List.mem_cons_self)
      | _ => cases isObject
    · left
      simpa using isObject
end

theorem complete_iff : complete v = true ↔
    ∃ node, v = .object node ∧ ∀ below, Reached node below → Reads below := by
  constructor
  · intro whole
    cases v with
    | object node => exact ⟨node, rfl, fun below reached => reads_of_complete (complete_of_reached whole reached)⟩
    | _ => cases whole
  · rintro ⟨node, rfl, reads⟩
    exact complete_of_reads _ node rfl reads

/-! ### Individual samples -/

mutual
theorem complete_of_readIndividual (path : String) : ∀ (v : Value) (found : FieldList Sample),
    readIndividual path v = .ok found → complete v = true
  | .object node, found, read => by
    rw [readIndividual] at read
    split at read
    · rename_i scalar
      rw [complete, if_pos scalar]
      cases decoded : decodeSample node with
      | error fault =>
        rw [decoded] at read
        cases read
      | ok sample => rfl
    · rename_i inner
      split at read
      · rename_i subtree
        rw [complete, if_neg inner, subtree, completeFields_of_readIndividualFields path [] node found read]
        rfl
      · cases read
  | .null, _, read | .bool _, _, read | .int _, _, read | .float _, _, read | .str _, _, read
  | .bytes _, _, read | .buffer _, _, read | .dateTime _, _, read | .list _, _, read
  | .tuple _, _, read => by
    cases read
theorem completeFields_of_readIndividualFields (path : String) (acc : FieldList Sample) :
    ∀ (node : List (String × Value)) (found : FieldList Sample),
      readIndividualFields path acc node = .ok found → completeFields node = true
  | [], _, _ => by rfl
  | (segment, child) :: rest, found, read => by
    rw [readIndividualFields] at read
    split at read
    · cases first : readIndividual (childPath path segment) child with
      | error fault =>
        rw [first] at read
        cases read
      | ok below =>
        rw [first] at read
        have whole := complete_of_readIndividual _ child below first
        have later := completeFields_of_readIndividualFields path _ rest found read
        rw [completeFields, whole, later, Bool.or_true, Bool.true_and]
    · rename_i scalar
      have later := completeFields_of_readIndividualFields path _ rest found read
      simp [completeFields, scalar, later]
end

theorem readIndividual_isOk_iff {path : String} :
    (∃ found, readIndividual path v = .ok found) ↔
      ∃ node, v = .object node ∧ ∀ below, Reached node below → Reads below := by
  rw [← complete_iff]
  constructor
  · rintro ⟨found, read⟩
    exact complete_of_readIndividual path v found read
  · intro whole
    obtain ⟨samples, -, read⟩ := readIndividual_of_complete path v whole
    exact ⟨_, read⟩

theorem flattenIndividual_of_read {path : String} {found : FieldList Sample}
    (read : readIndividual path v = .ok found) : flattenIndividual path .empty v = ⟨found, []⟩ := by
  obtain ⟨samples, decodes, read'⟩ :=
    readIndividual_of_complete path v (complete_of_readIndividual path v found read)
  obtain rfl := Except.ok.inj (read.symm.trans read')
  rw [flattenIndividual_eq, Flat.addAll_of_decodes decodes]
  rfl

/-! ### Samples of objects -/

def isList : Value → Bool
  | .list _ => true
  | _ => false

mutual
/-- A tree without the lists that stand in its nodes; a sample is kept as it is. -/
def withoutLists : Value → Value
  | .object node =>
    if holdsScalar node timestampName then .object node else .object (withoutListsFields node)
  | v => v
def withoutListsFields : List (String × Value) → List (String × Value)
  | [] => []
  | (segment, child) :: rest =>
    if isList child then withoutListsFields rest
    else (segment, withoutLists child) :: withoutListsFields rest
end

theorem isObject_withoutLists : (withoutLists v).isObject = v.isObject := by
  cases v with
  | object node =>
    rw [withoutLists]
    split <;> rfl
  | _ => rfl

theorem holdsScalar_cons : holdsScalar ((segment, child) :: rest) name =
    if segment = name then !child.isObject else holdsScalar rest name := by
  rw [holdsScalar, FieldList.get?_cons]
  split <;> rfl

/-- Without the lists a node still is no sample. -/
theorem holdsScalar_withoutListsFields (walked : holdsScalar node name = false) :
    holdsScalar (withoutListsFields node) name = false := by
  induction node with
  | nil => rfl
  | cons field rest ih =>
    obtain ⟨segment, child⟩ := field
    rw [holdsScalar_cons] at walked
    rw [withoutListsFields]
    by_cases same : segment = name
    · rw [if_pos same] at walked
      have single : isList child = false := by
        cases child with
        | list items => cases walked
        | _ => rfl
      rw [single, if_neg Bool.false_ne_true, holdsScalar_cons, if_pos same, isObject_withoutLists]
      exact walked
    · rw [if_neg same] at walked
      split
      · exact ih walked
      · rw [holdsScalar_cons, if_neg same]
        exact ih walked

mutual
theorem readObject_spec (path : String) : ∀ (v : Value) (found : FieldList ObjectSample),
    readObject path v = .ok found →
      ∃ samples, DecodesTo decodeObjectSample (leaves objectLeaf (withoutLists v)) samples ∧
        found = FieldList.ofList (entriesAt path samples)
  | .object node, found, read => by
    rw [readObject] at read
    by_cases scalar : holdsScalar node timestampName = true
    · rw [if_pos scalar] at read
      cases decoded : decodeObjectSample (.object node) with
      | error fault =>
        rw [decoded] at read
        cases read
      | ok sample =>
        rw [decoded] at read
        cases read
        refine ⟨[([], sample)], ?_, rfl⟩
        rw [withoutLists, if_pos scalar, leaves, objectLeaf, if_pos scalar]
        exact .cons ⟨rfl, decoded⟩ .nil
    · rw [if_neg scalar] at read
      split at read
      · obtain ⟨samples, decodes, rfl⟩ := readObjectFields_spec path [] node found read
        refine ⟨samples, ?_, rfl⟩
        have inner : holdsScalar (withoutListsFields node) timestampName = false :=
          holdsScalar_withoutListsFields (eq_false_of_ne_true scalar)
        rw [withoutLists, if_neg scalar, leaves, objectLeaf, inner, if_neg Bool.false_ne_true]
        exact decodes
      · cases read
  | .null, _, read | .bool _, _, read | .int _, _, read | .float _, _, read | .str _, _, read
  | .bytes _, _, read | .buffer _, _, read | .dateTime _, _, read | .list _, _, read
  | .tuple _, _, read => by
    cases read
theorem readObjectFields_spec (path : String) (acc : FieldList ObjectSample) :
    ∀ (node : List (String × Value)) (found : FieldList ObjectSample),
      readObjectFields path acc node = .ok found →
        ∃ samples,
          DecodesTo decodeObjectSample (leavesFields objectLeaf (withoutListsFields node)) samples ∧
            found = acc.merge (entriesAt path samples)
  | [], found, read => by
    cases read
    exact ⟨[], .nil, rfl⟩
  | (segment, child) :: rest, found, read => by
    rw [readObjectFields] at read
    by_cases isObject : child.isObject = true
    · rw [if_pos isObject] at read
      cases first : readObject (childPath path segment) child with
      | error fault =>
        rw [first] at read
        cases read
      | ok below =>
        rw [first] at read
        obtain ⟨samples, decodes, rfl⟩ := readObject_spec (childPath path segment) child below first
        obtain ⟨others, decodes', rfl⟩ := readObjectFields_spec path _ rest found read
        refine ⟨samples.map (fun sample => (segment :: sample.1, sample.2)) ++ others, ?_, ?_⟩
        · have single : isList child = false := by
            cases child with
            | object node => rfl
            | _ => cases isObject
          rw [withoutListsFields, single, if_neg Bool.false_ne_true, leavesFields]
          exact decodes.child.append decodes'
        · rw [FieldList.merge_ofList, merge_entriesAt_append, merge_entriesAt_child]
    · rw [if_neg isObject] at read
      obtain ⟨others, decodes, rfl⟩ := readObjectFields_spec path acc rest found read
      refine ⟨others, ?_, rfl⟩
      -- a list is left out, and nothing else that is no object has a leaf
      rw [withoutListsFields]
      split
      · exact decodes
      · rename_i single
        have none : leaves objectLeaf (withoutLists child) = [] := by
          cases child with
          | object node => exact absurd rfl isObject
          | list items => exact absurd rfl single
          | _ => rfl
        rw [leavesFields, none]
        exact decodes
end

theorem flattenObject_of_read {path : String} {found : FieldList ObjectSample}
    (read : readObject path v = .ok found) :
    flattenObject path .empty (withoutLists v) = ⟨found, []⟩ := by
  obtain ⟨samples, decodes, rfl⟩ := readObject_spec path v found read
  rw [flattenObject_eq, Flat.addAll_of_decodes decodes]
  rfl

/-! ### Both ways -/

/-- A tree of individual samples can be read in full just if every node that is reached is a sample
or has an object below it. What is read in full is found again, in order and with nothing set aside,
by flattening the tree; for samples of objects, the tree without the lists in its nodes. Properties
are found alike both ways. -/
theorem readings_agree :
    (∀ data : Value,
      ((∃ found, readIndividual "" data = .ok found) ↔
        ∃ node, data = .object node ∧ ∀ below, Reached node below → Reads below) ∧
      ∀ found, readIndividual "" data = .ok found →
        flattenIndividual "" .empty data = ⟨found, []⟩) ∧
    (∀ (data : Value) (found : FieldList ObjectSample), readObject "" data = .ok found →
      flattenObject "" .empty (withoutLists data) = ⟨found, []⟩) ∧
    ∀ node : List (String × Value),
      readProperties (.object node) = .ok (flattenProperties "" [] (.object node)) := by
  refine ⟨fun data => ⟨readIndividual_isOk_iff, fun found => flattenIndividual_of_read⟩,
    fun data found => flattenObject_of_read, fun node => ?_⟩
  show Except.ok (collectProperties "" (.object node)) = _
  rw [collectProperties_eq, flattenProperties_eq]
  rfl

/-- Two paths of one text, of which the later takes the place of the first, and a list that only
flattening finds. -/
theorem readings_agree_on_collision :
    let sample := fun n : Int =>
      Value.object [("value", .int n), ("timestamp", .str "2020-01-01T00:00:00Z")]
    let data := Value.object [("a/b", sample 1), ("c", sample 2), ("a", .object [("b", sample 3)])]
    let objects := Value.object
      [("a/b", sample 1), ("d", .list [sample 2]), ("a", .object [("b", sample 3)])]
    (∃ found, readIndividual "" data = .ok found ∧ flattenIndividual "" .empty data = ⟨found, []⟩ ∧
      FieldList.names found = ["/a/b", "/c"] ∧
      (FieldList.get? found "/a/b").map Sample.value = some (.int 3)) ∧
    ∃ found, readObject "" objects = .ok found ∧
      flattenObject "" .empty (withoutLists objects) = ⟨found, []⟩ ∧
      FieldList.names found = ["/a/b"] := by
  intro sample data objects
  have ⟨individual, object, _⟩ := readings_agree
  obtain ⟨found, read, names, last⟩ : ∃ found, readIndividual "" data = .ok found ∧
      FieldList.names found = ["/a/b", "/c"] ∧
      (FieldList.get? found "/a/b").map Sample.value = some (.int 3) :=
    ⟨_, rfl, by decide +kernel, by decide +kernel⟩
  obtain ⟨rows, readRows, names'⟩ : ∃ found, readObject "" objects = .ok found ∧
      FieldList.names found = ["/a/b"] :=
    ⟨_, rfl, by decide +kernel⟩
  exact ⟨⟨found, read, (individual data).2 found read, names, last⟩,
    ⟨rows, readRows, object objects rows readRows, names'⟩⟩

/-- A sample that cannot be decoded is not made good by an object below it. -/
theorem readIndividual_undated :
    let node := [("value", Value.int 1),
      ("a", .object [("value", .int 1), ("timestamp", .str "2020-01-01T00:00:00Z")])]
    (∀ below, Reached node below →
      holdsScalar below "value" = true ∧ (∃ sample, decodeSample below = .ok sample) ∨
        hasSubtree below = true) ∧
    ¬∃ found, readIndividual "" (.object node) = .ok found := by
  intro node
  constructor
  · intro below reached
    have scalar : holdsScalar node "value" = true := by decide +kernel
    have stays : below = node := by
      induction reached with
      | here => rfl
      | child _ walked _ ih =>
        rw [ih, scalar] at walked
        cases walked
    rw [stays]
    exact .inr (by decide +kernel)
  · rw [exists_ok_iff]
    decide +kernel

end Telemetry.Snapshot
