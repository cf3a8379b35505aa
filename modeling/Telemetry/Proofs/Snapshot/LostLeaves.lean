import Telemetry.Proofs.Snapshot.Nesting

/-!
Paths that end in the name of the timestamp. Where samples of objects stand in lists, the list at
the end of such a path makes a leaf of the node that holds it. That leaf is no sample, so it is set
aside with all that is below it.
-/

namespace Telemetry.Snapshot

open Sample (timestampName)

variable {node rest : List (String × Value)} {segment name : String} {child v : Value}

/-- Names occur once in a node and in every node below it. -/
inductive Distinct : List (String × Value) → Prop
  | nil : Distinct []
  | cons {segment : String} {child : Value} {rest : List (String × Value)}
    (fresh : segment ∉ FieldList.names rest)
    (below : ∀ node, child = .object node → Distinct node) (later : Distinct rest) :
    Distinct ((segment, child) :: rest)

namespace Distinct

theorem insert (distinct : Distinct node) (below : ∀ node, v = .object node → Distinct node) :
    Distinct (FieldList.insert node name v) := by
  induction distinct with
  | nil => exact .cons List.not_mem_nil below .nil
  | @cons segment child rest fresh inner later _ ih =>
    by_cases same : segment = name
    · rw [FieldList.insert, if_pos same]
      exact .cons fresh below later
    · rw [FieldList.insert, if_neg same]
      refine .cons (fun member => ?_) inner ih
      rcases FieldList.mem_names_insert.mp member with taken | taken
      · exact same taken
      · exact fresh taken

theorem subtree (distinct : Distinct node) : Distinct (subtree node name) := by
  induction distinct with
  | nil => exact .nil
  | @cons segment child rest fresh inner later _ ih =>
    by_cases same : segment = name
    · cases child with
      | object below => simpa [Snapshot.subtree, FieldList.get?_cons, same] using inner below rfl
      | _ => simpa [Snapshot.subtree, FieldList.get?_cons, same] using Distinct.nil
    · simpa [Snapshot.subtree, FieldList.get?_cons, same] using ih

theorem graft (below : ∀ node, v = .object node → Distinct node) :
    ∀ (segments : List String) (node : List (String × Value)), Distinct node →
      Distinct (graft v segments node)
  | [], _, distinct => distinct
  | [_], _, distinct => distinct.insert below
  | _ :: next :: rest, _, distinct => by
    refine distinct.insert fun inner same => ?_
    cases same
    exact graft below (next :: rest) _ distinct.subtree

theorem nestFields {entries : List (List String × Value)}
    (below : ∀ entry ∈ entries, ∀ node, entry.2 = .object node → Distinct node) :
    Distinct (nestFields entries) := by
  induction entries using List.reverseRecOn with
  | nil => exact .nil
  | append_singleton rest entry ih =>
    rw [Snapshot.nestFields, List.foldl_append]
    refine graft (below entry (List.mem_append_right _ List.mem_cons_self)) entry.1 _ (ih ?_)
    exact fun other member => below other (List.mem_append_left _ member)

end Distinct

/-! ### The leaf that is set aside -/

/-- What stands in lists, whatever the nodes above are named. -/
def listLeaf : Value → Option Value
  | .list (newest :: _) => some newest
  | _ => none

theorem walks_listLeaf (allows : String → Value → Prop) : Walks listLeaf allows := fun _ _ => rfl

theorem holdsScalar_cons_of_mem (fresh : segment ∉ FieldList.names rest)
    (held : holdsScalar rest name = true) : holdsScalar ((segment, child) :: rest) name = true := by
  have differs : segment ≠ name := by
    rintro rfl
    rw [holdsScalar, FieldList.get?_eq_none_iff.mpr fresh] at held
    cases held
  simpa [holdsScalar, FieldList.get?_cons, differs] using held

theorem scalar_of_grown {allows : String → Value → Prop} (grown : Grown listLeaf allows node)
    (held : holdsScalar node name = true) :
    ∃ newest older, FieldList.get? node name = some (.list (newest :: older)) := by
  induction grown with
  | nil => cases held
  | @leaf segment child leaf rest _ isLeaf _ ih =>
    by_cases same : segment = name
    · cases child with
      | list items =>
        cases items with
        | nil => cases isLeaf
        | cons newest older => exact ⟨newest, older, by rw [FieldList.get?_cons, if_pos same]⟩
      | _ => cases isLeaf
    · simp only [holdsScalar, FieldList.get?_cons, same, if_false] at held ⊢
      exact ih held
  | @tree segment below rest _ _ _ _ ih =>
    by_cases same : segment = name
    · simp [holdsScalar, FieldList.get?_cons, same, Value.isObject] at held
    · simp only [holdsScalar, FieldList.get?_cons, same, if_false] at held ⊢
      exact ih held

def Undecodable (v : Value) : Prop :=
  ∀ sample, decodeObjectSample v ≠ .ok sample

variable {allows : String → Value → Prop}

/-- A list is given, but it is no timestamp. -/
theorem undecodable_of_holdsScalar (grown : Grown listLeaf allows node)
    (held : holdsScalar node timestampName = true) : Undecodable (.object node) := by
  obtain ⟨newest, older, isList⟩ := scalar_of_grown grown held
  have given : Value.fieldOrNull node timestampName = .list (newest :: older) := by
    rw [Value.fieldOrNull, isList]
    rfl
  intro sample decoded
  rw [decodeObjectSample, ObjectSample.ofFields, given] at decoded
  cases decoded

/-- A node that is no sample though it is taken for one, or that has such a node below it. -/
def Lost (node : List (String × Value)) : Prop :=
  holdsScalar node timestampName = true ∨
    ∃ leaf ∈ leavesFields objectLeaf node, Undecodable leaf.2

theorem Lost.cons (fresh : segment ∉ FieldList.names rest) (lost : Lost rest) :
    Lost ((segment, child) :: rest) := by
  rcases lost with held | ⟨leaf, member, undecodable⟩
  · exact .inl (holdsScalar_cons_of_mem fresh held)
  · exact .inr ⟨leaf, List.mem_append_right _ member, undecodable⟩

theorem Lost.exists_leaf (lost : Lost node) (grown : Grown listLeaf allows node) :
    ∃ leaf ∈ leaves objectLeaf (.object node), Undecodable leaf.2 := by
  by_cases held : holdsScalar node timestampName = true
  · have isLeaf : objectLeaf (.object node) = some (.object node) := by
      rw [objectLeaf, if_pos held]
    refine ⟨([], .object node), ?_, undecodable_of_holdsScalar grown held⟩
    rw [leaves_of_leaf isLeaf]
    exact List.mem_cons_self
  · obtain ⟨leaf, member, undecodable⟩ := lost.resolve_left held
    refine ⟨leaf, ?_, undecodable⟩
    simpa [leaves, objectLeaf, held] using member

/-- On the way to a path that ends in the name of the timestamp there is a leaf that is no sample. -/
theorem lost_of_timestamp (grown : Grown listLeaf allows node) (distinct : Distinct node)
    {found : List String × Value} (member : found ∈ leavesFields listLeaf node)
    (last : found.1.getLast? = some timestampName) : Lost node := by
  induction grown generalizing found with
  | nil => cases member
  | @leaf segment child leaf rest _ isLeaf _ ih =>
    cases distinct with
    | cons fresh below later =>
      rcases List.mem_append.mp member with here | there
      · rw [leaves_of_leaf isLeaf] at here
        obtain rfl := List.mem_singleton.mp here
        obtain rfl : segment = timestampName := Option.some.inj last
        left
        cases child with
        | list items => simp [holdsScalar, FieldList.get?_cons, Value.isObject]
        | _ => cases isLeaf
      · exact (ih later there last).cons fresh
  | @tree segment below rest _ inner _ ihBelow ih =>
    cases distinct with
    | cons fresh innerDistinct later =>
      rcases List.mem_append.mp member with here | there
      · obtain ⟨under, inBelow, rfl⟩ := List.mem_map.mp here
        rw [leaves_of_grown (walks_listLeaf allows) inner] at inBelow
        have last' : under.1.getLast? = some timestampName := by
          rwa [List.getLast?_cons_of_ne_nil (ne_nil_of_mem_leavesFields inBelow)] at last
        obtain ⟨leaf, inLeaves, undecodable⟩ :=
          (ihBelow (innerDistinct below rfl) inBelow last').exists_leaf inner
        exact .inr ⟨_, mem_leavesFields inLeaves, undecodable⟩
      · exact (ih later there last).cons fresh

/-- If a path ends in the name of the timestamp, something is set aside. -/
theorem flattenObject_nest_drops {entries : List (List String × Value)}
    (free : PrefixFree (entries.map Prod.fst)) {entry : List String × Value}
    (member : entry ∈ entries) (last : entry.1.getLast? = some timestampName) :
    (flattenObject "" .empty (nest (entries.map fun entry => (entry.1, .list [entry.2])))).dropped ≠
      [] := by
  obtain ⟨grown, perm⟩ := leaves_nest (walks_listLeaf fun _ _ => True) (fun v => .list [v]) free
    (fun _ _ => rfl) (fun _ _ _ _ => trivial)
  have distinct : Distinct (nestFields (entries.map fun entry => (entry.1, .list [entry.2]))) := by
    refine Distinct.nestFields fun laid inEntries node same => ?_
    obtain ⟨_, _, rfl⟩ := List.mem_map.mp inEntries
    cases same
  obtain ⟨leaf, inLeaves, undecodable⟩ :=
    (lost_of_timestamp grown distinct (perm.mem_iff.mpr member) last).exists_leaf grown
  have none : (decodeObjectSample leaf.2).toOption.isNone = true := by
    cases decoded : decodeObjectSample leaf.2 with
    | error fault => rfl
    | ok sample => exact absurd decoded (undecodable sample)
  rw [flattenObject_eq, Flat.dropped_addAll]
  exact List.append_ne_nil_of_right_ne_nil _
    (List.ne_nil_of_mem (List.mem_map_of_mem (List.mem_filter.mpr ⟨inLeaves, none⟩)))

end Telemetry.Snapshot
