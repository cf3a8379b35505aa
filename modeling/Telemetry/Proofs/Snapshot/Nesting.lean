import Telemetry.Proofs.Text.Split
import Telemetry.Proofs.Snapshot.Leaves

/-!
Trees put together from paths. Each path is laid into the tree segment by segment, and the leaves
of the tree are then the paths again, unless a node on the way is taken for a leaf.
-/

namespace Telemetry.Snapshot

variable {α β : Type}

/-! ### Paths -/

/-- Paths of one or more segments without slashes, none of them the start of another. -/
structure PrefixFree (paths : List (List String)) : Prop where
  nonempty : ∀ path ∈ paths, path ≠ []
  slashless : ∀ path ∈ paths, ∀ segment ∈ path, '/' ∉ segment.toList
  apart : paths.Pairwise fun a b => ¬a <+: b ∧ ¬b <+: a

instance (paths : List (List String)) : Decidable (PrefixFree paths) :=
  decidable_of_iff ((∀ path ∈ paths, path ≠ []) ∧
      (∀ path ∈ paths, ∀ segment ∈ path, '/' ∉ segment.toList) ∧
      paths.Pairwise fun a b => ¬a <+: b ∧ ¬b <+: a)
    ⟨fun h => ⟨h.1, h.2.1, h.2.2⟩, fun free => ⟨free.nonempty, free.slashless, free.apart⟩⟩

theorem PrefixFree.of_append {paths more : List (List String)} (free : PrefixFree (paths ++ more)) :
    PrefixFree paths where
  nonempty := fun path member => free.nonempty path (List.mem_append_left _ member)
  slashless := fun path member => free.slashless path (List.mem_append_left _ member)
  apart := (List.pairwise_append.mp free.apart).1

theorem pieces_pathText {start : String} {segments : List String}
    (slashless : ∀ segment ∈ segments, '/' ∉ segment.toList) :
    Text.pieces '/' (pathText start segments).toList =
      Text.pieces '/' start.toList ++ segments.map String.toList := by
  induction segments generalizing start with
  | nil => exact (List.append_nil _).symm
  | cons segment rest ih =>
    obtain ⟨plain, others⟩ := List.forall_mem_cons.mp slashless
    have child : (childPath start segment).toList = start.toList ++ '/' :: segment.toList := by
      simp [childPath]
    show Text.pieces '/' (pathText (childPath start segment) rest).toList = _
    rw [ih others, child, Text.pieces_append_cons, Text.pieces_of_not_mem plain, List.append_assoc]
    rfl

/-- Without slashes in segments, paths of one text are one path. -/
theorem pathText_injective {start : String} {a b : List String}
    (slashless : ∀ segment ∈ a, '/' ∉ segment.toList)
    (slashless' : ∀ segment ∈ b, '/' ∉ segment.toList)
    (same : pathText start a = pathText start b) : a = b := by
  have pieces := congrArg (fun text => Text.pieces '/' text.toList) same
  rw [pieces_pathText slashless, pieces_pathText slashless'] at pieces
  have texts : a.map String.toList = b.map String.toList := List.append_cancel_left pieces
  exact List.map_injective_iff.mpr (fun _ _ same => String.toList_injective same) texts

/-! ### Trees -/

def subtree (node : List (String × Value)) (segment : String) : List (String × Value) :=
  match FieldList.get? node segment with
  | some (.object below) => below
  | _ => []

/-- A node with a value laid at the end of a path below it. -/
def graft (v : Value) : List String → List (String × Value) → List (String × Value)
  | [], node => node
  | [segment], node => FieldList.insert node segment v
  | segment :: next :: rest, node =>
    FieldList.insert node segment (.object (graft v (next :: rest) (subtree node segment)))

def nestFields (entries : List (List String × Value)) : List (String × Value) :=
  entries.foldl (fun node entry => graft entry.2 entry.1 node) []

/-- The tree that holds each value under the segments of its path. -/
def nest (entries : List (List String × Value)) : Value :=
  .object (nestFields entries)

/-- A node that has grown from paths. Below it are leaves, of the names and values that are allowed,
and nodes that are not empty. -/
inductive Grown (leafOf : Value → Option β) (allows : String → Value → Prop) :
    List (String × Value) → Prop
  | nil : Grown leafOf allows []
  | leaf {segment : String} {child : Value} {leaf : β} {rest : List (String × Value)}
    (allowed : allows segment child) (isLeaf : leafOf child = some leaf)
    (later : Grown leafOf allows rest) : Grown leafOf allows ((segment, child) :: rest)
  | tree {segment : String} {below rest : List (String × Value)} (nonempty : below ≠ [])
    (grown : Grown leafOf allows below) (later : Grown leafOf allows rest) :
    Grown leafOf allows ((segment, .object below) :: rest)

variable {leafOf : Value → Option β} {allows : String → Value → Prop}
  {node more : List (String × Value)} {segment name : String} {child v : Value} {leaf : β}

theorem leaves_of_leaf (isLeaf : leafOf child = some leaf) : leaves leafOf child = [([], leaf)] := by
  cases child <;> simp [leaves, isLeaf]

theorem mem_leavesFields {found : List String × β} (h : found ∈ leaves leafOf child) :
    (segment :: found.1, found.2) ∈ leavesFields leafOf ((segment, child) :: more) :=
  List.mem_append_left _ (List.mem_map_of_mem h)

theorem ne_nil_of_mem_leavesFields {found : List String × β} (h : found ∈ leavesFields leafOf node) :
    found.1 ≠ [] := by
  induction node with
  | nil => cases h
  | cons field rest ih =>
    rcases List.mem_append.mp h with here | there
    · obtain ⟨below, -, rfl⟩ := List.mem_map.mp here
      exact List.cons_ne_nil _ _
    · exact ih there

theorem leavesFields_append :
    leavesFields leafOf (node ++ more) = leavesFields leafOf node ++ leavesFields leafOf more := by
  induction node with
  | nil => rfl
  | cons field rest ih =>
    obtain ⟨segment, child⟩ := field
    simp [leavesFields, ih]

/-- A new name brings its leaf and changes no other. -/
theorem leavesFields_new {path : List String}
    (below : (leaves leafOf child).Perm [(path, leaf)]) :
    (leavesFields leafOf (node ++ [(segment, child)])).Perm
      ((segment :: path, leaf) :: leavesFields leafOf node) := by
  have single : (leavesFields leafOf [(segment, child)]).Perm [(segment :: path, leaf)] := by
    simpa [leavesFields] using below.map fun found => (segment :: found.1, found.2)
  rw [leavesFields_append]
  exact (single.append_left _).trans (List.perm_append_singleton _ _)

/-- A subtree that gains a leaf brings it, wherever it stands. -/
theorem leavesFields_changed {path : List String} {before after : List (String × Value)}
    {old : Value} (below : (leaves leafOf child).Perm ((path, leaf) :: leaves leafOf old)) :
    (leavesFields leafOf (before ++ (segment, child) :: after)).Perm
      ((segment :: path, leaf) :: leavesFields leafOf (before ++ (segment, old) :: after)) := by
  have changed := below.map fun found => (segment :: found.1, found.2)
  rw [leavesFields_append, leavesFields_append, leavesFields, leavesFields]
  refine ((changed.append_right _).append_left _).trans ?_
  exact List.perm_middle

namespace Grown

theorem append (first : Grown leafOf allows node) (next : Grown leafOf allows more) :
    Grown leafOf allows (node ++ more) := by
  induction first with
  | nil => exact next
  | leaf allowed isLeaf _ ih => exact .leaf allowed isLeaf ih
  | tree nonempty grown _ _ ih => exact .tree nonempty grown ih

theorem of_append (grown : Grown leafOf allows (node ++ more)) :
    Grown leafOf allows node ∧ Grown leafOf allows more := by
  induction node with
  | nil => exact ⟨.nil, grown⟩
  | cons field rest ih =>
    cases grown with
    | leaf allowed isLeaf later => exact ⟨.leaf allowed isLeaf (ih later).1, (ih later).2⟩
    | tree nonempty grown later => exact ⟨.tree nonempty grown (ih later).1, (ih later).2⟩

/-- A name under which no leaf but an object is allowed holds no scalar. -/
theorem holdsScalar_eq_false (grown : Grown leafOf allows node)
    (objects : ∀ child, allows name child → child.isObject = true) : holdsScalar node name = false := by
  induction grown with
  | nil => rfl
  | @leaf segment child leaf rest allowed _ _ ih =>
    by_cases same : segment = name
    · subst same
      simp [holdsScalar, FieldList.get?_cons, objects child allowed]
    · simpa [holdsScalar, FieldList.get?_cons, same] using ih
  | @tree segment below rest _ _ _ _ ih =>
    by_cases same : segment = name
    · simp [holdsScalar, FieldList.get?_cons, same, Value.isObject]
    · simpa [holdsScalar, FieldList.get?_cons, same] using ih

end Grown

/-- The rule takes no node that has grown for a leaf. -/
def Walks (leafOf : Value → Option β) (allows : String → Value → Prop) : Prop :=
  ∀ node, Grown leafOf allows node → leafOf (.object node) = none

section

variable (walks : Walks leafOf allows)

include walks

theorem leaves_of_grown (grown : Grown leafOf allows node) :
    leaves leafOf (.object node) = leavesFields leafOf node := by
  rw [leaves, walks node grown]

theorem Grown.exists_leaf (grown : Grown leafOf allows node) (nonempty : node ≠ []) :
    ∃ found, found ∈ leavesFields leafOf node := by
  induction grown with
  | nil => contradiction
  | leaf allowed isLeaf later _ =>
    exact ⟨_, mem_leavesFields (by rw [leaves_of_leaf isLeaf]; exact List.mem_cons_self)⟩
  | tree inner grown later below _ =>
    obtain ⟨found, member⟩ := below inner
    rw [← leaves_of_grown walks grown] at member
    exact ⟨_, mem_leavesFields member⟩

theorem Grown.exists_leaf_below (grown : Grown leafOf allows ((segment, child) :: more)) :
    ∃ found ∈ leaves leafOf child, (segment :: found.1, found.2) ∈
      leavesFields leafOf ((segment, child) :: more) := by
  have below : ∃ found, found ∈ leaves leafOf child := by
    cases grown with
    | leaf allowed isLeaf later =>
      exact ⟨_, by rw [leaves_of_leaf isLeaf]; exact List.mem_cons_self⟩
    | tree nonempty grown later =>
      obtain ⟨found, member⟩ := grown.exists_leaf walks nonempty
      exact ⟨found, by rwa [leaves_of_grown walks grown]⟩
  obtain ⟨found, member⟩ := below
  exact ⟨found, member, mem_leavesFields member⟩

/-- What is laid at the end of a path becomes a leaf there, and all other leaves stay. -/
theorem grown_graft (isLeaf : leafOf v = some leaf) : ∀ (segments : List String)
    (node : List (String × Value)), segments ≠ [] →
    (∀ last, segments.getLast? = some last → allows last v) → Grown leafOf allows node →
    (∀ found ∈ leavesFields leafOf node, ¬found.1 <+: segments ∧ ¬segments <+: found.1) →
    Grown leafOf allows (graft v segments node) ∧ graft v segments node ≠ [] ∧
      (leavesFields leafOf (graft v segments node)).Perm
        ((segments, leaf) :: leavesFields leafOf node)
  | [], _, nonempty, _, _, _ => absurd rfl nonempty
  | [segment], node, _, allowed, grown, apart => by
    cases present : FieldList.get? node segment with
    | none =>
      rw [graft, FieldList.insert_of_get?_eq_none present]
      refine ⟨grown.append (.leaf (allowed segment rfl) isLeaf .nil), by simp, ?_⟩
      exact leavesFields_new (by rw [leaves_of_leaf isLeaf])
    | some child =>
      -- a name that is taken has a leaf below it, which the path would be the start of
      obtain ⟨before, after, rfl, -⟩ := FieldList.exists_split present
      obtain ⟨found, -, member⟩ := grown.of_append.2.exists_leaf_below walks
      have inNode := List.mem_append_right (leavesFields leafOf before) member
      rw [← leavesFields_append] at inNode
      exact absurd (List.cons_prefix_cons.mpr ⟨rfl, List.nil_prefix⟩) (apart _ inNode).2
  | segment :: next :: rest, node, _, allowed, grown, apart => by
    have deeper := grown_graft isLeaf (next :: rest) (subtree node segment) (by simp)
      fun last isLast => allowed last (by simpa using isLast)
    cases present : FieldList.get? node segment with
    | none =>
      have empty : subtree node segment = [] := by rw [subtree, present]
      rw [empty] at deeper
      obtain ⟨grafted, nonempty, found⟩ := deeper .nil (by simp [leavesFields])
      rw [graft, FieldList.insert_of_get?_eq_none present, empty]
      refine ⟨grown.append (.tree nonempty grafted .nil), by simp, ?_⟩
      exact leavesFields_new (by rw [leaves_of_grown walks grafted]; exact found)
    | some child =>
      obtain ⟨before, after, rfl, inserted⟩ := FieldList.exists_split present
      obtain ⟨grownBefore, grownAfter⟩ := grown.of_append
      have inNode : ∀ found ∈ leaves leafOf child, (segment :: found.1, found.2) ∈
          leavesFields leafOf (before ++ (segment, child) :: after) := by
        intro found member
        rw [leavesFields_append]
        exact List.mem_append_right _ (mem_leavesFields member)
      cases grownAfter with
      | @leaf _ _ other _ _ isOther later =>
        -- the path would lead through a leaf
        have member := inNode ([], other) (by rw [leaves_of_leaf isOther]; exact List.mem_cons_self)
        exact absurd (List.cons_prefix_cons.mpr ⟨rfl, List.nil_prefix⟩) (apart _ member).1
      | @tree _ below _ nonempty grownBelow later =>
        have isBelow : subtree (before ++ (segment, .object below) :: after) segment = below := by
          rw [subtree, present]
        rw [isBelow] at deeper
        obtain ⟨grafted, nonempty, found⟩ := deeper grownBelow fun found member => by
          rw [← leaves_of_grown walks grownBelow] at member
          have := apart _ (inNode found member)
          simpa [List.cons_prefix_cons] using this
        rw [graft, inserted, isBelow]
        refine ⟨grownBefore.append (.tree nonempty grafted later), by simp, ?_⟩
        refine leavesFields_changed ?_
        rw [leaves_of_grown walks grafted, leaves_of_grown walks grownBelow]
        exact found

/-- The leaves of a tree are the paths that it was put together from. -/
theorem leaves_nest (put : β → Value) {entries : List (List String × β)}
    (free : PrefixFree (entries.map Prod.fst))
    (isLeaf : ∀ entry ∈ entries, leafOf (put entry.2) = some entry.2)
    (allowed : ∀ entry ∈ entries, ∀ last, entry.1.getLast? = some last → allows last (put entry.2)) :
    Grown leafOf allows (nestFields (entries.map fun entry => (entry.1, put entry.2))) ∧
      (leavesFields leafOf (nestFields (entries.map fun entry => (entry.1, put entry.2)))).Perm
        entries := by
  induction entries using List.reverseRecOn with
  | nil => exact ⟨.nil, .refl _⟩
  | append_singleton rest entry ih =>
    rw [List.map_append] at free
    have isLast : entry ∈ rest ++ [entry] := List.mem_append_right _ List.mem_cons_self
    have earlier : ∀ other ∈ rest, other ∈ rest ++ [entry] := fun _ => List.mem_append_left _
    obtain ⟨grown, found⟩ := ih free.of_append (fun other member => isLeaf other (earlier other member))
      fun other member => allowed other (earlier other member)
    have nonempty : entry.1 ≠ [] := free.nonempty _ (List.mem_append_right _ List.mem_cons_self)
    have apart : ∀ leaf ∈ leavesFields leafOf
        (nestFields (rest.map fun entry => (entry.1, put entry.2))),
        ¬leaf.1 <+: entry.1 ∧ ¬entry.1 <+: leaf.1 := by
      intro leaf member
      obtain ⟨-, -, pairs⟩ := List.pairwise_append.mp free.apart
      exact pairs _ (List.mem_map_of_mem (found.mem_iff.mp member)) _ List.mem_cons_self
    obtain ⟨grafted, -, after⟩ := grown_graft walks (isLeaf entry isLast) entry.1 _ nonempty
      (allowed entry isLast) grown apart
    have last : nestFields ((rest ++ [entry]).map fun entry => (entry.1, put entry.2)) =
        graft (put entry.2) entry.1 (nestFields (rest.map fun entry => (entry.1, put entry.2))) := by
      rw [nestFields, List.map_append, List.foldl_append]
      rfl
    rw [last]
    refine ⟨grafted, after.trans ?_⟩
    exact (found.cons entry).trans (List.perm_append_singleton entry rest).symm

end

end Telemetry.Snapshot
