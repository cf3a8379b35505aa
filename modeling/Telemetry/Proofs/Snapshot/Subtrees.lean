import Telemetry.Proofs.Snapshot.Accounting

/-!
Subtrees of a tree. The leaves below a path are those of the subtree at its end, in the same order. As
no segment holds a slash, what is below a path can be told by its name.
-/

namespace Telemetry.Snapshot

variable {β : Type} {leafOf : Value → Option β} {node : List (String × Value)}
  {v child sub : Value} {segment start : String} {segments rest a b : List String}

def descend : Value → List String → Option Value
  | v, [] => some v
  | .object node, segment :: rest =>
    (FieldList.get? node segment).bind fun child => descend child rest
  | _, _ :: _ => none

/-- Whether a name is the path itself or below it. -/
def isWithin (path name : String) : Bool :=
  name = path || (path ++ "/").toList.isPrefixOf name.toList

/-! ### Leaves below a path -/

theorem Distinct.nodup_names (distinct : Distinct node) : (FieldList.names node).Nodup := by
  induction distinct with
  | nil => exact List.nodup_nil
  | cons fresh _ _ _ ih => exact List.nodup_cons.mpr ⟨fresh, ih⟩

theorem Distinct.of_get? (distinct : Distinct node) (found : FieldList.get? node segment = some child) :
    ∀ below, child = .object below → Distinct below := by
  rintro below rfl
  have inner : Distinct (Snapshot.subtree node segment) := distinct.subtree
  rwa [Snapshot.subtree, found] at inner

theorem filter_leavesFields_of_fresh (fresh : segment ∉ FieldList.names node) :
    (leavesFields leafOf node).filter (fun leaf => (segment :: rest).isPrefixOf leaf.1) = [] := by
  rw [List.filter_eq_nil_iff]
  intro leaf member starts
  obtain ⟨name, inNode, head⟩ := head_of_mem_leavesFields member
  obtain ⟨more, same⟩ := List.isPrefixOf_iff_prefix.mp starts
  rw [← same] at head
  obtain rfl : segment = name := Option.some.inj head
  exact fresh inNode

theorem filter_leaves (walks : ∀ node, leafOf (.object node) = none) (segments : List String) :
    ∀ v : Value, (∀ node, v = .object node → Distinct node) → descend v segments = some sub →
      (leaves leafOf v).filter (fun leaf => segments.isPrefixOf leaf.1) =
        (leaves leafOf sub).map fun leaf => (segments ++ leaf.1, leaf.2) := by
  induction segments with
  | nil =>
    intro v _ leads
    obtain rfl := Option.some.inj leads
    simp
  | cons segment rest ih =>
    intro v distinct leads
    cases v with
    | object node =>
      obtain ⟨child, found, deeper⟩ := Option.bind_eq_some_iff.mp leads
      have inner := (distinct node rfl).of_get? found
      have names := (distinct node rfl).nodup_names
      -- no name but the first of the path leads to a leaf below it
      obtain ⟨before, after, rfl, -⟩ := FieldList.exists_split found
      rw [FieldList.names, List.map_append, List.map_cons] at names
      obtain ⟨fresh, -⟩ := List.nodup_cons.mp (List.nodup_middle.mp names)
      obtain ⟨freshBefore, freshAfter⟩ := not_or.mp (mt List.mem_append.mpr fresh)
      have here := ih child inner deeper
      rw [leaves, walks, leavesFields_append, leavesFields, List.filter_append, List.filter_append,
        filter_leavesFields_of_fresh freshBefore, filter_leavesFields_of_fresh freshAfter,
        List.append_nil, List.nil_append, List.filter_map]
      simpa [Function.comp_def] using congrArg (List.map fun leaf => (segment :: leaf.1, leaf.2)) here
    | _ => cases leads

/-! ### Names below a path -/

theorem toList_pathText :
    (pathText start segments).toList =
      start.toList ++ segments.flatMap fun segment => '/' :: segment.toList := by
  induction segments generalizing start with
  | nil => simp [pathText]
  | cons segment rest ih =>
    show (pathText (childPath start segment) rest).toList = _
    rw [ih]
    simp [childPath]

theorem isWithin_iff {path name : String} : isWithin path name = true ↔
    name = path ∨ ∃ rest, name.toList = path.toList ++ '/' :: rest := by
  unfold isWithin
  rw [Bool.or_eq_true, decide_eq_true_eq, List.isPrefixOf_iff_prefix]
  refine or_congr_right (exists_congr fun rest => ?_)
  simp [eq_comm]

theorem isWithin_pathText (slashless : ∀ segment ∈ a, '/' ∉ segment.toList)
    (slashless' : ∀ segment ∈ b, '/' ∉ segment.toList) :
    isWithin (pathText start a) (pathText start b) = a.isPrefixOf b := by
  rw [Bool.eq_iff_iff, isWithin_iff, List.isPrefixOf_iff_prefix]
  constructor
  · rintro (same | ⟨rest, below⟩)
    · rw [pathText_injective slashless' slashless same]
    · have cut := congrArg (Text.pieces '/') below
      rw [Text.pieces_append_cons, pieces_pathText slashless, pieces_pathText slashless',
        List.append_assoc] at cut
      have texts : a.map String.toList <+: b.map String.toList :=
        ⟨_, (List.append_cancel_left cut).symm⟩
      exact (List.prefix_map_iff_of_injective fun _ _ same => String.toList_injective same).mp texts
  · rintro ⟨more, rfl⟩
    cases more with
    | nil => exact .inl (by rw [List.append_nil])
    | cons next others =>
      refine .inr ⟨next.toList ++ others.flatMap fun segment => '/' :: segment.toList, ?_⟩
      simp [toList_pathText]

/-! ### Entries below a path -/

theorem slashless_of_get? : ∀ node : List (String × Value), slashlessFields node = true →
    FieldList.get? node segment = some child →
    '/' ∉ segment.toList ∧ slashless child = true
  | (name, first) :: others, plain, found => by
    rw [slashlessFields, Bool.and_eq_true, Bool.and_eq_true] at plain
    obtain ⟨⟨here, inner⟩, later⟩ := plain
    rw [FieldList.get?_cons] at found
    split at found
    · rename_i same
      cases found
      obtain rfl : name = segment := same
      exact ⟨by simpa using here, inner⟩
    · exact slashless_of_get? others later found

theorem slashless_of_descend (segments : List String) : ∀ v : Value, slashless v = true →
    descend v segments = some sub → ∀ segment ∈ segments, '/' ∉ segment.toList := by
  induction segments with
  | nil =>
    intro _ _ _ segment none
    cases none
  | cons segment rest ih =>
    intro v plain leads
    cases v with
    | object node =>
      obtain ⟨child, found, deeper⟩ := Option.bind_eq_some_iff.mp leads
      obtain ⟨here, inner⟩ := slashless_of_get? node plain found
      exact List.forall_mem_cons.mpr ⟨here, ih child inner deeper⟩
    | _ => cases leads

theorem nodup_names_entriesAt_leaves (distinct : ∀ node, v = .object node → Distinct node)
    (plain : slashless v = true) : (FieldList.names (entriesAt start (leaves leafOf v))).Nodup := by
  rw [FieldList.names, entriesAt, List.map_map]
  exact nodup_paths distinct plain

/-- The properties of a subtree are those of the tree within its path. -/
theorem flattenProperties_descend (distinct : ∀ node, v = .object node → Distinct node)
    (plain : slashless v = true) (leads : descend v segments = some sub) :
    flattenProperties (pathText start segments) [] sub =
      (flattenProperties start [] v).filter fun entry =>
        isWithin (pathText start segments) entry.1 := by
  have onPath := slashless_of_descend segments v plain leads
  have told : ∀ leaf ∈ leaves propertyLeaf v,
      isWithin (pathText start segments) (pathText start leaf.1) = segments.isPrefixOf leaf.1 :=
    fun leaf member => isWithin_pathText onPath (slashless_segments v plain leaf member)
  have within : (entriesAt start (leaves propertyLeaf v)).filter
        (fun entry => isWithin (pathText start segments) entry.1) =
      entriesAt (pathText start segments) (leaves propertyLeaf sub) := by
    rw [entriesAt, List.filter_map, Function.comp_def, List.filter_congr told,
      filter_leaves (fun _ => rfl) segments v distinct leads, List.map_map]
    simp [entriesAt, pathText, Function.comp_def]
  have names : (FieldList.names (entriesAt start (leaves propertyLeaf v))).Nodup :=
    nodup_names_entriesAt_leaves distinct plain
  have part : (FieldList.names
      (entriesAt (pathText start segments) (leaves propertyLeaf sub))).Nodup := by
    rw [← within]
    exact names.sublist (List.filter_sublist.map _)
  rw [flattenProperties_eq_entriesAt names, flattenProperties_eq_entriesAt part, within]

end Telemetry.Snapshot
