import Mathlib.Data.List.Induction
import Telemetry.Value.Fields

/-!
Field lists as finite maps. A list in which no name occurs twice is known by the pairs it holds,
whatever their order.
-/

namespace Telemetry.FieldList

variable {α β : Type} {fields other : FieldList α} {name : String} {item : α}

theorem get?_eq_none_iff : get? fields name = none ↔ name ∉ names fields := by
  induction fields with
  | nil => simp [names]
  | cons field rest ih =>
    rw [get?_cons]
    by_cases same : field.1 = name
    · simp [same, names]
    · simpa [same, names, Ne.symm same] using ih

/-- Where names occur once, a list holds an item under a name if the two are a pair of it. -/
theorem get?_eq_some_iff (distinct : (names fields).Nodup) :
    get? fields name = some item ↔ (name, item) ∈ fields := by
  induction fields with
  | nil => simp
  | cons field rest ih =>
    obtain ⟨fresh, later⟩ := List.nodup_cons.mp distinct
    rw [get?_cons]
    by_cases same : field.1 = name
    · have absent : (name, item) ∉ rest := fun member =>
        fresh (same ▸ List.mem_map_of_mem member)
      obtain ⟨key, old⟩ := field
      obtain rfl := same
      simp [absent, eq_comm]
    · have different : (name, item) ≠ field := fun h => same (h ▸ rfl)
      simp [same, different, ih later]

theorem get?_of_perm (same : fields.Perm other) (distinct : (names fields).Nodup) :
    get? fields name = get? other name := by
  have distinct' : (names other).Nodup := (same.map Prod.fst).nodup_iff.mp distinct
  apply Option.ext
  intro item
  rw [get?_eq_some_iff distinct, get?_eq_some_iff distinct', same.mem_iff]

theorem get?_append :
    get? (fields ++ other) name = (get? fields name).or (get? other name) := by
  induction fields with
  | nil => rfl
  | cons field rest ih =>
    rw [List.cons_append, get?_cons, get?_cons, ih]
    split <;> rfl

theorem get?_map (f : α → β) :
    get? (fields.map fun field => (field.1, f field.2)) name = (get? fields name).map f := by
  induction fields with
  | nil => rfl
  | cons field rest ih =>
    rw [List.map_cons, get?_cons, get?_cons, ih]
    split <;> rfl

theorem exists_split (h : get? fields name = some item) : ∃ before after,
    fields = before ++ (name, item) :: after ∧
      ∀ other, insert fields name other = before ++ (name, other) :: after := by
  induction fields with
  | nil => cases h
  | cons field rest ih =>
    rw [get?_cons] at h
    by_cases same : field.1 = name
    · rw [if_pos same] at h
      cases h
      obtain ⟨key, old⟩ := field
      obtain rfl := same
      exact ⟨[], rest, rfl, fun other => by rw [insert, if_pos rfl, List.nil_append]⟩
    · rw [if_neg same] at h
      obtain ⟨before, after, rfl, inserted⟩ := ih h
      refine ⟨field :: before, after, rfl, fun other => ?_⟩
      rw [List.cons_append, insert, if_neg same, inserted]

/-! ### Updates -/

variable {a b : α}

theorem mem_names_insert {other : String} :
    other ∈ names (insert fields name item) ↔ other = name ∨ other ∈ names fields := by
  induction fields with
  | nil => simp [insert, names]
  | cons field rest ih =>
    by_cases same : field.1 = name
    · simp [insert, names, same]
    · rw [insert, if_neg same]
      show other ∈ field.1 :: names (insert rest name item) ↔ _ ∨ other ∈ field.1 :: names rest
      rw [List.mem_cons, List.mem_cons, ih]
      exact or_left_comm

theorem nodup_names_insert (distinct : (names fields).Nodup) :
    (names (insert fields name item)).Nodup := by
  induction fields with
  | nil => simp [insert, names]
  | cons field rest ih =>
    obtain ⟨fresh, later⟩ := List.nodup_cons.mp distinct
    by_cases same : field.1 = name
    · rw [insert, if_pos same]
      exact distinct
    · rw [insert, if_neg same]
      refine List.nodup_cons.mpr ⟨fun member => ?_, ih later⟩
      rcases mem_names_insert.mp member with taken | taken
      · exact same taken
      · exact fresh taken

theorem insert_insert_same : insert (insert fields name a) name b = insert fields name b := by
  induction fields with
  | nil => simp [insert]
  | cons field rest ih => by_cases same : field.1 = name <;> simp [insert, same, ih]

/-- A name that is there keeps its place, whatever else is set before or after. -/
theorem insert_insert_of_mem {other : String} (present : name ∈ names fields) (ne : other ≠ name) :
    insert (insert fields other a) name b = insert (insert fields name b) other a := by
  induction fields with
  | nil => cases present
  | cons field rest ih =>
    by_cases same : field.1 = name
    · have differs : name ≠ other := ne.symm
      simp [insert, same, differs]
    · have inRest : name ∈ names rest := (List.mem_cons.mp present).resolve_left (Ne.symm same)
      by_cases taken : field.1 = other
      · simp [insert, taken, ne]
      · simp [insert, taken, same, ih inRest]

theorem merge_append (update more : FieldList α) :
    merge fields (update ++ more) = merge (merge fields update) more :=
  List.foldl_append

/-- New names go to the end in turn. -/
theorem merge_eq_append {update : FieldList α} (distinct : (names (fields ++ update)).Nodup) :
    merge fields update = fields ++ update := by
  induction update generalizing fields with
  | nil => exact (List.append_nil fields).symm
  | cons field rest ih =>
    have fresh : get? fields field.1 = none := by
      rw [get?_eq_none_iff]
      intro member
      rw [names, List.map_append, List.nodup_append] at distinct
      exact distinct.2.2 _ member _ List.mem_cons_self rfl
    show merge (insert fields field.1 field.2) rest = fields ++ field :: rest
    rw [insert_of_get?_eq_none fresh, ih]
    · exact List.append_assoc fields [field] rest
    · rwa [List.append_assoc]

/-- Fields whose names are distinct stay as they are when they are collected. -/
theorem ofList_eq_self (distinct : (names fields).Nodup) : ofList fields = fields :=
  merge_eq_append distinct

theorem nodup_names_merge {update : FieldList α} (distinct : (names fields).Nodup) :
    (names (merge fields update)).Nodup := by
  induction update generalizing fields with
  | nil => exact distinct
  | cons field rest ih => exact ih (nodup_names_insert distinct)

theorem nodup_names_ofList {pairs : List (String × α)} : (names (ofList pairs)).Nodup :=
  nodup_names_merge List.Pairwise.nil

theorem insert_merge_of_mem {update : FieldList α} (present : name ∈ names fields)
    (absent : name ∉ names update) :
    insert (merge fields update) name item = merge (insert fields name item) update := by
  induction update generalizing fields with
  | nil => rfl
  | cons field rest ih =>
    obtain ⟨ne, later⟩ := not_or.mp (mt List.mem_cons.mpr absent)
    show insert (merge (insert fields field.1 field.2) rest) name item =
      merge (insert (insert fields name item) field.1 field.2) rest
    rw [ih (mem_names_insert.mpr (.inr present)) later, insert_insert_of_mem present (Ne.symm ne)]

theorem merge_insert {update : FieldList α} (distinct : (names update).Nodup) :
    merge fields (insert update name item) = insert (merge fields update) name item := by
  induction update generalizing fields with
  | nil => rfl
  | cons field rest ih =>
    obtain ⟨fresh, later⟩ := List.nodup_cons.mp distinct
    by_cases same : field.1 = name
    · obtain ⟨key, old⟩ := field
      obtain rfl := same
      have present : key ∈ names (insert fields key old) := mem_names_insert.mpr (.inl rfl)
      rw [insert, if_pos rfl]
      show merge (insert fields key item) rest = insert (merge (insert fields key old) rest) key item
      rw [insert_merge_of_mem present fresh, insert_insert_same]
    · rw [insert, if_neg same]
      exact ih later

/-- Fields collected on their own update a list as they would one by one. -/
theorem merge_ofList (pairs : List (String × α)) :
    merge fields (ofList pairs) = merge fields pairs := by
  induction pairs using List.reverseRecOn with
  | nil => rfl
  | append_singleton rest field ih =>
    have collected : ofList (rest ++ [field]) = insert (ofList rest) field.1 field.2 :=
      merge_append rest [field]
    rw [collected, merge_insert nodup_names_ofList, ih, merge_append]
    rfl

end Telemetry.FieldList
