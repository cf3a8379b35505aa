import Telemetry.MappingType.Typing

/-!
Sequences are typed by their elements. A list or a tuple can be sent as the arrays of exactly those
scalar types that each of its elements can be sent as, so neither the order of the elements counts nor
how often one occurs.
-/

namespace Telemetry

namespace Value

variable {v item : Value} {items : List Value} {candidates : List Scalar} {s : Scalar}
  {type : MappingType} {r : TypedValue}

def sequence? : Value → Option (List Value)
  | .list items | .tuple items => some items
  | _ => none

/-! ### Candidates that are taken away -/

theorem sharedTypes_eq : sharedTypes candidates items =
    candidates.filter fun s => items.all fun item => item.scalarTypes.contains s := by
  induction items generalizing candidates with
  | nil => exact (List.filter_eq_self.mpr fun _ _ => rfl).symm
  | cons item rest ih =>
    have step : sharedTypes candidates (item :: rest) =
        sharedTypes (candidates.filter (item.scalarTypes.contains ·)) rest := rfl
    rw [step, ih, List.filter_filter]
    simp only [List.all_cons, Bool.and_comm]

theorem mem_all (s : Scalar) : s ∈ Scalar.all := by
  cases s <;> decide

theorem mem_sharedTypes : s ∈ sharedTypes Scalar.all items ↔ ∀ item ∈ items, s ∈ item.scalarTypes := by
  simp [sharedTypes_eq, mem_all]

/-! ### Types of single values and of sequences -/

theorem scalarTypes_of_sequence (sequence : v.sequence? = some items) : v.scalarTypes = [] := by
  cases v <;> first | rfl | cases sequence

theorem mappingTypes_of_sequence (sequence : v.sequence? = some items) :
    v.mappingTypes = (sharedTypes Scalar.all items).map (⟨·, true⟩) := by
  cases v <;> cases sequence <;> rfl

theorem mem_mappingTypes_sequence (sequence : v.sequence? = some items) :
    type ∈ v.mappingTypes ↔
      type.isArray = true ∧ ∀ item ∈ items, type.scalar ∈ item.scalarTypes := by
  rw [mappingTypes_of_sequence sequence, List.mem_map]
  constructor
  · rintro ⟨s, member, rfl⟩
    exact ⟨rfl, mem_sharedTypes.mp member⟩
  · rintro ⟨array, each⟩
    exact ⟨type.scalar, mem_sharedTypes.mpr each, by rw [← array]⟩

/-- A sequence has neither scalar types of its own nor a mapping type that is no array. -/
theorem mem_mappingTypes_single : ⟨s, false⟩ ∈ v.mappingTypes ↔ s ∈ v.scalarTypes := by
  cases sequence : v.sequence? with
  | some items => simp [mem_mappingTypes_sequence sequence, scalarTypes_of_sequence sequence]
  | none =>
    have single : v.mappingTypes = v.scalarTypes.map (⟨·, false⟩) := by
      cases v <;> first | rfl | cases sequence
    simp [single]

theorem check_eq_ok_iff :
    type.check v = .ok r ↔ type ∈ v.mappingTypes ∧ r = ⟨type, v⟩ := by
  unfold MappingType.check
  split <;> simp_all [eq_comm]

theorem exists_check_iff : (∃ r, type.check v = .ok r) ↔ type ∈ v.mappingTypes := by
  simp [check_eq_ok_iff]

/-! ### Sequences -/

/-- How a sequence is typed, said of its elements alone. -/
structure TypedByElements (v : Value) (items : List Value) : Prop where
  types : ∀ type, type ∈ v.mappingTypes ↔ type.isArray = true ∧
    ∀ item ∈ items, item.sequence? = none ∧ type.element ∈ item.mappingTypes
  empty : items = [] → v.mappingTypes = Scalar.all.map (⟨·, true⟩)
  nested : (∃ item ∈ items, item.sequence?.isSome = true) → v.mappingTypes = []
  rearranged : ∀ (w : Value) others, w.sequence? = some others →
    (∀ item, item ∈ items ↔ item ∈ others) → v.mappingTypes = w.mappingTypes
  joined : ∀ (w whole : Value) others, w.sequence? = some others →
    whole.sequence? = some (items ++ others) →
    ∀ type, type ∈ whole.mappingTypes ↔ type ∈ v.mappingTypes ∧ type ∈ w.mappingTypes
  checked : ∀ s r, MappingType.check ⟨s, true⟩ v = .ok r ↔
    r = ⟨⟨s, true⟩, v⟩ ∧ ∀ item ∈ items, ∃ typed, MappingType.check ⟨s, false⟩ item = .ok typed

theorem mem_element_iff : s ∈ item.scalarTypes ↔
    item.sequence? = none ∧ ⟨s, false⟩ ∈ item.mappingTypes := by
  rw [mem_mappingTypes_single]
  refine ⟨fun member => ⟨?_, member⟩, And.right⟩
  cases sequence : item.sequence? with
  | none => rfl
  | some items => simp [scalarTypes_of_sequence sequence] at member

theorem mappingTypes_congr {w : Value} {others : List Value} (first : v.sequence? = some items)
    (second : w.sequence? = some others) (same : ∀ item, item ∈ items ↔ item ∈ others) :
    v.mappingTypes = w.mappingTypes := by
  have shared : sharedTypes Scalar.all items = sharedTypes Scalar.all others := by
    rw [sharedTypes_eq, sharedTypes_eq]
    refine List.filter_congr fun s _ => ?_
    rw [Bool.eq_iff_iff, List.all_eq_true, List.all_eq_true]
    exact forall_congr' fun item => by rw [same]
  rw [mappingTypes_of_sequence first, mappingTypes_of_sequence second, shared]

theorem mappingTypes_of_nested (sequence : v.sequence? = some items) (member : item ∈ items)
    (inner : item.sequence?.isSome = true) : v.mappingTypes = [] := by
  refine List.eq_nil_iff_forall_not_mem.mpr fun type admitted => ?_
  have held := ((mem_mappingTypes_sequence sequence).mp admitted).2 item member
  obtain ⟨parts, some⟩ := Option.isSome_iff_exists.mp inner
  simp [scalarTypes_of_sequence some] at held

theorem mappingTypes_elementwise (sequence : v.sequence? = some items) : TypedByElements v items where
  types type := by
    rw [mem_mappingTypes_sequence sequence]
    exact and_congr_right fun _ => forall₂_congr fun item _ => mem_element_iff
  empty none := by
    subst none
    rw [mappingTypes_of_sequence sequence, sharedTypes_eq]
    rfl
  nested := fun ⟨_, member, inner⟩ => mappingTypes_of_nested sequence member inner
  rearranged w others second same := mappingTypes_congr sequence second same
  joined w whole others second third type := by
    rw [mem_mappingTypes_sequence sequence, mem_mappingTypes_sequence second,
      mem_mappingTypes_sequence third]
    simp only [List.forall_mem_append]
    exact ⟨fun ⟨array, left, right⟩ => ⟨⟨array, left⟩, array, right⟩,
      fun ⟨⟨array, left⟩, _, right⟩ => ⟨array, left, right⟩⟩
  checked s r := by
    rw [check_eq_ok_iff, mem_mappingTypes_sequence sequence, and_comm]
    simp only [exists_check_iff, mem_mappingTypes_single, true_and]

theorem mappingTypes_elementwise_mixed :
    (tuple [.int 1, .float ⟨0x4004000000000000⟩, .int 2147483648]).sequence? =
        some [.int 1, .float ⟨0x4004000000000000⟩, .int 2147483648] ∧
      TypedByElements (tuple [.int 1, .float ⟨0x4004000000000000⟩, .int 2147483648])
        [.int 1, .float ⟨0x4004000000000000⟩, .int 2147483648] ∧
      (tuple [.int 1, .float ⟨0x4004000000000000⟩, .int 2147483648]).mappingTypes =
        [⟨.double, true⟩] :=
  ⟨rfl, mappingTypes_elementwise rfl, by decide⟩

end Value

end Telemetry
