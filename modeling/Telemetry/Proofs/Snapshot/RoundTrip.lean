import Mathlib.Data.List.Perm.Basic
import Telemetry.Proofs.Sample
import Telemetry.Proofs.Snapshot.Completeness
import Telemetry.Proofs.Snapshot.Nesting

/-!
Trees of samples and properties that are flattened again. A tree put together from paths gives back
what was laid at the end of each path, whatever the segments are named.
-/

namespace Telemetry.Snapshot

open Sample (IsDated IsReceived timestampName)

variable {α β : Type} {decode : β → Except Fault α}

/-- Paths of which none is the start of another have texts of their own. -/
theorem nodup_names_entriesAt {found : List (List String × α)}
    (free : PrefixFree (found.map Prod.fst)) :
    (FieldList.names (entriesAt "" found)).Nodup := by
  have texts : FieldList.names (entriesAt "" found) = (found.map Prod.fst).map (pathText "") := by
    rw [FieldList.names, entriesAt, List.map_map, List.map_map]
    rfl
  rw [texts, List.Nodup, List.pairwise_map]
  refine free.apart.imp_of_mem ?_
  intro a b first second apart same
  obtain rfl := pathText_injective (free.slashless a first) (free.slashless b second) same
  exact apart.1 (List.prefix_refl a)

theorem decodes_of_perm {found entries : List (List String × β)}
    {samples : List (List String × α)} (perm : found.Perm entries)
    (free : PrefixFree (entries.map Prod.fst)) (decodes : DecodesTo decode entries samples) :
    ∃ others, DecodesTo decode found others ∧
      (entriesAt "" others).Perm (entriesAt "" samples) ∧
      (FieldList.names (entriesAt "" others)).Nodup := by
  obtain ⟨others, decodes', same⟩ := List.perm_comp_forall₂ perm decodes
  refine ⟨others, decodes', same.map _, ?_⟩
  have names : (FieldList.names (entriesAt "" samples)).Nodup := by
    rw [decodes.names_eq]
    exact nodup_names_entriesAt free
  exact (same.map _ |>.map Prod.fst).nodup_iff.mpr names

theorem decodes_nest {leafOf : Value → Option β} {allows : String → Value → Prop}
    (walks : Walks leafOf allows) (put : β → Value) {entries : List (List String × β)}
    {samples : List (List String × α)} (free : PrefixFree (entries.map Prod.fst))
    (isLeaf : ∀ entry ∈ entries, leafOf (put entry.2) = some entry.2)
    (allowed : ∀ entry ∈ entries, ∀ last, entry.1.getLast? = some last → allows last (put entry.2))
    (decodes : DecodesTo decode entries samples) :
    ∃ others,
      DecodesTo decode (leaves leafOf (nest (entries.map fun entry => (entry.1, put entry.2)))) others ∧
      (entriesAt "" others).Perm (entriesAt "" samples) ∧
      (FieldList.names (entriesAt "" others)).Nodup := by
  obtain ⟨grown, perm⟩ := leaves_nest walks put free isLeaf allowed
  rw [nest, leaves_of_grown walks grown]
  exact decodes_of_perm perm free decodes

/-! ### Samples of objects -/

/-- The timestamp of a node below which samples stand in lists is no scalar. -/
theorem walks_objectLeaf : Walks objectLeaf fun segment _ => segment ≠ timestampName := by
  intro node grown
  have inner : holdsScalar node timestampName = false :=
    grown.holdsScalar_eq_false fun child other => absurd rfl other
  simp [objectLeaf, inner]

theorem decodeObjectSample_of_dated {node : List (String × Value)} (dated : IsDated node) :
    ∃ sample, decodeObjectSample (.object node) = .ok sample := by
  obtain ⟨text, t, held, read⟩ := dated
  rw [decodeObjectSample, ObjectSample.ofFields_text held read]
  exact ⟨_, rfl⟩

/-- Samples of objects are found again under their paths, none set aside, unless the last segment
of a path has the name of the timestamp. -/
theorem flattenObject_nest {entries : List (List String × List (String × Value))}
    (free : PrefixFree (entries.map Prod.fst)) (dated : ∀ entry ∈ entries, IsDated entry.2)
    (named : ∀ entry ∈ entries, entry.1.getLast? ≠ some timestampName) :
    ∃ samples found,
      DecodesTo (fun node => decodeObjectSample (.object node)) entries samples ∧
      flattenObject "" .empty (nest (entries.map fun entry => (entry.1, .list [.object entry.2]))) =
        ⟨found, []⟩ ∧
      found.Perm (entriesAt "" samples) ∧ (FieldList.names found).Nodup := by
  let placed := entries.map fun entry => (entry.1, Value.object entry.2)
  have tree : (placed.map fun entry => (entry.1, Value.list [entry.2])) =
      entries.map fun entry => (entry.1, .list [.object entry.2]) := List.map_map
  have paths : placed.map Prod.fst = entries.map Prod.fst := List.map_map
  have decodable : ∀ entry ∈ entries, ∃ sample, decodeObjectSample (.object entry.2) = .ok sample :=
    fun entry member => decodeObjectSample_of_dated (dated entry member)
  obtain ⟨samples, decodes⟩ : ∃ samples : List (List String × ObjectSample),
      DecodesTo (fun node => decodeObjectSample (.object node)) entries samples :=
    exists_decodesTo decodable
  have decodes' : DecodesTo decodeObjectSample placed samples := List.forall₂_map_left_iff.mpr decodes
  have isLeaf : ∀ entry ∈ placed, objectLeaf (.list [entry.2]) = some entry.2 := fun _ _ => rfl
  have allowed : ∀ entry ∈ placed, ∀ last, entry.1.getLast? = some last → last ≠ timestampName := by
    intro entry member last isLast same
    obtain ⟨given, isGiven, rfl⟩ := List.mem_map.mp member
    exact named given isGiven (same ▸ isLast)
  obtain ⟨others, found, same, distinct⟩ := decodes_nest walks_objectLeaf (fun v => .list [v])
    (paths ▸ free) isLeaf allowed decodes'
  rw [tree] at found
  refine ⟨samples, entriesAt "" others, decodes, ?_, same, distinct⟩
  rw [flattenObject_eq, Flat.addAll_of_decodes found]
  exact congrArg (Flat.mk · []) (FieldList.merge_eq_append distinct)

theorem flattenObject_nest_of_sample_names :
    let sample := [("value", Value.int 1), ("timestamp", .str "2020-01-01T00:00:00Z")]
    let entries := [(["value", "timestamp", "a"], sample), (["value", "value"], sample)]
    ∃ found, flattenObject "" .empty
        (nest (entries.map fun entry => (entry.1, .list [.object entry.2]))) = ⟨found, []⟩ ∧
      (FieldList.names found).Perm ["/value/timestamp/a", "/value/value"] := by
  intro sample entries
  have free : PrefixFree (entries.map Prod.fst) := by decide +kernel
  obtain ⟨samples, found, decodes, flat, same, -⟩ :=
    flattenObject_nest free (by decide +kernel) (by decide +kernel)
  have names : FieldList.names (entriesAt "" samples) = ["/value/timestamp/a", "/value/value"] := by
    rw [decodes.names_eq]
    decide +kernel
  exact ⟨found, flat, names ▸ same.map Prod.fst⟩

/-- A list under the name of the timestamp makes a leaf of the node that holds it. -/
theorem flattenObject_nest_timestamp :
    let sample := [("value", Value.int 1), ("timestamp", .str "2020-01-01T00:00:00Z")]
    let entries := [(["a", "b"], sample), (["a", "timestamp"], sample)]
    PrefixFree (entries.map Prod.fst) ∧ (∀ entry ∈ entries, IsDated entry.2) ∧
      flattenObject "" .empty
        (nest (entries.map fun entry => (entry.1, .list [.object entry.2]))) = ⟨[], ["/a"]⟩ := by
  decide +kernel

/-! ### Individual samples and properties -/

/-- A node below which samples are objects holds no scalar. -/
theorem Grown.no_scalar {leafOf : Value → Option β} {node : List (String × Value)} {name : String}
    (grown : Grown leafOf (fun _ child => child.isObject = true) node) :
    holdsScalar node name = false :=
  grown.holdsScalar_eq_false fun _ isObject => isObject

theorem walks_sampleLeaf : Walks sampleLeaf fun _ child => child.isObject = true := by
  intro node grown
  simp [sampleLeaf, isSampleNode, grown.no_scalar]

theorem walks_propertyLeaf : Walks propertyLeaf fun _ _ => True := by
  intro node _
  rfl

theorem sampleLeaf_eq_some {v : Value} {node : List (String × Value)}
    (isLeaf : sampleLeaf v = some node) : v = .object node ∧ isSampleNode node = true := by
  cases v with
  | object fields =>
    rw [sampleLeaf] at isLeaf
    split at isLeaf
    · rename_i isSample
      cases isLeaf
      exact ⟨rfl, isSample⟩
    · cases isLeaf
  | _ => cases isLeaf

theorem complete_of_grown {node : List (String × Value)} (nonempty : node ≠ [])
    (grown : Grown sampleLeaf (fun _ child => child.isObject = true) node)
    (fields : completeFields node = true) : complete (.object node) = true := by
  have below : hasSubtree node = true := by
    cases grown with
    | nil => contradiction
    | leaf isObject isLeaf later => simp [hasSubtree, isObject]
    | tree nonempty grown later => simp [hasSubtree, Value.isObject]
  rw [complete, grown.no_scalar, below, fields]
  rfl

/-- A node that has grown from samples that can be decoded is read in full. -/
theorem completeFields_of_grown {node : List (String × Value)}
    (grown : Grown sampleLeaf (fun _ child => child.isObject = true) node)
    (decodable : ∀ leaf ∈ leavesFields sampleLeaf node, ∃ sample, decodeSample leaf.2 = .ok sample) :
    completeFields node = true := by
  induction grown with
  | nil => rfl
  | @leaf segment child leaf rest _ isLeaf later ih =>
    have here : ([], leaf) ∈ leaves sampleLeaf child := by
      rw [leaves_of_leaf isLeaf]
      exact List.mem_cons_self
    obtain ⟨sample, decoded⟩ := decodable _ (mem_leavesFields here)
    obtain ⟨rfl, isSample⟩ := sampleLeaf_eq_some isLeaf
    have scalar : holdsScalar leaf "value" = true := (Bool.and_eq_true_iff.mp isSample).1
    have whole : complete (.object leaf) = true := by
      rw [complete, if_pos scalar, decoded]
      rfl
    have rest := ih fun other member => decodable other (List.mem_append_right _ member)
    rw [completeFields, whole, rest, Bool.or_true, Bool.true_and]
  | @tree segment below rest nonempty inner later ihBelow ih =>
    have under : completeFields below = true := by
      refine ihBelow fun other member => ?_
      rw [← leaves_of_grown walks_sampleLeaf inner] at member
      exact decodable (segment :: other.1, other.2) (mem_leavesFields member)
    have rest := ih fun other member => decodable other (List.mem_append_right _ member)
    rw [completeFields, complete_of_grown nonempty inner under, rest, Bool.or_true, Bool.true_and]

theorem decodeSample_of_dated {node : List (String × Value)} (dated : IsDated node)
    (received : IsReceived node) : ∃ sample, decodeSample node = .ok sample := by
  obtain ⟨text, t, held, read⟩ := dated
  obtain ⟨reception, ok⟩ := received
  rw [decodeSample, Sample.ofFields_text held read, ok]
  exact ⟨_, rfl⟩

theorem nestFields_ne_nil {leafOf : Value → Option β} {node : List (String × Value)}
    {entries : List (List String × β)} (nonempty : entries ≠ [])
    (perm : (leavesFields leafOf node).Perm entries) : node ≠ [] := by
  rintro rfl
  exact nonempty perm.symm.eq_nil

theorem readSamples_nest {entries : List (List String × List (String × Value))}
    (nonempty : entries ≠ []) (free : PrefixFree (entries.map Prod.fst))
    (ok : ∀ entry ∈ entries, holdsScalar entry.2 "value" = true ∧ IsDated entry.2 ∧
      IsReceived entry.2) :
    ∃ samples found, DecodesTo decodeSample entries samples ∧
      flattenIndividual "" .empty (nest (entries.map fun entry => (entry.1, .object entry.2))) =
        ⟨found, []⟩ ∧
      readIndividual "" (nest (entries.map fun entry => (entry.1, .object entry.2))) = .ok found ∧
      found.Perm (entriesAt "" samples) ∧ (FieldList.names found).Nodup := by
  have decodable : ∀ entry ∈ entries, ∃ sample, decodeSample entry.2 = .ok sample :=
    fun entry member => decodeSample_of_dated (ok entry member).2.1 (ok entry member).2.2
  obtain ⟨samples, decodes⟩ := exists_decodesTo decodable
  have isLeaf : ∀ entry ∈ entries, sampleLeaf (.object entry.2) = some entry.2 := by
    intro entry member
    obtain ⟨sample, decoded⟩ := decodable entry member
    rw [sampleLeaf, if_pos (isSampleNode_of_decodes (ok entry member).1 decoded)]
  obtain ⟨grown, perm⟩ := leaves_nest walks_sampleLeaf Value.object free isLeaf fun _ _ _ _ => rfl
  obtain ⟨others, found, same, distinct⟩ := decodes_nest walks_sampleLeaf Value.object free isLeaf
    (fun _ _ _ _ => rfl) decodes
  refine ⟨samples, entriesAt "" others, decodes, ?_, ?_, same, distinct⟩
  · rw [flattenIndividual_eq, Flat.addAll_of_decodes found]
    exact congrArg (Flat.mk · []) (FieldList.merge_eq_append distinct)
  · have whole := complete_of_grown (nestFields_ne_nil nonempty perm) grown
      (completeFields_of_grown grown fun leaf member => decodable leaf (perm.mem_iff.mp member))
    obtain ⟨others', found', read⟩ := readIndividual_of_complete "" _ whole
    obtain rfl := found'.unique found
    exact read.trans (congrArg Except.ok (FieldList.merge_eq_append distinct))

theorem readProperties_nest {entries : List (List String × Value)}
    (free : PrefixFree (entries.map Prod.fst))
    (scalars : ∀ entry ∈ entries, entry.2.isObject = false) :
    ∃ found, flattenProperties "" [] (nest entries) = found ∧
      readProperties (nest entries) = .ok found ∧
      found.Perm (entriesAt "" entries) ∧ (FieldList.names found).Nodup := by
  have isLeaf : ∀ entry ∈ entries, propertyLeaf entry.2 = some entry.2 := by
    intro entry member
    have scalar := scalars entry member
    cases isObject : entry.2 with
    | object node =>
      rw [isObject] at scalar
      cases scalar
    | _ => rfl
  have plain : (entries.map fun entry => (entry.1, entry.2)) = entries := List.map_id entries
  obtain ⟨grown, perm⟩ := leaves_nest walks_propertyLeaf (fun v => v) free isLeaf
    fun _ _ _ _ => trivial
  rw [plain] at grown perm
  have same : (entriesAt "" (leaves propertyLeaf (nest entries))).Perm (entriesAt "" entries) := by
    rw [nest, leaves_of_grown walks_propertyLeaf grown]
    exact perm.map _
  have distinct : (FieldList.names (entriesAt "" (leaves propertyLeaf (nest entries)))).Nodup :=
    (same.map Prod.fst).nodup_iff.mpr (nodup_names_entriesAt free)
  refine ⟨_, ?_, ?_, same, distinct⟩
  · exact flattenProperties_eq_entriesAt distinct
  · show Except.ok (collectProperties "" (nest entries)) = _
    rw [collectProperties_eq]
    exact congrArg Except.ok (FieldList.merge_eq_append distinct)

/-- Individual samples and properties are found again under their paths, whether the tree is
flattened as far as possible or read in full. -/
theorem trees_read_back :
    (∀ entries : List (List String × List (String × Value)), entries ≠ [] →
      PrefixFree (entries.map Prod.fst) →
      (∀ entry ∈ entries, holdsScalar entry.2 "value" = true ∧ IsDated entry.2 ∧
        IsReceived entry.2) →
      ∃ samples found, DecodesTo decodeSample entries samples ∧
        flattenIndividual "" .empty (nest (entries.map fun entry => (entry.1, .object entry.2))) =
          ⟨found, []⟩ ∧
        readIndividual "" (nest (entries.map fun entry => (entry.1, .object entry.2))) = .ok found ∧
        found.Perm (entriesAt "" samples) ∧ (FieldList.names found).Nodup) ∧
    ∀ entries : List (List String × Value), PrefixFree (entries.map Prod.fst) →
      (∀ entry ∈ entries, entry.2.isObject = false) →
      ∃ found, flattenProperties "" [] (nest entries) = found ∧
        readProperties (nest entries) = .ok found ∧
        found.Perm (entriesAt "" entries) ∧ (FieldList.names found).Nodup :=
  ⟨fun _ => readSamples_nest, fun _ => readProperties_nest⟩

theorem trees_read_back_of_sample_names :
    let sample := fun n : Int => [("value", Value.int n), ("timestamp", .str "2020-01-01T00:00:00Z")]
    let samples := [(["", "value"], sample 1), (["", "timestamp"], sample 2), (["value"], sample 3)]
    let properties := [(["value", "timestamp"], Value.null), (["value", ""], .list [.int 1])]
    (∃ found, flattenIndividual "" .empty
        (nest (samples.map fun entry => (entry.1, .object entry.2))) = ⟨found, []⟩ ∧
      readIndividual "" (nest (samples.map fun entry => (entry.1, .object entry.2))) = .ok found ∧
      (FieldList.names found).Perm ["//value", "//timestamp", "/value"]) ∧
    ∃ found, readProperties (nest properties) = .ok found ∧ found.Perm (entriesAt "" properties) := by
  intro sample samples properties
  have ⟨ofSamples, ofProperties⟩ := trees_read_back
  constructor
  · obtain ⟨decoded, found, decodes, flat, read, same, -⟩ :=
      ofSamples samples (by decide +kernel) (by decide +kernel) (by decide +kernel)
    have names : FieldList.names (entriesAt "" decoded) = ["//value", "//timestamp", "/value"] := by
      rw [decodes.names_eq]
      decide +kernel
    exact ⟨found, flat, read, names ▸ same.map Prod.fst⟩
  · obtain ⟨found, -, read, same, -⟩ :=
      ofProperties properties (by decide +kernel) (by decide +kernel)
    exact ⟨found, read, same⟩

/-- A sample with a moment of reception that cannot be read is no sample. -/
theorem trees_read_back_unreceived :
    let sample := [("value", Value.int 1), ("timestamp", .str "2020-01-01T00:00:00Z"),
      ("reception_timestamp", .str "x")]
    let entries := [(["a"], sample)]
    let tree := nest (entries.map fun entry => (entry.1, .object entry.2))
    PrefixFree (entries.map Prod.fst) ∧
      (∀ entry ∈ entries, holdsScalar entry.2 "value" = true ∧ IsDated entry.2) ∧
      flattenIndividual "" .empty tree = ⟨[], ["/a"]⟩ ∧
      (readIndividual "" tree).toOption = none := by
  decide +kernel

end Telemetry.Snapshot
