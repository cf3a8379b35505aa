import Mathlib.Data.List.Forall2
import Telemetry.Proofs.Value.Fields
import Telemetry.Snapshot.Flatten

/-!
Leaves of trees. A rule tells which nodes are leaves; the leaves of a tree are met depth first, in
the order of the document, and flattening is adding them in turn.
-/

namespace Telemetry.Snapshot

variable {α β : Type}

def pathText (start : String) (segments : List String) : String :=
  segments.foldl childPath start

mutual
/-- The leaves of a tree, each with the segments that lead to it. Nothing below a leaf is one. -/
def leaves (leafOf : Value → Option β) : Value → List (List String × β)
  | .object node =>
    match leafOf (.object node) with
    | some leaf => [([], leaf)]
    | none => leavesFields leafOf node
  | v => (leafOf v).toList.map fun leaf => ([], leaf)
def leavesFields (leafOf : Value → Option β) : List (String × Value) → List (List String × β)
  | [] => []
  | (segment, child) :: rest =>
    (leaves leafOf child).map (fun leaf => (segment :: leaf.1, leaf.2)) ++ leavesFields leafOf rest
end

def sampleLeaf : Value → Option (List (String × Value))
  | .object node => if isSampleNode node then some node else none
  | _ => none

/-- Leaves of samples of objects. -/
def objectLeaf : Value → Option Value
  | .list (newest :: _) => some newest
  | .object node => if holdsScalar node Sample.timestampName then some (.object node) else none
  | _ => none

def propertyLeaf : Value → Option Value
  | .object _ => none
  | v => some v

/-! ### Flattening -/

def Flat.addAll (decode : β → Except Fault α) (path : String) (acc : Flat α)
    (found : List (List String × β)) : Flat α :=
  found.foldl (fun acc leaf => acc.add (pathText path leaf.1) (decode leaf.2)) acc

variable {decode : β → Except Fault α} {path segment : String} {acc : Flat α}
  {found more : List (List String × β)}

theorem Flat.addAll_append :
    acc.addAll decode path (found ++ more) = (acc.addAll decode path found).addAll decode path more :=
  List.foldl_append

theorem Flat.addAll_child :
    acc.addAll decode path (found.map fun leaf => (segment :: leaf.1, leaf.2)) =
      acc.addAll decode (childPath path segment) found :=
  List.foldl_map

/-- The paths of leaves that cannot be decoded are set aside in turn. -/
theorem Flat.dropped_addAll :
    (acc.addAll decode path found).dropped = acc.dropped ++
      (found.filter fun leaf => (decode leaf.2).toOption.isNone).map fun leaf =>
        pathText path leaf.1 := by
  induction found generalizing acc with
  | nil => exact (List.append_nil _).symm
  | cons leaf rest ih =>
    show ((acc.add (pathText path leaf.1) (decode leaf.2)).addAll decode path rest).dropped = _
    rw [ih]
    cases decoded : decode leaf.2 with
    | ok a => simp [Flat.add, decoded, Except.toOption]
    | error fault => simp [Flat.add, decoded, Except.toOption]

mutual
theorem flattenIndividual_eq (path : String) (acc : Flat Sample) : ∀ v : Value,
    flattenIndividual path acc v = acc.addAll decodeSample path (leaves sampleLeaf v)
  | .object node => by
    have below := flattenIndividualFields_eq path acc node
    by_cases leaf : isSampleNode node = true
    · simp [flattenIndividual, leaves, sampleLeaf, leaf, Flat.addAll, pathText]
    · simp [flattenIndividual, leaves, sampleLeaf, leaf, below]
  | .null | .bool _ | .int _ | .float _ | .str _ | .bytes _ | .buffer _ | .dateTime _ | .list _
  | .tuple _ => by rfl
theorem flattenIndividualFields_eq (path : String) (acc : Flat Sample) :
    ∀ node : List (String × Value), flattenIndividualFields path acc node =
      acc.addAll decodeSample path (leavesFields sampleLeaf node)
  | [] => by rfl
  | (segment, child) :: rest => by
    rw [flattenIndividualFields, flattenIndividual_eq _ acc child,
      flattenIndividualFields_eq path _ rest, leavesFields, Flat.addAll_append, Flat.addAll_child]
end

mutual
theorem flattenObject_eq (path : String) (acc : Flat ObjectSample) : ∀ v : Value,
    flattenObject path acc v = acc.addAll decodeObjectSample path (leaves objectLeaf v)
  | .object node => by
    have below := flattenObjectFields_eq path acc node
    by_cases leaf : holdsScalar node Sample.timestampName = true
    · simp [flattenObject, leaves, objectLeaf, leaf, Flat.addAll, pathText]
    · simp [flattenObject, leaves, objectLeaf, leaf, below]
  | .list [] | .list (_ :: _) => by rfl
  | .null | .bool _ | .int _ | .float _ | .str _ | .bytes _ | .buffer _ | .dateTime _ | .tuple _ => by
    rfl
theorem flattenObjectFields_eq (path : String) (acc : Flat ObjectSample) :
    ∀ node : List (String × Value), flattenObjectFields path acc node =
      acc.addAll decodeObjectSample path (leavesFields objectLeaf node)
  | [] => by rfl
  | (segment, child) :: rest => by
    rw [flattenObjectFields, flattenObject_eq _ acc child, flattenObjectFields_eq path _ rest,
      leavesFields, Flat.addAll_append, Flat.addAll_child]
end

def entriesAt (path : String) (found : List (List String × α)) : FieldList α :=
  found.map fun leaf => (pathText path leaf.1, leaf.2)

theorem merge_entriesAt_child {acc : FieldList α} {found : List (List String × α)} :
    acc.merge (entriesAt path (found.map fun leaf => (segment :: leaf.1, leaf.2))) =
      acc.merge (entriesAt (childPath path segment) found) := by
  rw [entriesAt, List.map_map]
  rfl

theorem merge_entriesAt_append {acc : FieldList α} {found more : List (List String × α)} :
    acc.merge (entriesAt path (found ++ more)) =
      (acc.merge (entriesAt path found)).merge (entriesAt path more) := by
  rw [entriesAt, List.map_append, FieldList.merge_append]
  rfl

mutual
theorem flattenProperties_eq (path : String) (acc : FieldList Value) : ∀ v : Value,
    flattenProperties path acc v = acc.merge (entriesAt path (leaves propertyLeaf v))
  | .object node => by
    have below := flattenPropertiesFields_eq path acc node
    simpa [flattenProperties, leaves, propertyLeaf] using below
  | .null | .bool _ | .int _ | .float _ | .str _ | .bytes _ | .buffer _ | .dateTime _ | .list _
  | .tuple _ => by rfl
theorem flattenPropertiesFields_eq (path : String) (acc : FieldList Value) :
    ∀ node : List (String × Value), flattenPropertiesFields path acc node =
      acc.merge (entriesAt path (leavesFields propertyLeaf node))
  | [] => by rfl
  | (segment, child) :: rest => by
    rw [flattenPropertiesFields, flattenProperties_eq _ acc child,
      flattenPropertiesFields_eq path _ rest, leavesFields, merge_entriesAt_append,
      merge_entriesAt_child]
end

theorem flattenProperties_eq_entriesAt {v : Value}
    (distinct : (FieldList.names (entriesAt path (leaves propertyLeaf v))).Nodup) :
    flattenProperties path [] v = entriesAt path (leaves propertyLeaf v) := by
  rw [flattenProperties_eq]
  exact FieldList.merge_eq_append distinct

/-! ### Leaves that can be decoded -/

def DecodesTo (decode : β → Except Fault α) (found : List (List String × β))
    (samples : List (List String × α)) : Prop :=
  List.Forall₂ (fun leaf sample => leaf.1 = sample.1 ∧ decode leaf.2 = .ok sample.2) found samples

theorem exists_decodesTo (decodable : ∀ leaf ∈ found, ∃ a, decode leaf.2 = .ok a) :
    ∃ samples, DecodesTo decode found samples := by
  induction found with
  | nil => exact ⟨[], .nil⟩
  | cons leaf rest ih =>
    obtain ⟨a, first⟩ := decodable leaf List.mem_cons_self
    obtain ⟨samples, later⟩ := ih fun other member => decodable other (List.mem_cons_of_mem _ member)
    exact ⟨(leaf.1, a) :: samples, .cons ⟨rfl, first⟩ later⟩

theorem DecodesTo.child {samples : List (List String × α)} (decodes : DecodesTo decode found samples) :
    DecodesTo decode (found.map fun leaf => (segment :: leaf.1, leaf.2))
      (samples.map fun sample => (segment :: sample.1, sample.2)) := by
  induction decodes with
  | nil => exact .nil
  | cons first _ ih => exact .cons ⟨congrArg _ first.1, first.2⟩ ih

theorem DecodesTo.append {samples others : List (List String × α)}
    (first : DecodesTo decode found samples) (next : DecodesTo decode more others) :
    DecodesTo decode (found ++ more) (samples ++ others) :=
  List.rel_append first next

theorem DecodesTo.unique {samples others : List (List String × α)}
    (first : DecodesTo decode found samples) (second : DecodesTo decode found others) :
    samples = others := by
  induction first generalizing others with
  | nil =>
    cases second
    rfl
  | @cons leaf sample _ _ first _ ih =>
    cases second with
    | @cons _ other _ _ second later =>
      have segments : sample.1 = other.1 := first.1.symm.trans second.1
      have decoded : sample.2 = other.2 := Except.ok.inj (first.2.symm.trans second.2)
      rw [Prod.ext segments decoded, ih later]

theorem DecodesTo.names_eq {samples : List (List String × α)}
    (decodes : DecodesTo decode found samples) :
    FieldList.names (entriesAt path samples) = FieldList.names (entriesAt path found) := by
  induction decodes with
  | nil => rfl
  | cons first _ ih => exact congrArg₂ List.cons (congrArg (pathText path) first.1.symm) ih

theorem Flat.addAll_of_decodes {samples : List (List String × α)}
    (decodes : DecodesTo decode found samples) :
    acc.addAll decode path found =
      { acc with found := acc.found.merge (entriesAt path samples) } := by
  induction decodes generalizing acc with
  | nil => rfl
  | @cons leaf sample found samples first _ ih =>
    obtain ⟨same, decoded⟩ := first
    show (acc.add (pathText path leaf.1) (decode leaf.2)).addAll decode path found = _
    rw [decoded, ih, same]
    rfl

end Telemetry.Snapshot
