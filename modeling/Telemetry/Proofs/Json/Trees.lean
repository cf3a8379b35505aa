import Telemetry.Proofs.Json.Content

/-!
Trees of documents. Every value that a document can hold is what the tree of its text shows, and where
all texts and names of a tree are Unicode, so are those of its parts.
-/

namespace Telemetry.Json.Tree

open Text (Letters)

mutual
/-- The tree of a document that holds a value. -/
def ofValue : Value → Tree
  | .str s => .text (.ofString s)
  | .list items => .list (ofItems items)
  | .object fields => .object (ofFields fields)
  | v => .plain v
def ofItems : List Value → List Tree
  | [] => []
  | item :: rest => ofValue item :: ofItems rest
def ofFields : List (String × Value) → List (Letters × Tree)
  | [] => []
  | (name, item) :: rest => (.ofString name, ofValue item) :: ofFields rest
end

mutual
theorem shown_ofValue : ∀ v : Value, isContent v = true → (ofValue v).shown = v
  | .null, _ | .bool _, _ | .int _, _ | .float _, _ => rfl
  | .str s, _ => congrArg Value.str (Letters.shown_ofString s)
  | .list items, content => congrArg Value.list (itemsShown_ofItems items content)
  | .object fields, content => by
    obtain ⟨distinct, each⟩ := Bool.and_eq_true_iff.mp content
    have same : FieldList.ofList fields = fields :=
      FieldList.ofList_eq_self (of_decide_eq_true distinct)
    rw [ofValue, shown, membersShown_ofFields fields each, same]
theorem itemsShown_ofItems : ∀ items : List Value, areContent items = true →
    itemsShown (ofItems items) = items
  | [], _ => rfl
  | item :: rest, content => by
    obtain ⟨here, later⟩ := Bool.and_eq_true_iff.mp content
    rw [ofItems, itemsShown, shown_ofValue item here, itemsShown_ofItems rest later]
theorem membersShown_ofFields : ∀ fields : List (String × Value), fieldsAreContent fields = true →
    membersShown (ofFields fields) = fields
  | [], _ => rfl
  | (name, item) :: rest, content => by
    obtain ⟨here, later⟩ := Bool.and_eq_true_iff.mp content
    rw [ofFields, membersShown, shown_ofValue item here, membersShown_ofFields rest later,
      Letters.shown_ofString]
end

/-! ### Halves of pairs -/

mutual
theorem isWhole_ofValue : ∀ v : Value, (ofValue v).isWhole = true
  | .str s => by
    rw [ofValue, isWhole, Letters.ofString, Letters.isTorn_map_char]
    rfl
  | .list items => itemsAreWhole_ofItems items
  | .object fields => membersAreWhole_ofFields fields
  | .null | .bool _ | .int _ | .float _ | .bytes _ | .buffer _ | .dateTime _ | .tuple _ => rfl
theorem itemsAreWhole_ofItems : ∀ items : List Value, itemsAreWhole (ofItems items) = true
  | [] => rfl
  | item :: rest => by
    rw [ofItems, itemsAreWhole, isWhole_ofValue item, itemsAreWhole_ofItems rest]
    rfl
theorem membersAreWhole_ofFields : ∀ fields : List (String × Value),
    membersAreWhole (ofFields fields) = true
  | [] => rfl
  | (name, item) :: rest => by
    rw [ofFields, membersAreWhole, isWhole_ofValue item, membersAreWhole_ofFields rest, Letters.ofString,
      Letters.isTorn_map_char]
    rfl
end

theorem itemsAreWhole_iff {items : List Tree} :
    itemsAreWhole items = true ↔ ∀ item ∈ items, item.isWhole = true := by
  induction items with
  | nil => simp [itemsAreWhole]
  | cons item rest ih => rw [itemsAreWhole, Bool.and_eq_true, ih, List.forall_mem_cons]

theorem membersAreWhole_iff {members : List (Letters × Tree)} :
    membersAreWhole members = true ↔
      ∀ member ∈ members, member.1.isTorn = false ∧ member.2.isWhole = true := by
  induction members with
  | nil => simp [membersAreWhole]
  | cons member rest ih =>
    rw [membersAreWhole, Bool.and_eq_true, Bool.and_eq_true, Bool.not_eq_true', ih, List.forall_mem_cons]

theorem mem_of_member? {members : List (Letters × Tree)} {name : Letters} {item : Tree}
    (held : member? name members = some item) : (name, item) ∈ members := by
  induction members with
  | nil => cases held
  | cons first rest ih =>
    obtain ⟨other, given⟩ := first
    rw [member?, Option.or_eq_some_iff] at held
    rcases held with later | ⟨-, here⟩
    · exact List.mem_cons_of_mem _ (ih later)
    · split at here
      · rename_i same
        cases here
        rw [same]
        exact List.mem_cons_self
      · cases here

variable {tree item : Tree}

theorem isWhole_of_field? {name : Letters} (whole : tree.isWhole = true)
    (held : tree.field? name = some item) : item.isWhole = true := by
  cases tree with
  | object members => exact (membersAreWhole_iff.mp whole _ (mem_of_member? held)).2
  | _ => cases held

theorem isWhole_of_mem_items (whole : tree.isWhole = true) (member : item ∈ tree.items) :
    item.isWhole = true := by
  cases tree with
  | list items => exact itemsAreWhole_iff.mp whole _ member
  | _ => cases member

theorem isWhole_of_item? {position : Nat} (whole : tree.isWhole = true)
    (held : tree.item? position = some item) : item.isWhole = true :=
  isWhole_of_mem_items whole (List.mem_of_getElem? held)

theorem isTornText_of_isWhole (whole : tree.isWhole = true) : tree.isTornText = false := by
  cases tree with
  | text letters => exact (Bool.not_eq_true' _).mp whole
  | _ => rfl

theorem hasTornText_of_isWhole (whole : tree.isWhole = true) (name : Letters) :
    tree.hasTornText name = false := by
  rw [hasTornText]
  cases held : tree.field? name with
  | none => rfl
  | some item => exact isTornText_of_isWhole (isWhole_of_field? whole held)

mutual
theorem tornName?_of_isWhole : ∀ tree : Tree, tree.isWhole = true → tree.tornName? = none
  | .plain _, _ | .text _, _ => rfl
  | .list items, whole => tornNameOfItems?_of_whole items whole
  | .object members, whole => tornNameOfMembers?_of_whole members whole
theorem tornNameOfItems?_of_whole : ∀ items : List Tree, itemsAreWhole items = true →
    tornNameOfItems? items = none
  | [], _ => rfl
  | item :: rest, whole => by
    obtain ⟨here, later⟩ := Bool.and_eq_true_iff.mp whole
    rw [tornNameOfItems?, tornName?_of_isWhole item here, tornNameOfItems?_of_whole rest later]
    rfl
theorem tornNameOfMembers?_of_whole : ∀ members : List (Letters × Tree),
    membersAreWhole members = true → tornNameOfMembers? members = none
  | [], _ => rfl
  | (name, item) :: rest, whole => by
    obtain ⟨here, later⟩ := Bool.and_eq_true_iff.mp whole
    obtain ⟨named, here⟩ := Bool.and_eq_true_iff.mp here
    rw [tornNameOfMembers?, tornNameOfMembers?_of_whole rest later, tornName?_of_isWhole item here,
      (Bool.not_eq_true' _).mp named]
    split <;> rfl
end

end Telemetry.Json.Tree
