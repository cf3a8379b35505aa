import Telemetry.Text.Letter
import Telemetry.Value.Fields

/-!
Documents letter by letter. A tree keeps every text and every member as it stands in a document, halves
of surrogate pairs and repeated names included; the value of a tree shows what characters can show.
-/

namespace Telemetry.Json

open Text (Letters)

inductive Tree where
  | plain (v : Value)
  | text (letters : Letters)
  | list (items : List Tree)
  | object (members : List (Letters × Tree))

namespace Tree

mutual
def shown : Tree → Value
  | .plain v => v
  | .text letters => .str letters.shown
  | .list items => .list (itemsShown items)
  | .object members => .object (FieldList.ofList (membersShown members))
def itemsShown : List Tree → List Value
  | [] => []
  | item :: rest => shown item :: itemsShown rest
def membersShown : List (Letters × Tree) → List (String × Value)
  | [] => []
  | (name, item) :: rest => (name.shown, shown item) :: membersShown rest
end

/-! ### Parts -/

/-- The last member of a name counts. -/
def member? (name : Letters) : List (Letters × Tree) → Option Tree
  | [] => none
  | (other, item) :: rest => (member? name rest).or (if other = name then some item else none)

def field? : Tree → Letters → Option Tree
  | .object members, name => member? name members
  | _, _ => none

def items : Tree → List Tree
  | .list items => items
  | _ => []

def item? (tree : Tree) (position : Nat) : Option Tree :=
  tree.items[position]?

/-! ### Halves of pairs -/

def isTornText : Tree → Bool
  | .text letters => letters.isTorn
  | _ => false

def hasTornText (tree : Tree) (name : Letters) : Bool :=
  (tree.field? name).any isTornText

mutual
/-- The first name that has no UTF-8 form, of the members that are not written again. -/
def tornName? : Tree → Option Letters
  | .plain _ | .text _ => none
  | .list items => tornNameOfItems? items
  | .object members => tornNameOfMembers? members
def tornNameOfItems? : List Tree → Option Letters
  | [] => none
  | item :: rest => (tornName? item).or (tornNameOfItems? rest)
def tornNameOfMembers? : List (Letters × Tree) → Option Letters
  | [] => none
  | (name, item) :: rest =>
    if (member? name rest).isSome then tornNameOfMembers? rest
    else if name.isTorn then some name
    else (tornName? item).or (tornNameOfMembers? rest)
end

mutual
/-- Whether all texts and names are Unicode. -/
def isWhole : Tree → Bool
  | .plain _ => true
  | .text letters => !letters.isTorn
  | .list items => itemsAreWhole items
  | .object members => membersAreWhole members
def itemsAreWhole : List Tree → Bool
  | [] => true
  | item :: rest => isWhole item && itemsAreWhole rest
def membersAreWhole : List (Letters × Tree) → Bool
  | [] => true
  | (name, item) :: rest => !name.isTorn && isWhole item && membersAreWhole rest
end

end Tree

end Telemetry.Json
