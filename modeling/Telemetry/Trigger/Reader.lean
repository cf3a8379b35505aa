import Telemetry.Json.Reader
import Telemetry.Log
import Telemetry.Trigger.Defaults
import Telemetry.Trigger.Document
import Telemetry.Trigger.Presence

/-!
Reading triggers from documents: the rules first, then every field, then the defaults. Texts are
taken as they are shown; only the name must have a UTF-8 form.
-/

namespace Telemetry.Trigger

inductive Fault where
  | excess (excess : Json.Excess)
  | unreadable (fault : Json.Fault)
  | notAnObject
  | malformed (fault : Schema.Fault)
  | broken (violation : Violation)
  deriving DecidableEq

namespace Fault

def message : Fault → String
  | .excess what => what.message
  | .unreadable fault => "Invalid trigger: malformed JSON: " ++ fault.message
  | .notAnObject => "Invalid trigger: document must be a JSON object"
  | .malformed fault => "Invalid trigger: " ++ fault.message
  | .broken violation => violation.message

def field : Fault → Option String
  | .malformed fault => if fault.location = "" then none else some fault.location
  | _ => none

def events : Fault → List Log.Event
  | .broken violation =>
    [⟨.debug, "trigger.parse.rejected", [("reason", .str violation.message)]⟩]
  | _ => []

end Fault

/-- The name is the first field that is decoded; `torn` tells that it has no UTF-8 form. -/
def ofFields (fields : List (String × Value)) (torn : Bool) : Except Fault Trigger :=
  match Presence.decodeFields fields with
  | .error fault => .error (.malformed fault)
  | .ok presence =>
    match presence.violation with
    | some violation => .error (.broken violation)
    | none =>
      match if torn then Schema.under "name" (Schema.fail .notUnicode) else decodeFields fields with
      | .error fault => .error (.malformed fault)
      | .ok t => .ok t.withDefaults

/-- The first name inside the known value of the one condition that has no UTF-8 form. -/
def tornNameOf (tree : Json.Tree) : Option Text.Letters := do
  let conditions ← tree.field? "simple_triggers"
  let condition ← conditions.item? 0
  let knownValue ← condition.field? "known_value"
  knownValue.tornName?

def nameIsTorn (tree : Json.Tree) : Bool :=
  tree.hasTornText "name"

def ofTree (tree : Json.Tree) : Except Fault Trigger :=
  match tree.shown with
  | .object fields => do
    let t ← ofFields fields (nameIsTorn tree)
    return { t with tornName := tornNameOf tree }
  | _ => .error .notAnObject

def parse (document : Json.Document) : Except Fault Trigger :=
  match document.tree with
  | .error (.excess excess) => .error (.excess excess)
  | .error fault => .error (.unreadable fault)
  | .ok tree => ofTree tree

end Telemetry.Trigger
