import Telemetry.Interface.Defaults
import Telemetry.Interface.Document
import Telemetry.Interface.Presence
import Telemetry.Json.Reader
import Telemetry.Log

/-!
Reading interfaces from documents: mandatory fields first, then every field, then the defaults. Texts
are taken as they are shown; only the name and the endpoints must have a UTF-8 form.
-/

namespace Telemetry.Interface

inductive Fault where
  | excess (excess : Json.Excess)
  | unreadable (fault : Json.Fault)
  | notAnObject
  /-- A mandatory field has a value of the wrong kind. -/
  | malformedMandatory (fault : Schema.Fault)
  | missing (field : MandatoryField)
  | malformed (fault : Schema.Fault)
  deriving DecidableEq

namespace Fault

def reason : Fault → String
  | .excess what => what.message
  | .unreadable fault => "malformed JSON document: " ++ fault.message
  | .notAnObject => "document must be a JSON object"
  | .malformedMandatory fault | .malformed fault => fault.cause.message
  | .missing field => field.reason

/-- The field that is wrong, if it is a single one. -/
def field : Fault → Option String
  | .malformedMandatory fault | .malformed fault => some fault.location
  | .missing field => some field.name
  | _ => none

/-- An excess is no fault of the interface. -/
def message : Fault → String
  | .excess what => what.message
  | fault => "Invalid interface: " ++ fault.reason

def events (fault : Fault) : List Log.Event :=
  let rejected (field : String) : List Log.Event :=
    [⟨.debug, "interface.parse.rejected", [("field", .str field), ("reason", .str fault.reason)]⟩]
  match fault with
  | .missing field => rejected field.name
  | .malformed inner => rejected inner.location
  | _ => []

end Fault

/-! ### Texts without a UTF-8 form -/

/-- The first text that must have a UTF-8 form and has none. -/
inductive TornText where
  | name
  | endpoint (position : Nat)

def tornText? (tree : Json.Tree) : Option TornText :=
  if tree.hasTornText "interface_name" then some .name
  else
    let mappings := (tree.field? "mappings").elim [] Json.Tree.items
    (mappings.findIdx? (·.hasTornText "endpoint")).map .endpoint

def decodeMappingsBefore (position : Nat) : Schema.Decoder (List Mapping)
  | .list items => Schema.list Mapping.decode (.list (items.take position))
  | v => Schema.list Mapping.decode v

/-- The fault of the full decoding: that of a field in front of the text, or else its own. Name and
endpoint are the first fields of their records. -/
def TornText.fault (fields : List (String × Value)) : TornText → Schema.Fault
  | .name => ⟨["interface_name"], .notUnicode⟩
  | .endpoint position =>
    match decodeFieldsWith (Schema.required · "mappings" (decodeMappingsBefore position)) fields with
    | .error fault => fault
    | .ok _ => ⟨["mappings", toString position, "endpoint"], .notUnicode⟩

/-! ### Documents -/

def ofFields (fields : List (String × Value)) (torn : Option TornText) : Except Fault Interface :=
  match Presence.decodeFields fields with
  | .error fault => .error (.malformedMandatory fault)
  | .ok presence =>
    match presence.firstMissing with
    | some field => .error (.missing field)
    | none =>
      match torn.elim (decodeFields fields) fun text => .error (text.fault fields) with
      | .error fault => .error (.malformed fault)
      | .ok i => .ok i.withDefaults

def ofTree (tree : Json.Tree) : Except Fault Interface :=
  match tree.shown with
  | .object fields => ofFields fields (tornText? tree)
  | _ => .error .notAnObject

def parse (document : Json.Document) : Except Fault Interface :=
  match document.tree with
  | .error (.excess excess) => .error (.excess excess)
  | .error fault => .error (.unreadable fault)
  | .ok tree => ofTree tree

end Telemetry.Interface
