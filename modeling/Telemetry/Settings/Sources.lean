import Telemetry.Json.Reader
import Telemetry.Schema.Fault
import Telemetry.Settings.Basic
import Telemetry.Settings.DotEnv

/-!
Where settings come from. A section is a variable that holds a document, with variables named for
the section and a field laid over it; the surroundings win over the file of variables.
-/

namespace Telemetry.Settings

/-- Variables under names that are all in lower case; one may be there without a value. -/
abbrev Folded := FieldList (Option String)

def lowerChar (c : Char) : Char :=
  if c = '\u212A' then 'k' else c.toLower

def foldName (name : String) : String :=
  String.ofList (name.toList.map lowerChar)

/-- Of names that differ in case only the last counts. -/
def fold (vars : FieldList (Option String)) : Folded :=
  FieldList.ofList (vars.map fun entry => (foldName entry.1, entry.2))

def valueOf? (vars : Folded) (name : String) : Option String :=
  (FieldList.get? vars name).join

inductive Source where
  | surroundings
  | file
  deriving DecidableEq

def Source.label : Source → String
  | .surroundings => "EnvSettingsSource"
  | .file => "DotEnvSettingsSource"

inductive Fault where
  | badSecret (fault : Secrets.Fault)
  | undecodable (fault : Text.EncodingFault)
  /-- A section is no document. -/
  | unreadable (sectionName : String) (source : Source)
  | invalid (fault : Schema.Fault)
  deriving DecidableEq

def Fault.message : Fault → String
  | .badSecret fault => fault.message
  | .undecodable fault => fault.message
  | .unreadable sectionName source =>
    "error parsing value for field \"" ++ sectionName ++ "\" from source \"" ++ source.label ++ "\""
  | .invalid fault => fault.message

/-! ### Sections -/

/-- The name of a section and of its fields. -/
structure SectionForm where
  name : String
  fields : List String
  /-- Starts the names of variables that hold a single field. -/
  start : String
  deriving DecidableEq

def connectionForm : SectionForm :=
  ⟨"appengine", ["appengine_url", "realm", "token", "timeout", "page_size"], "astarte_"⟩

def reportingForm : SectionForm :=
  ⟨"logging", ["level", "json_output", "file_path"], "log_"⟩

/-- The parts of a name between double underscores. -/
def nameParts : List Char → List (List Char)
  | [] => [[]]
  | '_' :: '_' :: rest => [] :: nameParts rest
  | c :: rest =>
    match nameParts rest with
    | [] => [[c]]
    | part :: more => (c :: part) :: more

/-- Sets a field inside an object inside the fields; a value that is no object stays. -/
def setAt (fields : List (String × Value)) : List String → Value → List (String × Value)
  | [], _ => fields
  | [name], v => FieldList.insert fields name v
  | name :: rest, v =>
    match FieldList.get? fields name with
    | none => FieldList.insert fields name (.object (setAt [] rest v))
    | some (.object inner) => FieldList.insert fields name (.object (setAt inner rest v))
    | some _ => fields

/-- The fields that have variables of their own. -/
def ownFields (form : SectionForm) (vars : Folded) : List (String × Value) :=
  vars.foldl (fun fields entry =>
    match (form.name ++ "__").toList.isPrefixOf? entry.1.toList with
    | some rest => setAt fields ((nameParts rest).map String.ofList) (.ofText? entry.2)
    | none => fields) []

mutual
/-- The fields with others laid over them, objects field by field. -/
def overlay (fields : List (String × Value)) : List (String × Value) → List (String × Value)
  | [] => fields
  | (name, v) :: rest =>
    overlay (FieldList.insert fields name (overlayValue (FieldList.get? fields name) v)) rest
def overlayValue (old : Option Value) : Value → Value
  | .object fields =>
    match old with
    | some (.object oldFields) => .object (overlay oldFields fields)
    | _ => .object fields
  | v => v
end

/-- The fields under the names of the section, whatever their case. -/
def nameFields (form : SectionForm) (fields : List (String × Value)) : List (String × Value) :=
  FieldList.ofList (fields.map fun field =>
    ((form.fields.find? (· = foldName field.1)).getD field.1, field.2))

/-- What a source says of a section. -/
def sectionIn (form : SectionForm) (source : Source) (vars : Folded) :
    Except Fault (Option Value) :=
  let own := ownFields form vars
  match valueOf? vars form.name with
  | none => .ok (if own.isEmpty then none else some (.object (nameFields form own)))
  | some text =>
    match Json.readString text with
    | .error _ => .error (.unreadable form.name source)
    | .ok .null => .ok none
    | .ok (.object fields) => .ok (some (.object (nameFields form (overlay fields own))))
    | .ok v => .ok (some v)

/-- What is said of the settings, as far as anything is. -/
structure Given where
  deployment : Option Value
  connection : Option Value
  reporting : Option Value
  deriving DecidableEq

def givenIn (source : Source) (vars : Folded) : Except Fault Given := do
  return {
    deployment := (valueOf? vars "environment").map .str
    connection := ← sectionIn connectionForm source vars
    reporting := ← sectionIn reportingForm source vars }

def overlayGiven (old new : Option Value) : Option Value :=
  match new with
  | some v => some (overlayValue old v)
  | none => old

def Given.over (new old : Given) : Given where
  deployment := overlayGiven old.deployment new.deployment
  connection := overlayGiven old.connection new.connection
  reporting := overlayGiven old.reporting new.reporting

/-- The fields of a section that single variables hold. -/
def singleFields (form : SectionForm) (vars : Folded) : List (String × Value) :=
  form.fields.filterMap fun name =>
    (valueOf? vars (form.start ++ name)).map fun text => (name, .str text)

end Telemetry.Settings
