import Telemetry.Log
import Telemetry.Text.Blank
import Telemetry.Text.Lines
import Telemetry.Value.Fields

/-!
Secrets kept in files: a variable that is not set may be given by another one, which holds the path
of a file with its value.
-/

namespace Telemetry

/-- Variables by name, and files by path. -/
abbrev Variables := FieldList String
abbrev Files := FieldList (List UInt8)

namespace Secrets

/-- The variables that are looked for unless others are named. -/
def defaultKeys : List String := ["ASTARTE_TOKEN"]

/-- The variables after loading, those that were loaded with their files, and what was reported. -/
structure Loaded where
  vars : Variables
  files : FieldList String := []
  events : List Log.Event := []
  deriving DecidableEq

inductive Fault where
  /-- A secret holds a null character, which no variable can. -/
  | nullCharacter
  deriving DecidableEq

def Fault.message : Fault → String
  | .nullCharacter => "embedded null byte"

def pathName (key : String) : String :=
  key ++ "_FILE"

/-- The value of a variable unless it is empty. -/
def given? (vars : Variables) (name : String) : Option String :=
  (FieldList.get? vars name).filter (· ≠ "")

/-- The text of a file without blanks around it. -/
def readSecret? (files : Files) (path : String) : Option String := do
  let cs ← (Text.readFile (← FieldList.get? files path)).toOption
  return String.ofList (Text.trim cs)

/-- The variables with a secret among them. -/
def Loaded.add (loaded : Loaded) (key path secret : String) : Except Fault Loaded :=
  if secret.toList.contains '\x00' then .error .nullCharacter
  else
    .ok { loaded with
      vars := FieldList.insert loaded.vars key secret
      files := FieldList.insert loaded.files key path }

def loadFailedEvent (key path : String) : Log.Event :=
  ⟨.warning, "env.secret_file.load_failed", [("key", .str key), ("path", .str path)]⟩

/-- Loads a secret that is not set and has a file. -/
def loadOne (files : Files) (loaded : Loaded) (key : String) : Except Fault Loaded :=
  match given? loaded.vars (pathName key), given? loaded.vars key with
  | some path, none =>
    match readSecret? files path with
    | some secret => loaded.add key path secret
    | none => .ok { loaded with events := loaded.events ++ [loadFailedEvent key path] }
  | _, _ => .ok loaded

/-- Loads the secrets that are not set. A file that cannot be read is reported and passed over. -/
def load (keys : List String) (vars : Variables) (files : Files) : Except Fault Loaded :=
  keys.foldlM (loadOne files) { vars }

end Secrets

end Telemetry
