import Telemetry.Secrets
import Telemetry.Value.Literal

/-!
Where reported events go: to the console and perhaps to a file, as records or as lines of text,
if they are severe enough.
-/

namespace Telemetry.Log

/-- The least level that is written. -/
inductive Threshold where
  | everything
  | level (least : Level)
  deriving DecidableEq

def Level.severity : Level → Nat
  | .debug => 10
  | .info => 20
  | .warning => 30
  | .error => 40
  | .critical => 50

namespace Threshold

def admits (threshold : Threshold) (level : Level) : Bool :=
  match threshold with
  | .everything => true
  | .level least => least.severity ≤ level.severity

def name : Threshold → String
  | .everything => "NOTSET"
  | .level .debug => "DEBUG"
  | .level .info => "INFO"
  | .level .warning => "WARNING"
  | .level .error => "ERROR"
  | .level .critical => "CRITICAL"

/-- Some thresholds have two names. -/
def names : List (String × Threshold) :=
  [("CRITICAL", .level .critical), ("FATAL", .level .critical), ("ERROR", .level .error),
    ("WARNING", .level .warning), ("WARN", .level .warning), ("INFO", .level .info),
    ("DEBUG", .level .debug), ("NOTSET", .everything)]

def upperChar (c : Char) : Char :=
  if c = '\u0131' then 'I' else if c = '\u017F' then 'S' else c.toUpper

def upper (s : String) : String :=
  String.ofList (s.toList.map upperChar)

inductive Fault where
  /-- It is the name of the usual layout of a line. -/
  | layout
  /-- It is the name of the table of layouts. -/
  | layouts
  deriving DecidableEq

/-- A table of layouts has no text. -/
def Fault.message? : Fault → Option String
  | .layout => some "Unknown level: '%(levelname)s:%(name)s:%(message)s'"
  | .layouts => none

/-- Whatever else is no name of a threshold stands for the usual one. -/
def ofName (s : String) : Except Fault Threshold :=
  match upper s with
  | "BASIC_FORMAT" => .error .layout
  | "_STYLES" => .error .layouts
  | name => .ok ((names.lookup name).getD (.level .info))

end Threshold

structure OutputRequest where
  level : Option String := none
  file : Option String := none
  deployment : String := "development"
  structured : Option Bool := none
  deriving DecidableEq

structure Output where
  levelName : String
  threshold : Threshold
  structured : Bool
  file : Option String
  deriving DecidableEq

namespace Output

/-- What is not asked for is taken from variables. Production writes records. -/
def ofRequest (request : OutputRequest) (vars : Variables) : Except Threshold.Fault Output := do
  let levelName :=
    ((request.level.filter (· ≠ "")).orElse fun _ => Secrets.given? vars "LOG_LEVEL").getD
      "INFO"
  return {
    levelName
    threshold := ← Threshold.ofName levelName
    structured :=
      request.structured.getD
        (String.ofList (request.deployment.toList.map Char.toLower) = "production")
    file :=
      (request.file.filter (· ≠ "")).orElse fun _ => Secrets.given? vars "LOG_FILE_PATH" }

end Output

/-! ### Lines -/

mutual
/-- A value as a record holds it: sequences as lists, and what no document can hold as text. -/
def plain : Value → Value
  | .bytes octets => .str (Value.bytes octets).literalText
  | .buffer octets => .str (Value.buffer octets).literalText
  | .dateTime t => .str (Value.dateTime t).literalText
  | .list items | .tuple items => .list (plainItems items)
  | .object fields => .object (plainFields fields)
  | v => v
def plainItems : List Value → List Value
  | [] => []
  | item :: rest => plain item :: plainItems rest
def plainFields : List (String × Value) → List (String × Value)
  | [] => []
  | (name, item) :: rest => (name, plain item) :: plainFields rest
end

/-- A line of output. What a line of text says is left open. -/
inductive Line where
  | text
  | record (fields : List (String × Value))
  deriving DecidableEq

/-- The fields of an event that no record holds under their names: the time takes the place of the
first, and the others ask for an account of a failure or of the place, which events do not have. -/
def hiddenNames : List String :=
  ["timestamp", "exc_info", "stack_info"]

/-- An event as a record, its own fields first. The time is left out. -/
def Event.record (event : Event) (logger : String) : List (String × Value) :=
  let own := hiddenNames.foldl FieldList.erase (FieldList.ofList (plainFields event.fields))
  let fields := FieldList.insert own "event" (.str event.name)
  FieldList.insert (FieldList.insert fields "logger" (.str logger)) "level" (.str event.level.name)

/-- The lines of an event; as text it has one for each line of its name. -/
def Event.lines (event : Event) (logger : String) (structured : Bool) : List Line :=
  if structured then [.record (event.record logger)]
  else List.replicate (event.name.toList.count '\n' + 1) .text

/-! ### Writing -/

structure Book where
  output : Option Output := none
  console : List Line := []
  files : FieldList (List Line) := []
  deriving DecidableEq

namespace Book

def append (book : Book) (path : String) (lines : List Line) : FieldList (List Line) :=
  FieldList.insert book.files path ((FieldList.get? book.files path).getD [] ++ lines)

def write (book : Book) (logger : String) (event : Event) : Book :=
  match book.output with
  | none => book
  | some output =>
    if output.threshold.admits event.level then
      let lines := event.lines logger output.structured
      { book with
        console := book.console ++ lines
        files := output.file.elim book.files (book.append · lines) }
    else book

def ownLogger : String := "astarte_client.shared.logging"

def configuredEvent (output : Output) : Event :=
  ⟨.debug, "logging.configured",
    [("level", .str (Threshold.upper output.levelName)), ("file_path", .ofText? output.file),
      ("json_output", .bool output.structured)]⟩

/-- Sets up output, which creates its file, and reports it. -/
def configure (book : Book) (request : OutputRequest) (vars : Variables) :
    Except Threshold.Fault Book := do
  let output ← Output.ofRequest request vars
  let files := output.file.elim book.files (book.append · [])
  return { book with output := some output, files }.write ownLogger (configuredEvent output)

end Book

end Telemetry.Log
