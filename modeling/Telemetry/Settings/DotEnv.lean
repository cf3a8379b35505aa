import Telemetry.Secrets
import Telemetry.Text.Split

/-!
Files of variables, one on a line: `NAME=value`, with quotes around a value, comments after it, and
references to other variables inside it. A line that cannot be read is passed over.
-/

namespace Telemetry.Settings.DotEnv

open Text (isBlank)

/-- A name, and its value if there is an equals sign. -/
abbrev Binding := String × Option String

/-- What has been read and the text after it, or else the text at which reading stopped. -/
abbrev Step (α : Type) := Except (List Char) (α × List Char)

def isInlineBlank (c : Char) : Bool :=
  isBlank c && c ≠ '\n' && c ≠ '\r'

def skipInline (cs : List Char) : List Char :=
  cs.dropWhile isInlineBlank

/-- The word `export` before a name is skipped. -/
def skipExport (cs : List Char) : List Char :=
  match "export".toList.isPrefixOf? cs with
  | some (c :: rest) => if isInlineBlank c then skipInline rest else cs
  | _ => cs

def isNameChar (c : Char) : Bool :=
  c ≠ '=' && c ≠ '#' && !isBlank c

/-- A name, in single quotes or bare; a comment has none. -/
def readName (cs : List Char) : Step (Option String) :=
  match cs with
  | '#' :: _ => .ok (none, cs)
  | '\'' :: rest =>
    match Text.cut '\'' rest with
    | ([], _) | (_, none) => .error cs
    | (name, some rest) => .ok (some (String.ofList name), rest)
  | _ =>
    match cs.takeWhile isNameChar with
    | [] => .error cs
    | name => .ok (some (String.ofList name), cs.dropWhile isNameChar)

/-! ### Values -/

/-- The text up to the first quote, and the text after it. A backslash takes the character that
follows with it, so that this one is no quote. -/
def splitAtQuote (quote : Char) : List Char → Option (List Char × List Char)
  | [] => none
  | '\\' :: c :: rest =>
    (splitAtQuote quote rest).map fun found => ('\\' :: c :: found.1, found.2)
  | c :: rest =>
    if c = quote then some ([], rest)
    else (splitAtQuote quote rest).map fun found => (c :: found.1, found.2)

def unescapeIn (escapes : List (Char × Char)) : List Char → List Char
  | '\\' :: c :: rest =>
    match escapes.lookup c with
    | some meant => meant :: unescapeIn escapes rest
    | none => '\\' :: unescapeIn escapes (c :: rest)
  | c :: rest => c :: unescapeIn escapes rest
  | [] => []

def singleEscapes : List (Char × Char) :=
  [('\\', '\\'), ('\'', '\'')]

def doubleEscapes : List (Char × Char) :=
  singleEscapes ++
    [('"', '"'), ('a', '\x07'), ('b', '\x08'), ('f', '\x0C'), ('n', '\n'), ('r', '\r'), ('t', '\t'),
      ('v', '\x0B')]

/-- The rest of a quoted value after its opening quote. -/
def readQuoted (quote : Char) (escapes : List (Char × Char)) (cs : List Char) : Step String :=
  match splitAtQuote quote cs with
  | some (inside, rest) => .ok (String.ofList (unescapeIn escapes inside), rest)
  | none => .error (quote :: cs)

/-- The text before a comment, which is a number sign after a blank. -/
def beforeComment (previous : Char) : List Char → List Char
  | [] => []
  | c :: rest => if c = '#' && isBlank previous then [] else c :: beforeComment c rest

def isLineChar (c : Char) : Bool :=
  c ≠ '\n' && c ≠ '\r'

def readValue (cs : List Char) : Step String :=
  match cs with
  | '\'' :: rest => readQuoted '\'' singleEscapes rest
  | '"' :: rest => readQuoted '"' doubleEscapes rest
  | _ =>
    let bare := Text.trimEndWith isBlank (beforeComment '#' (cs.takeWhile isLineChar))
    .ok (String.ofList bare, cs.dropWhile isLineChar)

/-! ### Lines -/

def skipComment (cs : List Char) : List Char :=
  match skipInline cs with
  | '#' :: rest => rest.dropWhile isLineChar
  | _ => cs

def endLine (cs : List Char) : Except (List Char) (List Char) :=
  match skipInline cs with
  | [] => .ok []
  | c :: rest => if isLineChar c then .error cs else .ok rest

/-- The value after an equals sign, if there is one. -/
def readAssigned (cs : List Char) : Step (Option String) :=
  match cs with
  | '=' :: rest => (readValue (skipInline rest)).map fun read => (some read.1, read.2)
  | _ => .ok (none, cs)

def readBinding (cs : List Char) : Except (List Char) (Option Binding × List Char) := do
  let (name, afterName) ← readName (skipExport cs)
  let (value, afterValue) ← readAssigned (skipInline afterName)
  let rest ← endLine (skipComment afterValue)
  return (name.map fun name => (name, value), rest)

/-- The bindings of at most so many lines. -/
def readLines : Nat → List Char → List Binding
  | 0, _ => []
  | lines + 1, cs =>
    match cs.dropWhile isBlank with
    | [] => []
    | cs =>
      match readBinding cs with
      | .ok (binding, rest) => binding.toList ++ readLines lines rest
      | .error stopped => readLines lines ((stopped.dropWhile isLineChar).drop 1)

/-! ### References -/

/-- A reference after its opening brace: a name, perhaps a default, and the text after it. -/
def readReference (cs : List Char) : Option (String × String × List Char) :=
  let name := cs.takeWhile fun c => c ≠ '\x7d' && c ≠ ':'
  match cs.dropWhile fun c => c ≠ '\x7d' && c ≠ ':' with
  | '\x7d' :: rest => some (String.ofList name, "", rest)
  | ':' :: '-' :: rest =>
    match Text.cut '\x7d' rest with
    | (fallback, some rest) => some (String.ofList name, String.ofList fallback, rest)
    | (_, none) => none
  | _ => none

/-- The text with its references replaced, of which there are fewer than characters. -/
def expand (lookup : String → Option (Option String)) : Nat → List Char → List Char
  | 0, cs => cs
  | _ + 1, [] => []
  | left + 1, '$' :: '\x7b' :: rest =>
    match readReference rest with
    | some (name, fallback, rest) =>
      (((lookup name).getD (some fallback)).getD "").toList ++ expand lookup left rest
    | none => '$' :: expand lookup left ('\x7b' :: rest)
  | left + 1, c :: rest => c :: expand lookup left rest

/-- A variable of the file so far, or else of the surroundings. -/
def lookupIn (vars : Variables) (found : FieldList (Option String)) (name : String) :
    Option (Option String) :=
  (FieldList.get? found name).orElse fun _ => (FieldList.get? vars name).map some

def addBinding (vars : Variables) (found : FieldList (Option String)) (binding : Binding) :
    FieldList (Option String) :=
  let expanded := binding.2.map fun text =>
    String.ofList (expand (lookupIn vars found) (text.toList.length + 1) text.toList)
  FieldList.insert found binding.1 expanded

/-- The variables of a file; one without a value stands there as such. -/
def read (vars : Variables) (octets : List UInt8) :
    Except Text.EncodingFault (FieldList (Option String)) := do
  let cs ← Text.readFile octets
  return (readLines (cs.length + 1) cs).foldl (addBinding vars) []

end Telemetry.Settings.DotEnv
