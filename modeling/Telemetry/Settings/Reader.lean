import Telemetry.Schema.Decoder
import Telemetry.Settings.Sources

/-! Settings decoded from what their sources say. -/

namespace Telemetry.Settings

open Schema (Decoder under fail optional)

/-! ### Numbers -/

/-- The power of ten at the end of a number. -/
def readExponent? (cs : List Char) : Option Int :=
  match cs with
  | [] => some 0
  | mark :: rest =>
    let (negative, digits) := Text.readSign rest
    if (mark = 'e' || mark = 'E') && !digits.isEmpty && digits.all Text.isAsciiDigit then
      let exponent : Int := Nat.ofDigitChars 10 digits 0
      some (if negative then -exponent else exponent)
    else none

/-- Digits with a point among them or beside them, and perhaps a power of ten. -/
def readDecimal? (negative : Bool) (cs : List Char) : Option Binary64 :=
  let whole := cs.takeWhile Text.isAsciiDigit
  let (fraction, rest) :=
    match cs.dropWhile Text.isAsciiDigit with
    | '.' :: rest => (rest.takeWhile Text.isAsciiDigit, rest.dropWhile Text.isAsciiDigit)
    | rest => ([], rest)
  if whole.isEmpty && fraction.isEmpty then none
  else
    (readExponent? rest).map fun exponent =>
      .ofDecimal negative (Nat.ofDigitChars 10 (whole ++ fraction) 0) (exponent - fraction.length)

def readNumber? (cs : List Char) : Option Binary64 :=
  let (negative, unsigned) := Text.readSign cs
  let word := String.ofList (Schema.lowerAscii unsigned)
  if word = "inf" || word = "infinity" then some (.infinity negative)
  else if word = "nan" then some .nan
  else readDecimal? negative unsigned

/-- The text without underscores, if they stand one by one between other characters. -/
def dropUnderscores? (cs : List Char) : Option (List Char) :=
  let parts := Text.pieces '_' cs
  if 1 < parts.length && parts.all (!·.isEmpty) then some parts.flatten else none

def numberOfText (cs : List Char) : Except Schema.Fault Binary64 :=
  let read := (readNumber? (Text.trimWith Text.isWhite cs)).orElse fun _ =>
    dropUnderscores? cs >>= readNumber?
  read.elim (fail .unreadableNumber) .ok

/-- An integer as the nearest number, unless that is infinite. -/
def numberOfInt (n : Int) : Except Schema.Fault Binary64 :=
  if (Binary64.ofInt n).isFinite then .ok (.ofInt n) else fail .notNumber

def number : Decoder Binary64
  | .float x => .ok x
  | .int n => numberOfInt n
  | .bool b => .ok (.ofInt (if b then 1 else 0))
  | .str s => numberOfText s.toList
  | .bytes octets =>
    match Text.decodeUtf8 octets with
    | .ok cs => numberOfText cs
    | .error _ => fail .unreadableNumber
  | _ => fail .notNumber

/-- A number that is not zero and not negative. -/
def positive : Decoder Binary64 := fun v => do
  let x ← number v
  if x.isZero || (x.isNegative && !x.isNaN) then fail (.notAbove 0) else return x

/-! ### Sections -/

/-- A connection from fields that are given; single variables stand in for the others. -/
def decodeConnection (vars : Folded) (given : List (String × Value)) :
    Except Schema.Fault Connection := do
  let fields := FieldList.merge (singleFields connectionForm vars) given
  let default : Connection := {}
  return {
    url := ← optional fields "appengine_url" default.url Schema.text
    realm := ← optional fields "realm" default.realm Schema.text
    token := ← optional fields "token" default.token Schema.text
    timeout := ← optional fields "timeout" default.timeout positive
    pageSize := ← optional fields "page_size" default.pageSize Schema.natural }

def decodeReporting (vars : Folded) (given : List (String × Value)) :
    Except Schema.Fault Reporting := do
  let fields := FieldList.merge (singleFields reportingForm vars) given
  let default : Reporting := {}
  return {
    level := ← optional fields "level" default.level (Schema.member Log.Level)
    structured := ← optional fields "json_output" none (Schema.nullable Schema.boolean)
    file := ← optional fields "file_path" none (Schema.nullable Schema.text) }

/-- A section that may be given. One that is not is built at once, so that its faults come before
those of anything given. -/
def buildSection {α : Type} (form : SectionForm) (typeName : String)
    (decode : List (String × Value) → Except Schema.Fault α) :
    Option Value → Except Schema.Fault (Except Schema.Fault α)
  | none => .ok <$> decode []
  | some v => .ok (under form.name (Schema.record typeName decode v))

/-- The settings that sources describe, with single variables for what they leave out. A connection
may be given from elsewhere. -/
def decode (vars : Folded) (given : Given) (connection : Option Connection) :
    Except Schema.Fault Settings := do
  let deployment : Except Schema.Fault Deployment :=
    match given.deployment with
    | some v => under "environment" (Schema.member Deployment v)
    | none => .ok .development
  let connection ←
    match connection with
    | some connection => pure (.ok connection)
    | none =>
      buildSection connectionForm "AppEngineSettings" (decodeConnection vars) given.connection
  let reporting ←
    buildSection reportingForm "LoggingSettings" (decodeReporting vars) given.reporting
  return { deployment := ← deployment, connection := ← connection, reporting := ← reporting }

def filePath : String := ".env"

def read (vars : Variables) (files : Files) (connection : Option Connection) :
    Except Fault Settings := do
  let lines ← ((FieldList.get? files filePath).elim (.ok []) (DotEnv.read vars)).mapError
    .undecodable
  let surroundings := fold (vars.map fun entry => (entry.1, some entry.2))
  let given ← givenIn .surroundings surroundings
  let fileGiven ← givenIn .file (fold lines)
  (decode surroundings (given.over fileGiven) connection).mapError .invalid

/-- The settings, once secrets have been loaded. -/
def load (vars : Variables) (files : Files) : Except Fault Settings := do
  let loaded ← (Secrets.load Secrets.defaultKeys vars files).mapError .badSecret
  read loaded.vars files none

end Telemetry.Settings
