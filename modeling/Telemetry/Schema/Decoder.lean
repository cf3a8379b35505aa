import Telemetry.Schema.Numeral
import Telemetry.Text.Encoding
import Telemetry.Value.Fields

/-!
Decoders of single values and of the fields of an object. The strict ones take a value of the one
kind that is declared; the lenient ones convert what can be converted without loss.
-/

namespace Telemetry.Schema

abbrev Decoder (α : Type) := Value → Except Fault α

/-- A fault at the value itself. -/
def fail {α : Type} (cause : Cause) : Except Fault α :=
  .error ⟨[], cause⟩

/-- The result of decoding a part, with the step to the part put before any fault. -/
def under {α : Type} (step : String) : Except Fault α → Except Fault α
  | .ok a => .ok a
  | .error fault => .error (fault.below step)

/-! ### Text -/

def strictText : Decoder String
  | .str s => .ok s
  | _ => fail .notText

/-- Octets are read as UTF-8. -/
def text : Decoder String
  | .str s => .ok s
  | .bytes octets | .buffer octets =>
    match Text.decodeUtf8 octets with
    | .ok cs => .ok (String.ofList cs)
    | .error _ => fail .notUnicode
  | _ => fail .notText

/-- Whether a text has a UTF-8 form is seen in its letters, where a document is read. -/
def nonEmptyText : Decoder String := fun v => do
  let s ← text v
  if s = "" then fail .emptyText else return s

/-! ### Integers -/

def strictInteger : Decoder Int
  | .int n => .ok n
  | _ => fail .notInteger

def integerOfText (cs : List Char) : Except Fault Int :=
  (Numeral.read cs).mapError (⟨[], ·⟩)

/-- The integers of 64 bits are below this bound: `2 ^ 63`. -/
def wordBound : Nat := 0x8000000000000000

/-- A number without a fraction that is less than the bound either way. -/
def integerOfFloat (x : Binary64) : Except Fault Int :=
  match x.truncate? with
  | none => fail .notFinite
  | some n =>
    if !x.isIntegral then fail .fractionalInteger
    else if n.natAbs < wordBound then .ok n
    else fail .hugeInteger

def integer : Decoder Int
  | .int n => .ok n
  | .bool b => .ok (if b then 1 else 0)
  | .float x => integerOfFloat x
  | .str s => integerOfText s.toList
  | .bytes octets =>
    match Text.decodeUtf8 octets with
    | .ok cs => integerOfText cs
    | .error _ => fail .unreadableInteger
  | _ => fail .notInteger

def natural : Decoder Nat := fun v => do
  let n ← integer v
  if n < 0 then fail (.belowMinimum 0) else return n.toNat

/-! ### Booleans -/

def falseWords : List String := ["0", "off", "f", "false", "n", "no"]
def trueWords : List String := ["1", "on", "t", "true", "y", "yes"]

def lowerAscii (cs : List Char) : List Char :=
  cs.map fun c => if 'A' ≤ c && c ≤ 'Z' then Char.ofNat (c.toNat + 32) else c

def booleanOfText (cs : List Char) : Except Fault Bool :=
  let word := String.ofList (lowerAscii cs)
  if falseWords.contains word then .ok false
  else if trueWords.contains word then .ok true
  else fail .unreadableBoolean

def booleanOfInt (n : Int) : Except Fault Bool :=
  if n = 0 then .ok false else if n = 1 then .ok true else fail .unreadableBoolean

/-- Zero and one are read as booleans, also when written as text; so are a few words. -/
def boolean : Decoder Bool
  | .bool b => .ok b
  | .int n =>
    if -(wordBound : Int) ≤ n && n < wordBound then booleanOfInt n else fail .notBoolean
  | .float x =>
    match integerOfFloat x with
    | .ok n => booleanOfInt n
    | .error _ => fail .notBoolean
  | .str s => booleanOfText s.toList
  | .bytes octets =>
    match Text.decodeUtf8 octets with
    | .ok cs => booleanOfText cs
    | .error _ => fail .unreadableBoolean
  | _ => fail .notBoolean

/-! ### Enumerations, options and lists -/

def member (α : Type) [Wording α] : Decoder α := fun v =>
  let found : Option α :=
    match text v with
    | .ok s => Wording.ofWire? s
    | .error _ => none
  found.elim (fail (.notMember ((Wording.members (α := α)).map wire))) .ok

def nullable {α : Type} (decode : Decoder α) : Decoder (Option α)
  | .null => .ok none
  | v => some <$> decode v

/-- Decodes items in turn; a fault is found below the position of its item. -/
def itemsFrom {α : Type} (decode : Decoder α) (position : Nat) : List Value → Except Fault (List α)
  | [] => .ok []
  | item :: rest => do
    let item ← under (toString position) (decode item)
    let rest ← itemsFrom decode (position + 1) rest
    return item :: rest

def list {α : Type} (decode : Decoder α) : Decoder (List α)
  | .list items | .tuple items => itemsFrom decode 0 items
  | _ => fail .notList

def nonEmptyList {α : Type} (decode : Decoder α) : Decoder (List α) := fun v => do
  let items ← list decode v
  if items.isEmpty then fail .emptyList else return items

def fieldsOf {α : Type} (decode : Decoder α) :
    List (String × Value) → Except Fault (List (String × α))
  | [] => .ok []
  | (name, item) :: rest => do
    let item ← under name (decode item)
    let rest ← fieldsOf decode rest
    return (name, item) :: rest

/-- The step to what stands under a key: texts as they are, truth values as numbers, all else in
literal form. -/
def keyStep : Value → String
  | .str s => s
  | .bool b => if b then "1" else "0"
  | key => key.literalText

/-- Pairs whose keys are texts too. Keys that are the same text share the place of the first. -/
def pairsOf {α : Type} (decode : Decoder α) (found : FieldList α) :
    List (Value × Value) → Except Fault (FieldList α)
  | [] => .ok found
  | (key, item) :: rest => do
    let name ← under (keyStep key) (under "[key]" (text key))
    let item ← under (keyStep key) (decode item)
    pairsOf decode (FieldList.insert found name item) rest

def dictionary {α : Type} (decode : Decoder α) : Decoder (List (String × α))
  | .object fields => fieldsOf decode fields
  | _ => fail .notDictionary

/-! ### Fields of a record -/

def record {α : Type} (name : String) (decode : List (String × Value) → Except Fault α) :
    Decoder α
  | .object fields => decode fields
  | _ => fail (.notRecord name)

def required {α : Type} (fields : List (String × Value)) (name : String) (decode : Decoder α) :
    Except Fault α :=
  match FieldList.get? fields name with
  | some v => under name (decode v)
  | none => under name (fail .missing)

def optional {α : Type} (fields : List (String × Value)) (name : String) (default : α)
    (decode : Decoder α) : Except Fault α :=
  match FieldList.get? fields name with
  | some v => under name (decode v)
  | none => .ok default

/-- The fields of a document that are set, in order. -/
def setFields (fields : List (String × Option Value)) : List (String × Value) :=
  fields.filterMap fun field => field.2.map (field.1, ·)

end Telemetry.Schema
