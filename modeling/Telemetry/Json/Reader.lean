import Telemetry.Json.Fault
import Telemetry.Json.Tree
import Telemetry.Text.Digit

/-!
Reading documents. The grammar is that of JSON with three more numbers, `NaN`, `Infinity` and
`-Infinity`; integers are exact, all other numbers are rounded to binary64, and a name that is
repeated in an object keeps its first place and its last value. The reader goes by characters, and
keeps apart where half of a surrogate pair stands in the place of one.
-/

namespace Telemetry.Json

open Text (Letter Letters)

/-- What stops the reader: a flaw with the number of characters left at its place, or an excess. -/
inductive Stop where
  | flaw (flaw : Flaw) (left : Nat)
  | excess (excess : Excess)

abbrev Step (α : Type) := Except Stop (α × List Char)

def stop {α : Type} (flaw : Flaw) (rest : List Char) : Except Stop α :=
  .error (.flaw flaw rest.length)

def Step.map {α β : Type} (f : α → β) : Step α → Step β
  | .ok (a, rest) => .ok (f a, rest)
  | .error s => .error s

def isSpace (c : Char) : Bool :=
  c = ' ' || c = '\t' || c = '\n' || c = '\r'

def skipSpace (cs : List Char) : List Char :=
  cs.dropWhile isSpace

/-! ### Halves of pairs -/

/-- Halves that stand as they are in a text, each with the number of letters after it. -/
abbrev Halves := List (Nat × Nat)

def Halves.of : Letters → Halves
  | [] => []
  | .char _ :: rest => of rest
  | .half unit :: rest => (rest.length, unit) :: of rest

/-- The letter that stands before the rest of a text and is shown as `c`. -/
def Halves.letter : Halves → Char → List Char → Letter
  | [], c, _ => .char c
  | halves, c, rest =>
    match List.lookup rest.length halves with
    | some unit => .half unit
    | none => .char c

/-! ### Texts -/

def codeUnit? (a b c d : Char) : Option Nat := do
  let high := (← Text.hexValue? a) * 16 + (← Text.hexValue? b)
  let low := (← Text.hexValue? c) * 16 + (← Text.hexValue? d)
  return high * 256 + low

def unescape? : Char → Option Char
  | '"' => some '"'
  | '\\' => some '\\'
  | '/' => some '/'
  | 'b' => some '\x08'
  | 'f' => some '\x0C'
  | 'n' => some '\n'
  | 'r' => some '\r'
  | 't' => some '\t'
  | _ => none

/-- The rest of a text after its opening quote, which had `start` characters left before it. A
code unit must be followed by a character, and a pair of surrogates by one more. -/
def readText (halves : Halves) (start : Nat) : List Char → Step Letters
  | [] => .error (.flaw .unterminatedText start)
  | '"' :: rest => .ok ([], rest)
  | '\\' :: rest =>
    match rest with
    | [] => .error (.flaw .unterminatedText start)
    | 'u' :: a :: b :: c :: d :: more =>
      match more, codeUnit? a b c d with
      | [], _ => stop .badCodeUnit rest
      | _, none => stop .badCodeUnit rest
      | '\\' :: 'u' :: e :: f :: g :: h :: next :: rest', some high =>
        if Text.isHighSurrogate high then
          match codeUnit? e f g h with
          | none => stop .badCodeUnit (more.drop 1)
          | some low =>
            if Text.isLowSurrogate low then
              (readText halves start (next :: rest')).map
                (Letter.ofCode (Text.joinSurrogates high low) :: ·)
            else
              (readText halves start ('\\' :: 'u' :: e :: f :: g :: h :: next :: rest')).map
                (Letter.ofCode high :: ·)
        else
          (readText halves start ('\\' :: 'u' :: e :: f :: g :: h :: next :: rest')).map
            (Letter.ofCode high :: ·)
      | more, some unit =>
        (readText halves start more).map (Letter.ofCode unit :: ·)
    | 'u' :: _ => stop .badCodeUnit rest
    | c :: more =>
      match unescape? c with
      | some plain => (readText halves start more).map (.char plain :: ·)
      | none => stop .unknownEscape ('\\' :: rest)
  | c :: rest =>
    if c.toNat < 0x20 then stop .controlCharacter (c :: rest)
    else (readText halves start rest).map (halves.letter c rest :: ·)

/-! ### Numbers -/

structure Numeral where
  negative : Bool
  whole : List Char
  fraction : List Char
  exponent : Option Int

/-- The digits at the start of a text, and the text after them. -/
def spanDigits (cs : List Char) : List Char × List Char :=
  (cs.takeWhile Text.isAsciiDigit, cs.dropWhile Text.isAsciiDigit)

def digitsValue (digits : List Char) : Nat :=
  Nat.ofDigitChars 10 digits 0

/-- A fraction is a point and at least one digit. -/
def readFraction : List Char → List Char × List Char
  | '.' :: rest =>
    match spanDigits rest with
    | ([], _) => ([], '.' :: rest)
    | (digits, rest) => (digits, rest)
  | rest => ([], rest)

/-- An exponent is a mark, perhaps a sign, and at least one digit. -/
def readExponent (cs : List Char) : Option Int × List Char :=
  match cs with
  | mark :: rest =>
    if mark = 'e' || mark = 'E' then
      let (negative, rest) :=
        match rest with
        | '+' :: rest => (false, rest)
        | '-' :: rest => (true, rest)
        | rest => (false, rest)
      match spanDigits rest with
      | ([], _) => (none, cs)
      | (digits, rest) =>
        (some (if negative then -(digitsValue digits : Int) else digitsValue digits), rest)
    else (none, cs)
  | [] => (none, [])

/-- A number starts with a digit, and its whole part has no needless zero. -/
def readNumeral? (cs : List Char) : Option (Numeral × List Char) :=
  let (negative, unsigned) :=
    match cs with
    | '-' :: rest => (true, rest)
    | rest => (false, rest)
  let (whole, rest) :=
    match unsigned with
    | '0' :: rest => (['0'], rest)
    | rest => spanDigits rest
  if whole.isEmpty then none
  else
    let (fraction, rest) := readFraction rest
    let (exponent, rest) := readExponent rest
    some (⟨negative, whole, fraction, exponent⟩, rest)

/-- The number that is written: an integer if there is neither fraction nor exponent. -/
def Numeral.value (n : Numeral) : Except Stop Value :=
  if n.fraction.isEmpty && n.exponent.isNone then
    if integerDigitLimit < n.whole.length then .error (.excess (.longInteger n.whole.length))
    else
      .ok (.int (if n.negative then -(digitsValue n.whole : Int) else digitsValue n.whole))
  else
    .ok (.float (Binary64.ofDecimal n.negative (digitsValue (n.whole ++ n.fraction))
      (n.exponent.getD 0 - n.fraction.length)))

/-! ### Values -/

/-- The words that stand for a value. -/
def words : List (List Char × Value) :=
  [("null".toList, .null), ("true".toList, .bool true), ("false".toList, .bool false),
    ("NaN".toList, .float .nan), ("Infinity".toList, .float (.infinity false)),
    ("-Infinity".toList, .float (.infinity true))]

def dropWord? : List Char → List Char → Option (List Char)
  | [], rest => some rest
  | c :: word, d :: rest => if c = d then dropWord? word rest else none
  | _ :: _, [] => none

def readWord? (cs : List Char) : Option (Value × List Char) :=
  words.findSome? fun word => (dropWord? word.1 cs).map (word.2, ·)

def readScalar (cs : List Char) : Step Value :=
  match readWord? cs with
  | some found => .ok found
  | none =>
    match readNumeral? cs with
    | some (numeral, rest) => numeral.value.map (·, rest)
    | none => stop .expectedValue cs

def readName (halves : Halves) : List Char → Step Letters
  | '"' :: rest =>
    match readText halves (rest.length + 1) rest with
    | .error s => .error s
    | .ok (name, rest) =>
      match skipSpace rest with
      | ':' :: rest => .ok (name, skipSpace rest)
      | rest => stop .expectedColon rest
  | cs => stop .expectedName cs

mutual
/-- Every call takes one unit of `fuel`; two units for each character are enough. Every list or
object that is open takes one unit of `room`. -/
def readValue (halves : Halves) : Nat → Nat → List Char → Step Tree
  | 0, _, cs => stop .expectedValue cs
  | fuel + 1, room, cs =>
    match cs with
    | '"' :: rest => (readText halves (rest.length + 1) rest).map .text
    | '[' :: rest =>
      match room with
      | 0 => .error (.excess (.nesting false))
      | room + 1 =>
        match skipSpace rest with
        | ']' :: rest => .ok (.list [], rest)
        | rest => (readItems halves fuel room rest).map .list
    | '\x7b' :: rest =>
      match room with
      | 0 => .error (.excess (.nesting true))
      | room + 1 =>
        match skipSpace rest with
        | '\x7d' :: rest => .ok (.object [], rest)
        | rest => (readMembers halves fuel room rest).map .object
    | cs => (readScalar cs).map .plain
def readItems (halves : Halves) : Nat → Nat → List Char → Step (List Tree)
  | 0, _, cs => stop .expectedValue cs
  | fuel + 1, room, cs =>
    match readValue halves fuel room cs with
    | .error s => .error s
    | .ok (item, rest) =>
      match skipSpace rest with
      | ']' :: rest => .ok ([item], rest)
      | ',' :: rest => (readItems halves fuel room (skipSpace rest)).map (item :: ·)
      | rest => stop .expectedComma rest
def readMembers (halves : Halves) : Nat → Nat → List Char → Step (List (Letters × Tree))
  | 0, _, cs => stop .expectedValue cs
  | fuel + 1, room, cs =>
    match readName halves cs with
    | .error s => .error s
    | .ok (name, rest) =>
      match readValue halves fuel room rest with
      | .error s => .error s
      | .ok (item, rest) =>
        match skipSpace rest with
        | '\x7d' :: rest => .ok ([(name, item)], rest)
        | ',' :: rest => (readMembers halves fuel room (skipSpace rest)).map ((name, item) :: ·)
        | rest => stop .expectedComma rest
end

def Stop.fault (cs : List Char) : Stop → Fault
  | .flaw what left => .malformed what (placeAfter (cs.take (cs.length - left)))
  | .excess what => .excess what

/-- Reads a whole text: one value with nothing but space around it. -/
def readLetters (letters : Letters) : Except Fault Tree :=
  let cs := letters.map Letter.shown
  match readValue (.of letters) (2 * cs.length + 2) nestingLimit (skipSpace cs) with
  | .error s => .error (s.fault cs)
  | .ok (tree, rest) =>
    match skipSpace rest with
    | [] => .ok tree
    | rest => .error ((Stop.flaw Flaw.extraData rest.length).fault cs)

/-! ### Documents as they arrive -/

/-- A document as text, as octets, or already taken apart. -/
inductive Document where
  | text (letters : Letters)
  | octets (data : List UInt8)
  | value (v : Value)

/-- The encoding is known by a byte order mark or by where the zeros of the first characters
stand. Surrogates that stand alone are let through. -/
def decodeOctets (octets : List UInt8) : Except Text.EncodingFault Letters :=
  match octets with
  | 0x00 :: 0x00 :: 0xFE :: 0xFF :: rest => Text.decodeUtf32At true 4 rest
  | 0xFF :: 0xFE :: 0x00 :: 0x00 :: rest => Text.decodeUtf32At false 4 rest
  | 0xFE :: 0xFF :: rest => Text.decodeUtf16At true 2 rest
  | 0xFF :: 0xFE :: rest => Text.decodeUtf16At false 2 rest
  | 0xEF :: 0xBB :: 0xBF :: rest => Text.decodeUtf8At true 0 rest
  | a :: b :: c :: d :: _ =>
    if a = 0 then
      if b ≠ 0 then Text.decodeUtf16At true 0 octets else Text.decodeUtf32At true 0 octets
    else if b = 0 then
      if c ≠ 0 || d ≠ 0 then Text.decodeUtf16At false 0 octets
      else Text.decodeUtf32At false 0 octets
    else Text.decodeUtf8At true 0 octets
  | [a, b] =>
    if a = 0 then Text.decodeUtf16At true 0 octets
    else if b = 0 then Text.decodeUtf16At false 0 octets
    else Text.decodeUtf8At true 0 octets
  | _ => Text.decodeUtf8At true 0 octets

/-- A text may not start with a byte order mark. -/
def Document.tree : Document → Except Fault Tree
  | .text letters =>
    if letters.head? = some (.char '\uFEFF') then .error (.malformed .byteOrderMark ⟨1, 1, 0⟩)
    else readLetters letters
  | .octets data =>
    match decodeOctets data with
    | .error fault => .error (.undecodable fault)
    | .ok letters => readLetters letters
  | .value v => .ok (.plain v)

def Document.read (document : Document) : Except Fault Value :=
  document.tree.map Tree.shown

def readOctets (octets : List UInt8) : Except Fault Value :=
  (Document.octets octets).read

def readString (s : String) : Except Fault Value :=
  (Document.text s).read

end Telemetry.Json
