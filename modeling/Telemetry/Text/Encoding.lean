import Telemetry.Text.Letter

/-!
Reading octets as text in ASCII, UTF-8, UTF-16 and UTF-32. Surrogates that stand alone are no
characters: where they are let through, the text is one of letters.
-/

namespace Telemetry.Text

inductive Encoding where
  | ascii
  | utf8
  | utf16 (bigEndian : Bool)
  | utf32 (bigEndian : Bool)
  deriving DecidableEq

def Encoding.name : Encoding → String
  | .ascii => "ascii"
  | .utf8 => "utf-8"
  | .utf16 false => "utf-16-le"
  | .utf16 true => "utf-16-be"
  | .utf32 false => "utf-32-le"
  | .utf32 true => "utf-32-be"

inductive EncodingFlaw where
  | invalidStart
  | invalidContinuation
  | unexpectedEnd
  | truncated
  | beyondAscii
  | beyondUnicode
  | invalid
  deriving DecidableEq

def EncodingFlaw.message : EncodingFlaw → String
  | .invalidStart => "invalid start byte"
  | .invalidContinuation => "invalid continuation byte"
  | .unexpectedEnd => "unexpected end of data"
  | .truncated => "truncated data"
  | .beyondAscii => "ordinal not in range(128)"
  | .beyondUnicode => "code point not in range(0x110000)"
  | .invalid => "invalid utf-8"

/-- Octets that are no text: where they start, how many they are, and the first of them. -/
structure EncodingFault where
  encoding : Encoding
  flaw : EncodingFlaw
  position : Nat
  count : Nat
  octet : UInt8
  deriving DecidableEq

def EncodingFault.message (fault : EncodingFault) : String :=
  let place :=
    if fault.count = 1 then
      "byte 0x" ++ String.ofList (hexText 2 fault.octet.toNat) ++ " in position " ++
        toString fault.position
    else
      "bytes in position " ++ toString fault.position ++ "-" ++
        toString (fault.position + fault.count - 1)
  "'" ++ fault.encoding.name ++ "' codec can't decode " ++ place ++ ": " ++ fault.flaw.message

/-! ### ASCII -/

/-- Reads ASCII from `position` on. -/
def decodeAsciiAt (position : Nat) : List UInt8 → Except EncodingFault (List Char)
  | [] => .ok []
  | a :: rest =>
    if a < 0x80 then (Char.ofNat a.toNat :: ·) <$> decodeAsciiAt (position + 1) rest
    else .error ⟨.ascii, .beyondAscii, position, 1, a⟩

def decodeAscii (octets : List UInt8) : Except EncodingFault (List Char) :=
  decodeAsciiAt 0 octets

/-! ### UTF-8 -/

def isTail (b : UInt8) : Bool :=
  0x80 ≤ b && b ≤ 0xBF

def payload (b : UInt8) : Nat :=
  b.toNat % 64

/-- Whether the second octet of a longer character fits the first: the shortest form is required,
surrogates and what lies beyond Unicode are excluded. -/
def fitsLead (surrogates : Bool) (lead b : UInt8) : Bool :=
  isTail b &&
    (if lead = 0xE0 then 0xA0 ≤ b
     else if lead = 0xED then surrogates || b < 0xA0
     else if lead = 0xF0 then 0x90 ≤ b
     else if lead = 0xF4 then b < 0x90
     else true)

/-- Reads UTF-8 from `position` on; `surrogates` lets encoded surrogates through. -/
def decodeUtf8At (surrogates : Bool) (position : Nat) :
    List UInt8 → Except EncodingFault Letters
  | [] => .ok []
  | a :: rest =>
    let fault (flaw : EncodingFlaw) (count : Nat) : Except EncodingFault Letters :=
      .error ⟨.utf8, flaw, position, count, a⟩
    if a < 0x80 then (Letter.ofCode a.toNat :: ·) <$> decodeUtf8At surrogates (position + 1) rest
    else if a < 0xC2 || 0xF5 ≤ a then fault .invalidStart 1
    else if a < 0xE0 then
      match rest with
      | [] => fault .unexpectedEnd 1
      | b :: rest =>
        if isTail b then
          (Letter.ofCode (a.toNat % 32 * 64 + payload b) :: ·) <$>
            decodeUtf8At surrogates (position + 2) rest
        else fault .invalidContinuation 1
    else if a < 0xF0 then
      match rest with
      | [] => fault .unexpectedEnd 1
      | [b] => if fitsLead false a b then fault .unexpectedEnd 2 else fault .invalidContinuation 1
      | b :: c :: rest =>
        if !fitsLead surrogates a b then fault .invalidContinuation 1
        else if !isTail c then
          fault .invalidContinuation (if fitsLead false a b then 2 else 1)
        else
          (Letter.ofCode ((a.toNat % 16 * 64 + payload b) * 64 + payload c) :: ·) <$>
            decodeUtf8At surrogates (position + 3) rest
    else
      match rest with
      | [] => fault .unexpectedEnd 1
      | [b] => if fitsLead false a b then fault .unexpectedEnd 2 else fault .invalidContinuation 1
      | [b, c] =>
        if !fitsLead false a b then fault .invalidContinuation 1
        else if isTail c then fault .unexpectedEnd 3 else fault .invalidContinuation 2
      | b :: c :: d :: rest =>
        if !fitsLead false a b then fault .invalidContinuation 1
        else if !isTail c then fault .invalidContinuation 2
        else if !isTail d then fault .invalidContinuation 3
        else
          (Letter.ofCode (((a.toNat % 8 * 64 + payload b) * 64 + payload c) * 64 + payload d) :: ·) <$>
            decodeUtf8At surrogates (position + 4) rest

def decodeUtf8 (octets : List UInt8) : Except EncodingFault (List Char) :=
  (decodeUtf8At false 0 octets).map (List.map Letter.shown)

def encodeUtf8 (cs : List Char) : List UInt8 :=
  cs.flatMap String.utf8EncodeChar

/-! ### Wider units -/

def pairUnit (bigEndian : Bool) (a b : UInt8) : Nat :=
  if bigEndian then a.toNat * 256 + b.toNat else b.toNat * 256 + a.toNat

/-- The units of 16 bits from `position` on. -/
def units16 (bigEndian : Bool) (position : Nat) : List UInt8 → Except EncodingFault (List Nat)
  | [] => .ok []
  | [a] => .error ⟨.utf16 bigEndian, .truncated, position, 1, a⟩
  | a :: b :: rest => (pairUnit bigEndian a b :: ·) <$> units16 bigEndian (position + 2) rest

def isHighSurrogate (n : Nat) : Bool :=
  0xD800 ≤ n && n < 0xDC00

def isLowSurrogate (n : Nat) : Bool :=
  0xDC00 ≤ n && n < 0xE000

/-- The code point of a high and a low surrogate. -/
def joinSurrogates (high low : Nat) : Nat :=
  0x10000 + (high - 0xD800) * 0x400 + (low - 0xDC00)

def lettersOfUnits : List Nat → Letters
  | [] => []
  | [a] => [Letter.ofCode a]
  | a :: b :: rest =>
    if isHighSurrogate a && isLowSurrogate b then
      Letter.ofCode (joinSurrogates a b) :: lettersOfUnits rest
    else Letter.ofCode a :: lettersOfUnits (b :: rest)

def decodeUtf16At (bigEndian : Bool) (position : Nat) (octets : List UInt8) :
    Except EncodingFault Letters :=
  lettersOfUnits <$> units16 bigEndian position octets

def decodeUtf32At (bigEndian : Bool) (position : Nat) :
    List UInt8 → Except EncodingFault Letters
  | [] => .ok []
  | a :: b :: c :: d :: rest =>
    let n :=
      if bigEndian then pairUnit true a b * 65536 + pairUnit true c d
      else pairUnit false c d * 65536 + pairUnit false a b
    if n < 0x110000 then (Letter.ofCode n :: ·) <$> decodeUtf32At bigEndian (position + 4) rest
    else .error ⟨.utf32 bigEndian, .beyondUnicode, position, 4, a⟩
  | a :: rest => .error ⟨.utf32 bigEndian, .truncated, position, rest.length + 1, a⟩

end Telemetry.Text
