import Telemetry.Text.Digit
import Telemetry.Text.Encoding

/-!
Percent escapes: an octet that must not stand for itself is written as `%` and two hexadecimal
digits. Text is taken as UTF-8.
-/

namespace Telemetry.Text

/-- Reads UTF-8; octets that are no text become replacement characters. -/
def decodeUtf8Lossy (octets : List UInt8) : List Char :=
  match _h : decodeUtf8 octets with
  | .ok cs => cs
  | .error fault =>
    let valid := (decodeUtf8 (octets.take fault.position)).toOption.getD []
    valid ++ '\uFFFD' :: decodeUtf8Lossy (octets.drop (fault.position + max 1 fault.count))
termination_by octets.length
decreasing_by
  cases octets with
  | nil => simp [decodeUtf8, decodeUtf8At, Except.map] at _h
  | cons a rest => simp only [List.length_drop, List.length_cons]; omega

namespace Percent

/-- The octets that stand for themselves. -/
def isUnreserved (b : UInt8) : Bool :=
  let c := Char.ofNat b.toNat
  c.isAlphanum || c = '_' || c = '.' || c = '-' || c = '~'

def upperHex (n : Nat) : Char :=
  (hexDigit n).toUpper

def encodeOctet (b : UInt8) : List Char :=
  if isUnreserved b then [Char.ofNat b.toNat]
  else ['%', upperHex (b.toNat / 16), upperHex b.toNat]

def encode (cs : List Char) : List Char :=
  (encodeUtf8 cs).flatMap encodeOctet

/-- Decodes from a place where the given octets have not been read as text yet. Characters beyond
ASCII stand for themselves and end a run of octets. -/
def decodeAfter (octets : List UInt8) : List Char → List Char
  | [] => decodeUtf8Lossy octets
  | '%' :: a :: b :: rest =>
    match hexValue? a, hexValue? b with
    | some high, some low => decodeAfter (octets ++ [UInt8.ofNat (high * 16 + low)]) rest
    | _, _ => decodeAfter (octets ++ [0x25]) (a :: b :: rest)
  | c :: rest =>
    if c.toNat < 0x80 then decodeAfter (octets ++ [UInt8.ofNat c.toNat]) rest
    else decodeUtf8Lossy octets ++ c :: decodeAfter [] rest

/-- A `%` that starts no escape stands for itself. -/
def decode (cs : List Char) : List Char :=
  decodeAfter [] cs

end Percent

end Telemetry.Text
