/-!
Base64: three octets are written as four digits of six bits. At the end one or two octets remain,
which take two or three digits; the standard form fills them up with padding.
-/

namespace Telemetry.Base64

/-- The two alphabets differ in the last two digits. -/
inductive Alphabet where
  | standard
  | urlSafe
  deriving DecidableEq

def Alphabet.chars : Alphabet → List Char
  | .standard => "ABCDEFGHIJKLMNOPQRSTUVWXYZabcdefghijklmnopqrstuvwxyz0123456789+/".toList
  | .urlSafe => "ABCDEFGHIJKLMNOPQRSTUVWXYZabcdefghijklmnopqrstuvwxyz0123456789-_".toList

def Alphabet.char (alphabet : Alphabet) (digit : Nat) : Char :=
  alphabet.chars.getD digit 'A'

def Alphabet.digit? (alphabet : Alphabet) (c : Char) : Option Nat :=
  alphabet.chars.idxOf? c

/-- The digits of octets, the bits left over in the last one zero. -/
def digits : List UInt8 → List Nat
  | [] => []
  | [a] => [a.toNat / 4, a.toNat % 4 * 16]
  | [a, b] => [a.toNat / 4, a.toNat % 4 * 16 + b.toNat / 16, b.toNat % 16 * 4]
  | a :: b :: c :: rest =>
    a.toNat / 4 :: (a.toNat % 4 * 16 + b.toNat / 16) :: (b.toNat % 16 * 4 + c.toNat / 64) ::
      c.toNat % 64 :: digits rest

/-- The octets of digits; bits that fill no octet are dropped. -/
def octets : List Nat → List UInt8
  | w :: x :: y :: z :: rest =>
    UInt8.ofNat (w * 4 + x / 16) :: UInt8.ofNat (x % 16 * 16 + y / 4) ::
      UInt8.ofNat (y % 4 * 64 + z) :: octets rest
  | [w, x, y] => [UInt8.ofNat (w * 4 + x / 16), UInt8.ofNat (x % 16 * 16 + y / 4)]
  | [w, x] => [UInt8.ofNat (w * 4 + x / 16)]
  | _ => []

/-- How many padding characters follow the digits of so many octets. -/
def paddingSize (size : Nat) : Nat :=
  (3 - size % 3) % 3

def encode (alphabet : Alphabet) (data : List UInt8) : List Char :=
  (digits data).map alphabet.char

def encodePadded (data : List UInt8) : List Char :=
  encode .standard data ++ List.replicate (paddingSize data.length) '='

/-- Reads digits without padding. -/
def decode? (alphabet : Alphabet) (cs : List Char) : Option (List UInt8) :=
  octets <$> cs.mapM alphabet.digit?

/-- Reads the standard form, padding included. -/
def decodePadded? (cs : List Char) : Option (List UInt8) := do
  let body := cs.takeWhile (· ≠ '=')
  let data ← decode? .standard body
  if cs = body ++ List.replicate (paddingSize data.length) '=' then some data else none

end Telemetry.Base64
