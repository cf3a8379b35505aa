import Telemetry.Digest
import Telemetry.Text.Encoding
import Telemetry.Text.Integer

/-! Universally unique identifiers: sixteen octets. -/

namespace Telemetry

structure Uuid where
  octets : List UInt8
  size : octets.length = 16

namespace Uuid

inductive Fault where
  | badlyFormed
  | notANumber (fault : Text.IntegerFault)
  | outOfRange
  deriving DecidableEq

def Fault.message : Fault → String
  | .badlyFormed => "badly formed hexadecimal UUID string"
  | .notANumber fault => fault.message
  | .outOfRange => "int is out of range (need a 128-bit value)"

def ofOctets? (octets : List UInt8) : Option Uuid :=
  if h : octets.length = 16 then some ⟨octets, h⟩ else none

/-- The octets of a number, highest first, with as many as a UUID has. -/
def ofNat (n : Nat) : Uuid :=
  ⟨Digest.bigEndian 16 n, by simp [Digest.bigEndian]⟩

/-- A text without every occurrence of a word. -/
def removeWord (word : List Char) : List Char → List Char
  | [] => []
  | c :: rest =>
    if word ≠ [] ∧ word.isPrefixOf (c :: rest) then
      removeWord word (rest.drop (word.length - 1))
    else c :: removeWord word rest
  termination_by cs => cs.length
  decreasing_by all_goals (simp only [List.length_cons, List.length_drop]; omega)

/-- Reads 32 hexadecimal digits; the marks `urn:` and `uuid:`, braces around the text and all
hyphens are dropped first. -/
def parse (text : String) : Except Fault Uuid :=
  let bare := removeWord "uuid:".toList (removeWord "urn:".toList text.toList)
  let inner := Text.trimWith (fun c => c = '\x7b' || c = '\x7d') bare
  let cs := inner.filter (· ≠ '-')
  if cs.length ≠ 32 then .error .badlyFormed
  else
    match Text.readInteger 16 cs with
    | .error fault => .error (.notANumber fault)
    | .ok n => if n < 0 then .error .outOfRange else .ok (ofNat n.toNat)

def hexOf (octets : List UInt8) : List Char :=
  octets.flatMap fun b => Text.hexText 2 b.toNat

/-- Lower-case hexadecimal digits in groups of eight, four, four, four and twelve. -/
def text (u : Uuid) : String :=
  let o := u.octets
  String.ofList (hexOf (o.take 4) ++ '-' :: hexOf ((o.drop 4).take 2) ++
    '-' :: hexOf ((o.drop 6).take 2) ++ '-' :: hexOf ((o.drop 8).take 2) ++
    '-' :: hexOf (o.drop 10))

/-- Octets with the version and the variant of a UUID written into them. -/
def withVersion (version : Nat) (octets : List UInt8) : List UInt8 :=
  octets.mapIdx fun i b =>
    if i = 6 then UInt8.ofNat (b.toNat % 16 + 16 * version)
    else if i = 8 then UInt8.ofNat (b.toNat % 64 + 128)
    else b

theorem length_withVersion (version : Nat) (octets : List UInt8) :
    (withVersion version octets).length = octets.length := by
  simp [withVersion]

theorem length_hash (message : List UInt8) : (Digest.hash message).length = 20 := by
  simp [Digest.hash, Digest.bigEndian]

/-- The UUID that a namespace and a name determine, by the hash of both. -/
def named (namespace' : Uuid) (name : List UInt8) : Uuid :=
  ⟨withVersion 5 ((Digest.hash (namespace'.octets ++ name)).take 16), by
    simp [length_withVersion, length_hash]⟩

/-- The UUID made of sixteen octets chosen at random. -/
def random (seed : Uuid) : Uuid :=
  ⟨withVersion 4 seed.octets, by simp [length_withVersion, seed.size]⟩

/-- The version that is written into a UUID of the usual variant. -/
def version? (u : Uuid) : Option Nat :=
  match u.octets.drop 6 with
  | a :: _ :: c :: _ => if c.toNat / 64 = 2 then some (a.toNat / 16) else none
  | _ => none

end Uuid

end Telemetry
