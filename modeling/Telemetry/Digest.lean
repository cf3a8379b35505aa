/-! The 160-bit secure hash of a sequence of octets. -/

namespace Telemetry.Digest

structure State where
  a : UInt32
  b : UInt32
  c : UInt32
  d : UInt32
  e : UInt32

def initial : State :=
  ⟨0x67452301, 0xEFCDAB89, 0x98BADCFE, 0x10325476, 0xC3D2E1F0⟩

def rotateLeft (x : UInt32) (n : UInt32) : UInt32 :=
  (x <<< n) ||| (x >>> (32 - n))

def bigEndian : Nat → Nat → List UInt8
  | 0, _ => []
  | size + 1, n => bigEndian size (n / 256) ++ [UInt8.ofNat (n % 256)]

/-- A one bit, zeros up to eight octets below a multiple of 64, and the length in bits. -/
def pad (message : List UInt8) : List UInt8 :=
  let zeros := (119 - message.length % 64) % 64
  message ++ 0x80 :: List.replicate zeros 0 ++ bigEndian 8 (8 * message.length)

def word (a b c d : UInt8) : UInt32 :=
  UInt32.ofNat (((a.toNat * 256 + b.toNat) * 256 + c.toNat) * 256 + d.toNat)

def wordsOf : List UInt8 → List UInt32
  | a :: b :: c :: d :: rest => word a b c d :: wordsOf rest
  | _ => []

/-- Extends the last sixteen words, newest first, by the given number of rounds. -/
def extend : Nat → List UInt32 → List UInt32
  | 0, newestFirst => newestFirst
  | rounds + 1, newestFirst =>
    let back (n : Nat) := newestFirst.getD (n - 1) 0
    extend rounds (rotateLeft (back 3 ^^^ back 8 ^^^ back 14 ^^^ back 16) 1 :: newestFirst)

/-- The mixing function and the constant of a round. -/
def mix (round : Nat) (b c d : UInt32) : UInt32 × UInt32 :=
  if round < 20 then ((b &&& c) ||| (~~~b &&& d), 0x5A827999)
  else if round < 40 then (b ^^^ c ^^^ d, 0x6ED9EBA1)
  else if round < 60 then ((b &&& c) ||| (b &&& d) ||| (c &&& d), 0x8F1BBCDC)
  else (b ^^^ c ^^^ d, 0xCA62C1D6)

def step (s : State) (numbered : UInt32 × Nat) : State :=
  let (f, k) := mix numbered.2 s.b s.c s.d
  ⟨rotateLeft s.a 5 + f + s.e + k + numbered.1, s.a, rotateLeft s.b 30, s.c, s.d⟩

def block (s : State) (words : List UInt32) : State :=
  let schedule := (extend 64 words.reverse).reverse
  let t := (schedule.zipIdx).foldl step s
  ⟨s.a + t.a, s.b + t.b, s.c + t.c, s.d + t.d, s.e + t.e⟩

/-- The given number of blocks of sixteen words in turn. -/
def blocks : Nat → State → List UInt32 → State
  | 0, s, _ => s
  | count + 1, s, words => blocks count (block s (words.take 16)) (words.drop 16)

def hash (message : List UInt8) : List UInt8 :=
  let words := wordsOf (pad message)
  let s := blocks (words.length / 16) initial words
  [s.a, s.b, s.c, s.d, s.e].flatMap fun word => bigEndian 4 word.toNat

end Telemetry.Digest
