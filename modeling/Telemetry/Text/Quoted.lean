import Telemetry.Text.Printable

/-!
Text between quotes. A text is put in single quotes unless it holds a single quote and no double
one; the quote, the backslash and whatever cannot be printed are escaped.
-/

namespace Telemetry.Text

def hexDigit (n : Nat) : Char :=
  (Nat.toDigits 16 (n % 16)).headD '0'

/-- The last `width` hexadecimal digits of a number. -/
def hexText : Nat → Nat → List Char
  | 0, _ => []
  | width + 1, n => hexText width (n / 16) ++ [hexDigit n]

/-- The quote that needs the fewer escapes. -/
def quoteFor (cs : List Char) : Char :=
  if cs.contains '\'' && !cs.contains '"' then '"' else '\''

/-- How a character stands between quotes, of which the given one is escaped. -/
def escapeChar (printable : Char → Bool) (quote c : Char) : List Char :=
  if c = quote || c = '\\' then ['\\', c]
  else if c = '\t' then ['\\', 't']
  else if c = '\n' then ['\\', 'n']
  else if c = '\r' then ['\\', 'r']
  else if printable c then [c]
  else if c.toNat < 0x100 then '\\' :: 'x' :: hexText 2 c.toNat
  else if c.toNat < 0x10000 then '\\' :: 'u' :: hexText 4 c.toNat
  else '\\' :: 'U' :: hexText 8 c.toNat

def quotedWith (printable : Char → Bool) (cs : List Char) : List Char :=
  let quote := quoteFor cs
  quote :: cs.flatMap (escapeChar printable quote) ++ [quote]

def quoted (cs : List Char) : List Char :=
  quotedWith isPrintable cs

/-- Whether an octet, as the character of its number, is printable ASCII. -/
def isPrintableOctet (c : Char) : Bool :=
  0x20 ≤ c.toNat && c.toNat < 0x7F

def charsOfOctets (octets : List UInt8) : List Char :=
  octets.map fun b => Char.ofNat b.toNat

/-- Octets between quotes: those of printable ASCII stand for themselves. -/
def quotedOctets (octets : List UInt8) : List Char :=
  quotedWith isPrintableOctet (charsOfOctets octets)

/-- Octets between quotes, where a single quote is escaped even between double ones. -/
def quotedBuffer (octets : List UInt8) : List Char :=
  let cs := charsOfOctets octets
  quoteFor cs :: cs.flatMap (escapeChar isPrintableOctet '\'') ++ [quoteFor cs]

end Telemetry.Text
