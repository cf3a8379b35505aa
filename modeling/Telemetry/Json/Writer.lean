import Telemetry.Value.Literal
import Telemetry.Text.Encoding

/-!
Writing documents in ASCII: a comma or a colon is followed by a space, and every character outside
printable ASCII is an escaped code unit or a pair of them.
-/

namespace Telemetry.Json

def writeUnit (n : Nat) : List Char :=
  '\\' :: 'u' :: Text.hexText 4 n

def writeChar (c : Char) : List Char :=
  if c = '"' then ['\\', '"']
  else if c = '\\' then ['\\', '\\']
  else if c = '\n' then ['\\', 'n']
  else if c = '\r' then ['\\', 'r']
  else if c = '\t' then ['\\', 't']
  else if c = '\x0C' then ['\\', 'f']
  else if c = '\x08' then ['\\', 'b']
  else if 0x20 ≤ c.toNat && c.toNat < 0x7F then [c]
  else if c.toNat < 0x10000 then writeUnit c.toNat
  else
    writeUnit (0xD800 + (c.toNat - 0x10000) / 0x400) ++
      writeUnit (0xDC00 + (c.toNat - 0x10000) % 0x400)

def writeText (s : String) : List Char :=
  '"' :: s.toList.flatMap writeChar ++ ['"']

mutual
/-- What a document cannot hold is written as the text of its literal form. -/
def write : Value → List Char
  | .null => "null".toList
  | .bool b => (if b then "true" else "false").toList
  | .int n => Decimal.intText n
  | .float x => Decimal.documentFormat.text x
  | .str s => writeText s
  | .list items | .tuple items => '[' :: Text.join [',', ' '] (writeItems items) ++ [']']
  | .object fields => '\x7b' :: Text.join [',', ' '] (writeFields fields) ++ ['\x7d']
  | v => writeText v.literalText
def writeItems : List Value → List (List Char)
  | [] => []
  | item :: rest => write item :: writeItems rest
def writeFields : List (String × Value) → List (List Char)
  | [] => []
  | (name, item) :: rest => (writeText name ++ ':' :: ' ' :: write item) :: writeFields rest
end

def writeString (v : Value) : String :=
  String.ofList (write v)

end Telemetry.Json
