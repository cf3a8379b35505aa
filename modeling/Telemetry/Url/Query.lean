import Telemetry.Text.Percent
import Telemetry.Url.Host
import Telemetry.Value.Fields

/-! The query of a link, and queries as lists of named parameters. -/

namespace Telemetry

abbrev Query := FieldList String

namespace Url

/-- Controls and the space before a link are skipped; line breaks and tabs are left out anywhere. -/
def clean (cs : List Char) : List Char :=
  (cs.dropWhile (·.toNat ≤ 0x20)).filter fun c => c ≠ '\t' && c ≠ '\n' && c ≠ '\r'

def isSchemeChar (c : Char) : Bool :=
  c.isAlphanum || c = '+' || c = '-' || c = '.'

def dropScheme (cs : List Char) : List Char :=
  match Text.cut ':' cs with
  | (scheme, some rest) =>
    if scheme.head?.any Char.isAlpha && scheme.all isSchemeChar then rest else cs
  | (_, none) => cs

def isAuthorityChar (c : Char) : Bool :=
  c ≠ '/' && c ≠ '?' && c ≠ '#'

/-- The query of a link, empty if it has none. Fragments are no part of it. -/
def query (link : List Char) : Except Fault (List Char) := do
  let rest := dropScheme (clean link)
  let (authority, rest) :=
    match rest with
    | '/' :: '/' :: rest => (rest.takeWhile isAuthorityChar, rest.dropWhile isAuthorityChar)
    | rest => ([], rest)
  checkBrackets authority
  checkDisguises authority
  return (Text.cut '?' (Text.cut '#' rest).1).2.getD []

end Url

namespace Query

/-- One side of a parameter: a plus is a space, and escapes are decoded. -/
def decodePart (cs : List Char) : String :=
  String.ofList (Text.Percent.decode (cs.map fun c => if c = '+' then ' ' else c))

/-- A parameter without a value is left out. -/
def readPair (cs : List Char) : Option (String × String) :=
  match Text.cut '=' cs with
  | (_, none) | (_, some []) => none
  | (name, some item) => some (decodePart name, decodePart item)

/-- Of parameters with one name the last counts, at the place of the first. -/
def read (cs : List Char) : Query :=
  FieldList.ofList ((Text.pieces '&' cs).filterMap readPair)

def sorted (query : Query) : Query :=
  query.mergeSort fun a b => decide (a.1 ≤ b.1)

end Query

end Telemetry
