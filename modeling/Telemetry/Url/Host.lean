import Telemetry.Text.Digit
import Telemetry.Text.Quoted
import Telemetry.Text.Split

/-!
The part of a link that names a host. Brackets are for addresses of IPv6 and of later versions, and
no character may stand there that another form of it would turn into a delimiter.
-/

namespace Telemetry.Url

inductive Fault where
  | misplacedBracket
  | notAnAddress (host : List Char)
  | bracketedIpv4
  | badFutureAddress
  | disguisedDelimiter (authority : List Char)
  deriving DecidableEq

def Fault.message : Fault → String
  | .misplacedBracket => "Invalid IPv6 URL"
  | .notAnAddress host =>
    String.ofList (Text.quoted host) ++ " does not appear to be an IPv4 or IPv6 address"
  | .bracketedIpv4 => "An IPv4 address cannot be in brackets"
  | .badFutureAddress => "IPvFuture address is invalid"
  | .disguisedDelimiter authority =>
    "netloc '" ++ String.ofList authority ++
      "' contains invalid characters under NFKC normalization"

open Text (cut pieces)

/-! ### Addresses -/

def isHexDigit (c : Char) : Bool :=
  (Text.hexValue? c).isSome

/-- A decimal number up to 255 without leading zeros. -/
def isIpv4Part (cs : List Char) : Bool :=
  !cs.isEmpty && cs.length ≤ 3 && cs.all Char.isDigit && (cs = ['0'] || cs.head? ≠ some '0') &&
    Nat.ofDigitChars 10 cs 0 ≤ 255

def isIpv4 (cs : List Char) : Bool :=
  let parts := pieces '.' cs
  parts.length = 4 && parts.all isIpv4Part

def isIpv6Group (cs : List Char) : Bool :=
  !cs.isEmpty && cs.length ≤ 4 && cs.all isHexDigit

/-- Groups between single colons; a last group may be an IPv4 address, which counts for two. -/
def expandIpv4Tail (parts : List (List Char)) : Option (List (List Char)) :=
  match parts.reverse with
  | last :: before =>
    if last.contains '.' then
      if isIpv4 last then some (before.reverse ++ [['0'], ['0']]) else none
    else some parts
  | [] => some parts

/-- Whether groups make an address: eight of them, or fewer with one gap. The gap shows as an empty
group that is not at an end; an end is empty only beside it. -/
def areIpv6Groups (parts : List (List Char)) : Bool :=
  let inner := (parts.drop 1).dropLast
  match inner.zipIdx.filterMap fun group => if group.1.isEmpty then some group.2 else none with
  | [] => parts.length = 8 && parts.all isIpv6Group
  | [i] =>
    let before := parts.take (i + 1)
    let after := parts.drop (i + 2)
    let before := if before = [[]] then [] else before
    let after := if after = [[]] then [] else after
    before.length + after.length ≤ 7 && before.all isIpv6Group && after.all isIpv6Group
  | _ => false

/-- A zone may follow after a percent sign. -/
def isIpv6 (cs : List Char) : Bool :=
  let (address, zone) := cut '%' cs
  let parts := pieces ':' address
  !cs.contains '/' && zone.all (fun zone => !zone.isEmpty && !zone.contains '%') &&
    3 ≤ parts.length &&
    (expandIpv4Tail parts).any fun parts => parts.length ≤ 9 && areIpv6Groups parts

/-- An address of a later version: `v`, its number in hexadecimal, a point and anything. -/
def isFutureAddress (cs : List Char) : Bool :=
  match cut '.' (cs.drop 1) with
  | (version, some rest) => !version.isEmpty && version.all isHexDigit && !rest.isEmpty
  | _ => false

def checkBracketed (host : List Char) : Except Fault Unit :=
  if host.head? = some 'v' then
    if isFutureAddress host then .ok () else .error .badFutureAddress
  else if isIpv4 host then .error .bracketedIpv4
  else if isIpv6 host then .ok ()
  else .error (.notAnAddress host)

/-! ### Authorities -/

/-- The part after the last `@`. -/
def hostPart (authority : List Char) : List Char :=
  (authority.reverse.takeWhile (· ≠ '@')).reverse

def checkBrackets (authority : List Char) : Except Fault Unit :=
  match authority.contains '[', authority.contains ']' with
  | false, false => .ok ()
  | true, true =>
    match cut '[' (hostPart authority) with
    | (host, none) => checkBracketed (cut ':' host).1
    | (before, some bracketed) =>
      let (host, after) := cut ']' bracketed
      let suffix := after.getD []
      if !before.isEmpty || (!suffix.isEmpty && suffix.head? ≠ some ':') then .error .misplacedBracket
      else checkBracketed host
  | _, _ => .error .misplacedBracket

/-- The characters whose compatibility forms hold one of the delimiters `/`, `?`, `#`, `@`, `:`. -/
def disguises : List Char :=
  ['\u2047', '\u2048', '\u2049', '\u2100', '\u2101', '\u2105', '\u2106', '\u2A74', '\uFE13',
    '\uFE16', '\uFE55', '\uFE56', '\uFE5F', '\uFE6B', '\uFF03', '\uFF0F', '\uFF1A', '\uFF1F',
    '\uFF20']

def checkDisguises (authority : List Char) : Except Fault Unit :=
  if authority.any disguises.contains then .error (.disguisedDelimiter authority) else .ok ()

end Telemetry.Url
