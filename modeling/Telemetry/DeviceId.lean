import Telemetry.Base64
import Telemetry.Uuid
import Telemetry.Value.Literal

/-!
Device identifiers: 128 bits in 22 digits of the URL-safe base64 alphabet. The last digit has four
bits more than are needed, so sixteen texts stand for each identifier.
-/

namespace Telemetry.DeviceId

/-- The 22 digits of an identifier. -/
def length : Nat := 22

structure Fault where
  given : Value
  deriving DecidableEq

def Fault.message (fault : Fault) : String :=
  fault.given.display ++ " is not a valid Astarte device ID"

def ofUuid (u : Uuid) : String :=
  String.ofList (Base64.encode .urlSafe u.octets)

/-- The digits of an identifier; one line break after them is overlooked. -/
def body? (cs : List Char) : Option (List Char) :=
  if cs.length = length then some cs
  else if cs.length = length + 1 && cs.getLast? = some '\n' then some (cs.take length)
  else none

def toUuid? (text : String) : Option Uuid := do
  let octets ← Base64.decode? .urlSafe (← body? text.toList)
  Uuid.ofOctets? octets

def toUuid (given : Value) : Except Fault Uuid :=
  match given with
  | .str text => (toUuid? text).elim (.error ⟨given⟩) .ok
  | _ => .error ⟨given⟩

def uuidText (given : Value) : Except Fault String :=
  Uuid.text <$> toUuid given

def ofUuidText (text : String) : Except Uuid.Fault String :=
  ofUuid <$> Uuid.parse text

def isValid (text : String) : Bool :=
  (toUuid? text).isSome

/-- How an identifier in a request names its device. -/
inductive Kind where
  | autodiscover
  | deviceId
  | deviceAlias
  deriving DecidableEq

def Kind.wire : Kind → String
  | .autodiscover => "autodiscover"
  | .deviceId => "device_id"
  | .deviceAlias => "device_alias"

/-- The kind of an identifier that does not say its own: whatever has the form of a device
identifier is one, all else is an alias. -/
def resolve (kind : Kind) (identifier : String) : Kind :=
  match kind with
  | .autodiscover => if isValid identifier then .deviceId else .deviceAlias
  | kind => kind

end Telemetry.DeviceId
