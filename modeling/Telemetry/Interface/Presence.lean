import Telemetry.Interface.Basic
import Telemetry.Schema.Decoder

/-!
The mandatory fields of an interface document. They are looked for in a fixed order, and the first
one that is missing is reported; a version of zero is not missing, an empty text is.
-/

namespace Telemetry.Interface

open Schema (optional nullable)

inductive MandatoryField where
  | interfaceName
  | majorVersion
  | minorVersion
  | kind
  | ownership
  | mappings
  | endpoint
  | mappingType
  deriving DecidableEq

namespace MandatoryField

def name : MandatoryField → String
  | .interfaceName => "interface_name"
  | .majorVersion => "version_major"
  | .minorVersion => "version_minor"
  | .kind => "type"
  | .ownership => "ownership"
  | .mappings => "mappings"
  | .endpoint => "endpoint"
  | .mappingType => "type"

def reason : MandatoryField → String
  | .mappings => "no mappings are present"
  | .endpoint => "missing endpoint in mapping"
  | .mappingType => "missing type in mapping"
  | field => field.name ++ " must be set"

end MandatoryField

structure MappingPresence where
  endpoint : Option String
  type : Option String
  deriving DecidableEq

structure Presence where
  name : Option String
  major : Option Int
  minor : Option Int
  kind : Option Kind
  ownership : Option Ownership
  mappings : Option (List MappingPresence)
  deriving DecidableEq

def MappingPresence.decode : Schema.Decoder MappingPresence :=
  Schema.record "RequiredMappingDTO" fun fields => do
    let endpoint ← optional fields "endpoint" none (nullable Schema.strictText)
    let type ← optional fields "type" none (nullable Schema.strictText)
    return { endpoint, type }

def Presence.decodeFields (fields : List (String × Value)) : Except Schema.Fault Presence := do
  let name ← optional fields "interface_name" none (nullable Schema.strictText)
  let major ← optional fields "version_major" none (nullable Schema.strictInteger)
  let minor ← optional fields "version_minor" none (nullable Schema.strictInteger)
  let kind ← optional fields "type" none (nullable (Schema.member Kind))
  let ownership ← optional fields "ownership" none (nullable (Schema.member Ownership))
  let mappings ← optional fields "mappings" none (nullable (Schema.list MappingPresence.decode))
  return { name, major, minor, kind, ownership, mappings }

def Presence.decode : Schema.Decoder Presence :=
  Schema.record "RequiredInterfaceDTO" Presence.decodeFields

def isBlank (text : Option String) : Bool :=
  text = none || text = some ""

def MappingPresence.firstMissing (m : MappingPresence) : Option MandatoryField :=
  if isBlank m.endpoint then some .endpoint
  else if isBlank m.type then some .mappingType
  else none

def Presence.firstMissing (p : Presence) : Option MandatoryField :=
  if isBlank p.name then some .interfaceName
  else if p.major.isNone then some .majorVersion
  else if p.minor.isNone then some .minorVersion
  else if p.kind.isNone then some .kind
  else if p.ownership.isNone then some .ownership
  else
    match p.mappings with
    | none | some [] => some .mappings
    | some mappings => mappings.findSome? MappingPresence.firstMissing

end Telemetry.Interface
