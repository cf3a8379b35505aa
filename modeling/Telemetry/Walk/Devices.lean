import Telemetry.Device
import Telemetry.Walk.Stage
import Telemetry.Snapshot.Basic
import Telemetry.Url.Query

/-!
The walk over the devices of a realm. Each page comes with a link to the next one, whose query is
the cursor, so that the service decides how to go on.
-/

namespace Telemetry

inductive DeviceFormat where
  | id
  | details
  deriving DecidableEq

def DeviceFormat.wire : DeviceFormat → String
  | .id => "device_id"
  | .details => "device_details"

/-- What leads to the next page. -/
inductive DeviceCursor where
  | parameters (query : Query)
  /-- Parameters in octets, which have no order among those that are text. -/
  | octets
  deriving DecidableEq

structure DeviceWalk where
  pageSize : Nat
  format : DeviceFormat
  cursor : DeviceCursor := .parameters []
  stage : Walk.Stage := .fresh
  deriving DecidableEq

inductive DevicePage where
  | ids (ids : List String)
  | details (devices : List Device)
  deriving DecidableEq

namespace DeviceWalk

open Walk (ConfigurationFault Step)

inductive Fault where
  | misfit (fault : Value.Misfit)
  | undecodableLink (fault : Text.EncodingFault)
  | badLink (fault : Url.Fault)
  | badDocument (fault : Snapshot.Fault)
  | badDevice (fault : Device.Fault)
  deriving DecidableEq

def ofPageSize (size : Int) (format : DeviceFormat) : Except ConfigurationFault DeviceWalk :=
  (Walk.checkPageSize size).map fun pageSize => { pageSize, format }

def hasMore (p : DeviceWalk) : Bool :=
  p.stage ≠ .exhausted

/-- The name of the parameter that continues a listing. -/
def tokenName : String := "from_token"

/-- A cursor that does not continue a listing. -/
def firstCursor : DeviceCursor → DeviceCursor
  | .parameters query => .parameters (FieldList.erase query tokenName)
  | .octets => .octets

def restart : StateM DeviceWalk Unit := do
  modify fun p => { p with cursor := firstCursor p.cursor }
  modify ({ · with stage := .fresh })

/-- A limit that came with the cursor is kept. -/
def withLimit (p : DeviceWalk) (query : Query) : Query :=
  if 0 < p.pageSize && !FieldList.has query "limit" then
    FieldList.insert query "limit" (Walk.limitText p.pageSize)
  else query

def detailsText : DeviceFormat → String
  | .id => "false"
  | .details => "true"

inductive QueryFault where
  | exhausted
  /-- The parameters of the cursor cannot be put in order with the others. -/
  | unordered
  deriving DecidableEq

def query (p : DeviceWalk) : Except QueryFault Query :=
  if p.hasMore then
    match p.cursor with
    | .parameters query =>
      .ok (Query.sorted (FieldList.insert (p.withLimit query) "details" (detailsText p.format)))
    | .octets => .error .unordered
  else .error .exhausted

def nextQuery : Step DeviceWalk QueryFault Query := do
  Step.lift id (← get).query

def linkParameters (link : List Char) : Except Fault Query := do
  return Query.read (← (Url.query link).mapError .badLink)

/-- What a link leads to. A link in octets is in ASCII; one without parameters is like any other. -/
def linkCursor : Value → Except Fault DeviceCursor
  | .str link => .parameters <$> linkParameters link.toList
  | .bytes octets => do
    let query ← linkParameters (← (Text.decodeAscii octets).mapError .undecodableLink)
    return if query.isEmpty then .parameters [] else .octets
  | v => .error (.misfit (if v.isKey then .fieldless else .unusable))

/-- Goes on to the page that the links of the last one lead to, if any. -/
def follow (links : Links) : Step DeviceWalk Fault Unit := do
  if links.next.isTruthy then
    let cursor ← Step.lift id (linkCursor links.next)
    modify ({ · with cursor })
    modify ({ · with stage := .midIteration })
  else modify ({ · with stage := .exhausted })

/-- Goes on by the links as a document holds them. -/
def followValue (links : Value) : Step DeviceWalk Fault Unit := do
  follow (← Step.lift .misfit (Links.ofValue links))

def readRows (format : DeviceFormat) (rows : List Value) : Except Fault DevicePage :=
  match format with
  | .id => .ok (.ids (rows.map Value.display))
  | .details => DevicePage.details <$> rows.mapM fun row => (Device.ofValue row).mapError .badDevice

/-- The fields of a page; what is no object has none. -/
def fieldsOf : Value → List (String × Value)
  | .object fields => fields
  | _ => []

def readPage (document : Json.Document) : Step DeviceWalk Fault DevicePage := do
  let fields := fieldsOf (← Step.lift .badDocument (Snapshot.readDocument document))
  let rows ← Step.lift .misfit (Value.fieldOrNull fields "data").optionalElements
  let page ← Step.lift id (readRows (← get).format rows)
  followValue (Value.fieldOrNull fields "links")
  return page

end DeviceWalk

end Telemetry
