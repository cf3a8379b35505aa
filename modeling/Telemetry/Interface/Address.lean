import Telemetry.Interface.Basic
import Telemetry.MappingType.Typing
import Telemetry.Text.Split

/-!
Paths on an interface: which mapping a path belongs to, whether a message fits what is declared
there, and whether a path can be queried.
-/

namespace Telemetry

/-! ### Segments -/

/-- The parts of a path between its separators; there is always one. -/
def segments (path : String) : List (List Char) :=
  Text.pieces '/' path.toList

/-- Whether a segment of an endpoint stands for any segment of a path. -/
def isParameter : List Char → Bool
  | '%' :: '\x7b' :: _ => true
  | _ => false

def segmentFits (endpoint path : List Char) : Bool :=
  path = endpoint || isParameter endpoint

/-- Whether segments fit one another pair by pair; surplus segments are not compared. -/
def segmentsFit (endpoint path : List (List Char)) : Bool :=
  (endpoint.zip path).all fun pair => segmentFits pair.1 pair.2

/-- A path one level further down: an absolute name replaces it, and no separator is doubled. -/
def joinPath (path name : String) : String :=
  if name.toList.head? = some '/' then name
  else if path = "" || path.toList.getLast? = some '/' then path ++ name
  else path ++ "/" ++ name

namespace Interface.Draft

structure PathNotFound where
  path : String
  interface : Value
  deriving DecidableEq

def PathNotFound.message (fault : PathNotFound) : String :=
  "Path " ++ fault.path ++ " does not exist on Interface " ++ fault.interface.display

def PathNotFound.details (fault : PathNotFound) : List (String × Value) :=
  [("path", .str fault.path), ("interface_name", fault.interface)]

/-! ### Resolution -/

/-- The first mapping whose endpoint is the path, on interfaces without parameters. -/
def literalMapping? (i : Draft) (path : String) : Option Mapping.Draft :=
  i.mappings.find? fun m => m.endpoint = path

/-- The first mapping with as many segments as the path, all of which fit. -/
def parametricMapping? (i : Draft) (path : String) : Option Mapping.Draft :=
  let parts := segments path
  i.mappings.find? fun m =>
    let endpoint := segments m.endpoint
    endpoint.length = parts.length && segmentsFit endpoint parts

def resolve (i : Draft) (path : String) : Except PathNotFound Mapping.Draft :=
  let found := if i.isParametric then i.parametricMapping? path else i.literalMapping? path
  found.elim (.error ⟨path, i.name⟩) .ok

/-! ### Messages -/

inductive MessageFault where
  | noPath (fault : PathNotFound)
  | wrongType (fault : TypeMismatch)
  | nestedKey (key : String)
  deriving DecidableEq

def MessageFault.message : MessageFault → String
  | .noPath fault => fault.message
  | .wrongType fault => fault.message
  | .nestedKey _ => "values must contain keys without slash"

def MessageFault.details : MessageFault → List (String × Value)
  | .noPath fault => fault.details
  | .wrongType fault => fault.details
  | .nestedKey key => [("key", .str key)]

/-- A value sent on a path, tagged with the type that is declared there. -/
def checkValue (i : Draft) (path : String) (v : Value) : Except MessageFault TypedValue :=
  match i.resolve path with
  | .error fault => .error (.noPath fault)
  | .ok m =>
    match m.type.check v with
    | .error fault => .error (.wrongType fault)
    | .ok typed => .ok typed

/-- The values of an object sent below a path, checked in order. -/
def checkObject (i : Draft) (path : String) :
    List (String × Value) → Except MessageFault (List (String × TypedValue))
  | [] => .ok []
  | (key, v) :: rest => do
    if key.toList.contains '/' then .error (.nestedKey key)
    else
      let typed ← i.checkValue (joinPath path key) v
      let rest ← i.checkObject path rest
      return (key, typed) :: rest

/-! ### Queries -/

inductive QueryFault where
  | noMatch (path : String)
  | endpointMismatch (path endpoint : String)
  deriving DecidableEq

def QueryFault.message : QueryFault → String
  | .noMatch path => path ++ " does not match valid query paths for interface"
  | .endpointMismatch path endpoint =>
    path ++ " does not match valid query paths for endpoint " ++ endpoint

/-- A query on single endpoints leads to one of them, or to a level above it. -/
def checkIndividualQuery (i : Draft) (path : String) : Except QueryFault Unit :=
  let parts := segments path
  let leads (m : Mapping.Draft) : Bool :=
    let endpoint := segments m.endpoint
    parts.length ≤ endpoint.length && segmentsFit endpoint parts
  if i.mappings.any leads then .ok () else .error (.noMatch path)

/-- A query on objects leads to a level above every endpoint; the first endpoint in the way is
reported. -/
def checkObjectQuery (path : String) : List Mapping.Draft → Except QueryFault Unit
  | [] => .ok ()
  | m :: rest =>
    let parts := segments path
    let endpoint := segments m.endpoint
    if endpoint.length - 1 < parts.length then .error (.noMatch path)
    else if segmentsFit endpoint parts then checkObjectQuery path rest
    else .error (.endpointMismatch path m.endpoint)

def trimQuery (path : String) : String :=
  if path.toList.getLast? = some '/' then String.ofList path.toList.dropLast else path

/-- The root can always be queried. -/
def checkQuery (i : Draft) (path : String) : Except QueryFault Unit :=
  if path = "/" then .ok ()
  else if i.isObject then checkObjectQuery (trimQuery path) i.mappings
  else i.checkIndividualQuery (trimQuery path)

end Interface.Draft

end Telemetry
