import Telemetry.Json.Reader
import Telemetry.Json.Writer

/-! Answers of the service, and the errors that they describe. -/

namespace Telemetry.Service

structure Response where
  status : Int
  body : List UInt8 := []
  deriving DecidableEq

def Response.isOk (r : Response) : Bool :=
  r.status = 200

/-- A request that failed: the status, if there was an answer, and what the service says about it. -/
structure RequestFault where
  message : String
  status : Option Int := none
  errors : List (String × Value) := []
  deriving DecidableEq

def RequestFault.details (fault : RequestFault) : List (String × Value) :=
  [("status_code", .ofInt? fault.status), ("errors", .object fault.errors)]

/-- The errors that a document lists, none if it lists none as an object. -/
def errorsOf : Value → List (String × Value)
  | .object fields =>
    match Value.fieldOrNull fields "errors" with
    | .object errors => errors
    | _ => []
  | _ => []

namespace Response

/-- The errors of a body. One that cannot be read has none, an excess apart. -/
def errors (r : Response) : Except Json.Excess (List (String × Value)) :=
  if r.body.isEmpty then .ok []
  else
    match Json.readOctets r.body with
    | .ok v => .ok (errorsOf v)
    | .error (.excess excess) => .error excess
    | .error _ => .ok []

def failureMessage (r : Response) (errors : List (String × Value)) : String :=
  if errors.isEmpty then
    "Received unexpected status code: " ++ toString r.status ++ " instead of 200"
  else "AppEngine error " ++ toString r.status ++ ": " ++ Json.writeString (.object errors)

def fault (r : Response) : Except Json.Excess RequestFault := do
  let errors ← r.errors
  return ⟨r.failureMessage errors, some r.status, errors⟩

end Response

end Telemetry.Service
