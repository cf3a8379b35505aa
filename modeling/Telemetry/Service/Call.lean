import Telemetry.Service.Client
import Telemetry.Service.Response
import Telemetry.Interface.Address
import Telemetry.Log
import Telemetry.Walk.Samples
import Telemetry.Walk.Devices

/-!
Calls of the service. A call sends requests to a server, reports events and gives a result or
fails; what was sent and reported is kept in a journal, also when the call fails. So is what a call
has done to a walk that it moves.
-/

namespace Telemetry.Service

/-- What comes back for a request: an answer, or the reason why there is none. -/
inductive Reply where
  | answered (response : Response)
  | failed (reason : String)
  deriving DecidableEq

abbrev Server := Request → Reply

structure Journal where
  requests : List Request := []
  events : List Log.Event := []
  deriving DecidableEq

inductive Fault where
  | request (fault : RequestFault)
  | excess (excess : Json.Excess)
  | badPath (fault : Interface.Draft.QueryFault)
  | badTelemetry (fault : Snapshot.Fault)
  | noDevices (fault : DeviceWalk.QueryFault)
  | badDevices (fault : DeviceWalk.Fault)
  | noSamples (fault : SampleWalk.QueryFault)
  | badSamples (fault : SampleWalk.Fault)
  deriving DecidableEq

/-- A call beside the effects of `m`. -/
abbrev CallIn (m : Type → Type) := ReaderT Server (ExceptT Fault (StateT Journal m))

abbrev Call := CallIn Id

/-- A call that moves a walk. -/
abbrev WalkCall (σ : Type) := CallIn (StateM σ)

namespace Call

def perform {α : Type} (call : Call α) (server : Server) : Except Fault α × Journal :=
  (call.run server).run.run {}

variable {m : Type → Type} [Monad m] {α ε σ : Type}

def report (level : Log.Level) (name : String) (fields : List (String × Value)) :
    CallIn m Unit :=
  modify fun journal => { journal with events := journal.events ++ [⟨level, name, fields⟩] }

def send (request : Request) : CallIn m Reply := do
  modify fun journal => { journal with requests := journal.requests ++ [request] }
  return (← read) request

def lift (f : ε → Fault) : Except ε α → CallIn m α
  | .ok a => pure a
  | .error e => throw (f e)

/-- A step of the walk that is moved. -/
def step (f : ε → Fault) (s : Walk.Step σ ε α) : WalkCall σ α := do
  lift f (← s.run)

end Call

/-- The outcome of a call on a server, what it sent and reported, and the walk after it. -/
def WalkCall.perform {σ α : Type} (call : WalkCall σ α) (server : Server) (p : σ)
    (journal : Journal := {}) : (Except Fault α × Journal) × σ :=
  ((call.run server).run.run journal).run p

open Call (report send lift)

namespace Client

variable {m : Type → Type} [Monad m]

/-- Sends one request. Any status counts as an answer. -/
def ask (g : Client) (path : String) (params : List (String × Value)) : CallIn m Response := do
  let url : String × Value := ("url", .str (g.url path))
  report .info "appengine.fetch.request" [url, ("params", .object params)]
  match ← send (g.request path params) with
  | .failed reason =>
    report .error "appengine.fetch.request_error" [("error", .str reason), url]
    throw (.request { message := "AppEngine request failed: " ++ reason })
  | .answered response =>
    report .info "appengine.fetch.response" [url, ("status_code", .int response.status)]
    return response

/-- Sends one request, which must be answered with success and an object. -/
def askForObject (g : Client) (path : String) (params : List (String × Value)) :
    CallIn m (List (String × Value)) := do
  let response ← g.ask path params
  let place : String × Value := ("path", .str path)
  if response.isOk then
    match Json.readOctets response.body with
    | .ok (.object fields) => return fields
    | .ok _ =>
      throw (.request ⟨"AppEngine returned an unexpected body", some response.status, []⟩)
    | .error (.excess excess) => throw (.excess excess)
    | .error fault =>
      report .error "appengine.fetch.invalid_json" [place, ("error", .str fault.message)]
      let message := "AppEngine returned an invalid JSON body: " ++ fault.message
      throw (.request ⟨message, some response.status, []⟩)
  else
    let fault ← lift .excess response.fault
    report .error "appengine.fetch.http_error"
      [place, ("status_code", .int response.status), ("errors", .object fault.errors)]
    throw (.request fault)

end Client

end Telemetry.Service
