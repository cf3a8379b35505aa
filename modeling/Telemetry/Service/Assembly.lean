import Telemetry.Service.Pages
import Telemetry.Settings.Reader

/-! The parts of a client put together from settings. -/

namespace Telemetry.Service

/-- Parts that are shared are made once; walks are made anew each time they are asked for. -/
structure Assembly where
  connection : Settings.Connection
  deriving DecidableEq

namespace Assembly

def unreadyMessage : String :=
  "Container has not been initialized yet"

/-- Puts a client together, with the fields given for its connection. -/
def assemble (vars : Variables) (given : List (String × Value)) :
    Except Settings.Fault Assembly := do
  let surroundings := Settings.fold (vars.map fun entry => (entry.1, some entry.2))
  let connection ← (Settings.decodeConnection surroundings given).mapError .invalid
  let settings ← Settings.read vars [] (some connection)
  return ⟨settings.connection⟩

def event (a : Assembly) : Log.Event :=
  ⟨.info, "container.initialized",
    [("appengine_url", .str a.connection.url), ("realm", .str a.connection.realm)]⟩

def client (a : Assembly) : Client where
  baseUrl := a.connection.url
  realm := a.connection.realm
  token := a.connection.token
  timeout := .float a.connection.timeout

/-- A walk over samples, with the page size of the settings unless another is given. -/
def sampleWalk (a : Assembly) (order : WalkOrder) (pageSize : Option Int) :
    Except Walk.ConfigurationFault SampleWalk :=
  SampleWalk.ofWindow .individual order (some (pageSize.getD a.connection.pageSize)) none none

def deviceWalk (a : Assembly) (pageSize : Option Int) :
    Except Walk.ConfigurationFault DeviceWalk :=
  DeviceWalk.ofPageSize (pageSize.getD a.connection.pageSize) .id

end Assembly

end Telemetry.Service
