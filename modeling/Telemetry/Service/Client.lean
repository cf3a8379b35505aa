import Telemetry.DeviceId
import Telemetry.Text.Percent
import Telemetry.Url.Query

/-! Where the data of a realm is found, and how it is asked for. -/

namespace Telemetry.Service

/-- A realm of the service, and how requests for it are made. The timeout is passed on as given. -/
structure Client where
  baseUrl : String
  realm : String
  token : String := ""
  timeout : Value := .float (.ofInt 30)
  deriving DecidableEq

structure Request where
  url : String
  params : List (String × Value)
  headers : List (String × String)
  timeout : Value
  deriving DecidableEq

def isSlash (c : Char) : Bool :=
  c = '/'

def dropEndSlashes (s : String) : String :=
  String.ofList (Text.trimEndWith isSlash s.toList)

def dropStartSlashes (s : String) : String :=
  String.ofList (s.toList.dropWhile isSlash)

def deviceListPath : String :=
  "devices"

def collectionOf : DeviceId.Kind → String
  | .deviceId => "devices"
  | _ => "devices-by-alias"

/-- The path of an interface on a device, or of a path within the interface. The identifier is
escaped, so that it stays within its segment. -/
def interfaceAddress (device interface path : String) (kind : DeviceId.Kind) :
    String :=
  collectionOf (DeviceId.resolve kind device) ++ "/" ++
    String.ofList (Text.Percent.encode device.toList) ++ "/interfaces/" ++ interface ++ path

namespace Client

def base (g : Client) : String :=
  dropEndSlashes g.baseUrl

def url (g : Client) (path : String) : String :=
  g.base ++ "/v1/" ++ g.realm ++ "/" ++ dropStartSlashes path

def headers (g : Client) : List (String × String) :=
  ("Accept", "application/json") ::
    if g.token = "" then [] else [("Authorization", "Bearer " ++ g.token)]

def request (g : Client) (path : String) (params : List (String × Value)) : Request where
  url := g.url path
  params := params
  headers := g.headers
  timeout := g.timeout

end Client

end Telemetry.Service
