import Telemetry.Value

/-! Events that are reported while work is done. -/

namespace Telemetry.Log

inductive Level where
  | debug
  | info
  | warning
  | error
  | critical
  deriving DecidableEq

def Level.name : Level → String
  | .debug => "debug"
  | .info => "info"
  | .warning => "warning"
  | .error => "error"
  | .critical => "critical"

structure Event where
  level : Level
  name : String
  fields : List (String × Value)
  deriving DecidableEq

end Telemetry.Log
