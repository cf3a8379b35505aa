import Telemetry.Binary64
import Telemetry.Log
import Telemetry.Wording

/-! What can be set from outside: where the service is, and how events are reported. -/

namespace Telemetry

/-- The kind of installation that a program runs in. -/
inductive Deployment where
  | development
  | testing
  | staging
  | production
  deriving DecidableEq

instance : Wording Deployment where
  label := "Deployment"
  members := [.development, .testing, .staging, .production]
  wire
    | .development => "development"
    | .testing => "testing"
    | .staging => "staging"
    | .production => "production"
  memberName
    | .development => "DEVELOPMENT"
    | .testing => "TESTING"
    | .staging => "STAGING"
    | .production => "PRODUCTION"
  wire_injective a b := by cases a <;> cases b <;> decide
  mem_members a := by cases a <;> decide

instance : Wording Log.Level where
  label := "Level"
  members := [.debug, .info, .warning, .error, .critical]
  wire
    | .debug => "DEBUG"
    | .info => "INFO"
    | .warning => "WARNING"
    | .error => "ERROR"
    | .critical => "CRITICAL"
  memberName
    | .debug => "DEBUG"
    | .info => "INFO"
    | .warning => "WARNING"
    | .error => "ERROR"
    | .critical => "CRITICAL"
  wire_injective a b := by cases a <;> cases b <;> decide
  mem_members a := by cases a <;> decide

namespace Settings

structure Connection where
  url : String := "http://localhost:4002"
  realm : String := "test"
  token : String := ""
  timeout : Binary64 := .ofInt 30
  pageSize : Nat := 100
  deriving DecidableEq

structure Reporting where
  level : Log.Level := .info
  structured : Option Bool := none
  file : Option String := none
  deriving DecidableEq

end Settings

structure Settings where
  deployment : Deployment := .development
  connection : Settings.Connection := {}
  reporting : Settings.Reporting := {}
  deriving DecidableEq

end Telemetry
