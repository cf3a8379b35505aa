import Telemetry.Value.Literal

/-! What the walks over pages have in common. -/

namespace Telemetry.Walk

inductive Stage where
  | fresh
  | midIteration
  | exhausted
  deriving DecidableEq

def Stage.wire : Stage → String
  | .fresh => "fresh"
  | .midIteration => "mid_iteration"
  | .exhausted => "exhausted"

/-- A step of a walk, which may move the walk and may fail. What it has moved before it fails stays
moved. -/
abbrev Step (σ ε : Type) := ExceptT ε (StateM σ)

namespace Step

variable {σ ε ε' α : Type}

/-- What a step gives or why it fails, and the walk after it in either case. -/
def perform (step : Step σ ε α) (p : σ) : Except ε α × σ :=
  step.run.run p

/-- A step that moves nothing. -/
def lift (f : ε' → ε) : Except ε' α → Step σ ε α
  | .ok a => pure a
  | .error e => throw (f e)

end Step

inductive ConfigurationFault where
  | negativePageSize (size : Int)
  | limitRequired
  | sinceForbidden
  deriving DecidableEq

def ConfigurationFault.message : ConfigurationFault → String
  | .negativePageSize _ => "page_size must not be negative"
  | .limitRequired => "A limit parameter must be specified when using DescendingOrder"
  | .sinceForbidden => "A since parameter must not be supported when using DescendingOrder"

def ConfigurationFault.details : ConfigurationFault → List (String × Value)
  | .negativePageSize size => [("page_size", .int size)]
  | _ => []

/-- A page is asked for when there are no more. -/
inductive Exhausted where
  | exhausted
  deriving DecidableEq

def Exhausted.message : Exhausted → String
  | .exhausted => "No more pages available"

/-- A page size, which must not be negative. -/
def checkPageSize (size : Int) : Except ConfigurationFault Nat :=
  if size < 0 then .error (.negativePageSize size) else .ok size.toNat

/-- The parameter that limits the length of a page. -/
def limitText (pageSize : Nat) : String :=
  toString pageSize

end Telemetry.Walk
