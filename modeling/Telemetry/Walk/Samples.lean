import Telemetry.Walk.Stage
import Telemetry.Snapshot.Strict
import Telemetry.Url.Query

/-!
The walk over the samples of a path within a window of time. Each page moves one bound of the window
to its last sample: upwards from the lower bound, or downwards from the upper one.
-/

namespace Telemetry

/-- Whether a walk goes from old samples to new ones or back. -/
inductive WalkOrder where
  | ascending
  | descending
  deriving DecidableEq

def WalkOrder.wire : WalkOrder → String
  | .ascending => "ascending"
  | .descending => "descending"

/-- An end of a window. One that was moved to a sample keeps the text of the sample's timestamp,
which may be finer than a microsecond. -/
structure Bound where
  moment : DateTime
  text : Option String := none
  deriving DecidableEq

def Bound.parameter (bound : Bound) : Except Timestamp.OutOfCalendar String :=
  match bound.text with
  | some text => .ok text
  | none => Timestamp.format bound.moment

structure SampleWalk where
  aggregation : Aggregation
  order : WalkOrder
  /-- The greatest number of samples of a page; zero is no limit. -/
  pageSize : Nat
  firstLower : Option Bound
  firstUpper : Option Bound
  lower : Option Bound := firstLower
  upper : Option Bound := firstUpper
  stage : Walk.Stage := .fresh
  deriving DecidableEq

namespace SampleWalk

open Walk (ConfigurationFault Step)
open Snapshot (Content Row)

/-- A walk upwards starts in 1970 unless a bound is given; one downwards needs a page size and
takes no lower bound. -/
def ofWindow (aggregation : Aggregation) (order : WalkOrder) (size : Option Int)
    (lower upper : Option DateTime) : Except ConfigurationFault SampleWalk := do
  let pageSize ← Walk.checkPageSize (size.getD 0)
  let firstUpper := upper.map ({ moment := · })
  match order with
  | .ascending =>
    let firstLower := some { moment := lower.getD .unixEpoch }
    return { aggregation, order, pageSize, firstLower, firstUpper }
  | .descending =>
    if pageSize = 0 then throw .limitRequired
    if lower.isSome then throw .sinceForbidden
    return { aggregation, order, pageSize, firstLower := none, firstUpper }

def hasMore (p : SampleWalk) : Bool :=
  p.stage ≠ .exhausted

def isFresh (p : SampleWalk) : Bool :=
  p.stage = .fresh

def restart : StateM SampleWalk Unit := do
  modify fun p => { p with lower := p.firstLower }
  modify fun p => { p with upper := p.firstUpper }
  modify ({ · with stage := .fresh })

def exhaust : StateM SampleWalk Unit :=
  modify ({ · with stage := .exhausted })

/-! ### Queries -/

inductive QueryFault where
  | exhausted
  | outOfCalendar
  deriving DecidableEq

def boundParameter (name : String) (bound : Bound) : Except QueryFault Query :=
  match bound.parameter with
  | .ok text => .ok [(name, text)]
  | .error _ => .error .outOfCalendar

/-- The first page includes its lower bound, a later one starts after it. -/
def lowerParameter (p : SampleWalk) : Except QueryFault Query :=
  match p.order with
  | .ascending =>
    boundParameter (if p.isFresh then "since" else "since_after")
      (p.lower.getD { moment := .unixEpoch })
  | .descending => .ok []

def upperParameter (p : SampleWalk) : Except QueryFault Query :=
  p.upper.elim (.ok []) (boundParameter "to")

def limitParameter (p : SampleWalk) : Query :=
  if p.pageSize = 0 then [] else [("limit", Walk.limitText p.pageSize)]

def query (p : SampleWalk) : Except QueryFault Query :=
  if p.hasMore then do
    let lower ← p.lowerParameter
    let upper ← p.upperParameter
    return Query.sorted (lower ++ upper ++ p.limitParameter)
  else .error .exhausted

def nextQuery : Step SampleWalk QueryFault Query := do
  Step.lift id (← get).query

/-! ### Pages -/

/-- A row of a page, as a document holds it or decoded. -/
inductive PageRow where
  | raw (v : Value)
  | decoded (row : Row)
  deriving DecidableEq

inductive Fault where
  | misfit (fault : Value.Misfit)
  | badTimestamp (fault : Timestamp.Fault)
  | outOfCalendar
  | badDocument (fault : Snapshot.Fault)
  deriving DecidableEq

def boundAt (moment : DateTime) (text : Option String) : Except Fault Bound :=
  match text with
  | some text => .ok { moment, text := some text }
  | none =>
    match Timestamp.format moment with
    | .ok text => .ok { moment, text := some text }
    | .error _ => .error .outOfCalendar

/-- The timestamp of a decoded row, with its text unless that is empty. -/
def rowBound (row : Row) : Except Fault (Option Bound) :=
  let at? (moment : Option DateTime) (wire : String) : Except Fault (Option Bound) :=
    match moment with
    | none => .ok none
    | some moment => some <$> boundAt moment (if wire = "" then none else some wire)
  match row with
  | .individual sample => at? (some sample.timestamp) sample.wire
  | .object sample => at? sample.timestamp sample.wire

/-- The timestamp of a row of a document, if it has one. -/
def fieldsBound (fields : List (String × Value)) : Except Fault (Option Bound) :=
  let given := Value.fieldOrNull fields Sample.timestampName
  if given.isTruthy then do
    let moment ← (Timestamp.parse given).mapError .badTimestamp
    match given with
    | .str text => some <$> boundAt moment (some text)
    | _ => some <$> boundAt moment none
  else .ok none

/-- Where a page that ends with this row leaves the window; nothing if the row does not tell. -/
def PageRow.bound : PageRow → Except Fault (Option Bound)
  | .raw (.object fields) => fieldsBound fields
  | .raw (.dateTime _) => .error (.misfit .fieldless)
  | .raw _ => .ok none
  | .decoded row => rowBound row

def moveTo (bound : Bound) : StateM SampleWalk Unit := do
  match (← get).order with
  | .ascending => modify ({ · with lower := some bound })
  | .descending => modify ({ · with upper := some bound })
  modify ({ · with stage := .midIteration })

/-- Moves the window past the rows of a page. An empty page or one that is not full is the last. -/
def pass (rows : List PageRow) : Step SampleWalk Fault Unit := do
  match rows.getLast? with
  | none => exhaust
  | some last =>
    if rows.length < (← get).pageSize then exhaust
    else
      match ← Step.lift id last.bound with
      | some bound => moveTo bound
      | none => exhaust

/-- Moves the window past whatever is given as a page. -/
def passValue (rows : Value) : Step SampleWalk Fault Unit := do
  if !rows.isTruthy then exhaust
  else
    match rows, rows.elements? with
    | _, none => throw (.misfit .unusable)
    | .object fields, _ =>
      if fields.length < (← get).pageSize then exhaust else throw (.misfit .absent)
    | _, some items => pass (items.map .raw)

/-- A page that could not be had ends the walk, unless it is the first one. -/
def endAtFailure : StateM SampleWalk Bool := do
  if (← get).isFresh then return false
  exhaust
  return true

/-- Reads a page and moves the window past it; a tree is the last page. -/
def readPage (document : Json.Document) : Step SampleWalk Fault Content := do
  let data ← Step.lift .badDocument (Snapshot.readData document)
  let content ← Step.lift .badDocument (Snapshot.readRows (← get).aggregation data)
  match content with
  | .list rows => pass (rows.map .decoded)
  | .tree _ => exhaust
  return content

end SampleWalk

end Telemetry
