import Telemetry.Service.Call

/-! What can be read of an interface on a device at once: its newest samples and its properties. -/

namespace Telemetry.Service

open Call (report lift)
open Snapshot (Content Flat Row)

structure Target where
  device : String
  kind : DeviceId.Kind := .autodiscover
  deriving DecidableEq

/-- The parameters that leave only the newest samples. -/
def limitParams (limit : Int) : List (String × Value) :=
  if 0 < limit then [("limit", .str (toString limit))] else []

/-- An object is read one sample at a time. -/
def newestOnly (objects : Bool) : List (String × Value) :=
  limitParams (if objects then 1 else 0)

/-- The newest sample of every path. What cannot be decoded is left out and reported. -/
def Client.readSnapshot (g : Client) (target : Target) (interface : String)
    (aggregation : Aggregation) : Call (FieldList Row) := do
  let name : String × Value := ("interface", .str interface)
  let path := interfaceAddress target.device interface "" target.kind
  report .info "snapshot.datastream.fetch_started" [name, ("aggregation", .str (wire aggregation))]
  let fields ← g.askForObject path (newestOnly (aggregation = .object))
  let flat := Snapshot.flattenTree (Value.fieldOrNull fields "data") aggregation
  flat.dropped.forM fun path => report .debug "snapshot.leaf_dropped" [name, ("path", .str path)]
  report .info "snapshot.datastream.parsed"
    [name, ("path_count", .int flat.found.length), ("dropped_count", .int flat.dropped.length)]
  return flat.found

/-- The properties of an interface, or those below a path. -/
def Client.readProperties (g : Client) (target : Target) (interface path : String) :
    Call (FieldList Value) := do
  let fields ← g.askForObject (interfaceAddress target.device interface path target.kind) []
  let data := Value.fieldOrNull fields "data"
  if data.isNull then return []
  let found := Snapshot.flattenProperties (dropEndSlashes path) [] data
  report .info "snapshot.properties.parsed"
    [("interface", .str interface), ("path_count", .int found.length)]
  return found

inductive Values where
  | properties (found : FieldList Value)
  | samples (found : FieldList Row)
  deriving DecidableEq

/-- The values in the data of an interface, which must be well formed. Data that is not given is
taken as empty, save for samples of single paths. -/
def valuesOf (i : Interface.Draft) (data : Value) : Except Snapshot.Fault Values :=
  let rows {α : Type} (row : α → Row) (found : FieldList α) : Values :=
    .samples (found.map fun entry => (entry.1, row entry.2))
  if i.isProperties then
    .properties <$> Snapshot.readProperties (if data.isTruthy then data else .object [])
  else if i.isObject then
    if data.isTruthy then rows .object <$> Snapshot.readObject "" data else .ok (.samples [])
  else rows .individual <$> Snapshot.readIndividual "" data

def Client.readValues (g : Client) (target : Target) (i : Interface.Draft) : Call Values := do
  let path := interfaceAddress target.device i.name.display "" target.kind
  let fields ← g.askForObject path (newestOnly i.isObject)
  lift .badTelemetry (valuesOf i (Value.fieldOrNull fields "data"))

/-- The newest samples on a path, all of them unless the limit is positive. -/
def Client.readLast (g : Client) (target : Target) (i : Interface.Draft) (path : String)
    (limit : Int) : Call (List Row) := do
  lift .badPath (i.checkQuery path)
  let fields ← g.askForObject (interfaceAddress target.device i.name.display path target.kind)
    (limitParams limit)
  let data := Value.fieldOrNull fields "data"
  let aggregation : Aggregation := if i.isObject then .object else .individual
  match ← lift .badTelemetry
      (Snapshot.readRows aggregation (if data.isTruthy then data else .list [])) with
  | .list rows => return rows
  | .tree rows =>
    report .warning "datastream.last.unexpected_snapshot"
      [("interface", i.name), ("path", .str path)]
    return rows.map (·.2)

end Telemetry.Service
