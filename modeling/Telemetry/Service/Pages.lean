import Telemetry.Service.Reads

/-! Walks over pages: each call fetches the next page and moves the walk past it. -/

namespace Telemetry.Service

open Call (report lift step)
open Snapshot (Content)

def paramsOf (query : Query) : List (String × Value) :=
  query.map fun field => (field.1, .str field.2)

def pageLength : DevicePage → Nat
  | .ids ids => ids.length
  | .details devices => devices.length

def contentLength : Content → Nat
  | .list rows => rows.length
  | .tree rows => rows.length

def Client.nextDevices (g : Client) : WalkCall DeviceWalk DevicePage := do
  let query ← step .noDevices DeviceWalk.nextQuery
  let fields ← g.askForObject deviceListPath (paramsOf query)
  let page ← step .badDevices (DeviceWalk.readPage (.value (.object fields)))
  let next ← getThe DeviceWalk
  report .info "paginator.devices.advanced"
    [("page_length", .int (pageLength page)), ("has_next_page", .bool next.hasMore)]
  return page

/-- The next page of the samples of a path. A failure after the first page ends the walk: the last
page was full. -/
def Client.nextSamples (g : Client) (target : Target) (interface path : String) :
    WalkCall SampleWalk Content := do
  let place : List (String × Value) := [("interface", .str interface), ("path", .str path)]
  let query ← step .noSamples SampleWalk.nextQuery
  let response ←
    g.ask (interfaceAddress target.device interface path target.kind) (paramsOf query)
  let status : String × Value := ("status_code", .int response.status)
  if response.isOk then
    let content ← step .badSamples (SampleWalk.readPage (.octets response.body))
    let next ← getThe SampleWalk
    report .info "paginator.datastream.advanced"
      (place ++
        [("page_length", .int (contentLength content)), ("has_next_page", .bool next.hasMore)])
    return content
  else if ← SampleWalk.endAtFailure then
    report .info "paginator.datastream.trailing_page_failed" (place ++ [status])
    return .list []
  else
    let fault ← lift .excess response.fault
    report .error "paginator.datastream.first_page_failed"
      (place ++ [status, ("errors", .object fault.errors)])
    throw (.request fault)

end Telemetry.Service
