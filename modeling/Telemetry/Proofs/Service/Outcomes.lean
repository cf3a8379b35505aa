import Telemetry.Proofs.Walk.Steps
import Telemetry.Proofs.Service.Calls
import Telemetry.Service.Pages

/-!
What calls that move a walk come to. The outcome of a call is what it gives, the requests that it
sent and the walk after it; one statement for each call says what that is for every server.
-/

namespace Telemetry.Service

open Call (report send lift step)

namespace WalkCall

variable {σ α β ε : Type} {server : Server} {p : σ} {j : Journal}

@[simp] theorem perform_liftM (m : StateM σ α) :
    perform (liftM m : WalkCall σ α) server p j = ((.ok (m.run p).1, j), (m.run p).2) := rfl

@[simp] theorem perform_lift (f : ε → Fault) (r : Except ε α) :
    perform (lift f r : WalkCall σ α) server p j = ((r.mapError f, j), p) := by
  cases r <;> rfl

@[simp] theorem perform_step (f : ε → Fault) (s : Walk.Step σ ε α) :
    perform (step f s) server p j = (((s.perform p).1.mapError f, j), (s.perform p).2) := by
  show perform (lift f (s.perform p).1) server (s.perform p).2 j = _
  rcases s.perform p with ⟨_ | _, _⟩ <;> rfl

theorem perform_bind (c : WalkCall σ α) (k : α → WalkCall σ β) :
    perform (c >>= k) server p j = match perform c server p j with
      | ((.ok a, j'), q) => perform (k a) server q j'
      | ((.error e, j'), q) => ((.error e, j'), q) := by
  unfold perform
  rw [ReaderT.run_bind, ExceptT.run_bind, StateT.run_bind, StateT.run_bind]
  rcases ((c.run server).run.run j).run p with ⟨⟨_ | _, _⟩, _⟩ <;> rfl

def outcome (call : WalkCall σ α) (server : Server) (p : σ) :
    Except Fault α × List Request × σ :=
  let done := call.perform server p
  (done.1.1, done.1.2.requests, done.2)

end WalkCall

open WalkCall

/-! ### Requests -/

variable {σ : Type} {server : Server} {j : Journal}

/-- One request is sent, whatever comes back, and the walk stays where it is. -/
theorem perform_ask (g : Client) (path : String) (params : List (String × Value)) (server : Server)
    (p : σ) (j : Journal) :
    ∃ events, perform (g.ask path params) server p j =
      (((server (g.request path params)).response, ⟨j.requests ++ [g.request path params], events⟩),
        p) := by
  obtain ⟨events, asked⟩ := start_ask (m := StateM σ) g path params server j
  exact ⟨events, congrArg (·.run p) asked⟩

theorem perform_askForObject (g : Client) (path : String) (params : List (String × Value))
    (server : Server) (p : σ) (j : Journal) :
    ∃ events, perform (g.askForObject path params) server p j =
      (((server (g.request path params)).response.bind Response.object,
        ⟨j.requests ++ [g.request path params], events⟩), p) := by
  obtain ⟨events, asked⟩ := start_askForObject (m := StateM σ) g path params server j
  exact ⟨events, congrArg (·.run p) asked⟩

/-! ### Pages -/

theorem outcome_nextDevices (g : Client) (p : DeviceWalk) :
    g.nextDevices.outcome server p =
      match p.query with
      | .error e => (.error (.noDevices e), [], p)
      | .ok query =>
        let request := g.request deviceListPath (paramsOf query)
        match (server request).response.bind Response.object with
        | .error e => (.error e, [request], p)
        | .ok fields =>
          let read := (DeviceWalk.readPage (.value (.object fields))).perform p
          (read.1.mapError .badDevices, [request], read.2) := by
  unfold outcome Client.nextDevices
  rw [perform_bind, perform_step, DeviceWalk.perform_nextQuery]
  cases p.query with
  | error e => rfl
  | ok query =>
    obtain ⟨events, asked⟩ := perform_askForObject g deviceListPath (paramsOf query) server p {}
    simp only [mapError_ok, perform_bind, asked]
    cases (server (g.request deviceListPath (paramsOf query))).response.bind Response.object with
    | error e => rfl
    | ok fields =>
      simp only [perform_step]
      rcases (DeviceWalk.readPage (.value (.object fields))).perform p with ⟨_ | page, q⟩ <;> rfl

theorem outcome_nextSamples (g : Client) (target : Target) (interface path : String)
    (p : SampleWalk) :
    (g.nextSamples target interface path).outcome server p =
      match p.query with
      | .error e => (.error (.noSamples e), [], p)
      | .ok query =>
        let request :=
          g.request (interfaceAddress target.device interface path target.kind) (paramsOf query)
        match (server request).response with
        | .error e => (.error e, [request], p)
        | .ok response =>
          if response.isOk then
            let read := (SampleWalk.readPage (.octets response.body)).perform p
            (read.1.mapError .badSamples, [request], read.2)
          else if p.isFresh then (.error response.refusal, [request], p)
          else (.ok (.list []), [request], { p with stage := .exhausted }) := by
  unfold outcome Client.nextSamples
  rw [perform_bind, perform_step, SampleWalk.perform_nextQuery]
  cases p.query with
  | error e => rfl
  | ok query =>
    obtain ⟨events, asked⟩ := perform_ask g
      (interfaceAddress target.device interface path target.kind) (paramsOf query) server p {}
    simp only [mapError_ok, perform_bind, asked]
    generalize server _ = reply
    cases reply with
    | failed reason => rfl
    | answered response =>
      simp only [Reply.response]
      by_cases isOk : response.isOk = true
      · simp only [isOk, if_true, perform_bind, perform_step]
        rcases (SampleWalk.readPage (.octets response.body)).perform p with ⟨_ | content, q⟩ <;> rfl
      · simp only [isOk, Bool.false_eq_true, if_false, perform_bind, perform_liftM,
          SampleWalk.run_endAtFailure]
        cases p.isFresh with
        | true =>
          simp only [if_true, Bool.false_eq_true, if_false, perform_bind, perform_lift,
            Response.refusal]
          rcases response.fault with fault | fault <;> rfl
        | false => rfl

end Telemetry.Service
