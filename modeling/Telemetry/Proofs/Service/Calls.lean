import Telemetry.Proofs.Except
import Telemetry.Service.Call

/-!
What a request comes to, beside any effects: what is sent and what comes back, whatever is reported
on the way.
-/

namespace Telemetry.Service

open Call (report send lift)

variable {m : Type → Type} [Monad m] {α β ε : Type} {server : Server} {j : Journal}

namespace CallIn

/-- A call on a server, started with a journal. -/
def start (call : CallIn m α) (server : Server) (j : Journal) : m (Except Fault α × Journal) :=
  (call.run server).run.run j

theorem start_pure (a : α) : start (pure a : CallIn m α) server j = pure (.ok a, j) := rfl

theorem start_read : start (read : CallIn m Server) server j = pure (.ok server, j) := rfl

theorem start_lift (f : ε → Fault) (r : Except ε α) :
    start (lift f r : CallIn m α) server j = pure (r.mapError f, j) := by
  cases r <;> rfl

theorem start_bind (c : CallIn m α) (k : α → CallIn m β) :
    start (c >>= k) server j = start c server j >>= fun done =>
      match done with
      | (.ok a, j') => start (k a) server j'
      | (.error e, j') => pure (.error e, j') := by
  unfold start
  rw [ReaderT.run_bind, ExceptT.run_bind, StateT.run_bind]
  congr
  funext done
  rcases done with ⟨_ | _, _⟩ <;> rfl

variable [LawfulMonad m]

theorem start_modify (f : Journal → Journal) :
    start (modify f : CallIn m PUnit) server j = pure (.ok ⟨⟩, f j) := by
  show (pure (PUnit.unit, f j) >>= fun done => pure (Except.ok done.1, done.2) : m _) = _
  rw [pure_bind]

theorem start_report (level : Log.Level) (name : String) (fields : List (String × Value)) :
    start (report level name fields : CallIn m Unit) server j =
      pure (.ok ⟨⟩, { j with events := j.events ++ [⟨level, name, fields⟩] }) :=
  start_modify _

theorem start_send (request : Request) :
    start (send request : CallIn m Reply) server j =
      pure (.ok (server request), { j with requests := j.requests ++ [request] }) := by
  unfold send
  simp only [start_bind, start_modify, start_read, start_pure, pure_bind]

end CallIn

open CallIn

def Reply.response : Reply → Except Fault Response
  | .answered response => .ok response
  | .failed reason => .error (.request { message := "AppEngine request failed: " ++ reason })

/-- Why an answer of another status than success fails the call. -/
def Response.refusal (response : Response) : Fault :=
  match response.fault with
  | .ok fault => .request fault
  | .error what => .excess what

def Response.object (response : Response) : Except Fault (List (String × Value)) :=
  if response.isOk then
    match Json.readOctets response.body with
    | .ok (.object fields) => .ok fields
    | .ok _ =>
      .error (.request ⟨"AppEngine returned an unexpected body", some response.status, []⟩)
    | .error (.excess what) => .error (.excess what)
    | .error fault =>
      let message := "AppEngine returned an invalid JSON body: " ++ fault.message
      .error (.request ⟨message, some response.status, []⟩)
  else .error response.refusal

theorem Response.object_eq_ok_iff {response : Response} {fields : List (String × Value)} :
    response.object = .ok fields ↔
      response.isOk = true ∧ Json.readOctets response.body = .ok (.object fields) := by
  constructor
  · intro isObject
    unfold Response.object at isObject
    split at isObject
    · rename_i isOk
      split at isObject
      · cases isObject
        exact ⟨isOk, by assumption⟩
      all_goals cases isObject
    · cases isObject
  · rintro ⟨isOk, read⟩
    rw [Response.object, if_pos isOk, read]

variable [LawfulMonad m]

theorem start_ask (g : Client) (path : String) (params : List (String × Value)) (server : Server)
    (j : Journal) :
    ∃ events, start (g.ask path params : CallIn m Response) server j =
      pure ((server (g.request path params)).response,
        ⟨j.requests ++ [g.request path params], events⟩) := by
  unfold Client.ask
  simp only [start_bind, start_report, start_send, pure_bind]
  cases server (g.request path params) with
  | failed reason =>
    simp only [start_bind, start_report, pure_bind]
    exact ⟨_, rfl⟩
  | answered response =>
    simp only [start_bind, start_report, pure_bind]
    exact ⟨_, rfl⟩

theorem start_askForObject (g : Client) (path : String) (params : List (String × Value))
    (server : Server) (j : Journal) :
    ∃ events, start (g.askForObject path params : CallIn m _) server j =
      pure ((server (g.request path params)).response.bind Response.object,
        ⟨j.requests ++ [g.request path params], events⟩) := by
  obtain ⟨events, asked⟩ := start_ask (m := m) g path params server j
  unfold Client.askForObject
  rw [start_bind, asked, pure_bind]
  cases server (g.request path params) with
  | failed reason => exact ⟨_, rfl⟩
  | answered response =>
    simp only [Reply.response, Except.bind, Response.object]
    by_cases isOk : response.isOk = true
    · simp only [isOk, if_true]
      rcases Json.readOctets response.body with fault | v
      · cases fault
        case excess => exact ⟨_, rfl⟩
        all_goals
          simp only [start_bind, start_report, pure_bind]
          exact ⟨_, rfl⟩
      · cases v <;> exact ⟨_, rfl⟩
    · simp only [isOk, Bool.false_eq_true, if_false, start_bind, start_lift, pure_bind,
        Response.refusal]
      rcases response.fault with fault | fault
      · exact ⟨_, rfl⟩
      · simp only [mapError_ok, start_report, pure_bind]
        exact ⟨_, rfl⟩

end Telemetry.Service
