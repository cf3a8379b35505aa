import Telemetry.Proofs.Service.Outcomes

/-!
Asking again after a failure. A call for a page sends a request that depends on the walk alone, and
a failure moves no walk, so the same page is asked for the next time.
-/

namespace Telemetry.Service

open WalkCall

variable {σ α : Type} {server : Server} {sent : List Request} {e : Fault}

/-- A call that leaves the walk as it was if it fails, and then sends the same again. -/
def WalkCall.Retries (call : WalkCall σ α) : Prop :=
  ∀ server p e sent q, call.outcome server p = (.error e, sent, q) →
    q = p ∧ ∀ server', (call.outcome server' q).2.1 = sent

/-- It is enough that the requests do not depend on the server. -/
theorem retries_of_sent {call : WalkCall σ α} (requests : σ → List Request)
    (sends : ∀ server p, (call.outcome server p).2.1 = requests p)
    (keeps : ∀ server p e sent q, call.outcome server p = (.error e, sent, q) → q = p) :
    call.Retries := by
  intro server p e sent q failed
  obtain rfl := keeps server p e sent q failed
  refine ⟨rfl, fun server' => ?_⟩
  have before := sends server q
  rw [failed] at before
  exact (sends server' q).trans before.symm

theorem mapError_eq_error {ε ε' : Type} {f : ε → ε'} {r : Except ε α} {e : ε'}
    (h : r.mapError f = .error e) : ∃ e', r = .error e' := by
  cases r with
  | error e' => exact ⟨e', rfl⟩
  | ok a => cases h

/-! ### Devices -/

theorem sent_nextDevices (g : Client) (p : DeviceWalk) :
    (g.nextDevices.outcome server p).2.1 =
      p.query.toOption.toList.map fun query => g.request deviceListPath (paramsOf query) := by
  rw [outcome_nextDevices]
  cases p.query with
  | error e => rfl
  | ok query =>
    dsimp only
    split <;> rfl

theorem nextDevices_keeps (g : Client) {p q : DeviceWalk}
    (failed : g.nextDevices.outcome server p = (.error e, sent, q)) : q = p := by
  rw [outcome_nextDevices] at failed
  split at failed
  · exact (Prod.mk.inj (Prod.mk.inj failed).2).2.symm
  · dsimp only at failed
    split at failed
    · exact (Prod.mk.inj (Prod.mk.inj failed).2).2.symm
    · obtain ⟨error, rest⟩ := Prod.mk.inj failed
      obtain ⟨e', unread⟩ := mapError_eq_error error
      have kept := DeviceWalk.readPage_atomic _ p e' _ (Prod.ext unread rfl)
      exact (Prod.mk.inj rest).2.symm.trans kept

theorem nextDevices_exhausted (g : Client) {p : DeviceWalk} (done : p.hasMore = false) :
    g.nextDevices.outcome server p = (.error (.noDevices .exhausted), [], p) := by
  have none : p.query = .error .exhausted := by simp [DeviceWalk.query, done]
  rw [outcome_nextDevices, none]

/-! ### Samples -/

variable {target : Target} {interface path : String}

theorem sent_nextSamples (g : Client) (p : SampleWalk) :
    ((g.nextSamples target interface path).outcome server p).2.1 =
      p.query.toOption.toList.map fun query =>
        g.request (interfaceAddress target.device interface path target.kind) (paramsOf query) := by
  rw [outcome_nextSamples]
  cases p.query with
  | error e => rfl
  | ok query =>
    dsimp only
    repeat' split
    all_goals rfl

theorem nextSamples_keeps (g : Client) {p q : SampleWalk}
    (failed : (g.nextSamples target interface path).outcome server p = (.error e, sent, q)) :
    q = p := by
  rw [outcome_nextSamples] at failed
  split at failed
  · exact (Prod.mk.inj (Prod.mk.inj failed).2).2.symm
  · dsimp only at failed
    split at failed
    · exact (Prod.mk.inj (Prod.mk.inj failed).2).2.symm
    · split at failed
      · obtain ⟨error, rest⟩ := Prod.mk.inj failed
        obtain ⟨e', unread⟩ := mapError_eq_error error
        have kept := SampleWalk.readPage_atomic _ p e' _ (Prod.ext unread rfl)
        exact (Prod.mk.inj rest).2.symm.trans kept
      · split at failed
        · exact (Prod.mk.inj (Prod.mk.inj failed).2).2.symm
        · cases failed

theorem nextSamples_exhausted (g : Client) {p : SampleWalk} (done : p.hasMore = false) :
    (g.nextSamples target interface path).outcome server p =
      (.error (.noSamples .exhausted), [], p) := by
  have none : p.query = .error .exhausted := by simp [SampleWalk.query, done]
  rw [outcome_nextSamples, none]

/-! ### Failures -/

/-- No failure moves a walk, whatever step or call it stops, and a walk that is at its end is not
asked for. -/
theorem failures_keep_walks :
    (DeviceWalk.nextQuery.Atomic ∧ (∀ links, (DeviceWalk.follow links).Atomic) ∧
      (∀ links, (DeviceWalk.followValue links).Atomic) ∧
      ∀ document, (DeviceWalk.readPage document).Atomic) ∧
    (SampleWalk.nextQuery.Atomic ∧ (∀ rows, (SampleWalk.pass rows).Atomic) ∧
      (∀ rows, (SampleWalk.passValue rows).Atomic) ∧
      ∀ document, (SampleWalk.readPage document).Atomic) ∧
    (∀ g : Client, g.nextDevices.Retries ∧ ∀ server p, p.hasMore = false →
      g.nextDevices.outcome server p = (.error (.noDevices .exhausted), [], p)) ∧
    ∀ (g : Client) target interface path, (g.nextSamples target interface path).Retries ∧
      ∀ server p, p.hasMore = false → (g.nextSamples target interface path).outcome server p =
        (.error (.noSamples .exhausted), [], p) := by
  refine ⟨⟨DeviceWalk.nextQuery_atomic, DeviceWalk.follow_atomic, DeviceWalk.followValue_atomic,
      DeviceWalk.readPage_atomic⟩, ⟨SampleWalk.nextQuery_atomic, SampleWalk.pass_atomic,
      SampleWalk.passValue_atomic, SampleWalk.readPage_atomic⟩, fun g => ⟨?_, ?_⟩,
    fun g target interface path => ⟨?_, ?_⟩⟩
  · exact retries_of_sent _ (fun _ p => sent_nextDevices g p) fun _ _ _ _ _ => nextDevices_keeps g
  · exact fun server p done => nextDevices_exhausted g done
  · exact retries_of_sent _ (fun _ p => sent_nextSamples g p) fun _ _ _ _ _ => nextSamples_keeps g
  · exact fun server p done => nextSamples_exhausted g done

/-- A row whose timestamp is no text, a listing that is refused, and a walk at its end. -/
theorem failures_keep_walks_met :
    let g : Client := { baseUrl := "http://localhost", realm := "test" }
    let samples : SampleWalk :=
      { aggregation := .individual, order := .ascending, pageSize := 1, firstLower := none,
        firstUpper := none, stage := .midIteration }
    let devices : DeviceWalk := { pageSize := 10, format := .id }
    let row : SampleWalk.PageRow := .raw (.object [("timestamp", .bool true)])
    let refusing : Server := fun _ => .failed "refused"
    (∃ e q, (SampleWalk.pass [row]).perform samples = (.error e, q) ∧ q = samples) ∧
    (∃ e sent q, g.nextDevices.outcome refusing devices = (.error e, sent, q) ∧ q = devices ∧
      (g.nextDevices.outcome (fun _ => .failed "again") q).2.1 = sent) ∧
    g.nextDevices.outcome refusing { devices with stage := .exhausted } =
      (.error (.noDevices .exhausted), [], { devices with stage := .exhausted }) := by
  intro g samples devices row refusing
  have ⟨_, sampleSteps, listing, _⟩ := failures_keep_walks
  have fault : ((SampleWalk.pass [row]).perform samples).1 =
    .error (.badTimestamp (.notATimestamp (.bool true))) := rfl
  have kept := sampleSteps.2.1 [row] samples _ _ (Prod.ext fault rfl)
  have retried := (listing g).1 refusing devices _ _ _ rfl
  refine ⟨⟨_, _, Prod.ext fault rfl, kept⟩, ⟨_, _, _, rfl, retried.1, retried.2 _⟩, ?_⟩
  exact (listing g).2 refusing _ rfl

end Telemetry.Service
