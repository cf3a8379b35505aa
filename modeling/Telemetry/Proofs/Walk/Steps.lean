import Telemetry.Walk.Devices
import Telemetry.Walk.Samples

/-!
Steps of walks that fail. Each step first finds out all that can go wrong and moves the walk only
then, so that a step that fails leaves the walk as it was.
-/

namespace Telemetry.Walk.Step

variable {σ ε ε' α β : Type} {p : σ}

/-! ### The outcome of a step -/

@[simp] theorem perform_get : (get : Step σ ε σ).perform p = (.ok p, p) := rfl

@[simp] theorem perform_liftM (m : StateM σ α) :
    (liftM m : Step σ ε α).perform p = (.ok (m.run p).1, (m.run p).2) := rfl

@[simp] theorem perform_lift_ok (f : ε' → ε) (a : α) :
    (lift f (.ok a) : Step σ ε α).perform p = (.ok a, p) := rfl

@[simp] theorem perform_lift_error (f : ε' → ε) (e : ε') :
    (lift f (.error e) : Step σ ε α).perform p = (.error (f e), p) := rfl

theorem perform_bind (s : Step σ ε α) (k : α → Step σ ε β) :
    (s >>= k).perform p = match s.perform p with
      | (.ok a, q) => (k a).perform q
      | (.error e, q) => (.error e, q) := by
  unfold perform
  rw [ExceptT.run_bind, StateT.run_bind]
  rcases s.run.run p with ⟨_ | _, _⟩ <;> rfl

theorem perform_bind_ok {s : Step σ ε α} {k : α → Step σ ε β} {b : β} {r : σ}
    (done : (s >>= k).perform p = (.ok b, r)) :
    ∃ a q, s.perform p = (.ok a, q) ∧ (k a).perform q = (.ok b, r) := by
  rw [perform_bind] at done
  rcases first : s.perform p with ⟨e | a, q⟩ <;> rw [first] at done
  · cases done
  · exact ⟨a, q, rfl, done⟩

theorem perform_lift_eq_ok {f : ε' → ε} {r : Except ε' α} {a : α} {q : σ}
    (done : (lift f r : Step σ ε α).perform p = (.ok a, q)) : r = .ok a ∧ q = p := by
  cases r with
  | error e => cases done
  | ok b =>
    cases done
    exact ⟨rfl, rfl⟩

/-- Whether a step succeeds, and the walk after it in either case. -/
def attempt (s : Step σ ε α) (p : σ) : Bool × σ :=
  ((s.perform p).1.isOk, (s.perform p).2)

/-! ### Steps that fail -/

/-- A step that leaves the walk as it was if it fails. -/
def Atomic (s : Step σ ε α) : Prop :=
  ∀ p e q, s.perform p = (.error e, q) → q = p

/-- A step that moves nothing, whether it fails or not. -/
def Still (s : Step σ ε α) : Prop :=
  ∀ p, (s.perform p).2 = p

def Sure (s : Step σ ε α) : Prop :=
  ∀ p, ∃ a q, s.perform p = (.ok a, q)

theorem Still.atomic {s : Step σ ε α} (still : s.Still) : s.Atomic := by
  intro p e q failed
  have kept := still p
  rw [failed] at kept
  exact kept

theorem Sure.atomic {s : Step σ ε α} (sure : s.Sure) : s.Atomic := by
  intro p e q failed
  obtain ⟨a, q', done⟩ := sure p
  rw [done] at failed
  cases failed

theorem still_get : (get : Step σ ε σ).Still := fun _ => rfl

theorem still_lift (f : ε' → ε) (r : Except ε' α) : (lift f r : Step σ ε α).Still := by
  intro p
  cases r <;> rfl

theorem sure_pure (a : α) : (pure a : Step σ ε α).Sure := fun p => ⟨a, p, rfl⟩

theorem sure_modify (f : σ → σ) : (modify f : Step σ ε PUnit).Sure := fun p => ⟨⟨⟩, f p, rfl⟩

theorem sure_liftM (m : StateM σ α) : (liftM m : Step σ ε α).Sure :=
  fun p => ⟨(m.run p).1, (m.run p).2, rfl⟩

theorem Sure.bind {s : Step σ ε α} {k : α → Step σ ε β} (first : s.Sure) (next : ∀ a, (k a).Sure) :
    (s >>= k).Sure := by
  intro p
  obtain ⟨a, q, done⟩ := first p
  obtain ⟨b, r, after⟩ := next a q
  exact ⟨b, r, by rw [perform_bind, done]; exact after⟩

/-- As long as nothing has been moved, failing later does no harm. -/
theorem Still.bind_atomic {s : Step σ ε α} {k : α → Step σ ε β} (first : s.Still)
    (next : ∀ a, (k a).Atomic) : (s >>= k).Atomic := by
  intro p e q failed
  have kept := first p
  rw [perform_bind] at failed
  rcases done : s.perform p with ⟨_ | a, q'⟩ <;> rw [done] at kept failed
  · exact (Prod.mk.inj failed).2.symm.trans kept
  · exact (next a q' e q failed).trans kept

/-- After a step that may have moved the walk nothing may fail. -/
theorem Atomic.bind_sure {s : Step σ ε α} {k : α → Step σ ε β} (first : s.Atomic)
    (next : ∀ a, (k a).Sure) : (s >>= k).Atomic := by
  intro p e q failed
  rw [perform_bind] at failed
  rcases done : s.perform p with ⟨_ | a, q'⟩ <;> rw [done] at failed
  · exact (Prod.mk.inj failed).2.symm.trans (first p _ _ done)
  · obtain ⟨b, r, after⟩ := next a q'
    cases after.symm.trans failed

/-- An attempt comes to what the step succeeds with, or to nothing. -/
theorem Atomic.attempt_cases {s : Step σ ε α} (atomic : s.Atomic) (p : σ) :
    (∃ a q, s.perform p = (.ok a, q) ∧ s.attempt p = (true, q)) ∨ s.attempt p = (false, p) := by
  rcases done : s.perform p with ⟨e | a, q⟩
  · obtain rfl := atomic p e q done
    exact .inr (by rw [attempt, done]; rfl)
  · exact .inl ⟨a, q, rfl, by rw [attempt, done]; rfl⟩

end Telemetry.Walk.Step

namespace Telemetry.DeviceWalk

open Walk.Step

@[simp] theorem perform_nextQuery (p : DeviceWalk) : nextQuery.perform p = (p.query, p) := by
  rw [nextQuery, perform_bind]
  cases h : p.query <;> simp [h]

theorem nextQuery_atomic : nextQuery.Atomic :=
  still_get.bind_atomic fun p => (still_lift id p.query).atomic

theorem follow_atomic (links : Links) : (follow links).Atomic := by
  unfold follow
  split
  · refine (still_lift id _).bind_atomic fun cursor => Sure.atomic ?_
    exact (sure_modify _).bind fun _ => sure_modify _
  · exact (sure_modify _).atomic

theorem followValue_atomic (links : Value) : (followValue links).Atomic :=
  (still_lift _ _).bind_atomic follow_atomic

/-- The devices of a page are all read before its links are followed. -/
theorem readPage_atomic (document : Json.Document) : (readPage document).Atomic := by
  unfold readPage
  refine (still_lift _ _).bind_atomic fun content => ?_
  refine (still_lift _ _).bind_atomic fun rows => ?_
  refine still_get.bind_atomic fun p => ?_
  refine (still_lift _ _).bind_atomic fun page => ?_
  exact (followValue_atomic _).bind_sure fun _ => sure_pure page

end Telemetry.DeviceWalk

namespace Telemetry.SampleWalk

open Walk.Step

@[simp] theorem perform_nextQuery (p : SampleWalk) : nextQuery.perform p = (p.query, p) := by
  rw [nextQuery, perform_bind]
  cases h : p.query <;> simp [h]

@[simp] theorem run_endAtFailure (p : SampleWalk) :
    endAtFailure.run p = if p.isFresh then (false, p) else (true, { p with stage := .exhausted }) := by
  show (if p.isFresh = true then _ else _ : StateM SampleWalk Bool).run p = _
  cases p.isFresh <;> rfl

theorem nextQuery_atomic : nextQuery.Atomic :=
  still_get.bind_atomic fun p => (still_lift id p.query).atomic

theorem pass_atomic (rows : List PageRow) : (pass rows).Atomic := by
  unfold pass
  split
  · exact (sure_liftM exhaust).atomic
  · refine still_get.bind_atomic fun p => ?_
    split
    · exact (sure_liftM exhaust).atomic
    · refine (still_lift _ _).bind_atomic fun bound => Sure.atomic ?_
      split
      · exact sure_liftM (moveTo _)
      · exact sure_liftM exhaust

theorem passValue_atomic (rows : Value) : (passValue rows).Atomic := by
  unfold passValue
  split
  · exact (sure_liftM exhaust).atomic
  · split
    · exact fun _ _ _ failed => (Prod.mk.inj failed).2.symm
    · refine still_get.bind_atomic fun p => ?_
      split
      · exact (sure_liftM exhaust).atomic
      · exact fun _ _ _ failed => (Prod.mk.inj failed).2.symm
    · exact pass_atomic _

/-- The rows of a page are all decoded before the window is moved past them. -/
theorem readPage_atomic (document : Json.Document) : (readPage document).Atomic := by
  unfold readPage
  refine (still_lift _ _).bind_atomic fun data => ?_
  refine still_get.bind_atomic fun p => ?_
  refine (still_lift _ _).bind_atomic fun content => ?_
  split
  · exact (pass_atomic _).bind_sure fun _ => sure_pure _
  · exact ((sure_liftM exhaust).bind fun _ => sure_pure _).atomic

end Telemetry.SampleWalk
