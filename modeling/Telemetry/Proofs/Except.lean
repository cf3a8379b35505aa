import Mathlib.Data.List.Forall2

/-! What it means that a computation which may fail has not failed. -/

namespace Telemetry

variable {ε α β : Type}

theorem bind_eq_ok {first : Except ε α} {next : α → Except ε β} {b : β} :
    first >>= next = .ok b ↔ ∃ a, first = .ok a ∧ next a = .ok b := by
  cases first with
  | error fault =>
    constructor
    · intro failed
      cases failed
    · rintro ⟨a, same, -⟩
      cases same
  | ok a =>
    constructor
    · exact fun run => ⟨a, rfl, run⟩
    · rintro ⟨_, same, run⟩
      cases same
      exact run

theorem pure_eq_ok {a b : α} : (pure a : Except ε α) = .ok b ↔ a = b :=
  ⟨Except.ok.inj, congrArg Except.ok⟩

theorem map_ok {step : Except ε α} {f : α → β} {b : β} (run : f <$> step = .ok b) :
    ∃ a, step = .ok a ∧ f a = b := by
  cases step with
  | error fault => cases run
  | ok a => exact ⟨a, rfl, Except.ok.inj run⟩

theorem mapError_ok {ε' : Type} (f : ε → ε') (a : α) : (Except.ok a).mapError f = .ok a := rfl

theorem mapError_ok_iff {ε' : Type} {step : Except ε α} {f : ε → ε'} {a : α} :
    step.mapError f = .ok a ↔ step = .ok a := by
  cases step with
  | error fault => exact iff_of_false nofun nofun
  | ok b =>
    constructor <;> intro same <;> exact congrArg Except.ok (Except.ok.inj same)

/-- A walk over a list succeeds where each of its steps does. -/
theorem mapM_ok {items : List α} {found : List β} {step : α → Except ε β} :
    items.mapM step = .ok found ↔ List.Forall₂ (fun item b => step item = .ok b) items found := by
  induction items generalizing found with
  | nil =>
    rw [List.forall₂_nil_left_iff]
    exact ⟨fun walked => (Except.ok.inj walked).symm, fun none => none ▸ rfl⟩
  | cons item rest ih =>
    simp only [List.mapM_cons, bind_eq_ok, pure_eq_ok, ih, List.forall₂_cons_left_iff]
    constructor
    · rintro ⟨b, first, later, others, rfl⟩
      exact ⟨b, later, first, others, rfl⟩
    · rintro ⟨b, later, first, others, rfl⟩
      exact ⟨b, first, later, others, rfl⟩

theorem exists_mapM_iff {items : List α} {step : α → Except ε β} :
    (∃ found, items.mapM step = .ok found) ↔ ∀ item ∈ items, ∃ b, step item = .ok b := by
  induction items with
  | nil => exact iff_of_true ⟨[], rfl⟩ nofun
  | cons item rest ih =>
    simp only [List.mapM_cons, bind_eq_ok, pure_eq_ok, List.forall_mem_cons, ← ih]
    constructor
    · rintro ⟨_, b, first, later, others, rfl⟩
      exact ⟨⟨b, first⟩, later, others⟩
    · rintro ⟨⟨b, first⟩, later, others⟩
      exact ⟨b :: later, b, first, later, others, rfl⟩

theorem exists_map_iff {step : Except ε α} {f : α → β} :
    (∃ b, f <$> step = .ok b) ↔ ∃ a, step = .ok a := by
  cases step with
  | error fault => exact iff_of_false nofun nofun
  | ok a => exact iff_of_true ⟨f a, rfl⟩ ⟨a, rfl⟩

end Telemetry
