import Telemetry.Proofs.Interface.Queries

/-!
Which mapping a path is resolved to. On every interface it is the first one that the path matches
segment by segment; whether the path is looked for among the endpoints or compared in pieces makes no
difference where both can be done.
-/

namespace Telemetry.Interface.Draft

variable {i : Draft} {m : Mapping.Draft} {path : String} {position : Nat}

/-- A mapping that the path matches, at a position before which it matches none. -/
structure FirstFit (i : Draft) (path : String) (position : Nat) (m : Mapping.Draft) : Prop where
  here : i.mappings[position]? = some m
  fits : Fits (segments m.endpoint) (segments path)
  unmatched : ∀ earlier < position, ∀ other, i.mappings[earlier]? = some other →
    ¬Fits (segments other.endpoint) (segments path)

theorem parametricMapping?_eq_some_iff :
    i.parametricMapping? path = some m ↔ ∃ position, i.FirstFit path position m := by
  unfold parametricMapping?
  rw [List.find?_eq_some_iff_getElem]
  simp only [Bool.not_eq_true', ← Bool.not_eq_true, Bool.and_eq_true, decide_eq_true_eq, ← fits_iff]
  constructor
  · rintro ⟨fits, position, inside, rfl, before⟩
    refine ⟨position, List.getElem?_eq_getElem inside, fits, ?_⟩
    intro earlier less other found
    obtain ⟨_, rfl⟩ := List.getElem?_eq_some_iff.mp found
    exact before earlier less
  · rintro ⟨position, here, fits, unmatched⟩
    obtain ⟨inside, rfl⟩ := List.getElem?_eq_some_iff.mp here
    refine ⟨fits, position, inside, rfl, ?_⟩
    intro earlier less
    exact unmatched earlier less _ (List.getElem?_eq_getElem (less.trans inside))

theorem resolve_eq_ok_iff : i.resolve path = .ok m ↔ ∃ position, i.FirstFit path position m := by
  rw [← parametricMapping?_eq_some_iff, resolve_eq]
  cases i.parametricMapping? path <;> simp

theorem parametricMapping?_eq_none_iff : i.parametricMapping? path = none ↔
    ∀ m ∈ i.mappings, ¬Fits (segments m.endpoint) (segments path) := by
  unfold parametricMapping?
  rw [List.find?_eq_none]
  simp only [Bool.and_eq_true, decide_eq_true_eq, fits_iff]

theorem resolve_eq_error_iff {fault : PathNotFound} : i.resolve path = .error fault ↔
    fault = ⟨path, i.name⟩ ∧ ∀ m ∈ i.mappings, ¬Fits (segments m.endpoint) (segments path) := by
  rw [← parametricMapping?_eq_none_iff, resolve_eq]
  cases i.parametricMapping? path <;> simp [eq_comm]

/-- A path is resolved to the first mapping that it matches, and to none if it matches none. Without the
mark of a parameter in any endpoint this is the first endpoint that is the path, and a mark inside a
segment stands for itself. -/
theorem resolve_first (i : Draft) (path : String) :
    (∀ m, i.resolve path = .ok m ↔ ∃ position, i.FirstFit path position m) ∧
    (∀ fault, i.resolve path = .error fault ↔
      fault = ⟨path, i.name⟩ ∧ ∀ m ∈ i.mappings, ¬Fits (segments m.endpoint) (segments path)) ∧
    (i.isParametric = false → i.literalMapping? path = i.parametricMapping? path) ∧
    ∀ endpoint, (∀ segment ∈ segments endpoint, isParameter segment = false) →
      (Fits (segments endpoint) (segments path) ↔ endpoint = path) := by
  refine ⟨fun m => resolve_eq_ok_iff, fun fault => resolve_eq_error_iff, ?_, ?_⟩
  · intro plain
    apply literalMapping?_eq
    intro m member
    exact literal_of_plain (isParametric_eq_false plain member)
  · intro endpoint literal
    exact fits_iff_of_literal literal

def bays : Draft where
  name := .str "org.example.Bays"
  major := .int 0
  minor := .int 1
  kind := .str "datastream"
  ownership := .str "device"
  mappings := [
    { endpoint := "/lab%\x7bbay\x7d/", type := ⟨.double, false⟩ },
    { endpoint := "/%\x7broom\x7d/", type := ⟨.integer, false⟩ },
    { endpoint := "/lab/", type := ⟨.string, false⟩ }]

/-- The last segment of every endpoint is empty, and the mark in the first one makes no parameter. -/
theorem resolve_first_of_bays :
    bays.resolve "/lab/" = .ok { endpoint := "/%\x7broom\x7d/", type := ⟨.integer, false⟩ } ∧
      bays.resolve "/lab" = .error ⟨"/lab", .str "org.example.Bays"⟩ ∧
      ¬Fits (segments "/lab%\x7bbay\x7d/") (segments "/lab/") ∧
      let plain := { bays with mappings := bays.mappings.drop 2 }
      plain.literalMapping? "/lab/" = plain.parametricMapping? "/lab/" := by
  obtain ⟨found, -, -, literal⟩ := resolve_first bays "/lab/"
  obtain ⟨-, refused, -, -⟩ := resolve_first bays "/lab"
  refine ⟨(found _).mpr ⟨1, rfl, by decide, ?_⟩, (refused _).mpr ⟨rfl, by decide⟩, ?_,
    (resolve_first _ _).2.2.1 (by decide)⟩
  · intro earlier less other here
    obtain rfl : earlier = 0 := by omega
    cases here
    decide
  · rw [literal _ (by decide)]
    decide

end Telemetry.Interface.Draft
