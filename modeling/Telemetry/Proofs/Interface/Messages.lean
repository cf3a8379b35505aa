import Telemetry.Proofs.Except
import Telemetry.Proofs.Interface.Queries

/-!
Messages against queries. The endpoints of an object lie side by side on one level, and a message that
fits some of them was sent on that level, which can then be queried.
-/

namespace Telemetry

/-! ### Levels -/

/-- Segments of two endpoints that match the same segments of a path. -/
def SameSegment (segment other : List Char) : Prop :=
  segment = other ∨ isParameter segment = true ∧ isParameter other = true

instance (segment other : List Char) : Decidable (SameSegment segment other) :=
  inferInstanceAs (Decidable (_ ∨ _))

/-- Endpoints that differ in their last segment at most. -/
def Beside (endpoint other : String) : Prop :=
  (segments endpoint).length = (segments other).length ∧
    List.Forall₂ SameSegment (segments endpoint).dropLast (segments other).dropLast

instance (endpoint other : String) : Decidable (Beside endpoint other) :=
  inferInstanceAs (Decidable (_ ∧ _))

variable {endpoint level others parts : List (List Char)} {path name : String}

theorem Fits.dropLast {last : List Char} (fits : Fits endpoint (parts ++ [last])) :
    Fits endpoint.dropLast parts := by
  have count := List.Forall₂.length_eq fits
  rw [List.length_append, List.length_singleton] at count
  have above := List.forall₂_take parts.length fits
  rwa [List.take_left, show parts.length = endpoint.length - 1 by omega, ← List.dropLast_eq_take] at above

theorem Fits.congr (fits : Fits level parts) (same : List.Forall₂ SameSegment level others) :
    Fits others parts := by
  induction same generalizing parts with
  | nil => exact fits
  | cons first _ ih =>
    obtain ⟨part, more, here, later, rfl⟩ := List.forall₂_cons_left_iff.mp fits
    refine .cons ?_ (ih later)
    rcases first with rfl | ⟨-, parameter⟩
    · exact here
    · exact .inr parameter

/-- A level of which every segment is matched can be followed by the last segment of its endpoint. -/
theorem exists_below_of_fits_dropLast (fits : Fits (segments name).dropLast (segments path)) :
    ∃ rest, Fits (segments name) (segments (path ++ "/" ++ rest)) := by
  have nonempty : segments name ≠ [] := Text.pieces_ne_nil
  have slashless : ∀ part ∈ [(segments name).getLast nonempty], '/' ∉ part := by
    intro part member
    obtain rfl := List.mem_singleton.mp member
    exact Text.not_mem_of_mem_pieces (List.getLast_mem nonempty)
  obtain ⟨rest, below⟩ := exists_below path (List.cons_ne_nil _ []) slashless
  refine ⟨rest, ?_⟩
  rw [below]
  nth_rewrite 1 [← List.dropLast_concat_getLast nonempty]
  exact List.rel_append fits (fits_refl _)

/-! ### Joined paths -/

theorem segments_of_slashless (slashless : '/' ∉ name.toList) : segments name = [name.toList] :=
  Text.pieces_of_not_mem slashless

namespace Interface.Draft

variable {i : Draft} {values : List (String × Value)} {typed : List (String × TypedValue)}

/-- Names without a separator go below the path, whether or not it ends with one. -/
theorem joinPath_eq (nonempty : path ≠ "") (slashless : '/' ∉ name.toList) :
    joinPath path name = trimQuery path ++ "/" ++ name := by
  have relative : name.toList.head? ≠ some '/' := fun starts => slashless (List.mem_of_head? starts)
  rw [joinPath, if_neg relative, trimQuery]
  by_cases ends : path.toList.getLast? = some '/'
  · obtain ⟨front, whole⟩ := List.getLast?_eq_some_iff.mp ends
    rw [if_pos (by simp [ends]), if_pos ends, whole, List.dropLast_concat]
    have same : path = String.ofList front ++ "/" := by
      apply String.ext
      rw [whole, String.toList_append, String.toList_ofList]
      rfl
    rw [same]
  · rw [if_neg (by simp [nonempty, ends]), if_neg ends]

/-- Every value of a message that is accepted has a name without a separator, and a mapping. -/
theorem resolve_of_checkObject (sent : i.checkObject path values = .ok typed) :
    ∀ field ∈ values, '/' ∉ field.1.toList ∧ ∃ m, i.resolve (joinPath path field.1) = .ok m := by
  induction values generalizing typed with
  | nil => exact nofun
  | cons field rest ih =>
    obtain ⟨key, v⟩ := field
    rw [checkObject] at sent
    split at sent
    · cases sent
    · rename_i slashless
      simp only [bind_eq_ok] at sent
      obtain ⟨value, here, others, later, -⟩ := sent
      refine List.forall_mem_cons.mpr ⟨⟨by simpa using slashless, ?_⟩, ih later⟩
      rw [checkValue] at here
      split at here
      · cases here
      · rename_i m resolved
        exact ⟨m, resolved⟩

/-- A message can only be sent on a level above all endpoints, where they lie beside one another, and
this level can be queried. -/
theorem checkQuery_of_checkObject (object : i.isObject = true)
    (level : ∀ m ∈ i.mappings, ∀ other ∈ i.mappings, Beside m.endpoint other.endpoint)
    (nonempty : path ≠ "") (given : values ≠ []) (sent : i.checkObject path values = .ok typed) :
    i.checkQuery path = .ok () := by
  obtain ⟨field, rest, rfl⟩ := List.exists_cons_of_ne_nil given
  obtain ⟨slashless, resolved⟩ := resolve_of_checkObject sent field List.mem_cons_self
  rw [joinPath_eq nonempty slashless] at resolved
  obtain ⟨m, member, fits⟩ := resolve_isOk_iff.mp resolved
  rw [segments_below, segments_of_slashless slashless] at fits
  by_cases root : path = "/"
  · rw [checkQuery, if_pos root]
  · rw [checkQuery, if_neg root, object, if_pos rfl, checkObjectQuery_iff]
    intro other isOther
    obtain ⟨-, beside⟩ := level m member other isOther
    exact exists_below_of_fits_dropLast (fits.dropLast.congr beside)

def weather : Draft where
  name := .str "org.example.Weather"
  major := .int 0
  minor := .int 1
  kind := .str "datastream"
  ownership := .str "device"
  aggregation := .member .object
  mappings := [
    { endpoint := "/%\x7bstation\x7d//rain", type := ⟨.double, false⟩ },
    { endpoint := "/%\x7bplace\x7d//wind", type := ⟨.string, false⟩ }]

/-- The empty segment of the endpoints stands between two separators of the path. -/
theorem checkQuery_of_checkObject_of_weather :
    (∃ typed, weather.checkObject "/7//" [("wind", .str "NW"), ("rain", .int 3)] = .ok typed) ∧
      weather.checkQuery "/7//" = .ok () := by
  have sent : ∃ typed,
      weather.checkObject "/7//" [("wind", .str "NW"), ("rain", .int 3)] = .ok typed := ⟨_, rfl⟩
  obtain ⟨typed, accepted⟩ := sent
  have level : ∀ m ∈ weather.mappings, ∀ other ∈ weather.mappings, Beside m.endpoint other.endpoint := by
    decide
  exact ⟨⟨typed, accepted⟩, checkQuery_of_checkObject rfl level (by decide) (by decide) accepted⟩

end Interface.Draft

end Telemetry
