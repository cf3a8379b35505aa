import Mathlib.Data.List.Find
import Mathlib.Data.List.Forall2
import Telemetry.Interface.Address
import Telemetry.Proofs.Text.Split

/-!
Queries against the paths that they lead to. A path resolves where it matches an endpoint segment by
segment, on interfaces with parameters and on those without, and a query is a path that can be made
into such a path by what may follow it.
-/

namespace Telemetry

/-- Segments that match those of an endpoint one by one. -/
def Fits (endpoint path : List (List Char)) : Prop :=
  List.Forall₂ (fun segment part => part = segment ∨ isParameter segment = true) endpoint path

instance (endpoint path : List (List Char)) : Decidable (Fits endpoint path) :=
  inferInstanceAs (Decidable (List.Forall₂ _ _ _))

variable {endpoint parts more : List (List Char)}

theorem segmentFits_iff {segment part : List Char} :
    segmentFits segment part = true ↔ part = segment ∨ isParameter segment = true := by
  simp [segmentFits]

theorem fits_refl (endpoint : List (List Char)) : Fits endpoint endpoint :=
  List.forall₂_same.mpr fun _ _ => .inl rfl

/-- Segments that lead to a level of an endpoint are followed by its other segments. -/
theorem fits_append_drop : ∀ {endpoint parts : List (List Char)}, parts.length ≤ endpoint.length →
    segmentsFit endpoint parts = true → Fits endpoint (parts ++ endpoint.drop parts.length)
  | endpoint, [], _, _ => fits_refl endpoint
  | segment :: endpoint, part :: parts, short, fit => by
    obtain ⟨first, rest⟩ := Bool.and_eq_true_iff.mp fit
    exact .cons (segmentFits_iff.mp first) (fits_append_drop (Nat.le_of_succ_le_succ short) rest)

theorem Fits.segmentsFit (fits : Fits endpoint (parts ++ more)) : segmentsFit endpoint parts = true := by
  induction parts generalizing endpoint with
  | nil =>
    rw [Telemetry.segmentsFit, List.zip_nil_right]
    rfl
  | cons part parts ih =>
    obtain ⟨segment, rest, first, others, rfl⟩ := List.forall₂_cons_right_iff.mp fits
    exact Bool.and_eq_true_iff.mpr ⟨segmentFits_iff.mpr first, ih others⟩

theorem fits_iff : Fits endpoint parts ↔
    endpoint.length = parts.length ∧ segmentsFit endpoint parts = true := by
  constructor
  · intro fits
    have whole : Fits endpoint (parts ++ []) := (List.append_nil parts).symm ▸ fits
    exact ⟨List.Forall₂.length_eq fits, whole.segmentsFit⟩
  · rintro ⟨same, fit⟩
    have fits := fits_append_drop same.ge fit
    rwa [List.drop_of_length_le same.le, List.append_nil] at fits

/-! ### Paths and their segments -/

theorem segments_injective {path other : String} (same : segments path = segments other) : path = other := by
  have joined := congrArg (Text.join ['/']) same
  rw [segments, segments, Text.join_pieces, Text.join_pieces] at joined
  exact String.ext joined

theorem segments_below (path rest : String) :
    segments (path ++ "/" ++ rest) = segments path ++ segments rest := by
  have apart : (path ++ "/" ++ rest).toList = path.toList ++ '/' :: rest.toList := by
    simp [String.toList_append]
  rw [segments, apart, Text.pieces_append_cons]
  rfl

theorem exists_below (path : String) (nonempty : more ≠ []) (absent : ∀ part ∈ more, '/' ∉ part) :
    ∃ rest, segments (path ++ "/" ++ rest) = segments path ++ more := by
  refine ⟨String.ofList (Text.join ['/'] more), ?_⟩
  rw [segments_below]
  congr 1
  rw [segments, String.toList_ofList, Text.pieces_join nonempty absent]

theorem length_segments_pos (path : String) : 0 < (segments path).length :=
  List.length_pos_iff.mpr Text.pieces_ne_nil

theorem hasParameter_iff {cs : List Char} : Mapping.hasParameter cs = true ↔ ['%', '\x7b'] <:+: cs := by
  fun_induction Mapping.hasParameter cs with
  | case1 => simp
  | case2 rest => exact iff_of_true rfl (List.prefix_append ['%', '\x7b'] rest).isInfix
  | case3 c rest other ih =>
    rw [ih, List.infix_cons_iff]
    refine (or_iff_right fun starts => ?_).symm
    obtain ⟨later, same⟩ := starts
    cases same
    exact other later rfl rfl

theorem isParameter_iff {segment : List Char} :
    isParameter segment = true ↔ ['%', '\x7b'] <+: segment := by
  unfold isParameter
  split
  · exact iff_of_true rfl (List.prefix_append ['%', '\x7b'] _)
  · rename_i other
    refine iff_of_false nofun fun starts => ?_
    obtain ⟨later, same⟩ := starts
    exact other later same.symm

/-- An endpoint of which no segment is a parameter matches itself alone, also where the mark of one
stands inside a segment. -/
theorem fits_iff_of_literal {endpoint path : String}
    (literal : ∀ segment ∈ segments endpoint, isParameter segment = false) :
    Fits (segments endpoint) (segments path) ↔ endpoint = path := by
  constructor
  · intro fits
    apply segments_injective
    rw [← List.forall₂_eq_eq_eq]
    refine ((List.forall₂_and_left _ _).mpr ⟨literal, fits⟩).imp ?_
    rintro segment part ⟨unmarked, same | marked⟩
    · exact same.symm
    · cases unmarked.symm.trans marked
  · rintro rfl
    exact fits_refl _

theorem literal_of_plain {endpoint : String} (plain : Mapping.hasParameter endpoint.toList = false) :
    ∀ segment ∈ segments endpoint, isParameter segment = false := by
  intro segment member
  by_contra marked
  rw [Bool.not_eq_false] at marked
  have within := (isParameter_iff.mp marked).isInfix.trans (Text.infix_of_mem_pieces member)
  rw [hasParameter_iff.mpr within] at plain
  cases plain

namespace Interface.Draft

variable {i : Draft} {m : Mapping.Draft} {bare query : String}

/-! ### Resolution -/

theorem isParametric_eq_false (plain : i.isParametric = false) (member : m ∈ i.mappings) :
    Mapping.hasParameter m.endpoint.toList = false := by
  have none := List.any_eq_false.mp plain m member
  exact Bool.eq_false_iff.mpr none

theorem elim_eq_ok {ε α : Type} {o : Option α} {fault : ε} :
    (∃ a, o.elim (.error fault) .ok = (.ok a : Except ε α)) ↔ o.isSome = true := by
  cases o <;> simp

/-- Where no segment of any endpoint is a parameter, looking for the path among the endpoints and
matching them segment by segment come to the same mapping. -/
theorem literalMapping?_eq {path : String}
    (literal : ∀ m ∈ i.mappings, ∀ segment ∈ segments m.endpoint, isParameter segment = false) :
    i.literalMapping? path = i.parametricMapping? path := by
  unfold literalMapping? parametricMapping?
  apply List.find?_congr
  intro m member
  rw [Bool.eq_iff_iff, decide_eq_true_eq, ← fits_iff_of_literal (literal m member), fits_iff,
    Bool.and_eq_true, decide_eq_true_eq]

theorem resolve_eq (i : Draft) (path : String) :
    i.resolve path = (i.parametricMapping? path).elim (.error ⟨path, i.name⟩) .ok := by
  unfold resolve
  cases kind : i.isParametric with
  | true => rfl
  | false =>
    have same : i.literalMapping? path = i.parametricMapping? path :=
      literalMapping?_eq fun m member => literal_of_plain (isParametric_eq_false kind member)
    simp [same]

/-- A path is resolved where it matches an endpoint, whether or not there are parameters. -/
theorem resolve_isOk_iff {path : String} : (∃ m, i.resolve path = .ok m) ↔
    ∃ m ∈ i.mappings, Fits (segments m.endpoint) (segments path) := by
  rw [resolve_eq, elim_eq_ok, parametricMapping?, List.find?_isSome]
  simp only [Bool.and_eq_true, decide_eq_true_eq, fits_iff]

/-! ### Queries -/

/-- A level above the last one of an endpoint is followed by another level. -/
theorem exists_fits_below : (∃ rest, Fits (segments m.endpoint) (segments (bare ++ "/" ++ rest))) ↔
    (segments bare).length < (segments m.endpoint).length ∧
      segmentsFit (segments m.endpoint) (segments bare) = true := by
  constructor
  · rintro ⟨rest, fits⟩
    rw [segments_below] at fits
    have counted := List.Forall₂.length_eq fits
    have positive := length_segments_pos rest
    rw [List.length_append] at counted
    exact ⟨by omega, fits.segmentsFit⟩
  · rintro ⟨short, fit⟩
    have fits := fits_append_drop short.le fit
    have nonempty : (segments m.endpoint).drop (segments bare).length ≠ [] :=
      mt List.drop_eq_nil_iff.mp short.not_ge
    obtain ⟨rest, below⟩ := exists_below bare nonempty fun part inDrop =>
      Text.not_mem_of_mem_pieces (List.mem_of_mem_drop inDrop)
    exact ⟨rest, below ▸ fits⟩

theorem checkIndividualQuery_iff : i.checkIndividualQuery bare = .ok () ↔
    ∃ path, (path = bare ∨ ∃ rest, path = bare ++ "/" ++ rest) ∧ ∃ m, i.resolve path = .ok m := by
  have led : i.checkIndividualQuery bare = .ok () ↔ ∃ m ∈ i.mappings,
      (segments bare).length ≤ (segments m.endpoint).length ∧
        segmentsFit (segments m.endpoint) (segments bare) = true := by
    unfold checkIndividualQuery
    simp
  rw [led]
  constructor
  · rintro ⟨m, member, short, fit⟩
    -- A query that is as deep as the endpoint resolves itself; no separator may follow it.
    rcases short.lt_or_eq with less | same
    · obtain ⟨rest, fits⟩ := exists_fits_below.mpr ⟨less, fit⟩
      exact ⟨_, .inr ⟨rest, rfl⟩, resolve_isOk_iff.mpr ⟨m, member, fits⟩⟩
    · exact ⟨bare, .inl rfl, resolve_isOk_iff.mpr ⟨m, member, fits_iff.mpr ⟨same.symm, fit⟩⟩⟩
  · rintro ⟨path, below, resolved⟩
    obtain ⟨m, member, fits⟩ := resolve_isOk_iff.mp resolved
    rcases below with rfl | ⟨rest, rfl⟩
    · obtain ⟨same, fit⟩ := fits_iff.mp fits
      exact ⟨m, member, same.ge, fit⟩
    · obtain ⟨less, fit⟩ := exists_fits_below.mp ⟨rest, fits⟩
      exact ⟨m, member, less.le, fit⟩

/-- The walk ends at the first endpoint that the query does not lead to, if there is one. -/
theorem checkObjectQuery_cases (mappings : List Mapping.Draft) :
    (checkObjectQuery bare mappings = .ok () ∧
      ∀ m ∈ mappings, ∃ rest, Fits (segments m.endpoint) (segments (bare ++ "/" ++ rest))) ∨
    ∃ m ∈ mappings, (¬∃ rest, Fits (segments m.endpoint) (segments (bare ++ "/" ++ rest))) ∧
      (checkObjectQuery bare mappings = .error (.noMatch bare) ∨
        checkObjectQuery bare mappings = .error (.endpointMismatch bare m.endpoint)) := by
  induction mappings with
  | nil => exact .inl ⟨rfl, nofun⟩
  | cons m rest ih =>
    have positive := length_segments_pos m.endpoint
    unfold checkObjectQuery
    by_cases long : (segments m.endpoint).length - 1 < (segments bare).length
    · rw [if_pos long]
      refine .inr ⟨m, List.mem_cons_self, fun below => ?_, .inl rfl⟩
      have short := (exists_fits_below.mp below).1
      omega
    · rw [if_neg long]
      by_cases fit : segmentsFit (segments m.endpoint) (segments bare) = true
      · rw [if_pos fit]
        have first := exists_fits_below.mpr ⟨by omega, fit⟩
        rcases ih with ⟨accepted, each⟩ | ⟨other, member, refused⟩
        · exact .inl ⟨accepted, List.forall_mem_cons.mpr ⟨first, each⟩⟩
        · exact .inr ⟨other, List.mem_cons_of_mem _ member, refused⟩
      · rw [if_neg fit]
        exact .inr ⟨m, List.mem_cons_self, fun below => fit (exists_fits_below.mp below).2, .inr rfl⟩

theorem checkObjectQuery_iff {mappings : List Mapping.Draft} : checkObjectQuery bare mappings = .ok () ↔
    ∀ m ∈ mappings, ∃ rest, Fits (segments m.endpoint) (segments (bare ++ "/" ++ rest)) := by
  rcases checkObjectQuery_cases mappings with ⟨accepted, each⟩ | ⟨m, member, blocked, refused⟩
  · exact iff_of_true accepted each
  · refine iff_of_false (fun accepted => ?_) fun each => blocked (each m member)
    rcases refused with refused | refused <;> cases accepted.symm.trans refused

theorem trimQuery_eq (trimmed : query = bare ++ "/" ∨ query = bare ∧ bare.toList.getLast? ≠ some '/') :
    trimQuery query = bare := by
  rcases trimmed with rfl | ⟨rfl, bareEnd⟩
  · have ends : (bare ++ "/").toList = bare.toList ++ ['/'] := String.toList_append
    rw [trimQuery, ends, List.getLast?_concat, if_pos rfl, List.dropLast_concat, String.ofList_toList]
  · rw [trimQuery, if_neg bareEnd]

/-- A query is accepted where paths below it are resolved, or match every endpoint of an object, and is
refused without its last separator otherwise. -/
theorem checkQuery_agrees (inner : query ≠ "/")
    (trimmed : query = bare ++ "/" ∨ query = bare ∧ bare.toList.getLast? ≠ some '/') :
    (i.isObject = false → (i.checkQuery query = .ok () ↔
      ∃ path, (path = bare ∨ ∃ rest, path = bare ++ "/" ++ rest) ∧ ∃ m, i.resolve path = .ok m)) ∧
    (i.isObject = true → (i.checkQuery query = .ok () ↔
      ∀ m ∈ i.mappings, ∃ rest, Fits (segments m.endpoint) (segments (bare ++ "/" ++ rest)))) ∧
    (i.checkQuery query ≠ .ok () → i.checkQuery query = .error (.noMatch bare) ∨
      ∃ m ∈ i.mappings, i.checkQuery query = .error (.endpointMismatch bare m.endpoint)) := by
  rw [checkQuery, if_neg inner, trimQuery_eq trimmed]
  refine ⟨fun single => ?_, fun object => ?_, fun refused => ?_⟩
  · rw [single, if_neg Bool.false_ne_true, checkIndividualQuery_iff]
  · rw [object, if_pos rfl, checkObjectQuery_iff]
  · cases kind : i.isObject with
    | true =>
      rw [kind, if_pos rfl] at refused
      rw [if_pos rfl]
      rcases checkObjectQuery_cases i.mappings with ⟨accepted, -⟩ | ⟨m, member, -, failed⟩
      · exact absurd accepted refused
      · exact failed.imp_right fun failed => ⟨m, member, failed⟩
    | false =>
      rw [kind, if_neg Bool.false_ne_true] at refused
      rw [if_neg Bool.false_ne_true]
      left
      unfold checkIndividualQuery at refused ⊢
      dsimp only at refused ⊢
      split at refused
      · exact absurd rfl refused
      · rename_i unmatched
        exact if_neg unmatched

def stations (aggregation : Value) : Draft where
  name := .str "org.example.Stations"
  major := .int 0
  minor := .int 1
  kind := .str "datastream"
  ownership := .str "device"
  aggregation := aggregation
  mappings := [
    { endpoint := "/%\x7bstation\x7d/wind/speed", type := ⟨.double, false⟩ },
    { endpoint := "/%\x7bstation\x7d/rain", type := ⟨.double, false⟩ }]

theorem checkQuery_agrees_on_stations :
    (stations .null).checkQuery "/7/wind/" = .ok () ∧
      (stations (.str "object")).checkQuery "/7/" = .ok () ∧
      (stations (.str "object")).checkQuery "/7/rain" ≠ .ok () := by
  have wind : "/7/wind/" = "/7/wind" ++ "/" ∨
      "/7/wind/" = "/7/wind" ∧ "/7/wind".toList.getLast? ≠ some '/' := .inl (by decide)
  have single := (checkQuery_agrees (by decide) wind).1 (rfl : (stations .null).isObject = false)
  have station : "/7/" = "/7" ++ "/" ∨ "/7/" = "/7" ∧ "/7".toList.getLast? ≠ some '/' :=
    .inl (by decide)
  have object := (checkQuery_agrees (by decide) station).2.1
    (rfl : (stations (.str "object")).isObject = true)
  have rain : "/7/rain" = "/7/rain" ++ "/" ∨
      "/7/rain" = "/7/rain" ∧ "/7/rain".toList.getLast? ≠ some '/' := .inr (by decide)
  have leaf := (checkQuery_agrees (by decide) rain).2.1
    (rfl : (stations (.str "object")).isObject = true)
  refine ⟨single.mpr ⟨"/7/wind/speed", .inr ⟨"speed", by decide⟩, _, rfl⟩, object.mpr ?_, fun accepted => ?_⟩
  · intro m member
    rcases List.mem_pair.mp member with rfl | rfl
    · exact exists_fits_below.mpr (by decide)
    · exact exists_fits_below.mpr (by decide)
  · have below := leaf.mp accepted _ (List.mem_cons_of_mem _ List.mem_cons_self)
    exact absurd (exists_fits_below.mp below).1 (by decide)

end Interface.Draft

end Telemetry
