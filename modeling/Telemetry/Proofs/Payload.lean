import Telemetry.Payload
import Telemetry.Proofs.Base64
import Telemetry.Proofs.MappingType.Elementwise
import Telemetry.Proofs.Schema.Decoder
import Telemetry.Proofs.Timestamp.RoundTrip

/-!
Payloads made ready. A payload can be made ready when each of its date-times has a date in UTC. What comes
out has the shape and the content of the payload, with its date-times in UTC, its octets as text if that
is asked for, and lists for tuples. Made ready again it stays as it is.
-/

namespace Telemetry

namespace Value

/-! ### Values within values -/

def children : Value → List Value
  | .list items | .tuple items => items
  | .object fields => fields.map Prod.snd
  | _ => []

/-- The value itself and whatever its items and fields hold. -/
inductive Within : Value → Value → Prop where
  | self (v : Value) : Within v v
  | child {u v w : Value} (member : w ∈ v.children) (inside : Within u w) : Within u v

mutual
theorem induction {P : Value → Prop} (step : ∀ v, (∀ w ∈ v.children, P w) → P v) : ∀ v, P v
  | .list items => step (.list items) (induction_items step items)
  | .tuple items => step (.tuple items) (induction_items step items)
  | .object fields => step (.object fields) (induction_fields step fields)
  | .null | .bool _ | .int _ | .float _ | .str _ | .bytes _ | .buffer _ | .dateTime _ => step _ nofun
theorem induction_items {P : Value → Prop} (step : ∀ v, (∀ w ∈ v.children, P w) → P v) :
    ∀ items : List Value, ∀ w ∈ items, P w
  | [] => nofun
  | item :: rest => List.forall_mem_cons.mpr ⟨induction step item, induction_items step rest⟩
theorem induction_fields {P : Value → Prop} (step : ∀ v, (∀ w ∈ v.children, P w) → P v) :
    ∀ fields : List (String × Value), ∀ w ∈ fields.map Prod.snd, P w
  | [] => nofun
  | (_, item) :: rest => List.forall_mem_cons.mpr ⟨induction step item, induction_fields step rest⟩
end

variable {u v w : Value} {items : List Value} {fields : List (String × Value)}

/-- What holds of all that is within a value holds of itself and of all within its children. -/
theorem forall_within_iff {P : Value → Prop} : (∀ u, u.Within v → P u) ↔
    P v ∧ ∀ w ∈ v.children, ∀ u, u.Within w → P u := by
  constructor
  · intro all
    exact ⟨all v (.self v), fun w member u inside => all u (.child member inside)⟩
  · rintro ⟨here, below⟩ u inside
    cases inside with
    | self => exact here
    | child member inside => exact below _ member u inside

/-! ### Kinds of values -/

def octets? : Value → Option (List UInt8)
  | .bytes octets | .buffer octets => some octets
  | _ => none

def isPlain : Value → Bool
  | .null | .bool _ | .int _ | .float _ | .str _ => true
  | _ => false

theorem kind_cases (v : Value) : v.isPlain = true ∨ (∃ octets, v.octets? = some octets) ∨
    (∃ t, v = .dateTime t) ∨ (∃ items, v.sequence? = some items) ∨ ∃ fields, v = .object fields := by
  cases v <;> simp [isPlain, octets?, sequence?]

theorem children_of_plain (plain : v.isPlain = true) : v.children = [] := by
  cases v <;> first | rfl | cases plain

theorem children_of_octets {octets : List UInt8} (given : v.octets? = some octets) : v.children = [] := by
  cases v <;> first | rfl | cases given

theorem children_of_sequence (given : v.sequence? = some items) : v.children = items := by
  cases v <;> cases given <;> rfl

end Value

namespace Payload

open Value

variable {encodeOctets : Bool} {v r : Value} {items : List Value} {fields : List (String × Value)}
  {octets : List UInt8} {t : DateTime}

/-! ### One step of normalization -/

theorem normalizeItems_eq (items : List Value) :
    normalizeItems encodeOctets items = items.mapM (normalize encodeOctets) := by
  induction items with
  | nil => rfl
  | cons item rest ih => rw [normalizeItems, List.mapM_cons, ih]

theorem normalizeFields_eq (fields : List (String × Value)) : normalizeFields encodeOctets fields =
    fields.mapM fun field => (field.1, ·) <$> normalize encodeOctets field.2 := by
  induction fields with
  | nil => rfl
  | cons field rest ih =>
    rw [normalizeFields, List.mapM_cons, ih]
    cases normalize encodeOctets field.2 <;> rfl

theorem normalize_of_plain (plain : v.isPlain = true) : normalize encodeOctets v = .ok v := by
  cases v <;> first | rfl | cases plain

theorem normalize_of_octets (given : v.octets? = some octets) :
    normalize encodeOctets v = .ok (if encodeOctets then octetText octets else v) := by
  cases v <;> cases given <;> rfl

theorem normalize_dateTime_ok : normalize encodeOctets (.dateTime t) = .ok r ↔
    ∃ utc, t.toUtc? = some utc ∧ .dateTime utc = r := by
  rw [normalize, utcTime]
  cases t.toUtc? <;> simp

theorem normalize_of_sequence (given : v.sequence? = some items) :
    normalize encodeOctets v = .list <$> items.mapM (normalize encodeOctets) := by
  rw [← normalizeItems_eq]
  cases v <;> cases given <;> rfl

theorem normalize_sequence_ok (given : v.sequence? = some items) : normalize encodeOctets v = .ok r ↔
    ∃ results, List.Forall₂ (fun item b => normalize encodeOctets item = .ok b) items results ∧
      .list results = r := by
  simp only [normalize_of_sequence given, ← mapM_ok]
  cases items.mapM (normalize encodeOctets) <;> simp

/-- Fields made from fields one by one keep their names and the order of them. -/
theorem forall₂_fields {step : Value → Except Timestamp.OutOfCalendar Value}
    {results : List (String × Value)} :
    List.Forall₂ (fun field out => (field.1, ·) <$> step field.2 = .ok out) fields results ↔
      FieldList.names results = FieldList.names fields ∧
      List.Forall₂ (fun item b => step item = .ok b) (fields.map Prod.snd) (results.map Prod.snd) := by
  induction fields generalizing results with
  | nil => cases results <;> simp [FieldList.names]
  | cons field rest ih =>
    cases results with
    | nil => simp
    | cons out others =>
      have first : (field.1, ·) <$> step field.2 = .ok out ↔
          out.1 = field.1 ∧ step field.2 = .ok out.2 := by
        obtain ⟨name, item⟩ := field
        obtain ⟨outName, outItem⟩ := out
        cases step item <;> simp [eq_comm]
      simp only [List.forall₂_cons, first, ih, FieldList.names, List.map_cons, List.cons.injEq]
      tauto

theorem normalize_object_ok : normalize encodeOctets (.object fields) = .ok r ↔
    ∃ results, FieldList.names results = FieldList.names fields ∧
      List.Forall₂ (fun item b => normalize encodeOctets item = .ok b) (fields.map Prod.snd)
        (results.map Prod.snd) ∧ .object results = r := by
  have walked : normalize encodeOctets (.object fields) = .ok r ↔
      ∃ results, normalizeFields encodeOctets fields = .ok results ∧ .object results = r := by
    rw [normalize]
    cases normalizeFields encodeOctets fields <;> simp
  simp only [walked, normalizeFields_eq, mapM_ok, forall₂_fields, and_assoc]

/-! ### When a payload can be made ready -/

/-- A date-time has a date in UTC. -/
def IsDated : Value → Prop
  | .dateTime t => 0 ≤ t.instant ∧ t.instant < Calendar.dayCount * TimeOfDay.microsPerDay
  | _ => True

theorem isDated_of_ne (other : ∀ t, v ≠ .dateTime t) : IsDated v := by
  cases v with
  | dateTime t => exact absurd rfl (other t)
  | _ => trivial

theorem exists_normalize_step : (∃ r, normalize encodeOctets v = .ok r) ↔
    IsDated v ∧ ∀ w ∈ v.children, ∃ r, normalize encodeOctets w = .ok r := by
  rcases v.kind_cases with plain | ⟨octets, given⟩ | ⟨t, rfl⟩ | ⟨items, given⟩ | ⟨fields, rfl⟩
  · have dated : IsDated v := isDated_of_ne (by rintro t rfl; cases plain)
    rw [normalize_of_plain plain, children_of_plain plain]
    exact iff_of_true ⟨_, rfl⟩ ⟨dated, nofun⟩
  · have dated : IsDated v := isDated_of_ne (by rintro t rfl; cases given)
    rw [normalize_of_octets given, children_of_octets given]
    exact iff_of_true ⟨_, rfl⟩ ⟨dated, nofun⟩
  · simp only [normalize_dateTime_ok, IsDated, ← Timestamp.exists_toUtc?_iff]
    simp [children]
  · have dated : IsDated v := isDated_of_ne (by rintro t rfl; cases given)
    rw [normalize_of_sequence given, children_of_sequence given, exists_map_iff, exists_mapM_iff]
    exact (and_iff_right dated).symm
  · have dated : IsDated (.object fields) := trivial
    rw [normalize, exists_map_iff, normalizeFields_eq, exists_mapM_iff, and_iff_right dated]
    simp only [exists_map_iff, children, List.forall_mem_map]

theorem exists_normalize_iff :
    (∃ r, normalize encodeOctets v = .ok r) ↔ ∀ u, u.Within v → IsDated u := by
  induction v using Value.induction with
  | step v ih =>
    rw [forall_within_iff, exists_normalize_step]
    exact and_congr_right fun _ => forall₂_congr ih

/-! ### What a payload becomes -/

/-- What a value becomes that is made ready. -/
inductive Prepared (encodeOctets : Bool) : Value → Value → Prop where
  | plain {v : Value} (plain : v.isPlain = true) : Prepared encodeOctets v v
  | encoded {v : Value} {octets : List UInt8} {text : String} (encode : encodeOctets = true)
      (given : v.octets? = some octets) (ascii : ∀ c ∈ text.toList, c.toNat < 128)
      (decodes : Base64.decodePadded? text.toList = some octets) : Prepared encodeOctets v (.str text)
  | kept {v : Value} {octets : List UInt8} (keep : encodeOctets = false)
      (given : v.octets? = some octets) : Prepared encodeOctets v v
  | time {t utc : DateTime} (inUtc : utc.offset = some .utc) (moment : utc.instant = t.instant) :
      Prepared encodeOctets (.dateTime t) (.dateTime utc)
  | sequence {v : Value} {items results : List Value} (given : v.sequence? = some items)
      (each : List.Forall₂ (Prepared encodeOctets) items results) : Prepared encodeOctets v (.list results)
  | object {fields results : List (String × Value)}
      (names : FieldList.names results = FieldList.names fields)
      (each : List.Forall₂ (Prepared encodeOctets) (fields.map Prod.snd) (results.map Prod.snd)) :
      Prepared encodeOctets (.object fields) (.object results)

theorem octetText_prepared (encode : encodeOctets = true) (given : v.octets? = some octets) :
    Prepared encodeOctets v (octetText octets) := by
  have written : (String.ofList (Base64.encodePadded octets)).toList = Base64.encodePadded octets :=
    String.toList_ofList
  refine .encoded encode given ?_ ?_
  · rw [written]
    exact fun c => Base64.ascii_encodePadded
  · rw [written]
    exact Base64.decodePadded?_encodePadded octets

theorem forall₂_imp_mem {R S : Value → Value → Prop} {results : List Value}
    (each : List.Forall₂ R items results) (imp : ∀ w ∈ items, ∀ b, R w b → S w b) :
    List.Forall₂ S items results :=
  ((List.forall₂_and_left items results).mpr ⟨imp, each⟩).imp fun _ b both => both.1 b both.2

theorem prepared_of_normalize (ran : normalize encodeOctets v = .ok r) : Prepared encodeOctets v r := by
  induction v using Value.induction generalizing r with
  | step v ih =>
    rcases v.kind_cases with plain | ⟨octets, given⟩ | ⟨t, rfl⟩ | ⟨items, given⟩ | ⟨fields, rfl⟩
    · rw [normalize_of_plain plain] at ran
      obtain rfl := Except.ok.inj ran
      exact .plain plain
    · rw [normalize_of_octets given] at ran
      obtain rfl := Except.ok.inj ran
      cases encodeOctets with
      | true => exact octetText_prepared rfl given
      | false => exact .kept rfl given
    · obtain ⟨utc, moved, rfl⟩ := normalize_dateTime_ok.mp ran
      obtain ⟨inUtc, clock⟩ := Timestamp.toUtc?_spec moved
      exact .time inUtc ((Timestamp.instant_of_utc inUtc).trans clock)
    · obtain ⟨results, each, rfl⟩ := (normalize_sequence_ok given).mp ran
      rw [children_of_sequence given] at ih
      exact .sequence given (forall₂_imp_mem each fun w member _ => ih w member)
    · obtain ⟨results, names, each, rfl⟩ := normalize_object_ok.mp ran
      exact .object names (forall₂_imp_mem each fun w member _ => ih w member)

/-! ### What stays as it is -/

def IsReady (encodeOctets : Bool) : Value → Prop
  | .tuple _ => False
  | .bytes _ | .buffer _ => encodeOctets = false
  | .dateTime t => t.offset = some .utc
  | _ => True

theorem isReady_of_plain (plain : v.isPlain = true) : IsReady encodeOctets v := by
  cases v <;> first | exact trivial | cases plain

theorem isReady_octets_iff (given : v.octets? = some octets) :
    IsReady encodeOctets v ↔ encodeOctets = false := by
  cases v <;> cases given <;> rfl

theorem normalize_of_ready (ready : ∀ u, u.Within v → IsReady encodeOctets u) :
    normalize encodeOctets v = .ok v := by
  induction v using Value.induction with
  | step v ih =>
    obtain ⟨here, below⟩ := forall_within_iff.mp ready
    have same : ∀ w ∈ v.children, normalize encodeOctets w = .ok w := fun w member =>
      ih w member (below w member)
    rcases v.kind_cases with plain | ⟨octets, given⟩ | ⟨t, rfl⟩ | ⟨items, given⟩ | ⟨fields, rfl⟩
    · exact normalize_of_plain plain
    · rw [normalize_of_octets given, (isReady_octets_iff given).mp here]
      rfl
    · exact normalize_dateTime_ok.mpr ⟨t, Timestamp.toUtc?_of_utc here, rfl⟩
    · have list : v = .list items := by
        cases v <;> cases given
        · rfl
        · exact here.elim
      rw [children_of_sequence given] at same
      exact (normalize_sequence_ok given).mpr ⟨items, List.forall₂_same.mpr same, list.symm⟩
    · exact normalize_object_ok.mpr ⟨fields, rfl, List.forall₂_same.mpr same, rfl⟩

theorem ready_of_normalize (ran : normalize encodeOctets v = .ok r) :
    ∀ u, u.Within r → IsReady encodeOctets u := by
  induction v using Value.induction generalizing r with
  | step v ih =>
    rw [forall_within_iff]
    rcases v.kind_cases with plain | ⟨octets, given⟩ | ⟨t, rfl⟩ | ⟨items, given⟩ | ⟨fields, rfl⟩
    · rw [normalize_of_plain plain] at ran
      obtain rfl := Except.ok.inj ran
      rw [children_of_plain plain]
      exact ⟨isReady_of_plain plain, nofun⟩
    · rw [normalize_of_octets given] at ran
      obtain rfl := Except.ok.inj ran
      cases encodeOctets with
      | true => exact ⟨trivial, nofun⟩
      | false =>
        rw [if_neg Bool.false_ne_true, children_of_octets given]
        exact ⟨(isReady_octets_iff given).mpr rfl, nofun⟩
    · obtain ⟨utc, moved, rfl⟩ := normalize_dateTime_ok.mp ran
      exact ⟨(Timestamp.toUtc?_spec moved).1, nofun⟩
    · obtain ⟨results, each, rfl⟩ := (normalize_sequence_ok given).mp ran
      rw [children_of_sequence given] at ih
      refine ⟨trivial, ?_⟩
      exact Schema.forall_mem_of_forall₂ each fun w member _ => ih w member
    · obtain ⟨results, names, each, rfl⟩ := normalize_object_ok.mp ran
      refine ⟨trivial, ?_⟩
      exact Schema.forall_mem_of_forall₂ each fun w member _ => ih w member

/-- A payload can be made ready when its date-times have dates in UTC. What comes out is what it should
become, holds nothing that is not ready, and made ready once more is the same. -/
theorem normalize_prepares (encodeOctets : Bool) (v : Value) :
    ((∃ r, normalize encodeOctets v = .ok r) ↔ ∀ u, u.Within v → IsDated u) ∧
    ∀ r, normalize encodeOctets v = .ok r →
      Prepared encodeOctets v r ∧ (∀ u, u.Within r → IsReady encodeOctets u) ∧
      normalize encodeOctets r = .ok r := by
  refine ⟨exists_normalize_iff, fun r ran => ?_⟩
  have ready := ready_of_normalize ran
  exact ⟨prepared_of_normalize ran, ready, normalize_of_ready ready⟩

/-- Octets, a date-time without an offset and a tuple in an object. -/
theorem normalize_prepares_nested :
    let v : Value := .object [("data", .bytes [255, 0]), ("at", .dateTime ⟨0, none, by decide⟩),
      ("readings", .list [.tuple [.int 1, .buffer []]])]
    ∃ r, normalize true v = .ok r ∧ Prepared true v r ∧ normalize true r = .ok r := by
  intro v
  have ran : normalize true v = .ok (.object [("data", .str "/wA="),
      ("at", .dateTime ⟨0, some .utc, by decide⟩), ("readings", .list [.list [.int 1, .str ""]])]) := by
    rfl
  obtain ⟨prepared, -, again⟩ := (normalize_prepares true v).2 _ ran
  exact ⟨_, ran, prepared, again⟩

end Payload

end Telemetry
