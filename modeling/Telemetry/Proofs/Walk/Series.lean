import Telemetry.Proofs.Sample
import Telemetry.Proofs.Timestamp.Instant
import Telemetry.Walk.Samples

/-!
Series of samples, and what a server answers to a query for a part of one. Rows are told apart by
the exact moments that their timestamps mean, however fine, and so are the bounds of a query.
-/

namespace Telemetry

/-- One moment comes before another on the way of a walk. -/
def WalkOrder.Before : WalkOrder → ℚ → ℚ → Prop
  | .ascending, x, y => x < y
  | .descending, x, y => y < x

namespace WalkOrder

variable {order : WalkOrder} {x y : ℚ}

instance : Decidable (order.Before x y) :=
  match order with
  | .ascending => inferInstanceAs (Decidable (x < y))
  | .descending => inferInstanceAs (Decidable (y < x))

theorem Before.trans {z : ℚ} (first : order.Before x y) (next : order.Before y z) :
    order.Before x z := by
  cases order with
  | ascending => exact lt_trans first next
  | descending => exact lt_trans next first

theorem Before.irrefl : ¬order.Before x x := by
  cases order with
  | ascending => exact lt_irrefl x
  | descending => exact lt_irrefl x

theorem Before.asymm (h : order.Before x y) : ¬order.Before y x := by
  intro back
  exact Before.irrefl (h.trans back)

theorem before_or_before (h : x ≠ y) : order.Before x y ∨ order.Before y x := by
  cases order with
  | ascending => exact lt_or_gt_of_ne h
  | descending => exact (lt_or_gt_of_ne h).symm

end WalkOrder

namespace Series

def textOf? : Value → Option String
  | .object fields =>
    match FieldList.get? fields Sample.timestampName with
    | some (.str text) => some text
    | _ => none
  | _ => none

/-- The exact moment of a row. -/
def instant? (row : Value) : Option ℚ :=
  (textOf? row).bind Timestamp.instantOf?

def instant (row : Value) : ℚ :=
  (instant? row).getD 0

/-- Rows that can be decoded, each at a moment of its own. -/
structure IsSeries (aggregation : Aggregation) (rows : List Value) : Prop where
  decodable : ∀ row ∈ rows, ∃ r, Snapshot.decodeRow aggregation row = .ok r
  dated : ∀ row ∈ rows, (instant? row).isSome = true
  distinct : (rows.map instant?).Nodup

instance (aggregation : Aggregation) (rows : List Value) : Decidable (IsSeries aggregation rows) :=
  decidable_of_iff ((∀ row ∈ rows, (Snapshot.decodeRow aggregation row).toOption.isSome = true) ∧
      (∀ row ∈ rows, (instant? row).isSome = true) ∧ (rows.map instant?).Nodup)
    ⟨fun h => ⟨fun row member => exists_ok_iff.mpr (h.1 row member), h.2.1, h.2.2⟩,
      fun h => ⟨fun row member => exists_ok_iff.mp (h.decodable row member), h.dated, h.distinct⟩⟩

/-- The rows as a walk meets them. -/
def inOrder (order : WalkOrder) (rows : List Value) : List Value :=
  rows.mergeSort fun a b => !decide (order.Before (instant b) (instant a))

/-- The moments of a window; upwards it starts in 1970 unless a bound is given. -/
def covers (order : WalkOrder) (lower upper : Option DateTime) (x : ℚ) : Bool :=
  (order = .descending || ((lower.getD .unixEpoch).instant : ℚ) ≤ x) &&
    upper.all fun t => x < (t.instant : ℚ)

def window (order : WalkOrder) (lower upper : Option DateTime) (rows : List Value) : List Value :=
  (inOrder order rows).filter fun row => covers order lower upper (instant row)

/-! ### Pages -/

def bounds (params : List (String × Value)) (name : String) (allows : ℚ → Bool) : Bool :=
  match FieldList.get? params name with
  | some (.str text) => (Timestamp.instantOf? text).any allows
  | _ => true

def admits (params : List (String × Value)) (x : ℚ) : Bool :=
  bounds params "since" (· ≤ x) && bounds params "since_after" (· < x) && bounds params "to" (x < ·)

def cut (params : List (String × Value)) (rows : List Value) : List Value :=
  match FieldList.get? params "limit" with
  | some (.str text) => rows.take (Timestamp.number text.toList)
  | _ => rows

def page (order : WalkOrder) (rows : List Value) (params : List (String × Value)) : List Value :=
  cut params ((inOrder order rows).filter fun row => admits params (instant row))

/-! ### Order -/

variable {order : WalkOrder} {aggregation : Aggregation} {rows done rest : List Value}
  {last row : Value}

theorem textOf?_eq_some {text : String} (h : textOf? row = some text) :
    ∃ fields, row = .object fields ∧
      FieldList.get? fields Sample.timestampName = some (.str text) := by
  unfold textOf? at h
  split at h
  · rename_i fields
    split at h
    · rename_i held
      cases h
      exact ⟨fields, rfl, held⟩
    · cases h
  · cases h

theorem mem_inOrder : row ∈ inOrder order rows ↔ row ∈ rows :=
  (List.mergeSort_perm rows _).mem_iff

theorem instant?_eq (dated : (instant? row).isSome = true) : instant? row = some (instant row) := by
  obtain ⟨x, found⟩ := Option.isSome_iff_exists.mp dated
  rw [instant, found]
  rfl

/-- No two rows of a series share a moment, so each comes before the next. -/
theorem pairwise_inOrder (series : IsSeries aggregation rows) :
    (inOrder order rows).Pairwise fun a b => order.Before (instant a) (instant b) := by
  have perm := List.mergeSort_perm rows fun a b => !decide (order.Before (instant b) (instant a))
  have sorted : (inOrder order rows).Pairwise fun a b => ¬order.Before (instant b) (instant a) := by
    have h : (inOrder order rows).Pairwise fun a b => !decide (order.Before (instant b) (instant a)) :=
      List.pairwise_mergeSort (fun a b c ab bc => ?_) (fun a b => ?_) rows
    · simpa using h
    · simp only [Bool.not_eq_true', decide_eq_false_iff_not] at ab bc ⊢
      intro ca
      rcases eq_or_ne (instant a) (instant b) with same | ne
      · exact bc (same ▸ ca)
      · exact bc (ca.trans ((WalkOrder.before_or_before ne).resolve_right ab))
    · simp only [Bool.or_eq_true, Bool.not_eq_true', decide_eq_false_iff_not]
      by_cases h : order.Before (instant b) (instant a)
      · exact Or.inr h.asymm
      · exact Or.inl h
  have distinct : (inOrder order rows).Pairwise fun a b => instant? a ≠ instant? b :=
    List.pairwise_map.mp ((perm.map instant?).nodup_iff.mpr series.distinct)
  refine (sorted.and distinct).imp_of_mem ?_
  intro a b first second ⟨notAfter, ne⟩
  rw [instant?_eq (series.dated a (mem_inOrder.mp first)),
    instant?_eq (series.dated b (mem_inOrder.mp second))] at ne
  exact (WalkOrder.before_or_before fun same => ne (congrArg some same)).resolve_right notAfter

/-- In order, the rows that come after one are those that stand behind it. -/
theorem filter_after
    (sorted : (done ++ last :: rest).Pairwise fun a b => order.Before (instant a) (instant b)) :
    (done ++ last :: rest).filter (fun row => order.Before (instant last) (instant row)) = rest := by
  obtain ⟨-, behind, before⟩ := List.pairwise_append.mp sorted
  have none : done.filter (fun row => order.Before (instant last) (instant row)) = [] := by
    rw [List.filter_eq_nil_iff]
    intro row member
    simpa using (before row member last List.mem_cons_self).asymm
  have all : rest.filter (fun row => order.Before (instant last) (instant row)) = rest := by
    rw [List.filter_eq_self]
    intro row member
    simpa using (List.pairwise_cons.mp behind).1 row member
  have self : ¬order.Before (instant last) (instant last) := WalkOrder.Before.irrefl
  rw [List.filter_append, none, List.filter_cons, all]
  simp [self]

theorem page_sublist {params : List (String × Value)} :
    (page order rows params).Sublist (inOrder order rows) := by
  unfold page cut
  split
  · exact (List.take_sublist _ _).trans List.filter_sublist
  · exact List.filter_sublist

/-! ### Rows decoded -/

def Decodes (aggregation : Aggregation) (rows : List Value) (found : List Snapshot.Row) : Prop :=
  rows.mapM (Snapshot.decodeRow aggregation) = .ok found

variable {found more : List Snapshot.Row}

theorem Decodes.append (first : Decodes aggregation done found)
    (next : Decodes aggregation rest more) : Decodes aggregation (done ++ rest) (found ++ more) := by
  unfold Decodes at first next ⊢
  rw [List.mapM_append, first, next]
  rfl

theorem Decodes.singleton {r : Snapshot.Row} (h : Snapshot.decodeRow aggregation row = .ok r) :
    Decodes aggregation [row] [r] := by
  rw [Decodes, List.mapM_cons, h]
  rfl

theorem Decodes.length_eq (h : Decodes aggregation rows found) : found.length = rows.length := by
  induction rows generalizing found with
  | nil =>
    cases h
    rfl
  | cons row rest ih =>
    rw [Decodes, List.mapM_cons] at h
    cases first : Snapshot.decodeRow aggregation row with
    | error fault =>
      rw [first] at h
      cases h
    | ok r =>
      cases next : rest.mapM (Snapshot.decodeRow aggregation) with
      | error fault =>
        rw [first, next] at h
        cases h
      | ok more =>
        rw [first, next] at h
        cases h
        exact congrArg (· + 1) (ih next)

theorem exists_decodes (decodable : ∀ row ∈ rows, ∃ r, Snapshot.decodeRow aggregation row = .ok r) :
    ∃ found, Decodes aggregation rows found := by
  induction rows with
  | nil => exact ⟨[], rfl⟩
  | cons row rest ih =>
    obtain ⟨r, first⟩ := decodable row List.mem_cons_self
    obtain ⟨more, next⟩ := ih fun other member => decodable other (List.mem_cons_of_mem _ member)
    exact ⟨r :: more, (Decodes.singleton first).append next⟩

end Series

end Telemetry
