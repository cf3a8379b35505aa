import Telemetry.Proofs.Value.Fields
import Telemetry.Proofs.Walk.Rows
import Telemetry.Proofs.Walk.Series
import Telemetry.Proofs.Walk.Steps
import Telemetry.Service.Pages

/-!
What a walk over samples asks for. Its bounds mean exact moments, a query asks for the moments
between them, and a page moves one of them to the moment of its last row.
-/

namespace Telemetry

variable {x y : ℚ}

/-- The exact moment of a bound as it is asked for. -/
def Bound.instant? (bound : Bound) : Option ℚ :=
  bound.parameter.toOption.bind Timestamp.instantOf?

theorem Bound.instant?_eq_some_iff {bound : Bound} :
    bound.instant? = some x ↔
      ∃ text, bound.parameter = .ok text ∧ Timestamp.instantOf? text = some x := by
  unfold Bound.instant?
  cases bound.parameter <;> simp [Except.toOption]

/-! ### Parameters of a query -/

namespace Query

variable {query : Query} {name : String}

def allows (query : Query) (name : String) (moments : ℚ → Bool) : Bool :=
  (FieldList.get? query name).all fun text => (Timestamp.instantOf? text).any moments

theorem nodup_names_sorted (distinct : (FieldList.names query).Nodup) :
    (FieldList.names query.sorted).Nodup :=
  ((List.mergeSort_perm _ _).map Prod.fst).nodup_iff.mpr distinct

theorem get?_sorted (distinct : (FieldList.names query).Nodup) :
    FieldList.get? query.sorted name = FieldList.get? query name :=
  FieldList.get?_of_perm (List.mergeSort_perm _ _) (nodup_names_sorted distinct)

theorem get?_paramsOf_sorted (distinct : (FieldList.names query).Nodup) :
    FieldList.get? (Service.paramsOf query.sorted) name = (FieldList.get? query name).map .str := by
  rw [Service.paramsOf, FieldList.get?_map, get?_sorted distinct]

theorem bounds_paramsOf_sorted (distinct : (FieldList.names query).Nodup) (moments : ℚ → Bool) :
    Series.bounds (Service.paramsOf query.sorted) name moments = query.allows name moments := by
  rw [Series.bounds, get?_paramsOf_sorted distinct, allows]
  cases FieldList.get? query name <;> rfl

theorem cut_paramsOf_sorted (distinct : (FieldList.names query).Nodup) (rows : List Value) :
    Series.cut (Service.paramsOf query.sorted) rows =
      (FieldList.get? query "limit").elim rows fun text =>
        rows.take (Timestamp.number text.toList) := by
  rw [Series.cut, get?_paramsOf_sorted distinct]
  cases FieldList.get? query "limit" <;> rfl

theorem get?_eq_none_of_names {known : List String} (names : (FieldList.names query).Sublist known)
    (h : name ∉ known) : FieldList.get? query name = none :=
  FieldList.get?_eq_none_iff.mpr fun member => h (names.subset member)

end Query

theorem Walk.number_limitText (n : Nat) : Timestamp.number (limitText n).toList = n := by
  have digits : (limitText n).toList = Decimal.natText n := by
    simp [limitText, Decimal.natText, Nat.repr]
  rw [digits]
  exact Decimal.ofDigitChars_natText

namespace SampleWalk

def lowest (p : SampleWalk) : Bound :=
  p.lower.getD { moment := .unixEpoch }

def asksAbove (p : SampleWalk) (x : ℚ) : Bool :=
  match p.order with
  | .ascending => p.lowest.instant?.any fun l => if p.isFresh then l ≤ x else l < x
  | .descending => true

def asksBelow (p : SampleWalk) (x : ℚ) : Bool :=
  p.upper.all fun bound => bound.instant?.any (x < ·)

/-- Whether a query of the walk asks for a moment. -/
def asks (p : SampleWalk) (x : ℚ) : Bool :=
  p.asksAbove x && p.asksBelow x

/-- The bounds that are asked for mean moments. -/
structure Readable (p : SampleWalk) : Prop where
  lower : p.order = .ascending → ∃ l, p.lowest.instant? = some l
  upper : ∀ bound, p.upper = some bound → ∃ u, bound.instant? = some u

variable {p : SampleWalk}

theorem names_boundParameter {name : String} {bound : Bound} {query : Query}
    (asked : boundParameter name bound = .ok query) : FieldList.names query = [name] := by
  unfold boundParameter at asked
  split at asked <;> cases asked
  rfl

theorem names_lowerParameter {query : Query} (asked : p.lowerParameter = .ok query) :
    (FieldList.names query).Sublist ["since", "since_after"] := by
  unfold lowerParameter at asked
  split at asked
  · rw [names_boundParameter asked]
    cases p.isFresh <;> simp
  · cases asked
    exact List.nil_sublist _

theorem names_upperParameter {query : Query} (asked : p.upperParameter = .ok query) :
    (FieldList.names query).Sublist ["to"] := by
  unfold upperParameter at asked
  cases upper : p.upper with
  | none =>
    rw [upper] at asked
    cases asked
    exact List.nil_sublist _
  | some bound =>
    rw [upper] at asked
    exact (names_boundParameter asked).symm ▸ List.Sublist.refl _

theorem names_limitParameter : (FieldList.names p.limitParameter).Sublist ["limit"] := by
  unfold limitParameter
  split
  · exact List.nil_sublist _
  · exact List.Sublist.refl _

theorem get?_limitParameter : FieldList.get? p.limitParameter "limit" =
    if p.pageSize = 0 then none else some (Walk.limitText p.pageSize) := by
  unfold limitParameter
  split <;> rfl

/-- Each parameter of a query comes from the part that its name belongs to. -/
theorem query_holds {lower upper : Query} (more : p.hasMore = true)
    (lowerAsked : p.lowerParameter = .ok lower) (upperAsked : p.upperParameter = .ok upper) :
    ∃ parts : Query, p.query = .ok parts.sorted ∧ (FieldList.names parts).Nodup ∧
      ∀ name, FieldList.get? parts name =
        if name = "to" then FieldList.get? upper name
        else if name = "limit" then FieldList.get? p.limitParameter name
        else FieldList.get? lower name := by
  have inLower := names_lowerParameter lowerAsked
  have inUpper := names_upperParameter upperAsked
  refine ⟨lower ++ upper ++ p.limitParameter, ?_, ?_, fun name => ?_⟩
  · rw [query, if_pos more, lowerAsked, upperAsked]
    rfl
  · have names : (FieldList.names (lower ++ upper ++ p.limitParameter)).Sublist
        (["since", "since_after"] ++ ["to"] ++ ["limit"]) := by
      simp only [FieldList.names, List.map_append]
      exact (inLower.append inUpper).append names_limitParameter
    exact names.nodup (by decide)
  · have notLower : name ∉ ["since", "since_after"] → FieldList.get? lower name = none :=
      Query.get?_eq_none_of_names inLower
    have notUpper : name ∉ ["to"] → FieldList.get? upper name = none :=
      Query.get?_eq_none_of_names inUpper
    have notLimit : name ∉ ["limit"] → FieldList.get? p.limitParameter name = none :=
      Query.get?_eq_none_of_names names_limitParameter
    rw [FieldList.get?_append, FieldList.get?_append]
    by_cases isTo : name = "to"
    · subst isTo
      rw [notLower (by decide), notLimit (by decide), if_pos rfl, Option.none_or, Option.or_none]
    · rw [if_neg isTo, notUpper (by simpa using isTo), Option.or_none]
      by_cases isLimit : name = "limit"
      · subst isLimit
        rw [notLower (by decide), if_pos rfl, Option.none_or]
      · rw [if_neg isLimit, notLimit (by simpa using isLimit), Option.or_none]

theorem lowerParameter_spec (readable : p.Readable) : ∃ query, p.lowerParameter = .ok query ∧
    ∀ x, (query.allows "since" (· ≤ x) && query.allows "since_after" (· < x)) = p.asksAbove x := by
  unfold lowerParameter asksAbove
  cases order : p.order with
  | descending => exact ⟨[], rfl, fun x => rfl⟩
  | ascending =>
    obtain ⟨l, means⟩ := readable.lower order
    obtain ⟨text, parameter, exact⟩ := Bound.instant?_eq_some_iff.mp means
    refine ⟨[(if p.isFresh then "since" else "since_after", text)], ?_, ?_⟩
    · show boundParameter _ p.lowest = _
      rw [boundParameter, parameter]
    · intro x
      cases p.isFresh <;> simp [Query.allows, FieldList.get?_cons, exact, means]

theorem upperParameter_spec (readable : p.Readable) : ∃ query, p.upperParameter = .ok query ∧
    ∀ x, query.allows "to" (x < ·) = p.asksBelow x := by
  unfold upperParameter asksBelow
  cases upper : p.upper with
  | none => exact ⟨[], rfl, fun x => rfl⟩
  | some bound =>
    obtain ⟨u, means⟩ := readable.upper bound upper
    obtain ⟨text, parameter, exact⟩ := Bound.instant?_eq_some_iff.mp means
    refine ⟨[("to", text)], ?_, ?_⟩
    · show boundParameter "to" bound = _
      rw [boundParameter, parameter]
    · intro x
      simp [Query.allows, FieldList.get?_cons, exact, means]

/-- A query asks for the moments between the bounds, and for no more rows than a page may have. -/
theorem query_spec (more : p.hasMore = true) (readable : p.Readable) :
    ∃ query, p.query = .ok query ∧
      (∀ x, Series.admits (Service.paramsOf query) x = p.asks x) ∧
      ∀ rows, Series.cut (Service.paramsOf query) rows =
        if p.pageSize = 0 then rows else rows.take p.pageSize := by
  obtain ⟨lower, lowerAsked, lowerAllows⟩ := lowerParameter_spec readable
  obtain ⟨upper, upperAsked, upperAllows⟩ := upperParameter_spec readable
  obtain ⟨parts, asked, distinct, holds⟩ := query_holds more lowerAsked upperAsked
  refine ⟨parts.sorted, asked, fun x => ?_, fun rows => ?_⟩
  · have since := holds "since"
    have sinceAfter := holds "since_after"
    have upTo := holds "to"
    rw [if_neg (by decide), if_neg (by decide)] at since sinceAfter
    rw [if_pos rfl] at upTo
    rw [asks, ← lowerAllows, ← upperAllows]
    simp only [Series.admits, Query.bounds_paramsOf_sorted distinct, Query.allows, since, sinceAfter, upTo]
  · rw [Query.cut_paramsOf_sorted distinct, holds, if_neg (by decide), if_pos rfl, get?_limitParameter]
    by_cases unlimited : p.pageSize = 0
    · simp [unlimited]
    · simp [unlimited, Walk.number_limitText]

/-! ### Moving past a page -/

def ended (p : SampleWalk) : SampleWalk :=
  { p with stage := .exhausted }

def movedTo (p : SampleWalk) (bound : Bound) : SampleWalk :=
  match p.order with
  | .ascending => { p with lower := some bound, stage := .midIteration }
  | .descending => { p with upper := some bound, stage := .midIteration }

theorem run_moveTo (bound : Bound) : (moveTo bound).run p = ((), p.movedTo bound) := by
  obtain ⟨aggregation, order, _⟩ := p
  cases order <;> rfl

theorem perform_pass (rows : List PageRow) :
    (pass rows).perform p =
      match rows.getLast? with
      | none => (.ok (), p.ended)
      | some last =>
        if rows.length < p.pageSize then (.ok (), p.ended)
        else match last.bound with
          | .ok (some bound) => (.ok (), p.movedTo bound)
          | .ok none => (.ok (), p.ended)
          | .error fault => (.error fault, p) := by
  unfold pass
  cases rows.getLast? with
  | none => rfl
  | some last =>
    simp only [Walk.Step.perform_bind, Walk.Step.perform_get]
    split
    · rfl
    · rcases last.bound with fault | _ | bound
      · rfl
      · rfl
      · show (liftM (moveTo bound) : Walk.Step SampleWalk Fault Unit).perform p = _
        rw [Walk.Step.perform_liftM, run_moveTo]

@[simp] theorem order_movedTo (bound : Bound) : (p.movedTo bound).order = p.order := by
  unfold movedTo
  split <;> simp_all

@[simp] theorem aggregation_movedTo (bound : Bound) :
    (p.movedTo bound).aggregation = p.aggregation := by
  unfold movedTo
  split <;> rfl

@[simp] theorem stage_movedTo (bound : Bound) : (p.movedTo bound).stage = .midIteration := by
  unfold movedTo
  split <;> rfl

theorem readable_movedTo {bound : Bound} (readable : p.Readable) (means : bound.instant? = some x) :
    (p.movedTo bound).Readable := by
  refine ⟨fun ascending => ?_, fun upper isUpper => ?_⟩
  · rw [order_movedTo] at ascending
    exact ⟨x, by simpa [movedTo, ascending, lowest] using means⟩
  · unfold movedTo at isUpper
    split at isUpper
    · exact readable.upper upper isUpper
    · obtain rfl : bound = upper := by simpa using isUpper
      exact ⟨x, means⟩

theorem asksAbove_of_lt (asked : p.asksAbove y = true) (later : y < x) : p.asksAbove x = true := by
  unfold asksAbove at asked ⊢
  generalize p.order = order at asked ⊢
  cases order with
  | descending => rfl
  | ascending =>
    obtain ⟨l, means, reached⟩ := (Option.any_eq_true _ _).mp asked
    refine (Option.any_eq_true _ _).mpr ⟨l, means, ?_⟩
    cases fresh : p.isFresh with
    | true =>
      simp only [fresh, if_true, decide_eq_true_eq] at reached ⊢
      exact reached.trans later.le
    | false =>
      simp only [fresh, Bool.false_eq_true, if_false, decide_eq_true_eq] at reached ⊢
      exact reached.trans later

theorem asksBelow_of_lt (asked : p.asksBelow y = true) (earlier : x < y) : p.asksBelow x = true := by
  unfold asksBelow at asked ⊢
  generalize p.upper = upper at asked ⊢
  cases upper with
  | none => rfl
  | some bound =>
    obtain ⟨u, means, reached⟩ := (Option.any_eq_true _ _).mp asked
    refine (Option.any_eq_true _ _).mpr ⟨u, means, ?_⟩
    exact decide_eq_true (earlier.trans (of_decide_eq_true reached))

/-- Once a bound has been moved to a moment that was asked for, only what comes after it is. -/
theorem asks_movedTo {bound : Bound} (means : bound.instant? = some y)
    (asked : p.asks y = true) :
    (p.movedTo bound).asks x = (p.asks x && decide (p.order.Before y x)) := by
  obtain ⟨above, below⟩ := Bool.and_eq_true_iff.mp asked
  have order : p.order = .ascending ∨ p.order = .descending := by cases p.order <;> simp
  rcases order with ascending | descending
  · -- the lower bound was at or below the new one, so it says nothing more
    have behind : (p.movedTo bound).asksBelow x = p.asksBelow x := by
      simp [asksBelow, movedTo, ascending]
    have ahead : (p.movedTo bound).asksAbove x = decide (y < x) := by
      simp [asksAbove, movedTo, ascending, lowest, means, isFresh]
    rw [asks, asks, behind, ahead, ascending]
    show (decide (y < x) && _) = (_ && decide (y < x))
    by_cases later : y < x
    · simp [later, asksAbove_of_lt above later]
    · simp [later]
  · have behind : (p.movedTo bound).asksAbove x = p.asksAbove x := by
      simp [asksAbove, movedTo, descending]
    have ahead : (p.movedTo bound).asksBelow x = decide (x < y) := by
      simp [asksBelow, movedTo, descending, means]
    rw [asks, asks, behind, ahead, descending]
    show _ = (_ && decide (x < y))
    by_cases earlier : x < y
    · simp [earlier, asksBelow_of_lt below earlier]
    · simp [earlier]

/-! ### The first page and the last row -/

theorem instant?_of_readsBack {t : DateTime} (readable : Timestamp.ReadsBack t) :
    ({ moment := t } : Bound).instant? = some (t.instant : ℚ) := by
  obtain ⟨text, moment, written, read⟩ := readable
  exact Bound.instant?_eq_some_iff.mpr ⟨text, written, Timestamp.instantOf?_format written read⟩

/-- The lower bound that a walk is opened with; one downwards has none. -/
def opening (order : WalkOrder) (lower : Option DateTime) : Option Bound :=
  match order with
  | .ascending => some { moment := lower.getD .unixEpoch }
  | .descending => none

theorem ofWindow_eq {aggregation : Aggregation} {order : WalkOrder} {size : Option Int}
    {lower upper : Option DateTime}
    (opened : ofWindow aggregation order size lower upper = .ok p) :
    p = { aggregation, order, pageSize := (size.getD 0).toNat, firstLower := opening order lower,
          firstUpper := upper.map ({ moment := · }) } ∧
      (order = .descending → 0 < size.getD 0) := by
  unfold ofWindow Walk.checkPageSize at opened
  split at opened
  · cases opened
  · cases order with
    | ascending =>
      cases opened
      exact ⟨rfl, nofun⟩
    | descending =>
      simp only [bind, Except.bind] at opened
      by_cases unlimited : (size.getD 0).toNat = 0
      · simp [unlimited, throw, throwThe, MonadExceptOf.throw] at opened
      · by_cases bounded : lower.isSome = true
        · simp [unlimited, bounded, throw, throwThe, MonadExceptOf.throw] at opened
        · simp only [unlimited, bounded, if_false] at opened
          cases opened
          exact ⟨rfl, fun _ => by omega⟩

theorem ofWindow_spec {aggregation : Aggregation} {order : WalkOrder} {size : Option Int}
    {lower upper : Option DateTime}
    (opened : ofWindow aggregation order size lower upper = .ok p) :
    p.stage = .fresh ∧ p.order = order ∧ p.aggregation = aggregation ∧
      (order = .ascending → p.lower = some { moment := lower.getD .unixEpoch }) ∧
      p.upper = upper.map ({ moment := · }) := by
  obtain ⟨rfl, -⟩ := ofWindow_eq opened
  refine ⟨rfl, rfl, rfl, fun ascending => ?_, rfl⟩
  subst ascending
  rfl

/-- The text that a decoded row keeps is the one that was received. -/
theorem rowBound_of_decodeRow {aggregation : Aggregation} {given : Value} {row : Snapshot.Row}
    (decoded : Snapshot.decodeRow aggregation given = .ok row)
    (dated : Series.instant? given = some x) :
    ∃ bound, rowBound row = .ok (some bound) ∧ bound.instant? = some x := by
  obtain ⟨text, isText, means⟩ := Option.bind_eq_some_iff.mp dated
  obtain ⟨fields, rfl, held⟩ := Series.textOf?_eq_some isText
  obtain ⟨t, read⟩ := Timestamp.instantOf?_isSome_iff.mp (Option.isSome_of_eq_some means)
  have given : Value.fieldOrNull fields Sample.timestampName = .str text := by
    simp [Value.fieldOrNull, held]
  have parsed : Timestamp.parse (Value.fieldOrNull fields Sample.timestampName) = .ok t := by
    rw [given]
    exact read
  refine ⟨{ moment := t, text := some text }, ?_, means⟩
  calc rowBound row
    _ = fieldsBound fields := bound_decoded decoded
    _ = .ok (some _) := by
      rw [fieldsBound_eq parsed, given]
      rfl

end SampleWalk

end Telemetry
