import Mathlib.Data.List.Sublists
import Telemetry.Proofs.Service.Outcomes
import Telemetry.Proofs.Walk.Cursor

/-!
Walks over all samples of a window. As long as each query is answered with the rows that it asks
for, the pages of a walk hold the rows of its window, each of them once and in order.
-/

namespace Telemetry.Service

open WalkCall
open Series (IsSeries Decodes instant inOrder)
open Snapshot (Content Row)

variable {σ α : Type}

/-! ### Calls that are repeated -/

structure Turn (α : Type) where
  sent : List Request
  given : α

/-- A call is made as long as there is more, each time on the next server, and never fails. -/
inductive Repeats (more : σ → Bool) (call : WalkCall σ α) :
    (Nat → Server) → σ → List (Turn α) → σ → Prop
  | done {servers : Nat → Server} {p : σ} (last : more p = false) :
    Repeats more call servers p [] p
  | next {servers : Nat → Server} {p q r : σ} {a : α} {sent : List Request} {turns : List (Turn α)}
    (first : more p = true) (called : call.outcome (servers 0) p = (.ok a, sent, q))
    (later : Repeats more call (fun n => servers (n + 1)) q turns r) :
    Repeats more call servers p (⟨sent, a⟩ :: turns) r

/-! ### Servers of a series -/

/-- An answer of success with these rows as its data. -/
def Response.Holds (response : Response) (rows : List Value) : Prop :=
  response.isOk = true ∧ ∃ fields, Json.readOctets response.body = .ok (.object fields) ∧
    Value.fieldOrNull fields "data" = .list rows

/-- A server answers a query with the rows that it asks for. Where there are none it may refuse,
except on the first page. -/
def Serves (url : String) (order : WalkOrder) (rows : List Value) (first : Bool)
    (server : Server) : Prop :=
  ∀ request, request.url = url → ∃ response, server request = .answered response ∧
    (response.Holds (Series.page order rows request.params) ∨
      first = false ∧ Series.page order rows request.params = [] ∧ response.isOk = false)

variable {g : Client} {target : Target} {interface path : String} {aggregation : Aggregation}
  {order : WalkOrder} {rows rest page : List Value} {p q : SampleWalk} {server : Server}

def pageOf (size : Nat) (rest : List Value) : List Value :=
  if size = 0 then rest else rest.take size

theorem pageOf_append (size : Nat) (rest : List Value) :
    ∃ left, rest = pageOf size rest ++ left ∧
      ((pageOf size rest).length < size ∨ pageOf size rest = [] → left = []) := by
  unfold pageOf
  split
  · exact ⟨[], (List.append_nil _).symm, fun _ => rfl⟩
  · rename_i limited
    refine ⟨rest.drop size, (List.take_append_drop size rest).symm, fun last => ?_⟩
    have short : rest.length ≤ size := by
      rw [List.take_eq_nil_iff, List.length_take] at last
      rcases last with short | zero | rfl
      · omega
      · contradiction
      · exact Nat.zero_le _
    exact List.drop_eq_nil_of_le short

/-! ### One page -/

/-- The rows that a walk has still to come to. -/
structure Stands (aggregation : Aggregation) (order : WalkOrder) (rows : List Value)
    (p : SampleWalk) (rest : List Value) : Prop where
  more : p.hasMore = true
  reads : p.aggregation = aggregation
  goes : p.order = order
  readable : p.Readable
  ahead : (inOrder order rows).filter (fun row => p.asks (instant row)) = rest

theorem perform_readPage {response : Response} {found : List Row} (holds : response.Holds page)
    (decodes : Decodes p.aggregation page found) :
    (SampleWalk.readPage (.octets response.body)).perform p =
      match (SampleWalk.pass (found.map .decoded)).perform p with
      | (.ok (), q) => (.ok (.list found), q)
      | (.error fault, q) => (.error fault, q) := by
  obtain ⟨-, fields, body, data⟩ := holds
  have read : Snapshot.readData (.octets response.body) = .ok (.list page) := by
    rw [Snapshot.readData, Snapshot.readDocument, ← Json.readOctets, body]
    exact congrArg Except.ok data
  have content : Snapshot.readRows p.aggregation (.list page) = .ok (.list found) := by
    rw [Snapshot.readRows, decodes]
    rfl
  rw [SampleWalk.readPage, read]
  simp only [Walk.Step.perform_bind, Walk.Step.perform_lift_ok, Walk.Step.perform_get, content]
  rcases (SampleWalk.pass (found.map .decoded)).perform p with ⟨_ | ⟨⟩, q⟩ <;> rfl

theorem page_of_stands (stands : Stands aggregation order rows p rest) :
    ∃ query, p.query = .ok query ∧
      Series.page order rows (paramsOf query) = pageOf p.pageSize rest := by
  obtain ⟨query, asked, admits, cut⟩ := p.query_spec stands.more stands.readable
  refine ⟨query, asked, ?_⟩
  have same : (fun row => Series.admits (paramsOf query) (instant row)) =
      fun row => p.asks (instant row) := funext fun row => admits (instant row)
  rw [Series.page, same, stands.ahead, cut, pageOf]

/-- Past a full page, what is ahead is what did not fit on it. -/
theorem stands_movedTo (series : IsSeries aggregation rows) {last : Value} {done left : List Value}
    {bound : Bound} (stands : Stands aggregation order rows p (done ++ last :: left))
    (means : bound.instant? = Series.instant? last) :
    Stands aggregation order rows (p.movedTo bound) left := by
  have member : last ∈ (inOrder order rows).filter fun row => p.asks (instant row) := by
    rw [stands.ahead]
    exact List.mem_append_right _ List.mem_cons_self
  obtain ⟨inRows, asked⟩ := List.mem_filter.mp member
  have dated := Series.instant?_eq (series.dated last (Series.mem_inOrder.mp inRows))
  have sorted : ((inOrder order rows).filter fun row => p.asks (instant row)).Pairwise
      fun a b => order.Before (instant a) (instant b) := (Series.pairwise_inOrder series).filter _
  rw [stands.ahead] at sorted
  refine ⟨?_, ?_, ?_, SampleWalk.readable_movedTo stands.readable (means.trans dated), ?_⟩
  · simp [SampleWalk.hasMore]
  · rw [SampleWalk.aggregation_movedTo, stands.reads]
  · rw [SampleWalk.order_movedTo, stands.goes]
  · have after : (fun row => (p.movedTo bound).asks (instant row)) =
        fun row => decide (order.Before (instant last) (instant row)) && p.asks (instant row) := by
      funext row
      rw [SampleWalk.asks_movedTo (means.trans dated) asked, stands.goes, Bool.and_comm]
    rw [after, ← List.filter_filter, stands.ahead]
    exact Series.filter_after sorted

theorem readPage_last {response : Response} {found : List Row} (holds : response.Holds page)
    (decodes : Decodes p.aggregation page found) (last : page.length < p.pageSize ∨ page = []) :
    (SampleWalk.readPage (.octets response.body)).perform p = (.ok (.list found), p.ended) := by
  have passed : (SampleWalk.pass (found.map .decoded)).perform p = (.ok (), p.ended) := by
    rw [SampleWalk.perform_pass, List.length_map, decodes.length_eq]
    rcases last with short | rfl
    · split
      · rfl
      · rw [if_pos short]
    · obtain rfl : found = [] := List.eq_nil_of_length_eq_zero decodes.length_eq
      rfl
  rw [perform_readPage holds decodes, passed]

theorem readPage_full {response : Response} {done : List Value} {last : Value} {x : ℚ}
    {found : List Row} {row : Row} (holds : response.Holds (done ++ [last]))
    (decodes : Decodes p.aggregation done found)
    (decoded : Snapshot.decodeRow p.aggregation last = .ok row)
    (full : ¬(done ++ [last]).length < p.pageSize) (dated : Series.instant? last = some x) :
    ∃ bound, bound.instant? = some x ∧
      (SampleWalk.readPage (.octets response.body)).perform p =
        (.ok (.list (found ++ [row])), p.movedTo bound) := by
  obtain ⟨bound, kept, means⟩ := SampleWalk.rowBound_of_decodeRow decoded dated
  have both := decodes.append (Series.Decodes.singleton decoded)
  refine ⟨bound, means, ?_⟩
  have passed : (SampleWalk.pass ((found ++ [row]).map .decoded)).perform p =
      (.ok (), p.movedTo bound) := by
    have isLast : ((found ++ [row]).map SampleWalk.PageRow.decoded).getLast? =
        some (.decoded row) := by simp
    rw [SampleWalk.perform_pass, List.length_map, both.length_eq, isLast]
    simp only [if_neg full, SampleWalk.PageRow.bound, kept]
  rw [perform_readPage holds both, passed]

/-- A call gives all that is ahead and ends the walk, or gives a page of it and leaves the rest. -/
theorem outcome_of_stands (series : IsSeries aggregation rows)
    (stands : Stands aggregation order rows p rest)
    (serves : Serves (g.url (interfaceAddress target.device interface path target.kind)) order rows
      p.isFresh server) :
    ∃ found sent q,
      (g.nextSamples target interface path).outcome server p = (.ok (.list found), sent, q) ∧
      (q.hasMore = false ∧ Decodes aggregation rest found ∨
        ∃ done left, rest = done ++ left ∧ done ≠ [] ∧ Decodes aggregation done found ∧
          q.isFresh = false ∧ Stands aggregation order rows q left) := by
  obtain ⟨query, asked, asksFor⟩ := page_of_stands stands
  obtain ⟨left, split, ends⟩ := pageOf_append p.pageSize rest
  obtain ⟨response, answered, answer⟩ := serves
    (g.request (interfaceAddress target.device interface path target.kind) (paramsOf query)) rfl
  have inRows : ∀ row ∈ rest, row ∈ rows := by
    intro row member
    rw [← stands.ahead] at member
    exact Series.mem_inOrder.mp (List.mem_filter.mp member).1
  have decodable : ∀ row ∈ rest, ∃ r, Snapshot.decodeRow aggregation row = .ok r :=
    fun row member => series.decodable row (inRows row member)
  rw [outcome_nextSamples, asked]
  simp only [answered, Reply.response]
  change response.Holds (Series.page order rows (paramsOf query)) ∨
    p.isFresh = false ∧ Series.page order rows (paramsOf query) = [] ∧ _ at answer
  rw [asksFor] at answer
  generalize pageOf p.pageSize rest = page at split ends answer
  rcases answer with holds | ⟨later, rfl, refused⟩
  · rw [if_pos holds.1]
    by_cases full : page.length < p.pageSize ∨ page = []
    · obtain rfl := ends full
      obtain rfl : rest = page := split.trans (List.append_nil _)
      obtain ⟨found, decodes⟩ := Series.exists_decodes decodable
      rw [readPage_last holds (stands.reads ▸ decodes) full]
      exact ⟨found, _, _, rfl, .inl ⟨rfl, decodes⟩⟩
    · -- a full page has a last row, and the walk goes on from there
      obtain ⟨notShort, nonempty⟩ := not_or.mp full
      obtain ⟨done, last, rfl⟩ := (List.eq_nil_or_concat' page).resolve_left nonempty
      rw [List.append_assoc, List.singleton_append] at split
      subst split
      have member : last ∈ done ++ last :: left := List.mem_append_right _ List.mem_cons_self
      have dated := Series.instant?_eq (series.dated last (inRows last member))
      obtain ⟨row, decoded⟩ := decodable last member
      obtain ⟨found, decodes⟩ := Series.exists_decodes fun other earlier =>
        decodable other (List.mem_append_left _ earlier)
      obtain ⟨bound, means, read⟩ := readPage_full holds (stands.reads ▸ decodes)
        (stands.reads ▸ decoded) notShort dated
      rw [read]
      refine ⟨found ++ [row], _, p.movedTo bound, rfl, .inr ⟨done ++ [last], left, ?_, ?_, ?_, ?_, ?_⟩⟩
      · rw [List.append_assoc, List.singleton_append]
      · simp
      · exact decodes.append (Series.Decodes.singleton decoded)
      · simp [SampleWalk.isFresh]
      · exact stands_movedTo series stands (means.trans dated.symm)
  · -- a refusal says that nothing is ahead
    obtain rfl := ends (.inr rfl)
    obtain rfl : rest = [] := split
    rw [if_neg (by simp [refused]), if_neg (by simp [later])]
    exact ⟨[], _, _, rfl, .inl ⟨rfl, rfl⟩⟩

/-! ### The whole walk -/

/-- What is ahead gets shorter with each page until a page ends the walk. -/
theorem repeats_of_stands (series : IsSeries aggregation rows)
    (stands : Stands aggregation order rows p rest) (servers : Nat → Server)
    (serves : ∀ n, Serves (g.url (interfaceAddress target.device interface path target.kind)) order
      rows (decide (n = 0) && p.isFresh) (servers n)) :
    ∃ turns, ∃ pages : List (List Row), ∃ q,
      Repeats SampleWalk.hasMore (g.nextSamples target interface path) servers p turns q ∧
      turns.map Turn.given = pages.map Content.list ∧ Decodes aggregation rest pages.flatten := by
  -- the walk may be anywhere in its window, so only what is ahead of it can be counted
  induction short : rest.length using Nat.strong_induction_on generalizing rest p servers with
  | _ n ih =>
    obtain ⟨found, sent, q, called, ended | going⟩ := outcome_of_stands series stands
      (by simpa using serves 0)
    · refine ⟨[⟨sent, .list found⟩], [found], q, ?_, rfl, ?_⟩
      · exact .next stands.more called (.done ended.1)
      · simpa using ended.2
    · obtain ⟨done, left, rfl, nonempty, decodes, notFresh, stands'⟩ := going
      have shorter : left.length < n := by
        have := List.length_pos_iff.mpr nonempty
        rw [List.length_append] at short
        omega
      obtain ⟨turns, pages, r, later, given, decodes'⟩ := ih left.length shorter stands' (fun n => servers (n + 1))
        (fun n => by simpa [notFresh] using serves (n + 1)) rfl
      refine ⟨⟨sent, .list found⟩ :: turns, found :: pages, r, ?_, ?_, ?_⟩
      · exact .next stands.more called later
      · rw [List.map_cons, List.map_cons, given]
      · rw [List.flatten_cons]
        exact decodes.append decodes'

theorem stands_ofWindow {size : Option Int} {lower upper : Option DateTime}
    (opened : SampleWalk.ofWindow aggregation order size lower upper = .ok p)
    (lowerReads : ∀ t, lower = some t → Timestamp.ReadsBack t)
    (upperReads : ∀ t, upper = some t → Timestamp.ReadsBack t) (rows : List Value) :
    Stands aggregation order rows p (Series.window order lower upper rows) := by
  obtain ⟨fresh, goes, reads, isLower, isUpper⟩ := SampleWalk.ofWindow_spec opened
  have lowest : order = .ascending →
      p.lowest.instant? = some ((lower.getD .unixEpoch).instant : ℚ) := by
    intro ascending
    rw [SampleWalk.lowest, isLower ascending]
    refine SampleWalk.instant?_of_readsBack ?_
    cases lower with
    | none => exact Timestamp.readsBack_unixEpoch
    | some t => exact lowerReads t rfl
  have highest : ∀ t, upper = some t → ({ moment := t } : Bound).instant? = some (t.instant : ℚ) :=
    fun t given => SampleWalk.instant?_of_readsBack (upperReads t given)
  refine ⟨?_, reads, goes, ⟨fun ascending => ⟨_, lowest (goes ▸ ascending)⟩, ?_⟩, ?_⟩
  · rw [SampleWalk.hasMore, fresh]
    rfl
  · intro bound given
    rw [isUpper] at given
    obtain ⟨t, rfl, rfl⟩ := Option.map_eq_some_iff.mp given
    exact ⟨_, highest t rfl⟩
  · rw [Series.window]
    congr
    funext row
    rw [SampleWalk.asks, SampleWalk.asksAbove, SampleWalk.asksBelow, Series.covers, goes, isUpper]
    congr 1
    · cases order with
      | ascending => simp [lowest, SampleWalk.isFresh, fresh]
      | descending => rfl
    · cases upper with
      | none => rfl
      | some t => simp [highest]

/-- Calls for the next page, made as long as there is more, come to an end without a failure, and
their pages hold the decoded rows of the window, none lost and none repeated, in the order of the
walk. -/
theorem samples_complete {size : Option Int} {lower upper : Option DateTime} {servers : Nat → Server}
    (opened : SampleWalk.ofWindow aggregation order size lower upper = .ok p)
    (lowerReads : ∀ t, lower = some t → Timestamp.ReadsBack t)
    (upperReads : ∀ t, upper = some t → Timestamp.ReadsBack t)
    (series : IsSeries aggregation rows)
    (serves : ∀ n, Serves (g.url (interfaceAddress target.device interface path target.kind)) order
      rows (n = 0) (servers n)) :
    ∃ turns, ∃ pages : List (List Row), ∃ q,
      Repeats SampleWalk.hasMore (g.nextSamples target interface path) servers p turns q ∧
      turns.map Turn.given = pages.map Content.list ∧
      (Series.window order lower upper rows).mapM (Snapshot.decodeRow aggregation) =
        .ok pages.flatten := by
  have stands := stands_ofWindow opened lowerReads upperReads rows
  have fresh : p.isFresh = true := by
    rw [SampleWalk.isFresh, (SampleWalk.ofWindow_spec opened).1]
    rfl
  exact repeats_of_stands series stands servers fun n => by simpa [fresh] using serves n

/-- Two rows within a microsecond, one on a page, and a refusal after the last. -/
theorem samples_complete_within_microsecond :
    let first := Value.object
      [("value", .int 1), ("timestamp", .str "2020-01-01T00:00:00.0000001Z")]
    let second := Value.object
      [("value", .int 2), ("timestamp", .str "2020-01-01T00:00:00.0000002Z")]
    let g : Client := { baseUrl := "http://localhost", realm := "test" }
    let target : Target := { device := "device" }
    let servers : Nat → Server := fun n request =>
      let page := Series.page .ascending [first, second] request.params
      let body := Json.writeString (.object [("data", .list page)])
      .answered (if n ≠ 0 ∧ page = [] then ⟨404, []⟩ else ⟨200, body.toUTF8.toList⟩)
    ∃ p turns, ∃ pages : List (List Row), ∃ q,
      SampleWalk.ofWindow .individual .ascending (some 1) none none = .ok p ∧
      Repeats SampleWalk.hasMore (g.nextSamples target "org.Interface" "/path") servers p turns q ∧
      turns.map Turn.given = pages.map Content.list ∧
      [first, second].mapM (Snapshot.decodeRow .individual) = .ok pages.flatten := by
  intro first second g target servers
  have sorted : inOrder .ascending [first, second] = [first, second] :=
    List.mergeSort_of_pairwise (by decide +kernel)
  have series : IsSeries .individual [first, second] := by decide +kernel
  have serves : ∀ n, Serves (g.url (interfaceAddress target.device "org.Interface" "/path" target.kind))
      .ascending [first, second] (n = 0) (servers n) := by
    intro n request _
    have part : (Series.page .ascending [first, second] request.params).Sublist [first, second] := by
      have part : (Series.page .ascending [first, second] request.params).Sublist
          (inOrder .ascending [first, second]) := Series.page_sublist
      rwa [sorted] at part
    have pages : ∀ page ∈ [first, second].sublists, Response.Holds
        ⟨200, (Json.writeString (.object [("data", .list page)])).toUTF8.toList⟩ page := by
      intro page member
      have read : Json.readOctets (Json.writeString (.object [("data", .list page)])).toUTF8.toList =
          .ok (.object [("data", .list page)]) := by
        revert page
        decide +kernel
      exact ⟨rfl, _, read, rfl⟩
    refine ⟨_, rfl, ?_⟩
    by_cases refused : n ≠ 0 ∧ Series.page .ascending [first, second] request.params = []
    · rw [if_pos refused]
      exact .inr ⟨decide_eq_false refused.1, refused.2, rfl⟩
    · rw [if_neg refused]
      exact .inl (pages _ (List.mem_sublists.mpr part))
  have opened : ∃ p, SampleWalk.ofWindow .individual .ascending (some 1) none none = .ok p :=
    ⟨_, rfl⟩
  obtain ⟨p, opened⟩ := opened
  obtain ⟨turns, pages, q, run, given, decoded⟩ :=
    samples_complete opened (fun t h => by cases h) (fun t h => by cases h) series serves
  have whole : Series.window .ascending none none [first, second] = [first, second] := by
    rw [Series.window, sorted]
    decide +kernel
  rw [whole] at decoded
  exact ⟨p, turns, pages, q, opened, run, given, decoded⟩

end Telemetry.Service
