import Mathlib.Data.List.Nodup
import Telemetry.Proofs.Except
import Telemetry.Proofs.Walk.Cursor

/-!
What a walk over devices asks for. Its queries hold the parameters of the link that was followed
last, and going back to the first page takes only the token from them.
-/

namespace Telemetry

/-- Queries that hold the same are the same once they are put in order. -/
theorem Query.sorted_congr {query other : Query} (distinct : (FieldList.names query).Nodup)
    (distinct' : (FieldList.names other).Nodup)
    (same : ∀ name, FieldList.get? query name = FieldList.get? other name) :
    query.sorted = other.sorted := by
  have perm : query.Perm other := by
    refine (List.perm_ext_iff_of_nodup (List.Nodup.of_map _ distinct)
      (List.Nodup.of_map _ distinct')).mpr ?_
    rintro ⟨name, item⟩
    rw [← FieldList.get?_eq_some_iff distinct, ← FieldList.get?_eq_some_iff distinct', same]
  have inOrder : ∀ query : Query, query.sorted.Pairwise fun a b => decide (a.1 ≤ b.1) = true := by
    intro query
    refine List.pairwise_mergeSort (fun a b c first next => ?_) (fun a b => ?_) query
    · simp only [decide_eq_true_eq] at first next ⊢
      exact String.le_trans first next
    · simpa using String.le_total a.1 b.1
  have sorted : ∀ query : Query, query.sorted.Perm query := fun query => List.mergeSort_perm query _
  refine List.Perm.eq_of_pairwise (fun a b inQuery inOther first next => ?_) (inOrder query)
    (inOrder other) ((sorted query).trans (perm.trans (sorted other).symm))
  -- the list has one parameter of each name
  obtain ⟨name, item⟩ := a
  obtain ⟨name', item'⟩ := b
  obtain rfl : name = name' :=
    String.le_antisymm (of_decide_eq_true first) (of_decide_eq_true next)
  have left := (FieldList.get?_eq_some_iff distinct).mpr ((sorted query).mem_iff.mp inQuery)
  have right := (FieldList.get?_eq_some_iff distinct').mpr ((sorted other).mem_iff.mp inOther)
  rw [same, right] at left
  rw [Option.some.inj left]

namespace DeviceWalk

open Walk.Step

variable {p q : DeviceWalk} {link : Query}

/-! ### Queries -/

theorem nodup_withLimit (distinct : (FieldList.names link).Nodup) :
    (FieldList.names (p.withLimit link)).Nodup := by
  unfold withLimit
  split
  · exact FieldList.nodup_names_insert distinct
  · exact distinct

theorem get?_withLimit (name : String) : FieldList.get? (p.withLimit link) name =
    if name = "limit" then
      (FieldList.get? link name).or (if 0 < p.pageSize then some (Walk.limitText p.pageSize) else none)
    else FieldList.get? link name := by
  unfold withLimit
  by_cases isLimit : name = "limit"
  · subst isLimit
    rw [if_pos rfl]
    cases held : FieldList.get? link "limit" with
    | some text => simp [FieldList.has, held]
    | none =>
      by_cases limited : 0 < p.pageSize
      · simp [FieldList.has, held, limited]
      · simp [held, limited]
  · rw [if_neg isLimit]
    split
    · exact FieldList.get?_insert_of_ne (Ne.symm isLimit)
    · rfl

/-- What a walk asks for under a name, where these parameters lead to the page. -/
def held (p : DeviceWalk) (link : Query) (name : String) : Option String :=
  if name = "details" then some (detailsText p.format)
  else if name = "limit" then
    (FieldList.get? link name).or (if 0 < p.pageSize then some (Walk.limitText p.pageSize) else none)
  else FieldList.get? link name

def filled (p : DeviceWalk) (link : Query) : Query :=
  FieldList.insert (p.withLimit link) "details" (detailsText p.format)

theorem nodup_filled (distinct : (FieldList.names link).Nodup) :
    (FieldList.names (p.filled link)).Nodup :=
  FieldList.nodup_names_insert (nodup_withLimit distinct)

theorem get?_filled (name : String) : FieldList.get? (p.filled link) name = p.held link name := by
  unfold filled held
  by_cases isDetails : name = "details"
  · subst isDetails
    rw [if_pos rfl]
    exact FieldList.get?_insert_same
  · rw [if_neg isDetails, FieldList.get?_insert_of_ne (Ne.symm isDetails), get?_withLimit]

theorem query_eq_filled (more : p.hasMore = true) (cursor : p.cursor = .parameters link) :
    p.query = .ok (p.filled link).sorted := by
  rw [query, if_pos more, cursor]
  rfl

/-! ### Links that are followed -/

def nextLink? (links : Links) : Option Value :=
  if links.next.isTruthy then some links.next else none

def nextLinkOf? (links : Value) : Option Value :=
  (Links.ofValue links).toOption.bind nextLink?

/-- A walk after it was led on, or ended where there was no link. -/
def Led (p : DeviceWalk) (link : Option Value) (q : DeviceWalk) : Prop :=
  match link with
  | some link => ∃ cursor, linkCursor link = .ok cursor ∧
    q = { p with cursor, stage := .midIteration }
  | none => q = { p with stage := .exhausted }

theorem led_of_follow {links : Links} (done : (follow links).perform p = (.ok (), q)) :
    Led p (nextLink? links) q := by
  unfold follow at done
  unfold nextLink?
  split at done
  · rename_i given
    rw [if_pos given]
    obtain ⟨cursor, _, lifted, moved⟩ := perform_bind_ok done
    obtain ⟨read, rfl⟩ := perform_lift_eq_ok lifted
    cases moved
    exact ⟨cursor, read, rfl⟩
  · rename_i missing
    rw [if_neg missing]
    cases done
    rfl

theorem led_of_followValue {links : Value} (done : (followValue links).perform p = (.ok (), q)) :
    Led p (nextLinkOf? links) q := by
  obtain ⟨found, _, lifted, followed⟩ := perform_bind_ok done
  obtain ⟨read, rfl⟩ := perform_lift_eq_ok lifted
  rw [nextLinkOf?, read]
  exact led_of_follow followed

/-- The link of a page is followed once its devices have been read. -/
theorem led_of_readPage {document : Json.Document} {page : DevicePage}
    (done : (readPage document).perform p = (.ok page, q)) :
    ∃ content, Snapshot.readDocument document = .ok content ∧
      Led p (nextLinkOf? (Value.fieldOrNull (fieldsOf content) "links")) q := by
  obtain ⟨content, _, lifted, afterContent⟩ := perform_bind_ok done
  obtain ⟨read, rfl⟩ := perform_lift_eq_ok lifted
  obtain ⟨rows, _, isRows, afterRows⟩ := perform_bind_ok afterContent
  obtain ⟨-, rfl⟩ := perform_lift_eq_ok isRows
  obtain ⟨_, _, got, afterGet⟩ := perform_bind_ok afterRows
  rw [perform_get] at got
  cases got
  obtain ⟨_, _, isPage, afterPage⟩ := perform_bind_ok afterGet
  obtain ⟨-, rfl⟩ := perform_lift_eq_ok isPage
  obtain ⟨⟨⟩, _, followed, given⟩ := perform_bind_ok afterPage
  cases given
  exact ⟨content, read, led_of_followValue followed⟩

/-! ### Any sequence of actions -/

inductive Action where
  | query
  | follow (links : Links)
  | followValue (links : Value)
  | readPage (document : Json.Document)
  | restart

namespace Action

/-- Whether an action succeeds, and the walk after it in either case. -/
def attempt : Action → DeviceWalk → Bool × DeviceWalk
  | .query, p => nextQuery.attempt p
  | .follow links, p => (DeviceWalk.follow links).attempt p
  | .followValue links, p => (DeviceWalk.followValue links).attempt p
  | .readPage document, p => (DeviceWalk.readPage document).attempt p
  | .restart, p => (true, (DeviceWalk.restart.run p).2)

/-- The link that an action follows if it succeeds. -/
def link? : Action → Option Value
  | .follow links => nextLink? links
  | .followValue links => nextLinkOf? links
  | .readPage document => (Snapshot.readDocument document).toOption.bind fun content =>
    nextLinkOf? (Value.fieldOrNull (fieldsOf content) "links")
  | .query | .restart => none

/-- An action fails and moves nothing, or leads the walk on or to its end, or does neither. -/
theorem attempt_cases (action : Action) (p : DeviceWalk) :
    action.attempt p = (false, p) ∨
      (∃ q, action.attempt p = (true, q) ∧ Led p action.link? q) ∨
      action.link? = none ∧ ((action.attempt p).2 = p ∨
        (action.attempt p).2 = { p with cursor := firstCursor p.cursor, stage := .fresh }) := by
  cases action with
  | query =>
    right; right
    refine ⟨rfl, .inl ?_⟩
    rw [attempt, Walk.Step.attempt, perform_nextQuery]
  | restart => exact .inr (.inr ⟨rfl, .inr rfl⟩)
  | follow links =>
    rcases (follow_atomic links).attempt_cases p with ⟨⟨⟩, q, done, attempted⟩ | failed
    · exact .inr (.inl ⟨q, attempted, led_of_follow done⟩)
    · exact .inl failed
  | followValue links =>
    rcases (followValue_atomic links).attempt_cases p with ⟨⟨⟩, q, done, attempted⟩ | failed
    · exact .inr (.inl ⟨q, attempted, led_of_followValue done⟩)
    · exact .inl failed
  | readPage document =>
    rcases (readPage_atomic document).attempt_cases p with ⟨page, q, done, attempted⟩ | failed
    · obtain ⟨content, read, led⟩ := led_of_readPage done
      refine .inr (.inl ⟨q, attempted, ?_⟩)
      rw [link?, read]
      exact led
    · exact .inl failed

end Action

/-- A walk, and the link that was followed last. -/
structure History where
  walk : DeviceWalk
  link : Option Value := none

def History.after (h : History) (action : Action) : History :=
  let done := action.attempt h.walk
  { walk := done.2, link := if done.1 then action.link?.or h.link else h.link }

/-- What the link that was followed last leads to; nothing if none was followed. -/
def History.cursor (h : History) : DeviceCursor :=
  match h.link with
  | some link => (linkCursor link).toOption.getD (.parameters [])
  | none => .parameters []

/-- A walk has kept its settings, and going back to its first page is going back from the page that
the last link led to. -/
structure Follows (p : DeviceWalk) (h : History) : Prop where
  pageSize : h.walk.pageSize = p.pageSize
  format : h.walk.format = p.format
  cursor : firstCursor h.walk.cursor = firstCursor h.cursor

theorem firstCursor_firstCursor (cursor : DeviceCursor) :
    firstCursor (firstCursor cursor) = firstCursor cursor := by
  cases cursor with
  | parameters query => simp [firstCursor, FieldList.erase]
  | octets => rfl

theorem Follows.after {h : History} (follows : Follows p h) (action : Action) :
    Follows p (h.after action) := by
  obtain ⟨pageSize, format, cursor⟩ := follows
  -- only a page that was read moves the cursor to another link
  rcases action.attempt_cases h.walk with failed | ⟨q, done, led⟩ | ⟨linkless, still | back⟩
  · rw [History.after, failed]
    exact ⟨pageSize, format, cursor⟩
  · rw [History.after, done]
    generalize action.link? = link at led ⊢
    cases link with
    | none =>
      cases led
      exact ⟨pageSize, format, cursor⟩
    | some link =>
      obtain ⟨found, read, rfl⟩ := led
      refine ⟨pageSize, format, ?_⟩
      simp [History.cursor, read, Except.toOption]
  · rw [History.after, linkless, still]
    refine ⟨pageSize, format, ?_⟩
    simpa [History.cursor] using cursor
  · rw [History.after, linkless, back]
    refine ⟨pageSize, format, ?_⟩
    simpa [History.cursor, firstCursor_firstCursor] using cursor

theorem follows_foldl (actions : List Action) {h : History} (follows : Follows p h) :
    Follows p (actions.foldl History.after h) := by
  induction actions generalizing h with
  | nil => exact follows
  | cons action rest ih => exact ih (follows.after action)

/-! ### Back to the first page -/

theorem nodup_of_linkParameters {cs : List Char} (read : linkParameters cs = .ok link) :
    (FieldList.names link).Nodup := by
  simp only [linkParameters, bind_eq_ok, pure_eq_ok] at read
  obtain ⟨text, -, rfl⟩ := read
  exact FieldList.nodup_names_ofList

theorem nodup_of_linkCursor {v : Value} (read : linkCursor v = .ok (.parameters link)) :
    (FieldList.names link).Nodup := by
  cases v with
  | str text =>
    obtain ⟨found, parsed, same⟩ := map_ok read
    cases same
    exact nodup_of_linkParameters parsed
  | bytes octets =>
    simp only [linkCursor, bind_eq_ok, pure_eq_ok] at read
    obtain ⟨text, -, found, -, cursor⟩ := read
    split at cursor <;> cases cursor
    exact List.nodup_nil
  | _ => cases read

theorem History.nodup_cursor {h : History} (cursor : h.cursor = .parameters link) :
    (FieldList.names link).Nodup := by
  unfold History.cursor at cursor
  split at cursor
  · rename_i given _
    cases read : linkCursor given with
    | error fault =>
      rw [read] at cursor
      cases cursor
      exact List.nodup_nil
    | ok found =>
      rw [read] at cursor
      cases cursor
      exact nodup_of_linkCursor read
  · cases cursor
    exact List.nodup_nil

/-- A parameter that going back leaves out, or that a first query has as well. -/
def IsOwn (p : DeviceWalk) (parameter : String × String) : Prop :=
  parameter.1 = tokenName ∨ parameter.1 = "details" ∨
    parameter.1 = "limit" ∧ 0 < p.pageSize ∧ parameter.2 = Walk.limitText p.pageSize

instance (p : DeviceWalk) (parameter : String × String) : Decidable (p.IsOwn parameter) :=
  inferInstanceAs (Decidable (_ ∨ _))

/-- What a walk asks for once it has gone back from the page that these parameters led to. -/
def heldBack (p : DeviceWalk) (link : Query) (name : String) : Option String :=
  if name = tokenName then none else p.held link name

theorem held_erase (name : String) :
    p.held (FieldList.erase link tokenName) name = p.heldBack link name := by
  unfold heldBack
  by_cases isToken : name = tokenName
  · subst isToken
    rw [if_pos rfl, held, if_neg (by decide), if_neg (by decide), FieldList.get?_erase_same]
  · rw [if_neg isToken, held, held, FieldList.get?_erase_of_ne (Ne.symm isToken)]

theorem heldBack_eq_held_iff (distinct : (FieldList.names link).Nodup) :
    (∀ name, p.heldBack link name = p.held [] name) ↔ ∀ parameter ∈ link, p.IsOwn parameter := by
  constructor
  · rintro same ⟨name, item⟩ member
    have given := (FieldList.get?_eq_some_iff distinct).mpr member
    by_cases isToken : name = tokenName
    · exact .inl isToken
    by_cases isDetails : name = "details"
    · exact .inr (.inl isDetails)
    have here := same name
    rw [heldBack, if_neg isToken, held, held, if_neg isDetails, if_neg isDetails, given] at here
    by_cases isLimit : name = "limit"
    · by_cases limited : 0 < p.pageSize
      · refine .inr (.inr ⟨isLimit, limited, ?_⟩)
        simpa [isLimit, limited] using here
      · simp [isLimit, limited] at here
    · simp [isLimit] at here
  · intro own name
    rw [heldBack, held, held]
    by_cases isToken : name = tokenName
    · subst isToken
      rfl
    rw [if_neg isToken]
    by_cases isDetails : name = "details"
    · rw [if_pos isDetails, if_pos isDetails]
    rw [if_neg isDetails, if_neg isDetails]
    cases given : FieldList.get? link name with
    | none => rfl
    | some item =>
      rcases own _ ((FieldList.get?_eq_some_iff distinct).mp given) with token | details | limit
      · exact absurd token isToken
      · exact absurd details isDetails
      · obtain ⟨isLimit, limited, same⟩ := limit
        dsimp only at isLimit same
        rw [if_pos isLimit, if_pos isLimit, if_pos limited, same]
        rfl

/-- A walk at its first page, with the parameters that are left of those which led it on. -/
def backFrom (p : DeviceWalk) (link : Query) : DeviceWalk :=
  { p with cursor := firstCursor (.parameters link), stage := .fresh }

def filledBack (p : DeviceWalk) (link : Query) : Query :=
  p.filled (FieldList.erase link tokenName)

theorem nodup_filledBack (distinct : (FieldList.names link).Nodup) :
    (FieldList.names (p.filledBack link)).Nodup :=
  nodup_filled (distinct.sublist (List.filter_sublist.map Prod.fst))

theorem get?_filledBack (name : String) :
    FieldList.get? (p.filledBack link) name = p.heldBack link name := by
  rw [filledBack, get?_filled, held_erase]

theorem query_backFrom : (p.backFrom link).query = .ok (p.filledBack link).sorted :=
  query_eq_filled rfl rfl

theorem query_backFrom_eq_iff (distinct : (FieldList.names link).Nodup) :
    (p.backFrom link).query = (p.backFrom []).query ↔ ∀ parameter ∈ link, p.IsOwn parameter := by
  have first : ∀ name, FieldList.get? (p.filledBack []) name = p.held [] name :=
    fun name => get?_filled name
  have nodup := nodup_filledBack (p := p) distinct
  have nodupFirst : (FieldList.names (p.filledBack [])).Nodup := nodup_filledBack List.nodup_nil
  rw [query_backFrom, query_backFrom, Except.ok.injEq, ← heldBack_eq_held_iff distinct]
  constructor
  · intro same name
    rw [← get?_filledBack, ← first, ← Query.get?_sorted nodup, same, Query.get?_sorted nodupFirst]
  · intro same
    refine Query.sorted_congr nodup nodupFirst fun name => ?_
    rw [get?_filledBack, first, same]

/-- Back at its first page a walk goes on, and asks for whatever the link that was followed last asks
for, but not with the token. This is the first query of the walk where the link has no parameter of
another kind. -/
theorem query_restart {size : Int} {format : DeviceFormat} (opened : ofPageSize size format = .ok p)
    (actions : List Action) :
    let h := actions.foldl History.after { walk := p }
    let q := (restart.run h.walk).2
    q.hasMore = true ∧
      match h.cursor with
      | .parameters link =>
        (∃ query, q.query = .ok query ∧ (FieldList.names query).Nodup ∧
          ∀ name, FieldList.get? query name = p.heldBack link name) ∧
        (q.query = p.query ↔ ∀ parameter ∈ link, p.IsOwn parameter)
      | .octets => q.query = .error .unordered := by
  intro h q
  have fresh : p = p.backFrom [] := by
    unfold ofPageSize Walk.checkPageSize at opened
    split at opened <;> cases opened
    rfl
  obtain ⟨pageSize, format, cursor⟩ :=
    follows_foldl actions (h := { walk := p }) ⟨rfl, rfl, congrArg (firstCursor ·.cursor) fresh⟩
  have back : q = { p with cursor := firstCursor h.cursor, stage := .fresh } := by
    rw [← cursor, ← pageSize, ← format]
    rfl
  refine ⟨by rw [back]; rfl, ?_⟩
  cases led : h.cursor with
  | parameters link =>
    have distinct := History.nodup_cursor led
    rw [led] at back
    have same : q.query = .ok (p.filledBack link).sorted := (congrArg query back).trans query_backFrom
    have first : p.query = (p.backFrom []).query := congrArg query fresh
    refine ⟨⟨_, same, Query.nodup_names_sorted (nodup_filledBack distinct), fun name => ?_⟩, ?_⟩
    · rw [Query.get?_sorted (nodup_filledBack distinct), get?_filledBack]
    · rw [same, first, ← query_backFrom]
      exact query_backFrom_eq_iff distinct
  | octets =>
    rw [back, led]
    rfl

/-- A page with a link, a link that replaces it, and one that cannot be followed. -/
theorem query_restart_of_token :
    ∃ p, ofPageSize 2 .id = .ok p ∧
      let page := Value.object [("data", .list [.str "d1"]),
        ("links", .object [("next", .str "/v1/test/devices?page=3")])]
      let token := Value.object [("next", .str "/v1/test/devices?from_token=a%2Bb&limit=2")]
      let h := [Action.readPage (.value page), .followValue token, .query,
        .followValue (.bool true)].foldl History.after { walk := p }
      (restart.run h.walk).2.hasMore = true ∧ (restart.run h.walk).2.query = p.query := by
  refine ⟨{ pageSize := 2, format := .id }, rfl, ?_⟩
  intro page token h
  have opened : ofPageSize 2 .id = .ok { pageSize := 2, format := .id } := rfl
  obtain ⟨more, asks⟩ := query_restart opened
    [.readPage (.value page), .followValue token, .query, .followValue (.bool true)]
  have cursor : h.cursor = .parameters [("from_token", "a+b"), ("limit", "2")] := by decide +kernel
  split at asks
  · rename_i link led
    obtain rfl := DeviceCursor.parameters.inj (cursor.symm.trans led)
    exact ⟨more, asks.2.mpr (by decide)⟩
  · rename_i led
    cases cursor.symm.trans led

/-- The limit of the last link is still asked for. -/
theorem restart_keeps_limit :
    ∃ p, ofPageSize 2 .id = .ok p ∧
      let links := Value.object [("next", .str "/v1/test/devices?from_token=abc&limit=5")]
      let h := [Action.followValue links].foldl History.after { walk := p }
      (restart.run h.walk).2.query ≠ p.query := by
  refine ⟨{ pageSize := 2, format := .id }, rfl, ?_⟩
  intro links h same
  have back : (restart.run h.walk).2 = backFrom { pageSize := 2, format := .id }
      [("from_token", "abc"), ("limit", "5")] := by
    decide +kernel
  rw [back] at same
  have own := (query_backFrom_eq_iff (by decide)).mp same ("limit", "5") (by decide)
  rcases own with token | details | limit
  · exact absurd token (by decide)
  · exact absurd details (by decide)
  · exact absurd limit.2.2 (by decide)

end DeviceWalk

end Telemetry
