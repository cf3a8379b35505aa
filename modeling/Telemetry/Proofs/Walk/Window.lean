import Telemetry.Proofs.Except
import Telemetry.Proofs.Walk.Cursor

/-!
What a walk over samples asks for after any sequence of actions. As long as no page was digested it
asks for the window it was opened with, and from then on for what lies behind the timestamp of the
last row of the page that moved it last.
-/

namespace Telemetry

open Walk.Step

/-! ### Timestamps of rows -/

def Value.timestamp? : Value → Option Value
  | .object fields =>
    let given := Value.fieldOrNull fields Sample.timestampName
    if given.isTruthy then some given else none
  | _ => none

/-- The text by which a timestamp is asked for: a text as it stands, a date-time as it is written. -/
def Value.asked? : Value → Option String
  | .str text => some text
  | .dateTime t => (Timestamp.format t.assumeUtc).toOption
  | _ => none

/-- A bound at a timestamp, with its moment and with the text by which it is asked for. -/
structure Bound.Marks (bound : Bound) (given : Value) : Prop where
  moment : Timestamp.parse given = .ok bound.moment
  text : ∃ text, bound.text = some text ∧ given.asked? = some text

namespace SampleWalk

open Snapshot (Row)

variable {p q : SampleWalk} {given v : Value} {t : DateTime} {bound : Bound} {found : Option Bound}

theorem marks_of_boundAt (read : Timestamp.parse given = .ok t)
    (made : boundAt t (keptText? given) = .ok bound) : bound.Marks given := by
  cases given with
  | str text =>
    cases made
    exact ⟨read, text, rfl, rfl⟩
  | dateTime moment =>
    obtain rfl : moment.assumeUtc = t := Except.ok.inj read
    simp only [keptText?, boundAt] at made
    split at made
    · rename_i text written
      cases made
      exact ⟨rfl, text, rfl, by rw [Value.asked?, written]; rfl⟩
    · cases made
  | _ => cases read

/-- What a row of a document or a row decoded from it leaves the window at is its timestamp. -/
def PageRow.Tells (row : PageRow) (v : Value) : Prop :=
  ∀ found, row.bound = .ok found → Option.Rel Bound.Marks found v.timestamp?

theorem rel_of_boundAt (read : Timestamp.parse given = .ok t)
    (made : some <$> boundAt t (keptText? given) = .ok found) :
    Option.Rel Bound.Marks found (some given) := by
  obtain ⟨bound, isBound, rfl⟩ := map_ok made
  exact .some (marks_of_boundAt read isBound)

theorem tells_raw (v : Value) : (PageRow.raw v).Tells v := by
  intro found read
  cases v with
  | object fields =>
    change fieldsBound fields = .ok found at read
    rw [Value.timestamp?]
    cases parsed : Timestamp.parse (Value.fieldOrNull fields Sample.timestampName) with
    | ok t =>
      rw [fieldsBound_eq parsed] at read
      rw [if_pos (Timestamp.isTruthy_of_parse parsed)]
      exact rel_of_boundAt parsed read
    | error fault =>
      rw [fieldsBound, parsed] at read
      split at read
      · cases read
      · rename_i missing
        cases read
        rw [if_neg missing]
        exact .none
  | dateTime t => cases read
  | _ =>
    cases read
    exact .none

theorem tells_decoded {aggregation : Aggregation} {row : Row}
    (decoded : Snapshot.decodeRow aggregation v = .ok row) : (PageRow.decoded row).Tells v := by
  intro found read
  apply tells_raw v
  rwa [← bound_decoded decoded]

/-! ### Pages -/

/-- The timestamp that a page moves the window to: that of its last row, if the page is full. -/
def mover? (pageSize : Nat) (page : List Value) : Option Value :=
  if page.length < pageSize then none else page.getLast?.bind Value.timestamp?

theorem mover?_nil (pageSize : Nat) : mover? pageSize [] = none := by
  unfold mover?
  split <;> rfl

/-- A walk past a page, which moved it to a timestamp or was the last one. -/
def Past (p : SampleWalk) (mover : Option Value) (q : SampleWalk) : Prop :=
  match mover with
  | some given => ∃ bound : Bound, bound.Marks given ∧ q = p.movedTo bound
  | none => q = p.ended

theorem rel_getLast? {α β : Type} {related : α → β → Prop} {as : List α} {bs : List β}
    (all : List.Forall₂ related as bs) : Option.Rel related as.getLast? bs.getLast? := by
  have reversed := List.forall₂_reverse_iff.mpr all
  rw [List.getLast?_eq_head?_reverse, List.getLast?_eq_head?_reverse]
  generalize as.reverse = as at reversed
  generalize bs.reverse = bs at reversed
  cases reversed with
  | nil => exact .none
  | cons last _ => exact .some last

theorem past_of_pass {rows : List PageRow} {page : List Value}
    (tell : List.Forall₂ PageRow.Tells rows page) (done : (pass rows).perform p = (.ok (), q)) :
    Past p (mover? p.pageSize page) q := by
  have last := rel_getLast? tell
  have count : rows.length = page.length := tell.length_eq
  rw [perform_pass, count] at done
  unfold mover?
  -- only the last row counts, and of it only what it tells
  generalize rows.getLast? = lastRow at done last
  generalize page.getLast? = lastGiven at last ⊢
  cases last with
  | none =>
    obtain rfl : p.ended = q := (Prod.mk.inj done).2
    split <;> rfl
  | @some row given tells =>
    dsimp only at done
    split
    · rename_i short
      rw [if_pos short] at done
      exact (Prod.mk.inj done).2.symm
    · rename_i full
      rw [if_neg full] at done
      rw [Option.bind_some]
      rcases bounded : row.bound with fault | found <;> rw [bounded] at done
      · cases done
      · have told := tells found bounded
        generalize given.timestamp? = timestamp at told ⊢
        cases told with
        | none => exact (Prod.mk.inj done).2.symm
        | some marks => exact ⟨_, marks, (Prod.mk.inj done).2.symm⟩

theorem perform_passValue_list (rows : List Value) :
    (passValue (.list rows)).perform p = (pass (rows.map .raw)).perform p := by
  cases rows <;> rfl

theorem past_of_passValue {rows : List Value}
    (done : (passValue (.list rows)).perform p = (.ok (), q)) :
    Past p (mover? p.pageSize rows) q := by
  rw [perform_passValue_list] at done
  refine past_of_pass ?_ done
  rw [List.forall₂_map_left_iff]
  exact List.forall₂_same.mpr fun v _ => tells_raw v

def rowsOf : Value → List Value
  | .list rows => rows
  | _ => []

theorem readRows_of_readPage {document : Json.Document} {content : Snapshot.Content}
    (done : (readPage document).perform p = (.ok content, q)) :
    ∃ data, Snapshot.readData document = .ok data ∧
      Snapshot.readRows p.aggregation data = .ok content ∧
      match content with
      | .list rows => (pass (rows.map .decoded)).perform p = (.ok (), q)
      | .tree _ => q = p.ended := by
  unfold readPage at done
  obtain ⟨data, _, read, decoding⟩ := perform_bind_ok done
  obtain ⟨isData, rfl⟩ := perform_lift_eq_ok read
  rw [perform_bind, perform_get] at decoding
  obtain ⟨page, _, decoded, passing⟩ := perform_bind_ok decoding
  obtain ⟨isPage, rfl⟩ := perform_lift_eq_ok decoded
  refine ⟨data, isData, ?_⟩
  cases page with
  | list rows =>
    obtain ⟨_, r, passed, returned⟩ := perform_bind_ok passing
    cases returned
    exact ⟨isPage, passed⟩
  | tree rows =>
    cases passing
    exact ⟨isPage, rfl⟩

theorem past_of_readPage {document : Json.Document} {content : Snapshot.Content}
    (done : (readPage document).perform p = (.ok content, q)) :
    ∃ data, Snapshot.readData document = .ok data ∧ Past p (mover? p.pageSize (rowsOf data)) q := by
  obtain ⟨data, isData, isPage, passed⟩ := readRows_of_readPage done
  refine ⟨data, isData, ?_⟩
  cases data with
  | list rows =>
    obtain ⟨decodedRows, isRows, rfl⟩ := map_ok isPage
    refine past_of_pass ?_ passed
    rw [List.forall₂_map_left_iff]
    exact (mapM_ok.mp isRows).flip.imp fun _ _ isRow => tells_decoded isRow
  | _ =>
    cases isPage
    rw [rowsOf, mover?_nil]
    · exact passed
    · rintro rows ⟨⟩

/-! ### Any sequence of actions -/

inductive Action where
  | query
  | readPage (document : Json.Document)
  | pass (rows : List Value)
  | endAtFailure
  | restart

namespace Action

/-- Whether an action succeeds, and the walk after it in either case. -/
def attempt : Action → SampleWalk → Bool × SampleWalk
  | .query, p => nextQuery.attempt p
  | .readPage document, p => (SampleWalk.readPage document).attempt p
  | .pass rows, p => (passValue (.list rows)).attempt p
  | .endAtFailure, p => SampleWalk.endAtFailure.run p
  | .restart, p => (true, (SampleWalk.restart.run p).2)

def page : Action → List Value
  | .pass rows => rows
  | .readPage document => (Snapshot.readData document).toOption.elim [] rowsOf
  | _ => []

def digests : Action → Bool
  | .readPage _ | .pass _ | .endAtFailure => true
  | .query | .restart => false

theorem attempt_cases {action : Action} (digests : action.digests = true) (p : SampleWalk) :
    action.attempt p = (false, p) ∨
      ∃ q, action.attempt p = (true, q) ∧ Past p (mover? p.pageSize action.page) q := by
  cases action with
  | readPage document =>
    rcases (readPage_atomic document).attempt_cases p with ⟨content, q, done, attempted⟩ | failed
    · obtain ⟨data, read, past⟩ := past_of_readPage done
      refine .inr ⟨q, attempted, ?_⟩
      rw [page, read]
      exact past
    · exact .inl failed
  | pass rows =>
    rcases (passValue_atomic (.list rows)).attempt_cases p with ⟨_, q, done, attempted⟩ | failed
    · exact .inr ⟨q, attempted, past_of_passValue done⟩
    · exact .inl failed
  | endAtFailure =>
    rw [attempt, run_endAtFailure]
    split
    · exact .inl rfl
    · refine .inr ⟨_, rfl, ?_⟩
      have noRows : Action.endAtFailure.page = [] := rfl
      rw [noRows, mover?_nil]
      rfl
  | query => cases digests
  | restart => cases digests

end Action

/-- A walk since it was opened or last restarted: whether a page was digested, and the timestamp of
the last row of the page that moved it last. -/
structure History where
  walk : SampleWalk
  digested : Bool := false
  mover : Option Value := none

def History.after (h : History) (action : Action) : History :=
  let done := action.attempt h.walk
  match action with
  | .query => { h with walk := done.2 }
  | .restart => { walk := done.2 }
  | _ =>
    if done.1 then
      { walk := done.2
        digested := true
        mover := (mover? h.walk.pageSize action.page).or h.mover }
    else { h with walk := done.2 }

/-- A walk with the bound moved, unless none was, at a stage. -/
def standing (p : SampleWalk) (found : Option Bound) (stage : Walk.Stage) : SampleWalk :=
  { found.elim p p.movedTo with stage }

theorem movedTo_standing (found : Option Bound) (stage : Walk.Stage) :
    (p.standing found stage).movedTo bound = p.standing (some bound) .midIteration := by
  obtain ⟨aggregation, order, _⟩ := p
  cases found <;> cases order <;> rfl

/-- A walk as it was opened, which a restart does not change. -/
def Opened (p : SampleWalk) : Prop :=
  (restart.run p).2 = p

theorem Opened.stage (opened : p.Opened) : p.stage = .fresh :=
  (congrArg SampleWalk.stage opened).symm

theorem restart_standing (found : Option Bound) (stage : Walk.Stage) :
    (restart.run (p.standing found stage)).2 = (restart.run p).2 := by
  obtain ⟨aggregation, order, _⟩ := p
  cases found <;> cases order <;> rfl

/-- A walk is the one that was opened, but for its stage and for the bound that was moved last. -/
structure Tracks (p : SampleWalk) (h : History) : Prop where
  moved : ∃ found : Option Bound, Option.Rel Bound.Marks found h.mover ∧
    h.walk = p.standing found h.walk.stage
  fresh : h.walk.stage = .fresh ↔ h.digested = false
  idle : h.walk.stage = .fresh → h.mover = none
  midway : h.walk.stage = .midIteration → h.mover.isSome = true

theorem tracks_opened (opened : p.Opened) : p.Tracks { walk := p } where
  moved := ⟨none, .none, rfl⟩
  fresh := iff_of_true opened.stage rfl
  idle _ := rfl
  midway mid := by cases opened.stage.symm.trans mid

/-- A page that was digested moves the bound to its timestamp, or ends the walk where it is. -/
theorem Tracks.past {h : History} {mover : Option Value} (tracks : p.Tracks h)
    (past : Past h.walk mover q) :
    p.Tracks { walk := q, digested := true, mover := mover.or h.mover } := by
  obtain ⟨found, marks, isWalk⟩ := tracks.moved
  cases mover with
  | some given =>
    obtain ⟨bound, marked, rfl⟩ := past
    have isMoved : h.walk.movedTo bound = p.standing (some bound) .midIteration := by
      rw [isWalk, movedTo_standing]
    rw [isMoved]
    exact
      { moved := ⟨some bound, .some marked, rfl⟩
        fresh := iff_of_false nofun nofun
        idle := nofun
        midway := fun _ => rfl }
  | none =>
    obtain rfl : q = h.walk.ended := past
    refine
      { moved := ⟨found, marks, ?_⟩
        fresh := iff_of_false nofun nofun
        idle := nofun
        midway := nofun }
    rw [isWalk]
    rfl

theorem Tracks.after {h : History} (opened : p.Opened) (tracks : p.Tracks h) (action : Action) :
    p.Tracks (h.after action) := by
  -- reading a page, being given one and failing to get one leave the same kind of walk
  have digest (digests : action.digests = true) : p.Tracks
      (if (action.attempt h.walk).1 then
        { walk := (action.attempt h.walk).2
          digested := true
          mover := (mover? h.walk.pageSize action.page).or h.mover }
      else { h with walk := (action.attempt h.walk).2 }) := by
    rcases action.attempt_cases digests h.walk with failed | ⟨q, done, past⟩
    · rw [failed]
      exact tracks
    · rw [done]
      exact tracks.past past
  cases action with
  | query =>
    have still : (Action.query.attempt h.walk).2 = h.walk :=
      congrArg Prod.snd (perform_nextQuery h.walk)
    rw [History.after, still]
    exact tracks
  | restart =>
    obtain ⟨found, -, isWalk⟩ := tracks.moved
    have back : (Action.restart.attempt h.walk).2 = p := by
      rw [isWalk]
      exact (restart_standing found _).trans opened
    rw [History.after, back]
    exact tracks_opened opened
  | readPage document => exact digest rfl
  | pass rows => exact digest rfl
  | endAtFailure => exact digest rfl

theorem tracks_foldl (opened : p.Opened) (actions : List Action) :
    p.Tracks (actions.foldl History.after { walk := p }) := by
  suffices ∀ h, p.Tracks h → p.Tracks (actions.foldl History.after h) from this _ (tracks_opened opened)
  induction actions with
  | nil => exact fun h tracks => tracks
  | cons action rest ih => exact fun h tracks => ih _ (tracks.after opened action)

/-! ### Queries after any sequence of actions -/

def movable (p : SampleWalk) : Option Bound :=
  match p.order with
  | .ascending => p.lower
  | .descending => p.upper

def askFor (name : String) (found : Option Bound) : Except QueryFault Query :=
  found.elim (.ok []) (boundParameter name)

variable {found : Option Bound} {stage : Walk.Stage} {name : String} {mover : Option Value}

theorem movable_standing : (p.standing found stage).movable = found.or p.movable := by
  obtain ⟨aggregation, order, _⟩ := p
  cases found <;> cases order <;> rfl

theorem parameters_ascending (found : Option Bound) (stage : Walk.Stage)
    (ascending : p.order = .ascending) :
    (p.standing found stage).lowerParameter =
        askFor (if stage = .fresh then "since" else "since_after") (found.or (some p.lowest)) ∧
      (p.standing found stage).upperParameter = askFor "to" p.upper := by
  obtain ⟨aggregation, order, _⟩ := p
  cases ascending
  cases found <;> cases stage <;> exact ⟨rfl, rfl⟩

theorem parameters_descending (found : Option Bound) (stage : Walk.Stage)
    (descending : p.order = .descending) :
    (p.standing found stage).lowerParameter = .ok [] ∧
      (p.standing found stage).upperParameter = askFor "to" (found.or p.upper) := by
  obtain ⟨aggregation, order, _⟩ := p
  cases descending
  cases found <;> exact ⟨rfl, rfl⟩

theorem askFor_eq {text? : Option String} (written : found.mapM Bound.parameter = .ok text?) :
    askFor name found = .ok (text?.toList.map (name, ·)) := by
  cases found with
  | none =>
    cases written
    rfl
  | some bound =>
    obtain ⟨text, isText, rfl⟩ := map_ok written
    show boundParameter name bound = _
    rw [boundParameter, isText]
    rfl

theorem mapM_parameter {unmoved : Option Bound} {text? : Option String}
    (marks : Option.Rel Bound.Marks found mover)
    (written : unmoved.mapM Bound.parameter = .ok text?) :
    (found.or unmoved).mapM Bound.parameter = .ok ((mover.bind Value.asked?).or text?) := by
  cases marks with
  | none => exact written
  | some marks =>
    obtain ⟨text, kept, asked⟩ := marks.text
    simp [Bound.parameter, kept, asked]

theorem get?_parameter {text? : Option String} {other : String} :
    FieldList.get? (text?.toList.map (name, ·)) other = if name = other then text? else none := by
  cases text? <;> simp [FieldList.get?_cons]

/-- The text of the timestamp that the window was moved to last. -/
def History.stamp (h : History) : Option String :=
  h.mover.bind Value.asked?

/-- What a query holds for a window from `first` to `last` after a history of the walk. -/
structure Follows (query : Query) (order : WalkOrder) (size : Int) (first : String)
    (last : Option String) (h : History) : Prop where
  limit : FieldList.get? query "limit" = if 0 < size then some (Walk.limitText size.toNat) else none
  limited : order = .descending → 0 < size
  stamped : h.digested = true → h.stamp.isSome = true
  since : FieldList.get? query "since" =
    if order = .ascending ∧ h.digested = false then some first else none
  sinceAfter : FieldList.get? query "since_after" =
    if order = .ascending ∧ h.digested = true then h.stamp else none
  upTo : FieldList.get? query "to" = if order = .ascending then last else h.stamp.or last

theorem Tracks.progress {h : History} (tracks : p.Tracks h) (more : h.walk.hasMore = true) :
    (h.walk.stage = .fresh ∧ h.digested = false ∧ h.stamp = none) ∨
      (h.walk.stage = .midIteration ∧ h.digested = true ∧ ∃ text, h.stamp = some text) := by
  obtain ⟨found, marks, -⟩ := tracks.moved
  cases stage : h.walk.stage with
  | fresh =>
    refine .inl ⟨rfl, tracks.fresh.mp stage, ?_⟩
    rw [History.stamp, tracks.idle stage]
    rfl
  | midIteration =>
    refine .inr ⟨rfl, ?_, ?_⟩
    · have moved : ¬h.digested = false := fun fresh => by cases stage.symm.trans (tracks.fresh.mpr fresh)
      simpa using moved
    · obtain ⟨given, isMover⟩ := Option.isSome_iff_exists.mp (tracks.midway stage)
      rw [isMover] at marks
      cases marks with
      | some marks =>
        obtain ⟨text, -, asked⟩ := marks.text
        exact ⟨text, by rw [History.stamp, isMover, Option.bind_some, asked]⟩
  | exhausted => exact absurd stage (of_decide_eq_true more)

theorem Tracks.size {h : History} (tracks : p.Tracks h) : h.walk.pageSize = p.pageSize := by
  obtain ⟨found, -, isWalk⟩ := tracks.moved
  rw [isWalk]
  obtain ⟨aggregation, order, _⟩ := p
  cases found <;> cases order <;> rfl

theorem query_askFor {lower upper : Option Bound} {lowerText upperText : Option String}
    (more : p.hasMore = true) (lowerAsked : p.lowerParameter = askFor name lower)
    (upperAsked : p.upperParameter = askFor "to" upper)
    (lowerWritten : lower.mapM Bound.parameter = .ok lowerText)
    (upperWritten : upper.mapM Bound.parameter = .ok upperText) :
    ∃ query, p.query = .ok query ∧
      FieldList.get? query "limit" =
        (if 0 < p.pageSize then some (Walk.limitText p.pageSize) else none) ∧
      FieldList.get? query "since" = (if name = "since" then lowerText else none) ∧
      FieldList.get? query "since_after" = (if name = "since_after" then lowerText else none) ∧
      FieldList.get? query "to" = upperText := by
  rw [askFor_eq lowerWritten] at lowerAsked
  rw [askFor_eq upperWritten] at upperAsked
  obtain ⟨parts, asked, distinct, holds⟩ := query_holds more lowerAsked upperAsked
  refine ⟨parts.sorted, asked, ?_⟩
  simp only [Query.get?_sorted distinct, holds, get?_limitParameter, get?_parameter]
  refine ⟨?_, ?_, ?_, ?_⟩ <;> simp [Nat.pos_iff_ne_zero]

theorem Tracks.follows {h : History} {size : Int} {first : String} {last : Option String}
    (tracks : p.Tracks h) (more : h.walk.hasMore = true) (isSize : p.pageSize = size.toNat)
    (limited : p.order = .descending → 0 < size)
    (firstWritten : p.order = .ascending → p.lowest.parameter = .ok first)
    (lastWritten : p.upper.mapM Bound.parameter = .ok last) :
    ∃ query, h.walk.query = .ok query ∧ Follows query p.order size first last h := by
  obtain ⟨found, marks, isWalk⟩ := tracks.moved
  have limit : (if 0 < h.walk.pageSize then some (Walk.limitText h.walk.pageSize) else none) =
      if 0 < size then some (Walk.limitText size.toNat) else none := by
    simp only [tracks.size, isSize, Int.lt_toNat, Int.natCast_zero]
  have progress := tracks.progress more
  have stamped : h.digested = true → h.stamp.isSome = true := by
    intro digested
    rcases progress with ⟨-, fresh, -⟩ | ⟨-, -, text, isText⟩
    · cases fresh.symm.trans digested
    · rw [isText]
      rfl
  cases order : p.order with
  | ascending =>
    obtain ⟨lower, upper⟩ := parameters_ascending found h.walk.stage order
    rw [← isWalk] at lower upper
    have lowerWritten : (some p.lowest).mapM Bound.parameter = .ok (some first) := by
      simp [firstWritten order]
    obtain ⟨query, asked, isLimit, since, sinceAfter, upTo⟩ :=
      query_askFor more lower upper (mapM_parameter marks lowerWritten) lastWritten
    rw [← History.stamp] at since sinceAfter
    refine ⟨query, asked, isLimit.trans limit, nofun, stamped, since.trans ?_, sinceAfter.trans ?_, upTo⟩
    · rcases progress with ⟨fresh, undigested, unmoved⟩ | ⟨midway, digested, -⟩
      · simp [fresh, undigested, unmoved]
      · simp [midway, digested]
    · rcases progress with ⟨fresh, undigested, -⟩ | ⟨midway, digested, text, isText⟩
      · simp [fresh, undigested]
      · simp [midway, digested, isText]
  | descending =>
    obtain ⟨lower, upper⟩ := parameters_descending found h.walk.stage order
    rw [← isWalk] at lower upper
    obtain ⟨query, asked, isLimit, since, sinceAfter, upTo⟩ :=
      query_askFor more (lower.trans (show _ = askFor "since" none from rfl)) upper rfl
        (mapM_parameter marks lastWritten)
    exact ⟨query, asked, isLimit.trans limit, fun _ => limited order, stamped, since, sinceAfter, upTo⟩

theorem opened_of_ofWindow {aggregation : Aggregation} {order : WalkOrder} {size : Option Int}
    {lower upper : Option DateTime}
    (opened : ofWindow aggregation order size lower upper = .ok p) : p.Opened := by
  obtain ⟨rfl, -⟩ := ofWindow_eq opened
  rfl

/-- After any sequence of actions, failed ones among them, a walk asks for the window it was opened
with until a page is digested, and then for what lies behind the timestamp of the last row of the
page that moved it last, of which it keeps both the moment and the text. -/
theorem query_after {aggregation : Aggregation} {order : WalkOrder} {size : Option Int}
    {lower upper : Option DateTime} {first : String} {last : Option String}
    (opened : ofWindow aggregation order size lower upper = .ok p)
    (firstWritten : Timestamp.format (lower.getD .unixEpoch) = .ok first)
    (lastWritten : upper.mapM Timestamp.format = .ok last) (actions : List Action) :
    let h := actions.foldl History.after { walk := p }
    (h.walk.query = .error .exhausted ↔ h.walk.hasMore = false) ∧
      (h.walk.hasMore = true →
        ∃ query, h.walk.query = .ok query ∧ Follows query order (size.getD 0) first last h) ∧
      ∀ given, h.mover = some given →
        ∃ bound, bound.Marks given ∧ h.walk.movable = some bound := by
  intro h
  have tracks : p.Tracks h := tracks_foldl (opened_of_ofWindow opened) actions
  obtain ⟨rfl, limited⟩ := ofWindow_eq opened
  have asks : h.walk.hasMore = true →
      ∃ query, h.walk.query = .ok query ∧ Follows query order (size.getD 0) first last h := by
    refine fun more => tracks.follows more rfl limited (fun ascending => ?_) ?_
    · cases ascending
      exact firstWritten
    · cases upper <;> exact lastWritten
  refine ⟨⟨fun refused => ?_, fun ended => ?_⟩, asks, fun given isMover => ?_⟩
  · by_contra more
    obtain ⟨query, asked, -⟩ := asks (by simpa using more)
    cases asked.symm.trans refused
  · rw [query, ended]
    rfl
  · obtain ⟨found, marks, isWalk⟩ := tracks.moved
    rw [isMover] at marks
    cases marks with
    | @some bound _ marks => exact ⟨bound, marks, by rw [isWalk, movable_standing]; rfl⟩

/-- A page that cannot be read, one that could not be had, and a page after the walk had ended. -/
theorem query_after_end :
    let night : DateTime := ⟨737425 * TimeOfDay.microsPerDay, some .utc, by decide⟩
    let row (given : String) := Value.object [("timestamp", .str given)]
    ∃ p, ofWindow .individual .ascending (some 1) none (some night) = .ok p ∧
      let h := [Action.pass [row "2020-01-01T00:00:00.123456789Z"], .query, .pass [row "soon"],
        .endAtFailure, .pass [row "2020-01-01T00:00:00.987654321Z"]].foldl History.after { walk := p }
      ∃ query, h.walk.query = .ok query ∧ FieldList.get? query "limit" = some "1" ∧
        FieldList.get? query "since" = none ∧
        FieldList.get? query "since_after" = some "2020-01-01T00:00:00.987654321Z" ∧
        FieldList.get? query "to" = some "2020-01-02T00:00:00Z" := by
  intro night row
  have opened : ∃ p, ofWindow .individual .ascending (some 1) none (some night) = .ok p := ⟨_, rfl⟩
  obtain ⟨p, opened⟩ := opened
  refine ⟨p, opened, ?_⟩
  intro h
  have first : Timestamp.format .unixEpoch = .ok "1970-01-01T00:00:00Z" := by decide +kernel
  have last : (some night).mapM Timestamp.format = .ok (some "2020-01-02T00:00:00Z") := by
    decide +kernel
  obtain ⟨-, asks, -⟩ := query_after opened first last
    [.pass [row "2020-01-01T00:00:00.123456789Z"], .query, .pass [row "soon"],
      .endAtFailure, .pass [row "2020-01-01T00:00:00.987654321Z"]]
  obtain rfl := (ofWindow_eq opened).1
  obtain ⟨query, asked, follows⟩ := asks (by decide +kernel)
  have digested : h.digested = true := by decide +kernel
  have stamp : h.stamp = some "2020-01-01T00:00:00.987654321Z" := by decide +kernel
  refine ⟨query, asked, follows.limit, follows.since.trans ?_, follows.sinceAfter.trans ?_, follows.upTo⟩
  · exact if_neg fun fresh => by cases digested.symm.trans fresh.2
  · exact (if_pos ⟨rfl, digested⟩).trans stamp

end SampleWalk

end Telemetry
