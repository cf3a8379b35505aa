import Telemetry.Proofs.Service.CompleteWalk
import Telemetry.Proofs.Walk.Devices
import Telemetry.Proofs.Url.Form

/-!
Walks over all devices of a realm. Each page is asked for with the parameters of the link to it, and
the pages of a walk are those that are linked one to the next, up to the first without a link.
-/

namespace Telemetry

/-! ### Queries -/

namespace DeviceWalk

/-- What is asked for under a name, where the link to the page has these parameters. -/
def asked (pageSize : Nat) (link : Query) (name : String) : Option String :=
  if name = "details" then some "false"
  else if name = "limit" then
    (FieldList.get? link name).or (if 0 < pageSize then some (Walk.limitText pageSize) else none)
  else FieldList.get? link name

/-- A query holds what is asked for and nothing else. -/
def Asks (pageSize : Nat) (link query : Query) : Prop :=
  (FieldList.names query).Nodup ∧ ∀ name, FieldList.get? query name = asked pageSize link name

/-- A walk over identifiers that was led on by these parameters. -/
structure LedBy (p : DeviceWalk) (pageSize : Nat) (link : Query) : Prop where
  more : p.hasMore = true
  size : p.pageSize = pageSize
  listsIds : p.format = .id
  cursor : p.cursor = .parameters link

variable {p : DeviceWalk} {pageSize : Nat} {link : Query}

theorem LedBy.query (led : p.LedBy pageSize link) (distinct : (FieldList.names link).Nodup) :
    ∃ query, p.query = .ok query ∧ Asks pageSize link query := by
  obtain ⟨more, rfl, listsIds, cursor⟩ := led
  have filled : (FieldList.names (p.filled link)).Nodup := nodup_filled distinct
  refine ⟨_, query_eq_filled more cursor, Query.nodup_names_sorted filled, fun name => ?_⟩
  rw [Query.get?_sorted filled, get?_filled, held, listsIds]
  rfl

/-! ### Pages -/

/-- The links of a page after which there is none. -/
def Ends (links : Value) : Prop :=
  links = .null ∨ ∃ fields, links = .object fields ∧
    (Value.fieldOrNull fields "next" = .null ∨ Value.fieldOrNull fields "next" = .str "")

/-- The links of a page that is followed by what a path with these parameters leads to. -/
def LeadsTo (path : List Char) (parameters : Query) (links : Value) : Prop :=
  ∃ fields, links = .object fields ∧
    Value.fieldOrNull fields "next" = .str (String.ofList (Query.link path parameters))

theorem optionalFields_object (fields : List (String × Value)) :
    (Value.object fields).optionalFields = .ok fields := by
  cases fields <;> rfl

theorem linksOf_object (fields : List (String × Value)) :
    Links.ofValue (.object fields) = .ok ⟨Links.given (Value.fieldOrNull fields "self"),
      Links.given (Value.fieldOrNull fields "next")⟩ := by
  rw [Links.ofValue, optionalFields_object]
  rfl

theorem optionalElements_list (items : List Value) :
    (Value.list items).optionalElements = .ok items := by
  cases items <;> rfl

def ended (p : DeviceWalk) : DeviceWalk :=
  { p with stage := .exhausted }

def ledOn (p : DeviceWalk) (link : Query) : DeviceWalk :=
  { p with cursor := .parameters link, stage := .midIteration }

theorem perform_followValue_of_ends {links : Value} (ends : Ends links) :
    (followValue links).perform p = (.ok (), p.ended) := by
  have none : ∃ own, Links.ofValue links = .ok ⟨own, .null⟩ := by
    rcases ends with rfl | ⟨fields, rfl, next⟩
    · exact ⟨.null, rfl⟩
    · refine ⟨Links.given (Value.fieldOrNull fields "self"), ?_⟩
      rw [linksOf_object]
      rcases next with next | next <;> rw [next] <;> rfl
  obtain ⟨own, read⟩ := none
  rw [followValue, read, Walk.Step.perform_bind, Walk.Step.perform_lift_ok]
  rfl

theorem linkCursor_link {path : List Char} (isPath : Query.IsPath path)
    (distinct : (FieldList.names link).Nodup) (given : ∀ parameter ∈ link, parameter.2 ≠ "") :
    linkCursor (.str (String.ofList (Query.link path link))) = .ok (.parameters link) := by
  rw [linkCursor, String.toList_ofList, linkParameters, Query.query_link isPath]
  show Except.ok (DeviceCursor.parameters (Query.read (Query.encode link))) = _
  rw [Query.read_encode distinct given]

theorem perform_followValue_of_leadsTo {path : List Char} {links : Value}
    (leadsTo : LeadsTo path link links) (isPath : Query.IsPath path)
    (distinct : (FieldList.names link).Nodup) (given : ∀ parameter ∈ link, parameter.2 ≠ "") :
    (followValue links).perform p = (.ok (), p.ledOn link) := by
  obtain ⟨fields, rfl, next⟩ := leadsTo
  have truthy : (Value.str (String.ofList (Query.link path link))).isTruthy = true := by
    obtain ⟨rest, rfl⟩ := List.head?_eq_some_iff.mp isPath.slash
    simp [Value.isTruthy, Query.link]
  have read : Links.ofValue (.object fields) =
      .ok ⟨Links.given (Value.fieldOrNull fields "self"),
        .str (String.ofList (Query.link path link))⟩ := by
    rw [linksOf_object, next, Links.given.eq_def (.str _), if_pos truthy]
  rw [followValue, read, Walk.Step.perform_bind, Walk.Step.perform_lift_ok]
  dsimp only
  rw [follow, if_pos truthy, linkCursor_link isPath distinct given]
  rfl

theorem perform_readPage_of_ids {fields : List (String × Value)} {ids : List String} {q : DeviceWalk}
    (listsIds : p.format = .id) (data : Value.fieldOrNull fields "data" = .list (ids.map .str))
    (followed : (followValue (Value.fieldOrNull fields "links")).perform p = (.ok (), q)) :
    (readPage (.value (.object fields))).perform p = (.ok (.ids ids), q) := by
  have document : Snapshot.readDocument (.value (.object fields)) = .ok (.object fields) := rfl
  have page : readRows p.format (ids.map .str) = .ok (.ids ids) := by
    have shown : (ids.map Value.str).map Value.display = ids := by
      rw [List.map_map]
      exact List.map_id ids
    rw [listsIds, readRows, shown]
  rw [readPage, document]
  simp only [Walk.Step.perform_bind, Walk.Step.perform_lift_ok, fieldsOf, data, optionalElements_list,
    Walk.Step.perform_get, page, followed]
  rfl

end DeviceWalk

namespace Service

open DeviceWalk (Asks Ends LeadsTo LedBy)
open WalkCall

/-! ### Listings -/

variable {g : Client} {pageSize : Nat} {link : Query} {ids : List String} {server : Server}
  {servers : Nat → Server} {p : DeviceWalk}

/-- A server answers a query for a page with these identifiers and with links of a kind. -/
def Lists (g : Client) (pageSize : Nat) (link : Query) (server : Server) (ids : List String)
    (links : Value → Prop) : Prop :=
  ∀ query, Asks pageSize link query → ∃ response fields,
    server (g.request deviceListPath (paramsOf query)) = .answered response ∧
    response.isOk = true ∧ Json.readOctets response.body = .ok (.object fields) ∧
    Value.fieldOrNull fields "data" = .list (ids.map .str) ∧ links (Value.fieldOrNull fields "links")

/-- Servers of a finite listing, whose first page is asked for with the given parameters: its pages,
and the parameters of the link to each page after the first. -/
inductive Listing (g : Client) (pageSize : Nat) :
    (Nat → Server) → Query → List (List String) → List Query → Prop
  | last {servers : Nat → Server} {link : Query} {ids : List String}
    (lists : Lists g pageSize link (servers 0) ids Ends) : Listing g pageSize servers link [ids] []
  | next {servers : Nat → Server} {link next : Query} {path : List Char} {ids : List String}
    {pages : List (List String)} {links : List Query}
    (isPath : Query.IsPath path) (distinct : (FieldList.names next).Nodup)
    (given : ∀ parameter ∈ next, parameter.2 ≠ "")
    (lists : Lists g pageSize link (servers 0) ids (LeadsTo path next))
    (later : Listing g pageSize (fun n => servers (n + 1)) next pages links) :
    Listing g pageSize servers link (ids :: pages) (next :: links)

theorem outcome_of_lists {links : Value → Prop} {q : DeviceWalk} (led : p.LedBy pageSize link)
    (distinct : (FieldList.names link).Nodup) (lists : Lists g pageSize link server ids links)
    (followed : ∀ v, links v → (DeviceWalk.followValue v).perform p = (.ok (), q)) :
    ∃ query, Asks pageSize link query ∧ g.nextDevices.outcome server p =
      (.ok (.ids ids), [g.request deviceListPath (paramsOf query)], q) := by
  obtain ⟨query, isQuery, asks⟩ := led.query distinct
  obtain ⟨response, fields, answered, isOk, body, data, leads⟩ := lists query asks
  have object : (Reply.answered response).response.bind Response.object = .ok fields :=
    Response.object_eq_ok_iff.mpr ⟨isOk, body⟩
  have page := DeviceWalk.perform_readPage_of_ids led.listsIds data (followed _ leads)
  refine ⟨query, asks, ?_⟩
  rw [outcome_nextDevices, isQuery]
  dsimp only
  rw [answered, object]
  dsimp only
  rw [page]
  rfl

theorem repeats_of_listing {pages : List (List String)} {links : List Query}
    (listing : Listing g pageSize servers link pages links) (led : p.LedBy pageSize link)
    (distinct : (FieldList.names link).Nodup) :
    ∃ (turns : List (Turn DevicePage)) (q : DeviceWalk) (queries : List Query),
      Repeats DeviceWalk.hasMore g.nextDevices servers p turns q ∧
      turns.map Turn.given = pages.map DevicePage.ids ∧
      turns.map Turn.sent = queries.map (fun query => [g.request deviceListPath (paramsOf query)]) ∧
      List.Forall₂ (Asks pageSize) (link :: links) queries := by
  -- the parameters that lead to the first page of a listing are those that led the walk to it
  induction listing generalizing p with
  | @last servers link ids lists =>
    obtain ⟨query, asks, called⟩ := outcome_of_lists led distinct lists
      fun v ends => DeviceWalk.perform_followValue_of_ends ends
    refine ⟨[⟨_, _⟩], p.ended, [query], .next led.more called (.done rfl), rfl, rfl, ?_⟩
    exact .cons asks .nil
  | @next servers link next path ids pages links isPath nextDistinct given lists later ih =>
    obtain ⟨query, asks, called⟩ := outcome_of_lists led distinct lists
      fun v leads => DeviceWalk.perform_followValue_of_leadsTo leads isPath nextDistinct given
    have ledOn : (p.ledOn next).LedBy pageSize next := ⟨rfl, led.size, led.listsIds, rfl⟩
    obtain ⟨turns, q, queries, run, pagesGiven, sent, asksAll⟩ := ih ledOn nextDistinct
    refine ⟨⟨_, _⟩ :: turns, q, query :: queries, .next led.more called run, ?_, ?_, ?_⟩
    · rw [List.map_cons, List.map_cons, pagesGiven]
    · rw [List.map_cons, List.map_cons, sent]
    · exact .cons asks asksAll

/-- Calls for the next page, made as long as there is more, come to an end without a failure. Each
sends one request, which asks for the parameters of the link to its page, and gives the identifiers
of that page. -/
theorem devices_complete {size : Int} {pages : List (List String)} {links : List Query}
    (opened : DeviceWalk.ofPageSize size .id = .ok p)
    (listing : Listing g size.toNat servers [] pages links) :
    ∃ (turns : List (Turn DevicePage)) (q : DeviceWalk) (queries : List Query),
      Repeats DeviceWalk.hasMore g.nextDevices servers p turns q ∧
      turns.map Turn.given = pages.map DevicePage.ids ∧
      turns.map Turn.sent = queries.map (fun query => [g.request deviceListPath (paramsOf query)]) ∧
      List.Forall₂ (Asks size.toNat) ([] :: links) queries := by
  have led : p.LedBy size.toNat [] := by
    unfold DeviceWalk.ofPageSize Walk.checkPageSize at opened
    split at opened
    · cases opened
    · cases opened
      exact ⟨rfl, rfl, rfl, rfl⟩
  exact repeats_of_listing listing led List.nodup_nil

/-- Two pages, with a link whose token holds what is reserved in a query and what is not ASCII. -/
theorem devices_complete_of_reserved_token :
    let link : Query := [("details", "true"), ("from_token", "a+b &=%é")]
    let first := Value.object [("data", .list [.str "d1", .str "d2"]),
      ("links", .object [("next", .str (String.ofList (Query.link "/v1/test/devices".toList link)))])]
    let second := Value.object [("data", .list [.str "d3"]), ("links", .object [("next", .null)])]
    let g : Client := { baseUrl := "http://localhost", realm := "test" }
    let servers : Nat → Server := fun n _ =>
      .answered ⟨200, (Json.writeString (if n = 0 then first else second)).toUTF8.toList⟩
    ∃ p turns q queries, DeviceWalk.ofPageSize 2 .id = .ok p ∧
      Repeats DeviceWalk.hasMore g.nextDevices servers p turns q ∧
      turns.map Turn.given = [.ids ["d1", "d2"], .ids ["d3"]] ∧
      turns.map Turn.sent = queries.map (fun query => [g.request deviceListPath (paramsOf query)]) ∧
      List.Forall₂ (Asks 2) [[], link] queries := by
  intro link first second g servers
  have isPath : Query.IsPath "/v1/test/devices".toList := by
    have plain : ("/v1/test/devices".toList.all fun c => c = '/' || Query.isUnreservedChar c) = true := by
      decide +kernel
    refine ⟨rfl, by decide, fun c member => ?_⟩
    simpa only [Bool.or_eq_true, decide_eq_true_eq] using List.all_eq_true.mp plain c member
  have firstRead : Json.readOctets (Json.writeString first).toUTF8.toList = .ok first := by
    decide +kernel
  have secondRead : Json.readOctets (Json.writeString second).toUTF8.toList = .ok second := by
    decide +kernel
  have ends : Listing g 2 (fun n => servers (n + 1)) link [["d3"]] [] :=
    .last fun _ _ => ⟨_, _, rfl, rfl, secondRead, rfl, .inr ⟨_, rfl, .inl rfl⟩⟩
  have listing : Listing g 2 servers [] [["d1", "d2"], ["d3"]] [link] :=
    .next isPath (by decide) (by decide)
      (fun _ _ => ⟨_, _, rfl, rfl, firstRead, rfl, _, rfl, rfl⟩) ends
  have opened : ∃ p, DeviceWalk.ofPageSize 2 .id = .ok p := ⟨_, rfl⟩
  obtain ⟨p, opened⟩ := opened
  obtain ⟨turns, q, queries, run, given, sent, asks⟩ := devices_complete opened listing
  exact ⟨p, turns, q, queries, opened, run, given, sent, asks⟩

end Service

end Telemetry
