import Telemetry.Proofs.Walk.Window

/-!
Pages as documents hold them against pages that were decoded. A page that can be decoded moves a walk
to the same place either way.
-/

namespace Telemetry.SampleWalk

open Walk.Step

variable {p q : SampleWalk}

/-- Of the rows of a page only their number and the bound of the last one count. -/
theorem pass_congr {rows others : List PageRow}
    (same : List.Forall₂ (fun row other => row.bound = other.bound) rows others) :
    (pass rows).perform p = (pass others).perform p := by
  have last := rel_getLast? same
  rw [perform_pass, perform_pass, same.length_eq]
  generalize rows.getLast? = lastRow at last
  generalize others.getLast? = lastOther at last
  cases last with
  | none => rfl
  | some bound => simp only [bound]

/-- A page that can be read moves the walk to where its rows, given as the document holds them, move it,
in either order and for either aggregation; from there the next query is the same. -/
theorem passValue_of_readPage {document : Json.Document} {rows : List Value}
    {content : Snapshot.Content} (held : Snapshot.readData document = .ok (.list rows))
    (read : (readPage document).perform p = (.ok content, q)) :
    (passValue (.list rows)).perform p = (.ok (), q) := by
  obtain ⟨data, isData, isPage, passed⟩ := readRows_of_readPage read
  obtain rfl := Except.ok.inj (held.symm.trans isData)
  obtain ⟨found, decoded, rfl⟩ := map_ok isPage
  rw [perform_passValue_list, ← passed]
  apply pass_congr
  rw [List.forall₂_map_left_iff, List.forall₂_map_right_iff]
  exact (mapM_ok.mp decoded).imp fun row sample isSample => (bound_decoded isSample).symm

/-- A walk downwards over objects, moved to a timestamp that is finer than what is kept of a moment. -/
theorem passValue_of_readPage_fine :
    let row (given : String) := Value.object [("speed", .int 3), ("timestamp", .str given)]
    let rows := [row "2020-01-01T00:00:00.987654321Z", row "2020-01-01T00:00:00.123456789Z"]
    ∃ p, ofWindow .object .descending (some 2) none none = .ok p ∧ ∃ content q,
      (readPage (.value (.object [("data", .list rows)]))).perform p = (.ok content, q) ∧
      (passValue (.list rows)).perform p = (.ok (), q) ∧ q.stage = .midIteration ∧
      q.upper.bind Bound.text = some "2020-01-01T00:00:00.123456789Z" := by
  intro row rows
  refine ⟨_, rfl, ?_⟩
  generalize opened : SampleWalk.mk _ _ _ _ _ _ _ _ = p
  let step := (readPage (.value (.object [("data", .list rows)]))).perform p
  have moved : step.1.isOk = true ∧ step.2.stage = .midIteration ∧
      step.2.upper.bind Bound.text = some "2020-01-01T00:00:00.123456789Z" := by
    subst opened
    decide +kernel
  rcases read : step with ⟨fault | content, q⟩
  · rw [read] at moved
    cases moved.1
  · rw [read] at moved
    exact ⟨content, q, read, passValue_of_readPage rfl read, moved.2⟩

end Telemetry.SampleWalk
