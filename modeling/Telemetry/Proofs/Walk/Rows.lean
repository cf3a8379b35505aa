import Telemetry.Proofs.Sample
import Telemetry.Walk.Samples

/-!
Rows of pages. Decoding a row keeps all that a window is moved by: the moment of its timestamp, and the
text of it where the timestamp is one.
-/

namespace Telemetry

theorem Timestamp.isTruthy_of_parse {given : Value} {t : DateTime} (read : parse given = .ok t) :
    given.isTruthy = true := by
  cases given with
  | str text => exact decide_eq_true (ne_empty_of_parseText read)
  | dateTime t => rfl
  | _ => cases read

namespace SampleWalk

open Sample (timestampName)
open Value (fieldOrNull)

variable {given v : Value} {t : DateTime} {fields : List (String × Value)}

def keptText? : Value → Option String
  | .str text => some text
  | _ => none

theorem wire_of_parse (read : Timestamp.parse given = .ok t) :
    (if wireText given = "" then none else some (wireText given)) = keptText? given := by
  cases given with
  | str text => exact if_neg (Timestamp.ne_empty_of_parseText read)
  | dateTime moment => rfl
  | _ => cases read

theorem fieldsBound_eq (read : Timestamp.parse (fieldOrNull fields timestampName) = .ok t) :
    fieldsBound fields = some <$> boundAt t (keptText? (fieldOrNull fields timestampName)) := by
  rw [fieldsBound, if_pos (Timestamp.isTruthy_of_parse read), read]
  generalize fieldOrNull fields timestampName = given
  cases given <;> rfl

/-- A row that was decoded leaves the window where the row of the document does. -/
theorem bound_decoded {aggregation : Aggregation} {row : Snapshot.Row}
    (decoded : Snapshot.decodeRow aggregation v = .ok row) :
    (PageRow.decoded row).bound = (PageRow.raw v).bound := by
  cases aggregation with
  | individual =>
    cases v with
    | object node =>
      obtain ⟨sample, isSample, rfl⟩ := map_ok decoded
      obtain ⟨given, held, parsed, wire⟩ := Sample.timestamp_of_ofFields (mapError_ok_iff.mp isSample)
      have field : fieldOrNull node timestampName = given := by simp [fieldOrNull, held]
      show rowBound (.individual sample) = fieldsBound node
      rw [fieldsBound_eq (field ▸ parsed), field, ← wire_of_parse parsed, rowBound, wire]
    | _ => cases decoded
  | object =>
    obtain ⟨sample, isSample, rfl⟩ := map_ok decoded
    cases v with
    | object node =>
      obtain ⟨given, wire⟩ := ObjectSample.timestamp_of_ofFields (mapError_ok_iff.mp isSample)
      show rowBound (.object sample) = fieldsBound node
      unfold momentIfGiven at given
      split at given
      · obtain ⟨t, parsed, same⟩ := map_ok given
        rw [fieldsBound_eq parsed, ← wire_of_parse parsed, rowBound, wire, ← same]
      · -- a timestamp that counts as not given ends the walk either way
        rename_i missing
        rw [fieldsBound, if_neg missing, rowBound, ← Except.ok.inj given]
    | _ => cases isSample

end SampleWalk

end Telemetry
