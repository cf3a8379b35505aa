import Telemetry.Proofs.Except
import Telemetry.Sample

/-! Samples and their timestamps, those above all that are a text which can be read. -/

namespace Telemetry

open Timestamp (parseText)

variable {fields : List (String × Value)} {text : String} {t : DateTime}

theorem Timestamp.ne_empty_of_parseText (read : parseText text = .ok t) : text ≠ "" := by
  rintro rfl
  cases read

theorem momentIfGiven_text (read : parseText text = .ok t) :
    momentIfGiven (.str text) = .ok (some t) := by
  have given : (Value.str text).isTruthy = true :=
    decide_eq_true (Timestamp.ne_empty_of_parseText read)
  have parsed : Timestamp.parse (.str text) = .ok t := read
  rw [momentIfGiven, if_pos given, parsed]
  rfl

/-- The timestamp of a sample is a text that can be read. -/
def Sample.IsDated (fields : List (String × Value)) : Prop :=
  ∃ text t, FieldList.get? fields timestampName = some (.str text) ∧ parseText text = .ok t

/-- The moment of reception of a sample is left out, or can be read. -/
def Sample.IsReceived (fields : List (String × Value)) : Prop :=
  ∃ reception, momentIfGiven (Value.fieldOrNull fields "reception_timestamp") = .ok reception

theorem exists_ok_iff {ε α : Type} {r : Except ε α} :
    (∃ a, r = .ok a) ↔ r.toOption.isSome = true := by
  cases r <;> simp [Except.toOption]

def Value.isReadable : Value → Bool
  | .str text => (parseText text).toOption.isSome
  | _ => false

theorem Sample.isDated_iff :
    IsDated fields ↔ (FieldList.get? fields timestampName).any Value.isReadable = true := by
  unfold IsDated
  rw [Option.any_eq_true]
  constructor
  · rintro ⟨text, t, held, read⟩
    exact ⟨_, held, exists_ok_iff.mp ⟨t, read⟩⟩
  · rintro ⟨given, held, readable⟩
    cases given with
    | str text =>
      obtain ⟨t, read⟩ := exists_ok_iff.mpr readable
      exact ⟨text, t, held, read⟩
    | _ => cases readable

instance : Decidable (Sample.IsDated fields) :=
  decidable_of_iff _ Sample.isDated_iff.symm

instance : Decidable (Sample.IsReceived fields) :=
  decidable_of_iff _ exists_ok_iff.symm

/-- What may be wrong then is the moment of reception alone. -/
theorem Sample.ofFields_text (held : FieldList.get? fields timestampName = some (.str text))
    (read : parseText text = .ok t) :
    ofFields fields =
      ((momentIfGiven (Value.fieldOrNull fields "reception_timestamp")).mapError .badTimestamp).map
        fun reception => ⟨Value.fieldOrNull fields "value", t, reception, text⟩ := by
  have parsed : Timestamp.parse (.str text) = .ok t := read
  simp only [ofFields, held, parsed]
  rcases momentIfGiven (Value.fieldOrNull fields "reception_timestamp") with _ | _ <;> rfl

theorem ObjectSample.ofFields_text
    (held : FieldList.get? fields Sample.timestampName = some (.str text))
    (read : parseText text = .ok t) :
    ofFields fields = .ok ⟨FieldList.erase fields Sample.timestampName, some t, text⟩ := by
  have given : Value.fieldOrNull fields Sample.timestampName = .str text := by
    rw [Value.fieldOrNull, held]
    rfl
  rw [ofFields, given, momentIfGiven_text read]
  rfl

/-! ### What is kept of a timestamp -/

theorem Sample.timestamp_of_ofFields {sample : Sample} (decoded : ofFields fields = .ok sample) :
    ∃ given, FieldList.get? fields timestampName = some given ∧
      Timestamp.parse given = .ok sample.timestamp ∧ sample.wire = wireText given := by
  rw [ofFields] at decoded
  split at decoded
  · cases decoded
  · rename_i given held
    simp only [bind_eq_ok, pure_eq_ok, mapError_ok_iff] at decoded
    obtain ⟨timestamp, read, reception, -, rfl⟩ := decoded
    exact ⟨given, held, read, rfl⟩

theorem ObjectSample.timestamp_of_ofFields {sample : ObjectSample}
    (decoded : ofFields fields = .ok sample) :
    momentIfGiven (Value.fieldOrNull fields Sample.timestampName) = .ok sample.timestamp ∧
      sample.wire = wireText (Value.fieldOrNull fields Sample.timestampName) := by
  simp only [ofFields, bind_eq_ok, pure_eq_ok, mapError_ok_iff] at decoded
  obtain ⟨timestamp, read, rfl⟩ := decoded
  exact ⟨read, rfl⟩

end Telemetry
