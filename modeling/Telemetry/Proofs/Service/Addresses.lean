import Telemetry.Proofs.Url.Form
import Telemetry.Service.Reads

/-!
Addresses of interfaces. The identifier of a device has a segment of its own in them, whatever characters
it holds, so that addresses of different devices differ.
-/

namespace Telemetry

/-! ### Escaped text -/

namespace Text.Percent

/-- Characters that are not reserved, and escapes of two hexadecimal digits. -/
inductive IsEscaped : List Char → Prop where
  | nil : IsEscaped []
  | plain {c : Char} {rest : List Char} (unreserved : Query.isUnreservedChar c = true)
      (escaped : IsEscaped rest) : IsEscaped (c :: rest)
  | escape {high low : Char} {rest : List Char} (isHigh : (hexValue? high).isSome = true)
      (isLow : (hexValue? low).isSome = true) (escaped : IsEscaped rest) :
      IsEscaped ('%' :: high :: low :: rest)

variable {cs rest : List Char}

theorem IsEscaped.slash_not_mem (escaped : IsEscaped cs) : '/' ∉ cs := by
  induction escaped with
  | nil => exact List.not_mem_nil
  | plain unreserved _ ih =>
    intro member
    rcases List.mem_cons.mp member with rfl | later
    · exact absurd unreserved (by decide)
    · exact ih later
  | escape isHigh isLow _ ih =>
    intro member
    simp only [List.mem_cons] at member
    rcases member with percent | rfl | rfl | later
    · exact absurd percent (by decide)
    · exact absurd isHigh (by decide)
    · exact absurd isLow (by decide)
    · exact ih later

theorem IsEscaped.encodeOctet_append (escaped : IsEscaped rest) (b : UInt8) :
    IsEscaped (encodeOctet b ++ rest) := by
  unfold encodeOctet
  split_ifs with unreserved
  · exact .plain unreserved escaped
  · apply IsEscaped.escape
    · rw [hexValue?_upperHex, Option.isSome_some]
    · rw [hexValue?_upperHex, Option.isSome_some]
    · exact escaped

theorem isEscaped_encode (cs : List Char) : IsEscaped (encode cs) := by
  unfold encode
  induction encodeUtf8 cs with
  | nil => exact .nil
  | cons b others ih =>
    rw [List.flatMap_cons]
    exact ih.encodeOctet_append b

theorem encode_inj {ds : List Char} : encode cs = encode ds ↔ cs = ds := by
  constructor
  · intro same
    have decoded := congrArg decode same
    rwa [decode_encode, decode_encode] at decoded
  · exact congrArg encode

end Text.Percent

namespace Service

open DeviceId (resolve)
open Text (pieces pieces_append)
open Text.Percent (IsEscaped encode)

/-! ### Segments -/

theorem resolve_cases (target : Target) : resolve target.kind target.device = .deviceId ∨
    resolve target.kind target.device = .deviceAlias := by
  cases target.kind with
  | autodiscover =>
    by_cases valid : DeviceId.isValid target.device = true
    · exact .inl (if_pos valid)
    · exact .inr (if_neg valid)
  | deviceId => exact .inl rfl
  | deviceAlias => exact .inr rfl

/-- The collection of a target, by what its identifier was resolved to. -/
theorem collectionOf_cases (target : Target) :
    (resolve target.kind target.device = .deviceId ∧
      collectionOf (resolve target.kind target.device) = "devices") ∨
    (resolve target.kind target.device = .deviceAlias ∧
      collectionOf (resolve target.kind target.device) = "devices-by-alias") := by
  rcases resolve_cases target with resolved | resolved
  · exact .inl ⟨resolved, by rw [resolved]; rfl⟩
  · exact .inr ⟨resolved, by rw [resolved]; rfl⟩

theorem collectionOf_inj {target other : Target} :
    collectionOf (resolve target.kind target.device) = collectionOf (resolve other.kind other.device) ↔
      resolve target.kind target.device = resolve other.kind other.device := by
  constructor
  · intro same
    rcases collectionOf_cases target with ⟨left, collection⟩ | ⟨left, collection⟩ <;>
      rcases collectionOf_cases other with ⟨right, otherCollection⟩ | ⟨right, otherCollection⟩
    · rw [left, right]
    · rw [collection, otherCollection] at same
      exact absurd same (by decide)
    · rw [collection, otherCollection] at same
      exact absurd same (by decide)
    · rw [left, right]
  · exact congrArg collectionOf

theorem pieces_interfaceAddress (target : Target) (interface path : String) :
    pieces '/' (interfaceAddress target.device interface path target.kind).toList =
      (collectionOf (resolve target.kind target.device)).toList :: encode target.device.toList ::
        "interfaces".toList :: pieces '/' (interface ++ path).toList := by
  have collection : '/' ∉ (collectionOf (resolve target.kind target.device)).toList := by
    rcases collectionOf_cases target with ⟨-, same⟩ | ⟨-, same⟩ <;> rw [same] <;> decide
  have written : (interfaceAddress target.device interface path target.kind).toList =
      (collectionOf (resolve target.kind target.device)).toList ++ '/' ::
        (encode target.device.toList ++ '/' ::
          ("interfaces".toList ++ '/' :: (interface ++ path).toList)) := by
    simp [interfaceAddress]
  rw [written, pieces_append collection,
    pieces_append (Text.Percent.isEscaped_encode _).slash_not_mem, pieces_append (by decide)]

/-! ### Addresses -/

/-- An address begins with the collection, then has the identifier escaped in one segment, and what
follows does not reach into that. So it tells which device is meant, and of the interface and the path
it tells what they are together. -/
theorem interfaceAddress_confines :
    (∀ (target : Target) (interface path : String), ∃ collection segment rest,
      pieces '/' (interfaceAddress target.device interface path target.kind).toList =
        collection :: segment :: "interfaces".toList :: rest ∧
      (resolve target.kind target.device = .deviceId ∧ collection = "devices".toList ∨
        resolve target.kind target.device = .deviceAlias ∧
          collection = "devices-by-alias".toList) ∧
      IsEscaped segment ∧ Text.Percent.decode segment = target.device.toList) ∧
    ∀ (target other : Target) (interface path otherInterface otherPath : String),
      interfaceAddress target.device interface path target.kind =
          interfaceAddress other.device otherInterface otherPath other.kind ↔
        resolve target.kind target.device = resolve other.kind other.device ∧
          target.device = other.device ∧ interface ++ path = otherInterface ++ otherPath := by
  constructor
  · intro target interface path
    refine ⟨_, _, _, pieces_interfaceAddress target interface path, ?_,
      Text.Percent.isEscaped_encode _, Text.Percent.decode_encode _⟩
    rcases collectionOf_cases target with ⟨resolved, same⟩ | ⟨resolved, same⟩
    · exact .inl ⟨resolved, congrArg String.toList same⟩
    · exact .inr ⟨resolved, congrArg String.toList same⟩
  · intro target other interface path otherInterface otherPath
    constructor
    · intro same
      have cut := congrArg (fun address : String => pieces '/' address.toList) same
      simp only [pieces_interfaceAddress, List.cons.injEq, true_and] at cut
      obtain ⟨collection, device, rest⟩ := cut
      -- Names and paths are not escaped, so where one ends and the other begins is lost.
      have joined := congrArg (Text.join ['/']) rest
      rw [Text.join_pieces, Text.join_pieces] at joined
      exact ⟨collectionOf_inj.mp (String.toList_inj.mp collection),
        String.toList_inj.mp (Text.Percent.encode_inj.mp device), String.toList_inj.mp joined⟩
    · rintro ⟨resolved, device, rest⟩
      unfold interfaceAddress
      rw [resolved, device, String.append_assoc, rest, ← String.append_assoc]

example : interfaceAddress "kitchen/50%" "org.example.Sensors" "/a" .autodiscover =
    "devices-by-alias/kitchen%2F50%25/interfaces/org.example.Sensors/a" := by
  decide +kernel

end Service

end Telemetry
