import Mathlib.Data.List.DropRight
import Telemetry.Proofs.Except
import Telemetry.Proofs.Schema.Decoder
import Telemetry.Proofs.Service.Calls
import Telemetry.Proofs.Snapshot.Subtrees
import Telemetry.Service.Reads

/-!
Properties of an interface and of a part of it. What is read below a path is what is read of the whole
interface with a name within the path, however many slashes end the path that is asked for.
-/

namespace Telemetry.Service

open CallIn
open Snapshot (childPath Distinct descend flattenProperties isWithin pathText slashless)

variable {g : Client} {target : Target} {interface path : String} {server : Server}
  {request : Request} {data : Value} {keys : List String}

/-! ### Slashes at the end of a path -/

def endSlashed (path : String) (slashes : Nat) : String :=
  path ++ String.ofList (List.replicate slashes '/')

theorem dropEndSlashes_endSlashed (stays : path.toList.getLast? ≠ some '/') (slashes : Nat) :
    dropEndSlashes (endSlashed path slashes) = path := by
  have trimmed :
      (path.toList ++ List.replicate slashes '/').rdropWhile isSlash = path.toList := by
    induction slashes with
    | zero =>
      rw [List.replicate_zero, List.append_nil, List.rdropWhile_eq_self_iff]
      intro nonempty last
      apply stays
      rw [List.getLast?_eq_some_getLast nonempty]
      simpa [isSlash] using last
    | succ n ih =>
      rw [List.replicate_succ', ← List.append_assoc, List.rdropWhile_concat_pos _ _ _ rfl, ih]
  show String.ofList ((endSlashed path slashes).toList.rdropWhile isSlash) = path
  rw [endSlashed, String.toList_append, String.toList_ofList, trimmed, String.ofList_toList]

/-- The last segment ends in no slash, as it is not empty. -/
theorem getLast?_pathText (plain : ∀ key ∈ keys, '/' ∉ key.toList) (named : "" ∉ keys) :
    (pathText "" keys).toList.getLast? ≠ some '/' := by
  rcases List.eq_nil_or_concat keys with rfl | ⟨above, key, rfl⟩
  · decide
  · have isKey : key ∈ above.concat key := by simp
    have nonempty : key.toList ≠ [] := by
      intro empty
      obtain rfl : key = "" := String.toList_injective empty
      exact named isKey
    have ending : (pathText "" (above.concat key)).toList =
        (pathText "" above ++ "/").toList ++ key.toList := by
      simp [pathText, childPath]
    rw [ending, List.getLast?_append_of_ne_nil _ nonempty]
    exact fun last => plain key isKey (List.mem_of_getLast? last)

/-! ### Answers -/

/-- What a server gives as the data of its answer to a request. -/
def Gives (server : Server) (request : Request) (data : Value) : Prop :=
  ∃ fields, (server request).response.bind Response.object = .ok fields ∧
    Value.fieldOrNull fields "data" = data

theorem distinct_of_gives (gives : Gives server request data) :
    ∀ node, data = .object node → Distinct node := by
  obtain ⟨fields, answered, rfl⟩ := gives
  obtain ⟨response, -, isObject⟩ := bind_eq_ok.mp answered
  have read : (Json.Document.octets response.body).read = .ok (.object fields) :=
    (Response.object_eq_ok_iff.mp isObject).2
  have content : Json.isContent (.object fields) = true := Json.isContent_of_read (by nofun) read
  rw [Json.isContent, Bool.and_eq_true] at content
  exact Snapshot.distinct_of_isContent _ (isContent_fieldOrNull content.2)

theorem readProperties_of_gives
    (gives : Gives server
      (g.request (interfaceAddress target.device interface path target.kind) []) data) :
    ((g.readProperties target interface path).perform server).1 =
      .ok (if data.isNull then [] else flattenProperties (dropEndSlashes path) [] data) := by
  obtain ⟨fields, answered, rfl⟩ := gives
  obtain ⟨events, asked⟩ := start_askForObject (m := Id) g
    (interfaceAddress target.device interface path target.kind) [] server {}
  show (start (g.readProperties target interface path) server {} : Id _).1 = _
  unfold Client.readProperties
  rw [start_bind, asked, answered, pure_bind]
  dsimp only
  cases (Value.fieldOrNull fields "data").isNull with
  | true => rfl
  | false => rfl

/-- The properties below a path are those of the whole interface whose names are within the path, in
the same order. -/
theorem properties_below {whole part : Server} {node : List (String × Value)} {sub : Value}
    {slashes : Nat} (plain : slashless (.object node) = true) (named : "" ∉ keys)
    (leads : descend (.object node) keys = some sub) (isSet : sub.isNull = false)
    (all : Gives whole (g.request (interfaceAddress target.device interface "" target.kind) [])
      (.object node))
    (below : Gives part (g.request (interfaceAddress target.device interface
      (endSlashed (pathText "" keys) slashes) target.kind) []) sub) :
    ∃ found, ((g.readProperties target interface "").perform whole).1 = .ok found ∧
      ((g.readProperties target interface (endSlashed (pathText "" keys) slashes)).perform part).1 =
        .ok (found.filter fun entry => isWithin (pathText "" keys) entry.1) := by
  have onPath := Snapshot.slashless_of_descend keys _ plain leads
  refine ⟨flattenProperties "" [] (.object node), readProperties_of_gives all, ?_⟩
  rw [readProperties_of_gives below, isSet, if_neg Bool.false_ne_true,
    dropEndSlashes_endSlashed (getLast?_pathText onPath named),
    Snapshot.flattenProperties_descend (distinct_of_gives all) plain leads]

/-- A subtree beside others whose names start with its own, asked for with two slashes. -/
theorem properties_below_sensor :
    let sub := Value.object [("unit", .str "C"), ("units", .null), ("tags", .list [.int 1])]
    let node : List (String × Value) := [("a2", .bool true),
      ("a", .object [("bc", .int 2), ("b", sub), ("b c", .object [("unit", .int 3)])]),
      ("ab", .int 4)]
    let g : Client := { baseUrl := "http://localhost/", realm := "test" }
    let target : Target := { device := "f0VMRgIBAQAAAAAAAAAAAA" }
    let answer (data : Value) : Server := fun _ =>
      .answered ⟨200, (Json.writeString (.object [("data", data)])).toUTF8.toList⟩
    ((g.readProperties target "com.example.Sensors" "").perform (answer (.object node))).1 =
        .ok [("/a2", .bool true), ("/a/bc", .int 2), ("/a/b/unit", .str "C"), ("/a/b/units", .null),
          ("/a/b/tags", .list [.int 1]), ("/a/b c/unit", .int 3), ("/ab", .int 4)] ∧
      ((g.readProperties target "com.example.Sensors" "/a/b//").perform (answer sub)).1 =
        .ok [("/a/b/unit", .str "C"), ("/a/b/units", .null), ("/a/b/tags", .list [.int 1])] := by
  intro sub node g target answer
  have read : ∀ data ∈ [Value.object node, sub], Json.readOctets
      (Json.writeString (.object [("data", data)])).toUTF8.toList = .ok (.object [("data", data)]) := by
    decide +kernel
  have gives : ∀ data ∈ [Value.object node, sub], ∀ request, Gives (answer data) request data := by
    intro data member request
    exact ⟨[("data", data)], Response.object_eq_ok_iff.mpr ⟨rfl, read data member⟩, rfl⟩
  have address : endSlashed (pathText "" ["a", "b"]) 2 = "/a/b//" := by decide +kernel
  have all := gives (.object node) (by simp)
  have whole := readProperties_of_gives (all (g.request
    (interfaceAddress target.device "com.example.Sensors" "" target.kind) []))
  obtain ⟨found, same, below⟩ := properties_below (by decide +kernel) (by decide) rfl rfl (all _)
    (gives sub (by simp) (g.request (interfaceAddress target.device "com.example.Sensors"
      (endSlashed (pathText "" ["a", "b"]) 2) target.kind) []))
  rw [address] at below
  rw [below, whole]
  obtain rfl := Except.ok.inj (same.symm.trans whole)
  exact ⟨by decide +kernel, by decide +kernel⟩

end Telemetry.Service
