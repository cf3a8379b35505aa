import Telemetry.Proofs.Interface.RoundTrip
import Telemetry.Proofs.Trigger.RoundTrip
import Telemetry.Proofs.Trigger.WellFormed
import Telemetry.Proofs.Wording

/-!
Defaults of interfaces and triggers. Whatever a draft holds in its enumerations, its defaults leave a
member in each of them, which is the one that was held if there was one, and change nothing else.
-/

namespace Telemetry

open Wording (coerce_member coerce_ofOption settles_coerce)

/-! ### Interfaces -/

section

variable {Typing : Type}

namespace Mapping

structure Draft.Settles (m settled : Draft Typing) : Prop where
  reliability : Wording.Settles Reliability.unreliable m.reliability settled.reliability
  retention : Wording.Settles Retention.discard m.retention settled.retention
  databaseRetention : Wording.Settles DatabaseRetention.noTtl m.databaseRetention settled.databaseRetention
  others : settled = { m with
    reliability := settled.reliability
    retention := settled.retention
    databaseRetention := settled.databaseRetention }

theorem Draft.settles_withDefaults (m : Draft Typing) : m.Settles m.withDefaults :=
  ⟨settles_coerce _ _, settles_coerce _ _, settles_coerce _ _, rfl⟩

theorem Draft.withDefaults_withDefaults (m : Draft Typing) :
    m.withDefaults.withDefaults = m.withDefaults := by
  simp only [withDefaults, coerce_member]

theorem toDraft_withDefaults (m : Mapping) : m.withDefaults.toDraft = m.toDraft.withDefaults := by
  simp only [Draft.withDefaults, toDraft, coerce_ofOption]
  rfl

end Mapping

namespace Interface

structure Draft.Settles (i settled : Draft Typing) : Prop where
  aggregation : Wording.Settles Aggregation.individual i.aggregation settled.aggregation
  mappings : List.Forall₂ Mapping.Draft.Settles i.mappings settled.mappings
  others : settled = { i with aggregation := settled.aggregation, mappings := settled.mappings }

theorem Draft.settles_withDefaults (i : Draft Typing) : i.Settles i.withDefaults := by
  refine ⟨settles_coerce _ _, ?_, rfl⟩
  rw [withDefaults, List.forall₂_map_right_iff, List.forall₂_same]
  exact fun m _ => m.settles_withDefaults

theorem Draft.withDefaults_withDefaults (i : Draft Typing) :
    i.withDefaults.withDefaults = i.withDefaults := by
  have mappings : i.mappings.map (Mapping.Draft.withDefaults ∘ Mapping.Draft.withDefaults) =
      i.mappings.map Mapping.Draft.withDefaults :=
    List.map_congr_left fun m _ => m.withDefaults_withDefaults
  simp only [withDefaults, coerce_member, List.map_map, mappings]

theorem toDraft_withDefaults (i : Interface) : i.withDefaults.toDraft = i.toDraft.withDefaults := by
  have mappings : i.mappings.map (Mapping.toDraft ∘ Mapping.withDefaults) =
      i.mappings.map (Mapping.Draft.withDefaults ∘ Mapping.toDraft) :=
    List.map_congr_left fun m _ => m.toDraft_withDefaults
  simp only [Draft.withDefaults, toDraft, withDefaults, coerce_ofOption, List.map_map,
    mappings]
  rfl

theorem withDefaults_of_parse {content : Json.Document} {i : Interface} (parsed : parse content = .ok i) :
    i.toDraft.withDefaults = i.toDraft := by
  obtain ⟨_, _, -, read⟩ := fields_of_parse parsed
  obtain ⟨given, -, rfl⟩ := decodeFields_of_ofFields read
  rw [toDraft_withDefaults, Draft.withDefaults_withDefaults]

end Interface

end

/-! ### Triggers -/

namespace SimpleTrigger

structure Draft.Settles (s settled : Draft) : Prop where
  kind : Wording.Settles Kind.data s.kind settled.kind
  condition : Wording.Settles Condition.deviceConnected s.condition settled.condition
  operator : Wording.Settles MatchOperator.all s.operator settled.operator
  others : settled = { s with
    kind := settled.kind
    condition := settled.condition
    operator := settled.operator }

theorem Draft.settles_withDefaults (s : Draft) : s.Settles s.withDefaults :=
  ⟨settles_coerce _ _, settles_coerce _ _, settles_coerce _ _, rfl⟩

theorem Draft.withDefaults_withDefaults (s : Draft) : s.withDefaults.withDefaults = s.withDefaults := by
  simp only [withDefaults, coerce_member]

theorem toDraft_withDefaults (s : SimpleTrigger) :
    s.withDefaults.toDraft = s.toDraft.withDefaults := by
  simp only [Draft.withDefaults, toDraft, coerce_ofOption]
  rfl

end SimpleTrigger

namespace Trigger

structure Draft.Settles (t settled : Draft) : Prop where
  method : Wording.Settles HttpMethod.get t.action.method settled.action.method
  action : settled.action = { t.action with method := settled.action.method }
  simpleTriggers : List.Forall₂ SimpleTrigger.Draft.Settles t.simpleTriggers settled.simpleTriggers
  others : settled = { t with action := settled.action, simpleTriggers := settled.simpleTriggers }

theorem Draft.settles_withDefaults (t : Draft) : t.Settles t.withDefaults := by
  refine ⟨settles_coerce _ _, rfl, ?_, rfl⟩
  rw [withDefaults, List.forall₂_map_right_iff, List.forall₂_same]
  exact fun s _ => s.settles_withDefaults

theorem Draft.withDefaults_withDefaults (t : Draft) : t.withDefaults.withDefaults = t.withDefaults := by
  have simple : t.simpleTriggers.map (SimpleTrigger.Draft.withDefaults ∘ SimpleTrigger.Draft.withDefaults) =
      t.simpleTriggers.map SimpleTrigger.Draft.withDefaults :=
    List.map_congr_left fun s _ => s.withDefaults_withDefaults
  simp only [withDefaults, coerce_member, List.map_map, simple]

theorem toDraft_withDefaults (t : Trigger) : t.withDefaults.toDraft = t.toDraft.withDefaults := by
  have simple : t.simpleTriggers.map (SimpleTrigger.toDraft ∘ SimpleTrigger.withDefaults) =
      t.simpleTriggers.map (SimpleTrigger.Draft.withDefaults ∘ SimpleTrigger.toDraft) :=
    List.map_congr_left fun s _ => s.toDraft_withDefaults
  simp only [Draft.withDefaults, toDraft, Action.toDraft, withDefaults, coerce_ofOption, List.map_map, simple]
  rfl

theorem withDefaults_of_parse {content : Json.Document} {t : Trigger} (parsed : parse content = .ok t) :
    t.toDraft.withDefaults = t.toDraft := by
  obtain ⟨tree, _, _, -, -, read, rfl⟩ := fields_of_parse parsed
  obtain ⟨_, given, -, -, -, rfl⟩ := decodeFields_of_ofFields read
  have settled : { given.withDefaults with tornName := tornNameOf tree } =
      ({ given with tornName := tornNameOf tree } : Trigger).withDefaults := rfl
  rw [settled, toDraft_withDefaults, Draft.withDefaults_withDefaults]

end Trigger

/-- Defaults settle every enumeration of a draft, each with its own default, and leave all else as it
was. What has them stays as it is, and so does what was read. -/
theorem drafts_settle :
    (∀ (Typing : Type) (i : Interface.Draft Typing),
      i.Settles i.withDefaults ∧ i.withDefaults.withDefaults = i.withDefaults) ∧
    (∀ t : Trigger.Draft, t.Settles t.withDefaults ∧ t.withDefaults.withDefaults = t.withDefaults) ∧
    (∀ (content : Json.Document) (i : Interface), Interface.parse content = .ok i →
      i.toDraft.withDefaults = i.toDraft) ∧
    ∀ (content : Json.Document) (t : Trigger), Trigger.parse content = .ok t →
      t.toDraft.withDefaults = t.toDraft :=
  ⟨fun _ i => ⟨i.settles_withDefaults, i.withDefaults_withDefaults⟩,
    fun t => ⟨t.settles_withDefaults, t.withDefaults_withDefaults⟩,
    fun _ _ => Interface.withDefaults_of_parse, fun _ _ => Trigger.withDefaults_of_parse⟩

/-- What is read of the document on errors of a device, with the operator that it leaves out. -/
def Trigger.gateway : Trigger where
  name := "gateway"
  action := { url := "", method := some .put, headers := [("token", "1")], ignoreSslErrors := true }
  simpleTriggers := [{
    kind := some .device, condition := some .deviceError, deviceId := some "1", operator := some .all }]

theorem drafts_settle_of_read :
    (Interface.parse (.text (Json.writeString Interface.sensorsDocument)) = .ok Interface.sensors ∧
      Interface.sensors.toDraft.withDefaults = Interface.sensors.toDraft) ∧
    Trigger.parse (.text (Json.writeString (.object (Trigger.gatewayFields .null)))) =
        .ok Trigger.gateway ∧
      Trigger.gateway.toDraft.withDefaults = Trigger.gateway.toDraft := by
  have sensors : Interface.parse (.text (Json.writeString Interface.sensorsDocument)) =
      .ok Interface.sensors := by
    have fits : Json.Fits Json.nestingLimit Interface.sensorsDocument := by
      constructor <;> decide +kernel
    exact (Interface.parse_of_spells (Json.Document.spells_writeString fits)).trans (by decide +kernel)
  have gateway : Trigger.parse (.text (Json.writeString (.object (Trigger.gatewayFields .null)))) =
      .ok Trigger.gateway := by
    have fits : Json.Fits Json.nestingLimit (.object (Trigger.gatewayFields .null)) := by
      constructor <;> decide +kernel
    rw [Trigger.parse_of_spells (Json.Document.spells_writeString fits)]
    decide +kernel
  obtain ⟨-, -, interfaces, triggers⟩ := drafts_settle
  exact ⟨⟨sensors, interfaces _ _ sensors⟩, gateway, triggers _ _ gateway⟩

end Telemetry
