import Telemetry.Trigger.Basic

/-!
Defaults of triggers: an enumeration that is unset, or holds what is none of its members, takes its
default. A method that is not recognised becomes `get` here, while reading a document refuses it.
-/

namespace Telemetry

namespace SimpleTrigger

def withDefaults (t : SimpleTrigger) : SimpleTrigger :=
  { t with
    kind := some (t.kind.getD .data)
    condition := some (t.condition.getD .deviceConnected)
    operator := some (t.operator.getD .all) }

def Draft.withDefaults (t : Draft) : Draft :=
  { t with
    kind := .member (Wording.coerce t.kind .data)
    condition := .member (Wording.coerce t.condition .deviceConnected)
    operator := .member (Wording.coerce t.operator .all) }

end SimpleTrigger

namespace Trigger

def withDefaults (t : Trigger) : Trigger :=
  { t with
    action := { t.action with method := some (t.action.method.getD .get) }
    simpleTriggers := t.simpleTriggers.map SimpleTrigger.withDefaults }

def Draft.withDefaults (t : Draft) : Draft :=
  { t with
    action := { t.action with method := .member (Wording.coerce t.action.method .get) }
    simpleTriggers := t.simpleTriggers.map SimpleTrigger.Draft.withDefaults }

end Trigger

end Telemetry
