import Telemetry.Interface.Basic

/-!
Defaults of interfaces: an enumeration that is unset, or holds what is none of its members, takes
its weakest member. All other fields stay as they are.
-/

namespace Telemetry

namespace Mapping

def withDefaults (m : Mapping) : Mapping :=
  { m with
    reliability := some (m.reliability.getD .unreliable)
    retention := some (m.retention.getD .discard)
    databaseRetention := some (m.databaseRetention.getD .noTtl) }

def Draft.withDefaults {Typing : Type} (m : Draft Typing) : Draft Typing :=
  { m with
    reliability := .member (Wording.coerce m.reliability .unreliable)
    retention := .member (Wording.coerce m.retention .discard)
    databaseRetention := .member (Wording.coerce m.databaseRetention .noTtl) }

end Mapping

namespace Interface

def withDefaults (i : Interface) : Interface :=
  { i with
    aggregation := some (i.aggregation.getD .individual)
    mappings := i.mappings.map Mapping.withDefaults }

def Draft.withDefaults {Typing : Type} (i : Draft Typing) : Draft Typing :=
  { i with
    aggregation := .member (Wording.coerce i.aggregation .individual)
    mappings := i.mappings.map Mapping.Draft.withDefaults }

end Interface

end Telemetry
