import Telemetry.Value.Fields
import Telemetry.Value.Literal
import Telemetry.Decimal.Format
import Telemetry.Text.Blank
import Telemetry.Text.Digit
import Telemetry.Text.Split
import Telemetry.Text.Encoding
import Telemetry.Json.Reader
import Telemetry.Json.Writer
import Telemetry.DeviceId
import Telemetry.Timestamp
import Telemetry.MappingType.Typing
import Telemetry.Payload
import Telemetry.Interface.Reader
import Telemetry.Interface.Address
import Telemetry.Trigger.Reader
import Telemetry.Device
import Telemetry.Snapshot.Strict
import Telemetry.Walk.Devices
import Telemetry.Walk.Samples
import Telemetry.Service.Assembly
import Telemetry.Log.Output
import Telemetry.Proofs.Calendar
import Telemetry.Proofs.Binary64
import Telemetry.Proofs.Decimal.Shortest
import Telemetry.Proofs.Text.Digits
import Telemetry.Proofs.Text.Utf8
import Telemetry.Proofs.Text.Percent
import Telemetry.Proofs.Text.Split
import Telemetry.Proofs.Value.Fields
import Telemetry.Proofs.Wording
import Telemetry.Proofs.Json.Content
import Telemetry.Proofs.Json.Numeral
import Telemetry.Proofs.Json.Trees
import Telemetry.Proofs.Json.RoundTrip
import Telemetry.Proofs.Schema.Decoder
import Telemetry.Proofs.Schema.Kinds
import Telemetry.Proofs.Schema.Completion
import Telemetry.Proofs.Timestamp.Written
import Telemetry.Proofs.Timestamp.Instant
import Telemetry.Proofs.Url.Form
import Telemetry.Proofs.Trigger.Rules
import Telemetry.Proofs.Trigger.Written
import Telemetry.Proofs.Trigger.RoundTrip
import Telemetry.Proofs.Trigger.WellFormed
import Telemetry.Proofs.Interface.Written
import Telemetry.Proofs.Interface.RoundTrip
import Telemetry.Proofs.Interface.Preservation
import Telemetry.Proofs.Interface.Queries
import Telemetry.Proofs.Snapshot.Leaves
import Telemetry.Proofs.Snapshot.Nesting
import Telemetry.Proofs.Snapshot.Completeness
import Telemetry.Proofs.Snapshot.RoundTrip
import Telemetry.Proofs.Snapshot.LostLeaves
import Telemetry.Proofs.Snapshot.Agreement
import Telemetry.Proofs.Snapshot.Accounting
import Telemetry.Proofs.Walk.Series
import Telemetry.Proofs.Walk.Cursor
import Telemetry.Proofs.Service.Retries
import Telemetry.Proofs.Service.CompleteWalk
import Telemetry.Proofs.Service.CompleteListing
import Telemetry.Proofs.Interface.Messages
import Telemetry.Proofs.Walk.Window
import Telemetry.Proofs.Json.Excesses
import Telemetry.Proofs.Service.Refusals
import Telemetry.Proofs.Interface.Resolution
import Telemetry.Proofs.Walk.RawPages
import Telemetry.Proofs.Snapshot.Subtrees
import Telemetry.Proofs.Service.Properties
import Telemetry.Proofs.Interface.Presence
import Telemetry.Proofs.Binary64.Integers
import Telemetry.Proofs.MappingType.Elementwise
import Telemetry.Proofs.MappingType.Precision
import Telemetry.Proofs.Timestamp.Spelling
import Telemetry.Proofs.Timestamp.Truncation
import Telemetry.Proofs.Timestamp.RoundTrip
import Telemetry.Proofs.Base64
import Telemetry.Proofs.Text.Hexadecimal
import Telemetry.Proofs.Timestamp.Acceptance
import Telemetry.Proofs.Uuid
import Telemetry.Proofs.DeviceId.Conversion
import Telemetry.Proofs.Payload
import Telemetry.Proofs.Service.Addresses
import Telemetry.Proofs.Defaults
