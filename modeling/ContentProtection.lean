import ContentProtection.Text.Base64
import ContentProtection.Text.Hex
import ContentProtection.Text.Utf8
import ContentProtection.Text.Utf16
import ContentProtection.Text.Blank
import ContentProtection.ProtectionSystem
import ContentProtection.Key.Id
import ContentProtection.Key.State
import ContentProtection.Key.Status
import ContentProtection.Widevine
import ContentProtection.Xml.Document
import ContentProtection.Duration
import ContentProtection.Session.Fault
import ContentProtection.PlayReady.Header
import ContentProtection.Error
import ContentProtection.Pssh
import ContentProtection.Challenge
import ContentProtection.License.Data
import ContentProtection.Latch
import ContentProtection.OutputLink
import ContentProtection.Hls.KeyTag
import ContentProtection.Session.Unprotected
import ContentProtection.Native.Event
import ContentProtection.ClearKey.Session
import ContentProtection.Context
import ContentProtection.CommandLine
import ContentProtection.Main
import ContentProtection.Proofs.Bytes
import ContentProtection.Proofs.Search
import ContentProtection.Proofs.Challenge
import ContentProtection.Proofs.Pssh.RoundTrip
import ContentProtection.Proofs.Pssh.Grammar
import ContentProtection.Proofs.Pssh.Extent
import ContentProtection.Proofs.Protobuf.Wire
import ContentProtection.Proofs.Text.Ascii
import ContentProtection.Proofs.Text.Hex
import ContentProtection.Proofs.Text.Utf8
import ContentProtection.Proofs.Widevine
import ContentProtection.Proofs.Pssh.Recognition
import ContentProtection.Proofs.Helper
import ContentProtection.Proofs.Helper.History
import ContentProtection.Proofs.Helper.Registry
import ContentProtection.Proofs.Key.Id
import ContentProtection.Proofs.Termination
import ContentProtection.Proofs.Pssh.Widevine
import ContentProtection.Proofs.Cipher.Keystream
import ContentProtection.Proofs.ClearKey.Decryption
import ContentProtection.Proofs.Native.Run
import ContentProtection.Proofs.Native.Outline
import ContentProtection.Proofs.Native.Custody
import ContentProtection.Proofs.Native.Exchange
import ContentProtection.Proofs.Native.Operations
import ContentProtection.Proofs.Native.Activities
import ContentProtection.Proofs.Native.Lifecycle
import ContentProtection.Proofs.Native.Chronicle
import ContentProtection.Proofs.Native.Telling
import ContentProtection.Proofs.Native.Handoff
import ContentProtection.Proofs.Native.Readiness
import ContentProtection.Proofs.Native.Twins
import ContentProtection.Proofs.Native.Alike
import ContentProtection.Proofs.Native.Regeneration
import ContentProtection.Proofs.Native.LateEvents
import ContentProtection.Proofs.Interaction
import ContentProtection.Proofs.Latch
import ContentProtection.Proofs.Native.Footprint
import ContentProtection.Proofs.Native.Renewal
import ContentProtection.Proofs.Native.OutputGate
import ContentProtection.Proofs.ClearKey.Run
import ContentProtection.Proofs.OutputProtection
import ContentProtection.Proofs.Native.Host
import ContentProtection.Proofs.Native.Attendance
import ContentProtection.Proofs.ClearKey.Exchange
import ContentProtection.Proofs.Acquisition
import ContentProtection.Proofs.Uuid
import ContentProtection.Proofs.Text.Base64
import ContentProtection.Proofs.Text.Blank
import ContentProtection.Proofs.Text.Utf16
import ContentProtection.Proofs.Xml.Writing
import ContentProtection.Proofs.PlayReady.Object
import ContentProtection.Proofs.PlayReady.Header
import ContentProtection.Proofs.PlayReady.Records
import ContentProtection.Proofs.Pssh.PlayReady
import ContentProtection.Proofs.Hls.Attributes
import ContentProtection.Proofs.Hls.KeyTag
import ContentProtection.Proofs.Hls.Lookup
import ContentProtection.Proofs.Json.Grammar
import ContentProtection.Proofs.Json.Reading
import ContentProtection.Proofs.Json.Text
import ContentProtection.Proofs.Json.Record
import ContentProtection.Proofs.Json.Writing
import ContentProtection.Proofs.Pssh.KeyIds
import ContentProtection.Proofs.ClearKey.KeySet
import ContentProtection.Proofs.ClearKey.Acquisition
import ContentProtection.Proofs.ClearKey.Choice
import ContentProtection.Proofs.ClearKey.OtherTypes
import ContentProtection.Proofs.ClearKey.Spelling
import ContentProtection.Proofs.ClearKey.FailedDecryption
import ContentProtection.Proofs.ClearKey.KeyOrigin
import ContentProtection.Proofs.Native.Course
import ContentProtection.Proofs.Native.Requests
import ContentProtection.Proofs.Native.Exclusion
import ContentProtection.Proofs.Native.Transitions
import ContentProtection.Proofs.Native.Transport
import ContentProtection.Proofs.Native.Routing
import ContentProtection.Proofs.Native.Handles
import ContentProtection.Proofs.Native.Processing
import ContentProtection.Proofs.Native.OngoingExchange
import ContentProtection.Proofs.Native.KeyUpdates
import ContentProtection.Proofs.Yaml.Scalar
import ContentProtection.Proofs.Yaml.Layout
import ContentProtection.Proofs.Yaml.Lines
import ContentProtection.Proofs.Yaml.Content
import ContentProtection.Proofs.Yaml.Document
import ContentProtection.Proofs.Yaml.Value
import ContentProtection.Proofs.Configuration
