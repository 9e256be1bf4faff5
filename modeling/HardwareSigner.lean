import HardwareSigner.Body.Field
import HardwareSigner.Body.Varint
import HardwareSigner.Bytes
import HardwareSigner.Client.Basic
import HardwareSigner.Codec.Basic
import HardwareSigner.Codec.Packed
import HardwareSigner.Codec.Raw
import HardwareSigner.Device.Basic
import HardwareSigner.Device.Bridge
import HardwareSigner.Device.Select
import HardwareSigner.Duration
import HardwareSigner.Engine.Basic
import HardwareSigner.Engine.Call
import HardwareSigner.Engine.Intake
import HardwareSigner.Engine.Reading
import HardwareSigner.Engine.Task
import HardwareSigner.Event
import HardwareSigner.Failure
import HardwareSigner.Frame.Basic
import HardwareSigner.Frame.Buffer
import HardwareSigner.Frame.Header
import HardwareSigner.Frame.Reader
import HardwareSigner.Link.Hid
import HardwareSigner.Link.Received
import HardwareSigner.Link.Scripted
import HardwareSigner.Link.Stream
import HardwareSigner.Listener.Id
import HardwareSigner.Listener.Mailbox
import HardwareSigner.Listener.Operation
import HardwareSigner.Listener.Receiver
import HardwareSigner.Listener.Registry
import HardwareSigner.MessagePack.Record
import HardwareSigner.MessagePack.Value
import HardwareSigner.MessageType
import HardwareSigner.Report.Chunk
import HardwareSigner.Report.Reassembly
import HardwareSigner.Script.Engine
import HardwareSigner.Script.Mailbox
import HardwareSigner.Script.Registry
import HardwareSigner.SessionId
import HardwareSigner.Settings.Basic
import HardwareSigner.Settings.Text
import HardwareSigner.Task.Lock
import HardwareSigner.Task.Rehearsal
import HardwareSigner.Task.World
import HardwareSigner.Text.Hex
import HardwareSigner.Text.Quoted
import HardwareSigner.Text.Unmarked
import HardwareSigner.Text.Utf8
import HardwareSigner.Toml.Document
import HardwareSigner.Toml.Scan
import HardwareSigner.Toml.Value
import HardwareSigner.Toml.Writer
import HardwareSigner.Proofs.Frame.Pieces
import HardwareSigner.Proofs.Frame.Reading
import HardwareSigner.Proofs.Frame.Blocks
import HardwareSigner.Proofs.Report.Joining
import HardwareSigner.Proofs.Task.History
import HardwareSigner.Proofs.Listener.Changes
import HardwareSigner.Proofs.Listener.Serving
import HardwareSigner.Proofs.Listener.Delivery
import HardwareSigner.Proofs.Listener.Order
import HardwareSigner.Proofs.Listener.Moves
import HardwareSigner.Proofs.Engine.Stages
import HardwareSigner.Proofs.Engine.Links
import HardwareSigner.Proofs.Engine.Roles
import HardwareSigner.Proofs.Engine.Calls
import HardwareSigner.Proofs.Engine.Conduct
import HardwareSigner.Proofs.Engine.Working
import HardwareSigner.Proofs.Engine.Grammar
import HardwareSigner.Proofs.Engine.Ends
import HardwareSigner.Proofs.Engine.Opening
import HardwareSigner.Proofs.Engine.Cutting
import HardwareSigner.Proofs.Engine.Transcript
import HardwareSigner.Proofs.Engine.Reports
import HardwareSigner.Proofs.Engine.Custody
import HardwareSigner.Proofs.Engine.Returning
import HardwareSigner.Proofs.Engine.Lifecycle
import HardwareSigner.Proofs.Engine.Adding
import HardwareSigner.Proofs.Listener.Line
import HardwareSigner.Proofs.Engine.Parts
import HardwareSigner.Proofs.Engine.Emptying
import HardwareSigner.Proofs.MessagePack.RoundTrip
import HardwareSigner.Proofs.MessagePack.Records
import HardwareSigner.Proofs.Codec.RoundTrip
import HardwareSigner.Proofs.Listener.Membership
import HardwareSigner.Proofs.Listener.Registrations
import HardwareSigner.Proofs.Listener.Removal
import HardwareSigner.Proofs.Engine.Callers
import HardwareSigner.Proofs.Engine.Sending
import HardwareSigner.Proofs.Engine.Dealings
import HardwareSigner.Proofs.Engine.Output
import HardwareSigner.Proofs.Engine.Fates
import HardwareSigner.Proofs.Engine.Strokes
import HardwareSigner.Proofs.Engine.Outbound
import HardwareSigner.Proofs.MessagePack.Widths
import HardwareSigner.Proofs.MessagePack.Order
import HardwareSigner.Proofs.Codec.Reordering
import HardwareSigner.Proofs.Frame.Division
import HardwareSigner.Proofs.Engine.Outcomes
import HardwareSigner.Proofs.Engine.Account
import HardwareSigner.Proofs.Listener.Places
import HardwareSigner.Proofs.Listener.Turns
import HardwareSigner.Proofs.Listener.Backpressure
import HardwareSigner.Proofs.Toml.Numbers
import HardwareSigner.Proofs.Toml.Quoting
import HardwareSigner.Proofs.Toml.Documents
import HardwareSigner.Proofs.Settings.RoundTrip
import HardwareSigner.Proofs.Report.Delivered
import HardwareSigner.Proofs.Report.Segments
import HardwareSigner.Proofs.Report.Canonical
import HardwareSigner.Proofs.Device.Sending
import HardwareSigner.Proofs.Listener.Deserted
import HardwareSigner.Proofs.Listener.Alone
import HardwareSigner.Proofs.Listener.Agreement
import HardwareSigner.Proofs.Listener.Holding
import HardwareSigner.Proofs.Listener.Uninterrupted
import HardwareSigner.Proofs.Engine.Unopened
import HardwareSigner.Proofs.Engine.Upkeep
import HardwareSigner.Proofs.Engine.Attempts
import HardwareSigner.Proofs.Engine.Handing
import HardwareSigner.Proofs.Engine.Announcing
import HardwareSigner.Proofs.Engine.Waiting
import HardwareSigner.Proofs.Client.Connecting
import HardwareSigner.Proofs.Listener.Parting
import HardwareSigner.Proofs.Engine.Closing
import HardwareSigner.Proofs.Engine.Finality
import HardwareSigner.Proofs.Client.Session
import HardwareSigner.Proofs.Client.Scripted
import HardwareSigner.Proofs.Client.Replies
import HardwareSigner.Proofs.Client.Frames
import HardwareSigner.Proofs.Client.Lossless
import HardwareSigner.Proofs.Frame.Refusal
import HardwareSigner.Proofs.Body.Spelling
import HardwareSigner.Proofs.Body.Fields
import HardwareSigner.Proofs.Codec.Requests
import HardwareSigner.Proofs.Device.Opening
import HardwareSigner.Proofs.Settings.Dialling
import HardwareSigner.Proofs.Settings.Times
