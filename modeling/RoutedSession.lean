import RoutedSession.Bytes
import RoutedSession.Pieces
import RoutedSession.Varint
import RoutedSession.RouteTable
import RoutedSession.Gzip.BitSource
import RoutedSession.Gzip.Checksum
import RoutedSession.Gzip.PrefixCode
import RoutedSession.Gzip.Inflate
import RoutedSession.Gzip.Member
import RoutedSession.Packet.Basic
import RoutedSession.Packet.Buffer
import RoutedSession.Message.Basic
import RoutedSession.Message.Codec
import RoutedSession.Decimal.Binary64
import RoutedSession.Decimal.Shortest
import RoutedSession.Json.Mark
import RoutedSession.Json.Value
import RoutedSession.Json.Reader
import RoutedSession.Json.Numeral
import RoutedSession.Json.Parse
import RoutedSession.Json.Record
import RoutedSession.Json.Printer
import RoutedSession.Handshake.Records
import RoutedSession.Handshake.Answer
import RoutedSession.Error
import RoutedSession.Pending
import RoutedSession.Outbox.Frame
import RoutedSession.Outbox.Queue
import RoutedSession.Turn
import RoutedSession.Outbox.Writer
import RoutedSession.Outbox.Script
import RoutedSession.Outbox.Bench
import RoutedSession.Session.Events
import RoutedSession.Session.Basic
import RoutedSession.Session.Link
import RoutedSession.Session.Inbound
import RoutedSession.Session.Attempt
import RoutedSession.Session.Connection
import RoutedSession.Session.Call
import RoutedSession.Session.Conversation
import RoutedSession.Session.Command
import RoutedSession.Session.Run
import RoutedSession.Proofs.Message.RoundTrip
import RoutedSession.Proofs.Message.Grammar
import RoutedSession.Proofs.RouteTable.History
import RoutedSession.Proofs.Pending.Table
import RoutedSession.Proofs.Pending.Delivery
import RoutedSession.Proofs.Session.Events
import RoutedSession.Proofs.Session.Course
import RoutedSession.Proofs.Session.Change
import RoutedSession.Proofs.Session.Turns
import RoutedSession.Proofs.Session.Ending
import RoutedSession.Proofs.Session.Termination
import RoutedSession.Proofs.Outbox.Order
import RoutedSession.Proofs.Session.Exchange
import RoutedSession.Proofs.Packet.Cut
import RoutedSession.Proofs.Packet.Stream
import RoutedSession.Proofs.Packet.Inverse
import RoutedSession.Proofs.Packet.Agreement
import RoutedSession.Proofs.Session.Inflow
import RoutedSession.Proofs.Session.Dispatching
import RoutedSession.Proofs.Session.Intake
import RoutedSession.Proofs.Session.Handover
import RoutedSession.Proofs.Session.Journal
import RoutedSession.Proofs.Session.Sending
import RoutedSession.Proofs.Session.Wire
import RoutedSession.Proofs.Outbox.Batches
import RoutedSession.Proofs.Outbox.Fifo
import RoutedSession.Proofs.Pending.Owners
import RoutedSession.Proofs.Session.Requests
import RoutedSession.Proofs.Outbox.Acts
import RoutedSession.Proofs.Session.Reads
import RoutedSession.Proofs.Session.Undisturbed
import RoutedSession.Proofs.Session.Effects
import RoutedSession.Proofs.Session.EventRecord
import RoutedSession.Proofs.Pending.Answers
import RoutedSession.Proofs.Session.Answers
import RoutedSession.Proofs.Packet.Reads
import RoutedSession.Proofs.Session.Cuttings
import RoutedSession.Proofs.Pending.Recycling
import RoutedSession.Proofs.Outbox.Shutdown
import RoutedSession.Proofs.Session.Operations
import RoutedSession.Proofs.Session.Establishment
import RoutedSession.Proofs.Session.Lifecycles
import RoutedSession.Proofs.Session.FailedOpening
import RoutedSession.Proofs.Gzip.Bits
import RoutedSession.Proofs.Gzip.Trees
import RoutedSession.Proofs.Gzip.Words
import RoutedSession.Proofs.Gzip.Grammar
import RoutedSession.Proofs.Gzip.Symbols
import RoutedSession.Proofs.Gzip.Codes
import RoutedSession.Proofs.Gzip.Blocks
import RoutedSession.Proofs.Gzip.Members
import RoutedSession.Proofs.Gzip.Transparency
import RoutedSession.Proofs.Json.Sorted
import RoutedSession.Proofs.Json.Texts
import RoutedSession.Proofs.Json.Sequences
import RoutedSession.Proofs.Json.Numbers
import RoutedSession.Proofs.Json.Values
import RoutedSession.Proofs.Json.Records
import RoutedSession.Proofs.Handshake.RoundTrip
import RoutedSession.Proofs.Pending.Registrations
import RoutedSession.Proofs.Session.Lasting
import RoutedSession.Proofs.Session.Deadlines
import RoutedSession.Proofs.Session.Closing
import RoutedSession.Proofs.Outbox.Resuming
import RoutedSession.Proofs.Packet.Calls
import RoutedSession.Proofs.RouteTable.Orders
import RoutedSession.Proofs.Pending.Search
import RoutedSession.Proofs.Pending.Dropping
import RoutedSession.Proofs.Message.NormalForm
import RoutedSession.Proofs.Message.Truncation
import RoutedSession.Proofs.Session.Heartbeats
import RoutedSession.Proofs.Varint.Places
import RoutedSession.Proofs.Session.OpeningTime
import RoutedSession.Proofs.Json.Forms
import RoutedSession.Proofs.Json.Tokens
import RoutedSession.Proofs.Json.Skipping
import RoutedSession.Proofs.Json.Gathering
import RoutedSession.Proofs.Json.Variations
import RoutedSession.Proofs.Json.Wellformed
import RoutedSession.Proofs.Handshake.Tolerance
