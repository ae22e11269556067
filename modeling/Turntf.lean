import Turntf.Lib.Lts
import Turntf.Lib.Ends
import Turntf.Lib.Fifo
import Turntf.Lib.Mailbox
import Turntf.Lib.Slots
import Turntf.Lib.Locks
import Turntf.Lib.Segment
import Turntf.Lib.Numbered
import Turntf.Lib.Layout
import Turntf.Lib.Reorder
import Turntf.Lib.Barrier
import Turntf.Lib.Checked
import Turntf.Lib.Json.Number
import Turntf.Lib.Json.Strings
import Turntf.Lib.Json.Tree
import Turntf.Lib.Base64
import Turntf.Lib.Protobuf
import Turntf.Lib.Space
import Turntf.Lib.Precision
import Turntf.Lib.Document
import Turntf.Lib.Decimal
import Turntf.Lib.Url
import Turntf.Types
import Turntf.Stream.Protocol
import Turntf.Stream.Retention
import Turntf.Stream.Resume
import Turntf.Stream.Endpoints
import Turntf.Stream.Frame
import Turntf.Stream.Conn
import Turntf.Stream.Calls
import Turntf.Stream.Steps
import Turntf.Stream.Deadlock
import Turntf.Stream.Effects
import Turntf.Stream.Integrity
import Turntf.Stream.Credit
import Turntf.Stream.Ledger
import Turntf.Stream.Pipe
import Turntf.Stream.Mux
import Turntf.Stream.MuxWindow
import Turntf.Stream.MuxLife
import Turntf.Stream.MuxRegistry
import Turntf.Relay.Conn
import Turntf.Relay.Threads
import Turntf.Relay.System
import Turntf.Relay.Effects
import Turntf.Relay.Steps
import Turntf.Relay.Window
import Turntf.Relay.Traffic
import Turntf.Relay.Order
import Turntf.Relay.Acked
import Turntf.Relay.Budget
import Turntf.Relay.AckIdle
import Turntf.Relay.Queue
import Turntf.Relay.Closing
import Turntf.Relay.Channel
import Turntf.Relay.Flush
import Turntf.Relay.Lifecycle
import Turntf.Relay.Signals
import Turntf.Relay.Admission
import Turntf.Relay.Missing
import Turntf.Relay.Handshake
import Turntf.Relay.Manager
import Turntf.Relay.Registry
import Turntf.Relay.Connect
import Turntf.Relay.Agreement
import Turntf.Client.Transport
import Turntf.Client.Effects
import Turntf.Client.Generations
import Turntf.Client.Pending
import Turntf.Client.Execution
import Turntf.Client.Tracked
import Turntf.Client.Isolation
import Turntf.Client.Reconnect
import Turntf.Client.Messages
import Turntf.Client.Inbound
import Turntf.Relay.Wire
import Turntf.Metadata.Typed
import Turntf.Metadata.Request
import Turntf.Metadata.Keys
import Turntf.Http.Requests
import Turntf.Demo.Schema
import Turntf.Demo.Runtime
import Turntf.Demo.Steps
import Turntf.Demo.Parallel
import Turntf.Demo.Panics
import Turntf.Demo.Values
import Turntf.Demo.Match
import Turntf.Demo.Events
import Turntf.Demo.Variables
