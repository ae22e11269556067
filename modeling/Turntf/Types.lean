/-
  Turntf.Types — the data types of the client that the models share (`types.go`).

  Sequence numbers are natural numbers: a connection would have to send `2^64` frames before
  its counters wrapped. `int` fields are integers, since negative ones are not refused.
  `SentAtMs` is left out, nothing reads it; so are the timeouts, whose timers may fire at any
  moment.
-/

namespace Turntf

abbrev Bytes := List UInt8

structure UserRef where
  nodeID : Int
  userID : Int
  deriving DecidableEq

structure SessionRef where
  servingNodeID : Int
  sessionID : String
  deriving DecidableEq

namespace Relay

inductive Reliability where
  | bestEffort
  | atLeastOnce
  | reliableOrdered
  deriving DecidableEq

inductive RelayState where
  | stateClosed
  | stateOpening
  | stateOpen
  | stateClosing
  deriving DecidableEq

inductive RelayKind where
  | kindUnspecified
  | kindOpen
  | kindOpenAck
  | kindData
  | kindAck
  | kindClose
  | kindPing
  | kindError
  deriving DecidableEq

structure RelayConfig where
  reliability : Reliability
  windowSize : Int
  maxRetransmits : Int
  sendTimeoutMs : Int
  sendBufferSize : Nat
  deriving DecidableEq

def defaultRelayConfig : RelayConfig where
  reliability := .reliableOrdered
  windowSize := 16
  maxRetransmits := 5
  sendTimeoutMs := 0
  sendBufferSize := 65536

structure RelayEnvelope where
  relayID : String
  kind : RelayKind
  senderSession : SessionRef
  targetSession : SessionRef
  seq : Nat := 0
  ackSeq : Nat := 0
  payload : Bytes := []
  deriving DecidableEq

structure RelayOrphan where
  relayID : String
  kind : RelayKind
  deriving DecidableEq

/-- The codes with which a connection itself fails. -/
inductive RelayErrorCode where
  | maxRetransmit
  | remoteClose
  | clientClosed
  | protocolError
  | notConnected
  | sendTimeout
  | receiveTimeout
  | receiveOverflow
  | closeTimeout
  deriving DecidableEq

structure RelayError where
  code : RelayErrorCode
  message : String
  deriving DecidableEq

/-- What a call of the relay returns as its error: a `*RelayError`, a `*ServerError` by its
    code, the error of a context that is done, or another error of the client. -/
inductive Err where
  | relay (e : RelayError)
  | server (code : String)
  | context
  | client (text : String)
  deriving DecidableEq

namespace Err

def maxRetransmit : Err := .relay ⟨.maxRetransmit, "max retransmits exceeded"⟩
def remoteClose : Err := .relay ⟨.remoteClose, "remote peer closed connection"⟩
def clientClosed : Err := .relay ⟨.clientClosed, "connection closed"⟩
def notConnected : Err := .relay ⟨.notConnected, "connection not open"⟩
def sendTimeout : Err := .relay ⟨.sendTimeout, "send timeout waiting for buffer space"⟩
def receiveTimeout : Err := .relay ⟨.receiveTimeout, "receive timeout"⟩
def receiveOverflow : Err := .relay ⟨.receiveOverflow, "relay receive budget exceeded"⟩
def closeTimeout : Err := .relay ⟨.closeTimeout, "close timeout waiting for queued data acknowledgement"⟩

/-- The error a peer sent, its payload read byte by byte as `string(env.Payload)`. -/
def remoteError (payload : Bytes) : Err :=
  .relay ⟨.protocolError, "remote peer error: " ++ String.ofList (payload.map fun b => Char.ofNat b.toNat)⟩

end Err

end Relay

end Turntf
