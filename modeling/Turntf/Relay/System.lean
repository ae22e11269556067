/-
  Turntf.Relay.System — the calls of the application on a `RelayConnection`, all that can
  happen to a connection, and two connections with a network between them (`relay.go`,
  `relay_flush.go`).

  `step` is one connection in any surroundings: `packet` may bring any envelope. `Network`
  restricts two connections to the envelopes the other one handed out: each may arrive any
  number of times, in any order, or never.
-/

import Turntf.Lib.Ends
import Turntf.Relay.Threads

namespace Turntf.Relay

open Lts Ends

/-- The payloads whose `Send` returned nil. -/
def sentPayloads (returns : List Return) : List Bytes :=
  returns.filterMap fun
    | .send data none => some data
    | _ => none

/-- The payloads whose `Send` returned nil and that are not empty: `Send` queues nothing for
    an empty one. -/
def queuedPayloads (returns : List Return) : List Bytes := (sentPayloads returns).filter (· ≠ [])

namespace RelayConnection

variable (c : RelayConnection)

/-! ## Calls of the application -/

def locked : Bool := c.calls.any CallPc.holds

def callAt (i : Nat) (pc : CallPc) : RelayConnection := { c with calls := c.calls.set i pc }

def ret (i : Nat) (r : Return) : RelayConnection := { c.callAt i .returned with returns := c.returns ++ [r] }

def sendStep (i : Nat) (data : Bytes) (pc : SendPc) (how : Choice) : Option RelayConnection :=
  match pc, how with
  | .lock, .go => if c.locked then none else some (c.callAt i (.send data .state))
  | .state, .go =>
    if c.life.state = .stateOpen then some (c.callAt i (.send data .select))
    else some (c.ret i (.send data (some .notConnected)))
  | .select, .go =>
    (c.xmit.push c.sendCap (.data data)).map fun xmit => { c with xmit := xmit }.ret i (.send data none)
  | .select, .timer =>
    if c.config.sendTimeoutMs > 0 then some (c.ret i (.send data (some .sendTimeout))) else none
  | .select, .closed => if c.life.closed then some (c.ret i (.send data (some .clientClosed))) else none
  | .select, .cancel => if c.life.closed then some (c.ret i (.send data (some .context))) else none
  | _, _ => none

/-- `Flush`. Its own context may be done at any time (`cancel`). -/
def flushStep (i : Nat) (pc : FlushPc) (how : Choice) : Option RelayConnection :=
  match pc, how with
  | .lock, .go => if c.locked then none else some (c.callAt i (.flush .state))
  | .lock, .cancel => some (c.ret i (.flush (some .context)))
  | .state, .go =>
    if c.life.state = .stateOpen then some (c.callAt i (.flush .push)) else some (c.callAt i (.flush .error))
  | .push, .go =>
    (c.xmit.push c.sendCap (.barrier c.xmit.barriers)).map fun xmit =>
      { c with xmit := { xmit with barriers := xmit.barriers + 1 } }.callAt i (.flush (.barrier c.xmit.barriers))
  | .push, .cancel => some (c.ret i (.flush (some .context)))
  | .push, .closed => if c.life.closed then some (c.callAt i (.flush .error)) else none
  | .barrier id, .go =>
    match c.xmit.targets.lookup id with
    | some target => some (c.callAt i (.flush (.poll target)))
    | none => none
  | .barrier _, .cancel => some (c.ret i (.flush (some .context)))
  | .barrier _, .closed => if c.life.closed then some (c.callAt i (.flush .error)) else none
  | .poll target, .go =>
    if c.life.closed then some (c.callAt i (.flush .error)) else some (c.callAt i (.flush (.count target)))
  | .poll _, .cancel => some (c.ret i (.flush (some .context)))
  | .count target, .go =>
    if c.xmit.unacked.keys.any (· < target) then some (c.callAt i (.flush (.tick target)))
    else some (c.ret i (.flush none))
  | .tick target, .timer => some (c.callAt i (.flush (.poll target)))
  | .tick _, .cancel => some (c.ret i (.flush (some .context)))
  | .tick _, .closed => if c.life.closed then some (c.callAt i (.flush .error)) else none
  | .error, .go => some (c.ret i (.flush (some (c.life.closeErr.getD .notConnected))))
  | _, _ => none

def closeStep (i before : Nat) (pc : ClosePc) (how : Choice) : Option RelayConnection :=
  let result := c.callAt i (.close before .result)
  match pc, how with
  | .lock, .go => if c.locked then none else some (c.callAt i (.close before .state))
  | .state, .go =>
    if c.life.state = .stateOpen then
      some { c.callAt i (.close before .push) with life := { c.life with state := .stateClosing } }
    else some (c.ret i (.close before c.life.closeErr))
  | .push, .go =>
    (c.xmit.push c.sendCap .marker).map fun xmit => { c with xmit := xmit }.callAt i (.close before .flush)
  | .push, .closed => if c.life.closed then some result else none
  | .flush, .go =>
    if c.xmit.flushCh then some (c.callAt i (.close before (if c.reliable then .pending else .readIdle))) else none
  | .flush, .closed => if c.life.closed then some result else none
  | .pending, .go =>
    some (c.callAt i (.close before (if c.xmit.unacked.keys = [] then .readIdle else .tick)))
  | .tick, .timer => some (c.callAt i (.close before .pending))
  | .tick, .closed => if c.life.closed then some result else none
  | .readIdle, .go =>
    match c.acks.ackIdle with
    | none => some (c.callAt i (.close before .context))
    | some idle => some (c.callAt i (.close before (.waitIdle idle)))
  | .waitIdle idle, .go => if c.acks.ackIdle = some idle then none else some (c.callAt i (.close before .context))
  | .waitIdle _, .closed => if c.life.closed then some (c.callAt i (.close before .context)) else none
  | .context, .go => if c.life.closed then some result else some (c.callAt i (.close before .start))
  | .start, .go =>
    if c.life.closed then some (c.ret i (.close before c.life.closeErr))
    else some ((c.callAt i (.close before .sent)).emit (c.envelope .kindClose))
  | .sent, .result err => some (result.closeWith err)
  | .sent, .closed => if c.life.closed then some result else none
  | .result, .go => some (c.ret i (.close before c.life.closeErr))
  | _, _ => none

/-- `recvCh` gives its first payload to the application. -/
def take (data : Bytes) (rest : List Bytes) : RelayConnection :=
  { c with recv.recvCh := rest, recv.consumed := c.recv.consumed ++ [data] }

def receiveStep (i : Nat) (timed : Bool) (pc : ReceivePc) (how : Choice) : Option RelayConnection :=
  match pc, how with
  | .select, .go =>
    match c.recv.recvCh with
    | data :: rest => some ((c.take data rest).ret i (.receive data))
    | [] => none
  | .select, .timer => if timed then some (c.ret i .timeout) else none
  | .select, .closed =>
    if c.life.closed then some (c.callAt i (.receive timed (.terminal .clientClosed))) else none
  | .select, .cancel => if c.life.closed then some (c.callAt i (.receive timed (.terminal .context))) else none
  | .terminal fallback, .go =>
    some (c.callAt i (.receive timed (.drain c.life.remoteClosed c.life.closeErr fallback)))
  | .drain remoteClosed cause fallback, .go =>
    match remoteClosed, c.recv.recvCh with
    | true, data :: rest => some ((c.take data rest).ret i (.receive data))
    | _, _ => some (c.ret i (.terminal (cause.getD fallback) c.recv.consumed))
  | _, _ => none

def callStep (i : Nat) (how : Choice) : Option RelayConnection :=
  match c.calls[i]? with
  | some (.send data pc) => c.sendStep i data pc how
  | some (.flush pc) => c.flushStep i pc how
  | some (.close before pc) => c.closeStep i before pc how
  | some (.receive timed pc) => c.receiveStep i timed pc how
  | _ => none

/-- A call starts. `Send` returns at once when there is nothing to send. -/
def startCall : AppCall → RelayConnection
  | .send [] => { c with calls := c.calls ++ [.returned], returns := c.returns ++ [.send [] none] }
  | .send data => { c with calls := c.calls ++ [.send data .lock] }
  | .flush => { c with calls := c.calls ++ [.flush .lock] }
  | .close => { c with calls := c.calls ++ [.close (queuedPayloads c.returns).length .lock] }
  | .receive timed => { c with calls := c.calls ++ [.receive timed .select] }

/-! ## The connection as a transition system -/

inductive Action where
  /-- The shared reader gets an envelope for the connection. -/
  | packet (env : RelayEnvelope)
  | reader
  | dispatcher (how : Choice)
  | ackWorker (how : Choice)
  | loop (how : Choice)
  | round (how : Choice)
  | task (i : Nat) (err : Option Err)
  | call (call : AppCall)
  | run (i : Nat) (how : Choice)
  /-- The deadline of the `Close` call `i`. -/
  | deadline (i : Nat)
  /-- A receive from the channel of `Receive`. -/
  | receive
  | abort (reason : Option Err)
  /-- `closeAll`, or a `Connect` that gives up. -/
  | fail (reason : Err)
  | onClose (callback : Nat)
  /-- What is left of the closing: `removeConnection`, then one callback after the other. -/
  | notify

/-- `handlePacket` for an envelope of this connection: an OPEN of its peer is answered again,
    every other frame is enqueued. -/
def handlePacket (env : RelayEnvelope) : Option RelayConnection :=
  match env.kind with
  | .kindUnspecified => none
  | .kindOpen =>
    if c.life.remoteSession = env.senderSession ∧ c.mySession = env.targetSession then
      some (c.emit (c.envelope .kindOpenAck))
    else some c
  | _ => c.enqueueEnvelope env

def notifyStep : Option RelayConnection :=
  match c.life.notice with
  | .none => none
  | .remove callbacks => some { c with life := { c.life with registered := false, notice := .call callbacks } }
  | .call [] => some { c with life.notice := .none }
  | .call (callback :: callbacks) =>
    some { c with life := { c.life with
      notice := .call callbacks, notified := c.life.notified ++ [(callback, c.life.closeErr)] } }

def registerOnClose (callback : Nat) : RelayConnection :=
  if c.life.closed then { c with life.notified := c.life.notified ++ [(callback, c.life.closeErr)] }
  else { c with life.onClose := c.life.onClose ++ [callback] }

def step : Action → Option RelayConnection
  | .packet env => c.handlePacket env
  | .reader => c.readerStep
  | .dispatcher how => c.dispatchStep how
  | .ackWorker how => c.ackStep how
  | .loop how => c.loopStep how
  | .round how => c.roundStep how
  | .task i err => c.taskStep i err
  | .call call => some (c.startCall call)
  | .run i how => c.callStep i how
  | .deadline i =>
    match c.calls[i]? with
    | some (.close _ _) => some (c.closeWith (some .closeTimeout))
    | _ => none
  | .receive =>
    match c.recv.recvCh with
    | data :: rest => some (c.take data rest)
    | [] => none
  | .abort reason => some (c.closeWith reason)
  | .fail reason => some (c.closeWith (some reason))
  | .onClose callback => some (c.registerOnClose callback)
  | .notify => c.notifyStep

end RelayConnection

/-! ## Two connections -/

abbrev Pair := Side → RelayConnection

abbrev PairAction := Side × RelayConnection.Action

abbrev Pair.step : Pair → PairAction → Option Pair := stepAt RelayConnection.step

/-- The envelope an action brings in. -/
def RelayConnection.Action.packet? : RelayConnection.Action → Option RelayEnvelope
  | .packet env => some env
  | _ => none

/-- Every envelope that arrives was handed out by the other end. -/
def Network (p : Pair) (m : PairAction) : Prop := ∀ env ∈ m.2.packet?, env ∈ (p m.1.peer).out

instance (p : Pair) (m : PairAction) : Decidable (Network p m) :=
  inferInstanceAs (Decidable (∀ env ∈ m.2.packet?, env ∈ (p m.1.peer).out))

/-- Two connections of one relay ID: `a` dialed, `b` accepted. -/
def Pair.new (config : Side → RelayConfig) (relayID : String) (session : Side → SessionRef) : Pair :=
  fun x => .new (config x) relayID (session x) (session x.peer) (x = .a)

/-! ## Sample runs -/

def sampleSession (x : Side) : SessionRef := ⟨if x = .a then 1 else 2, "s"⟩

def samplePair (reliability : Reliability) (windowSize : Int) : Pair :=
  Pair.new (fun _ => { defaultRelayConfig with reliability := reliability, windowSize := windowSize }) "r" sampleSession

/-- An envelope of the end `x` of `samplePair`. -/
def sampleEnvelope (x : Side) (kind : RelayKind) (seq ackSeq : Nat) (payload : Bytes) : RelayEnvelope where
  relayID := "r"
  kind := kind
  senderSession := sampleSession x
  targetSession := sampleSession x.peer
  seq := seq
  ackSeq := ackSeq
  payload := payload

/-- The end `x` gets an envelope and its reader and `dispatchLoop` take so many steps. -/
def gets (x : Side) (env : RelayEnvelope) (reader dispatcher : Nat) : List PairAction :=
  (x, .packet env) :: (List.replicate reader (x, .reader) ++ List.replicate dispatcher (x, .dispatcher .go))

/-- The OPEN_ACK arrives at the end that dialed, whose `sendLoop` starts. -/
def opened : List PairAction := gets .a (sampleEnvelope .b .kindOpenAck 0 0 []) 3 4 ++ [(.a, .loop .go)]

/-- Call `i` of the end `x` is a `Send`; its data is handed to the network. -/
def sends (x : Side) (i : Nat) (data : Bytes) : List PairAction :=
  (x, .call (.send data)) :: (List.replicate 3 (x, .run i .go) ++ List.replicate 3 (x, .loop .go))

/-- `receiveACKLoop` of the end `x` hands its acknowledgement to the network. -/
def acks (x : Side) : List PairAction := List.replicate 2 (x, .ackWorker .go)

/-- The receiving end of `samplePair` alone. -/
def sampleReceiver (windowSize : Int) : RelayConnection :=
  .new { defaultRelayConfig with reliability := .reliableOrdered, windowSize := windowSize } "r" (sampleSession .b) (sampleSession .a)
    false

/-- The receiver gets DATA frame `seq`, and its reader and `dispatchLoop` take so many steps. -/
def getsData (seq reader dispatcher : Nat) : List RelayConnection.Action :=
  (gets .b (sampleEnvelope .a .kindData seq 0 [10]) reader dispatcher).map Prod.snd

end Turntf.Relay
