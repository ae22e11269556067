/-
  Turntf.Relay.Conn — the state of a `RelayConnection` and the body of each of its critical
  sections (`relay.go`, `relay_dispatch.go`).

  The fields are grouped by what they serve: `Life` is the connection's life, `Recv` its
  receiving side up to the application, `Acks` the acknowledgements it owes, `Xmit` its
  sending side. Each group also has the positions of the goroutines that serve it (the
  positions are explained in `Turntf.Relay.Threads`) and the history the theorems speak
  about, which no step reads.

  `closeCh` is closed and `ctx` cancelled in the section that sets the state to Closed, so
  each of the three says the same (`Life.closed`). The channels in `ackIdle` are numbered in
  the order they are made: one of them is closed once `ackIdle` is no longer its number.
-/

import Mathlib.Algebra.Ring.Int.Defs
import Mathlib.Data.List.AList
import Mathlib.Data.Finset.Card
import Turntf.Types

namespace Turntf.Relay

/-- `uint64(x)` of an `int`. -/
def uint64 (x : Int) : Nat := (x % 2 ^ 64).toNat

/-- Payloads by sequence number: `map[uint64][]byte`. -/
abbrev SeqMap := AList fun _ : Nat => Bytes

/-! ## The life of a connection -/

/-- What is left of `closeWithSource` after its section: taking the connection out of the
    registry, then calling the callbacks it copied. -/
inductive Notice where
  | none
  | remove (callbacks : List Nat)
  | call (callbacks : List Nat)
  deriving DecidableEq

structure Life where
  state : RelayState
  closeErr : Option Err
  remoteClosed : Bool
  remoteSession : SessionRef
  openCh : Bool
  onClose : List Nat
  notice : Notice
  registered : Bool
  /-- The callbacks called so far, with their reasons. -/
  notified : List (Nat × Option Err)

namespace Life

def closed (l : Life) : Bool := l.state = .stateClosed

def closeWithSource (l : Life) (reason : Option Err) (remoteClose : Bool) : Life :=
  if l.state = .stateClosed then l
  else { l with
    state := .stateClosed
    closeErr := reason
    remoteClosed := remoteClose
    notice := .remove l.onClose }

/-- `closeConnection`, and `handleClose` and `abort`: they differ in whether the caller waits
    for the callbacks. -/
def closeConnection (l : Life) (reason : Option Err) : Life := l.closeWithSource reason false

def handleOpenAck (l : Life) (env : RelayEnvelope) : Life :=
  if l.state = .stateOpening then { l with state := .stateOpen, remoteSession := env.senderSession, openCh := true }
  else l

end Life

/-! ## The receiving side -/

/-- Where `enqueueEnvelope` is. It holds `inboxMu` from its first section to its return. -/
inductive ReaderPc where
  | idle
  | snapped (env : RelayEnvelope) (closed : Bool) (buffered : Int) (reordered : Bool) (expected delivered : Nat)
  | budget (env : RelayEnvelope) (buffered : Int)
  | begin (env : RelayEnvelope)
  | push (env : RelayEnvelope)
  | undo (env : RelayEnvelope)
  | fail

/-- Where `dispatchLoop` is. -/
inductive DispatchPc where
  | off
  | select
  | check (env : RelayEnvelope)
  | readIdle (env : RelayEnvelope)
  | waitIdle (env : RelayEnvelope) (idle : Nat)
  | handle (env : RelayEnvelope)
  | deliverOne (env : RelayEnvelope)
  | deliver (env : RelayEnvelope) (seq : Nat) (data : Bytes) (ready : List (Nat × Bytes)) (ackSeq : Nat)
  | delivered (env : RelayEnvelope) (ready : List (Nat × Bytes)) (ackSeq : Nat)
  | settle (env : RelayEnvelope) (ackSeq : Nat)
  | queue (env : RelayEnvelope) (ackSeq : Nat)
  | ping (env : RelayEnvelope)
  | finish (env : RelayEnvelope)
  | release (env : RelayEnvelope)
  | exiting
  | exited

/-- Where `handleData` is with the frames that are yet to be delivered. -/
def DispatchPc.delivering (env : RelayEnvelope) (ready : List (Nat × Bytes)) (ackSeq : Nat) : DispatchPc :=
  match ready with
  | [] => .settle env ackSeq
  | (seq, data) :: ready => .deliver env seq data ready ackSeq

structure Recv where
  expectedSeq : Nat
  recvBuf : SeqMap
  recvReady : Int
  recvDelivered : Nat
  recvCh : List Bytes
  inbox : Option (List RelayEnvelope)
  inboxSeq : Finset Nat
  inboxData : Int
  inboxFailed : Bool
  inboxTerminal : Bool
  reader : ReaderPc
  dispatcher : DispatchPc
  /-- What was pushed into `recvCh`, with its sequence number, and what was taken from it. -/
  pushed : List (Nat × Bytes)
  consumed : List Bytes

/-- `cap(c.recvCh)`. -/
def recvCap : Nat := 64

/-- The frames that follow `next` in `buf` without a gap, taken out of it, and the number
    after them. -/
def takeReady : Nat → SeqMap → Nat → List (Nat × Bytes) × SeqMap × Nat
  | 0, buf, next => ([], buf, next)
  | fuel + 1, buf, next =>
    match buf.lookup next with
    | some data =>
      let (ready, buf, stop) := takeReady fuel (buf.erase next) (next + 1)
      ((next, data) :: ready, buf, stop)
    | none => ([], buf, next)

/-- The first number from `n` on that is not in `s`. -/
def frontier : Nat → Finset Nat → Nat → Nat
  | 0, _, n => n
  | fuel + 1, s, n => if n ∈ s then frontier fuel s (n + 1) else n

namespace Recv

/-- The first section of `handleData` of a reliable-ordered connection: the frames that are
    ready for the application, unless the frame is out of the window. -/
def order (r : Recv) (windowSize : Int) (env : RelayEnvelope) : Recv × Option (List (Nat × Bytes)) :=
  if env.seq = r.expectedSeq then
    let (ready, buf, stop) := takeReady r.recvBuf.keys.length r.recvBuf (env.seq + 1)
    let ready := (env.seq, env.payload) :: ready
    ({ r with recvBuf := buf, expectedSeq := stop, recvReady := r.recvReady + ready.length }, some ready)
  else if env.seq > r.expectedSeq then
    if env.seq - r.expectedSeq ≥ uint64 windowSize then (r, none)
    else ({ r with recvBuf := r.recvBuf.insert env.seq env.payload }, some [])
  else (r, some [])

/-- The section with which `dispatchLoop` lets go of a frame. -/
def release (r : Recv) (env : RelayEnvelope) : Recv :=
  if env.kind = .kindData then { r with inboxData := r.inboxData - 1, inboxSeq := r.inboxSeq.erase env.seq } else r

/-- The deferred section of `dispatchLoop`. -/
def shut (r : Recv) : Recv :=
  { r with inboxFailed := true, inbox := some [], inboxSeq := ∅, inboxData := 0 }

end Recv

/-! ## The acknowledgements owed -/

/-- Where `receiveACKLoop` is. -/
inductive AckPc where
  | off
  | select
  | grab
  | sending (env : RelayEnvelope) (retries : Nat)
  | delay (env : RelayEnvelope) (retries : Nat)
  | sent (err : Option Err)
  | failing (err : Err)
  | exited

structure Acks where
  /-- The number of the channel in `c.ackIdle`, and how many were made. -/
  ackIdle : Option Nat
  idleMade : Nat
  /-- `c.ackOut`, once made: whether it has its token. -/
  ackOut : Option Bool
  ackPending : Option RelayEnvelope
  ackGenerating : Int
  ackSending : Bool
  worker : AckPc
  /-- The numbers passed to `queueACK` of an open connection, and those of the envelopes whose
      sending was accepted. -/
  queued : List Nat
  ackAccepted : List Nat

namespace Acks

def openIdle (a : Acks) : Acks :=
  match a.ackIdle with
  | none => { a with ackIdle := some a.idleMade, idleMade := a.idleMade + 1 }
  | some _ => a

def closeACKIdleLocked (a : Acks) : Acks :=
  if a.ackGenerating = 0 ∧ a.ackSending = false ∧ a.ackPending = none then { a with ackIdle := none } else a

/-- `beginReceiveACK` of a connection that is not closed. -/
def beginReceiveACK (a : Acks) : Acks := { a with ackGenerating := a.ackGenerating + 1 }.openIdle

def finishReceiveACK (a : Acks) : Acks := { a with ackGenerating := a.ackGenerating - 1 }.closeACKIdleLocked

def startWorker (a : Acks) : Acks :=
  match a.ackOut with
  | none => { a with ackOut := some false, worker := .select }
  | some _ => a

/-- The coalesced slot: the larger number stays. -/
def coalesce (pending : Option RelayEnvelope) (env : RelayEnvelope) : RelayEnvelope :=
  match pending with
  | none => env
  | some p => if env.ackSeq > p.ackSeq then env else p

def queueACK (a : Acks) (closed : Bool) (env : RelayEnvelope) : Acks :=
  if closed then a
  else
    let a := a.startWorker
    let a := { a with ackPending := some (coalesce a.ackPending env) }.openIdle
    { a with ackOut := some true, queued := a.queued ++ [env.ackSeq] }

/-- The section in which `receiveACKLoop` takes the pending acknowledgement. -/
def grab (a : Acks) : Acks :=
  { a with ackPending := none, ackSending := a.ackPending.isSome }.closeACKIdleLocked

/-- The section after the sending: the channel stays when it failed. -/
def sent (a : Acks) (err : Option Err) : Acks :=
  if err = none then { a with ackSending := false }.closeACKIdleLocked else { a with ackSending := false }

end Acks

/-! ## The sending side -/

/-- `relaySendItem`: data, a barrier by the number of its channel, or the marker of `Close`. -/
inductive SendItem where
  | data (data : Bytes)
  | barrier (id : Nat)
  | marker
  deriving DecidableEq

/-- Where `retransmit` is. It has a slot of `inflight` at `recheck`, `sending` and `sent`. -/
inductive RetryPc where
  | start
  | tooMany
  | next (frames : List RelayEnvelope)
  | acquire (env : RelayEnvelope) (frames : List RelayEnvelope)
  | recheck (env : RelayEnvelope) (frames : List RelayEnvelope)
  | sending (env : RelayEnvelope) (frames : List RelayEnvelope)
  | sent (frames : List RelayEnvelope)
  | wait
  | done

/-- Where `sendLoop` is. Inside `retry`, `back` is the data the loop has yet to send. -/
inductive LoopPc where
  | start
  | select
  | barrier (id : Nat)
  | marker
  | data (data : Bytes)
  | window (data : Bytes)
  | acquire (env : RelayEnvelope)
  | sending (env : RelayEnvelope)
  | retry (pc : RetryPc) (back : Option Bytes)
  | exiting
  | exited

/-- A goroutine that sends one DATA frame: started by `sendLoop` or by `retransmit`; once
    `returned` it has its slot of `inflight` yet to give back. -/
structure Task where
  env : RelayEnvelope
  retransmitted : Bool
  returned : Bool
  deriving DecidableEq

structure Xmit where
  sendBase : Nat
  nextSeq : Nat
  unacked : SeqMap
  retransCnt : Int
  /-- `c.ackCh`, once made: whether it has its token. -/
  ackCh : Option Bool
  sendCh : List SendItem
  flushCh : Bool
  /-- How many barrier channels were made, and the numbers sent on them. -/
  barriers : Nat
  targets : List (Nat × Nat)
  loop : LoopPc
  /-- The retry round of a reliable-ordered connection, from its start until the loop has seen
      its end: `retryDone`. -/
  retry : Option RetryPc
  tasks : List Task
  /-- The payloads taken from `sendCh`, those given a sequence number, and the numbers that
      `handleAck` removed from `unacked`. -/
  took : List Bytes
  assigned : List Bytes
  acked : List Nat

namespace Xmit

def handleAck (t : Xmit) (reliability : Reliability) (env : RelayEnvelope) : Xmit :=
  if reliability = .bestEffort then t
  else if env.ackSeq ≥ t.sendBase ∧ env.ackSeq < t.nextSeq then
    let gone := t.unacked.keys.filter (· ≤ env.ackSeq)
    { t with
      unacked := gone.foldl (fun m seq => m.erase seq) t.unacked
      sendBase := env.ackSeq + 1
      retransCnt := 0
      ackCh := t.ackCh.map fun _ => true
      acked := t.acked ++ gone }
  else t

/-- The loop takes an item from `sendCh`. -/
def receive (t : Xmit) : SendItem → Xmit
  | .data data => { t with loop := .data data, took := t.took ++ [data] }
  | .barrier id => { t with loop := .barrier id }
  | .marker => { t with loop := .marker }

/-- Sending on `sendCh`, where there is room for the item or the loop is waiting for it. -/
def push (t : Xmit) (cap : Nat) (item : SendItem) : Option Xmit :=
  if t.sendCh.length < cap then some { t with sendCh := t.sendCh ++ [item] }
  else if cap = 0 then
    match t.loop with
    | .select => some (t.receive item)
    | _ => none
  else none

/-- The section of `sendLoop` that gives the data its number. -/
def assign (t : Xmit) (data : Bytes) : Xmit :=
  { t with
    nextSeq := t.nextSeq + 1
    unacked := t.unacked.insert t.nextSeq data
    sendBase := if t.sendBase = 0 then t.nextSeq else t.sendBase
    assigned := t.assigned ++ [data] }

def retryStillPending (t : Xmit) (closed : Bool) (seq : Nat) : Bool := (t.unacked.lookup seq).isSome && !closed

/-- How many slots of `inflight` are taken. -/
def inflight (t : Xmit) : Nat :=
  let slots : RetryPc → Nat
    | .recheck _ _ | .sending _ _ | .sent _ => 1
    | _ => 0
  t.tasks.length + (t.retry.map slots).getD 0 + match t.loop with
    | .retry pc _ => slots pc
    | _ => 0

/-- `sends.Wait()` returns. -/
def settled (t : Xmit) : Bool :=
  t.tasks.isEmpty && match t.retry with
    | none | some .done => true
    | _ => false

end Xmit

/-- `limit` of `sendLoop`. -/
def inflightLimit (windowSize : Int) : Nat := (min (max windowSize 1) 64).toNat

end Turntf.Relay
