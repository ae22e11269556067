/-
  Turntf.Stream.Conn — the state of a `StreamConn` and the body of each of its critical
  sections (`stream_conn.go`).

  A connection has its two stream states, each behind its own mutex, and a record behind
  `mu`: the unread bytes, the credit the peer last advertised, the close reason and the
  channel a blocked call waits on. `signalLocked` closes that channel and makes a new one;
  the channels of a connection are numbered in the order they are made, so a channel is
  closed once `state` has passed its number. `done` is closed together with the setting of
  `closeErr`. The channels a `Resume` waits on are numbered in the same way.

  `StreamEnd` puts a connection into its mux: whether the mux still routes frames to it,
  the frames handed to the transport so far, and the history the theorems speak about. No
  step reads the history.
-/

import Turntf.Stream.Protocol

namespace Turntf.Stream

structure StreamConn where
  id : StreamID
  sender : StreamSenderState
  receiver : StreamReceiverState
  readBuf : Bytes
  window : UInt64
  sendWin : UInt64
  opened : Bool
  closeErr : Option StreamError
  /-- The number of the channel in `c.state`. -/
  state : Nat
  resumeEpoch : UInt64
  /-- The number of the channel in `c.resumeReady`. -/
  resumeReady : Option Nat
  /-- How many channels `Resume` calls have made, and which of them are closed. -/
  readyMade : Nat
  readyClosed : List Nat

def newStreamConn (id : StreamID) (epoch window : UInt64) (opened : Bool) : StreamConn where
  id := id
  sender := newStreamSenderState id epoch window
  receiver := newStreamReceiverState id epoch window
  readBuf := []
  window := window
  sendWin := window
  opened := opened
  closeErr := none
  state := 0
  resumeEpoch := 0
  resumeReady := none
  readyMade := 0
  readyClosed := []

namespace StreamConn

def signalLocked (c : StreamConn) : StreamConn := { c with state := c.state + 1 }

def isClosed (c : StreamConn) : Bool := c.closeErr.isSome

def closeError (c : StreamConn) : StreamError := c.closeErr.getD .closed

/-- The locked body of `terminate`, run by the first call only. -/
def terminate (c : StreamConn) (err : StreamError) : StreamConn := { c with closeErr := some err }.signalLocked

/-- `c.window - uint64(len(c.readBuf))`. -/
def free (c : StreamConn) : UInt64 := c.window - len64 c.readBuf

/-- The locked body of `waitSendCredit` under a snapshot of the sender: the close reason,
    the credit left, or nothing, and then the call waits for `c.state`. -/
def waitSendCredit (c : StreamConn) (next acked : UInt64) : Except StreamError (Option UInt64) :=
  match c.closeErr with
  | some err => .error err
  | none => .ok (if c.sendWin > next - acked then some (c.sendWin - (next - acked)) else none)

/-- The locked body that follows a successful `Acknowledge`; only an Ack ends a resume. -/
def storeCredit (c : StreamConn) (frame : StreamFrame) : StreamConn :=
  let c := { c with sendWin := frame.window }
  match frame.kind, c.resumeReady with
  | .frameAck, some ready =>
    if c.resumeEpoch = frame.epoch then
      { c with readyClosed := ready :: c.readyClosed, resumeReady := none, resumeEpoch := 0 }.signalLocked
    else c.signalLocked
  | _, _ => c.signalLocked

/-- `unique` of `handleData`: how many bytes of the frame are not below the offset. -/
def unique (offset : UInt64) (frame : StreamFrame) : UInt64 :=
  len64 frame.payload - StreamReceiverState.overlap offset frame

/-- The first locked body of `handleData`. -/
def checkData (c : StreamConn) (unique : UInt64) : Option StreamError :=
  match c.closeErr with
  | some err => some err
  | none => if len64 c.readBuf + unique > c.window then some .credit else none

/-- The second locked body of `handleData`: the buffer with the payload. -/
def appendData (c : StreamConn) (payload : Bytes) : StreamConn :=
  { c with readBuf := c.readBuf ++ payload }.signalLocked

/-- The Ack a `Read` sends for the space it has freed. -/
def creditFrame (c : StreamConn) : StreamFrame :=
  { kind := .frameAck, id := c.id, epoch := c.receiver.epoch, offset := c.receiver.offset, window := c.free }

/-- The locked body with which `Resume` registers the channel it waits on. -/
def registerResume (c : StreamConn) (epoch : UInt64) : StreamConn :=
  { c with resumeEpoch := epoch, resumeReady := some c.readyMade, readyMade := c.readyMade + 1 }

def clearResume (c : StreamConn) (ready : Nat) : StreamConn :=
  if c.resumeReady = some ready then { c with resumeReady := none, resumeEpoch := 0 } else c

/-- Storing credit touches nothing but the credit, the channel and the resume registration. -/
theorem storeCredit_eq (c : StreamConn) (frame : StreamFrame) : ∃ epoch ready closed,
    c.storeCredit frame = { c with
      sendWin := frame.window, state := c.state + 1, resumeEpoch := epoch, resumeReady := ready, readyClosed := closed } := by
  simp only [storeCredit]
  split
  · split <;> exact ⟨_, _, _, rfl⟩
  · exact ⟨_, _, _, rfl⟩

theorem clearResume_eq (c : StreamConn) (ready : Nat) : ∃ epoch ready',
    c.clearResume ready = { c with resumeEpoch := epoch, resumeReady := ready' } := by
  simp only [clearResume]
  split <;> exact ⟨_, _, rfl⟩

end StreamConn

/-- How many bytes of `rest` one frame takes. -/
def chunkSize (rest : Bytes) (maxFrameSize : Nat) (available : UInt64) : Nat :=
  let chunk := if rest.length > maxFrameSize then maxFrameSize else rest.length
  if chunk.toUInt64 > available then available.toNat else chunk

structure History where
  /-- What `Write` calls successfully passed to `sender.Data`. -/
  written : Bytes
  /-- What returned `Write` calls counted in `n`. -/
  reported : Bytes
  /-- What `Read` calls copied out. -/
  readOut : Bytes
  /-- What had been copied out each time a `Read` returned `(0, io.EOF)`. -/
  eofs : List Bytes
  /-- At the first `Close` call: the bytes reported and the offset acknowledged by then. -/
  closedAt : Option (Bytes × UInt64)
  /-- Offset and window of each acknowledgement `sender.Acknowledge` applied. -/
  applied : List (UInt64 × UInt64)
  /-- The frames `Write` made, each with the largest credit advertised by then. -/
  made : List (StreamFrame × Nat)
  /-- The errors `sender.Data` returned to `Write`. -/
  refused : List StreamError

/-- A `sync.Once`: a call that finds its function running waits for it to finish. -/
inductive Once where
  | fresh
  | running
  | finished
  deriving DecidableEq

structure StreamEnd where
  conn : StreamConn
  maxFrameSize : Nat
  /-- `m.streams` still maps the ID to this connection. -/
  registered : Bool
  doneOnce : Once
  /-- The frames given to the transport, in order. -/
  out : List StreamFrame
  hist : History

/-- The largest Offset + Window of the acknowledgements applied, at first the opening window. -/
def StreamEnd.credit (e : StreamEnd) : Nat :=
  e.hist.applied.foldl (fun m a => max m (a.1.toNat + a.2.toNat)) e.conn.window.toNat

/-- An end whose connection was just made: by `DialID`, whose Open is on its way, or by
    `handleOpen`. -/
def StreamEnd.new (id : StreamID) (window : UInt64) (maxFrameSize : Nat) (accepted : Bool) : StreamEnd where
  conn := newStreamConn id 1 window accepted
  maxFrameSize := maxFrameSize
  registered := true
  doneOnce := .fresh
  out := if accepted then [] else [{ kind := .frameOpen, id := id, epoch := 1, window := window }]
  hist := ⟨[], [], [], [], none, [], [], []⟩

end Turntf.Stream
