/-
  Turntf.Stream.Calls — the calls on the two connections of one stream, statement by
  statement (`stream_conn.go`).

  A thread runs one `Read`, `Write`, `Resume`, `Close` or `HandleFrame` call. Its position
  in a call says which mutexes it holds (`Pc.holds`) and which one it is about to lock
  (`Pc.wants`); the body of a section behind `mu` runs in the step that unlocks it. The
  transport is the environment: a frame given to `mux.send` is taken, or refused with any
  error, or handed to the peer's `HandleFrame` before `send` returns, in which case the
  thread's stack grows by that call. A frame on its way arrives by a `handleFrame` call.

  The runs are over one stream with one connection at each end: an Open frame that would
  make another connection is not a step.
-/

import Turntf.Lib.Ends
import Turntf.Stream.Conn

namespace Turntf.Stream

open Ends

inductive Mutex where
  | writeMu
  | handleMu
  | responseMu
  | mu
  deriving DecidableEq

/-- A mutex of the connection at one end. -/
structure Lock where
  side : Side
  mutex : Mutex
  deriving DecidableEq

/-! ## Positions -/

/-- In `terminate`: at `doneOnce.Do`, locking and holding `mu` in its function, at `remove`. -/
inductive TerminatePc where
  | once
  | lockMu
  | set
  | remove

inductive ReadPc where
  | lockMu (n : Nat)
  | look (n : Nat)
  | parked (n : Nat) (state : Nat)
  | lockHandle (n : Nat)
  | relockMu (n : Nat)
  | take (n : Nat)
  | again (n : Nat)
  | drained
  | lockResponse (ack : StreamFrame)
  | unlockHandle (ack : StreamFrame)
  | send (ack : StreamFrame)
  | sent

/-- `done` are the bytes counted in `written`, `rest` those after them. -/
inductive WritePc where
  | lockWrite (p : Bytes)
  | snapshot (done rest : Bytes)
  | lockMu (done rest : Bytes) (next acked : UInt64)
  | credit (done rest : Bytes) (next acked : UInt64)
  | parked (done rest : Bytes) (state : Nat)
  | data (done rest : Bytes) (available : UInt64)
  | send (done rest : Bytes) (frame : StreamFrame)
  | sent (done rest : Bytes)
  | unlock (done : Bytes) (err : Option StreamError)

/-- `epoch` is the new one from `lockMu` on. -/
inductive ResumePc where
  | lockWrite
  | snapshot
  | resume (epoch acked : UInt64)
  | lockMu (epoch acked : UInt64) (frames : List StreamFrame)
  | register (epoch acked : UInt64) (frames : List StreamFrame)
  | sendResume (epoch acked : UInt64) (frames : List StreamFrame) (ready : Nat)
  | sentResume (frames : List StreamFrame) (ready : Nat)
  | await (frames : List StreamFrame) (ready : Nat)
  | lockClear (ready : Nat) (err : StreamError)
  | clear (ready : Nat) (err : StreamError)
  | lockError
  | closeError
  | send (frames : List StreamFrame)
  | sent (frames : List StreamFrame)
  | unlock (err : Option StreamError)

inductive ClosePc where
  | lockMu
  | isClosed
  | snapshot
  | terminate (epoch : UInt64) (pc : TerminatePc)
  | send (epoch : UInt64)
  | sent

inductive HandlePc where
  | enter (frame : StreamFrame)
  | sendOpenAck (frame : StreamFrame)
  | sentOpenAck
  | lockHandle (frame : StreamFrame)
  | dispatch (frame : StreamFrame)
  | lockCredit (frame : StreamFrame)
  | storeCredit (frame : StreamFrame)
  | markOpen
  | lockCheck (frame : StreamFrame) (unique : UInt64)
  | checkData (frame : StreamFrame) (unique : UInt64)
  | accept (frame : StreamFrame)
  | lockAppend (payload : Bytes) (ack : StreamFrame)
  | append (payload : Bytes) (ack : StreamFrame)
  | lockWindow (ack : StreamFrame)
  | setWindow (ack : StreamFrame)
  | terminate (pc : TerminatePc)
  | lockResponse (ack : StreamFrame)
  | unlockHandle (ack : StreamFrame)
  | send (ack : StreamFrame)
  | sent
  | unlock (err : Option StreamError)

inductive Pc where
  | read (pc : ReadPc)
  | write (pc : WritePc)
  | resume (pc : ResumePc)
  | close (pc : ClosePc)
  | handle (pc : HandlePc)

def TerminatePc.wants : TerminatePc → Option Mutex
  | .lockMu => some .mu
  | _ => none

def TerminatePc.holds : TerminatePc → List Mutex
  | .set => [.mu]
  | _ => []

def ReadPc.wants : ReadPc → Option Mutex
  | .lockMu _ | .relockMu _ => some .mu
  | .lockHandle _ => some .handleMu
  | .lockResponse _ => some .responseMu
  | _ => none

def WritePc.wants : WritePc → Option Mutex
  | .lockWrite _ => some .writeMu
  | .lockMu .. => some .mu
  | _ => none

def ResumePc.wants : ResumePc → Option Mutex
  | .lockWrite => some .writeMu
  | .lockMu .. | .lockClear .. | .lockError => some .mu
  | _ => none

def ClosePc.wants : ClosePc → Option Mutex
  | .lockMu => some .mu
  | .terminate _ pc => pc.wants
  | _ => none

def HandlePc.wants : HandlePc → Option Mutex
  | .lockHandle _ => some .handleMu
  | .lockCredit _ | .lockCheck .. | .lockAppend .. | .lockWindow _ => some .mu
  | .terminate pc => pc.wants
  | .lockResponse _ => some .responseMu
  | _ => none

/-- The mutex the next step locks. -/
def Pc.wants : Pc → Option Mutex
  | .read pc => pc.wants
  | .write pc => pc.wants
  | .resume pc => pc.wants
  | .close pc => pc.wants
  | .handle pc => pc.wants

def ReadPc.holds : ReadPc → List Mutex
  | .lockMu _ | .parked .. | .lockHandle _ => []
  | .look _ => [.mu]
  | .relockMu _ | .again _ | .drained | .lockResponse _ => [.handleMu]
  | .take _ => [.handleMu, .mu]
  | .unlockHandle _ => [.handleMu, .responseMu]
  | .send _ | .sent => [.responseMu]

def WritePc.holds : WritePc → List Mutex
  | .lockWrite _ => []
  | .credit .. => [.writeMu, .mu]
  | _ => [.writeMu]

def ResumePc.holds : ResumePc → List Mutex
  | .lockWrite => []
  | .register .. | .clear .. | .closeError => [.writeMu, .mu]
  | _ => [.writeMu]

def ClosePc.holds : ClosePc → List Mutex
  | .isClosed => [.mu]
  | .terminate _ pc => pc.holds
  | _ => []

def HandlePc.holds : HandlePc → List Mutex
  | .enter _ | .sendOpenAck _ | .sentOpenAck | .lockHandle _ => []
  | .storeCredit _ | .checkData .. | .append .. | .setWindow _ => [.handleMu, .mu]
  | .terminate pc => .handleMu :: pc.holds
  | .unlockHandle _ => [.handleMu, .responseMu]
  | .send _ | .sent => [.responseMu]
  | _ => [.handleMu]

def Pc.holds : Pc → List Mutex
  | .read pc => pc.holds
  | .write pc => pc.holds
  | .resume pc => pc.holds
  | .close pc => pc.holds
  | .handle pc => pc.holds

/-! ## Steps of a call -/

/-- Where a step takes the call: on, into `mux.send` and then on, or back to its caller. -/
inductive Next (P : Type) where
  | goto (pc : P)
  | send (frame : StreamFrame) (pc : P)
  | ret (err : Option StreamError)

def Next.map {P Q : Type} (f : P → Q) : Next P → Next Q
  | .goto pc => .goto (f pc)
  | .send frame pc => .send frame (f pc)
  | .ret err => .ret err

/-- What the environment decides in a step: how `mux.send` goes, or which ready case a
    `select` takes. -/
inductive Choice where
  | go
  | sync
  | taken
  | refused (err : StreamError)
  | done
  | cancelled
  deriving DecidableEq

/-- The errors of a send that `Read` and `Close` drop. -/
def dropClosed : Option StreamError → Option StreamError
  | some .closed | some .unknown => none
  | err => err

/-- One step of `terminate`; `none` in the second place: it has returned. -/
def terminateStep (e : StreamEnd) (err : StreamError) : TerminatePc → Option (StreamEnd × Option TerminatePc)
  | .once =>
    match e.doneOnce with
    | .fresh => some ({ e with doneOnce := .running }, some .lockMu)
    | .running => none
    | .finished => some (e, none)
  | .lockMu => some (e, some .set)
  | .set => some ({ e with conn := e.conn.terminate err }, some .remove)
  | .remove => some ({ e with registered := false, doneOnce := .finished }, none)

def readStep (e : StreamEnd) (sent : Option StreamError) : ReadPc → Option (StreamEnd × Next ReadPc)
  | .lockMu n => some (e, .goto (.look n))
  | .look n =>
    if e.conn.readBuf ≠ [] then some (e, .goto (.lockHandle n))
    else match e.conn.closeErr with
      | some err =>
        some ({ e with hist.eofs := e.hist.eofs ++ if err = .eof then [e.hist.readOut] else [] }, .ret (some err))
      | none => some (e, .goto (.parked n e.conn.state))
  | .parked n state => if state < e.conn.state then some (e, .goto (.lockMu n)) else none
  | .lockHandle n => some (e, .goto (.relockMu n))
  | .relockMu n => some (e, .goto (.take n))
  | .take n =>
    if e.conn.readBuf = [] then some (e, .goto (.again n))
    else
      let e' := { e with
        conn.readBuf := e.conn.readBuf.drop n
        hist.readOut := e.hist.readOut ++ e.conn.readBuf.take n }
      some (e', .goto (if e.conn.isClosed then .drained else .lockResponse e'.conn.creditFrame))
  | .again n => some (e, .goto (.lockMu n))
  | .drained => some (e, .ret none)
  | .lockResponse ack => some (e, .goto (.unlockHandle ack))
  | .unlockHandle ack => some (e, .goto (.send ack))
  | .send ack => some (e, .send ack .sent)
  | .sent => some (e, .ret (dropClosed sent))

def writeStep (e : StreamEnd) (sent : Option StreamError) : WritePc → Option (StreamEnd × Next WritePc)
  | .lockWrite p => some (e, .goto (.snapshot [] p))
  | .snapshot done rest =>
    some (e, .goto (if rest = [] then .unlock done none else .lockMu done rest e.conn.sender.next e.conn.sender.acked))
  | .lockMu done rest next acked => some (e, .goto (.credit done rest next acked))
  | .credit done rest next acked =>
    match e.conn.waitSendCredit next acked with
    | .error err => some (e, .goto (.unlock done (some err)))
    | .ok (some available) => some (e, .goto (.data done rest available))
    | .ok none => some (e, .goto (.parked done rest e.conn.state))
  | .parked done rest state => if state < e.conn.state then some (e, .goto (.snapshot done rest)) else none
  | .data done rest available =>
    let chunk := rest.take (chunkSize rest e.maxFrameSize available)
    match e.conn.sender.data chunk with
    | .error err =>
      some ({ e with hist.refused := e.hist.refused ++ [err] }, .goto (.unlock done (some err)))
    | .ok (frame, s) =>
      some ({ e with
        conn.sender := s
        hist.written := e.hist.written ++ chunk
        hist.made := e.hist.made ++ [(frame, e.credit)] },
        .goto (.send (done ++ chunk) (rest.drop (chunkSize rest e.maxFrameSize available)) frame))
  | .send done rest frame => some (e, .send frame (.sent done rest))
  | .sent done rest =>
    some (e, .goto (match sent with
      | none => .snapshot done rest
      | some err => .unlock done (some err)))
  | .unlock done err => some ({ e with hist.reported := e.hist.reported ++ done }, .ret err)

def resumeStep (e : StreamEnd) (sent : Option StreamError) (how : Choice) :
    ResumePc → Option (StreamEnd × Next ResumePc)
  | .lockWrite => some (e, .goto .snapshot)
  | .snapshot => some (e, .goto (.resume e.conn.sender.epoch e.conn.sender.acked))
  | .resume epoch acked =>
    match e.conn.sender.resume (epoch + 1) acked with
    | .error err => some (e, .goto (.unlock (some err)))
    | .ok (frames, s) => some ({ e with conn.sender := s }, .goto (.lockMu (epoch + 1) acked frames))
  | .lockMu epoch acked frames => some (e, .goto (.register epoch acked frames))
  | .register epoch acked frames =>
    match e.conn.closeErr with
    | some err => some (e, .goto (.unlock (some err)))
    | none =>
      some ({ e with conn := e.conn.registerResume epoch }, .goto (.sendResume epoch acked frames e.conn.readyMade))
  | .sendResume epoch acked frames ready =>
    some (e, .send { kind := .frameResume, id := e.conn.id, epoch := epoch, offset := acked } (.sentResume frames ready))
  | .sentResume frames ready =>
    some (e, .goto (match sent with
      | none => .await frames ready
      | some err => .lockClear ready err))
  | .await frames ready =>
    match how with
    | .go => if ready ∈ e.conn.readyClosed then some (e, .goto (.send frames)) else none
    | .done => if e.conn.isClosed then some (e, .goto .lockError) else none
    | .cancelled => some (e, .goto (.lockClear ready (.text "context canceled")))
    | _ => none
  | .lockClear ready err => some (e, .goto (.clear ready err))
  | .clear ready err => some ({ e with conn := e.conn.clearResume ready }, .goto (.unlock (some err)))
  | .lockError => some (e, .goto .closeError)
  | .closeError => some (e, .goto (.unlock (some e.conn.closeError)))
  | .send frames =>
    match frames with
    | [] => some (e, .goto (.unlock none))
    | frame :: rest => some (e, .send frame (.sent rest))
  | .sent frames =>
    some (e, .goto (match sent with
      | none => .send frames
      | some err => .unlock (some err)))
  | .unlock err => some (e, .ret err)

def closeStep (e : StreamEnd) (sent : Option StreamError) : ClosePc → Option (StreamEnd × Next ClosePc)
  | .lockMu => some (e, .goto .isClosed)
  | .isClosed => some (e, if e.conn.isClosed then .ret none else .goto .snapshot)
  | .snapshot => some (e, .goto (.terminate e.conn.sender.epoch .once))
  | .terminate epoch pc =>
    (terminateStep e .closed pc).map fun (e', pc') =>
      (e', .goto (match pc' with
        | some pc' => .terminate epoch pc'
        | none => .send epoch))
  | .send epoch => some (e, .send { kind := .frameClose, id := e.conn.id, epoch := epoch } .sent)
  | .sent => some (e, .ret (dropClosed sent))

/-- The checks of `HandleFrame` before the frame's stream is looked up. -/
def frameError (maxFrameSize : Nat) (frame : StreamFrame) : Option StreamError :=
  if let .other _ := frame.kind then some (.text "invalid stream frame kind")
  else if frame.payload.length > maxFrameSize then some (.text "stream frame payload is too large")
  else if frame.kind ≠ .frameData ∧ frame.payload.length ≠ 0 then some (.text "stream control frame contains payload")
  else if frame.kind = .frameData ∧ frame.payload.length = 0 then some (.text "stream data frame is empty")
  else none

def maxInt : Nat := 9223372036854775807

/-- The OpenAck for an Open: it repeats the Open's epoch and window. -/
def openAck (frame : StreamFrame) : StreamFrame :=
  { kind := .frameOpenAck, id := frame.id, epoch := frame.epoch
    window := if frame.window = 0 then defaultStreamWindow else frame.window }

/-- `HandleFrame` up to the lookup. An Open for an ID that is not registered makes a new
    connection there and is no step of this one. -/
def enterStep (e : StreamEnd) (frame : StreamFrame) : Option (StreamEnd × Next HandlePc) :=
  match frameError e.maxFrameSize frame with
  | some err => some (e, .ret (some err))
  | none =>
    let found := e.registered ∧ frame.id = e.conn.id
    if frame.kind = .frameOpen then
      if frame.epoch = 0 then some (e, .ret (some (.text "invalid stream open frame")))
      else if (openAck frame).window.toNat > maxInt then some (e, .ret (some .credit))
      else if found then some (e, .goto (.sendOpenAck frame))
      else none
    else if found then some (e, .goto (.lockHandle frame))
    else some (e, .ret (if frame.kind = .frameClose then none else some .unknown))

/-- `sender.Acknowledge` for a frame that acknowledges up to `offset`. -/
def acknowledgeStep (e : StreamEnd) (frame : StreamFrame) (offset : UInt64) : StreamEnd × Next HandlePc :=
  match e.conn.sender.acknowledge frame.epoch offset frame.window with
  | .error err => (e, .goto (.unlock (some err)))
  | .ok s =>
    ({ e with conn.sender := s, hist.applied := e.hist.applied ++ [(offset, frame.window)] },
      .goto (.lockCredit frame))

/-- The `switch` of `handleFrame`, up to the next lock. -/
def dispatchStep (e : StreamEnd) (frame : StreamFrame) : StreamEnd × Next HandlePc :=
  match frame.kind with
  | .frameOpenAck => acknowledgeStep e frame 0
  | .frameAck => acknowledgeStep e frame frame.offset
  | .frameData =>
    if frame.offset > e.conn.receiver.offset then (e, .goto (.unlock (some .gap)))
    else (e, .goto (.lockCheck frame (StreamConn.unique e.conn.receiver.offset frame)))
  | .frameResume =>
    match e.conn.receiver.resume frame.epoch frame.offset with
    | .error err => (e, .goto (.unlock (some err)))
    | .ok (ack, r) => ({ e with conn.receiver := r }, .goto (.lockWindow ack))
  | .frameClose =>
    if frame.epoch ≠ e.conn.receiver.epoch then (e, .goto (.unlock (some .epoch)))
    else (e, .goto (.terminate .once))
  | .frameOpen | .other _ => (e, .goto (.unlock (some (.text "unexpected stream frame"))))

def handleStep (e : StreamEnd) (sent : Option StreamError) : HandlePc → Option (StreamEnd × Next HandlePc)
  | .enter frame => enterStep e frame
  | .sendOpenAck frame => some (e, .send (openAck frame) .sentOpenAck)
  | .sentOpenAck => some (e, .ret sent)
  | .lockHandle frame => some (e, .goto (.dispatch frame))
  | .dispatch frame => some (dispatchStep e frame)
  | .lockCredit frame => some (e, .goto (.storeCredit frame))
  | .storeCredit frame =>
    some ({ e with conn := e.conn.storeCredit frame },
      .goto (if frame.kind = .frameOpenAck then .markOpen else .unlock none))
  | .markOpen => some ({ e with conn.opened := true }, .goto (.unlock none))
  | .lockCheck frame unique => some (e, .goto (.checkData frame unique))
  | .checkData frame unique =>
    some (e, .goto (match e.conn.checkData unique with
      | some err => .unlock (some err)
      | none => .accept frame))
  | .accept frame =>
    match e.conn.receiver.accept frame with
    | .error err => some (e, .goto (.unlock (some err)))
    | .ok (payload, ack, r) => some ({ e with conn.receiver := r }, .goto (.lockAppend payload ack))
  | .lockAppend payload ack => some (e, .goto (.append payload ack))
  | .append payload ack =>
    let c := e.conn.appendData payload
    some ({ e with conn := c }, .goto (.lockResponse { ack with window := c.free }))
  | .lockWindow ack => some (e, .goto (.setWindow ack))
  | .setWindow ack => some (e, .goto (.lockResponse { ack with window := e.conn.free }))
  | .terminate pc =>
    (terminateStep e .eof pc).map fun (e', pc') =>
      (e', .goto (match pc' with
        | some pc' => .terminate pc'
        | none => .unlock none))
  | .lockResponse ack => some (e, .goto (.unlockHandle ack))
  | .unlockHandle ack => some (e, .goto (.send ack))
  | .send ack => some (e, .send ack .sent)
  | .sent => some (e, .ret sent)
  | .unlock err => some (e, .ret err)

def pcStep (e : StreamEnd) (sent : Option StreamError) (how : Choice) : Pc → Option (StreamEnd × Next Pc)
  | .read pc => (readStep e sent pc).map fun (e', n) => (e', n.map .read)
  | .write pc => (writeStep e sent pc).map fun (e', n) => (e', n.map .write)
  | .resume pc => (resumeStep e sent how pc).map fun (e', n) => (e', n.map .resume)
  | .close pc => (closeStep e sent pc).map fun (e', n) => (e', n.map .close)
  | .handle pc => (handleStep e sent pc).map fun (e', n) => (e', n.map .handle)

/-! ## Threads -/

/-- A call at one end. -/
structure Act where
  side : Side
  pc : Pc

/-- The calls a thread is in, innermost first, and what the last `mux.send` returned. -/
structure Thread where
  stack : List Act
  sent : Option StreamError

structure Sys where
  ends : Side → StreamEnd
  threads : List Thread

inductive Call where
  | read (n : Nat)
  | write (p : Bytes)
  | resume
  | close
  | handleFrame (frame : StreamFrame)

/-- A call's first position; reading into or writing nothing returns at once. -/
def Call.start : Call → Option Pc
  | .read n => if n = 0 then none else some (.read (.lockMu n))
  | .write p => if p = [] then none else some (.write (.lockWrite p))
  | .resume => some (.resume .lockWrite)
  | .close => some (.close .lockMu)
  | .handleFrame frame => some (.handle (.enter frame))

inductive Move where
  | call (side : Side) (call : Call)
  | run (thread : Nat) (how : Choice)

def Act.holds (x : Act) : List Lock := x.pc.holds.map (Lock.mk x.side)

def Act.wants (x : Act) : Option Lock := x.pc.wants.map (Lock.mk x.side)

namespace Sys

/-- The calls of all threads. -/
def acts (s : Sys) : List Act := s.threads.flatMap (·.stack)

/-- The mutexes held. -/
def held (s : Sys) : List Lock := s.acts.flatMap Act.holds

def setEnd (s : Sys) (x : Side) (e : StreamEnd) : Sys :=
  { s with ends := fun y => if y = x then e else s.ends y }

/-- The history notes what had been reported and acknowledged when `Close` is first called. -/
def noteCall (e : StreamEnd) : Call → StreamEnd
  | .close =>
    { e with hist.closedAt := e.hist.closedAt <|> some (e.hist.reported, e.conn.sender.acked) }
  | _ => e

/-- How `mux.send` goes on from `x`: the calls on top of the stack after it, and its result. -/
def sendNext (x : Act) (frame : StreamFrame) : Choice → Option (List Act × Option StreamError)
  | .sync => some ([⟨x.side.peer, .handle (.enter frame)⟩, x], none)
  | .taken => some ([x], none)
  | .refused err => some ([x], some err)
  | _ => none

/-- The step of the call `x`: its end, the calls that take its place, the thread's `sent`. -/
def actStep (s : Sys) (sent : Option StreamError) (how : Choice) (x : Act) :
    Option (StreamEnd × List Act × Option StreamError) :=
  match pcStep (s.ends x.side) sent how x.pc with
  | none => none
  | some (e, .goto pc) => some (e, [⟨x.side, pc⟩], sent)
  | some (e, .ret err) => some (e, [], err)
  | some (e, .send frame pc) =>
    (sendNext ⟨x.side, pc⟩ frame how).map fun (new, sent') => ({ e with out := e.out ++ [frame] }, new, sent')

/-- The mutex `x` is about to lock is held by some call. -/
def blocked (s : Sys) (x : Act) : Bool := x.wants.any (· ∈ s.held)

def step (s : Sys) : Move → Option Sys
  | .call x c =>
    some { (s.setEnd x (noteCall (s.ends x) c)) with
      threads := s.threads ++ [⟨(c.start.map fun pc => ⟨x, pc⟩).toList, none⟩] }
  | .run i how =>
    match s.threads[i]? with
    | some ⟨x :: rest, sent⟩ =>
      if s.blocked x then none
      else (s.actStep sent how x).map fun (e, new, sent') =>
        { (s.setEnd x.side e) with threads := s.threads.set i ⟨new ++ rest, sent'⟩ }
    | _ => none

/-- Both connections were just made. -/
def new (id : StreamID) (window : Side → UInt64) (maxFrameSize : Side → Nat) (accepted : Side → Bool) : Sys where
  ends x := StreamEnd.new id (window x) (maxFrameSize x) (accepted x)
  threads := []

end Sys

/-! ## Sample runs -/

def sampleID : StreamID := Vector.replicate 16 7

/-- A stream that was dialled from `a`, with frames of at most four bytes. -/
def samplePair (window : UInt64) : Sys := Sys.new sampleID (fun _ => window) (fun _ => 4) (· = .b)

/-- `n` steps of one thread. -/
def runs (thread n : Nat) (how : Choice) : List Move := List.replicate n (.run thread how)

end Turntf.Stream
