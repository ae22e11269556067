/-
  Turntf.Relay.Threads — a `RelayConnection` and its goroutines, section by section
  (`relay.go`, `relay_dispatch.go`, `relay_flush.go`, `relay_retry.go`).

  A step takes one goroutine from one position to the next and does what the code does in
  between: one section behind `mu`, one channel operation, the return of one sending. What
  only the goroutine itself sees is done in the step that follows it. `Choice` says which
  branch of a `select` is taken and what a sending returned.

  Goroutines: the shared reader inside `enqueueEnvelope`; `dispatchLoop`; `receiveACKLoop`;
  `sendLoop`; the retry round of a reliable-ordered connection; one task for each DATA frame
  being sent; any number of calls of the application. An envelope counts as handed to the
  network when its sending starts: from then on the peer may get it, whatever is returned.
  Timers may fire whenever the code waits for them.
-/

import Turntf.Relay.Conn

namespace Turntf.Relay

/-! ## Calls of the application -/

inductive SendPc where
  | lock
  | state
  | select

inductive FlushPc where
  | lock
  | state
  | push
  | barrier (id : Nat)
  | poll (target : Nat)
  | count (target : Nat)
  | tick (target : Nat)
  | error

inductive ClosePc where
  | lock
  | state
  | push
  | flush
  | pending
  | tick
  | readIdle
  | waitIdle (idle : Nat)
  | context
  | start
  | sent
  | result

inductive ReceivePc where
  | select
  | terminal (fallback : Err)
  | drain (remoteClosed : Bool) (cause : Option Err) (fallback : Err)

/-- A call and where it is. A `Close` notes how many payloads had been sent when it was called. -/
inductive CallPc where
  | send (data : Bytes) (pc : SendPc)
  | flush (pc : FlushPc)
  | close (before : Nat) (pc : ClosePc)
  | receive (timed : Bool) (pc : ReceivePc)
  | returned

/-- The calls between `enqueueMu.Lock()` and `enqueueMu.Unlock()`. -/
def CallPc.holds : CallPc → Bool
  | .send _ .state | .send _ .select | .flush .state | .flush .push | .close _ .state | .close _ .push => true
  | _ => false

inductive AppCall where
  | send (data : Bytes)
  | flush
  | close
  | receive (timed : Bool)

/-- What a call returned. A terminal error of `ReceiveTimeout` notes what had been received. -/
inductive Return where
  | send (data : Bytes) (err : Option Err)
  | flush (err : Option Err)
  | close (before : Nat) (err : Option Err)
  | receive (data : Bytes)
  | timeout
  | terminal (err : Err) (consumed : List Bytes)

/-! ## The connection -/

structure RelayConnection where
  config : RelayConfig
  relayID : String
  mySession : SessionRef
  life : Life
  recv : Recv
  acks : Acks
  xmit : Xmit
  calls : List CallPc
  /-- The envelopes handed to the network. -/
  out : List RelayEnvelope
  /-- What the calls returned so far. -/
  returns : List Return

inductive Choice where
  | go
  | closed
  | timer
  | retryDone
  | ack
  | cancel
  | result (err : Option Err)

def RelayEnvelope.isData (env : RelayEnvelope) : Bool := env.kind = .kindData

def RelayEnvelope.isTerminal (env : RelayEnvelope) : Bool := env.kind = .kindClose || env.kind = .kindError

namespace RelayConnection

/-- The connection of `Connect`, which sends its OPEN, or that of `acceptIncoming`, which sends
    its OPEN_ACK. -/
def new (config : RelayConfig) (relayID : String) (mySession remoteSession : SessionRef) (dialed : Bool) :
    RelayConnection where
  config := config
  relayID := relayID
  mySession := mySession
  life := {
    state := if dialed then .stateOpening else .stateOpen
    closeErr := none
    remoteClosed := false
    remoteSession := remoteSession
    openCh := !dialed
    onClose := []
    notice := .none
    registered := true
    notified := [] }
  recv := {
    expectedSeq := 1
    recvBuf := ∅
    recvReady := 0
    recvDelivered := 0
    recvCh := []
    inbox := none
    inboxSeq := ∅
    inboxData := 0
    inboxFailed := false
    inboxTerminal := false
    reader := .idle
    dispatcher := .off
    pushed := []
    consumed := [] }
  acks := {
    ackIdle := none
    idleMade := 0
    ackOut := none
    ackPending := none
    ackGenerating := 0
    ackSending := false
    worker := .off
    queued := []
    ackAccepted := [] }
  xmit := {
    sendBase := 1
    nextSeq := 1
    unacked := ∅
    retransCnt := 0
    ackCh := none
    sendCh := []
    flushCh := false
    barriers := 0
    targets := []
    loop := .start
    retry := none
    tasks := []
    took := []
    assigned := []
    acked := [] }
  calls := []
  out := [{
    relayID := relayID
    kind := if dialed then .kindOpen else .kindOpenAck
    senderSession := mySession
    targetSession := remoteSession }]
  returns := []

variable (c : RelayConnection)

def envelope (kind : RelayKind) : RelayEnvelope :=
  { relayID := c.relayID, kind := kind, senderSession := c.mySession, targetSession := c.life.remoteSession }

def ackEnvelope (ackSeq : Nat) : RelayEnvelope := { c.envelope .kindAck with ackSeq := ackSeq }

def dataEnvelope (seq : Nat) (data : Bytes) : RelayEnvelope := { c.envelope .kindData with seq := seq, payload := data }

def reliable : Bool := c.config.reliability ≠ .bestEffort

def ordered : Bool := c.config.reliability = .reliableOrdered

def closeWith (reason : Option Err) : RelayConnection := { c with life := c.life.closeConnection reason }

def emit (env : RelayEnvelope) : RelayConnection := { c with out := c.out ++ [env] }

/-- Only an explicit temporary rejection by the server is retryable. -/
def retryableSendError (err : Option Err) : Bool :=
  c.reliable && !c.life.closed && err = some (.server "service_unavailable")

/-- What `sendRelayEnvelope` makes of the result of `sendRelayEnvelopeOnce`. -/
def sendResult (env : RelayEnvelope) (err : Option Err) : Option Err :=
  if env.isData && c.retryableSendError err then none else err

/-- `if err := c.sendRelayEnvelope(env); err != nil { c.handleClose(err) }`, when it returns. -/
def sentData (env : RelayEnvelope) (err : Option Err) : RelayConnection :=
  { c with life := match c.sendResult env err with
    | none => c.life
    | some e => c.life.closeConnection (some e) }

/-! ## Admission: `enqueueEnvelope` -/

def window : Int := max c.config.windowSize 1

def budget : Int := recvCap + 2 * c.window

def dedup (env : RelayEnvelope) : Bool := env.isData && c.ordered

def readerAt (pc : ReaderPc) : RelayConnection := { c with recv.reader := pc }

/-- `enqueueEnvelope` up to the end of its first section. -/
def enqueueEnvelope (env : RelayEnvelope) : Option RelayConnection :=
  match c.recv.reader with
  | .idle => some (c.readerAt (.snapped env c.life.closed (c.recv.recvBuf.keys.length + c.recv.recvReady)
      (c.recv.recvBuf.lookup env.seq).isSome c.recv.expectedSeq c.recv.recvDelivered))
  | _ => none

/-- Whether the frame is past the window that starts after what is pending. -/
def beyondWindow (expected : Nat) (env : RelayEnvelope) : Bool :=
  let front := frontier c.recv.inboxSeq.card c.recv.inboxSeq expected
  env.seq ≥ front && env.seq - front ≥ uint64 c.window

/-- Where `enqueueEnvelope` goes on after the budget of DATA. -/
def afterBudget (env : RelayEnvelope) (buffered : Int) : ReaderPc :=
  if env.isData && c.recv.inboxData + c.recv.recvCh.length + buffered ≥ c.budget then
    if c.dedup env then .idle else .fail
  else if env.isData && c.reliable then .begin env
  else .push env

/-- The inbox takes the envelope. -/
def admitted (env : RelayEnvelope) (queue : List RelayEnvelope) : RelayConnection :=
  { c with recv := { c.recv with
      reader := .idle
      inbox := some (queue ++ [env])
      inboxTerminal := c.recv.inboxTerminal || env.isTerminal
      inboxData := if env.isData then c.recv.inboxData + 1 else c.recv.inboxData
      inboxSeq := if c.dedup env then insert env.seq c.recv.inboxSeq else c.recv.inboxSeq } }

def readerStep : Option RelayConnection :=
  match c.recv.reader with
  | .idle => none
  | .snapped env closed buffered reordered expected delivered =>
    if closed || c.recv.inboxFailed then some (c.readerAt .idle)
    else if env.kind = .kindAck && !c.recv.inboxTerminal then
      some { c.readerAt .idle with xmit := c.xmit.handleAck c.config.reliability env }
    else if env.isData && c.recv.inboxTerminal then some (c.readerAt .idle)
    else if c.dedup env && (env.seq ∈ c.recv.inboxSeq || reordered) then some (c.readerAt .idle)
    else if c.dedup env && env.seq < expected then
      if delivered > 0 then
        some { c.readerAt .idle with acks := c.acks.queueACK c.life.closed (c.ackEnvelope delivered) }
      else some (c.readerAt .idle)
    else if c.dedup env && c.beyondWindow expected env then some (c.readerAt .idle)
    else
      match c.recv.inbox with
      | none =>
        if c.life.closed then some (c.readerAt .idle)
        else some { c with recv := { c.recv with
          reader := .budget env buffered, inbox := some [], inboxSeq := ∅, dispatcher := .select } }
      | some _ => some (c.readerAt (c.afterBudget env buffered))
  | .budget env buffered => some (c.readerAt (c.afterBudget env buffered))
  | .begin env =>
    if c.life.closed then some (c.readerAt .idle)
    else some { c.readerAt (.push env) with acks := c.acks.beginReceiveACK }
  | .push env =>
    match c.recv.inbox with
    | none => none
    | some queue =>
      if queue.length < c.budget + 8 then some (c.admitted env queue)
      else if env.isData && c.reliable then some (c.readerAt (.undo env))
      else if c.dedup env then some (c.readerAt .idle)
      else some (c.readerAt .fail)
  | .undo env =>
    some { c.readerAt (if c.dedup env then .idle else .fail) with acks := c.acks.finishReceiveACK }
  | .fail =>
    some { c with
      recv := { c.recv with reader := .idle, inboxFailed := true }
      life := c.life.closeConnection (some .receiveOverflow) }

/-! ## `dispatchLoop` -/

def dispatcherAt (pc : DispatchPc) : RelayConnection := { c with recv.dispatcher := pc }

/-- Where `dispatchLoop` is after `handleEnvelope`. -/
def handled (env : RelayEnvelope) : DispatchPc := if env.isData && c.reliable then .finish env else .release env

def handleData (env : RelayEnvelope) : RelayConnection :=
  { c with recv := match c.config.reliability with
    | .bestEffort | .atLeastOnce => { c.recv with dispatcher := .deliverOne env }
    | .reliableOrdered =>
      match c.recv.order c.config.windowSize env with
      | (recv, some ready) => { recv with dispatcher := .delivering env ready (recv.expectedSeq - 1) }
      | (recv, none) => { recv with dispatcher := c.handled env } }

def handleEnvelope (env : RelayEnvelope) : RelayConnection :=
  let c' := c.dispatcherAt (c.handled env)
  match env.kind with
  | .kindOpenAck => { c' with life := c.life.handleOpenAck env }
  | .kindClose => { c' with life := c.life.closeWithSource (some .remoteClose) true }
  | .kindError => { c' with life := c.life.closeConnection (some (.remoteError env.payload)) }
  | .kindData => c.handleData env
  | .kindAck => { c' with xmit := c.xmit.handleAck c.config.reliability env }
  | .kindPing => (c.dispatcherAt (.ping env)).emit (c.envelope .kindError)
  | .kindOpen | .kindUnspecified => c'

/-- Sending on `recvCh`. -/
def deliver (seq : Nat) (data : Bytes) (pc : DispatchPc) : Option RelayConnection :=
  if c.recv.recvCh.length < recvCap then
    some { c with recv := { c.recv with
      recvCh := c.recv.recvCh ++ [data], pushed := c.recv.pushed ++ [(seq, data)], dispatcher := pc } }
  else none

def dispatchStep (how : Choice) : Option RelayConnection :=
  match c.recv.dispatcher, how with
  | .select, .go =>
    match c.recv.inbox with
    | some (env :: queue) => some { c with recv := { c.recv with inbox := some queue, dispatcher := .check env } }
    | _ => none
  | .select, .closed => if c.life.closed then some (c.dispatcherAt .exiting) else none
  | .check env, .go =>
    if c.life.closed then some (c.dispatcherAt .exiting)
    else if env.isTerminal then some (c.dispatcherAt (.readIdle env))
    else some (c.dispatcherAt (.handle env))
  | .readIdle env, .go =>
    match c.acks.ackIdle with
    | none => some (c.dispatcherAt (.handle env))
    | some idle => some (c.dispatcherAt (.waitIdle env idle))
  | .waitIdle env idle, .go => if c.acks.ackIdle = some idle then none else some (c.dispatcherAt (.handle env))
  | .waitIdle env _, .closed => if c.life.closed then some (c.dispatcherAt (.handle env)) else none
  | .handle env, .go => some (c.handleEnvelope env)
  | .deliverOne env, .go =>
    c.deliver env.seq env.payload (if c.reliable then .queue env env.seq else c.handled env)
  | .deliverOne env, .closed => if c.life.closed then some (c.dispatcherAt (c.handled env)) else none
  | .deliver env seq data ready ackSeq, .go => c.deliver seq data (.delivered env ready ackSeq)
  | .deliver env _ _ _ _, .closed => if c.life.closed then some (c.dispatcherAt (c.handled env)) else none
  | .delivered env ready ackSeq, .go =>
    some { c with recv := { c.recv with
      recvReady := c.recv.recvReady - 1, dispatcher := .delivering env ready ackSeq } }
  | .settle env ackSeq, .go =>
    some { c with recv := { c.recv with
      recvDelivered := ackSeq, dispatcher := if ackSeq = 0 then c.handled env else .queue env ackSeq } }
  | .queue env ackSeq, .go =>
    some { c.dispatcherAt (c.handled env) with acks := c.acks.queueACK c.life.closed (c.ackEnvelope ackSeq) }
  | .ping env, .result _ => some (c.dispatcherAt (c.handled env))
  | .finish env, .go => some { c.dispatcherAt (.release env) with acks := c.acks.finishReceiveACK }
  | .release env, .go =>
    match c.recv.reader with
    | .idle => some { c with recv := { c.recv.release env with dispatcher := .select } }
    | _ => none
  | .exiting, .go =>
    match c.recv.reader with
    | .idle => some { c with recv := { c.recv.shut with dispatcher := .exited } }
    | _ => none
  | _, _ => none

/-! ## `receiveACKLoop` -/

def workerAt (pc : AckPc) : RelayConnection := { c with acks.worker := pc }

def ackStep (how : Choice) : Option RelayConnection :=
  match c.acks.worker, how with
  | .select, .go =>
    match c.acks.ackOut with
    | some true => some { c with acks := { c.acks with ackOut := some false, worker := .grab } }
    | _ => none
  | .select, .closed => if c.life.closed then some (c.workerAt .exited) else none
  | .grab, .go =>
    match c.acks.ackPending with
    | none => some { c with acks := { c.acks.grab with worker := .select } }
    | some env => some ({ c with acks := { c.acks.grab with worker := .sending env 0 } }.emit env)
  | .sending env retries, .result err =>
    let err := c.sendResult env err
    if c.retryableSendError err && retries < c.config.maxRetransmits then some (c.workerAt (.delay env (retries + 1)))
    else some { c with acks := { c.acks with
      worker := .sent err
      ackAccepted := if err = none then c.acks.ackAccepted ++ [env.ackSeq] else c.acks.ackAccepted } }
  | .delay env retries, .timer => some ((c.workerAt (.sending env retries)).emit env)
  | .delay _ _, .closed => if c.life.closed then some (c.workerAt (.sent (some .context))) else none
  | .sent err, .go =>
    some { c with acks := { c.acks.sent err with worker := match err with
      | none => .grab
      | some e => .failing e } }
  | .failing err, .go => some ((c.workerAt .exited).closeWith (some err))
  | _, _ => none

/-! ## `sendLoop`, `retransmit` and their tasks -/

def sendCap : Nat := c.config.sendBufferSize / 1024

def loopAt (pc : LoopPc) : RelayConnection := { c with xmit.loop := pc }

def slotFree : Bool := c.xmit.inflight < inflightLimit c.config.windowSize

/-- The frames `retransmit` collects. -/
def retransmitFrames : List RelayEnvelope :=
  (List.range' c.xmit.sendBase (c.xmit.nextSeq - c.xmit.sendBase)).filterMap fun seq =>
    (c.xmit.unacked.lookup seq).map (c.dataEnvelope seq)

/-- A task that sends `env` starts. -/
def spawn (env : RelayEnvelope) (retransmitted : Bool) : RelayConnection :=
  let task : Task := { env := env, retransmitted := retransmitted, returned := false }
  { c with xmit.tasks := c.xmit.tasks ++ [task] }.emit env

/-- `retransmit`. A reliable-ordered connection sends its frames in tasks, any other one in
    `retransmit` itself. -/
def retryStep (pc : RetryPc) (how : Choice) : Option (RelayConnection × RetryPc) :=
  match pc, how with
  | .start, .go =>
    if c.xmit.unacked.keys = [] then some (c, .wait)
    else
      let c' := { c with xmit.retransCnt := c.xmit.retransCnt + 1 }
      if c.xmit.retransCnt + 1 > c.config.maxRetransmits then some (c', .tooMany)
      else some (c', .next c.retransmitFrames)
  | .tooMany, .go => some (c.closeWith (some .maxRetransmit), .wait)
  | .next [], .go => some (c, .wait)
  | .next (env :: frames), .go =>
    if c.xmit.retryStillPending c.life.closed env.seq then some (c, .acquire env frames) else some (c, .next frames)
  | .acquire env frames, .go => if c.slotFree then some (c, .recheck env frames) else none
  | .acquire _ _, .closed => if c.life.closed then some (c, .wait) else none
  | .recheck env frames, .go =>
    if c.xmit.retryStillPending c.life.closed env.seq then
      if c.ordered then some (c.spawn env true, .next frames) else some (c.emit env, .sending env frames)
    else some (c, .next frames)
  | .sending env frames, .result err => some (c.sentData env err, .sent frames)
  | .sent frames, .go => some (c, .next frames)
  | .wait, .go => if c.xmit.tasks.all (!·.retransmitted) then some (c, .done) else none
  | _, _ => none

/-- Where the loop goes on after `retry()` or `finishRetry()`. -/
def loopBack : Option Bytes → LoopPc
  | none => .select
  | some data => .data data

/-- `retry()` of `sendLoop`: one round at a time. -/
def startRetry (back : Option Bytes) : RelayConnection :=
  if c.xmit.retry.isSome then c.loopAt (loopBack back)
  else if c.ordered then { c with xmit.retry := some .start, xmit.loop := loopBack back }
  else c.loopAt (.retry .start back)

/-- `<-retryDone` and `finishRetry()`. -/
def finishRetry (back : Option Bytes) : Option RelayConnection :=
  match c.xmit.retry with
  | some .done => some { c with xmit.retry := none, xmit.loop := loopBack back }
  | _ => none

def loopStep (how : Choice) : Option RelayConnection :=
  match c.xmit.loop, how with
  | .start, .go => some { c with xmit.ackCh := some false, xmit.loop := .select }
  | .select, .go =>
    match c.xmit.sendCh with
    | item :: items => some { c with xmit := { c.xmit with sendCh := items }.receive item }
    | [] => none
  | .select, .timer => if c.reliable then some (c.startRetry none) else none
  | .select, .retryDone => c.finishRetry none
  | .select, .closed => if c.life.closed then some (c.loopAt .exiting) else none
  | .barrier id, .go =>
    if c.xmit.settled then
      some { c with xmit.targets := c.xmit.targets ++ [(id, c.xmit.nextSeq)], xmit.loop := .select }
    else none
  | .marker, .go => if c.xmit.settled then some { c with xmit.flushCh := true, xmit.loop := .select } else none
  | .data data, .go =>
    if c.reliable then
      if c.xmit.nextSeq - c.xmit.sendBase ≥ uint64 c.config.windowSize then some (c.loopAt (.window data))
      else some ({ c with xmit := c.xmit.assign data }.loopAt (.acquire (c.dataEnvelope c.xmit.nextSeq data)))
    else
      let env := c.dataEnvelope 0 data
      some ((c.loopAt (.sending env)).emit env)
  | .window data, .ack =>
    match c.xmit.ackCh with
    | some true => some { c with xmit.ackCh := some false, xmit.loop := .data data }
    | _ => none
  | .window data, .timer => some (c.startRetry (some data))
  | .window data, .retryDone => c.finishRetry (some data)
  | .window _, .closed => if c.life.closed then some (c.loopAt .exiting) else none
  | .acquire env, .go => if c.slotFree then some ((c.loopAt .select).spawn env false) else none
  | .acquire _, .closed => if c.life.closed then some (c.loopAt .exiting) else none
  | .sending env, .result err => some ((c.loopAt .select).sentData env err)
  | .retry .done back, .go => some (c.loopAt (loopBack back))
  | .retry pc back, how => (c.retryStep pc how).map fun (c, pc) => c.loopAt (.retry pc back)
  | .exiting, .go => if c.xmit.settled then some (c.loopAt .exited) else none
  | _, _ => none

/-- The retry round of a reliable-ordered connection. -/
def roundStep (how : Choice) : Option RelayConnection :=
  match c.xmit.retry with
  | some pc => (c.retryStep pc how).map fun (c, pc) => { c with xmit.retry := some pc }
  | none => none

/-- Task `i`: its sending returns, then it gives its slot back. -/
def taskStep (i : Nat) (err : Option Err) : Option RelayConnection :=
  match c.xmit.tasks[i]? with
  | none => none
  | some task =>
    if task.returned then some { c with xmit.tasks := c.xmit.tasks.eraseIdx i }
    else some ({ c with xmit.tasks := c.xmit.tasks.set i { task with returned := true } }.sentData task.env err)

end RelayConnection

end Turntf.Relay
