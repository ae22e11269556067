/-
  Turntf.Client.Transport — a `Client`: its transport generations, the calls that write
  frames, and the tables of those that wait for an answer (`client.go`).

  A transport is numbered when it has logged in; `c.conn` is the number of the current one. A
  step is one section behind `stateMu`, `pendingMu` or `streamSendMu`, one channel operation,
  one call of the handler or one turn of a goroutine in between. `writeMu` is held from
  `check` to `invalidate`.

  Goroutines: `run` with the read loop and the teardown of each generation, one after the
  other; any number of calls, each an RPC (`rpcOnTransport`, `Ping` among them), a
  `SendStreamFrameTracked` or another frame; the `AfterFunc` of each RPC; any number of
  `Close` calls. The server and the network are the environment: any envelope may arrive
  while a transport is read, any read or write may fail. The channel of an RPC is known by
  the number of its call. Request IDs are natural numbers: the 64-bit counter is taken not to
  wrap.
-/

import Mathlib.Data.List.AList
import Turntf.Stream.Protocol

namespace Turntf

namespace Client

inductive Err where
  | closed
  | notConnected
  | disconnected
  | streamSendPendingFull
  | server (code message : String) (requestID : Nat)
  | canceled
  | deadline
  | text (message : String)
  deriving DecidableEq

/-! ## Requests and their answers -/

structure StreamSendMetadata where
  target : UserRef
  targetSession : SessionRef
  streamID : Stream.StreamID
  kind : Stream.StreamFrameKind
  epoch : UInt64
  deriving DecidableEq

structure StreamSendResult where
  requestID : Nat
  metadata : StreamSendMetadata
  err : Option Err
  deriving DecidableEq

/-- `requestResult`: what a server envelope with that request ID gave, or the error of
    `failAllPending`. -/
inductive RequestResult where
  | response (requestID : Nat) (res : Except Err Bytes)
  | failure (err : Err)

def RequestResult.res : RequestResult → Except Err Bytes
  | .response _ res => res
  | .failure err => .error err

/-- The envelopes that complete requests. The responses of all RPCs are alike, `res` is what
    the read loop makes of one; every other envelope touches none of this. -/
inductive ServerEnvelope where
  | response (requestID : Nat) (res : Except Err Bytes)
  | streamFrameResult (requestID : Nat)
  | error (code message : String) (requestID : Nat)
  | other

/-- What the application calls. -/
inductive Request where
  | rpc (ping : Bool)
  | tracked (target : UserRef) (targetSession : SessionRef) (frame : Stream.StreamFrame)
  | frame

def validateUser (r : UserRef) : Option String :=
  if r.nodeID = 0 then some "node_id is required"
  else if r.userID = 0 then some "user_id is required"
  else none

def validateSession (r : SessionRef) : Option String :=
  if r.servingNodeID = 0 then some "serving_node_id is required"
  else if r.sessionID = "" then some "session_id is required"
  else none

/-- What `SendStreamFrameTracked` refuses before it takes a request ID. -/
def validateTracked (target : UserRef) (targetSession : SessionRef) (frame : Stream.StreamFrame) : Option String :=
  match validateUser target with
  | some err => some err
  | none =>
    match if targetSession = ⟨0, ""⟩ then none else validateSession targetSession with
    | some err => some ("invalid target_session: " ++ err)
    | none =>
      match frame.kind with
      | .other code => some ("invalid stream frame kind " ++ toString code.val.toNat)
      | _ =>
        if frame.payload.length > Stream.defaultStreamMaxFrame then
          some ("stream payload exceeds " ++ toString Stream.defaultStreamMaxFrame ++ " bytes")
        else none

/-! ## Calls -/

inductive CallKind where
  | rpc (ping : Bool)
  | tracked (metadata : StreamSendMetadata)
  | frame

/-- Where a call is: at `nextRequestID`, in its registration, in `sendEnvelopeOnTransport` from
    `capture` to `failed`, and after it. -/
inductive CallPc where
  | nextID
  | isClosed
  | register
  | capture
  | lock
  | check
  | context
  | write
  | invalidate (err : Err)
  | failed (err : Err)
  | wait
  | unregister (res : Except Err Bytes)
  | ping (err : Err)
  | returned (res : Except Err Bytes)

/-- The calls between `writeMu.Lock()` and `writeMu.Unlock()`. -/
def CallPc.writes : CallPc → Bool
  | .check | .context | .write | .invalidate _ => true
  | _ => false

structure Call where
  kind : CallKind
  requestID : Nat
  pc : CallPc
  /-- The transport it captured. -/
  conn : Option Nat
  /-- Why its context is done, if it is. -/
  ctx : Option Err
  resultCh : Option RequestResult
  /-- All that was put into `resultCh`. -/
  got : List RequestResult

namespace Call

variable (call : Call)

def isRpc : Bool :=
  match call.kind with
  | .rpc _ => true
  | _ => false

def isTracked : Bool :=
  match call.kind with
  | .tracked _ => true
  | _ => false

/-- A send on `resultCh` that does not wait. -/
def offer (r : RequestResult) : Call :=
  match call.resultCh with
  | none => { call with resultCh := some r, got := call.got ++ [r] }
  | some _ => call

end Call

/-! ## The goroutine of `run` -/

structure LoginInfo where
  user : UserRef
  protocolVersion : String
  sessionRef : SessionRef
  deriving DecidableEq

def LoginInfo.zero : LoginInfo := ⟨⟨0, 0⟩, "", ⟨0, ""⟩⟩

/-- How loading the seen messages, dialing and logging in end. -/
inductive LoginOutcome where
  | failed (err : Err)
  | refused (code message : String) (requestID : Nat)
  | unexpected
  | response (info : LoginInfo)

def clientProtocolVersion : String := "client-v1alpha5"

/-- Where `run` is: in `connectAndServe` up to `notifyAll`, then in its own loop. -/
inductive RunPc where
  | off
  | start
  | connect
  | login (info : LoginInfo)
  | signal (g : Nat)
  | read (g : Nat)
  | resolve (g requestID : Nat) (res : Except Err Bytes) (orElse : Option Err)
  | deliver (g ch : Nat) (r : RequestResult)
  | complete (g requestID : Nat) (err : Option Err)
  | notify (g : Nat) (result : StreamSendResult)
  | clear (g : Nat) (err : Err)
  | failPending (g : Nat) (err : Err)
  | failStreams (g : Nat) (err : Err)
  | notifyAll (g : Nat) (err : Err) (results : List StreamSendResult)
  | decide (err : Option Err)
  | signalLast (err : Err)
  | failLast (err : Err)
  | backoff
  | exited

/-- Where a `Close` is. -/
inductive ClosePc where
  | start
  | cancel
  | failStreams
  | notifyAll (results : List StreamSendResult)
  | wait
  | returned

structure Closer where
  started : Bool
  pc : ClosePc

/-! ## The client -/

structure Config where
  streamSendPendingLimit : Int
  initialReconnectDelay : Int
  maxReconnectDelay : Int
  /-- Whether `cfg.Handler` is a `StreamSendHandler`. -/
  streamSendHandler : Bool
  deriving DecidableEq

def defaultStreamSendPendingLimit : Int := 1024

/-- The defaults of `NewClient`, in nanoseconds where they are durations. -/
def Config.normalized (cfg : Config) : Config where
  streamSendPendingLimit :=
    if cfg.streamSendPendingLimit ≤ 0 then defaultStreamSendPendingLimit else cfg.streamSendPendingLimit
  initialReconnectDelay := if cfg.initialReconnectDelay ≤ 0 then 1000000000 else cfg.initialReconnectDelay
  maxReconnectDelay := if cfg.maxReconnectDelay ≤ 0 then 30000000000 else cfg.maxReconnectDelay
  streamSendHandler := cfg.streamSendHandler

end Client

structure Client where
  cfg : Client.Config
  closed : Bool
  conn : Option Nat
  authenticated : Bool
  loginInfo : Client.LoginInfo
  stopReconnect : Bool
  canceled : Bool
  requestID : Nat
  pending : AList fun _ : Nat => Nat
  streamSendPending : AList fun _ : Nat => Client.StreamSendMetadata
  firstConnect : Option (Option Client.Err)
  delay : Int
  run : Client.RunPc
  calls : List Client.Call
  closers : List Client.Closer
  /-- How many transports have logged in, those whose `failAllPending` has finished, and those
      whose `failAllStreamSends` has. -/
  logins : Nat
  failed : List Nat
  torn : List Nat
  /-- The calls whose frame was handed to a transport, and the transport. -/
  handed : List (Nat × Nat)
  /-- The calls of `OnStreamSendResult`. -/
  results : List Client.StreamSendResult
  slept : List Int

namespace Client

def new (cfg : Config) : Client where
  cfg := cfg.normalized
  closed := false
  conn := none
  authenticated := false
  loginInfo := .zero
  stopReconnect := false
  canceled := false
  requestID := 0
  pending := ∅
  streamSendPending := ∅
  firstConnect := none
  delay := cfg.normalized.initialReconnectDelay
  run := .off
  calls := []
  closers := []
  logins := 0
  failed := []
  torn := []
  handed := []
  results := []
  slept := []

variable (c : Client)

/-! ## Sections -/

def invalidateTransport (g : Nat) : Client :=
  if c.conn = some g then { c with conn := none, authenticated := false, loginInfo := .zero } else c

/-- A server error that answers the ping, and the errors of a client that is closed, not
    connected or canceled, say nothing about the transport. -/
def invalidatePingTransport (conn : Option Nat) (err : Err) : Client :=
  match conn, err with
  | none, _ | _, .server _ _ _ | _, .closed | _, .notConnected | _, .canceled => c
  | some g, _ => c.invalidateTransport g

def failAllPending (err : Err) : Client :=
  { c with calls := c.pending.entries.foldl (fun calls e => calls.modify e.2 (·.offer (.failure err))) c.calls }

/-- The entries `failAllStreamSends` takes, as the results it then reports. -/
def streamSendResults (err : Err) : List StreamSendResult :=
  c.streamSendPending.entries.map fun e => ⟨e.1, e.2, some err⟩

def notifyStreamSend (result : StreamSendResult) : Client :=
  if c.cfg.streamSendHandler then { c with results := c.results ++ [result] } else c

def signalFirstConnect (err : Option Err) : Client :=
  match c.firstConnect with
  | none => { c with firstConnect := some err }
  | some _ => c

def shouldRetry (err : Err) : Bool :=
  !c.closed && !c.stopReconnect && match err with
    | .server code _ _ => code ≠ "unauthorized"
    | .closed => false
    | _ => true

/-! ## The steps of a call -/

inductive Choice where
  | go
  | cancel
  | result (err : Option Err)

def setCall (i : Nat) (call : Call) : Client := { c with calls := c.calls.set i call }

def writing : Bool := c.calls.any fun call => call.pc.writes

/-- The registration of an RPC, whose channel is that of call `i`, or of a tracked send. -/
def registerStep (i : Nat) (call : Call) : Client :=
  match call.kind with
  | .rpc _ => { c with pending := c.pending.insert call.requestID i }.setCall i { call with pc := .capture }
  | .tracked metadata =>
    if c.closed then c.setCall i { call with pc := .returned (.error .closed) }
    else if c.streamSendPending.entries.length ≥ c.cfg.streamSendPendingLimit then
      c.setCall i { call with pc := .returned (.error .streamSendPendingFull) }
    else
      { c with streamSendPending := c.streamSendPending.insert call.requestID metadata }.setCall i
        { call with pc := .capture }
  | .frame => c.setCall i { call with pc := .capture }

/-- `sendEnvelopeOnTransport` up to the end of its section. -/
def captureStep (i : Nat) (call : Call) : Client :=
  if c.closed then c.setCall i { call with pc := .failed .closed }
  else if c.conn = none ∨ c.authenticated = false then c.setCall i { call with pc := .failed .notConnected }
  else c.setCall i { call with pc := .lock, conn := c.conn }

/-- The staleness check of `writeProtoOnTransport`. -/
def checkStep (i : Nat) (call : Call) : Client :=
  if c.closed then c.setCall i { call with pc := .failed .closed }
  else if c.conn = call.conn ∧ c.authenticated then c.setCall i { call with pc := .context }
  else c.setCall i { call with pc := .failed .disconnected }

/-- The frame is handed to the transport, unless the caller has left. -/
def contextStep (i : Nat) (call : Call) : Client :=
  match call.ctx with
  | some err => c.setCall i { call with pc := .failed err }
  | none => { c with handed := c.handed ++ call.conn.toList.map fun g => (i, g) }.setCall i { call with pc := .write }

/-- The frame was written. -/
def writtenStep (i : Nat) (call : Call) : Client :=
  match call.kind with
  | .rpc _ => c.setCall i { call with pc := .wait }
  | .tracked _ | .frame => c.setCall i { call with pc := .returned (.ok []) }

/-- `sendEnvelope` returned an error. A tracked send takes its entry back, if it is there. -/
def failedStep (i : Nat) (call : Call) (err : Err) : Client :=
  match call.kind with
  | .rpc _ => c.setCall i { call with pc := .unregister (.error err) }
  | .tracked _ =>
    { c with streamSendPending := c.streamSendPending.erase call.requestID }.setCall i
      { call with pc := .returned (.error err) }
  | .frame => c.setCall i { call with pc := .returned (.error err) }

def unregisterStep (i : Nat) (call : Call) (res : Except Err Bytes) : Client :=
  { c with pending := c.pending.erase call.requestID }.setCall i { call with pc := match call.kind, res with
    | .rpc true, .error err => .ping err
    | _, _ => .returned res }

def callStep (i : Nat) (how : Choice) : Option Client :=
  match c.calls[i]? with
  | none => none
  | some call =>
    match call.pc, how with
    | .nextID, .go =>
      some ({ c with requestID := c.requestID + 1 }.setCall i { call with
        requestID := c.requestID + 1
        pc := if call.isRpc then .isClosed else .register })
    | .isClosed, .go => some (c.setCall i { call with pc := if c.closed then .returned (.error .closed) else .register })
    | .register, .go => some (c.registerStep i call)
    | .capture, .go => some (c.captureStep i call)
    | .lock, .go => if c.writing then none else some (c.setCall i { call with pc := .check })
    -- the envelope cannot be marshalled
    | .lock, .result (some err) => some (c.setCall i { call with pc := .failed err })
    | .check, .go => some (c.checkStep i call)
    | .context, .go => some (c.contextStep i call)
    | .write, .result none => some (c.writtenStep i call)
    | .write, .result (some err) => some (c.setCall i { call with pc := .invalidate err })
    | .invalidate err, .go =>
      some ((match call.conn with
        | some g => c.invalidateTransport g
        | none => c).setCall i { call with pc := .failed err })
    | .failed err, .go => some (c.failedStep i call err)
    | .wait, .go => call.resultCh.map fun r => c.setCall i { call with resultCh := none, pc := .unregister r.res }
    | .wait, .cancel => call.ctx.map fun err => c.setCall i { call with pc := .unregister (.error err) }
    | .unregister res, .go => some (c.unregisterStep i call res)
    | .ping err, .go =>
      some ((c.invalidatePingTransport call.conn err).setCall i { call with pc := .returned (.error err) })
    | _, _ => none

def newCall (kind : CallKind) (pc : CallPc) : Call :=
  { kind := kind, requestID := 0, pc := pc, conn := none, ctx := none, resultCh := none, got := [] }

/-- A call starts. -/
def startCall : Request → Client
  | .rpc ping => { c with calls := c.calls ++ [newCall (.rpc ping) .nextID] }
  | .tracked target targetSession frame =>
    let metadata : StreamSendMetadata := ⟨target, targetSession, frame.id, frame.kind, frame.epoch⟩
    { c with calls := c.calls ++ [newCall (.tracked metadata) (match validateTracked target targetSession frame with
      | some err => .returned (.error (.text err))
      | none => .nextID)] }
  | .frame => { c with calls := c.calls ++ [newCall .frame .capture] }

/-- The `AfterFunc` of an RPC whose context is done. -/
def cleanup (i : Nat) : Option Client :=
  match c.calls[i]? with
  | none => none
  | some call =>
    match call.kind, call.ctx, call.pc with
    | .rpc _, some _, .nextID | .rpc _, some _, .isClosed | .rpc _, some _, .register => none
    | .rpc _, some _, _ => some { c with pending := c.pending.erase call.requestID }
    | _, _, _ => none

/-! ## The steps of `run` -/

inductive Serve where
  | go
  | login (outcome : LoginOutcome)
  | receive (env : ServerEnvelope)
  | fail (err : Err)
  | closed

def runAt (pc : RunPc) : Client := { c with run := pc }

/-- The end of `expectLogin`, and of what comes before it. -/
def loginStep : LoginOutcome → Client
  | .failed err => c.runAt (.decide (some err))
  | .refused code message requestID =>
    { c with stopReconnect := code = "unauthorized" || code = "unsupported_protocol_version" }.runAt
      (.decide (some (.server code message requestID)))
  | .unexpected => c.runAt (.decide (some (.text "expected login_response or error")))
  | .response info =>
    if info.protocolVersion ≠ clientProtocolVersion then
      { c with stopReconnect := true }.runAt (.decide (some (.text
        ("unsupported login response protocol version: got=" ++ info.protocolVersion.quote ++ " want=" ++
          clientProtocolVersion.quote))))
    else c.runAt (.login info)

/-- `handleServerEnvelope` up to its first section. -/
def handleServerEnvelope (g : Nat) : ServerEnvelope → Client
  | .response requestID res => c.runAt (.resolve g requestID res none)
  | .streamFrameResult requestID => c.runAt (.complete g requestID none)
  | .error code message requestID =>
    if requestID = 0 then c.runAt (.read g)
    else
      let err : Err := .server code message requestID
      c.runAt (.resolve g requestID (.error err) (some err))
  | .other => c.runAt (.read g)

/-- The section of `resolvePending`. An error that no RPC waits for may be that of a stream send. -/
def resolveStep (g requestID : Nat) (res : Except Err Bytes) (orElse : Option Err) : Client :=
  match c.pending.lookup requestID, orElse with
  | some ch, _ => c.runAt (.deliver g ch (.response requestID res))
  | none, some err => c.runAt (.complete g requestID (some err))
  | none, none => c.runAt (.read g)

/-- `completeStreamSend` up to the end of its section. -/
def completeStep (g requestID : Nat) (err : Option Err) : Client :=
  match c.streamSendPending.lookup requestID with
  | none => c.runAt (.read g)
  | some metadata =>
    { c with streamSendPending := c.streamSendPending.erase requestID }.runAt (.notify g ⟨requestID, metadata, err⟩)

/-- The end of the teardown's `failAllStreamSends`, one call of the handler after the other. -/
def notifyAllStep (g : Nat) (err : Err) : List StreamSendResult → Client
  | [] => { c with torn := c.torn ++ [g] }.runAt (.decide (some err))
  | result :: results => (c.notifyStreamSend result).runAt (.notifyAll g err results)

def decideStep : Option Err → Client
  | none => { c with delay := c.cfg.initialReconnectDelay }.runAt (if c.closed then .exited else .start)
  | some err => c.runAt (if c.closed || !c.shouldRetry err then .signalLast err else .backoff)

/-- The wait before the next connection. -/
def backoffStep : Client :=
  let delay := c.delay * 2
  { c with
    slept := c.slept ++ [c.delay]
    delay := if delay > c.cfg.maxReconnectDelay then c.cfg.maxReconnectDelay else delay }.runAt .start

def serveStep (how : Serve) : Option Client :=
  match c.run, how with
  | .start, .go => some (c.runAt (if c.closed then .decide (some .closed) else .connect))
  | .connect, .login outcome => some (c.loginStep outcome)
  | .login info, .go =>
    some ({ c with conn := some c.logins, authenticated := true, loginInfo := info, logins := c.logins + 1 }.runAt
      (.signal c.logins))
  | .signal g, .go => some ((c.signalFirstConnect none).runAt (.read g))
  | .read g, .receive env => some (c.handleServerEnvelope g env)
  | .read g, .fail err => some (c.runAt (.clear g err))
  | .resolve g requestID res orElse, .go => some (c.resolveStep g requestID res orElse)
  | .deliver g ch r, .go => some ({ c with calls := c.calls.modify ch (·.offer r) }.runAt (.read g))
  | .complete g requestID err, .go => some (c.completeStep g requestID err)
  | .notify g result, .go => some ((c.notifyStreamSend result).runAt (.read g))
  | .clear g err, .go =>
    some ({ c with conn := if c.conn = some g then none else c.conn, authenticated := false, loginInfo := .zero }.runAt
      (.failPending g err))
  | .failPending g err, .go =>
    some ({ c.failAllPending .disconnected with failed := c.failed ++ [g] }.runAt (.failStreams g err))
  | .failStreams g err, .go =>
    some ({ c with streamSendPending := ∅ }.runAt (.notifyAll g err (c.streamSendResults .disconnected)))
  | .notifyAll g err results, .go => some (c.notifyAllStep g err results)
  | .decide err, .go => some (c.decideStep err)
  | .signalLast err, .go => some ((c.signalFirstConnect (some err)).runAt (.failLast err))
  | .failLast err, .go => some ((c.failAllPending err).runAt .exited)
  | .backoff, .go => some c.backoffStep
  | .backoff, .closed => if c.canceled then some (c.runAt (.failLast .closed)) else none
  | _, _ => none

/-! ## `Close` -/

def closerAt (j : Nat) (closer : Closer) (pc : ClosePc) : Client :=
  { c with closers := c.closers.set j { closer with pc := pc } }

def closeStep (j : Nat) : Option Client :=
  match c.closers[j]? with
  | none => none
  | some closer =>
    match closer.pc with
    | .start =>
      if c.closed then some (c.closerAt j closer .wait)
      else some ({ c with closed := true, conn := none, authenticated := false, loginInfo := .zero }.closerAt j closer .cancel)
    | .cancel => some ({ c with canceled := true }.closerAt j closer .failStreams)
    | .failStreams =>
      some ({ c with streamSendPending := ∅ }.closerAt j closer (.notifyAll (c.streamSendResults .closed)))
    | .notifyAll [] => some (c.closerAt j closer .wait)
    | .notifyAll (result :: results) => some ((c.notifyStreamSend result).closerAt j closer (.notifyAll results))
    | .wait =>
      match closer.started, c.run with
      | false, _ | _, .exited => some (c.closerAt j closer .returned)
      | _, _ => none
    | .returned => none

/-! ## The client as a transition system -/

inductive Action where
  /-- `Connect` starts the goroutine of `run`. -/
  | connect
  | call (request : Request)
  | step (i : Nat) (how : Choice)
  /-- The context of call `i` is done. -/
  | done (i : Nat) (deadline : Bool)
  | cleanup (i : Nat)
  | serve (how : Serve)
  | close
  | closeStep (j : Nat)

def connect : Client :=
  match c.run with
  | .off => c.runAt .start
  | _ => c

def started : Bool :=
  match c.run with
  | .off => false
  | _ => true

def contextDone (i : Nat) (deadline : Bool) : Option Client :=
  match c.calls[i]? with
  | none => none
  | some call =>
    match call.ctx with
    | none => some (c.setCall i { call with ctx := some (if deadline then .deadline else .canceled) })
    | some _ => none

def step : Action → Option Client
  | .connect => some c.connect
  | .call request => some (c.startCall request)
  | .step i how => c.callStep i how
  | .done i deadline => c.contextDone i deadline
  | .cleanup i => c.cleanup i
  | .serve how => c.serveStep how
  | .close => some { c with closers := c.closers ++ [⟨c.started, .start⟩] }
  | .closeStep j => c.closeStep j

/-! ## Sample runs -/

def sampleConfig : Config := ⟨2, 1, 8, true⟩

def sampleLogin : LoginInfo := ⟨⟨1, 2⟩, clientProtocolVersion, ⟨1, "s"⟩⟩

/-- From `start`, a transport logs in and is read. -/
def logsIn : List Action := [.serve .go, .serve (.login (.response sampleLogin)), .serve .go, .serve .go]

/-- Call `i` takes so many steps. -/
def runs (i steps : Nat) : List Action := List.replicate steps (.step i .go)

/-- The transport is lost, and `run` takes so many steps of the teardown. -/
def disconnects (steps : Nat) : List Action := .serve (.fail .disconnected) :: List.replicate steps (.serve .go)

end Client

end Turntf
