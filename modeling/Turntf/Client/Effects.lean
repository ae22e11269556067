/-
  Turntf.Client.Effects — what a step of the client can do, said once for the invariants of the
  modules after it.

  A step is one of a call, of `run` or of a `Close`. `CallEffect`, `RunEffect` and
  `CloseEffect` say what it changes: the call, the two tables, the current transport, and
  what is yet to be reported. `step_effect` finds the one that applies.
-/

import Turntf.Lib.Lts
import Turntf.Client.Transport

namespace Turntf.Client

open Lts

/-! ## Positions -/

/-- Before the call has captured a transport. -/
def CallPc.early : CallPc → Bool
  | .nextID | .isClosed | .register | .capture => true
  | _ => false

/-- The call has put an entry into its table and not taken it out: an RPC until it has
    unregistered, a tracked send for good unless it fails. -/
def CallPc.listed : CallKind → CallPc → Bool
  | .frame, _ | _, .nextID | _, .isClosed | _, .register => false
  | .rpc _, .ping _ | .rpc _, .returned _ | .tracked _, .returned (.error _) => false
  | _, _ => true

/-- The call has a request ID, or is no longer to use one. -/
def CallPc.numbered : CallPc → Bool
  | .nextID | .returned (.error _) => false
  | _ => true

/-- The call has captured a transport and not failed on it. An RPC that has its answer need not
    remember it. -/
def CallPc.sends (kind : CallKind) : CallPc → Bool
  | .lock | .check | .context | .write => true
  | .returned (.ok _) =>
    match kind with
    | .rpc _ => false
    | _ => true
  | _ => false

theorem CallPc.listed_numbered {kind : CallKind} {pc : CallPc} (h : pc.listed kind) : kind ≠ .frame ∧ pc.numbered := by
  cases kind with
  | frame => cases h
  | rpc ping =>
    refine ⟨CallKind.noConfusion, ?_⟩
    cases pc with
    | nextID | returned => cases h
    | _ => rfl
  | tracked frame =>
    refine ⟨CallKind.noConfusion, ?_⟩
    cases pc with
    | nextID => cases h
    | returned res =>
      cases res with
      | error err => cases h
      | ok b => rfl
    | _ => rfl

/-- The positions a call of this kind comes to. -/
def CallPc.placed : CallKind → CallPc → Bool
  | .rpc _, _ => true
  | .tracked _, .isClosed | .tracked _, .wait | .tracked _, .unregister _ | .tracked _, .ping _ => false
  | .frame, .nextID | .frame, .isClosed | .frame, .register | .frame, .wait | .frame, .unregister _
  | .frame, .ping _ => false
  | _, _ => true

/-- The transport that is being served, until it is cleared. -/
def RunPc.serves : RunPc → Option Nat
  | .signal g | .read g | .resolve g _ _ _ | .deliver g _ _ | .complete g _ _ | .notify g _ | .clear g _ => some g
  | _ => none

/-- The transport whose teardown goes on. -/
def RunPc.tears : RunPc → Option Nat
  | .failPending g _ | .failStreams g _ | .notifyAll g _ _ => some g
  | _ => none

/-- The result `run` is about to put into the channel of an RPC. -/
def RunPc.delivers : RunPc → Option (Nat × RequestResult)
  | .deliver _ ch r => some (ch, r)
  | _ => none

/-- What `run` took from `streamSendPending` and has yet to report. -/
def RunPc.queue : RunPc → List StreamSendResult
  | .notify _ result => [result]
  | .notifyAll _ _ results => results
  | _ => []

def ClosePc.queue : ClosePc → List StreamSendResult
  | .notifyAll results => results
  | _ => []

/-! ## A step of a call -/

/-- A call of this kind may go on from `pc` to `pc'` without touching its table. -/
structure CallPc.Goes (kind : CallKind) (pc pc' : CallPc) : Prop where
  listed : pc'.listed kind = pc.listed kind
  early : pc'.early → pc.early
  numbered : pc'.numbered → pc.numbered
  fresh : pc' = .nextID → pc = .nextID
  sends : pc'.sends kind → pc.sends kind
  placed : pc'.placed kind

inductive CallEffect (c : Client) (i : Nat) (call : Call) : Client → Prop
  | moves (pc' : CallPc) (ctx' : Option Err) (ch : Option RequestResult) (hg : call.pc.Goes call.kind pc')
      (hch : ch = call.resultCh ∨ ch = none) :
      CallEffect c i call (c.setCall i { call with pc := pc', ctx := ctx', resultCh := ch })
  | numbers (pc' : CallPc) (hpc : call.pc = .nextID) (hl : pc'.listed call.kind = false) (hp : pc'.placed call.kind)
      (hf : pc' ≠ .nextID) (hs : pc'.sends call.kind = false) :
      CallEffect c i call ({ c with requestID := c.requestID + 1 }.setCall i
        { call with requestID := c.requestID + 1, pc := pc' })
  | registersRpc (ping : Bool) (hk : call.kind = .rpc ping) (hpc : call.pc = .register) :
      CallEffect c i call ({ c with pending := c.pending.insert call.requestID i }.setCall i { call with pc := .capture })
  | registersTracked (metadata : StreamSendMetadata) (hk : call.kind = .tracked metadata) (hpc : call.pc = .register)
      (hlimit : c.streamSendPending.entries.length < c.cfg.streamSendPendingLimit) :
      CallEffect c i call ({ c with streamSendPending := c.streamSendPending.insert call.requestID metadata }.setCall i
        { call with pc := .capture })
  | captures (g : Nat) (hpc : call.pc = .capture) (hconn : c.conn = some g) :
      CallEffect c i call (c.setCall i { call with pc := .lock, conn := some g })
  | hands (hpc : call.pc = .context) :
      CallEffect c i call ({ c with handed := c.handed ++ call.conn.toList.map fun g => (i, g) }.setCall i
        { call with pc := .write })
  | invalidates (g : Nat) (pc' : CallPc) (hg : call.pc.Goes call.kind pc') :
      CallEffect c i call ((c.invalidateTransport g).setCall i { call with pc := pc' })
  | takesBack (metadata : StreamSendMetadata) (err : Err) (hk : call.kind = .tracked metadata)
      (hpc : call.pc = .failed err) :
      CallEffect c i call ({ c with streamSendPending := c.streamSendPending.erase call.requestID }.setCall i
        { call with pc := .returned (.error err) })
  | unregisters (ping : Bool) (res : Except Err Bytes) (pc' : CallPc) (hk : call.kind = .rpc ping)
      (hpc : call.pc = .unregister res) (hl : pc'.listed call.kind = false) (he : pc'.early = false)
      (hs : pc'.sends call.kind = false) :
      CallEffect c i call ({ c with pending := c.pending.erase call.requestID }.setCall i { call with pc := pc' })

section

variable {c c' : Client} {i : Nat} {call : Call} {how : Choice}

/-- A step that only moves the call. -/
theorem CallEffect.goto (pc' : CallPc) (hg : call.pc.Goes call.kind pc') :
    CallEffect c i call (c.setCall i { call with pc := pc' }) :=
  .moves pc' call.ctx call.resultCh hg (.inl rfl)

theorem nextStep_effect (hp : call.pc.placed call.kind) (hpc : call.pc = .nextID) :
    CallEffect c i call ({ c with requestID := c.requestID + 1 }.setCall i
      { call with requestID := c.requestID + 1, pc := if call.isRpc then .isClosed else .register }) := by
  obtain ⟨kind, requestID, pc, conn, ctx, resultCh, got⟩ := call
  cases hpc
  cases kind with
  | rpc ping => exact .numbers .isClosed rfl rfl rfl nofun rfl
  | tracked metadata => exact .numbers .register rfl rfl rfl nofun rfl
  | frame => cases hp

theorem isClosedStep_effect (hp : call.pc.placed call.kind) (hpc : call.pc = .isClosed) :
    CallEffect c i call (c.setCall i
      { call with pc := if c.closed then .returned (.error .closed) else .register }) := by
  obtain ⟨kind, requestID, pc, conn, ctx, resultCh, got⟩ := call
  cases hpc
  cases kind with
  | rpc ping =>
    split
    · exact .goto (.returned (.error .closed)) ⟨rfl, nofun, nofun, nofun, nofun, rfl⟩
    · exact .goto .register ⟨rfl, fun _ => rfl, fun _ => rfl, nofun, nofun, rfl⟩
  | tracked metadata => cases hp
  | frame => cases hp

theorem registerStep_effect (hp : call.pc.placed call.kind) (hpc : call.pc = .register) :
    CallEffect c i call (c.registerStep i call) := by
  obtain ⟨kind, requestID, pc, conn, ctx, resultCh, got⟩ := call
  cases hpc
  cases kind with
  | rpc ping => exact .registersRpc ping rfl rfl
  | tracked metadata =>
    unfold registerStep
    by_cases hclosed : c.closed
    · simp only [if_pos hclosed]
      exact .goto (.returned (.error .closed)) ⟨rfl, nofun, nofun, nofun, nofun, rfl⟩
    by_cases hfull : c.streamSendPending.entries.length ≥ c.cfg.streamSendPendingLimit
    · simp only [if_neg hclosed, if_pos hfull]
      exact .goto (.returned (.error .streamSendPendingFull)) ⟨rfl, nofun, nofun, nofun, nofun, rfl⟩
    simp only [if_neg hclosed, if_neg hfull]
    exact .registersTracked metadata rfl rfl (Int.not_le.mp hfull)
  | frame => cases hp

/-- Sending fails: from any position in `sendEnvelopeOnTransport`. -/
theorem CallPc.Goes.failed {kind : CallKind} {pc : CallPc} (err : Err)
    (hl : ∀ kind, pc.listed kind = CallPc.listed kind (.failed err)) (hn : pc.numbered) :
    pc.Goes kind (.failed err) :=
  ⟨(hl kind).symm, nofun, fun _ => hn, nofun, nofun, by cases kind <;> rfl⟩

theorem captureStep_effect (hpc : call.pc = .capture) : CallEffect c i call (c.captureStep i call) := by
  have hfails (err : Err) : CallEffect c i call (c.setCall i { call with pc := .failed err }) :=
    .goto (.failed err) (.failed err (by rw [hpc]; intro kind; cases kind <;> rfl) (by rw [hpc]; rfl))
  unfold captureStep
  by_cases hclosed : c.closed
  · rw [if_pos hclosed]
    exact hfails .closed
  by_cases hconn : c.conn = none ∨ c.authenticated = false
  · rw [if_neg hclosed, if_pos hconn]
    exact hfails .notConnected
  rw [if_neg hclosed, if_neg hconn]
  cases hg : c.conn with
  | none => exact absurd (.inl hg) hconn
  | some g => exact .captures g hpc hg

theorem lockStep_effect (hpc : call.pc = .lock) : CallEffect c i call (c.setCall i { call with pc := .check }) := by
  obtain ⟨kind, requestID, pc, conn, ctx, resultCh, got⟩ := call
  cases hpc
  exact .goto .check ⟨by cases kind <;> rfl, nofun, fun _ => rfl, nofun, fun _ => rfl, by cases kind <;> rfl⟩

theorem marshalFailed_effect {err : Err} (hpc : call.pc = .lock) :
    CallEffect c i call (c.setCall i { call with pc := .failed err }) :=
  .goto (.failed err) (.failed err (by rw [hpc]; intro kind; cases kind <;> rfl) (by rw [hpc]; rfl))

theorem checkStep_effect (hpc : call.pc = .check) : CallEffect c i call (c.checkStep i call) := by
  obtain ⟨kind, requestID, pc, conn, ctx, resultCh, got⟩ := call
  cases hpc
  unfold checkStep
  split
  · exact .goto (.failed .closed) (.failed .closed (fun kind => by cases kind <;> rfl) rfl)
  · split
    · exact .goto .context ⟨by cases kind <;> rfl, nofun, fun _ => rfl, nofun, fun _ => rfl, by cases kind <;> rfl⟩
    · exact .goto (.failed .disconnected) (.failed .disconnected (fun kind => by cases kind <;> rfl) rfl)

theorem contextStep_effect (hpc : call.pc = .context) : CallEffect c i call (c.contextStep i call) := by
  obtain ⟨kind, requestID, pc, conn, ctx, resultCh, got⟩ := call
  cases hpc
  cases ctx with
  | some err => exact .goto (.failed err) (.failed err (fun kind => by cases kind <;> rfl) rfl)
  | none => exact .hands rfl

theorem writtenStep_effect (hpc : call.pc = .write) : CallEffect c i call (c.writtenStep i call) := by
  obtain ⟨kind, requestID, pc, conn, ctx, resultCh, got⟩ := call
  cases hpc
  cases kind with
  | rpc ping => exact .goto .wait ⟨rfl, nofun, fun _ => rfl, nofun, fun _ => rfl, rfl⟩
  | tracked metadata => exact .goto (.returned (.ok [])) ⟨rfl, nofun, fun _ => rfl, nofun, fun _ => rfl, rfl⟩
  | frame => exact .goto (.returned (.ok [])) ⟨rfl, nofun, fun _ => rfl, nofun, fun _ => rfl, rfl⟩

theorem writeFailed_effect {err : Err} (hpc : call.pc = .write) :
    CallEffect c i call (c.setCall i { call with pc := .invalidate err }) := by
  obtain ⟨kind, requestID, pc, conn, ctx, resultCh, got⟩ := call
  cases hpc
  exact .goto (.invalidate err) ⟨by cases kind <;> rfl, nofun, fun _ => rfl, nofun, nofun, by cases kind <;> rfl⟩

theorem invalidateStep_effect {err : Err} (hpc : call.pc = .invalidate err) :
    CallEffect c i call ((match call.conn with
      | some g => c.invalidateTransport g
      | none => c).setCall i { call with pc := .failed err }) := by
  obtain ⟨kind, requestID, pc, conn, ctx, resultCh, got⟩ := call
  cases hpc
  cases conn with
  | some g => exact .invalidates g (.failed err) (.failed err (fun kind => by cases kind <;> rfl) rfl)
  | none => exact .goto (.failed err) (.failed err (fun kind => by cases kind <;> rfl) rfl)

theorem failedStep_effect {err : Err} (hpc : call.pc = .failed err) : CallEffect c i call (c.failedStep i call err) := by
  obtain ⟨kind, requestID, pc, conn, ctx, resultCh, got⟩ := call
  cases hpc
  cases kind with
  | rpc ping => exact .goto (.unregister (.error err)) ⟨rfl, nofun, fun _ => rfl, nofun, nofun, rfl⟩
  | tracked metadata => exact .takesBack metadata err rfl rfl
  | frame => exact .goto (.returned (.error err)) ⟨rfl, nofun, nofun, nofun, nofun, rfl⟩

theorem waitStep_effect {res : Except Err Bytes} {ch : Option RequestResult} (hp : call.pc.placed call.kind)
    (hpc : call.pc = .wait) (hch : ch = call.resultCh ∨ ch = none) :
    CallEffect c i call (c.setCall i { call with pc := .unregister res, resultCh := ch }) := by
  obtain ⟨kind, requestID, pc, conn, ctx, resultCh, got⟩ := call
  cases hpc
  cases kind with
  | rpc ping => exact .moves (.unregister res) ctx ch ⟨rfl, nofun, fun _ => rfl, nofun, nofun, rfl⟩ hch
  | tracked metadata => cases hp
  | frame => cases hp

theorem unregisterStep_effect {res : Except Err Bytes} (hp : call.pc.placed call.kind) (hpc : call.pc = .unregister res) :
    CallEffect c i call (c.unregisterStep i call res) := by
  obtain ⟨kind, requestID, pc, conn, ctx, resultCh, got⟩ := call
  cases hpc
  cases kind with
  | rpc ping =>
    refine .unregisters ping res _ rfl rfl ?_ ?_ ?_
    · cases ping <;> cases res <;> rfl
    · cases ping <;> cases res <;> rfl
    · cases ping <;> cases res <;> rfl
  | tracked metadata => cases hp
  | frame => cases hp

theorem pingStep_effect {err : Err} (hp : call.pc.placed call.kind) (hpc : call.pc = .ping err) :
    CallEffect c i call ((c.invalidatePingTransport call.conn err).setCall i
      { call with pc := .returned (.error err) }) := by
  obtain ⟨kind, requestID, pc, conn, ctx, resultCh, got⟩ := call
  cases hpc
  cases kind with
  | rpc ping =>
    unfold invalidatePingTransport
    split
    all_goals first
      | exact .goto (.returned (.error _)) ⟨rfl, nofun, nofun, nofun, nofun, rfl⟩
      | exact .invalidates _ (.returned (.error _)) ⟨rfl, nofun, nofun, nofun, nofun, rfl⟩
  | tracked metadata => cases hp
  | frame => cases hp

theorem callStep_effect (hp : call.pc.placed call.kind) (hcall : c.calls[i]? = some call)
    (h : c.callStep i how = some c') : CallEffect c i call c' := by
  unfold callStep at h
  simp only [hcall] at h
  split at h
  case h_1 hpc => cases h; exact nextStep_effect hp hpc
  case h_2 hpc => cases h; exact isClosedStep_effect hp hpc
  case h_3 hpc => cases h; exact registerStep_effect hp hpc
  case h_4 hpc => cases h; exact captureStep_effect hpc
  case h_5 hpc =>
    split at h
    · cases h
    · cases h
      exact lockStep_effect hpc
  case h_6 hpc => cases h; exact marshalFailed_effect hpc
  case h_7 hpc => cases h; exact checkStep_effect hpc
  case h_8 hpc => cases h; exact contextStep_effect hpc
  case h_9 hpc => cases h; exact writtenStep_effect hpc
  case h_10 hpc => cases h; exact writeFailed_effect hpc
  case h_11 hpc => cases h; exact invalidateStep_effect hpc
  case h_12 hpc => cases h; exact failedStep_effect hpc
  case h_13 hpc =>
    obtain ⟨r, _, rfl⟩ := Option.map_eq_some_iff.mp h
    exact waitStep_effect hp hpc (.inr rfl)
  case h_14 hpc =>
    obtain ⟨err, _, rfl⟩ := Option.map_eq_some_iff.mp h
    exact waitStep_effect hp hpc (.inl rfl)
  case h_15 hpc => cases h; exact unregisterStep_effect hp hpc
  case h_16 hpc => cases h; exact pingStep_effect hp hpc
  case h_17 => cases h

end

/-! ## A step of `run` -/

inductive RunEffect (c : Client) : Client → Prop
  | idles (pc' : RunPc) (stop : Bool) (first : Option (Option Err)) (delay : Int) (slept : List Int)
      (hs : pc'.serves = c.run.serves) (ht : c.run.tears = none) (ht' : pc'.tears = none)
      (hq : c.run.queue = []) (hq' : pc'.queue = []) (hd : pc'.delivers = none) :
      RunEffect c { c with stopReconnect := stop, firstConnect := first, delay := delay, slept := slept, run := pc' }
  | logsIn (info : LoginInfo) (hpc : c.run = .login info) :
      RunEffect c { c with
        conn := some c.logins, authenticated := true, loginInfo := info, logins := c.logins + 1, run := .signal c.logins }
  | resolves (g requestID ch : Nat) (res : Except Err Bytes) (orElse : Option Err)
      (hpc : c.run = .resolve g requestID res orElse) (hl : c.pending.lookup requestID = some ch) :
      RunEffect c { c with run := .deliver g ch (.response requestID res) }
  | delivers (g ch : Nat) (r : RequestResult) (hpc : c.run = .deliver g ch r) :
      RunEffect c { c with calls := c.calls.modify ch (·.offer r), run := .read g }
  | completes (g requestID : Nat) (metadata : StreamSendMetadata) (err : Option Err)
      (hpc : c.run = .complete g requestID err) (hl : c.streamSendPending.lookup requestID = some metadata) :
      RunEffect c { c with
        streamSendPending := c.streamSendPending.erase requestID, run := .notify g ⟨requestID, metadata, err⟩ }
  | reports (result : StreamSendResult) (pc' : RunPc) (hs : pc'.serves = c.run.serves) (ht : pc'.tears = c.run.tears)
      (hq : c.run.queue = result :: pc'.queue) (hd : pc'.delivers = none) :
      RunEffect c { c.notifyStreamSend result with run := pc' }
  | clears (g : Nat) (err : Err) (hpc : c.run = .clear g err) :
      RunEffect c { c with
        conn := if c.conn = some g then none else c.conn, authenticated := false, loginInfo := .zero
        run := .failPending g err }
  | failsPending (g : Nat) (err : Err) (hpc : c.run = .failPending g err) :
      RunEffect c { c.failAllPending .disconnected with failed := c.failed ++ [g], run := .failStreams g err }
  | failsStreams (g : Nat) (err : Err) (hpc : c.run = .failStreams g err) :
      RunEffect c { c with
        streamSendPending := ∅, run := .notifyAll g err (c.streamSendResults .disconnected) }
  | tornDown (g : Nat) (err : Err) (hpc : c.run = .notifyAll g err []) :
      RunEffect c { c with torn := c.torn ++ [g], run := .decide (some err) }
  | failsLast (err : Err) (hpc : c.run = .failLast err) :
      RunEffect c { c.failAllPending err with run := .exited }

section

variable {c c' : Client}

/-- A step of `run` that only goes on. -/
theorem RunEffect.goto (pc' : RunPc) (hs : pc'.serves = c.run.serves) (ht : c.run.tears = none)
    (ht' : pc'.tears = none) (hq : c.run.queue = []) (hq' : pc'.queue = []) (hd : pc'.delivers = none) :
    RunEffect c (c.runAt pc') :=
  .idles pc' c.stopReconnect c.firstConnect c.delay c.slept hs ht ht' hq hq' hd

theorem loginStep_effect (hpc : c.run = .connect) (outcome : LoginOutcome) : RunEffect c (c.loginStep outcome) := by
  have hidle (stop : Bool) (pc' : RunPc) (hs : pc'.serves = none) (ht : pc'.tears = none) (hq : pc'.queue = [])
      (hd : pc'.delivers = none) : RunEffect c { c with stopReconnect := stop, run := pc' } :=
    .idles pc' stop c.firstConnect c.delay c.slept (by rw [hs, hpc]; rfl) (by rw [hpc]; rfl) ht (by rw [hpc]; rfl) hq hd
  cases outcome with
  | failed err => exact hidle c.stopReconnect (.decide (some err)) rfl rfl rfl rfl
  | refused code message requestID => exact hidle _ (.decide (some (.server code message requestID))) rfl rfl rfl rfl
  | unexpected => exact hidle c.stopReconnect (.decide (some (.text _))) rfl rfl rfl rfl
  | response info =>
    simp only [loginStep]
    split
    · exact hidle true (.decide (some (.text _))) rfl rfl rfl rfl
    · exact hidle c.stopReconnect (.login info) rfl rfl rfl rfl

theorem handleServerEnvelope_effect {g : Nat} (hpc : c.run = .read g) (env : ServerEnvelope) :
    RunEffect c (c.handleServerEnvelope g env) := by
  have hidle (pc' : RunPc) (hs : pc'.serves = some g) (ht : pc'.tears = none) (hq : pc'.queue = [])
      (hd : pc'.delivers = none) : RunEffect c (c.runAt pc') :=
    .goto pc' (by rw [hs, hpc]; rfl) (by rw [hpc]; rfl) ht (by rw [hpc]; rfl) hq hd
  cases env with
  | response requestID res => exact hidle (.resolve g requestID res none) rfl rfl rfl rfl
  | streamFrameResult requestID => exact hidle (.complete g requestID none) rfl rfl rfl rfl
  | error code message requestID =>
    simp only [handleServerEnvelope]
    split
    · exact hidle (.read g) rfl rfl rfl rfl
    · exact hidle (.resolve g requestID _ _) rfl rfl rfl rfl
  | other => exact hidle (.read g) rfl rfl rfl rfl

theorem resolveStep_effect {g requestID : Nat} {res : Except Err Bytes} {orElse : Option Err}
    (hpc : c.run = .resolve g requestID res orElse) : RunEffect c (c.resolveStep g requestID res orElse) := by
  unfold resolveStep
  split
  · rename_i ch hl
    exact .resolves g requestID ch res _ hpc hl
  · exact .goto (.complete g requestID (some _)) (by rw [hpc]; rfl) (by rw [hpc]; rfl) rfl (by rw [hpc]; rfl) rfl rfl
  · exact .goto (.read g) (by rw [hpc]; rfl) (by rw [hpc]; rfl) rfl (by rw [hpc]; rfl) rfl rfl

theorem completeStep_effect {g requestID : Nat} {err : Option Err} (hpc : c.run = .complete g requestID err) :
    RunEffect c (c.completeStep g requestID err) := by
  unfold completeStep
  split
  · exact .goto (.read g) (by rw [hpc]; rfl) (by rw [hpc]; rfl) rfl (by rw [hpc]; rfl) rfl rfl
  · rename_i metadata hl
    exact .completes g requestID metadata err hpc hl

theorem notifyAllStep_effect {g : Nat} {err : Err} {results : List StreamSendResult}
    (hpc : c.run = .notifyAll g err results) : RunEffect c (c.notifyAllStep g err results) := by
  cases results with
  | nil => exact .tornDown g err hpc
  | cons result results =>
    exact .reports result (.notifyAll g err results) (by rw [hpc]; rfl) (by rw [hpc]; rfl) (by rw [hpc]; rfl) rfl

theorem decideStep_effect {err : Option Err} (hpc : c.run = .decide err) : RunEffect c (c.decideStep err) := by
  have hidle (delay : Int) (pc' : RunPc) (hs : pc'.serves = none) (ht : pc'.tears = none) (hq : pc'.queue = [])
      (hd : pc'.delivers = none) : RunEffect c { c with delay := delay, run := pc' } :=
    .idles pc' c.stopReconnect c.firstConnect delay c.slept (by rw [hs, hpc]; rfl) (by rw [hpc]; rfl) ht
      (by rw [hpc]; rfl) hq hd
  cases err with
  | none =>
    exact hidle _ (if c.closed then .exited else .start) (by split <;> rfl) (by split <;> rfl) (by split <;> rfl)
      (by split <;> rfl)
  | some err =>
    exact hidle c.delay (if c.closed || !c.shouldRetry err then .signalLast err else .backoff)
      (by split <;> rfl) (by split <;> rfl) (by split <;> rfl) (by split <;> rfl)

theorem signalFirstConnect_effect {pc' : RunPc} {err : Option Err} (hs : pc'.serves = c.run.serves)
    (ht : c.run.tears = none) (ht' : pc'.tears = none) (hq : c.run.queue = []) (hq' : pc'.queue = [])
    (hd : pc'.delivers = none) : RunEffect c ((c.signalFirstConnect err).runAt pc') := by
  unfold signalFirstConnect
  split
  · exact .idles pc' c.stopReconnect (some err) c.delay c.slept hs ht ht' hq hq' hd
  · exact .goto pc' hs ht ht' hq hq' hd

theorem serveStep_effect {how : Serve} (h : c.serveStep how = some c') : RunEffect c c' := by
  unfold serveStep at h
  split at h
  case h_1 hpc =>
    cases h
    exact .goto (if c.closed then .decide (some .closed) else .connect) (by rw [hpc]; split <;> rfl) (by rw [hpc]; rfl)
      (by split <;> rfl) (by rw [hpc]; rfl) (by split <;> rfl) (by split <;> rfl)
  case h_2 hpc => cases h; exact loginStep_effect hpc _
  case h_3 hpc => cases h; exact .logsIn _ hpc
  case h_4 hpc =>
    cases h
    exact signalFirstConnect_effect (by rw [hpc]; rfl) (by rw [hpc]; rfl) rfl (by rw [hpc]; rfl) rfl rfl
  case h_5 hpc => cases h; exact handleServerEnvelope_effect hpc _
  case h_6 hpc => cases h; exact .goto (.clear _ _) (by rw [hpc]; rfl) (by rw [hpc]; rfl) rfl (by rw [hpc]; rfl) rfl rfl
  case h_7 hpc => cases h; exact resolveStep_effect hpc
  case h_8 hpc => cases h; exact .delivers _ _ _ hpc
  case h_9 hpc => cases h; exact completeStep_effect hpc
  case h_10 g result hpc =>
    cases h
    exact .reports result (.read g) (by rw [hpc]; rfl) (by rw [hpc]; rfl) (by rw [hpc]; rfl) rfl
  case h_11 hpc => cases h; exact .clears _ _ hpc
  case h_12 hpc => cases h; exact .failsPending _ _ hpc
  case h_13 hpc => cases h; exact .failsStreams _ _ hpc
  case h_14 hpc => cases h; exact notifyAllStep_effect hpc
  case h_15 hpc => cases h; exact decideStep_effect hpc
  case h_16 hpc =>
    cases h
    exact signalFirstConnect_effect (by rw [hpc]; rfl) (by rw [hpc]; rfl) rfl (by rw [hpc]; rfl) rfl rfl
  case h_17 hpc => cases h; exact .failsLast _ hpc
  case h_18 hpc =>
    cases h
    exact .idles .start c.stopReconnect c.firstConnect _ _ (by rw [hpc]; rfl) (by rw [hpc]; rfl) rfl (by rw [hpc]; rfl)
      rfl rfl
  case h_19 hpc =>
    split at h
    · cases h
      exact .goto (.failLast .closed) (by rw [hpc]; rfl) (by rw [hpc]; rfl) rfl (by rw [hpc]; rfl) rfl rfl
    · cases h
  case h_20 => cases h

end

/-! ## A step of `Close` -/

inductive CloseEffect (c : Client) (j : Nat) (closer : Closer) : Client → Prop
  | idles (pc' : ClosePc) (canceled : Bool) (hq : closer.pc.queue = []) (hq' : pc'.queue = []) :
      CloseEffect c j closer ({ c with canceled := canceled }.closerAt j closer pc')
  | closes (hpc : closer.pc = .start) :
      CloseEffect c j closer
        ({ c with closed := true, conn := none, authenticated := false, loginInfo := .zero }.closerAt j closer .cancel)
  | takes (hpc : closer.pc = .failStreams) :
      CloseEffect c j closer
        ({ c with streamSendPending := ∅ }.closerAt j closer (.notifyAll (c.streamSendResults .closed)))
  | reports (result : StreamSendResult) (results : List StreamSendResult) (hpc : closer.pc = .notifyAll (result :: results)) :
      CloseEffect c j closer ((c.notifyStreamSend result).closerAt j closer (.notifyAll results))

section

variable {c c' : Client} {j : Nat} {closer : Closer}

theorem closeStep_effect (hj : c.closers[j]? = some closer) (h : c.closeStep j = some c') :
    CloseEffect c j closer c' := by
  obtain ⟨started, pc⟩ := closer
  unfold closeStep at h
  simp only [hj] at h
  cases pc with
  | start =>
    dsimp only at h
    split at h
    · cases h
      exact .idles .wait c.canceled rfl rfl
    · cases h
      exact .closes rfl
  | cancel => cases h; exact .idles .failStreams true rfl rfl
  | failStreams => cases h; exact .takes rfl
  | notifyAll results =>
    cases results with
    | nil => cases h; exact .idles .wait c.canceled rfl rfl
    | cons result results => cases h; exact .reports result results rfl
  | wait =>
    dsimp only at h
    split at h
    · cases h
      exact .idles .returned c.canceled rfl rfl
    · cases h
      exact .idles .returned c.canceled rfl rfl
    · cases h
  | returned => cases h

end

/-! ## Every step -/

/-- The calls of the client at the positions their kinds come to. -/
def Placed (c : Client) : Prop := ∀ call ∈ c.calls, call.pc.placed call.kind

inductive StepEffect (c : Client) : Action → Client → Prop
  | call (i : Nat) (how : Choice) (call : Call) {c' : Client} (hcall : c.calls[i]? = some call)
      (heff : CallEffect c i call c') : StepEffect c (.step i how) c'
  | starts (request : Request) (kind : CallKind) (pc : CallPc) (hp : pc.placed kind) (hl : pc.listed kind = false)
      (hn : kind = .frame ∨ pc.numbered = false) (hs : pc.sends kind = false) :
      StepEffect c (.call request) { c with calls := c.calls ++ [newCall kind pc] }
  | leaves (i : Nat) (deadline : Bool) (call : Call) (err : Err) (hcall : c.calls[i]? = some call) :
      StepEffect c (.done i deadline) (c.setCall i { call with ctx := some err })
  | cleans (i : Nat) (call : Call) (hcall : c.calls[i]? = some call) :
      StepEffect c (.cleanup i) { c with pending := c.pending.erase call.requestID }
  | connects {c' : Client} (hpc : c.run = .off) (heff : RunEffect c c') : StepEffect c .connect c'
  | connected : StepEffect c .connect c
  | run (how : Serve) {c' : Client} (heff : RunEffect c c') : StepEffect c (.serve how) c'
  | closer (j : Nat) (closer : Closer) {c' : Client} (hj : c.closers[j]? = some closer)
      (heff : CloseEffect c j closer c') : StepEffect c (.closeStep j) c'
  | startsClose (started : Bool) : StepEffect c .close { c with closers := c.closers ++ [⟨started, .start⟩] }

section

variable {c c' : Client} {a : Action} {i : Nat} {call : Call}

theorem startCall_effect (request : Request) : StepEffect c (.call request) (c.startCall request) := by
  cases request with
  | rpc ping => exact .starts (.rpc ping) (.rpc ping) .nextID rfl rfl (.inr rfl) rfl
  | tracked target targetSession frame =>
    simp only [startCall]
    split
    · exact .starts _ _ _ rfl rfl (.inr rfl) rfl
    · exact .starts _ _ _ rfl rfl (.inr rfl) rfl
  | frame => exact .starts .frame .frame .capture rfl rfl (.inl rfl) rfl

theorem contextDone_effect {deadline : Bool} (h : c.contextDone i deadline = some c') :
    StepEffect c (.done i deadline) c' := by
  unfold contextDone at h
  cases hcall : c.calls[i]? with
  | none => simp only [hcall] at h; cases h
  | some call =>
    simp only [hcall] at h
    split at h
    · cases h
      exact .leaves i deadline call _ hcall
    · cases h

/-- A caller that leaves moves nothing. -/
theorem leaves_effect (hp : Placed c) (hcall : c.calls[i]? = some call) (err : Err) :
    CallEffect c i call (c.setCall i { call with ctx := some err }) :=
  .moves call.pc _ call.resultCh ⟨rfl, id, id, id, id, hp call (List.mem_of_getElem? hcall)⟩ (.inl rfl)

theorem cleanup_effect (h : c.cleanup i = some c') : StepEffect c (.cleanup i) c' := by
  unfold cleanup at h
  cases hcall : c.calls[i]? with
  | none => simp only [hcall] at h; cases h
  | some call =>
    simp only [hcall] at h
    split at h
    all_goals cases h
    exact .cleans i call hcall

theorem step_effect (hp : Placed c) (h : c.step a = some c') : StepEffect c a c' := by
  cases a with
  | connect =>
    cases h
    unfold connect
    split
    · rename_i hpc
      exact .connects hpc (.goto .start (by rw [hpc]; rfl) (by rw [hpc]; rfl) rfl (by rw [hpc]; rfl) rfl rfl)
    · exact .connected
  | call request => cases h; exact startCall_effect request
  | step i how =>
    cases hcall : c.calls[i]? with
    | none => simp [step, callStep, hcall] at h
    | some call => exact .call i how call hcall (callStep_effect (hp call (List.mem_of_getElem? hcall)) hcall h)
  | done i deadline => exact contextDone_effect h
  | cleanup i => exact cleanup_effect h
  | serve how => exact .run how (serveStep_effect h)
  | close => cases h; exact .startsClose c.started
  | closeStep j =>
    cases hj : c.closers[j]? with
    | none => simp [step, closeStep, hj] at h
    | some closer => exact .closer j closer hj (closeStep_effect hj h)

end

end Turntf.Client
