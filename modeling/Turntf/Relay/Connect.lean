/-
  Turntf.Relay.Connect — `Relay.Connect` from the look-up of the target's sessions to its return
  (`relay.go`).

  A call picks a session of the target, registers a connection in the state Opening, sends its
  OPEN and waits for whichever comes first: the OPEN_ACK, the end of the connection, the timeout
  or the end of the caller's context. It runs beside everything else the manager does: packets
  from anyone, other calls, the goroutines of the connection and `closeAll`. Until it returns,
  the application does not have the connection (`Dialer.may`).

  `connect_returns`: what comes back is either a connection that was opened or an error, never
  both or neither, and with an error the connection is closed for good.

  The OPEN is in `out` from the registration on, a moment before the call sends it; what arrives
  in between is only more than the code allows.
-/

import Turntf.Relay.Registry

namespace Turntf.Relay

open Lts

/-! ## The call -/

/-- Of `ResolvedSession`, what `Connect` reads. -/
structure ResolvedSession where
  session : SessionRef
  transientCapable : Bool

/-- An error of `Connect`: one it passes on, or one it wraps with `fmt.Errorf`. -/
inductive ConnectError where
  | plain (err : Err)
  | wrap (what : String) (err : Err)
  deriving DecidableEq

def sessionIsZero (s : SessionRef) : Bool := s.servingNodeID = 0 && s.sessionID = ""

/-- The first session that packets can be sent to. -/
def targetSession (sessions : List ResolvedSession) : SessionRef :=
  match sessions.find? ResolvedSession.transientCapable with
  | some s => s.session
  | none => ⟨0, ""⟩

def Err.noSession : Err := .relay ⟨.notConnected, "no transient-capable session found for target user"⟩

/-- By its text: no connection fails with this code on its own. -/
def Err.openTimeout : Err := .client "relay: open_timeout: OPEN timeout waiting for OPEN_ACK"

/-- Where a call of `Connect` is. Once it has returned: the connection it registered, and what it
    returned. -/
inductive ConnectPc where
  | resolve (target : UserRef) (config : Option RelayConfig)
  | sendOpen (k : Nat)
  | select (k : Nat)
  | closeResult (k : Nat)
  /-- `conn.abort(reason)`, then the error is returned. -/
  | abort (k : Nat) (reason : Err) (err : ConnectError)
  /-- The rest of its own `closeWithSource`. -/
  | notify (k : Nat) (err : ConnectError)
  | returned (registered conn : Option Nat) (err : Option ConnectError)
  deriving DecidableEq

/-- The connection that only the call has. -/
def ConnectPc.pending : ConnectPc → Option Nat
  | .sendOpen k | .select k | .closeResult k | .abort k _ _ | .notify k _ => some k
  | .resolve .. | .returned .. => none

/-- A manager with the calls of `Connect` on it. -/
structure Dialer where
  relay : RelayManager
  connects : List ConnectPc

/-- What a call meets: the answer of `ResolveUserSessions` with the relay ID and the session of the
    login it then reads, the result of sending the OPEN, or a case of its `select`. -/
inductive ConnectChoice where
  | resolved (answer : Except Err (List ResolvedSession)) (relayID : String) (mySession : SessionRef)
  | sent (err : Option Err)
  | opened
  | closed
  | timeout
  | cancelled
  | go

inductive DialAction where
  | relay (a : RelayAction)
  | connect (target : UserRef) (config : Option RelayConfig)
  | run (i : Nat) (how : ConnectChoice)

/-- The steps an application takes on a connection it has. -/
def RelayConnection.Action.ofApp : RelayConnection.Action → Bool
  | .call _ | .run .. | .deadline _ | .receive | .abort _ | .onClose _ => true
  | _ => false

namespace Dialer

variable (d : Dialer)

def goto (i : Nat) (pc : ConnectPc) : Dialer := { d with connects := d.connects.set i pc }

def life? (k : Nat) : Option Life := d.relay.made[k]?.map fun m => m.conn.life

/-- Connections are registered by `Connect` alone, and the application leaves those alone that it
    does not have. -/
def may : RelayAction → Bool
  | .connect .. => false
  | .conn k act => !act.ofApp || d.connects.all (fun pc => pc.pending ≠ some k)
  | _ => true

def relayStep (a : RelayAction) : Option Dialer := (d.relay.step a).map fun r => { d with relay := r }

def connectStep (i : Nat) (pc : ConnectPc) (how : ConnectChoice) : Option Dialer :=
  match pc, how with
  | .resolve _ _, .resolved (.error err) _ _ =>
    some (d.goto i (.returned none none (some (.wrap "relay: resolve sessions" err))))
  | .resolve target config, .resolved (.ok sessions) relayID mySession =>
    if sessionIsZero (targetSession sessions) then some (d.goto i (.returned none none (some (.plain .noSession))))
    else
      (d.relayStep (.connect target (config.getD defaultRelayConfig) relayID mySession (targetSession sessions))).map
        (goto · i (.sendOpen d.relay.made.length))
  | .sendOpen k, .sent none => some (d.goto i (.select k))
  | .sendOpen k, .sent (some err) => some (d.goto i (.abort k err (.wrap "relay: send OPEN" err)))
  | .select k, .opened =>
    if (d.life? k).any Life.openCh then some (d.goto i (.returned (some k) (some k) none)) else none
  | .select k, .closed => if (d.life? k).any Life.closed then some (d.goto i (.closeResult k)) else none
  | .select k, .timeout => some (d.goto i (.abort k .openTimeout (.plain .openTimeout)))
  | .select k, .cancelled => some (d.goto i (.abort k .context (.plain .context)))
  | .closeResult k, .go =>
    (d.life? k).map fun l => d.goto i (.returned (some k) none (l.closeErr.map .plain))
  | .abort k reason err, .go =>
    if (d.life? k).any Life.closed then some (d.goto i (.returned (some k) none (some err)))
    else (d.relayStep (.conn k (.fail reason))).map (goto · i (.notify k err))
  | .notify k err, .go =>
    if (d.life? k).any fun l => l.notice = .none then some (d.goto i (.returned (some k) none (some err))) else none
  | _, _ => none

def step : DialAction → Option Dialer
  | .relay a => if d.may a then d.relayStep a else none
  | .connect target config => some { d with connects := d.connects ++ [.resolve target config] }
  | .run i how => d.connects[i]?.bind fun pc => d.connectStep i pc how

def Initial (d : Dialer) : Prop := ∃ orphanHandler, d = ⟨.new orphanHandler, []⟩

end Dialer

/-! ## What the manager does to its connections, and why -/

/-- At most one connection is made or takes a step. -/
inductive MadeEffect (r : RelayManager) : RelayAction → List Member → Prop
  | same {a : RelayAction} : MadeEffect r a r.made
  | dials {target : UserRef} {config : RelayConfig} {relayID : String} {my remote : SessionRef} :
      MadeEffect r (.connect target config relayID my remote) (r.made ++ [⟨target, .new config relayID my remote true⟩])
  | accepts {i : Nat} {p : Packet} {env : RelayEnvelope} {cfg : RelayConfig}
      (hc : r.calls[i]? = some ⟨p, .register env cfg⟩) (hl : r.conns.lookup env.relayID = none) :
      MadeEffect r (.handle i)
        (r.made ++ [⟨p.sender, .new cfg env.relayID env.targetSession env.senderSession false⟩])
  | packet {i k : Nat} {call : PacketCall} {env : RelayEnvelope} {m : Member} {c' : RelayConnection}
      (hc : r.calls[i]? = some call) (hpc : call.pc = .enqueue env k ∨ call.pc = .duplicate env k)
      (hm : r.made[k]? = some m) (hs : m.conn.step (.packet env) = some c') :
      MadeEffect r (.handle i) (r.made.set k { m with conn := c' })
  | moves {a : RelayAction} {k : Nat} {act : RelayConnection.Action} {m : Member} {c' : RelayConnection}
      (hp : act.packet? = none) (ha : act.ofApp = true → a = .conn k act) (hm : r.made[k]? = some m)
      (hs : m.conn.step act = some c') : MadeEffect r a (r.made.set k { m with conn := c' })

section

variable {r r' : RelayManager} {a : RelayAction} {i k : Nat} {m : Member}

theorem answerDuplicate_made {p : Packet} {env : RelayEnvelope} (hc : r.calls[i]? = some ⟨p, .duplicate env k⟩)
    (hk : env.kind = .kindOpen) (h : r.answerDuplicate i p.sender env k = some r') :
    MadeEffect r (.handle i) r'.made := by
  unfold RelayManager.answerDuplicate at h
  cases hm : r.made[k]? with
  | none => simp only [hm] at h; cases h
  | some m =>
    simp only [hm] at h
    split at h
    · rename_i hsame
      obtain ⟨r₁, h₁, rfl⟩ := Option.map_eq_some_iff.mp h
      obtain ⟨m', c', hm', hs, rfl⟩ := onMember_cases h₁
      cases hm.symm.trans hm'
      cases hs
      refine .packet hc (.inr rfl) hm ?_
      simp only [RelayConnection.step, RelayConnection.handlePacket, hk, if_pos hsame.2]
    · cases h
      exact .same

theorem handleStep_made (hsound : r.Sound) (h : r.handleStep i = some r') : MadeEffect r (.handle i) r'.made := by
  cases hc : r.calls[i]? with
  | none => simp only [RelayManager.handleStep, hc] at h; cases h
  | some call =>
    obtain ⟨p, pc⟩ := call
    have hpc := hsound.calls _ (List.mem_of_getElem? hc)
    simp only [RelayManager.handleStep, hc] at h
    cases pc with
    | start =>
      cases h
      unfold RelayManager.handlePacket
      (repeat' split) <;> exact .same
    | accept env => cases h; exact .same
    | register env cfg =>
      cases h
      unfold RelayManager.acceptIncoming
      cases hl : r.conns.lookup env.relayID with
      | some k => exact .same
      | none => exact .accepts hc hl
    | duplicate env k => exact answerDuplicate_made hc hpc.1 h
    | enqueue env k =>
      obtain ⟨r₁, h₁, rfl⟩ := Option.map_eq_some_iff.mp h
      obtain ⟨m, c', hm, hs, rfl⟩ := onMember_cases h₁
      rw [← enqueue_step hpc.1 hpc.2.1] at hs
      exact .packet hc (.inl rfl) hm hs
    | enqueuing k =>
      obtain ⟨r₁, h₁, rfl⟩ := Option.map_eq_some_iff.mp h
      obtain ⟨m, c', hm, hs, rfl⟩ := onMember_cases h₁
      have hmade : ∀ r : RelayManager, (r.afterReader i k).made = r.made := by
        intro r
        unfold RelayManager.afterReader
        split <;> rfl
      rw [hmade]
      exact @MadeEffect.moves _ _ k .reader _ _ rfl Bool.noConfusion hm hs
    | returned => cases h

theorem connStep_made {act : RelayConnection.Action} (h : r.connStep k act = some r') :
    MadeEffect r (.conn k act) r'.made := by
  unfold RelayManager.connStep at h
  split at h
  · cases h
  rename_i hread
  obtain ⟨r₁, h₁, rfl⟩ := Option.map_eq_some_iff.mp h
  obtain ⟨m, c', hm, hs, rfl⟩ := onMember_cases h₁
  have hp : act.packet? = none := by
    cases act <;> first | rfl | exact absurd rfl hread
  have hmove : MadeEffect r (.conn k act) (r.made.set k { m with conn := c' }) := .moves hp (fun _ => rfl) hm hs
  split
  · unfold RelayManager.removeConnection
    split <;> exact hmove
  · exact hmove

theorem step_made (hsound : r.Sound) (h : r.step a = some r') : MadeEffect r a r'.made := by
  cases a with
  | handle i => exact handleStep_made hsound h
  | connect => cases h; exact .dials
  | conn k act => exact connStep_made h
  | closeNext j =>
    simp only [RelayManager.step, RelayManager.closeNext] at h
    split at h
    · rename_i reason k ks _
      obtain ⟨r₁, h₁, rfl⟩ := Option.map_eq_some_iff.mp h
      obtain ⟨m, c', hm, hs, rfl⟩ := onMember_cases h₁
      exact @MadeEffect.moves _ _ k (.fail reason) _ _ rfl Bool.noConfusion hm hs
    · cases h
  | packet | closeAll | onConnection | onOrphan | setIncomingConfig => cases h; exact .same

/-- What the steps of a connection keep, whoever takes them, its connection keeps in its place;
    the steps of an application need only be looked at where it takes one. -/
theorem MadeEffect.keeps {made' : List Member} (h : MadeEffect r a made') {P : RelayConnection → Prop}
    (hm : r.made[k]? = some m) (hP : P m.conn)
    (hs : ∀ c act c', P c → (act.ofApp = true → a = .conn k act) → c.step act = some c' → P c') :
    ∃ m', made'[k]? = some m' ∧ P m'.conn := by
  have hset : ∀ (act : RelayConnection.Action) {j : Nat} {old : Member} {c' : RelayConnection}, r.made[j]? = some old →
      (act.ofApp = true → a = .conn j act) → old.conn.step act = some c' →
      ∃ m', (r.made.set j { old with conn := c' })[k]? = some m' ∧ P m'.conn := by
    intro act j old c' hj happ hstep
    rcases Slots.set_get j { old with conn := c' } hm with ⟨rfl, hm'⟩ | ⟨-, hm'⟩
    · cases hj.symm.trans hm
      exact ⟨_, hm', hs _ act _ hP happ hstep⟩
    · exact ⟨m, hm', hP⟩
  cases h with
  | same => exact ⟨m, hm, hP⟩
  | dials | accepts => exact ⟨m, Slots.snoc_get hm, hP⟩
  | packet _ _ hj hstep => exact hset (.packet _) hj Bool.noConfusion hstep
  | moves _ happ hj hstep => exact hset _ hj happ hstep

end

/-! ## A connection in the hands of `Connect` -/

/-- Only `Connect` makes a connection that sends an OPEN. -/
def Dialed (c : RelayConnection) : Prop := ∃ env ∈ c.out, env.kind = .kindOpen

/-- No call was made on it, what closed it gave a reason, and it is Opening until `openCh` is closed. -/
structure Unused (c : RelayConnection) : Prop where
  dialed : Dialed c
  calls : c.calls = []
  reason : c.life.closed = true → c.life.closeErr ≠ none
  opening : c.life.openCh = true → c.life.state ≠ .stateOpening

/-- The OPEN_ACK has come. -/
structure Opened (c : RelayConnection) : Prop where
  dialed : Dialed c
  openCh : c.life.openCh = true
  state : c.life.state ≠ .stateOpening

section

variable {c c' : RelayConnection} {act : RelayConnection.Action}

theorem StepEffect.sent_stays (h : StepEffect c act c') {env : RelayEnvelope} (he : env ∈ c.out) : env ∈ c'.out := by
  obtain ⟨extra, ho, _⟩ := h.out
  rw [ho]
  exact List.mem_append_left _ he

theorem Dialed.step (h : Dialed c) (hs : c.step act = some c') : Dialed c' := by
  obtain ⟨env, he, hk⟩ := h
  exact ⟨env, (step_effect hs).sent_stays he, hk⟩

theorem closeWithSource_of_open {l : Life} (h : l.closed = false) (reason : Option Err) (remote : Bool) :
    l.closeWithSource reason remote =
      { l with state := .stateClosed, closeErr := reason, remoteClosed := remote, notice := .remove l.onClose } := by
  have hstate : ¬ l.state = .stateClosed := by simpa [Life.closed] using h
  rw [Life.closeWithSource, if_neg hstate]

/-- Without calls, and where the application does not abort it, a connection is closed for a reason. -/
theorem LifeEffect.reason {l : Life} (h : LifeEffect c act l) (happ : act.ofApp = false) (hcalls : c.calls = [])
    (hopen : c.life.closed = false) (hclosed : l.closed = true) : l.closeErr ≠ none := by
  cases h with
  | same => cases hopen.symm.trans hclosed
  | note h => cases (h.sameLife.closed_eq.trans hopen).symm.trans hclosed
  | openAck env =>
    unfold Life.handleOpenAck at hclosed
    split at hclosed
    · cases hclosed
    · cases hopen.symm.trans hclosed
  | closing => cases hclosed
  | @closed reason hr =>
    rw [Life.closeConnection, closeWithSource_of_open hopen]
    intro hnone
    rcases hr hnone with rfl | ⟨i, before, hpc⟩
    · cases happ
    · rw [hcalls] at hpc
      cases hpc
  | remote =>
    rw [closeWithSource_of_open hopen]
    exact Option.some_ne_none _

theorem LifeEffect.opened {l : Life} (h : LifeEffect c act l) (ho : c.life.openCh = true)
    (hstate : c.life.state ≠ .stateOpening) : l.openCh = true ∧ l.state ≠ .stateOpening := by
  have hclose : ∀ reason remote, (c.life.closeWithSource reason remote).openCh = true ∧
      (c.life.closeWithSource reason remote).state ≠ .stateOpening := by
    intro reason remote
    unfold Life.closeWithSource
    split
    · exact ⟨ho, hstate⟩
    · exact ⟨ho, RelayState.noConfusion⟩
  cases h with
  | same => exact ⟨ho, hstate⟩
  | note h => cases h <;> exact ⟨ho, hstate⟩
  | openAck env =>
    rw [Life.handleOpenAck, if_neg hstate]
    exact ⟨ho, hstate⟩
  | closing => exact ⟨ho, RelayState.noConfusion⟩
  | closed => exact hclose _ _
  | remote => exact hclose _ _

/-- `openCh` is closed in the section that ends the state Opening. -/
theorem LifeEffect.not_opening {l : Life} (h : LifeEffect c act l)
    (hopening : c.life.openCh = true → c.life.state ≠ .stateOpening) (ho : l.openCh = true) : l.state ≠ .stateOpening := by
  by_cases hc : c.life.openCh = true
  · exact (h.opened hc (hopening hc)).2
  have hclose : ∀ reason remote, (c.life.closeWithSource reason remote).openCh = c.life.openCh := by
    intro reason remote
    unfold Life.closeWithSource
    split <;> rfl
  cases h with
  | same => exact absurd ho hc
  | note h => cases h <;> exact absurd ho hc
  | openAck env =>
    unfold Life.handleOpenAck at ho ⊢
    by_cases hstate : c.life.state = .stateOpening
    · rw [if_pos hstate]
      exact RelayState.noConfusion
    · rw [if_neg hstate] at ho
      exact absurd ho hc
  | closing => exact RelayState.noConfusion
  | closed => exact absurd ((hclose _ _).symm.trans ho) hc
  | remote => exact absurd ((hclose _ _).symm.trans ho) hc

theorem Unused.step (h : Unused c) (happ : act.ofApp = false) (hs : c.step act = some c') : Unused c' := by
  have heff := step_effect hs
  refine ⟨h.dialed.step hs, ?_, ?_, fun ho => heff.life.not_opening h.opening ho⟩
  · rcases heff.calls with hc | ⟨call, rfl, _⟩ | ⟨i, how, pc, rfl, _⟩
    · rw [hc, h.calls]
    · cases happ
    · cases happ
  · intro hclosed
    by_cases hc : c.life.closed = true
    · rw [(heff.life.frozen hc).closeErr]
      exact h.reason hc
    · exact heff.life.reason happ h.calls (by simpa using hc) hclosed

theorem Opened.step (h : Opened c) (hs : c.step act = some c') : Opened c' := by
  obtain ⟨ho, hstate⟩ := (step_effect hs).life.opened h.openCh h.state
  exact ⟨h.dialed.step hs, ho, hstate⟩

theorem closed_step (h : c.life.closed = true) (hs : c.step act = some c') : c'.life.closed = true :=
  ((step_effect hs).life.frozen h).closed_eq.trans h

end

/-! ## What comes back -/

/-- What a call of `Connect` knows of its connection. -/
def ConnectPc.Sound (made : List Member) : ConnectPc → Prop
  | .resolve .. => True
  | .sendOpen k | .select k | .abort k _ _ => ∃ m, made[k]? = some m ∧ Unused m.conn
  | .closeResult k => ∃ m, made[k]? = some m ∧ Unused m.conn ∧ m.conn.life.closed = true
  | .notify k _ => ∃ m, made[k]? = some m ∧ m.conn.life.closed = true
  | .returned registered (some k) err => registered = some k ∧ err = none ∧ ∃ m, made[k]? = some m ∧ Opened m.conn
  | .returned registered none err =>
    err ≠ none ∧ ∀ k, registered = some k → ∃ m, made[k]? = some m ∧ m.conn.life.closed = true

section

variable {d d' : Dialer} {a : DialAction} {i : Nat} {pc : ConnectPc}

theorem ConnectPc.Sound.step {r : RelayManager} {ra : RelayAction} {made' : List Member} (h : pc.Sound r.made)
    (hmade : MadeEffect r ra made') (happ : ∀ k act, ra = .conn k act → pc.pending = some k → act.ofApp = false) :
    pc.Sound made' := by
  have hclosed : ∀ {k : Nat}, (∃ m : Member, r.made[k]? = some m ∧ m.conn.life.closed = true) →
      ∃ m : Member, made'[k]? = some m ∧ m.conn.life.closed = true := by
    rintro k ⟨m, hm, hc⟩
    exact hmade.keeps hm hc fun _ _ _ hc _ hs => closed_step hc hs
  have hunused : ∀ {k : Nat}, pc.pending = some k → (∃ m : Member, r.made[k]? = some m ∧ Unused m.conn) →
      ∃ m : Member, made'[k]? = some m ∧ Unused m.conn := by
    rintro k hk ⟨m, hm, hu⟩
    refine hmade.keeps hm hu fun c act c' hu hact hs => hu.step ?_ hs
    by_cases ha : act.ofApp = true
    · exact happ k act (hact ha) hk
    · simpa using ha
  cases pc with
  | resolve => trivial
  | sendOpen k | select k | abort k _ _ => exact hunused rfl h
  | closeResult k =>
    obtain ⟨m, hm, hu, hc⟩ := h
    obtain ⟨m₁, hm₁, hu₁⟩ := hunused rfl ⟨m, hm, hu⟩
    obtain ⟨m₂, hm₂, hc₂⟩ := hclosed ⟨m, hm, hc⟩
    cases hm₁.symm.trans hm₂
    exact ⟨m₁, hm₁, hu₁, hc₂⟩
  | notify k _ => exact hclosed h
  | returned registered conn err =>
    cases conn with
    | some k =>
      obtain ⟨hreg, herr, m, hm, ho⟩ := h
      exact ⟨hreg, herr, hmade.keeps hm ho fun _ _ _ ho _ hs => ho.step hs⟩
    | none => exact ⟨h.1, fun k hk => hclosed (h.2 k hk)⟩

structure Dialer.Sound (d : Dialer) : Prop where
  relay : d.relay.Sound
  calls : ∀ pc ∈ d.connects, pc.Sound d.relay.made

/-- A step of the manager that the application has a right to, if it is the application's. -/
theorem Dialer.Sound.relayStep (h : d.Sound) {ra : RelayAction} (hs : d.relayStep ra = some d')
    (happ : ∀ k act, ra = .conn k act → act.ofApp = true → ∀ pc ∈ d.connects, pc.pending ≠ some k) :
    d'.Sound ∧ d'.connects = d.connects := by
  obtain ⟨r, hr, rfl⟩ := Option.map_eq_some_iff.mp hs
  refine ⟨⟨h.relay.step hr, fun pc hpc => (h.calls pc hpc).step (step_made h.relay hr) fun k act ha hk => ?_⟩, rfl⟩
  by_cases hact : act.ofApp = true
  · exact absurd hk (happ k act ha hact pc hpc)
  · simpa using hact

theorem Dialer.Sound.goto (h : d.Sound) (hpc : pc.Sound d.relay.made) : (d.goto i pc).Sound := by
  refine ⟨h.relay, fun pc' hpc' => ?_⟩
  rcases List.mem_or_eq_of_mem_set hpc' with hpc' | rfl
  · exact h.calls pc' hpc'
  · exact hpc

theorem life?_any {k : Nat} {p : Life → Bool} (h : (d.life? k).any p = true) :
    ∃ m, d.relay.made[k]? = some m ∧ p m.conn.life = true := by
  obtain ⟨l, hl, hp⟩ := (Option.any_eq_true _ _).mp h
  obtain ⟨m, hm, rfl⟩ := Option.map_eq_some_iff.mp hl
  exact ⟨m, hm, hp⟩

/-- A connection that is registered in `Connect` is new. -/
theorem connect_registers {target : UserRef} {config : RelayConfig} {relayID : String} {my remote : SessionRef}
    (hs : d.relayStep (.connect target config relayID my remote) = some d') :
    d'.relay.made[d.relay.made.length]? = some ⟨target, .new config relayID my remote true⟩ := by
  cases hs
  exact List.getElem?_concat_length

theorem unused_new (config : RelayConfig) (relayID : String) (my remote : SessionRef) :
    Unused (.new config relayID my remote true) :=
  ⟨⟨_, List.mem_cons_self, rfl⟩, rfl, fun hc => (by cases hc), fun ho => (by cases ho)⟩

theorem closeConnection_closed (l : Life) (reason : Option Err) : (l.closeConnection reason).closed = true := by
  unfold Life.closeConnection Life.closeWithSource
  split
  · rename_i hl
    simp [Life.closed, hl]
  · rfl

theorem abort_closes {k : Nat} {reason : Err} (hs : d.relayStep (.conn k (.fail reason)) = some d') :
    ∃ m, d'.relay.made[k]? = some m ∧ m.conn.life.closed = true := by
  obtain ⟨r, hr, rfl⟩ := Option.map_eq_some_iff.mp hs
  obtain ⟨r₁, h₁, rfl⟩ := Option.map_eq_some_iff.mp hr
  obtain ⟨m, c', hm, hc, rfl⟩ := onMember_cases h₁
  cases hc
  have hstays : (d.relay.made[k]?.bind fun m => RelayManager.releases m.conn (.fail reason)) = none := by
    rw [hm]
    rfl
  rw [hstays]
  obtain ⟨hlt, _⟩ := List.getElem?_eq_some_iff.mp hm
  exact ⟨_, List.getElem?_set_self hlt, closeConnection_closed _ _⟩

theorem Dialer.Sound.connectStep {how : ConnectChoice} (h : d.Sound) (hpc : pc.Sound d.relay.made)
    (hs : d.connectStep i pc how = some d') : d'.Sound := by
  unfold Dialer.connectStep at hs
  split at hs
  · cases hs
    exact h.goto ⟨Option.some_ne_none _, fun _ h => (by cases h)⟩
  · split at hs
    · cases hs
      exact h.goto ⟨Option.some_ne_none _, fun _ h => (by cases h)⟩
    · obtain ⟨d₁, hd₁, rfl⟩ := Option.map_eq_some_iff.mp hs
      refine (h.relayStep hd₁ fun _ _ h => (by cases h)).1.goto ⟨_, connect_registers hd₁, unused_new _ _ _ _⟩
  · cases hs
    exact h.goto hpc
  · cases hs
    exact h.goto hpc
  · split at hs <;> cases hs
    rename_i ho
    obtain ⟨m, hm, ho⟩ := life?_any ho
    obtain ⟨m', hm', hu⟩ := hpc
    cases hm.symm.trans hm'
    exact h.goto ⟨rfl, rfl, m, hm, hu.dialed, ho, hu.opening ho⟩
  · split at hs <;> cases hs
    rename_i hc
    obtain ⟨m, hm, hc⟩ := life?_any hc
    obtain ⟨m', hm', hu⟩ := hpc
    cases hm.symm.trans hm'
    exact h.goto ⟨m, hm, hu, hc⟩
  · cases hs
    exact h.goto hpc
  · cases hs
    exact h.goto hpc
  · obtain ⟨l, hl, rfl⟩ := Option.map_eq_some_iff.mp hs
    obtain ⟨m, hm, hu, hc⟩ := hpc
    rw [Dialer.life?, hm] at hl
    cases hl
    refine h.goto ⟨by simpa using hu.reason hc, ?_⟩
    rintro k' ⟨⟩
    exact ⟨m, hm, hc⟩
  · split at hs
    · rename_i hc
      cases hs
      refine h.goto ⟨Option.some_ne_none _, ?_⟩
      rintro k' ⟨⟩
      exact life?_any hc
    · obtain ⟨d₁, hd₁, rfl⟩ := Option.map_eq_some_iff.mp hs
      exact (h.relayStep hd₁ (by rintro k act ⟨⟩ ha; cases ha)).1.goto (abort_closes hd₁)
  · split at hs <;> cases hs
    refine h.goto ⟨Option.some_ne_none _, ?_⟩
    rintro k' ⟨⟩
    exact hpc
  · cases hs

theorem Dialer.Sound.step (h : d.Sound) (hs : d.step a = some d') : d'.Sound := by
  cases a with
  | relay ra =>
    simp only [Dialer.step] at hs
    split at hs
    · rename_i hmay
      refine (h.relayStep hs ?_).1
      rintro k act rfl ha pc hpc
      simp only [Dialer.may, ha, Bool.not_true, Bool.false_or, List.all_eq_true, decide_eq_true_eq] at hmay
      exact hmay pc hpc
    · cases hs
  | connect target config =>
    cases hs
    refine ⟨h.relay, fun pc hpc => ?_⟩
    rcases List.mem_append.mp hpc with hpc | hpc
    · exact h.calls pc hpc
    · rw [List.mem_singleton.mp hpc]
      trivial
  | run i how =>
    obtain ⟨pc, hpc, hs⟩ := Option.bind_eq_some_iff.mp hs
    exact h.connectStep (h.calls pc (List.mem_of_getElem? hpc)) hs

theorem dialer_sound {ok : Dialer → DialAction → Prop} (h : Reach Dialer.step ok Dialer.Initial d) : d.Sound := by
  refine h.keeps ?_ fun d a d' _ hd _ hs => hd.step hs
  rintro d ⟨_, rfl⟩
  exact ⟨⟨fun id k hk => (by cases hk), fun _ hc => absurd hc List.not_mem_nil⟩, fun _ hc => absurd hc List.not_mem_nil⟩

/-- Whatever packets arrive and however the manager's steps interleave, `Connect` returns either a
    connection or an error. A connection it returns was opened by an OPEN_ACK and is not Opening any
    more; with an error, the connection it had registered is closed. -/
theorem connect_returns (h : Reach Dialer.step free Dialer.Initial d) {registered conn : Option Nat}
    {err : Option ConnectError} (hret : .returned registered conn err ∈ d.connects) :
    (conn = none ↔ err ≠ none) ∧
      (∀ k, conn = some k → ∃ m, d.relay.made[k]? = some m ∧ m.conn.life.openCh = true ∧
        m.conn.life.state ≠ .stateOpening) ∧
      (∀ k, registered = some k → conn = none → ∃ m, d.relay.made[k]? = some m ∧ m.conn.life.state = .stateClosed) := by
  have hs := (dialer_sound h).calls _ hret
  cases conn with
  | some k =>
    obtain ⟨-, rfl, m, hm, ho⟩ := hs
    refine ⟨⟨fun h => (by cases h), fun h => absurd rfl h⟩, ?_, fun _ _ h => (by cases h)⟩
    rintro k' ⟨⟩
    exact ⟨m, hm, ho.openCh, ho.state⟩
  | none =>
    refine ⟨⟨fun _ => hs.1, fun _ => rfl⟩, fun _ h => (by cases h), fun k hk _ => ?_⟩
    obtain ⟨m, hm, hc⟩ := hs.2 k hk
    exact ⟨m, hm, by simpa [Life.closed] using hc⟩

end

/-- Two calls: the OPEN_ACK of the first arrives, that of the second does not. -/
def dials : List DialAction := List.flatten
  [[.connect samplePeer none, .connect samplePeer none],
    [.run 0 (.resolved (.ok [⟨⟨3, "t"⟩, false⟩, ⟨sampleSession .b, true⟩]) "r" (sampleSession .a)), .run 0 (.sent none)],
    [.run 1 (.resolved (.ok [⟨sampleSession .b, true⟩]) "q" (sampleSession .a)), .run 1 (.sent none)],
    (handles 0 samplePeer (sampleEnvelope .b .kindOpenAck 0 0 []) 5).map .relay,
    List.replicate 4 (.relay (.conn 0 (.dispatcher .go))), [.run 0 .opened, .run 1 .timeout, .run 1 .go],
    List.replicate 2 (.relay (.conn 1 .notify)), [.run 1 .go]]

theorem connect_returns_both : ∃ d : Dialer,
    d.connects = [.returned (some 0) (some 0) none, .returned (some 1) none (some (.plain .openTimeout))] ∧
      (∃ m, d.relay.made[0]? = some m ∧ m.conn.life.openCh = true ∧ m.conn.life.state ≠ .stateOpening) ∧
      ∃ m, d.relay.made[1]? = some m ∧ m.conn.life.state = .stateClosed := by
  have h : (exec (guarded Dialer.step free) ⟨.new false, []⟩ dials).any (fun d =>
      d.connects = [.returned (some 0) (some 0) none, .returned (some 1) none (some (.plain .openTimeout))]) = true := by
    decide +kernel
  obtain ⟨d, hd, hw⟩ := reach_any (I := Dialer.Initial) _ (.init ⟨false, rfl⟩) h
  simp only [decide_eq_true_eq] at hw
  refine ⟨d, hw, ( connect_returns hd (by rw [hw]; exact List.mem_cons_self)).2.1 0 rfl, ?_⟩
  exact ( connect_returns hd (by rw [hw]; exact List.mem_cons_of_mem _ List.mem_cons_self)).2.2 1 rfl rfl

end Turntf.Relay
