/-
  Turntf.Relay.Manager — the `Relay` of a client: its registry and the packets it is given
  (`relay.go`).

  `made` are all the connections the manager ever made, in order, each with the peer it was
  made for; `r.conns` maps a relay ID to the one of them that owns it. A call of
  `handlePacket` takes a step for each section behind `r.mu` and then the steps of
  `enqueueEnvelope` on the connection it found; every other step of a connection is taken as
  in `Turntf.Relay.System`. Any number of `handlePacket` calls may run at a time, although the
  client's read loop makes one after the other.

  The comparison of the packet's sender with the connection's peer is made for a duplicate
  OPEN only. So:

  - `member_reach`: whatever the manager does, each of its connections goes through a run of
    `RelayConnection.step`.
  - `moved_by_its_peer`: as long as every frame for a registered connection that is no OPEN
    comes from its peer, a packet of anyone else leaves the connection as it is.
  - `forged_ack_loses_data`: nothing enforces that. An ACK from a stranger who knows the relay
    ID takes the data out of `unacked`.
-/

import Turntf.Lib.Lts
import Turntf.Lib.Slots
import Turntf.Relay.System

namespace Turntf.Relay

open Lts

/-- A packet as `handlePacket` reads it: of the body, what `decodeRelayEnvelope` makes of it. -/
structure Packet where
  sender : UserRef
  body : Option RelayEnvelope

/-- A connection and the peer it was made for. -/
structure Member where
  remotePeer : UserRef
  conn : RelayConnection

/-- Where a call of `handlePacket` is. -/
inductive PacketPc where
  | start
  | accept (env : RelayEnvelope)
  | register (env : RelayEnvelope) (cfg : RelayConfig)
  | duplicate (env : RelayEnvelope) (k : Nat)
  | enqueue (env : RelayEnvelope) (k : Nat)
  | enqueuing (k : Nat)
  | returned (handled : Bool)
  deriving DecidableEq

structure PacketCall where
  packet : Packet
  pc : PacketPc

/-- `Relay`. -/
structure RelayManager where
  conns : AList fun _ : String => Nat
  onConn : Option Nat
  onOrphan : Option Nat
  incomingConfig : Option RelayConfig
  /-- Whether the client's handler is a `RelayOrphanHandler`. -/
  orphanHandler : Bool
  made : List Member
  calls : List PacketCall
  /-- What each call of `closeAll` has yet to close. -/
  closing : List (Err × List Nat)
  /-- The handlers started for accepted connections, and those told of orphans (`none` is the
      client's own). -/
  accepted : List (Nat × Nat)
  orphans : List (Option Nat × RelayOrphan)

inductive RelayAction where
  | packet (p : Packet)
  | handle (i : Nat)
  /-- `Connect`, up to the registration. -/
  | connect (target : UserRef) (config : RelayConfig) (relayID : String) (mySession targetSession : SessionRef)
  | conn (k : Nat) (action : RelayConnection.Action)
  | closeAll (reason : Err)
  | closeNext (j : Nat)
  | onConnection (handler : Nat)
  | onOrphan (handler : Nat)
  | setIncomingConfig (config : RelayConfig)

namespace RelayManager

def new (orphanHandler : Bool) : RelayManager where
  conns := ∅
  onConn := none
  onOrphan := none
  incomingConfig := none
  orphanHandler := orphanHandler
  made := []
  calls := []
  closing := []
  accepted := []
  orphans := []

variable (r : RelayManager)

def goto (i : Nat) (pc : PacketPc) : RelayManager :=
  { r with calls := r.calls.modify i fun call => { call with pc := pc } }

/-- The step `f` of the connection `k`. -/
def onMember (k : Nat) (f : RelayConnection → Option RelayConnection) : Option RelayManager :=
  match r.made[k]? with
  | none => none
  | some m => (f m.conn).map fun c => { r with made := r.made.set k { m with conn := c } }

/-- A new connection owns the relay ID. -/
def register (remotePeer : UserRef) (conn : RelayConnection) : RelayManager :=
  { r with conns := r.conns.insert conn.relayID r.made.length, made := r.made ++ [⟨remotePeer, conn⟩] }

def incomingRelayConfig : RelayConfig := r.incomingConfig.getD defaultRelayConfig

/-- Both handlers are told of a frame that has no owner. -/
def reportOrphan (event : RelayOrphan) : RelayManager :=
  { r with orphans := r.orphans ++ (r.onOrphan.toList.map fun h => (some h, event)) ++
      (if r.orphanHandler then [(none, event)] else []) }

/-- `handlePacket` up to the end of its section. -/
def handlePacket (i : Nat) (p : Packet) : RelayManager :=
  match p.body with
  | none => r.goto i (.returned false)
  | some env =>
    if env.relayID = "" ∨ env.kind = .kindUnspecified then r.goto i (.returned false)
    else if env.kind = .kindOpen then r.goto i (.accept env)
    else match r.conns.lookup env.relayID with
      | some k => r.goto i (.enqueue env k)
      | none => (r.reportOrphan ⟨env.relayID, env.kind⟩).goto i (.returned true)

/-- The section of `acceptIncoming`, and the start of the connection and of its handler. -/
def acceptIncoming (i : Nat) (sender : UserRef) (env : RelayEnvelope) (cfg : RelayConfig) : RelayManager :=
  match r.conns.lookup env.relayID with
  | some k => r.goto i (.duplicate env k)
  | none =>
    let r' := r.register sender (.new cfg env.relayID env.targetSession env.senderSession false)
    { r' with accepted := r.accepted ++ r.onConn.toList.map fun h => (h, r.made.length) }.goto i (.returned true)

/-- An OPEN for a relay ID that has an owner: only its own peer and session are answered. -/
def answerDuplicate (i : Nat) (sender : UserRef) (env : RelayEnvelope) (k : Nat) : Option RelayManager :=
  match r.made[k]? with
  | none => none
  | some m =>
    if m.remotePeer = sender ∧ m.conn.life.remoteSession = env.senderSession ∧ m.conn.mySession = env.targetSession then
      (r.onMember k fun c => some (c.emit (c.envelope .kindOpenAck))).map (goto · i (.returned true))
    else some (r.goto i (.returned true))

/-- Where the call is after a step of `enqueueEnvelope`. -/
def afterReader (i k : Nat) : RelayManager :=
  match r.made[k]? with
  | some { conn.recv.reader := .idle, .. } => r.goto i (.returned true)
  | _ => r.goto i (.enqueuing k)

def handleStep (i : Nat) : Option RelayManager :=
  match r.calls[i]? with
  | none => none
  | some ⟨p, pc⟩ =>
    match pc with
    | .start => some (r.handlePacket i p)
    | .accept env => some (r.goto i (.register env r.incomingRelayConfig))
    | .register env cfg => some (r.acceptIncoming i p.sender env cfg)
    | .duplicate env k => r.answerDuplicate i p.sender env k
    | .enqueue env k => (r.onMember k fun c => c.enqueueEnvelope env).map (goto · i (.enqueuing k))
    | .enqueuing k => (r.onMember k RelayConnection.readerStep).map (afterReader · i k)
    | .returned _ => none

/-- `removeConnection`: only while the connection still owns its relay ID. -/
def removeConnection (relayID : String) (k : Nat) : RelayManager :=
  if r.conns.lookup relayID = some k then { r with conns := r.conns.erase relayID } else r

/-- The relay ID that a step of the connection gives back, if it does. -/
def releases (c : RelayConnection) (action : RelayConnection.Action) : Option String :=
  match action, c.life.notice with
  | .notify, .remove _ => some c.relayID
  | _, _ => none

/-- The steps of the shared reader, which `handlePacket` takes. -/
def ofReader : RelayConnection.Action → Bool
  | .packet _ | .reader => true
  | _ => false

def connStep (k : Nat) (action : RelayConnection.Action) : Option RelayManager :=
  if ofReader action then none
  else (r.onMember k fun c => c.step action).map fun r' =>
    match r.made[k]?.bind fun m => releases m.conn action with
    | some relayID => r'.removeConnection relayID k
    | none => r'

def closeNext (j : Nat) : Option RelayManager :=
  match r.closing[j]? with
  | some (reason, k :: ks) =>
    (r.onMember k fun c => some (c.closeWith (some reason))).map fun r' =>
      { r' with closing := r.closing.set j (reason, ks) }
  | _ => none

def step : RelayAction → Option RelayManager
  | .packet p => some { r with calls := r.calls ++ [⟨p, .start⟩] }
  | .handle i => r.handleStep i
  | .connect target config relayID mySession targetSession =>
    some (r.register target (.new config relayID mySession targetSession true))
  | .conn k action => r.connStep k action
  | .closeAll reason => some { r with closing := r.closing ++ [(reason, r.conns.entries.map fun e => e.2)] }
  | .closeNext j => r.closeNext j
  | .onConnection handler => some { r with onConn := some handler }
  | .onOrphan handler => some { r with onOrphan := some handler }
  | .setIncomingConfig config => some { r with incomingConfig := some config }

end RelayManager

/-! ## What a step does to the connections -/

/-- The protocol state of a connection. -/
structure Protocol where
  state : RelayState
  closeErr : Option Err
  sendBase : Nat
  nextSeq : Nat
  unacked : SeqMap
  expectedSeq : Nat
  recvBuf : SeqMap
  inbox : List RelayEnvelope
  recvCh : List Bytes
  deriving DecidableEq

def RelayConnection.protocol (c : RelayConnection) : Protocol where
  state := c.life.state
  closeErr := c.life.closeErr
  sendBase := c.xmit.sendBase
  nextSeq := c.xmit.nextSeq
  unacked := c.xmit.unacked
  expectedSeq := c.recv.expectedSeq
  recvBuf := c.recv.recvBuf
  inbox := c.recv.inbox.getD []
  recvCh := c.recv.recvCh

/-- A connection that was just made. -/
def Fresh (c : RelayConnection) : Prop :=
  ∃ config relayID mySession remoteSession dialed, c = .new config relayID mySession remoteSession dialed

/-- At most one connection is made or takes a step, and its protocol state changes only if
    `own` allows it. -/
inductive Moves (made : List Member) (own : Nat → Prop) : List Member → Prop
  | none : Moves made own made
  | makes (m : Member) (hm : Fresh m.conn) : Moves made own (made ++ [m])
  | moves {k : Nat} {m : Member} {c' : RelayConnection} (act : RelayConnection.Action) (hk : made[k]? = some m)
      (hc : m.conn.step act = some c') (ho : own k ∨ c'.protocol = m.conn.protocol) :
      Moves made own (made.set k { m with conn := c' })

section

variable {made made' : List Member} {own own' : Nat → Prop} {r r' : RelayManager} {i k : Nat} {m : Member}

theorem Moves.mono (h : Moves made own made') (hw : ∀ k, own k → own' k) : Moves made own' made' := by
  cases h with
  | none => exact .none
  | makes m hm => exact .makes m hm
  | moves act hk hc ho => exact .moves act hk hc (ho.imp_left (hw _))

/-- A connection stays in its place, with its peer. -/
theorem Moves.member (h : Moves made own made') (hm : made[k]? = some m) :
    ∃ m', made'[k]? = some m' ∧ m'.remotePeer = m.remotePeer ∧ (own k ∨ m'.conn.protocol = m.conn.protocol) := by
  cases h with
  | none => exact ⟨m, hm, rfl, .inr rfl⟩
  | makes new _ => exact ⟨m, Slots.snoc_get hm, rfl, .inr rfl⟩
  | @moves k' old c' _ hk _ ho =>
    rcases Slots.set_get k' { old with conn := c' } hm with ⟨rfl, hm'⟩ | ⟨-, hm'⟩
    · cases hk.symm.trans hm
      exact ⟨_, hm', rfl, ho⟩
    · exact ⟨m, hm', rfl, .inr rfl⟩

/-- The runs of the connections go on. -/
theorem Moves.reach (h : Moves made own made') (hr : ∀ m ∈ made, Reach RelayConnection.step free Fresh m.conn) :
    ∀ m ∈ made', Reach RelayConnection.step free Fresh m.conn := by
  intro m hm
  cases h with
  | none => exact hr m hm
  | makes new hnew =>
    rcases List.mem_append.mp hm with hm | hm
    · exact hr m hm
    · cases List.mem_singleton.mp hm
      exact .init hnew
  | moves act hk hc _ =>
    rcases List.mem_or_eq_of_mem_set hm with hm | rfl
    · exact hr m hm
    · exact .step act (hr _ (List.mem_of_getElem? hk)) trivial hc

theorem onMember_cases {f : RelayConnection → Option RelayConnection} (h : r.onMember k f = some r') :
    ∃ m c', r.made[k]? = some m ∧ f m.conn = some c' ∧
      r' = { r with made := r.made.set k { m with conn := c' } } := by
  unfold RelayManager.onMember at h
  cases hm : r.made[k]? with
  | none => simp only [hm] at h; cases h
  | some m =>
    simp only [hm] at h
    obtain ⟨c', hc, rfl⟩ := Option.map_eq_some_iff.mp h
    exact ⟨m, c', rfl, hc, rfl⟩

theorem Moves.length_le (h : Moves made own made') : made.length ≤ made'.length := by
  cases h with
  | none => exact le_rfl
  | makes m _ => simp
  | moves => simp

end

/-! ## What a step of `handlePacket` does -/

/-- The connection in whose `enqueueEnvelope` the call is. -/
def PacketPc.enqueues : PacketPc → Option Nat
  | .enqueue _ k | .enqueuing k => some k
  | _ => none

/-- What a call knows of its envelope and its connection, where there are `n` of them. -/
def PacketPc.Sound (n : Nat) : PacketPc → Prop
  | .accept env | .register env _ => env.kind = .kindOpen
  | .duplicate env k => env.kind = .kindOpen ∧ k < n
  | .enqueue env k => env.kind ≠ .kindOpen ∧ env.kind ≠ .kindUnspecified ∧ k < n
  | .enqueuing k => k < n
  | .start | .returned _ => True

structure RelayManager.Sound (r : RelayManager) : Prop where
  owners : ∀ id k, r.conns.lookup id = some k → k < r.made.length
  calls : ∀ call ∈ r.calls, call.pc.Sound r.made.length

/-- The call `i` went on to `pc'`. It came to a connection's `enqueueEnvelope` only by the
    registry. -/
structure HandleEffect (r r' : RelayManager) (i : Nat) (call : PacketCall) (pc' : PacketPc) : Prop where
  calls : r'.calls = r.calls.modify i fun call => { call with pc := pc' }
  sound : pc'.Sound r'.made.length
  moves : Moves r.made (call.pc.enqueues = some ·) r'.made
  owners : ∀ id k, r'.conns.lookup id = some k → r.conns.lookup id = some k ∨ k < r'.made.length
  enqueues : ∀ k, pc'.enqueues = some k → call.pc.enqueues = some k ∨
    call.pc = .start ∧ ∃ env ∈ call.packet.body, env.kind ≠ .kindOpen ∧ r.conns.lookup env.relayID = some k

section

variable {r r' : RelayManager} {i k : Nat} {call : PacketCall} {p : Packet} {env : RelayEnvelope} {pc : PacketPc}

theorem PacketPc.Sound.mono {n n' : Nat} (h : pc.Sound n) (hn : n ≤ n') : pc.Sound n' := by
  cases pc with
  | start | accept | register | returned => exact h
  | duplicate env k => exact ⟨h.1, h.2.trans_le hn⟩
  | enqueue env k => exact ⟨h.1, h.2.1, h.2.2.trans_le hn⟩
  | enqueuing k => exact Nat.lt_of_lt_of_le h hn

/-- A step that goes on in the same state. -/
theorem HandleEffect.goto (pc' : PacketPc) (hs : pc'.Sound r.made.length)
    (he : ∀ k, pc'.enqueues = some k → call.pc.enqueues = some k ∨
      call.pc = .start ∧ ∃ env ∈ call.packet.body, env.kind ≠ .kindOpen ∧ r.conns.lookup env.relayID = some k) :
    HandleEffect r (r.goto i pc') i call pc' :=
  ⟨rfl, hs, .none, fun _ _ h => .inl h, he⟩

theorem handlePacket_effect (hs : r.Sound) : ∃ pc', HandleEffect r (r.handlePacket i p) i ⟨p, .start⟩ pc' := by
  unfold RelayManager.handlePacket
  cases hb : p.body with
  | none => exact ⟨_, .goto (.returned false) trivial nofun⟩
  | some env =>
    by_cases hkind : env.relayID = "" ∨ env.kind = .kindUnspecified
    · simp only [if_pos hkind]
      exact ⟨_, .goto (.returned false) trivial nofun⟩
    by_cases hopen : env.kind = .kindOpen
    · simp only [if_neg hkind, if_pos hopen]
      exact ⟨_, .goto (.accept env) hopen nofun⟩
    simp only [if_neg hkind, if_neg hopen]
    cases hl : r.conns.lookup env.relayID with
    | none => exact ⟨.returned true, rfl, trivial, .none, fun _ _ h => .inl h, nofun⟩
    | some k =>
      refine ⟨_, .goto (.enqueue env k) ⟨hopen, fun h => hkind (.inr h), hs.owners _ _ hl⟩ ?_⟩
      intro k' hk'
      cases hk'
      exact .inr ⟨rfl, env, hb, hopen, hl⟩

theorem register_owners {peer : UserRef} {c : RelayConnection} {id : String}
    (h : (r.register peer c).conns.lookup id = some k) :
    r.conns.lookup id = some k ∨ k < (r.register peer c).made.length := by
  have h : (r.conns.insert c.relayID r.made.length).lookup id = some k := h
  by_cases hid : id = c.relayID
  · rw [hid, AList.lookup_insert, Option.some.injEq] at h
    exact .inr (by simp [RelayManager.register, ← h])
  · rw [AList.lookup_insert_ne hid] at h
    exact .inl h

theorem acceptIncoming_effect {cfg : RelayConfig} (hs : r.Sound) (hopen : env.kind = .kindOpen) :
    ∃ pc', HandleEffect r (r.acceptIncoming i p.sender env cfg) i ⟨p, .register env cfg⟩ pc' := by
  unfold RelayManager.acceptIncoming
  cases hl : r.conns.lookup env.relayID with
  | some k => exact ⟨_, .goto (.duplicate env k) ⟨hopen, hs.owners _ _ hl⟩ nofun⟩
  | none => exact ⟨.returned true, rfl, trivial, .makes _ ⟨_, _, _, _, _, rfl⟩, fun _ _ => register_owners, nofun⟩

/-- A step on the connection `k`, after which the call goes on to `pc'`. -/
theorem HandleEffect.member {m : Member} {c' : RelayConnection} (act : RelayConnection.Action) (pc' : PacketPc)
    (hm : r.made[k]? = some m) (hc : m.conn.step act = some c')
    (ho : call.pc.enqueues = some k ∨ c'.protocol = m.conn.protocol) (hs : pc'.Sound r.made.length)
    (he : ∀ k, pc'.enqueues = some k → call.pc.enqueues = some k) :
    HandleEffect r (RelayManager.goto { r with made := r.made.set k { m with conn := c' } } i pc') i call pc' := by
  refine ⟨rfl, ?_, .moves act hm hc ho, fun _ _ h => .inl h, fun k hk => .inl (he k hk)⟩
  simpa [RelayManager.goto] using hs

theorem answerDuplicate_effect (hopen : env.kind = .kindOpen) (h : r.answerDuplicate i p.sender env k = some r') :
    ∃ pc', HandleEffect r r' i ⟨p, .duplicate env k⟩ pc' := by
  unfold RelayManager.answerDuplicate at h
  cases hm : r.made[k]? with
  | none => simp only [hm] at h; cases h
  | some m =>
    simp only [hm] at h
    split at h
    · rename_i hsame
      obtain ⟨r₁, h₁, rfl⟩ := Option.map_eq_some_iff.mp h
      obtain ⟨m', c', hm', hc, rfl⟩ := onMember_cases h₁
      cases hm.symm.trans hm'
      cases hc
      refine ⟨_, .member (.packet env) (.returned true) hm ?_ (.inr rfl) trivial nofun⟩
      simp [RelayConnection.step, RelayConnection.handlePacket, hopen, hsame.2]
    · cases h
      exact ⟨_, .goto (.returned true) trivial nofun⟩

/-- Every other envelope is enqueued. -/
theorem enqueue_step {c : RelayConnection} (hopen : env.kind ≠ .kindOpen) (hkind : env.kind ≠ .kindUnspecified) :
    c.step (.packet env) = c.enqueueEnvelope env := by
  simp only [RelayConnection.step, RelayConnection.handlePacket]

theorem handleStep_effect (hs : r.Sound) (hcall : r.calls[i]? = some call) (h : r.handleStep i = some r') :
    ∃ pc', HandleEffect r r' i call pc' := by
  have hpc := hs.calls call (List.mem_of_getElem? hcall)
  unfold RelayManager.handleStep at h
  simp only [hcall] at h
  obtain ⟨p, pc⟩ := call
  cases pc with
  | start =>
    cases h
    exact handlePacket_effect hs
  | accept env =>
    cases h
    exact ⟨_, .goto (.register env r.incomingRelayConfig) hpc nofun⟩
  | register env cfg =>
    cases h
    exact acceptIncoming_effect hs hpc
  | duplicate env k => exact answerDuplicate_effect hpc.1 h
  | enqueue env k =>
    obtain ⟨r₁, h₁, rfl⟩ := Option.map_eq_some_iff.mp h
    obtain ⟨m, c', hm, hc, rfl⟩ := onMember_cases h₁
    rw [← enqueue_step hpc.1 hpc.2.1] at hc
    exact ⟨_, .member (.packet env) (.enqueuing k) hm hc (.inl rfl) hpc.2.2 fun _ hk => hk⟩
  | enqueuing k =>
    obtain ⟨r₁, h₁, rfl⟩ := Option.map_eq_some_iff.mp h
    obtain ⟨m, c', hm, hc, rfl⟩ := onMember_cases h₁
    unfold RelayManager.afterReader
    split
    · exact ⟨_, .member .reader (.returned true) hm hc (.inl rfl) trivial nofun⟩
    · exact ⟨_, .member .reader (.enqueuing k) hm hc (.inl rfl) hpc fun _ hk => hk⟩
  | returned handled => cases h

end

/-! ## Every step of the manager -/

section

variable {r r' : RelayManager} {a : RelayAction}

/-- The steps that are not of `handlePacket` start calls and leave the others as they are. -/
structure OtherEffect (r r' : RelayManager) : Prop where
  calls : ∀ call ∈ r'.calls, call ∈ r.calls ∨ call.pc = .start
  moves : Moves r.made (fun _ => True) r'.made
  owners : ∀ id k, r'.conns.lookup id = some k → r.conns.lookup id = some k ∨ k < r'.made.length

theorem OtherEffect.removeConnection {relayID : String} {k : Nat} (h : OtherEffect r r') :
    OtherEffect r (r'.removeConnection relayID k) := by
  unfold RelayManager.removeConnection
  split
  · refine ⟨h.calls, h.moves, fun id k' hk' => h.owners id k' ?_⟩
    have hk' : (r'.conns.erase relayID).lookup id = some k' := hk'
    by_cases hid : id = relayID
    · rw [hid, AList.lookup_erase] at hk'
      cases hk'
    · rwa [AList.lookup_erase_ne hid] at hk'
  · exact h

/-- A step of the connection `k`. -/
theorem OtherEffect.member {k : Nat} {m : Member} {c' : RelayConnection} (act : RelayConnection.Action)
    (hm : r.made[k]? = some m) (hc : m.conn.step act = some c') :
    OtherEffect r { r with made := r.made.set k { m with conn := c' } } :=
  ⟨fun _ h => .inl h, .moves act hm hc (.inl trivial), fun _ _ h => .inl h⟩

theorem connStep_effect {k : Nat} {act : RelayConnection.Action} (h : r.connStep k act = some r') :
    OtherEffect r r' := by
  unfold RelayManager.connStep at h
  split at h
  · cases h
  obtain ⟨r₁, h₁, rfl⟩ := Option.map_eq_some_iff.mp h
  obtain ⟨m, c', hm, hc, rfl⟩ := onMember_cases h₁
  have hmove := OtherEffect.member act hm hc
  split
  · exact hmove.removeConnection
  · exact hmove

theorem closeNext_effect {j : Nat} (h : r.closeNext j = some r') : OtherEffect r r' := by
  unfold RelayManager.closeNext at h
  split at h
  · rename_i reason k ks _
    obtain ⟨r₁, h₁, rfl⟩ := Option.map_eq_some_iff.mp h
    obtain ⟨m, c', hm, hc, rfl⟩ := onMember_cases h₁
    have hmove := OtherEffect.member (.fail reason) hm hc
    exact ⟨hmove.calls, hmove.moves, hmove.owners⟩
  · cases h

theorem RelayManager.step_cases (hs : r.Sound) (h : r.step a = some r') :
    (∃ i call pc', a = .handle i ∧ r.calls[i]? = some call ∧ HandleEffect r r' i call pc') ∨ OtherEffect r r' := by
  have hsame {r' : RelayManager} (hcalls : r'.calls = r.calls) (hmade : r'.made = r.made)
      (hconns : r'.conns = r.conns) : OtherEffect r r' :=
    ⟨fun _ h => .inl (hcalls ▸ h), hmade ▸ .none, fun _ _ h => .inl (hconns ▸ h)⟩
  cases a with
  | handle i =>
    cases hcall : r.calls[i]? with
    | none => simp [RelayManager.step, RelayManager.handleStep, hcall] at h
    | some call =>
      obtain ⟨pc', heff⟩ := handleStep_effect hs hcall h
      exact .inl ⟨i, call, pc', rfl, hcall, heff⟩
  | packet p =>
    cases h
    refine .inr ⟨fun call hc => ?_, .none, fun _ _ h => .inl h⟩
    rcases List.mem_append.mp hc with hc | hc
    · exact .inl hc
    · exact .inr (by rw [List.mem_singleton.mp hc])
  | connect target config relayID mySession targetSession =>
    cases h
    exact .inr ⟨fun _ h => .inl h, .makes _ ⟨_, _, _, _, _, rfl⟩, fun _ _ => register_owners⟩
  | conn k action => exact .inr (connStep_effect h)
  | closeNext j => exact .inr (closeNext_effect h)
  | closeAll | onConnection | onOrphan | setIncomingConfig => cases h; exact .inr (hsame rfl rfl rfl)

theorem step_moves (hs : r.Sound) (h : r.step a = some r') : Moves r.made (fun _ => True) r'.made := by
  rcases RelayManager.step_cases hs h with ⟨i, call, pc', -, -, heff⟩ | heff
  · exact heff.moves.mono fun _ _ => trivial
  · exact heff.moves

end

/-! ## Runs of the manager -/

/-- A manager that has no connections yet. -/
def RelayManager.Initial (r : RelayManager) : Prop := ∃ orphanHandler, r = .new orphanHandler

section

variable {ok : RelayManager → RelayAction → Prop} {r r' : RelayManager} {a : RelayAction} {k : Nat} {m : Member}

theorem mem_modify {calls : List PacketCall} {i : Nat} {call call' : PacketCall} {pc' : PacketPc}
    (hcall : calls[i]? = some call) (h : call' ∈ calls.modify i fun call => { call with pc := pc' }) :
    call' ∈ calls ∨ call' = { call with pc := pc' } := by
  obtain ⟨j, hj⟩ := List.mem_iff_getElem?.mp h
  rw [List.getElem?_modify] at hj
  by_cases hij : i = j
  · subst hij
    simp only [hcall, if_true, Option.map_eq_map, Option.map_some, Option.some.injEq] at hj
    exact .inr hj.symm
  · simp only [if_neg hij, Option.map_eq_map, Option.map_id_fun', id_eq] at hj
    exact .inl (List.mem_of_getElem? hj)

theorem RelayManager.Sound.step (hs : r.Sound) (h : r.step a = some r') : r'.Sound := by
  have hlen := (step_moves hs h).length_le
  have howners {id : String} {k : Nat} (hk : r.conns.lookup id = some k ∨ k < r'.made.length) : k < r'.made.length :=
    hk.elim (fun hk => (hs.owners id k hk).trans_le hlen) fun hk => hk
  rcases RelayManager.step_cases hs h with ⟨i, call, pc', -, hcall, heff⟩ | heff
  · refine ⟨fun id k hk => howners (heff.owners id k hk), fun call' hc => ?_⟩
    rcases mem_modify hcall (heff.calls ▸ hc) with hc | rfl
    · exact (hs.calls call' hc).mono hlen
    · exact heff.sound
  · refine ⟨fun id k hk => howners (heff.owners id k hk), fun call' hc => ?_⟩
    rcases heff.calls call' hc with hc | hc
    · exact (hs.calls call' hc).mono hlen
    · rw [hc]
      trivial

theorem manager_sound (h : Reach RelayManager.step ok RelayManager.Initial r) : r.Sound := by
  refine h.keeps (fun r hi => ?_) fun r a r' _ hs _ h => hs.step h
  obtain ⟨_, rfl⟩ := hi
  exact ⟨fun id k hk => absurd hk nofun, fun _ hc => absurd hc List.not_mem_nil⟩

/-- Each connection of the manager goes through a run of its own. -/
theorem member_reach (h : Reach RelayManager.step ok RelayManager.Initial r) (hm : m ∈ r.made) :
    Reach RelayConnection.step free Fresh m.conn := by
  revert m
  refine h.keeps (P := fun r => ∀ {m}, m ∈ r.made → Reach RelayConnection.step free Fresh m.conn) ?_ ?_
  · rintro r ⟨_, rfl⟩ m hm
    exact absurd hm List.not_mem_nil
  · intro r a r' hr ih _ h m hm
    exact (step_moves (manager_sound hr) h).reach (fun _ => ih) m hm

end

/-! ## A connection is moved only by its peer -/

/-- A frame that `handlePacket` is about to look up in the registry, and that is no OPEN,
    comes from the peer of the connection that owns its relay ID. -/
def FromPeer (r : RelayManager) : RelayAction → Prop
  | .handle i => ∀ call ∈ r.calls[i]?, call.pc = .start → ∀ env ∈ call.packet.body, env.kind ≠ .kindOpen →
      ∀ k ∈ r.conns.lookup env.relayID, ∀ m ∈ r.made[k]?, m.remotePeer = call.packet.sender
  | _ => True

instance (r : RelayManager) : (a : RelayAction) → Decidable (FromPeer r a)
  | .handle i => inferInstanceAs (Decidable (∀ call ∈ r.calls[i]?, call.pc = .start → ∀ env ∈ call.packet.body,
      env.kind ≠ .kindOpen → ∀ k ∈ r.conns.lookup env.relayID, ∀ m ∈ r.made[k]?, m.remotePeer = call.packet.sender))
  | .packet _ | .connect .. | .conn .. | .closeAll _ | .closeNext _ | .onConnection _ | .onOrphan _
  | .setIncomingConfig _ => .isTrue trivial

/-- The calls inside `enqueueEnvelope` have packets of the connection's peer. -/
def Attributed (r : RelayManager) : Prop :=
  ∀ call ∈ r.calls, ∀ k, call.pc.enqueues = some k → ∃ m, r.made[k]? = some m ∧ m.remotePeer = call.packet.sender

section

variable {r r' : RelayManager} {a : RelayAction} {i k : Nat} {m : Member} {call : PacketCall}

theorem Moves.attributed {made made' : List Member} {own : Nat → Prop} {peer : UserRef} (h : Moves made own made')
    (hm : ∃ m, made[k]? = some m ∧ m.remotePeer = peer) : ∃ m, made'[k]? = some m ∧ m.remotePeer = peer := by
  obtain ⟨m, hm, hp⟩ := hm
  obtain ⟨m', hm', hp', _⟩ := h.member hm
  exact ⟨m', hm', hp'.trans hp⟩

theorem Attributed.step (hi : Attributed r) (hs : r.Sound) (hok : FromPeer r a) (h : r.step a = some r') :
    Attributed r' := by
  intro call' hc k hk
  apply (step_moves hs h).attributed
  rcases RelayManager.step_cases hs h with ⟨i, call, pc', rfl, hcall, heff⟩ | heff
  · rcases mem_modify hcall (heff.calls ▸ hc) with hc | rfl
    · exact hi call' hc k hk
    · rcases heff.enqueues k hk with hk | ⟨hpc, env, hb, hopen, hl⟩
      · exact hi call (List.mem_of_getElem? hcall) k hk
      · have hlt := hs.owners _ _ hl
        have hm := List.getElem?_eq_getElem hlt
        exact ⟨_, hm, hok call hcall hpc env hb hopen k hl _ hm⟩
  · rcases heff.calls call' hc with hc | hc
    · exact hi call' hc k hk
    · rw [hc] at hk
      cases hk

theorem attributed (h : Reach RelayManager.step FromPeer RelayManager.Initial r) : Attributed r := by
  refine h.keeps (fun r hi => ?_) fun r a r' hr ih hok h => ih.step (manager_sound hr) hok h
  obtain ⟨_, rfl⟩ := hi
  exact fun _ hc => absurd hc List.not_mem_nil

/-- A step of `handlePacket` leaves the connections of every other peer as they are. -/
theorem moved_by_its_peer (h : Reach RelayManager.step FromPeer RelayManager.Initial r)
    (hstep : r.step (.handle i) = some r') (hcall : r.calls[i]? = some call) (hm : r.made[k]? = some m)
    (hne : call.packet.sender ≠ m.remotePeer) :
    ∃ m', r'.made[k]? = some m' ∧ m'.remotePeer = m.remotePeer ∧ m'.conn.protocol = m.conn.protocol := by
  obtain ⟨pc', heff⟩ := handleStep_effect (manager_sound h) hcall hstep
  obtain ⟨m', hm', hp, ho⟩ := heff.moves.member hm
  refine ⟨m', hm', hp, ho.resolve_left fun hk => hne ?_⟩
  obtain ⟨m₁, hm₁, hpeer⟩ := attributed h call (List.mem_of_getElem? hcall) k hk
  cases hm.symm.trans hm₁
  exact hpeer.symm

end

/-- The peer of the sample connection, and someone else. -/
def samplePeer : UserRef := ⟨1, 2⟩

def sampleStranger : UserRef := ⟨1, 3⟩

/-- Call `i` of `handlePacket` takes so many steps. -/
def handles (i : Nat) (sender : UserRef) (env : RelayEnvelope) (steps : Nat) : List RelayAction :=
  .packet ⟨sender, some env⟩ :: List.replicate steps (.handle i)

/-- A connection to the peer is opened and a payload is sent on it. -/
def connected : List RelayAction := List.flatten
  [[.connect samplePeer defaultRelayConfig "r" (sampleSession .a) (sampleSession .b)],
    handles 0 samplePeer (sampleEnvelope .b .kindOpenAck 0 0 []) 5,
    List.replicate 4 (.conn 0 (.dispatcher .go)), [.conn 0 (.loop .go), .conn 0 (.call (.send [10]))],
    List.replicate 3 (.conn 0 (.run 0 .go)), List.replicate 3 (.conn 0 (.loop .go))]

/-- An OPEN of a stranger for the connection's relay ID. -/
theorem moved_by_its_peer_open : ∃ (r r' : RelayManager) (call : PacketCall) (m m' : Member),
    r.calls[1]? = some call ∧ r.made[0]? = some m ∧ r.step (.handle 1) = some r' ∧ r'.made[0]? = some m' ∧
    call.pc = .duplicate (sampleEnvelope .b .kindOpen 0 0 []) 0 ∧ m.conn.protocol.unacked.keys = [1] ∧
    call.packet.sender ≠ m.remotePeer ∧ m'.conn.protocol = m.conn.protocol := by
  have h : ((exec (guarded RelayManager.step FromPeer) (.new false)
      (connected ++ handles 1 sampleStranger (sampleEnvelope .b .kindOpen 0 0 []) 3)).any fun (r : RelayManager) =>
        r.calls[1]?.any fun (call : PacketCall) => r.made[0]?.any fun (m : Member) => (r.step (.handle 1)).any fun _ =>
          call.pc = .duplicate (sampleEnvelope .b .kindOpen 0 0 []) 0 ∧ m.conn.protocol.unacked.keys = [1] ∧
          call.packet.sender ≠ m.remotePeer) = true := by
    decide +kernel
  obtain ⟨r, hr, hw⟩ := reach_any (I := RelayManager.Initial) _ (.init ⟨false, rfl⟩) h
  simp only [Option.any_eq_true, decide_eq_true_eq] at hw
  obtain ⟨call, hcall, m, hm, r', hstep, hpc, hdata, hne⟩ := hw
  obtain ⟨m', hm', _, hsame⟩ := moved_by_its_peer hr hstep hcall hm hne
  exact ⟨r, r', call, m, m', hcall, hm, hstep, hm', hpc, hdata, hne, hsame⟩

/-- Nobody checks who sent an ACK: one of a stranger takes the data out of `unacked`, and it
    will never be sent again. -/
theorem forged_ack_loses_data : ∃ (r r' : RelayManager) (call : PacketCall) (m m' : Member),
    Reach RelayManager.step free RelayManager.Initial r ∧
    r.calls[1]? = some call ∧ r.made[0]? = some m ∧ r.step (.handle 1) = some r' ∧ r'.made[0]? = some m' ∧
    r.conns.lookup m.conn.relayID = some 0 ∧ call.packet.sender ≠ m.remotePeer ∧
    m.conn.protocol.unacked.keys = [1] ∧ m'.conn.protocol.unacked.keys = [] := by
  have h : ((exec (guarded RelayManager.step free) (.new false)
      (connected ++ handles 1 sampleStranger (sampleEnvelope .b .kindAck 0 1 []) 2)).any fun (r : RelayManager) =>
        r.calls[1]?.any fun (call : PacketCall) => r.made[0]?.any fun (m : Member) =>
        (r.step (.handle 1)).any fun (r' : RelayManager) => r'.made[0]?.any fun (m' : Member) =>
          r.conns.lookup m.conn.relayID = some 0 ∧ call.packet.sender ≠ m.remotePeer ∧
          m.conn.protocol.unacked.keys = [1] ∧ m'.conn.protocol.unacked.keys = []) = true := by
    decide +kernel
  obtain ⟨r, hr, hw⟩ := reach_any (I := RelayManager.Initial) _ (.init ⟨false, rfl⟩) h
  simp only [Option.any_eq_true, decide_eq_true_eq] at hw
  obtain ⟨call, hcall, m, hm, r', hstep, m', hm', hloss⟩ := hw
  exact ⟨r, r', call, m, m', hr, hcall, hm, hstep, hm', hloss⟩

end Turntf.Relay
