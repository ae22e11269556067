/-
  Turntf.Relay.Agreement — the two ends of a relay after `Connect` (`relay.go`).

  Two clients, each with its manager and its `Connect` calls, over a network that gives a packet
  the user it comes from and brings only what a connection of the other client handed out, late,
  repeated or never. Relay IDs are picked at random: the ID of a `Connect` was not used before.

  `connect_agrees`: when `Connect` returns a connection, the other client has accepted one under
  the same relay ID, for the user who dialed, and each end has the other's session.

  The argument goes along the envelopes. An OPEN is handed out only by the connection that dialed,
  an OPEN_ACK only by a connection of the ID it names; a connection is made for an OPEN that
  arrived, and leaves Opening for an OPEN_ACK that did.
-/

import Turntf.Relay.Connect
import Turntf.Relay.Handshake

namespace Turntf.Relay

open Lts Ends

/-! ## What one connection hands out and what moves it -/

/-- The frames in the hands of the sending side are DATA, those of the receiving side are ACKs. -/
structure Kinds (c : RelayConnection) : Prop where
  carried : ∀ env ∈ c.xmit.carried, env.kind = .kindData
  held : ∀ env ∈ c.acks.held, env.kind = .kindAck

section

variable {c c' : RelayConnection} {act : RelayConnection.Action} {how : Choice}

theorem XmitEffect.kinds {t : Xmit} (h : XmitEffect c t) (hk : ∀ env ∈ c.xmit.carried, env.kind = .kindData) :
    ∀ env ∈ t.carried, env.kind = .kindData := by
  have hloop : ∀ {t : Xmit}, t.retry = c.xmit.retry → t.tasks = c.xmit.tasks →
      (∀ env ∈ t.loop.frames, env.kind = .kindData) → ∀ env ∈ t.carried, env.kind = .kindData := by
    intro t hr ht hl env he
    rcases Xmit.mem_carried.mp he with he | he
    · exact hl env he
    · rw [hr, ht] at he
      exact hk env (Xmit.mem_carried.mpr (.inr he))
  cases h with
  | still _ _ _ hc =>
    intro env he
    rcases hc env he with he | he
    · exact hk env he
    · obtain ⟨seq, _, hs⟩ := List.mem_filterMap.mp he
      obtain ⟨data, _, rfl⟩ := Option.map_eq_some_iff.mp hs
      rfl
  | @ack env =>
    have : (c.xmit.handleAck c.config.reliability env).carried = c.xmit.carried := by
      unfold Xmit.handleAck
      (repeat' split) <;> rfl
    rwa [this]
  | @push item t _ hp =>
    unfold Xmit.push at hp
    (repeat' split at hp) <;> cases hp
    · exact hk
    · cases item <;> exact hloop rfl rfl (List.forall_mem_nil _)
  | @receive item => cases item <;> exact hloop rfl rfl (List.forall_mem_nil _)
  | flush => exact hloop rfl rfl (List.forall_mem_nil _)
  | assign | plain =>
    refine hloop rfl rfl fun env he => ?_
    rw [List.mem_singleton.mp he]
    rfl
  | exit => exact hloop rfl rfl (List.forall_mem_nil _)

theorem Kinds.step (h : Kinds c) (hs : c.step act = some c') : Kinds c' := by
  have heff := step_effect hs
  refine ⟨heff.xmit.kinds h.carried, fun env he => ?_⟩
  rcases heff.held env he with he | ⟨n, _, rfl⟩
  · exact h.held env he
  · rfl

/-- What a connection hands out is no OPEN, and its OPEN_ACKs are its own. -/
def Greets (c : RelayConnection) (env : RelayEnvelope) : Prop :=
  env.kind ≠ .kindOpen ∧ (env.kind = .kindOpenAck → env.relayID = c.relayID ∧ env.senderSession = c.mySession)

theorem Greets.of_kind {env : RelayEnvelope} (h : env.kind ≠ .kindOpen ∧ env.kind ≠ .kindOpenAck) : Greets c env :=
  ⟨h.1, fun hk => absurd hk h.2⟩

theorem Greets.data {env : RelayEnvelope} (h : env.kind = .kindData) : Greets c env :=
  .of_kind (by rw [h]; exact ⟨RelayKind.noConfusion, RelayKind.noConfusion⟩)

theorem greets_same (h : c'.out = c.out) : ∀ env ∈ c'.out, env ∈ c.out ∨ Greets c env := fun _ he => .inl (h ▸ he)

theorem greets_one {env : RelayEnvelope} (h : c'.out = c.out ++ [env]) (hg : Greets c env) :
    ∀ env ∈ c'.out, env ∈ c.out ∨ Greets c env := by
  intro e he
  rw [h, List.mem_append, List.mem_singleton] at he
  rcases he with he | rfl
  · exact .inl he
  · exact .inr hg

theorem retryStep_greets {pc pc' : RetryPc} (h : c.retryStep pc how = some (c', pc'))
    (hk : ∀ env ∈ pc.frames, env.kind = .kindData) : ∀ env ∈ c'.out, env ∈ c.out ∨ Greets c env := by
  obtain ⟨extra, ho, he⟩ := (retryStep_frame h).out
  intro env hm
  rw [ho, List.mem_append] at hm
  exact hm.imp_right fun hm => .data (hk env (he env hm))

theorem loopStep_greets (hk : Kinds c) (h : c.loopStep how = some c') : ∀ env ∈ c'.out, env ∈ c.out ∨ Greets c env := by
  have hstart : ∀ back, (c.startRetry back).out = c.out := by
    intro back
    unfold RelayConnection.startRetry
    (repeat' split) <;> rfl
  have hfinish : ∀ back, c.finishRetry back = some c' → c'.out = c.out := by
    intro back h
    unfold RelayConnection.finishRetry at h
    split at h <;> cases h
    rfl
  have hframes : ∀ env ∈ c.xmit.loop.frames, env.kind = .kindData :=
    fun env he => hk.carried env (Xmit.mem_carried.mpr (.inl he))
  unfold RelayConnection.loopStep at h
  split at h
  case h_3 => split at h <;> cases h; exact greets_same (hstart _)
  case h_4 => exact greets_same (hfinish _ h)
  case h_8 =>
    split at h
    · split at h <;> cases h <;> exact greets_same rfl
    · cases h
      exact greets_one rfl (.data rfl)
  case h_10 => cases h; exact greets_same (hstart _)
  case h_11 => exact greets_same (hfinish _ h)
  case h_13 hloop =>
    split at h <;> cases h
    exact greets_one rfl (.data (hframes _ (by rw [hloop]; exact List.mem_cons_self)))
  case h_17 hloop _ =>
    obtain ⟨⟨c₁, pc'⟩, hr, rfl⟩ := Option.map_eq_some_iff.mp h
    have hg := retryStep_greets hr (by rw [hloop] at hframes; exact hframes)
    exact hg
  all_goals (repeat' split at h) <;> cases h <;> exact greets_same rfl

theorem step_greets (hk : Kinds c) (hs : c.step act = some c') : ∀ env ∈ c'.out, env ∈ c.out ∨ Greets c env := by
  cases act with
  | packet env =>
    simp only [RelayConnection.step, RelayConnection.handlePacket, RelayConnection.enqueueEnvelope] at hs
    (repeat' split at hs) <;> cases hs
    · exact greets_one rfl ⟨RelayKind.noConfusion, fun _ => ⟨rfl, rfl⟩⟩
    · exact greets_same rfl
    · exact greets_same rfl
  | reader => exact greets_same (readerStep_out hs).1
  | dispatcher how =>
    cases dispatchStep_effect hs with
    | ping => exact greets_one rfl (.of_kind ⟨RelayKind.noConfusion, RelayKind.noConfusion⟩)
    | _ => exact greets_same rfl
  | ackWorker how =>
    obtain ⟨extra, ho, he⟩ := (ackStep_frame hs).out
    intro env hm
    rw [ho, List.mem_append] at hm
    refine hm.imp_right fun hm => .of_kind ?_
    rw [hk.held env (he env hm)]
    exact ⟨RelayKind.noConfusion, RelayKind.noConfusion⟩
  | loop how => exact loopStep_greets hk hs
  | round how =>
    simp only [RelayConnection.step, RelayConnection.roundStep] at hs
    split at hs
    · rename_i pc hpc
      obtain ⟨⟨c₁, pc'⟩, hr, rfl⟩ := Option.map_eq_some_iff.mp hs
      have hg := retryStep_greets hr fun env he =>
        hk.carried env (Xmit.mem_carried.mpr (.inr (.inl (by rw [hpc]; exact he))))
      exact hg
    · cases hs
  | task i err => exact greets_same (taskStep_rest hs).2
  | call call =>
    cases hs
    cases call with
    | send data => cases data <;> exact greets_same rfl
    | _ => exact greets_same rfl
  | run i how =>
    obtain ⟨pc, _, he⟩ := callStep_effect hs
    cases he with
    | close => exact greets_one rfl (.of_kind ⟨RelayKind.noConfusion, RelayKind.noConfusion⟩)
    | _ => exact greets_same rfl
  | deadline i | receive =>
    simp only [RelayConnection.step] at hs
    split at hs <;> cases hs
    exact greets_same rfl
  | abort reason | fail reason => cases hs; exact greets_same rfl
  | onClose callback =>
    cases hs
    unfold RelayConnection.registerOnClose
    split <;> exact greets_same rfl
  | notify =>
    simp only [RelayConnection.step, RelayConnection.notifyStep] at hs
    split at hs <;> cases hs <;> exact greets_same rfl

theorem closeWithSource_session (l : Life) (reason : Option Err) (remote : Bool) :
    (l.closeWithSource reason remote).openCh = l.openCh ∧
      (l.closeWithSource reason remote).remoteSession = l.remoteSession := by
  unfold Life.closeWithSource
  split <;> exact ⟨rfl, rfl⟩

theorem MayFail.session {l l' : Life} (h : MayFail l l') : l'.openCh = l.openCh ∧ l'.remoteSession = l.remoteSession := by
  rcases h with rfl | ⟨e, rfl⟩
  · exact ⟨rfl, rfl⟩
  · exact closeWithSource_session _ _ _

/-- `openCh` and the session of the peer change with an OPEN_ACK that has arrived, in the state Opening. -/
theorem step_opens (hs : c.step act = some c') :
    (c'.life.openCh = c.life.openCh ∧ c'.life.remoteSession = c.life.remoteSession) ∨
      ∃ env ∈ c.recv.frames, env.kind = .kindOpenAck ∧ c.life.state = .stateOpening ∧
        c'.life.remoteSession = env.senderSession := by
  cases step_effect hs with
  | reader h => exact .inl (readerStep_life h).session
  | dispatcher h => cases h with
    | @openAck env hpc hk =>
      by_cases hstate : c.life.state = .stateOpening
      · refine .inr ⟨env, Recv.mem_frames.mpr (.inr (.inr ?_)), hk, hstate, ?_⟩
        · rw [hpc]
          exact List.mem_cons_self
        · show (c.life.handleOpenAck env).remoteSession = _
          rw [Life.handleOpenAck, if_pos hstate]
      · refine .inl ?_
        show (c.life.handleOpenAck env).openCh = _ ∧ (c.life.handleOpenAck env).remoteSession = _
        rw [Life.handleOpenAck, if_neg hstate]
        exact ⟨rfl, rfl⟩
    | close | error => exact .inl (closeWithSource_session _ _ _)
    | _ => exact .inl ⟨rfl, rfl⟩
  | ackWorker h => exact .inl (ackStep_frame h).life.session
  | sender _ rest => exact .inl rest.life.session
  | @call call => cases call with
    | send data => cases data <;> exact .inl ⟨rfl, rfl⟩
    | _ => exact .inl ⟨rfl, rfl⟩
  | run _ h => cases h with
    | closed => exact .inl (closeWithSource_session _ _ _)
    | _ => exact .inl ⟨rfl, rfl⟩
  | deadline | abort | fail => exact .inl (closeWithSource_session _ _ _)
  | note _ h => cases h <;> exact .inl ⟨rfl, rfl⟩
  | _ => exact .inl ⟨rfl, rfl⟩

end

/-! ## One manager -/

/-- What is known of a connection, where `sent` is what the other client handed out and `peer` its
    user. It either dialed, or was made for an OPEN of the other client. -/
structure MemberOk (peer : UserRef) (sent : RelayEnvelope → Prop) (m : Member) : Prop where
  kinds : Kinds m.conn
  greets : ∀ env ∈ m.conn.out, env.kind = .kindOpen ∨ env.kind = .kindOpenAck →
    env.relayID = m.conn.relayID ∧ env.senderSession = m.conn.mySession
  frames : ∀ env ∈ m.conn.recv.frames, env.relayID = m.conn.relayID ∧ sent env
  origin : (Dialed m.conn ∧ (m.conn.life.openCh = true → ∃ env, sent env ∧ env.kind = .kindOpenAck ∧
      env.relayID = m.conn.relayID ∧ m.conn.life.remoteSession = env.senderSession)) ∨
    (¬ Dialed m.conn ∧ m.conn.life.state ≠ .stateOpening ∧ m.remotePeer = peer ∧ ∃ env, sent env ∧
      env.kind = .kindOpen ∧ env.relayID = m.conn.relayID ∧ m.conn.life.remoteSession = env.senderSession ∧
      m.conn.mySession = env.targetSession)

/-- The envelope a call of `handlePacket` has in hand. -/
def PacketPc.env? : PacketPc → Option RelayEnvelope
  | .accept env | .register env _ | .duplicate env _ | .enqueue env _ => some env
  | .start | .enqueuing _ | .returned _ => none

structure CallOk (peer : UserRef) (sent : RelayEnvelope → Prop) (made : List Member) (call : PacketCall) : Prop where
  sender : call.packet.sender = peer
  body : ∀ env ∈ call.packet.body, sent env
  env : ∀ env ∈ call.pc.env?, env ∈ call.packet.body
  named : ∀ env k, call.pc = .enqueue env k ∨ call.pc = .duplicate env k →
    ∃ m, made[k]? = some m ∧ m.conn.relayID = env.relayID

structure ManagerOk (peer : UserRef) (sent : RelayEnvelope → Prop) (r : RelayManager) : Prop where
  sound : r.Sound
  named : ∀ id k, r.conns.lookup id = some k → ∃ m, r.made[k]? = some m ∧ m.conn.relayID = id
  members : ∀ m ∈ r.made, MemberOk peer sent m
  calls : ∀ call ∈ r.calls, CallOk peer sent r.made call

section

variable {r r' : RelayManager} {a : RelayAction} {i k : Nat} {m : Member} {peer : UserRef}
  {sent sent' : RelayEnvelope → Prop} {act : RelayConnection.Action} {c' : RelayConnection}

theorem MemberOk.mono (h : MemberOk peer sent m) (hsent : ∀ env, sent env → sent' env) : MemberOk peer sent' m := by
  refine ⟨h.kinds, h.greets, fun env he => ⟨(h.frames env he).1, hsent env (h.frames env he).2⟩, ?_⟩
  rcases h.origin with ⟨hd, hopen⟩ | ⟨hd, hstate, hpeer, env, henv, hrest⟩
  · refine .inl ⟨hd, fun ho => ?_⟩
    obtain ⟨env, henv, hrest⟩ := hopen ho
    exact ⟨env, hsent env henv, hrest⟩
  · exact .inr ⟨hd, hstate, hpeer, env, hsent env henv, hrest⟩

/-- A step hands out no OPEN. -/
theorem not_dialed_step {c : RelayConnection} (hk : Kinds c) (hd : ¬ Dialed c) (hs : c.step act = some c') : ¬ Dialed c' := by
  rintro ⟨env, he, hopen⟩
  rcases step_greets hk hs env he with he | hg
  · exact hd ⟨env, he, hopen⟩
  · exact hg.1 hopen

theorem MemberOk.step (h : MemberOk peer sent m) (hs : m.conn.step act = some c')
    (hp : ∀ env, act.packet? = some env → env.relayID = m.conn.relayID ∧ sent env) :
    MemberOk peer sent { m with conn := c' } := by
  have heff := step_effect hs
  have hid := heff.conn.relayID
  have hmy := heff.conn.mySession
  refine ⟨h.kinds.step hs, fun env he hk => ?_, fun env he => ?_, ?_⟩
  · rw [hid, hmy]
    rcases step_greets h.kinds hs env he with he | hg
    · exact h.greets env he hk
    · exact hk.elim (fun hk => absurd hk hg.1) hg.2
  · rw [hid]
    rcases heff.frames env he with he | he
    · exact h.frames env he
    · exact hp env he
  · rcases h.origin with ⟨hd, hopen⟩ | ⟨hd, hstate, hpeer, env, henv, hk, hrelay, hremote, hmine⟩
    · refine .inl ⟨hd.step hs, fun ho => ?_⟩
      rw [hid]
      rcases step_opens hs with ⟨hch, hsession⟩ | ⟨env, hin, hk, _, hsession⟩
      · rw [hsession]
        exact hopen (hch ▸ ho)
      · obtain ⟨hrelay, henv⟩ := h.frames env hin
        exact ⟨env, henv, hk, hrelay, hsession⟩
    · refine .inr ⟨not_dialed_step h.kinds hd hs, fun ho => hstate (heff.opening ho), hpeer, env, henv, hk, ?_, ?_, ?_⟩
      · rw [hid]
        exact hrelay
      · rcases step_opens hs with ⟨_, hsession⟩ | ⟨_, _, _, ho, _⟩
        · rw [hsession]
          exact hremote
        · exact absurd ho hstate
      · rw [hmy]
        exact hmine

theorem memberOk_dialed (target : UserRef) (config : RelayConfig) (relayID : String) (my remote : SessionRef) :
    MemberOk peer sent ⟨target, .new config relayID my remote true⟩ := by
  refine ⟨⟨List.forall_mem_nil _, List.forall_mem_nil _⟩, fun env he _ => ?_, List.forall_mem_nil _,
    .inl ⟨⟨_, List.mem_cons_self, rfl⟩, fun ho => ?_⟩⟩
  · rw [List.mem_singleton.mp he]
    exact ⟨rfl, rfl⟩
  · cases ho

theorem memberOk_accepted (cfg : RelayConfig) {env : RelayEnvelope} (hsent : sent env) (hk : env.kind = .kindOpen) :
    MemberOk peer sent ⟨peer, .new cfg env.relayID env.targetSession env.senderSession false⟩ := by
  refine ⟨⟨List.forall_mem_nil _, List.forall_mem_nil _⟩, fun env he _ => ?_, List.forall_mem_nil _,
    .inr ⟨?_, RelayState.noConfusion, rfl, env, hsent, hk, rfl, rfl, rfl⟩⟩
  · rw [List.mem_singleton.mp he]
    exact ⟨rfl, rfl⟩
  · rintro ⟨env', he, hopen⟩
    rw [List.mem_singleton.mp he] at hopen
    cases hopen

/-- How the calls of `handlePacket` go on: with the envelope of their packet, and to the owner of its
    relay ID. -/
inductive HandlerEffect (r : RelayManager) (a : RelayAction) (call' : PacketCall) : Prop
  | old (h : call' ∈ r.calls)
  | starts (ha : a = .packet call'.packet) (hpc : call'.pc = .start)
  | goes {call : PacketCall} (h : call ∈ r.calls) (hp : call'.packet = call.packet)
      (env : ∀ env ∈ call'.pc.env?, env ∈ call.packet.body ∨ call.pc.env? = some env)
      (owner : ∀ env k, call'.pc = .enqueue env k ∨ call'.pc = .duplicate env k → r.conns.lookup env.relayID = some k)

theorem handleStep_calls (h : r.handleStep i = some r') : ∀ call' ∈ r'.calls, HandlerEffect r (.handle i) call' := by
  cases hcall : r.calls[i]? with
  | none => simp only [RelayManager.handleStep, hcall] at h; cases h
  | some call =>
    obtain ⟨p, pc⟩ := call
    have hmem := List.mem_of_getElem? hcall
    -- the call goes on to `pc'`, whatever else changes
    have hgoto : ∀ {r₁ : RelayManager} (pc' : PacketPc), r₁.calls = r.calls →
        (∀ env ∈ pc'.env?, env ∈ p.body ∨ pc.env? = some env) →
        (∀ env k, pc' = .enqueue env k ∨ pc' = .duplicate env k → r.conns.lookup env.relayID = some k) →
        ∀ call' ∈ (r₁.goto i pc').calls, HandlerEffect r (.handle i) call' := by
      intro r₁ pc' hcalls henv howner call' hc
      have hc : call' ∈ r.calls.modify i fun call => { call with pc := pc' } := hcalls ▸ hc
      rcases mem_modify hcall hc with hc | rfl
      · exact .old hc
      · exact .goes hmem rfl henv howner
    have hplain : ∀ {r₁ : RelayManager} (pc' : PacketPc), r₁.calls = r.calls → pc'.env? = none →
        ∀ call' ∈ (r₁.goto i pc').calls, HandlerEffect r (.handle i) call' := by
      intro r₁ pc' hcalls hnone
      refine hgoto pc' hcalls (fun env he => by rw [hnone] at he; cases he) fun env k hpc => ?_
      rcases hpc with rfl | rfl <;> cases hnone
    simp only [RelayManager.handleStep, hcall] at h
    cases pc with
    | start =>
      cases h
      unfold RelayManager.handlePacket
      cases hb : p.body with
      | none => exact hplain _ rfl rfl
      | some env =>
        have hin : ∀ e ∈ (some env : Option RelayEnvelope), e ∈ p.body ∨ PacketPc.start.env? = some e :=
          fun e he => .inl (hb ▸ he)
        dsimp only
        split
        · exact hplain _ rfl rfl
        split
        · exact hgoto (.accept env) rfl hin fun _ _ h => (by rcases h with h | h <;> cases h)
        cases hl : r.conns.lookup env.relayID with
        | none => exact hplain _ rfl rfl
        | some k =>
          refine hgoto (.enqueue env k) rfl hin fun e k' hpc => ?_
          rcases hpc with hpc | hpc <;> cases hpc
          exact hl
    | accept env =>
      cases h
      exact hgoto (.register env r.incomingRelayConfig) rfl (fun _ he => .inr he)
        fun _ _ h => (by rcases h with h | h <;> cases h)
    | register env cfg =>
      cases h
      unfold RelayManager.acceptIncoming
      cases hl : r.conns.lookup env.relayID with
      | none => exact hplain _ rfl rfl
      | some k =>
        refine hgoto (.duplicate env k) rfl (fun _ he => .inr he) fun e k' hpc => ?_
        rcases hpc with hpc | hpc <;> cases hpc
        exact hl
    | duplicate env k =>
      simp only [RelayManager.answerDuplicate] at h
      split at h
      · cases h
      split at h
      · obtain ⟨r₁, h₁, rfl⟩ := Option.map_eq_some_iff.mp h
        exact hplain _ (onMember_registry h₁).2.2.2 rfl
      · cases h
        exact hplain _ rfl rfl
    | enqueue env k =>
      obtain ⟨r₁, h₁, rfl⟩ := Option.map_eq_some_iff.mp h
      exact hplain _ (onMember_registry h₁).2.2.2 rfl
    | enqueuing k =>
      obtain ⟨r₁, h₁, rfl⟩ := Option.map_eq_some_iff.mp h
      unfold RelayManager.afterReader
      split <;> exact hplain _ (onMember_registry h₁).2.2.2 rfl
    | returned => cases h

theorem step_calls (h : r.step a = some r') : ∀ call' ∈ r'.calls, HandlerEffect r a call' := by
  cases a with
  | handle i => exact handleStep_calls h
  | packet p =>
    cases h
    intro call' hc
    rcases List.mem_append.mp hc with hc | hc
    · exact .old hc
    · rw [List.mem_singleton.mp hc]
      exact .starts rfl rfl
  | conn k action =>
    rw [(connStep_registry h).2]
    exact fun _ => .old
  | closeNext j =>
    simp only [RelayManager.step, RelayManager.closeNext] at h
    split at h
    · obtain ⟨r₁, h₁, rfl⟩ := Option.map_eq_some_iff.mp h
      have hcalls : r₁.calls = r.calls := (onMember_registry h₁).2.2.2
      exact fun _ hc => .old (hcalls ▸ hc)
    · cases h
  | connect | closeAll | onConnection | onOrphan | setIncomingConfig => cases h; exact fun _ hc => .old hc

theorem ManagerOk.members_step (h : ManagerOk peer sent r) (hs : r.step a = some r') :
    ∀ m ∈ r'.made, MemberOk peer sent m := by
  have hset : ∀ {k : Nat} {new : Member}, MemberOk peer sent new → ∀ m ∈ r.made.set k new, MemberOk peer sent m := by
    intro k new hnew m hm
    rcases List.mem_or_eq_of_mem_set hm with hm | rfl
    · exact h.members m hm
    · exact hnew
  have hsnoc : ∀ {new : Member}, MemberOk peer sent new → ∀ m ∈ r.made ++ [new], MemberOk peer sent m := by
    intro new hnew m hm
    rcases List.mem_append.mp hm with hm | hm
    · exact h.members m hm
    · rw [List.mem_singleton.mp hm]
      exact hnew
  generalize hmade' : r'.made = made'
  cases hmade' ▸ step_made h.sound hs with
  | same => exact h.members
  | dials => exact hsnoc (memberOk_dialed _ _ _ _ _)
  | @accepts i p env cfg hc =>
    have hcall := h.calls _ (List.mem_of_getElem? hc)
    have hkind : env.kind = .kindOpen := h.sound.calls _ (List.mem_of_getElem? hc)
    have hpeer : p.sender = peer := hcall.sender
    rw [hpeer]
    exact hsnoc (memberOk_accepted cfg (hcall.body env (hcall.env env rfl)) hkind)
  | @packet i k call env m c' hc hpc hm hstep =>
    have hcall := h.calls _ (List.mem_of_getElem? hc)
    obtain ⟨m', hm', hid⟩ := hcall.named env k hpc
    cases hm.symm.trans hm'
    have henv : call.pc.env? = some env := by rcases hpc with hpc | hpc <;> rw [hpc] <;> rfl
    refine hset ((h.members m (List.mem_of_getElem? hm)).step hstep fun e he => ?_)
    cases he
    exact ⟨hid.symm, hcall.body env (hcall.env env henv)⟩
  | moves hp _ hm hstep =>
    refine hset ((h.members _ (List.mem_of_getElem? hm)).step hstep fun e he => ?_)
    cases hp.symm.trans he

theorem ManagerOk.step (h : ManagerOk peer sent r) (hs : r.step a = some r')
    (hp : ∀ p, a = .packet p → p.sender = peer ∧ ∀ env ∈ p.body, sent env) : ManagerOk peer sent r' := by
  have hmoves := step_moves h.sound hs
  refine ⟨h.sound.step hs, fun id k hl => ?_, h.members_step hs, fun call' hc => ?_⟩
  · rcases (step_registry hs).1.source hl with hl | hm
    · exact hmoves.named (h.named id k hl)
    · exact hm
  · cases step_calls hs call' hc with
    | old hc =>
      obtain ⟨hsender, hbody, henv, hnamed⟩ := h.calls call' hc
      exact ⟨hsender, hbody, henv, fun env k hpc => hmoves.named (hnamed env k hpc)⟩
    | starts ha hpc =>
      obtain ⟨hsender, hbody⟩ := hp _ ha
      refine ⟨hsender, hbody, fun env he => (by rw [hpc] at he; cases he), fun env k hpc' => ?_⟩
      rw [hpc] at hpc'
      rcases hpc' with hpc' | hpc' <;> cases hpc'
    | goes hcall hpacket henv howner =>
      have hold := h.calls _ hcall
      refine ⟨hpacket ▸ hold.sender, hpacket ▸ hold.body, fun env he => ?_, fun env k hpc => ?_⟩
      · rw [hpacket]
        exact (henv env he).elim id (hold.env env)
      · exact hmoves.named (h.named _ k (howner env k hpc))

theorem ManagerOk.mono (h : ManagerOk peer sent r) (hsent : ∀ env, sent env → sent' env) : ManagerOk peer sent' r where
  sound := h.sound
  named := h.named
  members m hm := (h.members m hm).mono hsent
  calls call hc :=
    ⟨(h.calls call hc).sender, fun env he => hsent env ((h.calls call hc).body env he), (h.calls call hc).env,
      (h.calls call hc).named⟩

/-- A connection that dials has its relay ID from `Connect`. -/
theorem ManagerOk.dialed (h : ManagerOk peer sent r) (hs : r.step a = some r') (hm : r'.made[k]? = some m)
    (hd : Dialed m.conn) :
    (∃ old, r.made[k]? = some old ∧ Dialed old.conn ∧ old.conn.relayID = m.conn.relayID) ∨
      k = r.made.length ∧ ∃ target config my remote, a = .connect target config m.conn.relayID my remote := by
  have hset : ∀ {j : Nat} {old : Member} {act : RelayConnection.Action} {c' : RelayConnection}, r.made[j]? = some old →
      old.conn.step act = some c' → (r.made.set j { old with conn := c' })[k]? = some m →
      ∃ old, r.made[k]? = some old ∧ Dialed old.conn ∧ old.conn.relayID = m.conn.relayID := by
    intro j old act c' hj hstep hm
    obtain ⟨hlt, _⟩ := List.getElem?_eq_some_iff.mp hm
    rw [List.length_set] at hlt
    have hk := List.getElem?_eq_getElem hlt
    rcases Slots.set_get j { old with conn := c' } hk with ⟨rfl, hm'⟩ | ⟨-, hm'⟩
    · cases hm'.symm.trans hm
      refine ⟨old, hj, ?_, (step_effect hstep).conn.relayID.symm⟩
      by_contra hnot
      exact not_dialed_step (h.members old (List.mem_of_getElem? hj)).kinds hnot hstep hd
    · cases hm'.symm.trans hm
      exact ⟨_, hk, hd, rfl⟩
  have hsnoc : ∀ {new : Member}, (r.made ++ [new])[k]? = some m → r.made[k]? = some m ∨ k = r.made.length ∧ new = m := by
    intro new hm
    by_cases hlt : k < r.made.length
    · exact .inl (by rwa [List.getElem?_append_left hlt] at hm)
    · obtain ⟨hlt', _⟩ := List.getElem?_eq_some_iff.mp hm
      rw [List.length_append, List.length_singleton] at hlt'
      obtain rfl : k = r.made.length := by omega
      rw [List.getElem?_concat_length, Option.some.injEq] at hm
      exact .inr ⟨rfl, hm⟩
  generalize hmade' : r'.made = made' at hm
  cases hmade' ▸ step_made h.sound hs with
  | same => exact .inl ⟨m, hm, hd, rfl⟩
  | dials =>
    rcases hsnoc hm with hm | ⟨hk, rfl⟩
    · exact .inl ⟨m, hm, hd, rfl⟩
    · exact .inr ⟨hk, _, _, _, _, rfl⟩
  | accepts =>
    rcases hsnoc hm with hm | ⟨hk, rfl⟩
    · exact .inl ⟨m, hm, hd, rfl⟩
    · obtain ⟨env, he, hopen⟩ := hd
      rw [List.mem_singleton.mp he] at hopen
      cases hopen
  | packet _ _ hj hstep => exact .inl (hset hj hstep hm)
  | moves _ _ hj hstep => exact .inl (hset hj hstep hm)

end

/-! ## Two clients -/

abbrev Dialers := Side → Dialer

abbrev Dialers.step : Dialers → Side × DialAction → Option Dialers := stepAt Dialer.step

/-- A connection of the client has handed the envelope out. -/
def Sent (d : Dialer) (env : RelayEnvelope) : Prop := ∃ m ∈ d.relay.made, env ∈ m.conn.out

instance (d : Dialer) (env : RelayEnvelope) : Decidable (Sent d env) :=
  inferInstanceAs (Decidable (∃ m ∈ d.relay.made, env ∈ m.conn.out))

def DialAction.packet? : DialAction → Option Packet
  | .relay (.packet p) => some p
  | _ => none

/-- The relay ID that `newRelayID` gives to a `Connect`. -/
def DialAction.relayID? : DialAction → Option String
  | .run _ (.resolved _ relayID _) => some relayID
  | _ => none

/-- A packet comes from the other client with its user, and brings what one of its connections handed
    out. The relay ID a `Connect` picks is new. -/
def Routed (user : Side → UserRef) (d : Dialers) (m : Side × DialAction) : Prop :=
  (∀ p ∈ m.2.packet?, p.sender = user m.1.peer ∧ ∀ env ∈ p.body, Sent (d m.1.peer) env) ∧
    ∀ relayID ∈ m.2.relayID?, ∀ x ∈ [Side.a, Side.b], ∀ m ∈ (d x).relay.made, m.conn.relayID ≠ relayID

instance (user : Side → UserRef) (d : Dialers) (m : Side × DialAction) : Decidable (Routed user d m) :=
  inferInstanceAs (Decidable ((∀ p ∈ m.2.packet?, p.sender = user m.1.peer ∧ ∀ env ∈ p.body, Sent (d m.1.peer) env) ∧
    ∀ relayID ∈ m.2.relayID?, ∀ x ∈ [Side.a, Side.b], ∀ m ∈ (d x).relay.made, m.conn.relayID ≠ relayID))

structure Agreeing (user : Side → UserRef) (d : Dialers) : Prop where
  managers : ∀ x, ManagerOk (user x.peer) (Sent (d x.peer)) (d x).relay
  /-- Of each relay ID, at most one connection dialed. -/
  dialers : ∀ (x y : Side) (i j : Nat) (m n : Member), (d x).relay.made[i]? = some m → (d y).relay.made[j]? = some n → Dialed m.conn →
    Dialed n.conn → m.conn.relayID = n.conn.relayID → x = y ∧ i = j

section

variable {d d' : Dialer} {a : DialAction}

/-- The steps of the manager that a step of the client makes. -/
theorem Dialer.step_relay (hs : d.step a = some d') : d'.relay = d.relay ∨ ∃ ra, d.relay.step ra = some d'.relay ∧
    (∀ p, ra = .packet p → a = .relay (.packet p)) ∧
    ∀ target config relayID my remote, ra = .connect target config relayID my remote →
      ∃ i answer, a = .run i (.resolved answer relayID my) := by
  have hrelay : ∀ {ra : RelayAction} {d₁ : Dialer}, d.relayStep ra = some d₁ → d.relay.step ra = some d₁.relay := by
    intro ra d₁ h
    obtain ⟨r, hr, rfl⟩ := Option.map_eq_some_iff.mp h
    exact hr
  cases a with
  | relay ra =>
    simp only [Dialer.step] at hs
    split at hs
    · rename_i hmay
      refine .inr ⟨ra, hrelay hs, fun p hp => by rw [hp], ?_⟩
      rintro target config relayID my remote rfl
      cases hmay
    · cases hs
  | connect => cases hs; exact .inl rfl
  | run i how =>
    obtain ⟨pc, _, hs⟩ := Option.bind_eq_some_iff.mp hs
    unfold Dialer.connectStep at hs
    split at hs
    case h_2 =>
      split at hs
      · cases hs
        exact .inl rfl
      · obtain ⟨d₁, hd₁, rfl⟩ := Option.map_eq_some_iff.mp hs
        have hr := hrelay hd₁
        refine .inr ⟨_, hr, fun _ h => (by cases h), ?_⟩
        rintro target config relayID my remote ⟨⟩
        exact ⟨i, _, rfl⟩
    case h_9 =>
      obtain ⟨l, _, rfl⟩ := Option.map_eq_some_iff.mp hs
      exact .inl rfl
    case h_10 =>
      split at hs
      · cases hs
        exact .inl rfl
      · obtain ⟨d₁, hd₁, rfl⟩ := Option.map_eq_some_iff.mp hs
        have hr := hrelay hd₁
        exact .inr ⟨_, hr, fun _ h => (by cases h), fun _ _ _ _ _ h => (by cases h)⟩
    all_goals (repeat' split at hs) <;> cases hs <;> exact .inl rfl

end

section

variable {user : Side → UserRef} {d d' : Dialers} {m : Side × DialAction}

theorem Sent.step {d d' : Dialer} {ra : RelayAction} (hsound : d.relay.Sound) (hs : d.relay.step ra = some d'.relay)
    {env : RelayEnvelope} (h : Sent d env) : Sent d' env := by
  obtain ⟨m, hm, he⟩ := h
  obtain ⟨k, hk⟩ := List.mem_iff_getElem?.mp hm
  obtain ⟨m', hm', he'⟩ := (step_made hsound hs).keeps (P := fun c => env ∈ c.out) hk he
    fun _ _ _ he _ hs => (step_effect hs).sent_stays he
  exact ⟨m', List.mem_of_getElem? hm', he'⟩

/-- A connection that has just dialed is the only one with its relay ID. -/
theorem Agreeing.dialers_step (h : Agreeing user d) (hok : Routed user d m) {ra : RelayAction}
    (hrelay : (d m.1).relay.step ra = some (d' m.1).relay) (hother : ∀ x, x ≠ m.1 → d' x = d x)
    (hfresh : ∀ target config relayID my remote, ra = .connect target config relayID my remote →
      ∃ i answer, m.2 = .run i (.resolved answer relayID my)) :
    ∀ (x y : Side) (i j : Nat) (mx my : Member), (d' x).relay.made[i]? = some mx → (d' y).relay.made[j]? = some my →
      Dialed mx.conn → Dialed my.conn → mx.conn.relayID = my.conn.relayID → x = y ∧ i = j := by
  -- a connection that dialed did so before, or is the new one, whose relay ID no other has
  have hback : ∀ (x : Side) (i : Nat) (mx : Member), (d' x).relay.made[i]? = some mx → Dialed mx.conn →
      (∃ old, (d x).relay.made[i]? = some old ∧ Dialed old.conn ∧ old.conn.relayID = mx.conn.relayID) ∨
        (x = m.1 ∧ i = (d m.1).relay.made.length ∧ ∀ y, ∀ n ∈ (d y).relay.made, n.conn.relayID ≠ mx.conn.relayID) := by
    intro x i mx hx hdx
    by_cases hxm : x = m.1
    · subst hxm
      rcases (h.managers m.1).dialed hrelay hx hdx with hold | ⟨hi, target, config, my, remote, hra⟩
      · exact .inl hold
      · obtain ⟨i', answer, hm⟩ := hfresh _ _ _ _ _ hra
        exact .inr ⟨rfl, hi, fun y n hn => hok.2 _ (by rw [hm]; rfl) y (by cases y <;> simp) n hn⟩
    · rw [hother x hxm] at hx
      exact .inl ⟨mx, hx, hdx, rfl⟩
  intro x y i j mx my hx hy hdx hdy hid
  rcases hback x i mx hx hdx with ⟨ox, hox, hdox, hidx⟩ | ⟨rfl, hi, hnew⟩
  · rcases hback y j my hy hdy with ⟨oy, hoy, hdoy, hidy⟩ | ⟨rfl, hj, hnew⟩
    · exact h.dialers x y i j ox oy hox hoy hdox hdoy (by rw [hidx, hidy, hid])
    · exact absurd (hidx.trans hid) (hnew x ox (List.mem_of_getElem? hox))
  · rcases hback y j my hy hdy with ⟨oy, hoy, hdoy, hidy⟩ | ⟨rfl, hj, _⟩
    · exact absurd (hidy.trans hid.symm) (hnew y oy (List.mem_of_getElem? hoy))
    · exact ⟨rfl, hi.trans hj.symm⟩

theorem Agreeing.step (h : Agreeing user d) (hok : Routed user d m) (hs : Dialers.step d m = some d') : Agreeing user d' := by
  obtain ⟨hown, hother⟩ := stepAt_cases hs
  rcases Dialer.step_relay hown with hsame | ⟨ra, hrelay, hpacket, hfresh⟩
  · -- nothing of the managers changes
    have hrel : ∀ x, (d' x).relay = (d x).relay := by
      intro x
      by_cases hx : x = m.1
      · rw [hx, hsame]
      · rw [hother x hx]
    refine ⟨fun x => ?_, fun x y i j mx my hx hy => ?_⟩
    · rw [hrel]
      exact (h.managers x).mono fun env ⟨n, hn, he⟩ => ⟨n, by rw [hrel]; exact hn, he⟩
    · rw [hrel] at hx hy
      exact h.dialers x y i j mx my hx hy
  · refine ⟨fun x => ?_, h.dialers_step hok hrelay hother hfresh⟩
    by_cases hx : x = m.1
    · subst hx
      rw [hother m.1.peer (Side.peer_ne _)]
      exact (h.managers m.1).step hrelay fun p hp => hok.1 p (by rw [hpacket p hp]; rfl)
    · rw [hother x hx]
      refine (h.managers x).mono fun env he => ?_
      have hpeer : x.peer = m.1 := by rw [Side.eq_peer_of_ne hx, Side.peer_peer]
      rw [hpeer] at he ⊢
      exact he.step (h.managers m.1).sound hrelay

def Dialers.Initial (d : Dialers) : Prop := ∀ x, (d x).Initial

end

end Turntf.Relay
