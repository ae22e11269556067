/-
  Turntf.Relay.Order — what a receiver hands to the application.

  Every frame on its way to the application, in `recvBuf`, in the hands of `handleData` or
  pushed into `recvCh`, is a frame of the sender's stream under its own number
  (`Recv.Genuine`). In a reliable-ordered connection the numbers pushed are 1, 2, … without a
  gap, followed by those in the hands of `handleData` up to `expectedSeq` (`Recv.Ordered`);
  `handleData` gives frames up only when the connection is closed, and handles no other one
  after that.

  - `delivered_prefix`: what was pushed into `recvCh` is always a prefix of what the sender
    took from its `sendCh`, over any network.
-/

import Turntf.Relay.Window

namespace Turntf.Relay

open Lts Ends Numbered

/-! ## Positions of `dispatchLoop` -/

/-- The frames `handleData` has yet to push. -/
def DispatchPc.ready : DispatchPc → List (Nat × Bytes)
  | .deliverOne env => [(env.seq, env.payload)]
  | .deliver _ seq data ready _ => (seq, data) :: ready
  | .delivered _ ready _ => ready
  | _ => []

/-- The number a reliable-ordered `handleData` acknowledges when it is through. -/
def DispatchPc.ackSeq? : DispatchPc → Option Nat
  | .deliver _ _ _ _ n | .delivered _ _ n | .settle _ n | .queue _ n => some n
  | _ => none

/-- The positions from which a closed connection handles no further envelope. -/
def DispatchPc.resting : DispatchPc → Bool
  | .select | .check _ | .finish _ | .release _ | .exiting | .exited => true
  | _ => false

section

variable {c c' : RelayConnection}

theorem handled_cases (c : RelayConnection) (env : RelayEnvelope) :
    c.handled env = .finish env ∨ c.handled env = .release env := by
  unfold RelayConnection.handled
  split
  · exact .inl rfl
  · exact .inr rfl

@[simp] theorem handled_ready (c : RelayConnection) (env : RelayEnvelope) : (c.handled env).ready = [] := by
  rcases handled_cases c env with h | h <;> rw [h] <;> rfl

@[simp] theorem handled_resting (c : RelayConnection) (env : RelayEnvelope) : (c.handled env).resting = true := by
  rcases handled_cases c env with h | h <;> rw [h] <;> rfl

@[simp] theorem handled_ackSeq? (c : RelayConnection) (env : RelayEnvelope) : (c.handled env).ackSeq? = none := by
  rcases handled_cases c env with h | h <;> rw [h] <;> rfl

theorem handled_ne_one (c : RelayConnection) (env e : RelayEnvelope) : c.handled env ≠ .deliverOne e := by
  rcases handled_cases c env with h | h <;> rw [h] <;> nofun

@[simp] theorem delivering_ready (env : RelayEnvelope) (ready : List (Nat × Bytes)) (n : Nat) :
    (DispatchPc.delivering env ready n).ready = ready := by
  cases ready <;> rfl

@[simp] theorem delivering_ackSeq? (env : RelayEnvelope) (ready : List (Nat × Bytes)) (n : Nat) :
    (DispatchPc.delivering env ready n).ackSeq? = some n := by
  cases ready <;> rfl

theorem delivering_ne_one (env e : RelayEnvelope) (ready : List (Nat × Bytes)) (n : Nat) :
    DispatchPc.delivering env ready n ≠ .deliverOne e := by
  cases ready <;> nofun

/-! ## The first section of `handleData` -/

theorem takeReady_spec (fuel : Nat) (buf : SeqMap) (next : Nat) :
    Run next (takeReady fuel buf next).1 ∧ (takeReady fuel buf next).2.2 = next + (takeReady fuel buf next).1.length ∧
      (∀ p ∈ (takeReady fuel buf next).1, buf.lookup p.1 = some p.2) ∧
      ∀ s d, (takeReady fuel buf next).2.1.lookup s = some d → buf.lookup s = some d := by
  induction fuel generalizing buf next with
  | zero => exact ⟨trivial, rfl, nofun, fun _ _ h => h⟩
  | succ fuel ih =>
    unfold takeReady
    split
    · rename_i data hdata
      obtain ⟨hrun, hstop, hready, hbuf⟩ := ih (buf.erase next) (next + 1)
      have herase : ∀ s d, (buf.erase next).lookup s = some d → buf.lookup s = some d := by
        intro s d h
        by_cases hs : s = next
        · subst hs
          rw [AList.lookup_erase] at h
          cases h
        · rwa [AList.lookup_erase_ne hs] at h
      refine ⟨⟨rfl, hrun⟩, ?_, ?_, fun s d h => herase s d (hbuf s d h)⟩
      · rw [List.length_cons, hstop]
        omega
      · intro p hp
        rcases List.mem_cons.mp hp with rfl | hp
        · exact hdata
        · exact herase _ _ (hready p hp)
    · exact ⟨trivial, rfl, nofun, fun _ _ h => h⟩

structure OrderSpec (r : Recv) (env : RelayEnvelope) (r' : Recv) (ready : List (Nat × Bytes)) : Prop where
  run : Run r.expectedSeq ready
  expectedSeq : r'.expectedSeq = r.expectedSeq + ready.length
  ready : ∀ p ∈ ready, r.recvBuf.lookup p.1 = some p.2 ∨ p = (env.seq, env.payload)
  buffered : ∀ s d, r'.recvBuf.lookup s = some d → r.recvBuf.lookup s = some d ∨ (s, d) = (env.seq, env.payload)

theorem order_spec {r r' : Recv} {w : Int} {env : RelayEnvelope} {ready : List (Nat × Bytes)}
    (h : r.order w env = (r', some ready)) : OrderSpec r env r' ready := by
  unfold Recv.order at h
  split at h
  · rename_i hs
    cases h
    obtain ⟨hrun, hstop, hready, hbuf⟩ := takeReady_spec r.recvBuf.keys.length r.recvBuf (env.seq + 1)
    refine ⟨⟨hs, hs ▸ hrun⟩, ?_, ?_, fun s d h => .inl (hbuf s d h)⟩
    · rw [List.length_cons, ← hs]
      show (takeReady _ _ _).2.2 = _
      rw [hstop]
      omega
    · intro p hp
      rcases List.mem_cons.mp hp with rfl | hp
      · exact .inr rfl
      · exact .inl (hready p hp)
  · split at h
    · split at h <;> cases h
      refine ⟨trivial, rfl, nofun, fun s d h => ?_⟩
      by_cases hs : s = env.seq
      · subst hs
        rw [AList.lookup_insert, Option.some_inj] at h
        exact .inr (by rw [h])
      · rw [AList.lookup_insert_ne hs] at h
        exact .inl h
    · cases h
      exact ⟨trivial, rfl, nofun, fun _ _ h => .inl h⟩

/-! ## Nothing is made up -/

/-- What the receiver has is of the stream `w`. -/
structure Recv.Genuine (w : List Bytes) (r : Recv) : Prop where
  buffered : ∀ s d, r.recvBuf.lookup s = some d → At w s d
  ready : ∀ p ∈ r.dispatcher.ready, At w p.1 p.2
  pushed : ∀ p ∈ r.pushed, At w p.1 p.2

theorem Recv.Genuine.mono {w v : List Bytes} {r : Recv} (h : r.Genuine w) (hp : w <+: v) : r.Genuine v :=
  ⟨fun s d hd => (h.buffered s d hd).mono hp, fun p hm => (h.ready p hm).mono hp, fun p hm => (h.pushed p hm).mono hp⟩

theorem Recv.Genuine.same {w : List Bytes} {r r' : Recv} (h : r.Genuine w) (hs : SameOrder r r') : r'.Genuine w := by
  refine ⟨?_, ?_, ?_⟩
  · rw [hs.recvBuf]
    exact h.buffered
  · rcases hs.dispatcher with ⟨hd, _⟩ | ⟨_, _, hd⟩ <;> rw [hd]
    · exact h.ready
    · nofun
  · rw [hs.pushed]
    exact h.pushed

theorem Recv.Genuine.dispatch {w : List Bytes} (h : c.recv.Genuine w)
    (hf : ∀ env ∈ c.recv.frames, env.kind = .kindData → At w env.seq env.payload) (he : DispatchEffect c c') :
    c'.recv.Genuine w := by
  have hframe : ∀ {env : RelayEnvelope}, c.recv.dispatcher = .handle env → env.kind = .kindData →
      At w env.seq env.payload := by
    intro env hpc hk
    exact hf env (Recv.mem_frames.mpr (.inr (.inr (by rw [hpc]; exact List.mem_cons_self)))) hk
  have hnone : ∀ {r : Recv}, r.recvBuf = c.recv.recvBuf → r.pushed = c.recv.pushed → r.dispatcher.ready = [] →
      r.Genuine w := by
    intro r hb hp hr
    refine ⟨by rw [hb]; exact h.buffered, ?_, by rw [hp]; exact h.pushed⟩
    rw [hr]
    nofun
  cases he with
  | @move pc hm =>
    refine ⟨h.buffered, ?_, h.pushed⟩
    show ∀ p ∈ pc.ready, At w p.1 p.2
    generalize hpc : c.recv.dispatcher = pc₀ at hm
    cases hm with
    | one hk =>
      intro p hp
      rw [List.mem_singleton.mp hp]
      exact hframe hpc hk
    | skip | outside | abandonOne | abandon | pinged => rw [handled_ready]; nofun
    | stop | halt | terminal | checked | idle | wait | waited => nofun
  | openAck | close | error | ack | queue => exact hnone rfl rfl (handled_ready _ _)
  | take | ping | finish | shut => exact hnone rfl rfl rfl
  | @settle env n =>
    refine hnone rfl rfl ?_
    dsimp only
    split
    · exact handled_ready _ _
    · rfl
  | @release env =>
    have hr : (c.recv.release env).recvBuf = c.recv.recvBuf ∧ (c.recv.release env).pushed = c.recv.pushed := by
      unfold Recv.release
      split <;> exact ⟨rfl, rfl⟩
    exact hnone hr.1 hr.2 rfl
  | @order env r ready hpc hk ho hord =>
    have hat := hframe hpc hk
    have hspec := order_spec hord
    obtain ⟨_, _, _, _, hp, _⟩ := order_frame hord
    refine ⟨fun s d hd => ?_, ?_, ?_⟩
    · rcases hspec.buffered s d hd with hd | hd
      · exact h.buffered s d hd
      · cases hd
        exact hat
    · show ∀ p ∈ (DispatchPc.delivering env ready _).ready, At w p.1 p.2
      rw [delivering_ready]
      intro p hp
      rcases hspec.ready p hp with hp | rfl
      · exact h.buffered _ _ hp
      · exact hat
    · show ∀ p ∈ r.pushed, At w p.1 p.2
      rw [hp]
      exact h.pushed
  | @deliverOne env hpc =>
    have hready := h.ready
    rw [hpc] at hready
    refine ⟨h.buffered, ?_, ?_⟩
    · dsimp only
      split
      · nofun
      · rw [handled_ready]
        nofun
    · exact fun p hp => (List.mem_append.mp hp).elim (h.pushed p) (hready p)
  | @deliver env seq data ready n hpc =>
    have hready := h.ready
    rw [hpc] at hready
    refine ⟨h.buffered, fun p hp => hready p (List.mem_cons_of_mem _ hp), fun p hp => ?_⟩
    rcases List.mem_append.mp hp with hp | hp
    · exact h.pushed p hp
    · rw [List.mem_singleton.mp hp]
      exact hready _ List.mem_cons_self
  | @delivered env ready n hpc =>
    have hready := h.ready
    rw [hpc] at hready
    refine ⟨h.buffered, ?_, h.pushed⟩
    dsimp only
    rw [delivering_ready]
    exact hready

/-- Either end of a reliable pair has only frames of the other one's stream. -/
theorem genuine {config : Side → RelayConfig} {relayID : String} {session : Side → SessionRef}
    (hr : ∀ x, (config x).reliability ≠ .bestEffort) {p : Pair}
    (h : Reach Pair.step Network (· = Pair.new config relayID session) p) (x : Side) :
    (p x).recv.Genuine (p x.peer).xmit.assigned := by
  refine h.keeps (P := fun p => ∀ x, (p x).recv.Genuine (p x.peer).xmit.assigned) ?_ ?_ x
  · rintro p rfl x
    exact ⟨nofun, nofun, nofun⟩
  · intro p m q hreach hp _ hq y
    obtain ⟨hown, hother⟩ := stepAt_cases hq
    have heff := step_effect hown
    by_cases hy : y = m.1
    · subst hy
      rw [hother _ (Side.peer_ne _)]
      rcases heff.order with hs | ⟨_, hd⟩
      · exact (hp m.1).same hs
      · refine (hp m.1).dispatch (fun env he hk => ?_) hd
        exact (sending hr hreach _).out env (frames_sent (by rintro _ rfl _; rfl) hreach m.1 env he) hk
    · obtain rfl := Side.eq_peer_of_ne hy
      rw [hother _ hy]
      have := hp m.1.peer
      rw [Side.peer_peer] at this ⊢
      exact this.mono heff.xmit.assigned

/-! ## Reliable-ordered delivery -/

structure Recv.Ordered (r : Recv) (closed : Bool) : Prop where
  off : r.inbox = none → r.dispatcher = .off
  one : ∀ env, r.dispatcher ≠ .deliverOne env
  run : Run 1 (r.pushed ++ r.dispatcher.ready)
  expected : r.expectedSeq = (r.pushed ++ r.dispatcher.ready).length + 1 ∨ closed = true ∧ r.dispatcher.resting = true
  ackSeq : ∀ n ∈ r.dispatcher.ackSeq?, n = (r.pushed ++ r.dispatcher.ready).length
  received : r.consumed ++ r.recvCh = r.pushed.map Prod.snd

theorem Recv.Ordered.same {r r' : Recv} {closed closed' : Bool} (h : r.Ordered closed) (hs : SameOrder r r')
    (hc : closed = true → closed' = true) : r'.Ordered closed' := by
  rcases hs.dispatcher with ⟨hd, hi⟩ | ⟨hi, hi', hd⟩
  · refine ⟨fun hn => ?_, ?_, ?_, ?_, ?_, ?_⟩
    · rw [hd]
      exact h.off (hi hn)
    · rw [hd]
      exact h.one
    · rw [hs.pushed, hd]
      exact h.run
    · rw [hs.expectedSeq, hs.pushed, hd]
      exact h.expected.imp_right fun hr => ⟨hc hr.1, hr.2⟩
    · rw [hs.pushed, hd]
      exact h.ackSeq
    · rw [hs.received, hs.pushed]
      exact h.received
  · -- the reader starts `dispatchLoop`, which had handled nothing
    have hoff := h.off hi
    have hrun := h.run
    have hexp := h.expected
    rw [hoff] at hrun hexp
    refine ⟨?_, ?_, ?_, ?_, ?_, ?_⟩
    · rw [hi']
      exact fun h => absurd h (Option.some_ne_none _)
    · rw [hd]
      exact fun _ => DispatchPc.noConfusion
    · rw [hs.pushed, hd]
      exact hrun
    · rw [hs.expectedSeq, hs.pushed, hd]
      exact .inl (hexp.resolve_right nofun)
    · rw [hd]
      exact fun n hn => absurd hn (Option.not_mem_none n)
    · rw [hs.received, hs.pushed]
      exact h.received

theorem DispatchEffect.inbox (he : DispatchEffect c c') (h : c.recv.inbox = none → c.recv.dispatcher = .off) :
    c'.recv.inbox ≠ none := by
  intro hn
  cases he with
  | move hm =>
    rw [h hn] at hm
    cases hm
  | take | shut => cases hn
  | @release env hpc =>
    have hi : (c.recv.release env).inbox = c.recv.inbox := by
      unfold Recv.release
      split <;> rfl
    rw [h (hi ▸ hn)] at hpc
    cases hpc
  | order hpc _ _ hord =>
    obtain ⟨_, hi, _⟩ := order_frame hord
    rw [h (hi ▸ hn)] at hpc
    cases hpc
  | openAck hpc | close hpc | error hpc | ack hpc | ping hpc | deliverOne hpc | deliver hpc | delivered hpc | settle hpc
  | queue hpc | finish hpc =>
    rw [h hn] at hpc
    cases hpc

/-- `dispatchLoop` goes on with nothing to push before and after. -/
theorem Recv.Ordered.moved {r r' : Recv} {closed closed' : Bool} (h : r.Ordered closed) (hin : r'.inbox ≠ none)
    (he : r'.expectedSeq = r.expectedSeq) (hp : r'.pushed = r.pushed) (hc : r'.consumed ++ r'.recvCh = r.consumed ++ r.recvCh)
    (hready : r.dispatcher.ready = []) (hready' : r'.dispatcher.ready = []) (hone : ∀ env, r'.dispatcher ≠ .deliverOne env)
    (hack : ∀ n ∈ r'.dispatcher.ackSeq?, n ∈ r.dispatcher.ackSeq?)
    (hrest : closed = true → r.dispatcher.resting = true → closed' = true ∧ r'.dispatcher.resting = true) :
    r'.Ordered closed' := by
  have hrun := h.run
  have hexp := h.expected
  have hacks := h.ackSeq
  rw [hready] at hrun hexp hacks
  refine ⟨fun hn => absurd hn hin, hone, ?_, ?_, ?_, ?_⟩
  · rw [hp, hready']
    exact hrun
  · rw [he, hp, hready']
    exact hexp.imp_right fun hr => hrest hr.1 hr.2
  · rw [hp, hready']
    exact fun n hn => hacks n (hack n hn)
  · rw [hc, hp]
    exact h.received

theorem DispatchMove.ordered {pc pc' : DispatchPc} (hm : DispatchMove c pc pc') (hpc : c.recv.dispatcher = pc)
    (ho : c.config.reliability = .reliableOrdered) (h : c.recv.Ordered c.life.closed) :
    (c.dispatcherAt pc').recv.Ordered c.life.closed := by
  have hin := DispatchEffect.inbox (c := c) (.move (hpc ▸ hm)) h.off
  have hmove : pc.ready = [] → pc'.ready = [] → (∀ env, pc' ≠ .deliverOne env) → pc'.ackSeq? = none →
      (c.life.closed = true → pc.resting = true → pc'.resting = true) →
      (c.dispatcherAt pc').recv.Ordered c.life.closed := by
    intro hr hr' hone hack hrest
    refine h.moved hin rfl rfl rfl (hpc ▸ hr) hr' hone ?_ fun hc hpr => ⟨hc, hrest hc (hpc ▸ hpr)⟩
    show ∀ n ∈ pc'.ackSeq?, n ∈ c.recv.dispatcher.ackSeq?
    rw [hack]
    nofun
  cases hm with
  | stop | halt => exact hmove rfl rfl (fun _ => DispatchPc.noConfusion) rfl fun _ _ => rfl
  | terminal hc | checked hc => exact hmove rfl rfl (fun _ => DispatchPc.noConfusion) rfl fun hc' => absurd hc' (by rw [hc]; nofun)
  | idle | wait | waited => exact hmove rfl rfl (fun _ => DispatchPc.noConfusion) rfl fun _ => Bool.noConfusion
  | skip | outside | pinged =>
    exact hmove rfl (handled_ready _ _) (handled_ne_one _ _) (handled_ackSeq? _ _) fun _ _ => handled_resting _ _
  | one _ hno => exact absurd ho hno
  | abandonOne => exact absurd hpc (h.one _)
  | abandon hc =>
    -- the frames in hand are given up: nothing more is pushed
    have hrun := h.run
    refine ⟨fun hn => absurd hn hin, handled_ne_one _ _, ?_, .inr ⟨hc, handled_resting _ _⟩, ?_, h.received⟩
    · show Run 1 (c.recv.pushed ++ (c.handled _).ready)
      rw [handled_ready, List.append_nil]
      exact (run_append.mp hrun).1
    · show ∀ n ∈ (c.handled _).ackSeq?, _
      rw [handled_ackSeq?]
      nofun

theorem Recv.Ordered.dispatch (ho : c.config.reliability = .reliableOrdered) (h : c.recv.Ordered c.life.closed)
    (hclosed : c.life.closed = true → c'.life.closed = true) (he : DispatchEffect c c') :
    c'.recv.Ordered c'.life.closed := by
  have hin := he.inbox h.off
  have hhandled : ∀ {env : RelayEnvelope} {pc : DispatchPc}, c.recv.dispatcher = pc → pc.ready = [] → pc.resting = false →
      c'.recv = { c.recv with dispatcher := c.handled env } → c'.recv.Ordered c'.life.closed := by
    intro env pc hpc hr hrest hrecv
    rw [hrecv] at hin ⊢
    refine h.moved hin rfl rfl rfl (hpc ▸ hr) (handled_ready _ _) (handled_ne_one _ _) ?_ fun _ hpr => ?_
    · show ∀ n ∈ (c.handled env).ackSeq?, _
      rw [handled_ackSeq?]
      nofun
    · rw [hpc, hrest] at hpr
      cases hpr
  cases he with
  | move hm => exact hm.ordered rfl ho h
  | take hpc =>
    exact h.moved hin rfl rfl rfl (by rw [hpc]; rfl) rfl (fun _ => DispatchPc.noConfusion) nofun fun hc _ => ⟨hc, rfl⟩
  | openAck hpc | close hpc | error hpc | ack hpc => exact hhandled hpc rfl rfl rfl
  | ping hpc => exact h.moved hin rfl rfl rfl (by rw [hpc]; rfl) rfl (fun _ => DispatchPc.noConfusion) nofun (by rw [hpc]; nofun)
  | deliverOne hpc => exact absurd hpc (h.one _)
  | @order env r ready hpc hk _ hord =>
    have hspec := order_spec hord
    obtain ⟨_, _, hch, hcons, hp, _⟩ := order_frame hord
    have hrun := h.run
    have hexp := h.expected
    rw [hpc, show (DispatchPc.handle env).ready = [] from rfl, List.append_nil] at hrun hexp
    have hexp := hexp.resolve_right nofun
    have hlen : r.expectedSeq = (c.recv.pushed ++ ready).length + 1 := by
      rw [hspec.expectedSeq, hexp, List.length_append]
      omega
    refine ⟨fun hn => absurd hn hin, fun _ => delivering_ne_one _ _ _ _, ?_, .inl ?_, ?_, ?_⟩ <;> dsimp only
    · rw [delivering_ready, hp, run_append]
      refine ⟨hrun, ?_⟩
      have := hspec.run
      rwa [hexp, Nat.add_comm] at this
    · rw [delivering_ready, hp, hlen]
    · rw [delivering_ackSeq?, delivering_ready, hp]
      intro n hn
      rw [← Option.some.inj hn, hlen, Nat.add_sub_cancel]
    · rw [hch, hcons, hp]
      exact h.received
  | @deliver env seq data ready n hpc =>
    have hrun := h.run
    have hexp := h.expected
    have hacks := h.ackSeq
    have heq : c.recv.pushed ++ (seq, data) :: ready = (c.recv.pushed ++ [(seq, data)]) ++ ready :=
      List.append_cons _ _ _
    rw [hpc, show (DispatchPc.deliver env seq data ready n).ready = (seq, data) :: ready from rfl, heq] at hrun hexp hacks
    refine ⟨fun hn => absurd hn hin, fun _ => DispatchPc.noConfusion, hrun, .inl (hexp.resolve_right nofun), hacks, ?_⟩
    dsimp only
    rw [List.map_append, ← h.received, List.append_assoc]
    rfl
  | @delivered env ready n hpc =>
    have hrun := h.run
    have hexp := h.expected
    have hacks := h.ackSeq
    rw [hpc] at hrun hexp hacks
    refine ⟨fun hn => absurd hn hin, fun _ => delivering_ne_one _ _ _ _, ?_, .inl ?_, ?_, h.received⟩ <;> dsimp only
    · rw [delivering_ready]
      exact hrun
    · rw [delivering_ready]
      exact hexp.resolve_right nofun
    · rw [delivering_ready, delivering_ackSeq?]
      exact hacks
  | @settle env n hpc =>
    have hrest : c.recv.dispatcher.resting ≠ true := by
      rw [hpc]
      nofun
    refine h.moved hin rfl rfl rfl (by rw [hpc]; rfl) ?_ ?_ ?_ fun _ hr => absurd hr hrest <;> dsimp only <;> split
    · exact handled_ready _ _
    · rfl
    · exact handled_ne_one _ _
    · exact fun _ => DispatchPc.noConfusion
    · rw [handled_ackSeq?]
      nofun
    · rw [hpc]
      exact fun _ h => h
  | queue hpc => exact hhandled hpc rfl rfl rfl
  | finish hpc => exact h.moved hin rfl rfl rfl (by rw [hpc]; rfl) rfl (fun _ => DispatchPc.noConfusion) nofun fun hc _ => ⟨hc, rfl⟩
  | @release env hpc =>
    have hr : (c.recv.release env).expectedSeq = c.recv.expectedSeq ∧ (c.recv.release env).pushed = c.recv.pushed ∧
        (c.recv.release env).consumed = c.recv.consumed ∧ (c.recv.release env).recvCh = c.recv.recvCh := by
      unfold Recv.release
      split <;> exact ⟨rfl, rfl, rfl, rfl⟩
    obtain ⟨h1, h2, h3, h4⟩ := hr
    exact h.moved hin h1 h2 (congrArg₂ _ h3 h4) (by rw [hpc]; rfl) rfl (fun _ => DispatchPc.noConfusion) nofun fun hc _ => ⟨hc, rfl⟩
  | shut hpc => exact h.moved hin rfl rfl rfl (by rw [hpc]; rfl) rfl (fun _ => DispatchPc.noConfusion) nofun fun hc _ => ⟨hc, rfl⟩

/-- What a reliable-ordered connection keeps, whatever envelopes arrive. -/
structure InOrder (c : RelayConnection) : Prop where
  reliability : c.config.reliability = .reliableOrdered
  ordered : c.recv.Ordered c.life.closed

theorem InOrder.new {config : RelayConfig} (ho : config.reliability = .reliableOrdered) (relayID : String)
    (my remote : SessionRef) (dialed : Bool) : InOrder (.new config relayID my remote dialed) :=
  ⟨ho, fun _ => rfl, nofun, trivial, .inl rfl, nofun, rfl⟩

theorem InOrder.step (h : InOrder c) {a : RelayConnection.Action} (hs : StepEffect c a c') : InOrder c' := by
  refine ⟨by rw [hs.conn.config]; exact h.reliability, ?_⟩
  rcases hs.order with hsame | ⟨_, hd⟩
  · exact h.ordered.same hsame hs.closed_stays
  · exact h.ordered.dispatch h.reliability hs.closed_stays hd

theorem inOrder {config : Side → RelayConfig} {relayID : String} {session : Side → SessionRef}
    {ok : Pair → PairAction → Prop} (ho : ∀ x, (config x).reliability = .reliableOrdered) {p : Pair}
    (h : Reach Pair.step ok (· = Pair.new config relayID session) p) (x : Side) : InOrder (p x) := by
  refine Reach.ends_keep (P := fun _ c => InOrder c) ?_ ?_ h x
  · rintro p rfl x
    exact .new (ho x) _ _ _ _
  · intro p x a c _ hp _ hs
    exact hp.step (step_effect hs)

end

/-- What was pushed at one end is the beginning of the stream of the other. -/
theorem pushed_eq_take {config : Side → RelayConfig} {relayID : String} {session : Side → SessionRef}
    (ho : ∀ x, (config x).reliability = .reliableOrdered) {p : Pair}
    (h : Reach Pair.step Network (· = Pair.new config relayID session) p) (x : Side) :
    (p x).recv.pushed.map Prod.snd = (p x.peer).xmit.assigned.take (p x).recv.pushed.length := by
  have hr : ∀ x, (config x).reliability ≠ .bestEffort := fun x => by rw [ho x]; nofun
  have hrun := (run_append.mp (inOrder ho h x).ordered.run).1
  exact hrun.take_eq (genuine hr h x).pushed

/-- Whatever the network does, the application of a reliable-ordered pair gets a prefix of what
    the other end sent: nothing is missing in between, twice, out of order or altered. -/
theorem delivered_prefix {config : Side → RelayConfig} {relayID : String} {session : Side → SessionRef}
    (ho : ∀ x, (config x).reliability = .reliableOrdered) {p : Pair}
    (h : Reach Pair.step Network (· = Pair.new config relayID session) p) (x : Side) :
    (p x).recv.consumed ++ (p x).recv.recvCh = (p x).recv.pushed.map Prod.snd ∧
      (p x).recv.pushed.map Prod.snd <+: (p x.peer).xmit.took := by
  have hr : ∀ x, (config x).reliability ≠ .bestEffort := fun x => by rw [ho x]; nofun
  refine ⟨(inOrder ho h x).ordered.received, ?_⟩
  rw [pushed_eq_take ho h x]
  exact (List.take_prefix _ _).trans (sending hr h x.peer).window.prefixed

/-- Frame 2 arrives before frame 1, and frame 1 twice. -/
theorem delivered_prefix_reordered : ∃ p : Pair, (p .b).recv.pushed = [(1, [10]), (2, [20])] ∧
    (p .b).recv.pushed.map Prod.snd <+: (p .a).xmit.took := by
  let data (seq : Nat) (payload : Bytes) := sampleEnvelope .a .kindData seq 0 payload
  have h : ((exec (guarded Pair.step Network) (samplePair .reliableOrdered 8) (List.flatten
      [opened, sends .a 0 [10], sends .a 1 [20], gets .b (data 2 [20]) 4 6, gets .b (data 1 [10]) 3 11,
        gets .b (data 1 [10]) 1 0])).any fun p => (p .b).recv.pushed = [(1, [10]), (2, [20])]) = true := by
    decide +kernel
  obtain ⟨p, hp, hw⟩ := reach_any (I := fun p => p = samplePair .reliableOrdered 8) _ (.init rfl) h
  simp only [decide_eq_true_eq] at hw
  exact ⟨p, hw, ( delivered_prefix (fun _ => rfl) hp .b).2⟩

end Turntf.Relay
