/-
  Turntf.Relay.Acked — what an acknowledgement says about the other end.

  `handleAck` takes a number for every number up to it. A receiver `Covers n` when it has
  pushed every frame up to `n`. If each number a receiver is about to acknowledge is covered,
  then so are all acknowledgements it ever hands out, and the other end has removed only
  covered numbers from `unacked` (`base_covered`). A reliable-ordered receiver is of this kind
  (`Recv.Ordered.covers`).

  An at-least-once receiver acknowledges each frame by its own number, whatever came before
  it: `acked_undelivered` is a run in which a frame is acknowledged that was never delivered.
  - `acked_delivered`: as long as frames are pushed without a gap, every acknowledged frame
    was delivered.
-/

import Turntf.Relay.Order

namespace Turntf.Relay

open Lts Ends Numbered

section

variable {c c' : RelayConnection}

/-! ## Covered numbers -/

/-- Every frame up to `n` was pushed into `recvCh`. -/
def Recv.Covers (r : Recv) (n : Nat) : Prop := ∀ s, 1 ≤ s → s ≤ n → s ∈ r.pushed.map Prod.fst

theorem Recv.Covers.mono {r r' : Recv} {n : Nat} (h : r.Covers n) (hp : r.pushed <+: r'.pushed) : r'.Covers n := by
  intro s h1 hs
  exact (hp.map Prod.fst).subset (h s h1 hs)

theorem DispatchEffect.pushed (h : DispatchEffect c c') : c.recv.pushed <+: c'.recv.pushed := by
  cases h with
  | deliverOne | deliver => exact List.prefix_append _ _
  | order _ _ _ ho =>
    obtain ⟨_, _, _, _, hp, _⟩ := order_frame ho
    exact ⟨[], by rw [List.append_nil]; exact hp.symm⟩
  | @release env =>
    show c.recv.pushed <+: (c.recv.release env).pushed
    unfold Recv.release
    split <;> exact List.prefix_refl _
  | _ => exact List.prefix_refl _

theorem StepEffect.pushed {a : RelayConnection.Action} (h : StepEffect c a c') : c.recv.pushed <+: c'.recv.pushed := by
  rcases h.order with hs | ⟨_, hd⟩
  · rw [hs.pushed]
  · exact hd.pushed

/-! ### The number of a repeated acknowledgement -/

theorem DispatchEffect.recvDelivered (h : DispatchEffect c c') :
    c'.recv.recvDelivered = c.recv.recvDelivered ∨
      ∃ env, c.recv.dispatcher = .settle env c'.recv.recvDelivered := by
  cases h with
  | settle hpc => exact .inr ⟨_, hpc⟩
  | order _ _ _ ho =>
    obtain ⟨_, _, _, _, _, hd⟩ := order_frame ho
    exact .inl hd
  | @release env =>
    refine .inl ?_
    show (c.recv.release env).recvDelivered = _
    unfold Recv.release
    split <;> rfl
  | _ => exact .inl rfl

theorem DispatchEffect.reader (h : DispatchEffect c c') : c'.recv.reader = c.recv.reader := by
  cases h with
  | order _ _ _ ho => exact (order_frame ho).1
  | @release env =>
    show (c.recv.release env).reader = _
    unfold Recv.release
    split <;> rfl
  | _ => rfl

def ReaderPc.delivered? : ReaderPc → Option Nat
  | .snapped _ _ _ _ _ delivered => some delivered
  | _ => none

theorem readerStep_delivered? (h : c.readerStep = some c') : c'.recv.reader.delivered? = none := by
  have hbudget : ∀ env buffered, (c.afterBudget env buffered).delivered? = none := by
    intro env buffered
    unfold RelayConnection.afterBudget
    (repeat' split) <;> rfl
  cases readerStep_effect h with
  | tested | budget => exact hbudget _ _
  | undo =>
    show (if _ then ReaderPc.idle else .fail).delivered? = none
    split <;> rfl
  | _ => rfl

theorem StepEffect.delivered? {a : RelayConnection.Action} (h : StepEffect c a c') :
    ∀ n ∈ c'.recv.reader.delivered?, n ∈ c.recv.reader.delivered? ∨ n = c.recv.recvDelivered := by
  have hsame : c'.recv.reader = c.recv.reader →
      ∀ n ∈ c'.recv.reader.delivered?, n ∈ c.recv.reader.delivered? ∨ n = c.recv.recvDelivered := by
    intro hr n hn
    exact .inl (hr ▸ hn)
  cases h with
  | packet => exact fun n hn => .inr (Option.some.inj hn).symm
  | reader h =>
    rw [readerStep_delivered? h]
    nofun
  | dispatcher h => exact hsame h.reader
  | ackWorker h => exact hsame (congrArg Recv.reader (ackStep_frame h).recv)
  | sender _ rest => exact hsame (congrArg Recv.reader rest.recv)
  | @call call => cases call with
    | send data => cases data <;> exact hsame rfl
    | _ => exact hsame rfl
  | run _ h => cases h <;> exact hsame rfl
  | _ => exact hsame rfl

/-! ### Every acknowledgement -/

/-- `handleData` has pushed every frame up to the number it is about to acknowledge. -/
def Settles (c : RelayConnection) : Prop :=
  ∀ env n, c.recv.dispatcher = .settle env n ∨ c.recv.dispatcher = .queue env n → c.recv.Covers n

structure AcksCovered (c : RelayConnection) : Prop where
  delivered : c.recv.Covers c.recv.recvDelivered
  snapped : ∀ n ∈ c.recv.reader.delivered?, c.recv.Covers n
  held : ∀ env ∈ c.acks.held, c.recv.Covers env.ackSeq
  out : ∀ env ∈ c.out, env.kind = .kindAck → c.recv.Covers env.ackSeq

theorem AcksCovered.new (config : RelayConfig) (relayID : String) (my remote : SessionRef) (dialed : Bool) :
    AcksCovered (.new config relayID my remote dialed) := by
  refine ⟨fun s h1 hs => absurd (Nat.le_trans h1 hs) nofun, fun n hn => absurd hn (Option.not_mem_none n), List.forall_mem_nil _,
    fun env he hk => ?_⟩
  rw [List.mem_singleton.mp he] at hk
  cases dialed <;> cases hk

theorem AcksCovered.owed (h : AcksCovered c) (hq : Settles c) {n : Nat} (ho : Owes c n) : c.recv.Covers n := by
  cases ho with
  | again hr => exact h.snapped n (by rw [hr]; rfl)
  | queue hd => exact hq _ n (.inr hd)

theorem AcksCovered.step (h : AcksCovered c) (hsend : Sending c) (hq : Settles c) {a : RelayConnection.Action}
    (hs : StepEffect c a c') : AcksCovered c' := by
  have hp := hs.pushed
  refine ⟨?_, ?_, ?_, ?_⟩
  · rcases hs.order with hsame | ⟨_, hd⟩
    · rw [hsame.recvDelivered]
      exact h.delivered.mono hp
    · rcases hd.recvDelivered with he | ⟨env, hpc⟩
      · rw [he]
        exact h.delivered.mono hp
      · exact (hq env _ (.inl hpc)).mono hp
  · intro n hn
    rcases hs.delivered? n hn with hn | rfl
    · exact (h.snapped n hn).mono hp
    · exact h.delivered.mono hp
  · intro env he
    rcases hs.held env he with he | ⟨n, ho, rfl⟩
    · exact (h.held env he).mono hp
    · exact (h.owed hq ho).mono hp
  · intro env he hk
    obtain ⟨extra, ho, hx⟩ := hs.out
    rw [ho, List.mem_append] at he
    rcases he with he | he
    · exact (h.out env he hk).mono hp
    · cases hx env he with
      | data hc =>
        rw [(hsend.window.carried env hc).1] at hk
        cases hk
      | plain hr =>
        rw [hsend.reliable] at hr
        cases hr
      | ack ha => exact (h.held env ha).mono hp
      | close | openAck | error => cases hk

/-! ### Whoever is acknowledged -/

theorem XmitEffect.sendBase {t : Xmit} (he : XmitEffect c t) (h : c.xmit.Window) :
    t.sendBase = c.xmit.sendBase ∨ ∃ env ∈ c.recv.frames, env.kind = .kindAck ∧ t.sendBase = env.ackSeq + 1 := by
  have hreceive : ∀ (u : Xmit) (item : SendItem), (u.receive item).sendBase = u.sendBase := by
    intro u item
    cases item <;> rfl
  cases he with
  | still core => exact .inl core.sendBase
  | @ack env kind hin =>
    unfold Xmit.handleAck
    (repeat' split) <;> first
      | exact .inl rfl
      | exact .inr ⟨env, hin, kind, rfl⟩
  | @push item t _ hp =>
    refine .inl ?_
    show t.sendBase = _
    unfold Xmit.push at hp
    (repeat' split at hp) <;> cases hp
    · rfl
    · exact hreceive _ _
  | receive => exact .inl (hreceive _ _)
  | assign => exact .inl (if_neg (by have := h.base; omega))
  | _ => exact .inl rfl

end

section

variable {config : Side → RelayConfig} {relayID : String} {session : Side → SessionRef} {ok : Pair → PairAction → Prop}
  {p : Pair} (hok : ∀ p m, ok p m → Network p m) (hr : ∀ x, (config x).reliability ≠ .bestEffort)
  (hq : ∀ p, Reach Pair.step ok (· = Pair.new config relayID session) p → ∀ x, Settles (p x))

include hr hq in
theorem acks_covered (h : Reach Pair.step ok (· = Pair.new config relayID session) p) (x : Side) : AcksCovered (p x) := by
  refine Reach.ends_keep (P := fun _ c => AcksCovered c) ?_ ?_ h x
  · rintro p rfl x
    exact .new _ _ _ _ _
  · intro p x a c hreach hp _ hs
    exact hp.step (sending hr hreach x) (hq p hreach x) (step_effect hs)

include hok hr hq in
/-- Every number that is no longer in `unacked` was pushed at the other end. -/
theorem base_covered (h : Reach Pair.step ok (· = Pair.new config relayID session) p) (x : Side) :
    (p x.peer).recv.Covers ((p x).xmit.sendBase - 1) := by
  refine h.keeps (P := fun p => ∀ x, (p x.peer).recv.Covers ((p x).xmit.sendBase - 1)) ?_ ?_ x
  · rintro p rfl x s h1 hs
    exact absurd (Nat.le_trans h1 hs) nofun
  · intro p m q hreach hp _ hq' y
    obtain ⟨hown, hother⟩ := stepAt_cases hq'
    have heff := step_effect hown
    by_cases hy : y = m.1
    · subst hy
      rw [hother _ (Side.peer_ne _)]
      rcases heff.xmit.sendBase (sending hr hreach m.1).window with he | ⟨env, hin, hk, he⟩ <;> rw [he]
      · exact hp m.1
      · have hsent := frames_sent (by rintro _ rfl _; rfl) (hreach.weaken hok) m.1 env hin
        exact (acks_covered hr hq hreach _).out env hsent hk
    · obtain rfl := Side.eq_peer_of_ne hy
      rw [hother _ hy]
      have := hp m.1.peer
      rw [Side.peer_peer] at this ⊢
      exact this.mono heff.pushed

end

/-! ## Reliable-ordered connections -/

theorem Recv.Ordered.covers {r : Recv} {closed : Bool} (h : r.Ordered closed) (n : Nat) (hn : n ∈ r.dispatcher.ackSeq?)
    (hready : r.dispatcher.ready = []) : r.Covers n := by
  have hrun := h.run
  have hlen := h.ackSeq n hn
  rw [hready, List.append_nil] at hrun hlen
  intro s h1 hs
  obtain ⟨d, hd⟩ := hrun.mem h1 (by omega)
  exact List.mem_map_of_mem hd

theorem InOrder.settles {c : RelayConnection} (h : InOrder c) : Settles c := by
  rintro env n (hpc | hpc) <;> exact h.ordered.covers n (by rw [hpc]; rfl) (by rw [hpc]; rfl)

theorem Recv.Ordered.le_of_covers {r : Recv} {closed : Bool} (h : r.Ordered closed) {n : Nat} (hc : r.Covers n) :
    n ≤ r.pushed.length := by
  by_cases hn : n = 0
  · omega
  · obtain ⟨p, hp, hpn⟩ := List.mem_map.mp (hc n (by omega) (Nat.le_refl n))
    have := (run_append.mp h.run).1.lt p hp
    omega

/-- The payloads before `sendBase` were pushed at the other end. -/
theorem acked_pushed {config : Side → RelayConfig} {relayID : String} {session : Side → SessionRef}
    (ho : ∀ x, (config x).reliability = .reliableOrdered) {p : Pair}
    (h : Reach Pair.step Network (· = Pair.new config relayID session) p) (x : Side) :
    (p x).xmit.assigned.take ((p x).xmit.sendBase - 1) <+: (p x.peer).recv.pushed.map Prod.snd := by
  have hr : ∀ x, (config x).reliability ≠ .bestEffort := fun x => by rw [ho x]; nofun
  have hcovers := base_covered (fun _ _ hok => hok) hr (fun p hp x => (inOrder ho hp x).settles) h x
  have hle := (inOrder ho h x.peer).ordered.le_of_covers hcovers
  have heq := pushed_eq_take ho h x.peer
  rw [Side.peer_peer] at heq
  rw [heq]
  exact List.take_prefix_take_left hle

/-! ### Acknowledgements of one connection -/

section

variable {c c' : RelayConnection}

theorem queueACK_queued {a : Acks} {closed : Bool} {env : RelayEnvelope} :
    ∀ n ∈ (a.queueACK closed env).queued, n ∈ a.queued ∨ n = env.ackSeq := by
  intro n hn
  unfold Acks.queueACK at hn
  split at hn
  · exact .inl hn
  · have hq : ∀ (b : Acks), b.openIdle.queued = b.queued := by
      intro b
      unfold Acks.openIdle
      split <;> rfl
    have hw : a.startWorker.queued = a.queued := by
      unfold Acks.startWorker
      split <;> rfl
    rcases List.mem_append.mp hn with hn | hn
    · rw [hq] at hn
      exact .inl (hw ▸ hn)
    · exact .inr (List.mem_singleton.mp hn)

theorem closeACKIdleLocked_queued (a : Acks) : a.closeACKIdleLocked.queued = a.queued := by
  unfold Acks.closeACKIdleLocked
  split <;> rfl

theorem WorkerEffect.queued (h : WorkerEffect c c') : c'.acks.queued = c.acks.queued := by
  cases h with
  | rest | grab => exact closeACKIdleLocked_queued _
  | sent => exact closeACKIdleLocked_queued { c.acks with ackSending := false }
  | _ => rfl

theorem StepEffect.queued {a : RelayConnection.Action} (h : StepEffect c a c') :
    ∀ n ∈ c'.acks.queued, n ∈ c.acks.queued ∨ Owes c n := by
  intro n hn
  have hbegin : c.acks.beginReceiveACK.queued = c.acks.queued := by
    unfold Acks.beginReceiveACK Acks.openIdle
    split <;> rfl
  have hfinish : c.acks.finishReceiveACK.queued = c.acks.queued :=
    closeACKIdleLocked_queued { c.acks with ackGenerating := c.acks.ackGenerating - 1 }
  cases h.acks with
  | same ha => exact .inl (ha ▸ hn)
  | queue ho ha =>
    rw [ha] at hn
    rcases queueACK_queued n hn with hn | rfl
    · exact .inl hn
    · exact .inr ho
  | begin ha =>
    rw [ha, hbegin] at hn
    exact .inl hn
  | finish _ ha =>
    rw [ha, hfinish] at hn
    exact .inl hn
  | worker h =>
    rw [(ackStep_effect h).queued] at hn
    exact .inl hn

/-- What a reliable-ordered connection has acknowledged, or is about to, was pushed. -/
structure Behind (c : RelayConnection) : Prop where
  sending : Sending c
  order : InOrder c
  acks : AcksCovered c
  queued : ∀ n ∈ c.acks.queued, c.recv.Covers n

theorem behind {config : RelayConfig} {relayID : String} {my remote : SessionRef} {dialed : Bool}
    (ho : config.reliability = .reliableOrdered)
    (h : Reach RelayConnection.step free (· = .new config relayID my remote dialed) c) : Behind c := by
  refine h.keeps (P := Behind) ?_ ?_
  · rintro c rfl
    exact ⟨.new (by rw [ho]; nofun) _ _ _ _, .new ho _ _ _ _, .new _ _ _ _ _, nofun⟩
  · intro c a c' _ hi _ hs
    have he := step_effect hs
    refine ⟨hi.sending.step he, hi.order.step he, hi.acks.step hi.sending hi.order.settles he, fun n hn => ?_⟩
    rcases he.queued n hn with hn | hn
    · exact (hi.queued n hn).mono he.pushed
    · exact (hi.acks.owed hi.order.settles hn).mono he.pushed

/-- Whatever envelopes arrive, no number passed to `queueACK`, and no acknowledgement handed out,
    is larger than the number of payloads pushed into `recvCh`. -/
theorem acks_behind_delivery {config : RelayConfig} {relayID : String} {my remote : SessionRef} {dialed : Bool}
    (ho : config.reliability = .reliableOrdered)
    (h : Reach RelayConnection.step free (· = .new config relayID my remote dialed) c) :
    (∀ n, Owes c n → n ≤ c.recv.pushed.length) ∧ (∀ n ∈ c.acks.queued, n ≤ c.recv.pushed.length) ∧
      ∀ env ∈ c.out, env.kind = .kindAck → env.ackSeq ≤ c.recv.pushed.length := by
  have hi := behind ho h
  have hle : ∀ {n : Nat}, c.recv.Covers n → n ≤ c.recv.pushed.length := fun hc => hi.order.ordered.le_of_covers hc
  refine ⟨fun n hn => hle (hi.acks.owed hi.order.settles hn), fun n hn => hle (hi.queued n hn), ?_⟩
  exact fun env he hk => hle (hi.acks.out env he hk)

end

/-- Frames 2 and 3 are ready but not delivered when frame 1 arrives again: number 1 is acknowledged
    once more, not number 3. -/
theorem acks_behind_delivery_blocked : ∃ c : RelayConnection, c.recv.expectedSeq = 4 ∧ c.acks.queued = [1, 1, 1] ∧
    c.recv.pushed.length = 1 ∧ ∀ n ∈ c.acks.queued, n ≤ c.recv.pushed.length := by
  let config := { defaultRelayConfig with reliability := .reliableOrdered, windowSize := 8 }
  let start : RelayConnection := .new config "r" (sampleSession .b) (sampleSession .a) false
  let get (seq reader dispatcher : Nat) : List RelayConnection.Action :=
    (gets .b (sampleEnvelope .a .kindData seq 0 [10]) reader dispatcher).map Prod.snd
  have h : ((exec (guarded RelayConnection.step free) start (List.flatten
      [get 1 4 9, get 3 3 7, get 2 3 3, get 1 1 0])).any fun c =>
      c.recv.expectedSeq = 4 ∧ c.acks.queued = [1, 1, 1] ∧ c.recv.pushed.length = 1) = true := by
    decide +kernel
  obtain ⟨c, hc, hw⟩ := reach_any (I := fun c => c = start) _ (.init rfl) h
  simp only [decide_eq_true_eq] at hw
  exact ⟨c, hw.1, hw.2.1, hw.2.2, (acks_behind_delivery rfl hc).2.1⟩

/-! ## At-least-once connections -/

section

variable {c c' : RelayConnection}

/-- Where only a reliable-ordered `handleData` gets. -/
def DispatchPc.ordering : DispatchPc → Bool
  | .deliver _ _ _ _ _ | .delivered _ _ _ | .settle _ _ => true
  | _ => false

structure Recv.Single (r : Recv) : Prop where
  ordering : r.dispatcher.ordering = false
  queue : ∀ env n, r.dispatcher = .queue env n → r.Covers n

structure OneByOne (c : RelayConnection) : Prop where
  reliability : c.config.reliability = .atLeastOnce
  single : c.recv.Single

theorem OneByOne.new {config : RelayConfig} (ha : config.reliability = .atLeastOnce) (relayID : String)
    (my remote : SessionRef) (dialed : Bool) : OneByOne (.new config relayID my remote dialed) :=
  ⟨ha, rfl, nofun⟩

theorem OneByOne.settles (h : OneByOne c) : Settles c := by
  rintro env n (hpc | hpc)
  · have := h.single.ordering
    rw [hpc] at this
    cases this
  · exact h.single.queue env n hpc

/-- If the frame at `deliverOne` is pushed, those before it were. -/
theorem OneByOne.step (h : OneByOne c) {a : RelayConnection.Action} (hs : StepEffect c a c')
    (hg : ∀ env, c.recv.dispatcher = .deliverOne env → c'.recv.pushed ≠ c.recv.pushed → c.recv.Covers (env.seq - 1)) :
    OneByOne c' := by
  refine ⟨by rw [hs.conn.config]; exact h.reliability, ?_⟩
  have hp := hs.pushed
  have hpc : ∀ {pc : DispatchPc}, c'.recv.dispatcher = pc → pc.ordering = false → (∀ env n, pc ≠ .queue env n) →
      c'.recv.Single := by
    rintro pc rfl ho hne
    exact ⟨ho, fun env n he => absurd he (hne env n)⟩
  have hhandled : ∀ {env : RelayEnvelope}, c'.recv.dispatcher = c.handled env → c'.recv.Single := by
    intro env hd
    rcases handled_cases c env with he | he <;> exact hpc (hd.trans he) rfl fun _ _ => DispatchPc.noConfusion
  have hsingle : ∀ {pc : DispatchPc}, c.recv.dispatcher = pc → pc.ordering = true → False := by
    rintro pc rfl ho
    rw [h.single.ordering] at ho
    cases ho
  rcases hs.order with hsame | ⟨_, hd⟩
  · rcases hsame.dispatcher with ⟨hd, _⟩ | ⟨_, _, hd⟩
    · refine ⟨by rw [hd]; exact h.single.ordering, fun env n he => ?_⟩
      exact (h.single.queue env n (hd ▸ he)).mono hp
    · exact hpc hd rfl fun _ _ => DispatchPc.noConfusion
  · cases hd with
    | move hm =>
      generalize hd : c.recv.dispatcher = pc at hm
      cases hm with
      | skip | outside | abandonOne | pinged => exact hhandled rfl
      | abandon => exact (hsingle hd rfl).elim
      | stop | halt | terminal | checked | idle | wait | waited | one => exact hpc rfl rfl fun _ _ => DispatchPc.noConfusion
    | openAck | close | error | ack | queue => exact hhandled rfl
    | take | ping | finish | release | shut => exact hpc rfl rfl fun _ _ => DispatchPc.noConfusion
    | order _ _ ho =>
      rw [h.reliability] at ho
      cases ho
    | deliver hd => exact (hsingle hd rfl).elim
    | delivered hd => exact (hsingle hd rfl).elim
    | settle hd => exact (hsingle hd rfl).elim
    | @deliverOne env hd =>
      have hrel : c.reliable = true := by simp [RelayConnection.reliable, h.reliability]
      simp only [hrel, if_true]
      refine ⟨rfl, fun e n he s h1 hs => ?_⟩
      cases he
      rw [List.map_append, List.mem_append]
      by_cases hlt : s ≤ env.seq - 1
      · exact .inl (hg env hd (by simp) s h1 hlt)
      · exact .inr (List.mem_singleton.mpr (show s = env.seq by omega))

theorem deliverOne_go {how : Choice} {env : RelayEnvelope} (h : c.dispatchStep how = some c')
    (hpc : c.recv.dispatcher = .deliverOne env) (hp : c'.recv.pushed ≠ c.recv.pushed) : how = .go := by
  cases how with
  | go => rfl
  | closed =>
    simp only [RelayConnection.dispatchStep, hpc] at h
    split at h <;> cases h
    exact absurd rfl hp
  | _ => simp only [RelayConnection.dispatchStep, hpc, reduceCtorEq] at h

end

/-- An at-least-once receiver pushes a frame only when every earlier one was pushed. -/
def Gapless (p : Pair) (m : PairAction) : Bool :=
  match (p m.1).recv.dispatcher, m.2 with
  | .deliverOne env, .dispatcher .go =>
    (List.range' 1 (env.seq - 1)).all fun s => s ∈ (p m.1).recv.pushed.map Prod.fst
  | _, _ => true

theorem Gapless.covers {p : Pair} {m : PairAction} {env : RelayEnvelope} (h : Gapless p m = true)
    (hpc : (p m.1).recv.dispatcher = .deliverOne env) (hm : m.2 = .dispatcher .go) :
    (p m.1).recv.Covers (env.seq - 1) := by
  simp only [Gapless, hpc, hm, List.all_eq_true, List.mem_range'_1, decide_eq_true_eq] at h
  intro s h1 hs
  exact h s ⟨h1, by omega⟩

section

variable {config : Side → RelayConfig} {relayID : String} {session : Side → SessionRef}
  (ha : ∀ x, (config x).reliability = .atLeastOnce) {p : Pair}

include ha in
theorem oneByOne (h : Reach Pair.step (fun p m => Network p m ∧ Gapless p m = true)
    (· = Pair.new config relayID session) p) (x : Side) : OneByOne (p x) := by
  refine Reach.ends_keep (P := fun _ c => OneByOne c) ?_ ?_ h x
  · rintro p rfl x
    exact .new (ha x) _ _ _ _
  · intro p x a c _ hp hok hs
    refine hp.step (step_effect hs) fun env hpc hne => ?_
    rcases (step_effect hs).order with hsame | ⟨⟨how, rfl⟩, _⟩
    · exact absurd hsame.pushed hne
    · obtain rfl := deliverOne_go hs hpc hne
      exact Gapless.covers hok.2 hpc rfl

include ha in
/-- As long as frames are pushed without a gap, a frame is retransmitted until it was delivered. -/
theorem acked_delivered (h : Reach Pair.step (fun p m => Network p m ∧ Gapless p m = true)
    (· = Pair.new config relayID session) p) (x : Side) :
    ∀ s ∈ (p x).xmit.acked, ∃ d, At (p x).xmit.assigned s d ∧ (s, d) ∈ (p x.peer).recv.pushed := by
  intro s hs
  have hr : ∀ x, (config x).reliability ≠ .bestEffort := fun x => by rw [ha x]; nofun
  have hnet : Reach Pair.step Network (· = Pair.new config relayID session) p := h.weaken fun _ _ hok => hok.1
  obtain ⟨h1, hlt⟩ := ((sending hr h x).window.acked s).mp hs
  have hcov := base_covered (fun _ _ hok => hok.1) hr (fun p hp x => (oneByOne ha hp x).settles) h x
  obtain ⟨⟨_, d⟩, hd, rfl⟩ := List.mem_map.mp (hcov s h1 (by omega))
  have hat := (genuine hr hnet x.peer).pushed _ hd
  rw [Side.peer_peer] at hat
  exact ⟨d, hat, hd⟩

end

/-- Frame 1 is delivered and acknowledged, frame 2 is still in `unacked`. -/
theorem acked_delivered_first : ∃ p : Pair, (p .a).xmit.acked = [1] ∧ (p .a).xmit.unacked.keys = [2] ∧
    ∃ d, At (p .a).xmit.assigned 1 d ∧ (1, d) ∈ (p .b).recv.pushed := by
  have h : ((exec (guarded Pair.step fun p m => Network p m ∧ Gapless p m = true) (samplePair .atLeastOnce 8)
      (List.flatten [opened, sends .a 0 [10], sends .a 1 [20], gets .b (sampleEnvelope .a .kindData 1 0 [10]) 4 5,
        acks .b, gets .a (sampleEnvelope .b .kindAck 0 1 []) 1 0])).any fun p =>
      (p .a).xmit.acked = [1] ∧ (p .a).xmit.unacked.keys = [2]) = true := by
    decide +kernel
  obtain ⟨p, hp, hw⟩ := reach_any (I := fun p => p = samplePair .atLeastOnce 8) _ (.init rfl) h
  simp only [decide_eq_true_eq] at hw
  exact ⟨p, hw.1, hw.2, acked_delivered (fun _ => rfl) hp .a 1 (by rw [hw.1]; exact List.mem_cons_self)⟩

/-- Frame 1 is lost, frame 2 is delivered and acknowledged: `handleAck` removes both, and frame 1
    is never sent again. -/
theorem acked_undelivered : ∃ p, Reach Pair.step Network (fun p => p = samplePair .atLeastOnce 8) p ∧
    1 ∈ (p .a).xmit.acked ∧ (p .a).xmit.unacked.lookup 1 = none ∧ (p .b).recv.pushed = [(2, [20])] := by
  have h : ((exec (guarded Pair.step Network) (samplePair .atLeastOnce 8)
      (List.flatten [opened, sends .a 0 [10], sends .a 1 [20], gets .b (sampleEnvelope .a .kindData 2 0 [20]) 4 5,
        acks .b, gets .a (sampleEnvelope .b .kindAck 0 2 []) 1 0])).any fun p =>
      1 ∈ (p .a).xmit.acked ∧ (p .a).xmit.unacked.lookup 1 = none ∧ (p .b).recv.pushed = [(2, [20])]) = true := by
    decide +kernel
  obtain ⟨p, hp, hw⟩ := reach_any (I := fun p => p = samplePair .atLeastOnce 8) _ (.init rfl) h
  simp only [decide_eq_true_eq] at hw
  exact ⟨p, hp, hw⟩

end Turntf.Relay
