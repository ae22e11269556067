/-
  Turntf.Relay.Handshake — DATA that overtakes the OPEN_ACK.

  The acceptor is Open at once and hands out its OPEN_ACK in a goroutine of its own, so its DATA
  may arrive first. The dialer delivers and acknowledges it while it is Opening, and nobody
  receives from it before `Connect` has returned. The OPEN_ACK then waits in the inbox behind
  whatever `dispatchLoop` does, and with `recvCh` full it delivers the next payload for ever.

  What was in the connection when the OPEN_ACK was admitted is all that `dispatchLoop` handles
  before it (`Recv.Clear`), so the OPEN_ACK gets through if that fits into `recvCh`.

  - `handshake_unblocked`: no Opening connection has an OPEN_ACK in the inbox and `dispatchLoop`
    blocked on a full `recvCh`, when every OPEN_ACK is admitted to a connection that holds at most
    `cap(recvCh)` payloads;
  - `handshake_blocked`: 65 frames ahead of the OPEN_ACK block it, with the default configuration
    and every frame acknowledged in time.
-/

import Turntf.Relay.Budget
import Turntf.Relay.Lifecycle

namespace Turntf.Relay

open Lts

/-- `dispatchLoop` is in `deliverPayload`. -/
def DispatchPc.delivers : DispatchPc → Bool
  | .deliverOne _ | .deliver _ _ _ _ _ => true
  | _ => false

/-- `dispatchLoop` has a payload in hand and `recvCh` no room for it. -/
def Recv.Blocked (r : Recv) : Prop := r.dispatcher.delivers = true ∧ r.recvCh.length = recvCap

/-- The frame that an action offers to the inbox. -/
def RelayConnection.offers? (c : RelayConnection) : RelayConnection.Action → Option RelayEnvelope
  | .reader => match c.recv.reader with
    | .push env => some env
    | _ => none
  | _ => none

/-- An OPEN_ACK that comes to the inbox while the connection is Opening finds no more payloads in the
    connection than `recvCh` takes. -/
def Timely (c : RelayConnection) (a : RelayConnection.Action) : Prop :=
  ∀ env ∈ c.offers? a, env.kind = .kindOpenAck → c.life.state = .stateOpening → c.recv.held ≤ recvCap

instance (c : RelayConnection) (a : RelayConnection.Action) : Decidable (Timely c a) :=
  inferInstanceAs (Decidable (∀ env ∈ c.offers? a, _))

/-- A `Receive` of the application. -/
def RelayConnection.Action.receives : RelayConnection.Action → Bool
  | .receive | .call (.receive _) => true
  | _ => false

/-- The payloads that are out of the inbox. -/
def Recv.taken (r : Recv) : Nat :=
  r.dispatcher.unmoved + r.recvBuf.keys.length + r.dispatcher.batch + r.recvCh.length

theorem Recv.held_eq (r : Recv) : r.held = r.inboxCount + r.taken := by
  simp only [Recv.held, Recv.taken]
  omega

/-- What comes before an OPEN_ACK fits into `recvCh`. -/
def Recv.Clear (r : Recv) : Prop :=
  ∀ ahead env behind, r.inbox.getD [] = ahead ++ env :: behind → env.kind = .kindOpenAck →
    r.taken + ahead.countP RelayEnvelope.isData ≤ recvCap

theorem Recv.Clear.unblocked {r : Recv} (h : r.Clear) {env : RelayEnvelope} (hin : env ∈ r.inbox.getD [])
    (hk : env.kind = .kindOpenAck) : ¬ r.Blocked := by
  intro ⟨hd, hfull⟩
  obtain ⟨ahead, behind, hq⟩ := List.append_of_mem hin
  have hle := h ahead env behind hq hk
  have hone : 1 ≤ r.dispatcher.unmoved + r.dispatcher.batch := by
    generalize r.dispatcher = pc at hd
    cases pc with
    | deliverOne => exact Nat.le_refl _
    | deliver _ _ _ ready => exact Nat.le_trans (Nat.le_add_left 1 ready.length) (Nat.le_add_left _ _)
    | _ => cases hd
  unfold Recv.taken at hle
  omega

section

variable {c c' : RelayConnection}

/-! ## One step -/

/-- Nothing new in the inbox, and no more taken out of it. -/
theorem Recv.Clear.mono {r r' : Recv} (h : r.Clear) (hin : r'.inbox.getD [] = r.inbox.getD []) (ht : r'.taken ≤ r.taken) :
    r'.Clear := by
  intro ahead env behind hq hk
  have := h ahead env behind (hin ▸ hq) hk
  omega

theorem DispatchEffect.held_le (he : DispatchEffect c c') : c'.recv.held ≤ c.recv.held := by
  generalize hr' : c'.recv = r'
  cases hr' ▸ he.flow with
  | flow hf => exact hf.held
  | @release env hpc =>
    obtain ⟨h1, h2, h3, -⟩ := release_frame c.recv env
    simp only [Recv.held, Recv.inboxCount, h1, h2, h3, hpc, DispatchPc.unmoved, DispatchPc.batch]
    omega
  | shut hpc =>
    simp only [Recv.held, Recv.inboxCount, Recv.shut, hpc, Option.getD_some, List.countP_nil, DispatchPc.unmoved,
      DispatchPc.batch]
    omega

/-- `dispatchLoop` leaves the inbox alone, takes its first frame or empties it. -/
theorem DispatchEffect.queue_cases (he : DispatchEffect c c') :
    c'.recv.inbox = c.recv.inbox ∨ (∃ env, c.recv.inbox.getD [] = env :: c'.recv.inbox.getD []) ∨
      c'.recv.inbox.getD [] = [] := by
  cases he with
  | @take env _ _ hq =>
    exact .inr (.inl ⟨env, by rw [hq]; rfl⟩)
  | shut => exact .inr (.inr rfl)
  | order _ _ _ hord => exact .inl (order_frame hord).2.1
  | @release env => exact .inl (release_frame c.recv env).1
  | _ => exact .inl rfl

theorem Recv.Clear.dispatch (h : c.recv.Clear) (he : DispatchEffect c c') : c'.recv.Clear := by
  have hheld := he.held_le
  rw [Recv.held_eq, Recv.held_eq] at hheld
  rcases he.queue_cases with hq | ⟨first, hq⟩ | hq
  · refine h.mono (by rw [hq]) ?_
    simp only [Recv.inboxCount, hq] at hheld
    omega
  · -- the frame that was taken is counted in hand from now on
    intro ahead env behind hq' hk
    have := h (first :: ahead) env behind (by rw [hq, hq', List.cons_append]) hk
    simp only [Recv.inboxCount, hq, List.countP_cons] at hheld this
    omega
  · intro ahead env behind hq' _
    rw [hq] at hq'
    cases ahead <;> cases hq'

/-- The reader puts a frame behind the others. -/
theorem Recv.Clear.admitted (h : c.recv.Clear) {env : RelayEnvelope} {queue : List RelayEnvelope}
    (hi : c.recv.inbox = some queue) (hheld : env.kind = .kindOpenAck → c.recv.held ≤ recvCap) :
    (c.admitted env queue).recv.Clear := by
  intro ahead ack behind hq hk
  have htaken : (c.admitted env queue).recv.taken = c.recv.taken := rfl
  have hq : queue ++ [env] = ahead ++ ack :: behind := hq
  rw [htaken]
  rcases List.append_eq_append_iff.mp hq with ⟨more, rfl, hmore⟩ | ⟨more, rfl, hmore⟩
  · -- the OPEN_ACK is the new frame
    obtain ⟨rfl, rfl⟩ : more = [] ∧ env = ack := by
      cases more with
      | nil => exact ⟨rfl, (List.cons.inj hmore).1⟩
      | cons x more =>
        have := congrArg List.length hmore
        simp at this
    have := hheld hk
    rw [Recv.held_eq, Recv.inboxCount, hi, Option.getD_some] at this
    rw [List.append_nil]
    omega
  · cases more with
    | nil =>
      obtain ⟨rfl, -⟩ := List.cons.inj hmore
      have := hheld hk
      rw [Recv.held_eq, Recv.inboxCount, hi, Option.getD_some, List.append_nil] at this
      omega
    | cons x more =>
      obtain ⟨rfl, -⟩ := List.cons.inj hmore
      exact h ahead ack more (by rw [hi]; rfl) hk

theorem Recv.Clear.reader (h : c.recv.Clear) (hs : c.readerStep = some c')
    (htimely : ∀ env ∈ c.offers? .reader, env.kind = .kindOpenAck → c.recv.held ≤ recvCap) : c'.recv.Clear := by
  cases readerStep_effect hs with
  | start =>
    intro ahead env behind hq _
    cases ahead <;> cases hq
  | @admitted env queue hpc hi => exact h.admitted hi (htimely env (by rw [RelayConnection.offers?, hpc]; rfl))
  | _ => exact h

theorem Recv.Clear.take (h : c.recv.Clear) {data : Bytes} {rest : List Bytes} (hr : c.recv.recvCh = data :: rest) :
    (c.take data rest).recv.Clear := by
  refine h.mono rfl ?_
  simp only [Recv.taken, RelayConnection.take, hr, List.length_cons]
  omega

theorem Recv.Clear.step (h : c.recv.Clear) {a : RelayConnection.Action} (hs : StepEffect c a c')
    (htimely : ∀ env ∈ c.offers? a, env.kind = .kindOpenAck → c.recv.held ≤ recvCap) : c'.recv.Clear := by
  have hsame : c'.recv = c.recv → c'.recv.Clear := fun hr => hr ▸ h
  cases hs with
  | packet => exact h
  | reader h' => exact h.reader h' htimely
  | dispatcher h' => exact h.dispatch h'
  | ackWorker h' => exact hsame (ackStep_frame h').recv
  | sender _ rest => exact hsame rest.recv
  | @call call => cases call with
    | send data => cases data <;> exact h
    | _ => exact h
  | run _ h' => cases h' with
    | receive hr => exact h.take hr
    | _ => exact h
  | take hr => exact h.take hr
  | _ => exact h

/-- A connection that is Opening has been so from the start. -/
theorem StepEffect.opening {a : RelayConnection.Action} (hs : StepEffect c a c') (ho : c'.life.state = .stateOpening) :
    c.life.state = .stateOpening := by
  have hrank := hs.life.onward.rank
  rw [ho] at hrank
  cases hst : c.life.state with
  | stateOpening => rfl
  | _ =>
    rw [hst] at hrank
    simp [RelayState.rank] at hrank

/-! ## Whole runs -/

/-- No connection that is Opening has an OPEN_ACK in the inbox while `dispatchLoop` is blocked on a
    full `recvCh`, if every OPEN_ACK is admitted when no more than `cap(recvCh)` payloads are held. -/
theorem handshake_unblocked {config : RelayConfig} {relayID : String} {my remote : SessionRef} {env : RelayEnvelope}
    (h : Reach RelayConnection.step Timely (· = .new config relayID my remote true) c)
    (ho : c.life.state = .stateOpening) (hin : env ∈ c.recv.inbox.getD []) (hk : env.kind = .kindOpenAck) :
    ¬ c.recv.Blocked := by
  have hclear : c.life.state = .stateOpening → c.recv.Clear := by
    refine h.keeps (P := fun c => c.life.state = .stateOpening → c.recv.Clear) ?_ ?_
    · intro c hc _ ahead env behind hq
      subst hc
      cases ahead <;> cases hq
    · intro c a c' _ ih hok hs ho'
      have he := step_effect hs
      have ho := he.opening ho'
      exact (ih ho).step he fun env hoff hk => hok env hoff hk ho
  exact (hclear ho).unblocked hin hk

/-- One DATA frame comes before the OPEN_ACK, and the OPEN_ACK while the frame is in hand. -/
theorem handshake_unblocked_one : ∃ c : RelayConnection, c.life.state = .stateOpening ∧ c.recv.dispatcher.delivers = true ∧
    c.recv.inbox = some [sampleEnvelope .b .kindOpenAck 0 0 []] ∧ ¬ c.recv.Blocked := by
  have h : ((exec (guarded RelayConnection.step Timely) (samplePair .reliableOrdered 16 .a)
      ((gets .a (sampleEnvelope .b .kindData 1 0 [10]) 4 3 ++ gets .a (sampleEnvelope .b .kindOpenAck 0 0 []) 2 0).map
        Prod.snd)).any fun c =>
      c.life.state = .stateOpening ∧ c.recv.dispatcher.delivers = true ∧
        c.recv.inbox = some [sampleEnvelope .b .kindOpenAck 0 0 []]) = true := by
    decide +kernel
  obtain ⟨c, hr, hw⟩ := reach_any (I := fun c => c = samplePair .reliableOrdered 16 .a) _ (.init rfl) h
  simp only [decide_eq_true_eq] at hw
  obtain ⟨ho, hd, hin⟩ := hw
  exact ⟨c, ho, hd, hin, handshake_unblocked hr ho (by rw [hin]; exact List.mem_cons_self) rfl⟩

/-! ## A blocked handshake -/

/-- The application of the acceptor sends, the frame arrives, `dispatchLoop` delivers it, and its
    acknowledgement is back before the next one. -/
def earlyData (n : Nat) : List PairAction :=
  List.flatten
    [sends .b n [10], gets .a (sampleEnvelope .b .kindData (n + 1) 0 [10]) (if n = 0 then 4 else 3) 9,
      [(.a, .ackWorker .go), (.a, .ackWorker .go), (.a, .ackWorker (.result none)), (.a, .ackWorker .go), (.a, .ackWorker .go)],
      [(.b, .packet (sampleEnvelope .a .kindAck 0 (n + 1) [])), (.b, .reader), (.b, .task 0 none), (.b, .task 0 none)]]

/-- With the default configuration at both ends, and no `Receive` at the end that dialed: 64 frames
    are delivered and acknowledged, the next one finds `recvCh` full, and the OPEN_ACK is admitted
    behind it. -/
theorem handshake_blocked : ∃ p : Pair,
    Reach Pair.step (fun p m => Network p m ∧ (m.1 = .a → m.2.receives = false)) (· = samplePair .reliableOrdered 16) p ∧
      (p .a).life.state = .stateOpening ∧ (p .a).recv.Blocked ∧ (p .a).step (.dispatcher .go) = none ∧
      ∃ env ∈ (p .a).recv.inbox.getD [], env.kind = .kindOpenAck := by
  have h : ((exec (guarded Pair.step fun p m => Network p m ∧ (m.1 = .a → m.2.receives = false))
      (samplePair .reliableOrdered 16) (List.flatten
        [[(.b, .loop .go)], (List.range 64).flatMap earlyData, sends .b 64 [10],
          gets .a (sampleEnvelope .b .kindData 65 0 [10]) 3 3, gets .a (sampleEnvelope .b .kindOpenAck 0 0 []) 2 0])).any fun p =>
      (p .a).life.state = .stateOpening ∧ ((p .a).recv.dispatcher.delivers = true ∧ (p .a).recv.recvCh.length = recvCap) ∧
        ((p .a).step (.dispatcher .go)).isNone = true ∧ ∃ env ∈ (p .a).recv.inbox.getD [], env.kind = .kindOpenAck) = true := by
    decide +kernel
  obtain ⟨p, hr, hw⟩ := reach_any (I := fun p => p = samplePair .reliableOrdered 16) _ (.init rfl) h
  simp only [decide_eq_true_eq, Option.isNone_iff_eq_none] at hw
  exact ⟨p, hr, hw⟩

end

end Turntf.Relay
