/-
  Turntf.Relay.Signals — the one-slot channels `ackCh` and `ackOut`.

  Both carry a token and no data: the sender of a signal puts the token or finds it there, the
  receiver takes it and reads the fields behind `mu` again. A signal is lost when the receiver
  waits, there is something for it to see and the token is gone.

  `sendLoop` waits on `ackCh` for room in its window, `receiveACKLoop` on `ackOut` for an
  acknowledgement in `ackPending`, which holds the largest number queued.

  - `sender_wakes`: while `sendLoop` waits for room, there is none or the token is there.
  - `acks_handed_over`: a pending acknowledgement has the token, or the worker is about to read
    it; and every number queued is accepted, being sent or pending, unless the sending of an
    acknowledgement has failed and the worker is on its way to close the connection.
  - `ack_lost_open`: that exception is a state of a connection that is not closed.
-/

import Turntf.Relay.AckIdle

namespace Turntf.Relay

open Lts

section

variable {c c' : RelayConnection}

/-! ## The wait for room -/

theorem handleAck_loop (t : Xmit) (reliability : Reliability) (env : RelayEnvelope) :
    (t.handleAck reliability env).loop = t.loop := by
  unfold Xmit.handleAck
  (repeat' split) <;> rfl

/-- `ackCh` is made when the loop starts. While the loop waits for room, there is none or the token
    is there. -/
structure Xmit.Signalled (t : Xmit) (width : Nat) : Prop where
  made : t.ackCh = none → t.loop = .start
  full : ∀ data, t.loop = .window data → width ≤ t.nextSeq - t.sendBase ∨ t.ackCh = some true

/-- All that a step can do to what the waiting loop looks at. -/
inductive WaitEffect (c : RelayConnection) (t : Xmit) : Prop
  | same (hl : t.loop = c.xmit.loop) (ha : t.ackCh = c.xmit.ackCh) (hb : t.sendBase = c.xmit.sendBase)
      (hn : t.nextSeq = c.xmit.nextSeq)
  | ack {env : RelayEnvelope} (h : t = c.xmit.handleAck c.config.reliability env)
  | away (hl : ∀ data, t.loop ≠ .window data) (ha : t.ackCh = none → c.xmit.ackCh = none ∧ c.xmit.loop ≠ .start)
  | full (hw : uint64 c.config.windowSize ≤ t.nextSeq - t.sendBase)
      (ha : t.ackCh = none → c.xmit.ackCh = none ∧ c.xmit.loop ≠ .start)

theorem WaitEffect.signalled {t : Xmit} (he : WaitEffect c t) (h : c.xmit.Signalled (uint64 c.config.windowSize)) :
    t.Signalled (uint64 c.config.windowSize) := by
  cases he with
  | same hl ha hb hn =>
    refine ⟨?_, ?_⟩
    · rw [hl, ha]
      exact h.made
    · rw [hl, ha, hb, hn]
      exact h.full
  | @ack env ht =>
    subst ht
    refine ⟨?_, ?_⟩ <;> rw [handleAck_loop]
    · intro hn
      refine h.made ?_
      unfold Xmit.handleAck at hn
      (repeat' split at hn) <;> simpa using hn
    · intro data hl
      have hmade : c.xmit.ackCh ≠ none := fun hn => by simp [h.made hn] at hl
      obtain ⟨b, hb⟩ := Option.ne_none_iff_exists'.mp hmade
      unfold Xmit.handleAck
      split
      · exact h.full data hl
      · split
        · -- the window moves and the token is put
          exact .inr (by rw [hb]; rfl)
        · exact h.full data hl
  | away hl ha =>
    refine ⟨fun hn => ?_, fun data hd => absurd hd (hl data)⟩
    exact absurd (h.made (ha hn).1) (ha hn).2
  | full hw ha =>
    refine ⟨fun hn => ?_, fun _ _ => .inl hw⟩
    exact absurd (h.made (ha hn).1) (ha hn).2

theorem receive_wait (t : Xmit) (item : SendItem) :
    (∀ data, (t.receive item).loop ≠ .window data) ∧ (t.receive item).ackCh = t.ackCh := by
  cases item <;> exact ⟨fun _ => LoopPc.noConfusion, rfl⟩

theorem loopBack_wait (back : Option Bytes) (data : Bytes) : RelayConnection.loopBack back ≠ .window data := by
  cases back <;> exact LoopPc.noConfusion

theorem startRetry_wait (c : RelayConnection) (back : Option Bytes) :
    (∀ data, (c.startRetry back).xmit.loop ≠ .window data) ∧ (c.startRetry back).xmit.ackCh = c.xmit.ackCh := by
  unfold RelayConnection.startRetry
  split
  · exact ⟨loopBack_wait back, rfl⟩
  · split
    · exact ⟨loopBack_wait back, rfl⟩
    · exact ⟨fun _ => LoopPc.noConfusion, rfl⟩

theorem finishRetry_wait {back : Option Bytes} (h : c.finishRetry back = some c') :
    (∀ data, c'.xmit.loop ≠ .window data) ∧ c'.xmit.ackCh = c.xmit.ackCh := by
  unfold RelayConnection.finishRetry at h
  split at h <;> cases h
  exact ⟨loopBack_wait back, rfl⟩

theorem retryStep_ackCh {pc pc' : RetryPc} {how : Choice} (h : c.retryStep pc how = some (c', pc')) :
    c'.xmit.ackCh = c.xmit.ackCh := by
  unfold RelayConnection.retryStep at h
  split at h <;> (repeat' split at h) <;> cases h <;> rfl

theorem loopStep_wait {how : Choice} (h : c.loopStep how = some c') : WaitEffect c c'.xmit := by
  -- the loop is past its start, so `ackCh` is there unless it never was
  have haway : ∀ {t : Xmit} {pc : LoopPc}, c.xmit.loop = pc → pc ≠ .start → (∀ data, t.loop ≠ .window data) →
      t.ackCh = c.xmit.ackCh → WaitEffect c t := by
    intro t pc hpc hne hl ha
    exact .away hl fun hn => ⟨by rw [← ha, hn], by rw [hpc]; exact hne⟩
  unfold RelayConnection.loopStep at h
  split at h <;> rename_i hloop
  · cases h
    exact .away (fun _ => LoopPc.noConfusion) fun hn => absurd hn (Option.some_ne_none _)
  · split at h <;> cases h
    rename_i item items _
    obtain ⟨hl, ha⟩ := receive_wait { c.xmit with sendCh := items } item
    exact haway hloop LoopPc.noConfusion hl ha
  · split at h <;> cases h
    obtain ⟨hl, ha⟩ := startRetry_wait c none
    exact haway hloop LoopPc.noConfusion hl ha
  · obtain ⟨hl, ha⟩ := finishRetry_wait h
    exact haway hloop LoopPc.noConfusion hl ha
  · split at h <;> cases h
    exact haway hloop LoopPc.noConfusion (fun _ => LoopPc.noConfusion) rfl
  · split at h <;> cases h
    exact haway hloop LoopPc.noConfusion (fun _ => LoopPc.noConfusion) rfl
  · split at h <;> cases h
    exact haway hloop LoopPc.noConfusion (fun _ => LoopPc.noConfusion) rfl
  · split at h
    · split at h <;> rename_i hw <;> cases h
      · -- the only way into the wait: the window was full in the same section
        exact .full hw fun hn => ⟨hn, by rw [hloop]; exact LoopPc.noConfusion⟩
      · exact haway hloop LoopPc.noConfusion (fun _ => LoopPc.noConfusion) rfl
    · cases h
      exact haway hloop LoopPc.noConfusion (fun _ => LoopPc.noConfusion) rfl
  · split at h <;> cases h
    exact .away (fun _ => LoopPc.noConfusion) fun hn => absurd hn (Option.some_ne_none _)
  · rename_i data
    cases h
    obtain ⟨hl, ha⟩ := startRetry_wait c (some data)
    exact haway hloop LoopPc.noConfusion hl ha
  · obtain ⟨hl, ha⟩ := finishRetry_wait h
    exact haway hloop LoopPc.noConfusion hl ha
  · split at h <;> cases h
    exact haway hloop LoopPc.noConfusion (fun _ => LoopPc.noConfusion) rfl
  · split at h <;> cases h
    exact haway hloop LoopPc.noConfusion (fun _ => LoopPc.noConfusion) rfl
  · split at h <;> cases h
    exact haway hloop LoopPc.noConfusion (fun _ => LoopPc.noConfusion) rfl
  · cases h
    exact haway hloop LoopPc.noConfusion (fun _ => LoopPc.noConfusion) rfl
  · rename_i back
    cases h
    exact haway hloop LoopPc.noConfusion (loopBack_wait back) rfl
  · rename_i hl
    obtain ⟨⟨c₁, pc'⟩, hr, rfl⟩ := Option.map_eq_some_iff.mp h
    have ha := retryStep_ackCh hr
    exact haway hl LoopPc.noConfusion (fun _ => LoopPc.noConfusion) ha
  · split at h <;> cases h
    exact haway hloop LoopPc.noConfusion (fun _ => LoopPc.noConfusion) rfl
  · cases h

theorem roundStep_wait {how : Choice} (h : c.roundStep how = some c') : WaitEffect c c'.xmit := by
  unfold RelayConnection.roundStep at h
  split at h
  · obtain ⟨⟨c₁, pc'⟩, hr, rfl⟩ := Option.map_eq_some_iff.mp h
    have hf := retryStep_frame hr
    have ha := retryStep_ackCh hr
    exact .same hf.loop ha hf.core.sendBase hf.core.nextSeq
  · cases h

theorem taskStep_wait {i : Nat} {err : Option Err} (h : c.taskStep i err = some c') : WaitEffect c c'.xmit := by
  unfold RelayConnection.taskStep at h
  (repeat' split at h) <;> cases h <;> exact .same rfl rfl rfl rfl

theorem push_wait {t : Xmit} {item : SendItem} (h : c.xmit.push c.sendCap item = some t) (barriers : Nat) :
    WaitEffect c { t with barriers := barriers } := by
  unfold Xmit.push at h
  split at h
  · cases h
    exact .same rfl rfl rfl rfl
  · split at h
    · split at h <;> rename_i hl <;> cases h
      obtain ⟨hw, ha⟩ := receive_wait c.xmit item
      exact .away hw fun hn => ⟨ha ▸ hn, by rw [hl]; exact LoopPc.noConfusion⟩
    · cases h

theorem step_wait {a : RelayConnection.Action} (h : c.step a = some c') : WaitEffect c c'.xmit := by
  have hsame : c'.xmit = c.xmit → WaitEffect c c'.xmit := fun hx => .same (by rw [hx]) (by rw [hx]) (by rw [hx]) (by rw [hx])
  cases a with
  | loop how => exact loopStep_wait h
  | round how => exact roundStep_wait h
  | task i err => exact taskStep_wait h
  | reader => cases readerStep_effect h with
    | ack => exact .ack rfl
    | _ => exact hsame rfl
  | dispatcher how => cases dispatchStep_effect h with
    | ack => exact .ack rfl
    | _ => exact hsame rfl
  | ackWorker how => exact hsame (ackStep_frame h).xmit
  | run i how =>
    obtain ⟨pc, -, he⟩ := callStep_effect h
    cases he with
    | @send _ t ht => exact push_wait ht t.barriers
    | @barrier t ht => exact push_wait ht (t.barriers + 1)
    | @marker _ t ht => exact push_wait ht t.barriers
    | _ => exact hsame rfl
  | call call => cases call with
    | send data => cases data <;> cases h <;> exact hsame rfl
    | _ => cases h; exact hsame rfl
  | packet env =>
    simp only [RelayConnection.step, RelayConnection.handlePacket, RelayConnection.enqueueEnvelope] at h
    (repeat' split at h) <;> cases h <;> exact hsame rfl
  | deadline i =>
    simp only [RelayConnection.step] at h
    split at h <;> cases h
    exact hsame rfl
  | receive =>
    simp only [RelayConnection.step] at h
    split at h <;> cases h
    exact hsame rfl
  | abort | fail => cases h; exact hsame rfl
  | onClose callback =>
    cases h
    refine hsame ?_
    unfold RelayConnection.registerOnClose
    split <;> rfl
  | notify =>
    simp only [RelayConnection.step, RelayConnection.notifyStep] at h
    split at h <;> cases h <;> exact hsame rfl

/-- Waiting for room in the window, `sendLoop` has missed no ACK: there is still no room, or the
    token of `ackCh` is there to wake it. -/
theorem sender_wakes {config : RelayConfig} {relayID : String} {my remote : SessionRef} {dialed : Bool} {data : Bytes}
    (h : Reach RelayConnection.step free (· = .new config relayID my remote dialed) c) (hl : c.xmit.loop = .window data) :
    uint64 config.windowSize ≤ c.xmit.nextSeq - c.xmit.sendBase ∨ c.xmit.ackCh = some true := by
  have hi : c.xmit.Signalled (uint64 config.windowSize) ∧ c.config = config := by
    refine h.keeps (P := fun c => c.xmit.Signalled (uint64 config.windowSize) ∧ c.config = config) ?_ ?_
    · intro c hc
      subst hc
      exact ⟨⟨fun _ => rfl, fun _ => LoopPc.noConfusion⟩, rfl⟩
    · intro c a c' _ ⟨hs, hcfg⟩ _ ht
      subst hcfg
      exact ⟨(step_wait ht).signalled hs, (step_effect ht).conn.config⟩
  exact hi.1.full data hl

/-- The data of a sender that waits for the window. -/
def LoopPc.stalled? : LoopPc → Option Bytes
  | .window d => some d
  | _ => none

theorem LoopPc.eq_window {pc : LoopPc} {data : Bytes} (h : pc.stalled? = some data) : pc = .window data := by
  cases pc with
  | window d =>
    cases h
    rfl
  | _ => cases h

/-- The loop waits with the third payload in a window of two. The ACK of number 1 comes between its
    test and its select: there is room, and the token says so. -/
theorem sender_wakes_two : ∃ c : RelayConnection, c.xmit.loop.pending = [[30]] ∧ c.xmit.nextSeq - c.xmit.sendBase = 1 ∧
    c.xmit.ackCh = some true := by
  let config := { defaultRelayConfig with reliability := .reliableOrdered, windowSize := 2 }
  let start : RelayConnection := .new config "r" (sampleSession .b) (sampleSession .a) false
  let send (i : Nat) (data : Bytes) : List RelayConnection.Action := (sends .b i data).map Prod.snd
  have h : ((exec (guarded RelayConnection.step free) start (List.flatten
      [[.loop .go], send 0 [10], send 1 [20], (send 2 [30]).take 6, [.packet (sampleEnvelope .a .kindAck 0 1 []), .reader]])).any
        fun c => c.xmit.loop.stalled? = some [30] ∧ c.xmit.nextSeq - c.xmit.sendBase = 1) = true := by
    decide +kernel
  obtain ⟨c, hc, hw⟩ := reach_any (I := fun c => c = start) _ (.init rfl) h
  simp only [decide_eq_true_eq] at hw
  obtain ⟨hl, hn⟩ := hw
  have hl := LoopPc.eq_window hl
  refine ⟨c, by rw [hl]; rfl, hn, (sender_wakes hc hl).resolve_left ?_⟩
  rw [hn]
  decide

/-! ## The acknowledgements handed over -/

/-- `ackOut` is made with the first acknowledgement, and a pending one has not been overlooked. -/
structure Acks.Noticed (a : Acks) : Prop where
  off : a.ackOut = none → a.worker = .off ∧ a.ackPending = none
  token : a.ackPending ≠ none → a.ackOut = some true ∨ a.worker = .grab

theorem Acks.Noticed.closeACKIdleLocked {a : Acks} (h : a.Noticed) : a.closeACKIdleLocked.Noticed := by
  unfold Acks.closeACKIdleLocked
  split <;> exact ⟨h.off, h.token⟩

theorem Acks.Noticed.openIdle {a : Acks} (h : a.Noticed) : a.openIdle.Noticed := by
  unfold Acks.openIdle
  split <;> exact ⟨h.off, h.token⟩

theorem Acks.Noticed.queueACK {a : Acks} (h : a.Noticed) (closed : Bool) (env : RelayEnvelope) :
    (a.queueACK closed env).Noticed := by
  unfold Acks.queueACK
  split
  · exact h
  · exact ⟨fun hn => absurd hn (Option.some_ne_none _), fun _ => .inl rfl⟩

theorem WorkerEffect.noticed (he : WorkerEffect c c') (h : c.acks.Noticed) : c'.acks.Noticed := by
  have hmade : ∀ {pc : AckPc}, c.acks.worker = pc → pc ≠ .off → c.acks.ackOut ≠ none := by
    intro pc hpc hne hn
    exact hne (hpc ▸ (h.off hn).1)
  -- the worker moves on with the token and the pending acknowledgement as they were
  have hmove : ∀ {a : Acks} {pc : AckPc}, c.acks.worker = pc → pc ≠ .off → pc ≠ .grab → a.ackOut = c.acks.ackOut →
      a.ackPending = c.acks.ackPending → a.Noticed := by
    intro a pc hpc hoff hgrab ho hp
    refine ⟨fun hn => absurd (ho ▸ hn) (hmade hpc hoff), fun hne => .inl ?_⟩
    rw [hp] at hne
    rw [ho]
    exact (h.token hne).resolve_right fun hw => hgrab (hpc ▸ hw)
  cases he with
  | wake => exact ⟨fun hn => absurd hn (Option.some_ne_none _), fun _ => .inr rfl⟩
  | stop hpc | retry hpc | accepted hpc | refused hpc | resend hpc | cancel hpc | failed hpc | exit hpc =>
    exact hmove hpc AckPc.noConfusion AckPc.noConfusion rfl rfl
  | rest hpc | grab hpc =>
    -- what was pending is taken
    have ho : c.acks.grab.ackOut = c.acks.ackOut ∧ c.acks.grab.ackPending = none := by
      unfold Acks.grab Acks.closeACKIdleLocked
      split <;> exact ⟨rfl, rfl⟩
    refine ⟨fun hn => absurd (ho.1 ▸ hn) (hmade hpc AckPc.noConfusion), fun hne => absurd ho.2 hne⟩
  | sent hpc =>
    have ho : (c.acks.sent none).ackOut = c.acks.ackOut ∧ (c.acks.sent none).ackPending = c.acks.ackPending := by
      unfold Acks.sent Acks.closeACKIdleLocked
      (repeat' split) <;> exact ⟨rfl, rfl⟩
    exact hmove hpc AckPc.noConfusion AckPc.noConfusion ho.1 ho.2

/-- What is handed over between `queueACK` and `receiveACKLoop`. -/
structure HandedOver (c : RelayConnection) : Prop where
  noticed : c.acks.Noticed
  covered : c.life.closed = false → ∀ n ∈ c.acks.queued, c.acks.Covers n

theorem HandedOver.new (config : RelayConfig) (relayID : String) (my remote : SessionRef) (dialed : Bool) :
    HandedOver (.new config relayID my remote dialed) :=
  ⟨⟨fun _ => ⟨rfl, rfl⟩, fun hn => absurd rfl hn⟩, fun _ _ hn => absurd hn List.not_mem_nil⟩

/-- Registering or letting go of a frame leaves the acknowledgements themselves alone. -/
theorem receiveACK_same (a : Acks) :
    (a.beginReceiveACK.ackAccepted = a.ackAccepted ∧ a.beginReceiveACK.worker = a.worker ∧ a.beginReceiveACK.queued = a.queued) ∧
      a.finishReceiveACK.ackAccepted = a.ackAccepted ∧ a.finishReceiveACK.worker = a.worker ∧
      a.finishReceiveACK.queued = a.queued := by
  refine ⟨?_, ?_⟩
  · unfold Acks.beginReceiveACK Acks.openIdle
    split <;> exact ⟨rfl, rfl, rfl⟩
  · unfold Acks.finishReceiveACK Acks.closeACKIdleLocked
    split <;> exact ⟨rfl, rfl, rfl⟩

theorem Acks.Covers.same {a a' : Acks} {n : Nat} (h : a.Covers n) (hacc : a'.ackAccepted = a.ackAccepted)
    (hheld : a'.held = a.held) (hw : a'.worker = a.worker) : a'.Covers n := by
  cases h with
  | accepted m hm hs => exact .accepted m (by rw [hacc]; exact hm) hs
  | held env he hs => exact .held env (by rw [hheld]; exact he) hs
  | lost h => exact .lost (by rw [hw]; exact h)

theorem HandedOver.step (h : HandedOver c) {a : RelayConnection.Action} (hs : StepEffect c a c') : HandedOver c' := by
  have hcovered : c'.life.closed = false → ∀ n ∈ c.acks.queued, c.acks.Covers n := by
    intro hc'
    refine h.covered ?_
    by_contra hc
    rw [hs.closed_stays (by simpa using hc)] at hc'
    cases hc'
  obtain ⟨⟨hb₁, hb₂, hb₃⟩, hf₁, hf₂, hf₃⟩ := receiveACK_same c.acks
  cases hs.acks with
  | same ha =>
    refine ⟨ha ▸ h.noticed, fun hc' => ?_⟩
    rw [ha]
    exact hcovered hc'
  | @queue m _ ha hl =>
    refine ⟨?_, fun hc' n hq => ?_⟩ <;> rw [ha]
    · exact h.noticed.queueACK _ _
    · rw [hl] at hc'
      rw [hc']
      refine .queueACK (fun ho => (h.noticed.off ho).1) ?_
      rw [ha] at hq
      exact (queueACK_queued n hq).imp (h.covered hc' n) fun he => Nat.le_of_eq he
  | begin ha =>
    have hn : { c.acks with ackGenerating := c.acks.ackGenerating + 1 }.Noticed := ⟨h.noticed.off, h.noticed.token⟩
    refine ⟨ha ▸ hn.openIdle, fun hc' n hq => ?_⟩
    rw [ha] at hq ⊢
    exact (hcovered hc' n (hb₃ ▸ hq)).same hb₁ (beginReceiveACK_held _) hb₂
  | finish _ ha =>
    have hn : { c.acks with ackGenerating := c.acks.ackGenerating - 1 }.Noticed := ⟨h.noticed.off, h.noticed.token⟩
    refine ⟨ha ▸ hn.closeACKIdleLocked, fun hc' n hq => ?_⟩
    rw [ha] at hq ⊢
    exact (hcovered hc' n (hf₃ ▸ hq)).same hf₁ (finishReceiveACK_held _) hf₂
  | worker hw =>
    have he := ackStep_effect hw
    refine ⟨he.noticed h.noticed, fun hc' n hq => ?_⟩
    rw [he.queued] at hq
    exact (he.covers (hcovered hc' n hq)).resolve_right (by rw [hc']; exact Bool.false_ne_true)

/-- Of a connection that is not closed: a pending acknowledgement has the token of `ackOut`, or the
    worker is about to read it; and for every number passed to `queueACK`, an acknowledgement of it
    or a larger one was accepted, is being sent or is pending, or the sending of an acknowledgement
    has failed and the worker is on its way to close the connection with the error. -/
theorem acks_handed_over {config : RelayConfig} {relayID : String} {my remote : SessionRef} {dialed : Bool}
    (h : Reach RelayConnection.step free (· = .new config relayID my remote dialed) c) (hc : c.life.closed = false) :
    (c.acks.ackPending ≠ none → c.acks.ackOut = some true ∨ c.acks.worker = .grab) ∧
      ∀ n ∈ c.acks.queued, (∃ m ∈ c.acks.ackAccepted, n ≤ m) ∨ (∃ env ∈ c.acks.worker.frames, n ≤ env.ackSeq) ∨
        (∃ env ∈ c.acks.ackPending, n ≤ env.ackSeq) ∨
        ∃ err, c.acks.worker = .sent (some err) ∨ c.acks.worker = .failing err := by
  have hi : HandedOver c := by
    refine h.keeps (fun c hc => ?_) fun c a c' _ hi _ hs => hi.step (step_effect hs)
    subst hc
    exact .new _ _ _ _ _
  refine ⟨hi.noticed.token, fun n hn => ?_⟩
  cases hi.covered hc n hn with
  | accepted m hm hs => exact .inl ⟨m, hm, hs⟩
  | held env he hs =>
    rcases mem_held.mp he with he | he
    · exact .inr (.inr (.inl ⟨env, he, hs⟩))
    · exact .inr (.inl ⟨env, he, hs⟩)
  | lost hl =>
    refine .inr (.inr (.inr ?_))
    unfold AckPc.lost at hl
    split at hl
    · exact ⟨_, .inl ‹_›⟩
    · exact ⟨_, .inr ‹_›⟩
    · cases hl

/-- The acknowledgement of frame 2 is queued while that of frame 1 is being sent. -/
theorem acks_handed_over_two : ∃ c : RelayConnection, c.life.closed = false ∧ c.acks.queued = [1, 2] ∧
    c.acks.worker.frames.map RelayEnvelope.ackSeq = [1] ∧ c.acks.ackPending.map RelayEnvelope.ackSeq = some 2 ∧
    c.acks.ackOut = some true := by
  have h : ((exec (guarded RelayConnection.step free) (sampleReceiver 8) (List.flatten
      [getsData 1 4 9, [.ackWorker .go, .ackWorker .go], getsData 2 3 9])).any fun c =>
        c.life.closed = false ∧ c.acks.queued = [1, 2] ∧ c.acks.worker.frames.map RelayEnvelope.ackSeq = [1] ∧
          c.acks.ackPending.map RelayEnvelope.ackSeq = some 2) = true := by
    decide +kernel
  obtain ⟨c, hr, hw⟩ := reach_any (I := fun c => c = sampleReceiver 8) _ (.init rfl) h
  simp only [decide_eq_true_eq] at hw
  obtain ⟨hc, hq, hf, hp⟩ := hw
  refine ⟨c, hc, hq, hf, hp, ((acks_handed_over hr hc).1 fun hn => ?_).resolve_right fun hg => ?_⟩
  · rw [hn] at hp
    cases hp
  · rw [hg] at hf
    cases hf

/-- The sending of the only acknowledgement is refused. Until the worker has closed the connection,
    number 1 was queued and is neither accepted nor being sent nor pending. -/
theorem ack_lost_open : ∃ c : RelayConnection, Reach RelayConnection.step free (· = sampleReceiver 8) c ∧
    c.life.closed = false ∧ c.acks.queued = [1] ∧ c.acks.ackAccepted = [] ∧ c.acks.worker.frames = [] ∧
    c.acks.ackPending = none := by
  have h : ((exec (guarded RelayConnection.step free) (sampleReceiver 8) (List.flatten
      [getsData 1 4 9, [.ackWorker .go, .ackWorker .go, .ackWorker (.result (some (.client "refused"))), .ackWorker .go]])).any
        fun c => c.life.closed = false ∧ c.acks.queued = [1] ∧ c.acks.ackAccepted = [] ∧ c.acks.worker.frames = [] ∧
          c.acks.ackPending = none) = true := by
    decide +kernel
  obtain ⟨c, hr, hw⟩ := reach_any (I := fun c => c = sampleReceiver 8) _ (.init rfl) h
  simp only [decide_eq_true_eq] at hw
  exact ⟨c, hr, hw⟩

end

end Turntf.Relay
