/-
  Turntf.Relay.Steps — all that one step of a connection can do, whichever goroutine takes it.

  `step_effect` lists what can happen; the lemmas of `StepEffect` say what that does to the
  sending side, to the envelopes handed out, to those on their way to be handled, to the
  acknowledgements owed, to the order of delivery and to the life of the connection.
-/

import Turntf.Lib.Slots
import Turntf.Relay.Effects

namespace Turntf.Relay

section

variable {c c' : RelayConnection} {i : Nat} {how : Choice}

/-! ## Whole steps -/

/-- The parts of a life that closing does not set. -/
structure SameLife (l l' : Life) : Prop where
  state : l'.state = l.state
  closeErr : l'.closeErr = l.closeErr
  remoteClosed : l'.remoteClosed = l.remoteClosed
  remoteSession : l'.remoteSession = l.remoteSession

/-- What `OnClose` and the rest of a closing do to a life. -/
inductive NoteEffect (l : Life) : RelayConnection.Action → Life → Prop
  | late {callback : Nat} (hc : l.closed = true) :
      NoteEffect l (.onClose callback) { l with notified := l.notified ++ [(callback, l.closeErr)] }
  | register {callback : Nat} (hc : l.closed = false) :
      NoteEffect l (.onClose callback) { l with onClose := l.onClose ++ [callback] }
  | remove {callbacks : List Nat} (hn : l.notice = .remove callbacks) :
      NoteEffect l .notify { l with registered := false, notice := .call callbacks }
  | call {callback : Nat} {callbacks : List Nat} (hn : l.notice = .call (callback :: callbacks)) :
      NoteEffect l .notify
        { l with notice := .call callbacks, notified := l.notified ++ [(callback, l.closeErr)] }
  | finish (hn : l.notice = .call []) : NoteEffect l .notify { l with notice := .none }

theorem NoteEffect.sameLife {l l' : Life} {a : RelayConnection.Action} (h : NoteEffect l a l') : SameLife l l' := by
  cases h <;> exact ⟨rfl, rfl, rfl, rfl⟩

/-- The position with which `enqueueEnvelope` leaves its first section. -/
def RelayConnection.snapshot (c : RelayConnection) (env : RelayEnvelope) : ReaderPc :=
  .snapped env c.life.closed (c.recv.recvBuf.keys.length + c.recv.recvReady) (c.recv.recvBuf.lookup env.seq).isSome
    c.recv.expectedSeq c.recv.recvDelivered

/-- All that can happen to a connection, by the goroutine that does it. -/
inductive StepEffect (c : RelayConnection) : RelayConnection.Action → RelayConnection → Prop
  | packet {env : RelayEnvelope} (hr : c.recv.reader = .idle) (hk : env.kind ≠ .kindOpen) :
      StepEffect c (.packet env) (c.readerAt (c.snapshot env))
  | reopen {env : RelayEnvelope} : StepEffect c (.packet env) (c.emit (c.envelope .kindOpenAck))
  | ignored {env : RelayEnvelope} : StepEffect c (.packet env) c
  | reader {c' : RelayConnection} (h : c.readerStep = some c') : StepEffect c .reader c'
  | dispatcher {how : Choice} {c' : RelayConnection} (h : DispatchEffect c c') : StepEffect c (.dispatcher how) c'
  | ackWorker {how : Choice} {c' : RelayConnection} (h : c.ackStep how = some c') : StepEffect c (.ackWorker how) c'
  | sender {a : RelayConnection.Action} {c' : RelayConnection} (ha : a.packet? = none) (rest : SameRest c c')
      (xmit : XmitEffect c c'.xmit) (out : Outgoing c c') : StepEffect c a c'
  | call {call : AppCall} : StepEffect c (.call call) (c.startCall call)
  | run {i : Nat} {how : Choice} {pc : CallPc} {c' : RelayConnection} (hpc : c.calls[i]? = some pc)
      (h : CallEffect c i pc c') : StepEffect c (.run i how) c'
  | take {data : Bytes} {rest : List Bytes} (h : c.recv.recvCh = data :: rest) : StepEffect c .receive (c.take data rest)
  | deadline {i : Nat} : StepEffect c (.deadline i) (c.closeWith (some .closeTimeout))
  | abort {reason : Option Err} : StepEffect c (.abort reason) (c.closeWith reason)
  | fail {reason : Err} : StepEffect c (.fail reason) (c.closeWith (some reason))
  | note {a : RelayConnection.Action} {l : Life} (ha : a.packet? = none) (h : NoteEffect c.life a l) :
      StepEffect c a { c with life := l }

open RelayConnection in
/-- The list of what can happen is complete. -/
theorem step_effect {a : Action} (h : c.step a = some c') : StepEffect c a c' := by
  cases a with
  | packet env =>
    simp only [step, handlePacket, enqueueEnvelope] at h
    split at h
    · cases h
    · split at h <;> cases h
      · exact .reopen
      · exact .ignored
    · rename_i hk
      split at h <;> rename_i hr <;> cases h
      exact .packet hr hk
  | reader => exact .reader h
  | dispatcher how => exact .dispatcher (dispatchStep_effect h)
  | ackWorker how => exact .ackWorker h
  | loop how => exact .sender rfl (loopStep_rest h) (loopStep_xmit h) (loopStep_out h)
  | round how => exact .sender rfl (roundStep_rest h) (roundStep_xmit h) (roundStep_out h)
  | task i err =>
    obtain ⟨hrest, hout⟩ := taskStep_rest h
    exact .sender rfl hrest (taskStep_xmit h) (.none hout)
  | call call => cases h; exact .call
  | run i how =>
    obtain ⟨pc, hpc, he⟩ := callStep_effect h
    exact .run hpc he
  | deadline i =>
    simp only [step] at h
    split at h <;> cases h
    exact .deadline
  | receive =>
    simp only [step] at h
    split at h <;> rename_i hr <;> cases h
    exact .take hr
  | abort reason => cases h; exact .abort
  | fail reason => cases h; exact .fail
  | onClose callback =>
    cases h
    unfold registerOnClose
    split
    · exact .note rfl (.late ‹_›)
    · exact .note rfl (.register (by simpa using ‹¬c.life.closed = true›))
  | notify =>
    simp only [step, notifyStep] at h
    split at h <;> rename_i hn <;> cases h
    · exact .note rfl (.remove hn)
    · exact .note rfl (.finish hn)
    · exact .note rfl (.call hn)

theorem StepEffect.xmit {a : RelayConnection.Action} (h : StepEffect c a c') : XmitEffect c c'.xmit := by
  cases h with
  | reader h => exact readerStep_xmit h
  | dispatcher h => exact h.xmit
  | ackWorker h => exact .same (ackStep_frame h).xmit
  | sender _ _ xmit _ => exact xmit
  | @call call => cases call with
    | send data => cases data <;> exact .same rfl
    | _ => exact .same rfl
  | run _ h => exact h.xmit
  | _ => exact .same rfl

theorem StepEffect.out {a : RelayConnection.Action} (h : StepEffect c a c') : Outgoing c c' := by
  cases h with
  | reopen => exact .one rfl .openAck
  | reader h => exact .none (readerStep_out h).1
  | dispatcher h => exact h.out
  | ackWorker h =>
    obtain ⟨extra, ho, he⟩ := (ackStep_frame h).out
    exact ⟨extra, ho, fun env hm => .ack (he env hm)⟩
  | sender _ _ _ out => exact out
  | @call call => cases call with
    | send data => cases data <;> exact .none rfl
    | _ => exact .none rfl
  | run hpc h => exact h.out hpc
  | _ => exact .none rfl

theorem StepEffect.conn {a : RelayConnection.Action} (h : StepEffect c a c') : SameConn c c' := by
  cases h with
  | reader h => exact (readerStep_out h).2.2.2
  | dispatcher h => cases h <;> exact ⟨rfl, rfl, rfl⟩
  | ackWorker h => exact (ackStep_frame h).toSameConn
  | sender _ rest _ _ => exact rest.toSameConn
  | @call call => cases call with
    | send data => cases data <;> exact ⟨rfl, rfl, rfl⟩
    | _ => exact ⟨rfl, rfl, rfl⟩
  | run _ h => cases h <;> exact ⟨rfl, rfl, rfl⟩
  | _ => exact ⟨rfl, rfl, rfl⟩

/-! ### The receiving side -/

/-- What only `dispatchLoop` changes, and what has been received and taken together. The
    reader that makes the inbox starts `dispatchLoop`. -/
structure SameOrder (r r' : Recv) : Prop where
  expectedSeq : r'.expectedSeq = r.expectedSeq
  recvBuf : r'.recvBuf = r.recvBuf
  recvReady : r'.recvReady = r.recvReady
  recvDelivered : r'.recvDelivered = r.recvDelivered
  pushed : r'.pushed = r.pushed
  received : r'.consumed ++ r'.recvCh = r.consumed ++ r.recvCh
  dispatcher : r'.dispatcher = r.dispatcher ∧ (r'.inbox = none → r.inbox = none) ∨
    r.inbox = none ∧ r'.inbox = some [] ∧ r'.dispatcher = .select

theorem SameOrder.refl (r : Recv) : SameOrder r r := ⟨rfl, rfl, rfl, rfl, rfl, rfl, .inl ⟨rfl, id⟩⟩

theorem afterBudget_frames (c : RelayConnection) (env : RelayEnvelope) (buffered : Int) :
    ∀ e ∈ (c.afterBudget env buffered).frames, e = env := by
  unfold RelayConnection.afterBudget
  (repeat' split) <;> simp [ReaderPc.frames]

theorem readerStep_order (h : c.readerStep = some c') : SameOrder c.recv c'.recv := by
  cases readerStep_effect h with
  | start _ hi => exact ⟨rfl, rfl, rfl, rfl, rfl, rfl, .inr ⟨hi, rfl, rfl⟩⟩
  | admitted => exact ⟨rfl, rfl, rfl, rfl, rfl, rfl, .inl ⟨rfl, nofun⟩⟩
  | _ => exact ⟨rfl, rfl, rfl, rfl, rfl, rfl, .inl ⟨rfl, id⟩⟩

theorem Recv.mem_frames {r : Recv} {env : RelayEnvelope} :
    env ∈ r.frames ↔ env ∈ r.reader.frames ∨ env ∈ r.inbox.getD [] ∨ env ∈ r.dispatcher.frames := by
  simp only [Recv.frames, List.mem_append, or_assoc]

theorem readerStep_frames (h : c.readerStep = some c') : ∀ env ∈ c'.recv.frames, env ∈ c.recv.frames := by
  have hmove : ∀ {pc : ReaderPc}, (∀ env ∈ pc.frames, env ∈ c.recv.reader.frames) →
      ∀ env ∈ (c.readerAt pc).recv.frames, env ∈ c.recv.frames := by
    intro pc hpc env he
    exact Recv.mem_frames.mpr ((Recv.mem_frames.mp he).imp_left (hpc env))
  have hbudget : ∀ {env : RelayEnvelope} {buffered : Int}, c.recv.reader.frames = [env] →
      ∀ e ∈ (c.readerAt (c.afterBudget env buffered)).recv.frames, e ∈ c.recv.frames := by
    intro env buffered hin
    refine hmove fun e he => ?_
    rw [hin, afterBudget_frames c env buffered e he]
    exact List.mem_cons_self
  cases readerStep_effect h with
  | drop | ack | again | fail | overflow => exact hmove fun _ h => absurd h List.not_mem_nil
  | tested hpc => exact hbudget (by rw [hpc]; rfl)
  | budget hpc => exact hbudget (by rw [hpc]; rfl)
  | begin hpc | full hpc => exact hmove (by rw [hpc]; exact fun _ h => h)
  | undo => exact hmove (by split <;> exact fun _ h => absurd h List.not_mem_nil)
  | start hpc =>
    intro e he
    rcases Recv.mem_frames.mp he with he | he | he
    · exact Recv.mem_frames.mpr (.inl (by rw [hpc]; exact he))
    · cases he
    · cases he
  | @admitted env queue hpc hi =>
    intro e he
    rcases Recv.mem_frames.mp he with he | he | he
    · cases he
    · rcases List.mem_append.mp he with he | he
      · exact Recv.mem_frames.mpr (.inr (.inl (by rw [hi]; exact he)))
      · exact Recv.mem_frames.mpr (.inl (by rw [hpc]; exact he))
    · exact Recv.mem_frames.mpr (.inr (.inr he))

@[simp] theorem delivering_frames (env : RelayEnvelope) (ready : List (Nat × Bytes)) (ackSeq : Nat) :
    (DispatchPc.delivering env ready ackSeq).frames = [env] := by
  rcases ready with _ | ⟨⟨seq, data⟩, ready⟩ <;> rfl

@[simp] theorem handled_frames (c : RelayConnection) (env : RelayEnvelope) : (c.handled env).frames = [env] := by
  unfold RelayConnection.handled
  split <;> rfl

theorem DispatchMove.frames {pc pc' : DispatchPc} (h : DispatchMove c pc pc') : ∀ env ∈ pc'.frames, env ∈ pc.frames := by
  cases h with
  | stop | halt => exact List.forall_mem_nil _
  | terminal | checked | idle | wait | waited | one => exact fun _ h => h
  | skip | outside | abandonOne | abandon | pinged => rw [handled_frames]; exact fun _ h => h

/-- The first section of `handleData` leaves the inbox and the reader alone. -/
theorem order_frame {r r' : Recv} {w : Int} {env : RelayEnvelope} {ready : Option (List (Nat × Bytes))}
    (h : r.order w env = (r', ready)) : r'.reader = r.reader ∧ r'.inbox = r.inbox ∧ r'.recvCh = r.recvCh ∧
      r'.consumed = r.consumed ∧ r'.pushed = r.pushed ∧ r'.recvDelivered = r.recvDelivered := by
  unfold Recv.order at h
  (repeat' split at h) <;> cases h <;> exact ⟨rfl, rfl, rfl, rfl, rfl, rfl⟩

theorem DispatchEffect.frames (h : DispatchEffect c c') : ∀ env ∈ c'.recv.frames, env ∈ c.recv.frames := by
  have hpc : ∀ {r : Recv}, r.reader = c.recv.reader → (∀ env ∈ r.inbox.getD [], env ∈ c.recv.inbox.getD []) →
      (∀ env ∈ r.dispatcher.frames, env ∈ c.recv.frames) → ∀ env ∈ r.frames, env ∈ c.recv.frames := by
    intro r hr hi hd env he
    rcases Recv.mem_frames.mp he with he | he | he
    · exact Recv.mem_frames.mpr (.inl (hr ▸ he))
    · exact Recv.mem_frames.mpr (.inr (.inl (hi env he)))
    · exact hd env he
  have hsame : ∀ {r : Recv} {env : RelayEnvelope}, r.reader = c.recv.reader → r.inbox = c.recv.inbox →
      c.recv.dispatcher.frames = [env] → r.dispatcher.frames = [env] → ∀ e ∈ r.frames, e ∈ c.recv.frames := by
    intro r env hr hi hd hd'
    refine hpc hr (by rw [hi]; exact fun _ h => h) fun e he => Recv.mem_frames.mpr (.inr (.inr ?_))
    rwa [hd, ← hd']
  cases h with
  | move h => exact hpc rfl (fun _ h => h) fun env he => Recv.mem_frames.mpr (.inr (.inr (h.frames env he)))
  | @take env queue _ hq =>
    refine hpc rfl (fun e he => ?_) fun e he => Recv.mem_frames.mpr (.inr (.inl ?_))
    · rw [hq]
      exact List.mem_cons_of_mem _ he
    · rw [hq, List.mem_singleton.mp he]
      exact List.mem_cons_self
  | openAck h | close h | error h | ack h =>
    exact hsame rfl rfl (by rw [h]; rfl) (handled_frames c _)
  | ping h => exact hsame rfl rfl (by rw [h]; rfl) rfl
  | order h _ _ ho =>
    obtain ⟨hr, hi, _⟩ := order_frame ho
    exact hsame hr hi (by rw [h]; rfl) (delivering_frames _ _ _)
  | deliverOne h => exact hsame rfl rfl (by rw [h]; rfl) (by dsimp only; split; exacts [rfl, handled_frames c _])
  | deliver h => exact hsame rfl rfl (by rw [h]; rfl) rfl
  | delivered h => exact hsame rfl rfl (by rw [h]; rfl) (delivering_frames _ _ _)
  | settle h => exact hsame rfl rfl (by rw [h]; rfl) (by dsimp only; split; exacts [handled_frames c _, rfl])
  | queue h => exact hsame rfl rfl (by rw [h]; rfl) (handled_frames c _)
  | finish h => exact hsame rfl rfl (by rw [h]; rfl) rfl
  | @release env h hr =>
    have hrel : (c.recv.release env).reader = c.recv.reader ∧ (c.recv.release env).inbox = c.recv.inbox := by
      unfold Recv.release
      split <;> exact ⟨rfl, rfl⟩
    exact hpc hrel.1 (by rw [show ({ c.recv.release env with dispatcher := .select } : Recv).inbox = _ from hrel.2]
                         exact fun _ h => h) (List.forall_mem_nil _)
  | shut => exact hpc rfl (List.forall_mem_nil _) (List.forall_mem_nil _)

theorem StepEffect.frames {a : RelayConnection.Action} (h : StepEffect c a c') :
    ∀ env ∈ c'.recv.frames, env ∈ c.recv.frames ∨ a.packet? = some env := by
  have hsame : c'.recv = c.recv → ∀ env ∈ c'.recv.frames, env ∈ c.recv.frames ∨ a.packet? = some env := by
    intro hr env he
    exact .inl (hr ▸ he)
  cases h with
  | packet =>
    intro env he
    rcases Recv.mem_frames.mp he with he | he
    · exact .inr (congrArg some (List.mem_singleton.mp he).symm)
    · exact .inl (Recv.mem_frames.mpr (.inr he))
  | reader h => exact fun env he => .inl (readerStep_frames h env he)
  | dispatcher h => exact fun env he => .inl (h.frames env he)
  | ackWorker h => exact hsame (ackStep_frame h).recv
  | sender _ rest => exact hsame rest.recv
  | @call call => cases call with
    | send data => cases data <;> exact hsame rfl
    | _ => exact hsame rfl
  | run _ h => cases h <;> exact fun env he => .inl he
  | take => exact fun env he => .inl he
  | _ => exact hsame rfl

/-! ### The acknowledgements owed -/

/-- The numbers that are about to be passed to `queueACK`. -/
inductive Owes (c : RelayConnection) : Nat → Prop
  | again {env : RelayEnvelope} {closed reordered : Bool} {buffered : Int} {expected delivered : Nat}
      (h : c.recv.reader = .snapped env closed buffered reordered expected delivered) : Owes c delivered
  | queue {env : RelayEnvelope} {ackSeq : Nat} (h : c.recv.dispatcher = .queue env ackSeq) : Owes c ackSeq

/-- The steps that end in `finishReceiveACK`. -/
inductive Finishing (c : RelayConnection) : RelayConnection.Action → Prop
  | undo {env : RelayEnvelope} (h : c.recv.reader = .undo env) : Finishing c .reader
  | finish {how : Choice} {env : RelayEnvelope} (h : c.recv.dispatcher = .finish env) : Finishing c (.dispatcher how)

/-- All that a step can do to the acknowledgements. -/
inductive AcksEffect (c : RelayConnection) (a : RelayConnection.Action) (c' : RelayConnection) : Prop
  | same (ha : c'.acks = c.acks)
  | queue {n : Nat} (ho : Owes c n) (ha : c'.acks = c.acks.queueACK c.life.closed (c.ackEnvelope n))
      (hl : c'.life = c.life)
  | begin (ha : c'.acks = c.acks.beginReceiveACK)
  | finish (hf : Finishing c a) (ha : c'.acks = c.acks.finishReceiveACK)
  | worker {how : Choice} (h : c.ackStep how = some c')

theorem StepEffect.acks {a : RelayConnection.Action} (h : StepEffect c a c') : AcksEffect c a c' := by
  cases h with
  | reader h => cases readerStep_effect h with
    | again hpc => exact .queue (.again hpc) rfl rfl
    | begin => exact .begin rfl
    | undo hpc => exact .finish (.undo hpc) rfl
    | _ => exact .same rfl
  | dispatcher h => cases h with
    | queue hpc => exact .queue (.queue hpc) rfl rfl
    | finish hpc => exact .finish (.finish hpc) rfl
    | _ => exact .same rfl
  | ackWorker h => exact .worker h
  | sender _ rest => exact .same rest.acks
  | @call call => cases call with
    | send data => cases data <;> exact .same rfl
    | _ => exact .same rfl
  | run _ h => cases h <;> exact .same rfl
  | _ => exact .same rfl

theorem openIdle_held (a : Acks) : a.openIdle.held = a.held := by
  unfold Acks.openIdle
  split <;> rfl

theorem queueACK_held {a : Acks} {closed : Bool} {env : RelayEnvelope} :
    ∀ e ∈ (a.queueACK closed env).held, e ∈ a.held ∨ e = env := by
  intro e he
  unfold Acks.queueACK at he
  split at he
  · exact .inl he
  · have hw : a.startWorker.ackPending = a.ackPending ∧ ∀ e ∈ a.startWorker.worker.frames, e ∈ a.worker.frames := by
      unfold Acks.startWorker
      split
      · exact ⟨rfl, List.forall_mem_nil _⟩
      · exact ⟨rfl, fun _ h => h⟩
    have he : e ∈ { a.startWorker with ackPending := some (Acks.coalesce a.startWorker.ackPending env) }.openIdle.held := he
    rw [openIdle_held, mem_held] at he
    rcases he with he | he
    · have he := Option.some.inj he
      rw [hw.1] at he
      unfold Acks.coalesce at he
      split at he
      · exact .inr he.symm
      · rename_i hp
        split at he
        · exact .inr he.symm
        · exact .inl (mem_held.mpr (.inl (he ▸ hp)))
    · exact .inl (mem_held.mpr (.inr (hw.2 e he)))

theorem beginReceiveACK_held (a : Acks) : a.beginReceiveACK.held = a.held :=
  openIdle_held { a with ackGenerating := a.ackGenerating + 1 }

theorem finishReceiveACK_held (a : Acks) : a.finishReceiveACK.held = a.held :=
  closeACKIdleLocked_held { a with ackGenerating := a.ackGenerating - 1 }

theorem StepEffect.held {a : RelayConnection.Action} (h : StepEffect c a c') :
    ∀ env ∈ c'.acks.held, env ∈ c.acks.held ∨ ∃ n, Owes c n ∧ env = c.ackEnvelope n := by
  intro env he
  cases h.acks with
  | same ha => exact .inl (ha ▸ he)
  | queue ho ha =>
    rw [ha] at he
    exact (queueACK_held env he).imp_right fun e => ⟨_, ho, e⟩
  | begin ha =>
    rw [ha, beginReceiveACK_held] at he
    exact .inl he
  | finish _ ha =>
    rw [ha, finishReceiveACK_held] at he
    exact .inl he
  | worker h => exact .inl ((ackStep_frame h).held env he)

/-! ### What only `dispatchLoop` changes -/

theorem StepEffect.order {a : RelayConnection.Action} (h : StepEffect c a c') :
    SameOrder c.recv c'.recv ∨ (∃ how, a = .dispatcher how) ∧ DispatchEffect c c' := by
  have hsame : c'.recv = c.recv → SameOrder c.recv c'.recv ∨ (∃ how, a = .dispatcher how) ∧ DispatchEffect c c' := by
    intro hr
    rw [hr]
    exact .inl (.refl _)
  have htake : ∀ {data : Bytes} {rest : List Bytes}, c.recv.recvCh = data :: rest →
      SameOrder c.recv (c.take data rest).recv := by
    intro data rest hr
    refine ⟨rfl, rfl, rfl, rfl, rfl, ?_, .inl ⟨rfl, id⟩⟩
    rw [hr]
    simp [RelayConnection.take]
  cases h with
  | packet => exact .inl ⟨rfl, rfl, rfl, rfl, rfl, rfl, .inl ⟨rfl, id⟩⟩
  | reader h => exact .inl (readerStep_order h)
  | @dispatcher how _ h => exact .inr ⟨⟨how, rfl⟩, h⟩
  | ackWorker h => exact hsame (ackStep_frame h).recv
  | sender _ rest => exact hsame rest.recv
  | @call call => cases call with
    | send data => cases data <;> exact hsame rfl
    | _ => exact hsame rfl
  | run _ h => cases h with
    | receive h => exact .inl (htake h)
    | _ => exact hsame rfl
  | take h => exact .inl (htake h)
  | _ => exact hsame rfl

/-! ### Life -/

theorem closeWithSource_closed (l : Life) (reason : Option Err) (remote : Bool) :
    (l.closeWithSource reason remote).closed = true := by
  unfold Life.closeWithSource
  split
  · rename_i h
    simpa [Life.closed] using h
  · rfl

theorem SameLife.refl (l : Life) : SameLife l l := ⟨rfl, rfl, rfl, rfl⟩

/-- All that the action `a` can do to the life of the connection. Only `Close` and `Abort`
    close it without an error. -/
inductive LifeEffect (c : RelayConnection) (a : RelayConnection.Action) : Life → Prop
  | same : LifeEffect c a c.life
  | note {l : Life} (h : NoteEffect c.life a l) : LifeEffect c a l
  | openAck (env : RelayEnvelope) : LifeEffect c a (c.life.handleOpenAck env)
  | closing {i before : Nat} (hpc : c.calls[i]? = some (.close before .state)) (ho : c.life.state = .stateOpen) :
      LifeEffect c a { c.life with state := .stateClosing }
  | closed {reason : Option Err}
      (hr : reason = none → a = .abort none ∨ ∃ i before : Nat, c.calls[i]? = some (.close before .sent)) :
      LifeEffect c a (c.life.closeConnection reason)
  | remote {env : RelayEnvelope} (hpc : c.recv.dispatcher = .handle env) (hk : env.kind = .kindClose) :
      LifeEffect c a (c.life.closeWithSource (some .remoteClose) true)

theorem MayFail.effect {a : RelayConnection.Action} {l : Life} (h : MayFail c.life l) : LifeEffect c a l := by
  rcases h with rfl | ⟨e, rfl⟩
  · exact .same
  · exact .closed nofun

theorem readerStep_life (h : c.readerStep = some c') : MayFail c.life c'.life := by
  cases readerStep_effect h with
  | fail => exact .inr ⟨_, rfl⟩
  | _ => exact .inl rfl

theorem StepEffect.life {a : RelayConnection.Action} (h : StepEffect c a c') : LifeEffect c a c'.life := by
  have hsame : c'.life = c.life → LifeEffect c a c'.life := by
    intro hl
    rw [hl]
    exact .same
  cases h with
  | reader h => exact (readerStep_life h).effect
  | dispatcher h => cases h with
    | openAck => exact .openAck _
    | close hpc hk => exact .remote hpc hk
    | error => exact .closed nofun
    | _ => exact hsame rfl
  | ackWorker h => exact (ackStep_frame h).life.effect
  | sender _ rest => exact rest.life.effect
  | @call call => cases call with
    | send data => cases data <;> exact hsame rfl
    | _ => exact hsame rfl
  | @run i how pc _ hpc h => cases h with
    | closing ho => exact .closing hpc ho
    | closed => exact .closed fun _ => .inr ⟨i, _, hpc⟩
    | _ => exact hsame rfl
  | deadline | fail => exact .closed nofun
  | abort => exact .closed fun hr => .inl (by rw [hr])
  | note _ h => exact .note h
  | _ => exact hsame rfl

/-- A closed connection stays as it is. -/
theorem LifeEffect.frozen {a : RelayConnection.Action} {l : Life} (h : LifeEffect c a l) (hc : c.life.closed = true) :
    SameLife c.life l := by
  have hs : c.life.state = .stateClosed := by simpa [Life.closed] using hc
  cases h with
  | same => exact .refl _
  | note h => exact h.sameLife
  | openAck =>
    rw [Life.handleOpenAck, if_neg (by rw [hs]; nofun)]
    exact .refl _
  | closing _ ho =>
    rw [hs] at ho
    cases ho
  | closed =>
    rw [Life.closeConnection, Life.closeWithSource, if_pos hs]
    exact .refl _
  | remote =>
    rw [Life.closeWithSource, if_pos hs]
    exact .refl _

theorem SameLife.closed_eq {l l' : Life} (h : SameLife l l') : l'.closed = l.closed := by
  rw [Life.closed, Life.closed, h.state]

theorem StepEffect.closed_stays {a : RelayConnection.Action} (h : StepEffect c a c') (hc : c.life.closed = true) :
    c'.life.closed = true := by
  rw [(h.life.frozen hc).closed_eq, hc]

/-! ### Calls -/

/-- A step leaves the calls alone, starts one or takes one of them further. -/
theorem StepEffect.calls {a : RelayConnection.Action} (h : StepEffect c a c') :
    c'.calls = c.calls ∨ (∃ call, a = .call call ∧ c' = c.startCall call) ∨
      ∃ i how pc, a = .run i how ∧ c.calls[i]? = some pc ∧ CallEffect c i pc c' := by
  cases h with
  | reader h => exact .inl (readerStep_out h).2.1
  | dispatcher h => cases h <;> exact .inl rfl
  | ackWorker h => exact .inl (ackStep_frame h).calls
  | sender _ rest => exact .inl rest.calls
  | @call call => exact .inr (.inl ⟨call, rfl, rfl⟩)
  | @run i how pc _ hpc h => exact .inr (.inr ⟨i, how, pc, rfl, hpc, h⟩)
  | _ => exact .inl rfl

/-- A call that starts comes after the others. -/
theorem startCall_calls (c : RelayConnection) (call : AppCall) : ∃ pc, (c.startCall call).calls = c.calls ++ [pc] := by
  cases call with
  | send data => cases data <;> exact ⟨_, rfl⟩
  | _ => exact ⟨_, rfl⟩

theorem CallEffect.calls {pc : CallPc} (h : CallEffect c i pc c') : ∃ pc', c'.calls = c.calls.set i pc' := by
  cases h <;> exact ⟨_, rfl⟩

/-- Where a call is when it has started. -/
def CallPc.isNew : CallPc → Bool
  | .send _ .lock | .flush .lock | .close _ .lock | .receive _ .select | .returned => true
  | _ => false

/-- Where a call can go on from a position, in a step from `c` to `c'`. -/
inductive CallNext (c c' : RelayConnection) : CallPc → CallPc → Prop
  | move {pc pc' : CallPc} (h : CallMove c pc pc') (hx : c'.xmit = c.xmit) (hr : c'.returns = c.returns) :
      CallNext c c' pc pc'
  | ret {pc : CallPc} : CallNext c c' pc .returned
  | barrier {t : Xmit} (h : c.xmit.push c.sendCap (.barrier c.xmit.barriers) = some t)
      (hx : c'.xmit = { t with barriers := t.barriers + 1 }) (hr : c'.returns = c.returns) :
      CallNext c c' (.flush .push) (.flush (.barrier c.xmit.barriers))
  | closing {before : Nat} (ho : c.life.state = .stateOpen) (hs : c'.life.state = .stateClosing) :
      CallNext c c' (.close before .state) (.close before .push)
  | marker {before : Nat} : CallNext c c' (.close before .push) (.close before .flush)
  | close {before : Nat} (hc : c.life.closed = false) : CallNext c c' (.close before .start) (.close before .sent)
  | closed {before : Nat} (hc : c'.life.closed = true) : CallNext c c' (.close before .sent) (.close before .result)

theorem CallEffect.next {pc : CallPc} (h : CallEffect c i pc c') :
    ∃ pc', c'.calls = c.calls.set i pc' ∧ CallNext c c' pc pc' := by
  cases h with
  | move h => exact ⟨_, rfl, .move h rfl rfl⟩
  | ret | send | receive => exact ⟨_, rfl, .ret⟩
  | barrier h => exact ⟨_, rfl, .barrier h rfl rfl⟩
  | closing ho => exact ⟨_, rfl, .closing ho rfl⟩
  | marker => exact ⟨_, rfl, .marker⟩
  | close hc => exact ⟨_, rfl, .close hc⟩
  | closed => exact ⟨_, rfl, .closed (closeWithSource_closed _ _ _)⟩

/-- A call after a step was there before it, has just started or has gone on. -/
theorem StepEffect.call_cases {a : RelayConnection.Action} (h : StepEffect c a c') {j : Nat} {pc' : CallPc}
    (hj : c'.calls[j]? = some pc') : c.calls[j]? = some pc' ∨ pc'.isNew = true ∨
      ∃ pc, c.calls[j]? = some pc ∧ CallNext c c' pc pc' := by
  rcases h.calls with hs | ⟨call, _, rfl⟩ | ⟨i, how, pc, _, hpc, he⟩
  · exact .inl (by rw [← hs]; exact hj)
  · obtain ⟨pc, hnew, hcalls⟩ : ∃ pc : CallPc, pc.isNew = true ∧ (c.startCall call).calls = c.calls ++ [pc] := by
      cases call with
      | send data => cases data <;> exact ⟨_, rfl, rfl⟩
      | _ => exact ⟨_, rfl, rfl⟩
    rw [hcalls] at hj
    rcases Slots.get_snoc hj with hj | ⟨-, rfl⟩
    · exact .inl hj
    · exact .inr (.inl hnew)
  · obtain ⟨pc₁, hcalls, hnext⟩ := he.next
    rw [hcalls] at hj
    rcases Slots.get_set hj with ⟨rfl, rfl⟩ | ⟨-, hj⟩
    · exact .inr (.inr ⟨pc, hpc, hnext⟩)
    · exact .inl hj

/-- What a step returns to the application. -/
theorem StepEffect.returns {a : RelayConnection.Action} (h : StepEffect c a c') {r : Return} (hr : r ∈ c'.returns) :
    r ∈ c.returns ∨ (∃ data, r = .send data none) ∨ (∃ data, r = .receive data) ∨
      ∃ (i : Nat) (pc : CallPc), (∃ how, a = .run i how) ∧ c.calls[i]? = some pc ∧ CallRet c pc r ∧ c' = c.ret i r := by
  have hold : c'.returns = c.returns → r ∈ c.returns ∨ (∃ data, r = .send data none) ∨ (∃ data, r = .receive data) ∨
      ∃ (i : Nat) (pc : CallPc), (∃ how, a = .run i how) ∧ c.calls[i]? = some pc ∧ CallRet c pc r ∧ c' = c.ret i r :=
    fun he => .inl (he ▸ hr)
  cases h with
  | reader h => exact hold (readerStep_out h).2.2.1
  | dispatcher h => cases h <;> exact hold rfl
  | ackWorker h => exact hold (ackStep_frame h).returns
  | sender _ rest => exact hold rest.returns
  | @call call => cases call with
    | send data => cases data with
      | nil =>
        rcases List.mem_append.mp hr with hr | hr
        · exact .inl hr
        · exact .inr (.inl ⟨[], List.mem_singleton.mp hr⟩)
      | cons => exact hold rfl
    | _ => exact hold rfl
  | @run i how pc _ hpc h => cases h with
    | ret h =>
      rcases List.mem_append.mp hr with hr | hr
      · exact .inl hr
      · cases List.mem_singleton.mp hr
        exact .inr (.inr (.inr ⟨i, pc, ⟨how, rfl⟩, hpc, h, rfl⟩))
    | send =>
      rcases List.mem_append.mp hr with hr | hr
      · exact .inl hr
      · exact .inr (.inl ⟨_, List.mem_singleton.mp hr⟩)
    | receive =>
      rcases List.mem_append.mp hr with hr | hr
      · exact .inl hr
      · exact .inr (.inr (.inl ⟨_, List.mem_singleton.mp hr⟩))
    | _ => exact hold rfl
  | _ => exact hold rfl

end

end Turntf.Relay
