/-
  Turntf.Relay.Effects — all that each goroutine of a connection can do in one step.

  `XmitEffect` lists the effects on the sending side, `DispatchEffect` the steps of
  `dispatchLoop`, `CallEffect` those of the calls of the application, `Emits` the envelopes a
  step can hand out; what a goroutine leaves alone is said once (`SameRest`, `AckFrame`). The
  invariants are proved over these lists and not over the positions of the code.
-/

import Turntf.Relay.System

namespace Turntf.Relay

/-! ## What the goroutines have in their hands -/

/-- The envelope the shared reader is admitting. -/
def ReaderPc.frames : ReaderPc → List RelayEnvelope
  | .snapped env _ _ _ _ _ | .budget env _ | .begin env | .push env | .undo env => [env]
  | .idle | .fail => []

/-- The envelope being dispatched. -/
def DispatchPc.frames : DispatchPc → List RelayEnvelope
  | .check env | .readIdle env | .waitIdle env _ | .handle env | .deliverOne env | .deliver env _ _ _ _
  | .delivered env _ _ | .settle env _ | .queue env _ | .ping env | .finish env | .release env => [env]
  | .off | .select | .exiting | .exited => []

/-- The envelopes of the peer that are on their way to be handled. -/
def Recv.frames (r : Recv) : List RelayEnvelope := r.reader.frames ++ r.inbox.getD [] ++ r.dispatcher.frames

def RetryPc.frames : RetryPc → List RelayEnvelope
  | .next frames | .sent frames => frames
  | .acquire env frames | .recheck env frames | .sending env frames => env :: frames
  | .start | .tooMany | .wait | .done => []

def LoopPc.frames : LoopPc → List RelayEnvelope
  | .acquire env | .sending env => [env]
  | .retry pc _ => pc.frames
  | _ => []

/-- The data the loop has taken and not yet numbered. -/
def LoopPc.pending : LoopPc → List Bytes
  | .data d | .window d | .retry _ (some d) => [d]
  | _ => []

inductive LoopMode where
  | running
  | marker
  | ended
  deriving DecidableEq

/-- Whether the loop is at the marker of `Close`, has left its `for`, or neither. -/
def LoopPc.mode : LoopPc → LoopMode
  | .marker => .marker
  | .exiting | .exited => .ended
  | _ => .running

/-- The DATA frames in the hands of the sending side. -/
def Xmit.carried (t : Xmit) : List RelayEnvelope :=
  t.loop.frames ++ (t.retry.map RetryPc.frames).getD [] ++ t.tasks.map Task.env

def AckPc.frames : AckPc → List RelayEnvelope
  | .sending env _ | .delay env _ => [env]
  | _ => []

/-- The acknowledgements in the hands of the receiving side. -/
def Acks.held (a : Acks) : List RelayEnvelope := a.ackPending.toList ++ a.worker.frames

/-! ## The sending side -/

structure SameCore (t t' : Xmit) : Prop where
  sendBase : t'.sendBase = t.sendBase
  nextSeq : t'.nextSeq = t.nextSeq
  unacked : t'.unacked = t.unacked
  sendCh : t'.sendCh = t.sendCh
  flushCh : t'.flushCh = t.flushCh
  took : t'.took = t.took
  assigned : t'.assigned = t.assigned
  acked : t'.acked = t.acked

theorem SameCore.refl (t : Xmit) : SameCore t t := ⟨rfl, rfl, rfl, rfl, rfl, rfl, rfl, rfl⟩

theorem SameCore.moved {t t' : Xmit} (h : SameCore t t') (loop : LoopPc) (retry : Option RetryPc) :
    SameCore t { t' with loop := loop, retry := retry } :=
  ⟨h.sendBase, h.nextSeq, h.unacked, h.sendCh, h.flushCh, h.took, h.assigned, h.acked⟩

inductive XmitEffect (c : RelayConnection) : Xmit → Prop
  | still {t : Xmit} (core : SameCore c.xmit t) (pending : t.loop.pending = c.xmit.loop.pending)
      (mode : t.loop.mode = c.xmit.loop.mode)
      (carried : ∀ env ∈ t.carried, env ∈ c.xmit.carried ∨ env ∈ c.retransmitFrames) : XmitEffect c t
  | ack {env : RelayEnvelope} (kind : env.kind = .kindAck) (hin : env ∈ c.recv.frames) :
      XmitEffect c (c.xmit.handleAck c.config.reliability env)
  | push {item : SendItem} {t : Xmit} (barriers : Nat) (h : c.xmit.push c.sendCap item = some t) :
      XmitEffect c { t with barriers := barriers }
  | receive {item : SendItem} {items : List SendItem} (hl : c.xmit.loop = .select) (hs : c.xmit.sendCh = item :: items) :
      XmitEffect c ({ c.xmit with sendCh := items }.receive item)
  | flush (hl : c.xmit.loop = .marker) : XmitEffect c { c.xmit with flushCh := true, loop := .select }
  | assign {data : Bytes} (hl : c.xmit.loop = .data data) (hr : c.reliable = true)
      (hw : c.xmit.nextSeq - c.xmit.sendBase < uint64 c.config.windowSize) :
      XmitEffect c { c.xmit.assign data with loop := .acquire (c.dataEnvelope c.xmit.nextSeq data) }
  | exit (hl : c.xmit.loop.mode = .running) (hc : c.life.closed = true) : XmitEffect c { c.xmit with loop := .exiting }
  | plain {data : Bytes} (hl : c.xmit.loop = .data data) (hr : c.reliable = false) :
      XmitEffect c { c.xmit with loop := .sending (c.dataEnvelope 0 data) }

theorem XmitEffect.same {c : RelayConnection} {t : Xmit} (h : t = c.xmit) : XmitEffect c t := by
  subst h
  exact .still (.refl _) rfl rfl fun _ h => .inl h

/-- What is fixed when a connection is made. -/
structure SameConn (c c' : RelayConnection) : Prop where
  config : c'.config = c.config
  relayID : c'.relayID = c.relayID
  mySession : c'.mySession = c.mySession

/-- A goroutine of the sending side closes the connection only with an error. -/
def MayFail (l l' : Life) : Prop := l' = l ∨ ∃ e, l' = l.closeConnection (some e)

/-- What the goroutines of the sending side leave alone. -/
structure SameRest (c c' : RelayConnection) : Prop extends SameConn c c' where
  recv : c'.recv = c.recv
  acks : c'.acks = c.acks
  calls : c'.calls = c.calls
  returns : c'.returns = c.returns
  life : MayFail c.life c'.life

theorem sentData_life (c : RelayConnection) (env : RelayEnvelope) (err : Option Err) :
    MayFail c.life (c.sentData env err).life := by
  unfold RelayConnection.sentData
  cases c.sendResult env err with
  | none => exact .inl rfl
  | some e => exact .inr ⟨e, rfl⟩

/-- `retransmit` goes on from `pc` to `pc'`, whoever runs it. -/
structure RetryFrame (c : RelayConnection) (pc : RetryPc) (c' : RelayConnection) (pc' : RetryPc) : Prop
    extends SameRest c c' where
  core : SameCore c.xmit c'.xmit
  loop : c'.xmit.loop = c.xmit.loop
  retry : c'.xmit.retry = c.xmit.retry
  tasks : ∀ env ∈ c'.xmit.tasks.map Task.env, env ∈ c.xmit.tasks.map Task.env ∨ env ∈ pc.frames
  frames : ∀ env ∈ pc'.frames, env ∈ pc.frames ∨ env ∈ c.retransmitFrames
  out : ∃ extra, c'.out = c.out ++ extra ∧ ∀ env ∈ extra, env ∈ pc.frames

section

variable {c c' : RelayConnection} {how : Choice}

/-- A step of `retransmit` that starts no task. -/
theorem RetryFrame.plain {pc pc' : RetryPc} {n : Int} {l : Life} {extra : List RelayEnvelope} (life : MayFail c.life l)
    (frames : ∀ env ∈ pc'.frames, env ∈ pc.frames ∨ env ∈ c.retransmitFrames) (out : ∀ env ∈ extra, env ∈ pc.frames) :
    RetryFrame c pc { c with life := l, xmit.retransCnt := n, out := c.out ++ extra } pc' :=
  ⟨⟨⟨rfl, rfl, rfl⟩, rfl, rfl, rfl, rfl, life⟩, ⟨rfl, rfl, rfl, rfl, rfl, rfl, rfl, rfl⟩, rfl, rfl, fun _ h => .inl h,
    frames, extra, rfl, out⟩

theorem retryStep_frame {pc pc' : RetryPc} (h : c.retryStep pc how = some (c', pc')) : RetryFrame c pc c' pc' := by
  have hlife : ∀ {pc'' : RetryPc} {n : Int} {l : Life}, MayFail c.life l →
      (∀ env ∈ pc''.frames, env ∈ pc.frames ∨ env ∈ c.retransmitFrames) →
      RetryFrame c pc { c with life := l, xmit.retransCnt := n } pc'' := by
    intro pc'' n l hl hf
    have : RetryFrame c pc { c with life := l, xmit.retransCnt := n, out := c.out ++ [] } pc'' := .plain hl hf fun _ h => absurd h List.not_mem_nil
    rwa [List.append_nil] at this
  have hquiet : ∀ {pc'' : RetryPc} {n : Int}, (∀ env ∈ pc''.frames, env ∈ pc.frames ∨ env ∈ c.retransmitFrames) →
      RetryFrame c pc { c with xmit.retransCnt := n } pc'' := fun hf => hlife (.inl rfl) hf
  simp only [RelayConnection.retryStep] at h
  split at h
  · split at h
    · cases h; exact hquiet fun _ h => absurd h List.not_mem_nil
    · split at h <;> cases h
      · exact hquiet fun _ h => absurd h List.not_mem_nil
      · exact hquiet fun _ h => .inr h
  · cases h; exact hlife (.inr ⟨_, rfl⟩) fun _ h => absurd h List.not_mem_nil
  · cases h; exact hquiet fun _ h => absurd h List.not_mem_nil
  · split at h <;> cases h
    · exact hquiet fun _ h => .inl h
    · exact hquiet fun _ h => .inl (List.mem_cons_of_mem _ h)
  · split at h <;> cases h
    exact hquiet fun _ h => .inl h
  · split at h <;> cases h
    exact hquiet fun _ h => absurd h List.not_mem_nil
  · rename_i env frames
    split at h
    · split at h <;> cases h
      · refine ⟨⟨⟨rfl, rfl, rfl⟩, rfl, rfl, rfl, rfl, .inl rfl⟩, ⟨rfl, rfl, rfl, rfl, rfl, rfl, rfl, rfl⟩, rfl, rfl, ?_, ?_,
          [env], rfl, ?_⟩
        · intro e he
          simp only [RelayConnection.spawn, RelayConnection.emit, List.map_append, List.mem_append, List.map_cons,
            List.map_nil, List.mem_singleton] at he
          rcases he with he | rfl
          · exact .inl he
          · exact .inr List.mem_cons_self
        · exact fun _ h => .inl (List.mem_cons_of_mem _ h)
        · intro e he
          rw [List.mem_singleton.mp he]
          exact List.mem_cons_self
      · refine RetryFrame.plain (.inl rfl) (fun _ h => .inl h) ?_
        intro e he
        rw [List.mem_singleton.mp he]
        exact List.mem_cons_self
    · cases h
      exact hquiet fun _ h => .inl (List.mem_cons_of_mem _ h)
  · cases h; exact hlife (sentData_life c _ _) fun _ h => .inl (List.mem_cons_of_mem _ h)
  · cases h; exact hquiet fun _ h => .inl h
  · split at h <;> cases h
    exact hquiet fun _ h => absurd h List.not_mem_nil
  · cases h

/-! ### Every goroutine -/

theorem Xmit.mem_carried {t : Xmit} {env : RelayEnvelope} :
    env ∈ t.carried ↔ env ∈ t.loop.frames ∨ env ∈ (t.retry.map RetryPc.frames).getD [] ∨ env ∈ t.tasks.map Task.env := by
  simp only [Xmit.carried, List.mem_append, or_assoc]

/-- The loop goes on with the same data in hand. -/
theorem XmitEffect.loop {t : Xmit} (core : SameCore c.xmit t) (pending : t.loop.pending = c.xmit.loop.pending)
    (mode : t.loop.mode = c.xmit.loop.mode)
    (hl : ∀ env ∈ t.loop.frames, env ∈ c.xmit.carried ∨ env ∈ c.retransmitFrames)
    (hr : ∀ env ∈ (t.retry.map RetryPc.frames).getD [], env ∈ (c.xmit.retry.map RetryPc.frames).getD [])
    (ht : ∀ env ∈ t.tasks.map Task.env, env ∈ c.xmit.carried) : XmitEffect c t := by
  refine .still core pending mode fun env he => ?_
  rcases Xmit.mem_carried.mp he with he | he | he
  · exact hl env he
  · exact .inl (Xmit.mem_carried.mpr (.inr (.inl (hr env he))))
  · exact .inl (ht env he)

theorem Xmit.mem_tasks {t : Xmit} {env : RelayEnvelope} (h : env ∈ t.tasks.map Task.env) : env ∈ t.carried :=
  mem_carried.mpr (.inr (.inr h))

@[simp] theorem loopBack_pending (back : Option Bytes) : (RelayConnection.loopBack back).pending = back.toList := by
  cases back <;> rfl

@[simp] theorem loopBack_frames (back : Option Bytes) : (RelayConnection.loopBack back).frames = [] := by
  cases back <;> rfl

@[simp] theorem loopBack_mode (back : Option Bytes) : (RelayConnection.loopBack back).mode = .running := by
  cases back <;> rfl

/-- The loop moves and nothing else does. -/
theorem XmitEffect.loopAt {pc : LoopPc} {ch : Option Bool} (pending : pc.pending = c.xmit.loop.pending)
    (mode : pc.mode = c.xmit.loop.mode) (hl : pc.frames = []) :
    XmitEffect c { c.xmit with loop := pc, ackCh := ch } :=
  .loop ⟨rfl, rfl, rfl, rfl, rfl, rfl, rfl, rfl⟩ pending mode (by rw [hl]; exact List.forall_mem_nil _) (fun _ h => h)
    fun _ h => Xmit.mem_tasks h

theorem startRetry_xmit {back : Option Bytes} (hp : c.xmit.loop.pending = back.toList) (hm : c.xmit.loop.mode = .running) :
    XmitEffect c (c.startRetry back).xmit := by
  unfold RelayConnection.startRetry
  split
  · exact .loopAt (by rw [loopBack_pending, hp]) (by rw [loopBack_mode, hm]) (loopBack_frames back)
  · split
    · refine .loop ⟨rfl, rfl, rfl, rfl, rfl, rfl, rfl, rfl⟩ ?_ (by rw [hm]; exact loopBack_mode back) ?_
        (List.forall_mem_nil _) fun _ h => Xmit.mem_tasks h
      · rw [hp]
        exact loopBack_pending back
      · rw [show (RelayConnection.loopBack back).frames = [] from loopBack_frames back]
        exact List.forall_mem_nil _
    · refine .loopAt ?_ hm.symm rfl
      rw [hp]
      cases back <;> rfl

theorem finishRetry_xmit {back : Option Bytes} (hp : c.xmit.loop.pending = back.toList) (hm : c.xmit.loop.mode = .running)
    (h : c.finishRetry back = some c') : XmitEffect c c'.xmit := by
  unfold RelayConnection.finishRetry at h
  split at h <;> cases h
  refine .loop ⟨rfl, rfl, rfl, rfl, rfl, rfl, rfl, rfl⟩ ?_ (by rw [hm]; exact loopBack_mode back) ?_
    (List.forall_mem_nil _) fun _ h => Xmit.mem_tasks h
  · rw [hp]
    exact loopBack_pending back
  · rw [show (RelayConnection.loopBack back).frames = [] from loopBack_frames back]
    exact List.forall_mem_nil _

theorem loopStep_xmit (h : c.loopStep how = some c') : XmitEffect c c'.xmit := by
  unfold RelayConnection.loopStep at h
  split at h <;> rename_i hloop
  · cases h
    exact .loopAt (by rw [hloop]; rfl) (by rw [hloop]; rfl) rfl
  · split at h <;> cases h
    rename_i hs
    exact .receive hloop hs
  · split at h <;> cases h
    exact startRetry_xmit (by rw [hloop]; rfl) (by rw [hloop]; rfl)
  · exact finishRetry_xmit (by rw [hloop]; rfl) (by rw [hloop]; rfl) h
  · split at h <;> cases h
    rename_i hc
    exact .exit (by rw [hloop]; rfl) hc
  · split at h <;> cases h
    exact .loop ⟨rfl, rfl, rfl, rfl, rfl, rfl, rfl, rfl⟩ (by rw [hloop]; rfl) (by rw [hloop]; rfl) (List.forall_mem_nil _)
      (fun _ h => h) fun _ h => Xmit.mem_tasks h
  · split at h <;> cases h
    exact .flush hloop
  · split at h
    · rename_i hr
      split at h <;> cases h
      · exact .loopAt (by rw [hloop]; rfl) (by rw [hloop]; rfl) rfl
      · rename_i hw
        exact .assign hloop hr (Nat.lt_of_not_le hw)
    · rename_i hr
      cases h
      exact .plain hloop (by simpa using hr)
  · split at h <;> cases h
    exact .loopAt (by rw [hloop]; rfl) (by rw [hloop]; rfl) rfl
  · cases h
    exact startRetry_xmit (by rw [hloop]; rfl) (by rw [hloop]; rfl)
  · exact finishRetry_xmit (by rw [hloop]; rfl) (by rw [hloop]; rfl) h
  · split at h <;> cases h
    rename_i hc
    exact .exit (by rw [hloop]; rfl) hc
  · rename_i env
    split at h <;> cases h
    refine .loop ⟨rfl, rfl, rfl, rfl, rfl, rfl, rfl, rfl⟩ (by rw [hloop]; rfl) (by rw [hloop]; rfl) (List.forall_mem_nil _)
      (fun _ h => h) fun e he => ?_
    simp only [RelayConnection.spawn, RelayConnection.emit, RelayConnection.loopAt, List.map_append, List.map_cons,
      List.map_nil, List.mem_append, List.mem_singleton] at he
    rcases he with he | rfl
    · exact Xmit.mem_tasks he
    · exact Xmit.mem_carried.mpr (.inl (by rw [hloop]; exact List.mem_cons_self))
  · split at h <;> cases h
    rename_i hc
    exact .exit (by rw [hloop]; rfl) hc
  · cases h
    exact .loopAt (by rw [hloop]; rfl) (by rw [hloop]; rfl) rfl
  · rename_i back
    cases h
    refine .loopAt ?_ (by rw [hloop, loopBack_mode]; rfl) (loopBack_frames back)
    rw [hloop, loopBack_pending]
    cases back <;> rfl
  · rename_i _ pc back hl
    obtain ⟨⟨c₁, pc'⟩, hr, rfl⟩ := Option.map_eq_some_iff.mp h
    have hf := retryStep_frame hr
    have hin : ∀ env ∈ pc.frames, env ∈ c.xmit.carried := fun env he =>
      Xmit.mem_carried.mpr (.inl (by rw [hl]; exact he))
    refine .loop (hf.core.moved _ _) ?_ (by rw [hl]; rfl) (fun env he => ?_) (fun env he => ?_) fun env he => ?_
    · rw [hl]
      cases back <;> rfl
    · exact (hf.frames env he).imp_left (hin env)
    · rwa [show (c₁.loopAt (.retry pc' back)).xmit.retry = c.xmit.retry from hf.retry] at he
    · exact (hf.tasks env he).elim Xmit.mem_tasks (hin env)
  · split at h <;> cases h
    exact .loopAt (by rw [hloop]; rfl) (by rw [hloop]; rfl) rfl
  · cases h

theorem roundStep_xmit (h : c.roundStep how = some c') : XmitEffect c c'.xmit := by
  unfold RelayConnection.roundStep at h
  split at h
  · rename_i pc hpc
    obtain ⟨⟨c₁, pc'⟩, hr, rfl⟩ := Option.map_eq_some_iff.mp h
    have hf := retryStep_frame hr
    have hin : ∀ env ∈ pc.frames, env ∈ c.xmit.carried := fun env he =>
      Xmit.mem_carried.mpr (.inr (.inl (by rw [hpc]; exact he)))
    refine .still (hf.core.moved _ _) ?_ ?_ ?_
    · exact congrArg LoopPc.pending hf.loop
    · exact congrArg LoopPc.mode hf.loop
    · intro env he
      rcases Xmit.mem_carried.mp he with he | he | he
      · rw [show c₁.xmit.loop = c.xmit.loop from hf.loop] at he
        exact .inl (Xmit.mem_carried.mpr (.inl he))
      · exact (hf.frames env he).imp_left (hin env)
      · exact .inl ((hf.tasks env he).elim Xmit.mem_tasks (hin env))
  · cases h

theorem taskStep_xmit {i : Nat} {err : Option Err} (h : c.taskStep i err = some c') : XmitEffect c c'.xmit := by
  have hsub : ∀ {tasks : List Task}, (∀ env ∈ tasks.map Task.env, env ∈ c.xmit.tasks.map Task.env) →
      XmitEffect c { c.xmit with tasks := tasks } := by
    intro tasks ht
    refine .still ⟨rfl, rfl, rfl, rfl, rfl, rfl, rfl, rfl⟩ rfl rfl fun env he => .inl ?_
    rcases Xmit.mem_carried.mp he with he | he | he
    · exact Xmit.mem_carried.mpr (.inl he)
    · exact Xmit.mem_carried.mpr (.inr (.inl he))
    · exact Xmit.mem_tasks (ht env he)
  unfold RelayConnection.taskStep at h
  split at h
  · cases h
  · rename_i task ht
    split at h <;> cases h
    · refine hsub fun env he => ?_
      obtain ⟨task, ht, rfl⟩ := List.mem_map.mp he
      exact List.mem_map_of_mem (List.mem_of_mem_eraseIdx ht)
    · refine hsub fun env he => ?_
      obtain ⟨task', ht', rfl⟩ := List.mem_map.mp he
      rcases List.mem_or_eq_of_mem_set ht' with ht' | rfl
      · exact List.mem_map_of_mem ht'
      · exact List.mem_map.mpr ⟨task, List.mem_of_getElem? ht, rfl⟩

end

/-! ## `enqueueEnvelope` -/

/-- The steps of `enqueueEnvelope` after its first section. -/
inductive ReaderEffect (c : RelayConnection) : RelayConnection → Prop
  | drop (hpc : c.recv.reader ≠ .idle) : ReaderEffect c (c.readerAt .idle)
  | ack {env : RelayEnvelope} {closed reordered : Bool} {buffered : Int} {expected delivered : Nat}
      (hpc : c.recv.reader = .snapped env closed buffered reordered expected delivered) (hk : env.kind = .kindAck)
      (ht : c.recv.inboxTerminal = false) :
      ReaderEffect c { c.readerAt .idle with xmit := c.xmit.handleAck c.config.reliability env }
  | again {env : RelayEnvelope} {closed reordered : Bool} {buffered : Int} {expected delivered : Nat}
      (hpc : c.recv.reader = .snapped env closed buffered reordered expected delivered) (hd : c.dedup env = true)
      (hs : env.seq < expected) :
      ReaderEffect c { c.readerAt .idle with acks := c.acks.queueACK c.life.closed (c.ackEnvelope delivered) }
  | start {env : RelayEnvelope} {closed reordered : Bool} {buffered : Int} {expected delivered : Nat}
      (hpc : c.recv.reader = .snapped env closed buffered reordered expected delivered) (hi : c.recv.inbox = none)
      (hc : c.life.closed = false) :
      ReaderEffect c { c with recv := { c.recv with
        reader := .budget env buffered, inbox := some [], inboxSeq := ∅, dispatcher := .select } }
  | tested {env : RelayEnvelope} {closed reordered : Bool} {buffered : Int} {expected delivered : Nat}
      (hpc : c.recv.reader = .snapped env closed buffered reordered expected delivered) (hf : c.recv.inboxFailed = false) :
      ReaderEffect c (c.readerAt (c.afterBudget env buffered))
  | budget {env : RelayEnvelope} {buffered : Int} (hpc : c.recv.reader = .budget env buffered) :
      ReaderEffect c (c.readerAt (c.afterBudget env buffered))
  | begin {env : RelayEnvelope} (hpc : c.recv.reader = .begin env) (hc : c.life.closed = false) :
      ReaderEffect c { c.readerAt (.push env) with acks := c.acks.beginReceiveACK }
  | admitted {env : RelayEnvelope} {queue : List RelayEnvelope} (hpc : c.recv.reader = .push env)
      (hi : c.recv.inbox = some queue) (hroom : queue.length < c.budget + 8) : ReaderEffect c (c.admitted env queue)
  | full {env : RelayEnvelope} (hpc : c.recv.reader = .push env) (hw : (env.isData && c.reliable) = true) :
      ReaderEffect c (c.readerAt (.undo env))
  | overflow {env : RelayEnvelope} (hpc : c.recv.reader = .push env) : ReaderEffect c (c.readerAt .fail)
  | undo {env : RelayEnvelope} (hpc : c.recv.reader = .undo env) :
      ReaderEffect c { c.readerAt (if c.dedup env then .idle else .fail) with acks := c.acks.finishReceiveACK }
  | fail (hpc : c.recv.reader = .fail) :
      ReaderEffect c { c with
        recv := { c.recv with reader := .idle, inboxFailed := true }
        life := c.life.closeConnection (some .receiveOverflow) }

section

variable {c c' : RelayConnection}

theorem readerStep_effect (h : c.readerStep = some c') : ReaderEffect c c' := by
  unfold RelayConnection.readerStep at h
  split at h <;> rename_i hpc
  · cases h
  · have hdrop : ReaderEffect c (c.readerAt .idle) := .drop (by rw [hpc]; nofun)
    split at h
    · cases h; exact hdrop
    · rename_i hopen
      split at h
      · rename_i hk
        obtain ⟨hk, ht⟩ := Bool.and_eq_true_iff.mp hk
        cases h
        exact .ack hpc (by simpa using hk) (by simpa using ht)
      · split at h
        · cases h; exact hdrop
        · split at h
          · cases h; exact hdrop
          · split at h
            · rename_i hd
              obtain ⟨hd, hs⟩ := Bool.and_eq_true_iff.mp hd
              split at h <;> cases h
              · exact .again hpc hd (by simpa using hs)
              · exact hdrop
            · split at h
              · cases h; exact hdrop
              · split at h <;> rename_i hi
                · split at h <;> rename_i hc <;> cases h
                  · exact hdrop
                  · exact .start hpc hi (by simpa using hc)
                · cases h
                  simp only [Bool.or_eq_true, not_or] at hopen
                  exact .tested hpc (by simpa using hopen.2)
  · cases h
    exact .budget hpc
  · split at h <;> rename_i hc <;> cases h
    · exact .drop (by rw [hpc]; nofun)
    · exact .begin hpc (by simpa using hc)
  · split at h <;> rename_i hi
    · cases h
    · split at h
      · rename_i hroom
        cases h
        exact .admitted hpc hi hroom
      · split at h <;> rename_i hw
        · cases h
          exact .full hpc hw
        · split at h <;> cases h
          · exact .drop (by rw [hpc]; nofun)
          · exact .overflow hpc
  · cases h
    exact .undo hpc
  · cases h
    exact .fail hpc

theorem readerStep_xmit (h : c.readerStep = some c') : XmitEffect c c'.xmit := by
  cases readerStep_effect h with
  | ack hpc hk => exact .ack hk (by simp [Recv.frames, hpc, ReaderPc.frames])
  | _ => exact .same rfl

end

/-! ## `dispatchLoop` -/

/-- The steps of `dispatchLoop` that only move it. -/
inductive DispatchMove (c : RelayConnection) : DispatchPc → DispatchPc → Prop
  | stop (hc : c.life.closed = true) : DispatchMove c .select .exiting
  | halt {env : RelayEnvelope} (hc : c.life.closed = true) : DispatchMove c (.check env) .exiting
  | terminal {env : RelayEnvelope} (hc : c.life.closed = false) (ht : env.isTerminal = true) :
      DispatchMove c (.check env) (.readIdle env)
  | checked {env : RelayEnvelope} (hc : c.life.closed = false) (ht : env.isTerminal = false) :
      DispatchMove c (.check env) (.handle env)
  | idle {env : RelayEnvelope} (hi : c.acks.ackIdle = none) : DispatchMove c (.readIdle env) (.handle env)
  | wait {env : RelayEnvelope} {idle : Nat} (hi : c.acks.ackIdle = some idle) :
      DispatchMove c (.readIdle env) (.waitIdle env idle)
  | waited {env : RelayEnvelope} {idle : Nat} (h : c.acks.ackIdle ≠ some idle ∨ c.life.closed = true) :
      DispatchMove c (.waitIdle env idle) (.handle env)
  | skip {env : RelayEnvelope} (hk : env.kind = .kindOpen ∨ env.kind = .kindUnspecified) :
      DispatchMove c (.handle env) (c.handled env)
  | outside {env : RelayEnvelope} (hk : env.kind = .kindData) (ho : c.config.reliability = .reliableOrdered)
      (h : c.recv.expectedSeq < env.seq ∧ env.seq - c.recv.expectedSeq ≥ uint64 c.config.windowSize) :
      DispatchMove c (.handle env) (c.handled env)
  | one {env : RelayEnvelope} (hk : env.kind = .kindData) (ho : c.config.reliability ≠ .reliableOrdered) :
      DispatchMove c (.handle env) (.deliverOne env)
  | abandonOne {env : RelayEnvelope} (hc : c.life.closed = true) : DispatchMove c (.deliverOne env) (c.handled env)
  | abandon {env : RelayEnvelope} {seq : Nat} {data : Bytes} {ready : List (Nat × Bytes)} {ackSeq : Nat}
      (hc : c.life.closed = true) : DispatchMove c (.deliver env seq data ready ackSeq) (c.handled env)
  | pinged {env : RelayEnvelope} : DispatchMove c (.ping env) (c.handled env)

inductive DispatchEffect (c : RelayConnection) : RelayConnection → Prop
  | move {pc : DispatchPc} (h : DispatchMove c c.recv.dispatcher pc) : DispatchEffect c (c.dispatcherAt pc)
  | take {env : RelayEnvelope} {queue : List RelayEnvelope} (hpc : c.recv.dispatcher = .select)
      (hq : c.recv.inbox = some (env :: queue)) :
      DispatchEffect c { c with recv := { c.recv with inbox := some queue, dispatcher := .check env } }
  | openAck {env : RelayEnvelope} (hpc : c.recv.dispatcher = .handle env) (hk : env.kind = .kindOpenAck) :
      DispatchEffect c { c.dispatcherAt (c.handled env) with life := c.life.handleOpenAck env }
  | close {env : RelayEnvelope} (hpc : c.recv.dispatcher = .handle env) (hk : env.kind = .kindClose) :
      DispatchEffect c
        { c.dispatcherAt (c.handled env) with life := c.life.closeWithSource (some .remoteClose) true }
  | error {env : RelayEnvelope} (hpc : c.recv.dispatcher = .handle env) (hk : env.kind = .kindError) :
      DispatchEffect c
        { c.dispatcherAt (c.handled env) with life := c.life.closeConnection (some (.remoteError env.payload)) }
  | ack {env : RelayEnvelope} (hpc : c.recv.dispatcher = .handle env) (hk : env.kind = .kindAck) :
      DispatchEffect c
        { c.dispatcherAt (c.handled env) with xmit := c.xmit.handleAck c.config.reliability env }
  | ping {env : RelayEnvelope} (hpc : c.recv.dispatcher = .handle env) (hk : env.kind = .kindPing) :
      DispatchEffect c ((c.dispatcherAt (.ping env)).emit (c.envelope .kindError))
  | order {env : RelayEnvelope} {recv : Recv} {ready : List (Nat × Bytes)} (hpc : c.recv.dispatcher = .handle env)
      (hk : env.kind = .kindData) (ho : c.config.reliability = .reliableOrdered)
      (h : c.recv.order c.config.windowSize env = (recv, some ready)) :
      DispatchEffect c { c with recv := { recv with dispatcher := .delivering env ready (recv.expectedSeq - 1) } }
  | deliverOne {env : RelayEnvelope} (hpc : c.recv.dispatcher = .deliverOne env) (hroom : c.recv.recvCh.length < recvCap) :
      DispatchEffect c { c with recv := { c.recv with
        recvCh := c.recv.recvCh ++ [env.payload], pushed := c.recv.pushed ++ [(env.seq, env.payload)]
        dispatcher := if c.reliable then .queue env env.seq else c.handled env } }
  | deliver {env : RelayEnvelope} {seq : Nat} {data : Bytes} {ready : List (Nat × Bytes)} {ackSeq : Nat}
      (hpc : c.recv.dispatcher = .deliver env seq data ready ackSeq) (hroom : c.recv.recvCh.length < recvCap) :
      DispatchEffect c { c with recv := { c.recv with
        recvCh := c.recv.recvCh ++ [data], pushed := c.recv.pushed ++ [(seq, data)]
        dispatcher := .delivered env ready ackSeq } }
  | delivered {env : RelayEnvelope} {ready : List (Nat × Bytes)} {ackSeq : Nat}
      (hpc : c.recv.dispatcher = .delivered env ready ackSeq) :
      DispatchEffect c { c with recv := { c.recv with
        recvReady := c.recv.recvReady - 1, dispatcher := .delivering env ready ackSeq } }
  | settle {env : RelayEnvelope} {ackSeq : Nat} (hpc : c.recv.dispatcher = .settle env ackSeq) :
      DispatchEffect c { c with recv := { c.recv with
        recvDelivered := ackSeq, dispatcher := if ackSeq = 0 then c.handled env else .queue env ackSeq } }
  | queue {env : RelayEnvelope} {ackSeq : Nat} (hpc : c.recv.dispatcher = .queue env ackSeq) :
      DispatchEffect c { c.dispatcherAt (c.handled env) with
        acks := c.acks.queueACK c.life.closed (c.ackEnvelope ackSeq) }
  | finish {env : RelayEnvelope} (hpc : c.recv.dispatcher = .finish env) :
      DispatchEffect c { c.dispatcherAt (.release env) with acks := c.acks.finishReceiveACK }
  | release {env : RelayEnvelope} (hpc : c.recv.dispatcher = .release env) (hr : c.recv.reader = .idle) :
      DispatchEffect c { c with recv := { c.recv.release env with dispatcher := .select } }
  | shut (hpc : c.recv.dispatcher = .exiting) (hr : c.recv.reader = .idle) :
      DispatchEffect c { c with recv := { c.recv.shut with dispatcher := .exited } }

section

variable {c c' : RelayConnection} {how : Choice}

theorem order_none {r r' : Recv} {w : Int} {env : RelayEnvelope} (h : r.order w env = (r', none)) :
    r' = r ∧ r.expectedSeq < env.seq ∧ env.seq - r.expectedSeq ≥ uint64 w := by
  unfold Recv.order at h
  split at h
  · cases h
  · split at h
    · rename_i hgt
      split at h <;> cases h
      rename_i hw
      exact ⟨rfl, hgt, hw⟩
    · cases h

theorem handleEnvelope_effect {env : RelayEnvelope} (hpc : c.recv.dispatcher = .handle env) :
    DispatchEffect c (c.handleEnvelope env) := by
  have hmove : ∀ {pc : DispatchPc}, DispatchMove c (.handle env) pc → DispatchEffect c (c.dispatcherAt pc) :=
    fun h => .move (hpc ▸ h)
  unfold RelayConnection.handleEnvelope
  split <;> rename_i hk
  · exact .openAck hpc hk
  · exact .close hpc hk
  · exact .error hpc hk
  · unfold RelayConnection.handleData
    split <;> rename_i ho
    · exact hmove (.one hk (by rw [ho]; nofun))
    · exact hmove (.one hk (by rw [ho]; nofun))
    · split <;> rename_i hr
      · exact .order hpc hk ho hr
      · obtain ⟨rfl, hout⟩ := order_none hr
        exact hmove (.outside hk ho hout)
  · exact .ack hpc hk
  · exact .ping hpc hk
  · exact hmove (.skip (.inl hk))
  · exact hmove (.skip (.inr hk))

/-- The list of effects of `dispatchLoop` is complete. -/
theorem dispatchStep_effect (h : c.dispatchStep how = some c') : DispatchEffect c c' := by
  have hmove : ∀ {pc pc' : DispatchPc}, c.recv.dispatcher = pc → DispatchMove c pc pc' →
      DispatchEffect c (c.dispatcherAt pc') := fun hpc h => .move (hpc ▸ h)
  unfold RelayConnection.dispatchStep at h
  split at h <;> rename_i hpc
  · split at h <;> cases h
    rename_i hq
    exact .take hpc hq
  · split at h <;> cases h
    rename_i hc
    exact hmove hpc (.stop hc)
  · split at h
    · rename_i hc
      cases h
      exact hmove hpc (.halt hc)
    · rename_i hc
      rw [Bool.not_eq_true] at hc
      split at h <;> rename_i ht <;> cases h
      · exact hmove hpc (.terminal hc ht)
      · exact hmove hpc (.checked hc (by simpa using ht))
  · split at h <;> rename_i hi <;> cases h
    · exact hmove hpc (.idle hi)
    · exact hmove hpc (.wait hi)
  · split at h <;> rename_i hi <;> cases h
    exact hmove hpc (.waited (.inl hi))
  · split at h <;> rename_i hc <;> cases h
    exact hmove hpc (.waited (.inr hc))
  · cases h
    exact handleEnvelope_effect hpc
  · unfold RelayConnection.deliver at h
    split at h <;> rename_i hroom <;> cases h
    exact .deliverOne hpc hroom
  · split at h <;> rename_i hc <;> cases h
    exact hmove hpc (.abandonOne hc)
  · unfold RelayConnection.deliver at h
    split at h <;> rename_i hroom <;> cases h
    exact .deliver hpc hroom
  · split at h <;> rename_i hc <;> cases h
    exact hmove hpc (.abandon hc)
  · cases h
    exact .delivered hpc
  · cases h
    exact .settle hpc
  · cases h
    exact .queue hpc
  · cases h
    exact hmove hpc .pinged
  · cases h
    exact .finish hpc
  · split at h <;> rename_i hr <;> cases h
    exact .release hpc hr
  · split at h <;> rename_i hr <;> cases h
    exact .shut hpc hr
  · cases h

theorem DispatchEffect.xmit (h : DispatchEffect c c') : XmitEffect c c'.xmit := by
  cases h with
  | ack hpc hk => exact .ack hk (by simp [Recv.frames, hpc, DispatchPc.frames])
  | _ => exact .same rfl

end

/-! ## Calls of the application -/

/-- The steps that only move a call. -/
inductive CallMove (c : RelayConnection) : CallPc → CallPc → Prop
  | sendLock {data : Bytes} (hl : c.locked = false) : CallMove c (.send data .lock) (.send data .state)
  | sendOpen {data : Bytes} (ho : c.life.state = .stateOpen) : CallMove c (.send data .state) (.send data .select)
  | flushLock (hl : c.locked = false) : CallMove c (.flush .lock) (.flush .state)
  | flushOpen (ho : c.life.state = .stateOpen) : CallMove c (.flush .state) (.flush .push)
  | flushNotOpen (ho : c.life.state ≠ .stateOpen) : CallMove c (.flush .state) (.flush .error)
  | flushBarrier {id target : Nat} (ht : c.xmit.targets.lookup id = some target) :
      CallMove c (.flush (.barrier id)) (.flush (.poll target))
  | flushPoll {target : Nat} (hc : c.life.closed = false) : CallMove c (.flush (.poll target)) (.flush (.count target))
  | flushCount {target : Nat} (hp : c.xmit.unacked.keys.any (· < target) = true) :
      CallMove c (.flush (.count target)) (.flush (.tick target))
  | flushTick {target : Nat} : CallMove c (.flush (.tick target)) (.flush (.poll target))
  | flushClosed {pc : FlushPc} (hc : c.life.closed = true) : CallMove c (.flush pc) (.flush .error)
  | closeLock {before : Nat} (hl : c.locked = false) : CallMove c (.close before .lock) (.close before .state)
  | closeFlushed {before : Nat} (hf : c.xmit.flushCh = true) :
      CallMove c (.close before .flush) (.close before (if c.reliable then .pending else .readIdle))
  | closePending {before : Nat} (hu : c.xmit.unacked.keys ≠ []) :
      CallMove c (.close before .pending) (.close before .tick)
  | closeDrained {before : Nat} (hu : c.xmit.unacked.keys = []) :
      CallMove c (.close before .pending) (.close before .readIdle)
  | closeTick {before : Nat} : CallMove c (.close before .tick) (.close before .pending)
  | closeIdle {before : Nat} (hi : c.acks.ackIdle = none) :
      CallMove c (.close before .readIdle) (.close before .context)
  | closeWait {before idle : Nat} (hi : c.acks.ackIdle = some idle) :
      CallMove c (.close before .readIdle) (.close before (.waitIdle idle))
  | closeWaited {before idle : Nat} (h : c.acks.ackIdle ≠ some idle ∨ c.life.closed = true) :
      CallMove c (.close before (.waitIdle idle)) (.close before .context)
  | closeContext {before : Nat} (hc : c.life.closed = false) :
      CallMove c (.close before .context) (.close before .start)
  | closeClosed {before : Nat} {pc : ClosePc} (hpc : pc ≠ .lock ∧ pc ≠ .state) (hc : c.life.closed = true) :
      CallMove c (.close before pc) (.close before .result)
  | receiveClosed {timed : Bool} {err : Err} (hc : c.life.closed = true) :
      CallMove c (.receive timed .select) (.receive timed (.terminal err))
  | receiveTerminal {timed : Bool} {fallback : Err} :
      CallMove c (.receive timed (.terminal fallback))
        (.receive timed (.drain c.life.remoteClosed c.life.closeErr fallback))

/-- The steps that only return. -/
inductive CallRet (c : RelayConnection) : CallPc → Return → Prop
  | send {data : Bytes} {pc : SendPc} {err : Err} : CallRet c (.send data pc) (.send data (some err))
  | flush {pc : FlushPc} {err : Err} : CallRet c (.flush pc) (.flush (some err))
  | flushed {target : Nat} (hp : c.xmit.unacked.keys.any (· < target) = false) :
      CallRet c (.flush (.count target)) (.flush none)
  | closeNotOpen {before : Nat} (ho : c.life.state ≠ .stateOpen) :
      CallRet c (.close before .state) (.close before c.life.closeErr)
  | closeStart {before : Nat} (hc : c.life.closed = true) :
      CallRet c (.close before .start) (.close before c.life.closeErr)
  | closeResult {before : Nat} : CallRet c (.close before .result) (.close before c.life.closeErr)
  | timeout {pc : ReceivePc} : CallRet c (.receive true pc) .timeout
  | terminal {timed remoteClosed : Bool} {cause : Option Err} {fallback : Err}
      (hd : remoteClosed = true → c.recv.recvCh = []) :
      CallRet c (.receive timed (.drain remoteClosed cause fallback))
        (.terminal (cause.getD fallback) c.recv.consumed)

/-- Call `i` goes on from `pc`. -/
inductive CallEffect (c : RelayConnection) (i : Nat) : CallPc → RelayConnection → Prop
  | move {pc pc' : CallPc} (h : CallMove c pc pc') : CallEffect c i pc (c.callAt i pc')
  | ret {pc : CallPc} {r : Return} (h : CallRet c pc r) : CallEffect c i pc (c.ret i r)
  | send {data : Bytes} {t : Xmit} (h : c.xmit.push c.sendCap (.data data) = some t) :
      CallEffect c i (.send data .select) ({ c with xmit := t }.ret i (.send data none))
  | barrier {t : Xmit} (h : c.xmit.push c.sendCap (.barrier c.xmit.barriers) = some t) :
      CallEffect c i (.flush .push)
        ({ c with xmit := { t with barriers := t.barriers + 1 } }.callAt i (.flush (.barrier c.xmit.barriers)))
  | closing {before : Nat} (ho : c.life.state = .stateOpen) :
      CallEffect c i (.close before .state)
        { c.callAt i (.close before .push) with life := { c.life with state := .stateClosing } }
  | marker {before : Nat} {t : Xmit} (h : c.xmit.push c.sendCap .marker = some t) :
      CallEffect c i (.close before .push) ({ c with xmit := t }.callAt i (.close before .flush))
  | close {before : Nat} (hc : c.life.closed = false) :
      CallEffect c i (.close before .start) ((c.callAt i (.close before .sent)).emit (c.envelope .kindClose))
  | closed {before : Nat} {err : Option Err} :
      CallEffect c i (.close before .sent) ((c.callAt i (.close before .result)).closeWith err)
  | receive {timed : Bool} {pc : ReceivePc} {data : Bytes} {rest : List Bytes} (h : c.recv.recvCh = data :: rest) :
      CallEffect c i (.receive timed pc) ((c.take data rest).ret i (.receive data))

section

variable {c c' : RelayConnection} {i : Nat} {how : Choice}

theorem sendStep_effect {data : Bytes} {pc : SendPc} (h : c.sendStep i data pc how = some c') :
    CallEffect c i (.send data pc) c' := by
  unfold RelayConnection.sendStep at h
  split at h
  · split at h <;> cases h
    rename_i hl
    exact .move (.sendLock (by simpa using hl))
  · split at h <;> rename_i ho <;> cases h
    · exact .move (.sendOpen ho)
    · exact .ret .send
  · obtain ⟨t, ht, rfl⟩ := Option.map_eq_some_iff.mp h
    exact .send ht
  all_goals first
    | (split at h <;> cases h; exact .ret .send)
    | cases h

theorem flushStep_effect {pc : FlushPc} (h : c.flushStep i pc how = some c') : CallEffect c i (.flush pc) c' := by
  unfold RelayConnection.flushStep at h
  split at h
  · split at h <;> cases h
    rename_i hl
    exact .move (.flushLock (by simpa using hl))
  · cases h; exact .ret .flush
  · split at h <;> rename_i ho <;> cases h
    · exact .move (.flushOpen ho)
    · exact .move (.flushNotOpen ho)
  · obtain ⟨t, ht, rfl⟩ := Option.map_eq_some_iff.mp h
    exact .barrier ht
  · cases h; exact .ret .flush
  · split at h <;> rename_i hc <;> cases h
    exact .move (.flushClosed hc)
  · split at h <;> rename_i ht <;> cases h
    exact .move (.flushBarrier ht)
  · cases h; exact .ret .flush
  · split at h <;> rename_i hc <;> cases h
    exact .move (.flushClosed hc)
  · split at h <;> rename_i hc <;> cases h
    · exact .move (.flushClosed hc)
    · exact .move (.flushPoll (by simpa using hc))
  · cases h; exact .ret .flush
  · split at h <;> rename_i hp <;> cases h
    · exact .move (.flushCount hp)
    · exact .ret (.flushed (by simpa using hp))
  · cases h; exact .move .flushTick
  · cases h; exact .ret .flush
  · split at h <;> rename_i hc <;> cases h
    exact .move (.flushClosed hc)
  · cases h; exact .ret .flush
  · cases h

theorem closeStep_effect {before : Nat} {pc : ClosePc} (h : c.closeStep i before pc how = some c') :
    CallEffect c i (.close before pc) c' := by
  unfold RelayConnection.closeStep at h
  simp only at h
  split at h
  · split at h <;> cases h
    rename_i hl
    exact .move (.closeLock (by simpa using hl))
  · split at h <;> rename_i ho <;> cases h
    · exact .closing ho
    · exact .ret (.closeNotOpen ho)
  · obtain ⟨t, ht, rfl⟩ := Option.map_eq_some_iff.mp h
    exact .marker ht
  · split at h <;> rename_i hc <;> cases h
    exact .move (.closeClosed ⟨nofun, nofun⟩ hc)
  · split at h <;> rename_i hf <;> cases h
    exact .move (.closeFlushed hf)
  · split at h <;> rename_i hc <;> cases h
    exact .move (.closeClosed ⟨nofun, nofun⟩ hc)
  · cases h
    split <;> rename_i hu
    · exact .move (.closeDrained hu)
    · exact .move (.closePending hu)
  · cases h; exact .move .closeTick
  · split at h <;> rename_i hc <;> cases h
    exact .move (.closeClosed ⟨nofun, nofun⟩ hc)
  · split at h <;> rename_i hi <;> cases h
    · exact .move (.closeIdle hi)
    · exact .move (.closeWait hi)
  · split at h <;> rename_i hi <;> cases h
    exact .move (.closeWaited (.inl hi))
  · split at h <;> rename_i hc <;> cases h
    exact .move (.closeWaited (.inr hc))
  · split at h <;> rename_i hc <;> cases h
    · exact .move (.closeClosed ⟨nofun, nofun⟩ hc)
    · exact .move (.closeContext (by simpa using hc))
  · split at h <;> rename_i hc <;> cases h
    · exact .ret (.closeStart hc)
    · exact .close (by simpa using hc)
  · cases h; exact .closed
  · split at h <;> rename_i hc <;> cases h
    exact .move (.closeClosed ⟨nofun, nofun⟩ hc)
  · cases h; exact .ret .closeResult
  · cases h

theorem receiveStep_effect {timed : Bool} {pc : ReceivePc} (h : c.receiveStep i timed pc how = some c') :
    CallEffect c i (.receive timed pc) c' := by
  unfold RelayConnection.receiveStep at h
  split at h
  · split at h <;> rename_i hr <;> cases h
    exact .receive hr
  · split at h <;> rename_i ht <;> cases h
    subst ht
    exact .ret .timeout
  · split at h <;> rename_i hc <;> cases h
    exact .move (.receiveClosed hc)
  · split at h <;> rename_i hc <;> cases h
    exact .move (.receiveClosed hc)
  · cases h; exact .move .receiveTerminal
  · split at h <;> cases h
    · rename_i hr
      exact .receive hr
    · rename_i hne
      refine .ret (.terminal fun hrc => ?_)
      cases hr : c.recv.recvCh with
      | nil => rfl
      | cons data rest => exact absurd hr (hne data rest hrc)
  · cases h

theorem callStep_effect (h : c.callStep i how = some c') : ∃ pc, c.calls[i]? = some pc ∧ CallEffect c i pc c' := by
  unfold RelayConnection.callStep at h
  split at h <;> rename_i hpc
  · exact ⟨_, hpc, sendStep_effect h⟩
  · exact ⟨_, hpc, flushStep_effect h⟩
  · exact ⟨_, hpc, closeStep_effect h⟩
  · exact ⟨_, hpc, receiveStep_effect h⟩
  · cases h

theorem CallEffect.xmit {pc : CallPc} (h : CallEffect c i pc c') : XmitEffect c c'.xmit := by
  cases h with
  | @send _ t h => exact .push t.barriers h
  | barrier h => exact .push _ h
  | @marker _ t h => exact .push t.barriers h
  | _ => exact .same rfl

/-! ## The acknowledgement worker -/

theorem closeACKIdleLocked_held (a : Acks) : a.closeACKIdleLocked.held = a.held := by
  unfold Acks.closeACKIdleLocked
  split <;> rfl

/-- What a step of `receiveACKLoop` leaves alone, and the envelopes it has in hand. -/
structure AckFrame (c c' : RelayConnection) : Prop extends SameConn c c' where
  recv : c'.recv = c.recv
  xmit : c'.xmit = c.xmit
  calls : c'.calls = c.calls
  returns : c'.returns = c.returns
  life : MayFail c.life c'.life
  held : ∀ env ∈ c'.acks.held, env ∈ c.acks.held
  out : ∃ extra, c'.out = c.out ++ extra ∧ ∀ env ∈ extra, env ∈ c.acks.held

/-- A step of `receiveACKLoop` that hands nothing out. -/
theorem AckFrame.quiet {a : Acks} {l : Life} (life : MayFail c.life l) (held : ∀ env ∈ a.held, env ∈ c.acks.held) :
    AckFrame c { c with acks := a, life := l } :=
  ⟨⟨rfl, rfl, rfl⟩, rfl, rfl, rfl, rfl, life, held, [], (List.append_nil _).symm, List.forall_mem_nil _⟩

theorem AckFrame.emit {a : Acks} {env : RelayEnvelope} (held : ∀ e ∈ a.held, e ∈ c.acks.held)
    (he : env ∈ c.acks.held) : AckFrame c ({ c with acks := a }.emit env) :=
  ⟨⟨rfl, rfl, rfl⟩, rfl, rfl, rfl, rfl, .inl rfl, held, [env], rfl, fun _ hm => List.mem_singleton.mp hm ▸ he⟩

theorem mem_held {a : Acks} {env : RelayEnvelope} : env ∈ a.held ↔ a.ackPending = some env ∨ env ∈ a.worker.frames := by
  simp only [Acks.held, List.mem_append, Option.mem_toList]

theorem ackStep_frame (h : c.ackStep how = some c') : AckFrame c c' := by
  have hpending : ∀ {a : Acks}, a.ackPending = c.acks.ackPending → a.worker.frames = [] →
      ∀ env ∈ a.held, env ∈ c.acks.held := by
    intro a hp hw env he
    rw [mem_held, hp, hw] at he
    exact mem_held.mpr (.inl (he.resolve_right nofun))
  unfold RelayConnection.ackStep at h
  split at h <;> rename_i hpc
  · split at h <;> cases h
    exact .quiet (.inl rfl) (hpending rfl rfl)
  · split at h <;> cases h
    exact .quiet (.inl rfl) (hpending rfl rfl)
  · have hgrab : ∀ pc, ({ c.acks.grab with worker := pc } : Acks).held = pc.frames := by
      intro pc
      unfold Acks.grab Acks.closeACKIdleLocked
      split <;> rfl
    split at h <;> rename_i hp <;> cases h
    · exact .quiet (.inl rfl) (by rw [hgrab]; exact List.forall_mem_nil _)
    · rename_i env
      have henv : env ∈ c.acks.held := mem_held.mpr (.inl hp)
      refine .emit (fun e he => ?_) henv
      rw [hgrab] at he
      rwa [List.mem_singleton.mp he]
  · simp only at h
    split at h <;> cases h
    · refine .quiet (.inl rfl) fun e he => ?_
      rw [mem_held, hpc]
      exact mem_held.mp he
    · exact .quiet (.inl rfl) (hpending rfl rfl)
  · rename_i env _
    cases h
    refine .emit (fun e he => ?_) (mem_held.mpr (.inr (by rw [hpc]; exact List.mem_cons_self)))
    rw [mem_held, hpc]
    exact mem_held.mp he
  · split at h <;> cases h
    exact .quiet (.inl rfl) (hpending rfl rfl)
  · cases h
    refine .quiet (.inl rfl) (hpending ?_ ?_)
    · unfold Acks.sent Acks.closeACKIdleLocked
      (repeat' split) <;> rfl
    · split <;> rfl
  · cases h
    exact .quiet (.inr ⟨_, rfl⟩) (hpending rfl rfl)
  · cases h

/-- The steps of `receiveACKLoop`. -/
inductive WorkerEffect (c : RelayConnection) : RelayConnection → Prop
  | wake (hpc : c.acks.worker = .select) (ht : c.acks.ackOut = some true) :
      WorkerEffect c { c with acks := { c.acks with ackOut := some false, worker := .grab } }
  | stop (hpc : c.acks.worker = .select) (hc : c.life.closed = true) : WorkerEffect c (c.workerAt .exited)
  | rest (hpc : c.acks.worker = .grab) (hp : c.acks.ackPending = none) :
      WorkerEffect c { c with acks := { c.acks.grab with worker := .select } }
  | grab {env : RelayEnvelope} (hpc : c.acks.worker = .grab) (hp : c.acks.ackPending = some env) :
      WorkerEffect c ({ c with acks := { c.acks.grab with worker := .sending env 0 } }.emit env)
  | retry {env : RelayEnvelope} {retries : Nat} (hpc : c.acks.worker = .sending env retries) :
      WorkerEffect c (c.workerAt (.delay env (retries + 1)))
  | accepted {env : RelayEnvelope} {retries : Nat} (hpc : c.acks.worker = .sending env retries) :
      WorkerEffect c { c with acks := { c.acks with
        worker := .sent none, ackAccepted := c.acks.ackAccepted ++ [env.ackSeq] } }
  | refused {env : RelayEnvelope} {retries : Nat} {err : Err} (hpc : c.acks.worker = .sending env retries) :
      WorkerEffect c (c.workerAt (.sent (some err)))
  | resend {env : RelayEnvelope} {retries : Nat} (hpc : c.acks.worker = .delay env retries) :
      WorkerEffect c ((c.workerAt (.sending env retries)).emit env)
  | cancel {env : RelayEnvelope} {retries : Nat} (hpc : c.acks.worker = .delay env retries) (hc : c.life.closed = true) :
      WorkerEffect c (c.workerAt (.sent (some .context)))
  | sent (hpc : c.acks.worker = .sent none) :
      WorkerEffect c { c with acks := { c.acks.sent none with worker := .grab } }
  | failed {err : Err} (hpc : c.acks.worker = .sent (some err)) :
      WorkerEffect c { c with acks := { c.acks.sent (some err) with worker := .failing err } }
  | exit {err : Err} (hpc : c.acks.worker = .failing err) :
      WorkerEffect c ((c.workerAt .exited).closeWith (some err))

theorem ackStep_effect (h : c.ackStep how = some c') : WorkerEffect c c' := by
  unfold RelayConnection.ackStep at h
  split at h <;> rename_i hpc
  · split at h <;> rename_i ht <;> cases h
    exact .wake hpc ht
  · split at h <;> rename_i hc <;> cases h
    exact .stop hpc hc
  · split at h <;> rename_i hp <;> cases h
    · exact .rest hpc hp
    · exact .grab hpc hp
  · rename_i env _ err
    simp only at h
    split at h
    · cases h
      exact .retry hpc
    · cases h
      cases c.sendResult env err with
      | none => exact .accepted hpc
      | some e => exact .refused hpc
  · cases h
    exact .resend hpc
  · split at h <;> rename_i hc <;> cases h
    exact .cancel hpc hc
  · rename_i err
    cases h
    cases err with
    | none => exact .sent hpc
    | some e => exact .failed hpc
  · cases h
    exact .exit hpc
  · cases h

/-! ## The sending side as a whole -/

theorem loopStep_rest (h : c.loopStep how = some c') : SameRest c c' := by
  have hstart : ∀ back, SameRest c (c.startRetry back) := by
    intro back
    unfold RelayConnection.startRetry
    (repeat' split) <;> exact ⟨⟨rfl, rfl, rfl⟩, rfl, rfl, rfl, rfl, .inl rfl⟩
  have hfinish : ∀ back, c.finishRetry back = some c' → SameRest c c' := by
    intro back h
    unfold RelayConnection.finishRetry at h
    split at h <;> cases h
    exact ⟨⟨rfl, rfl, rfl⟩, rfl, rfl, rfl, rfl, .inl rfl⟩
  unfold RelayConnection.loopStep at h
  split at h
  case h_3 => split at h <;> cases h; exact hstart _
  case h_4 => exact hfinish _ h
  case h_10 => cases h; exact hstart _
  case h_11 => exact hfinish _ h
  case h_15 =>
    cases h
    exact ⟨⟨rfl, rfl, rfl⟩, rfl, rfl, rfl, rfl, sentData_life (c.loopAt .select) _ _⟩
  case h_17 =>
    obtain ⟨⟨c₁, pc'⟩, hr, rfl⟩ := Option.map_eq_some_iff.mp h
    have hf := (retryStep_frame hr).toSameRest
    exact ⟨⟨hf.config, hf.relayID, hf.mySession⟩, hf.recv, hf.acks, hf.calls, hf.returns, hf.life⟩
  all_goals (repeat' split at h) <;> cases h <;> exact ⟨⟨rfl, rfl, rfl⟩, rfl, rfl, rfl, rfl, .inl rfl⟩

theorem roundStep_rest (h : c.roundStep how = some c') : SameRest c c' := by
  unfold RelayConnection.roundStep at h
  split at h
  · obtain ⟨⟨c₁, pc'⟩, hr, rfl⟩ := Option.map_eq_some_iff.mp h
    have hf := (retryStep_frame hr).toSameRest
    exact ⟨⟨hf.config, hf.relayID, hf.mySession⟩, hf.recv, hf.acks, hf.calls, hf.returns, hf.life⟩
  · cases h

theorem taskStep_rest {err : Option Err} (h : c.taskStep i err = some c') : SameRest c c' ∧ c'.out = c.out := by
  unfold RelayConnection.taskStep at h
  (repeat' split at h) <;> cases h
  · exact ⟨⟨⟨rfl, rfl, rfl⟩, rfl, rfl, rfl, rfl, .inl rfl⟩, rfl⟩
  · exact ⟨⟨⟨rfl, rfl, rfl⟩, rfl, rfl, rfl, rfl, sentData_life { c with xmit.tasks := _ } _ _⟩, rfl⟩

/-! ### Envelopes handed out -/

/-- The envelopes a step can hand out. -/
inductive Emits (c : RelayConnection) : RelayEnvelope → Prop
  | data {env : RelayEnvelope} (h : env ∈ c.xmit.carried) : Emits c env
  | plain {env : RelayEnvelope} (hr : c.reliable = false) : Emits c env
  | ack {env : RelayEnvelope} (h : env ∈ c.acks.held) : Emits c env
  | close {i before : Nat} (hpc : c.calls[i]? = some (.close before .start)) (hc : c.life.closed = false) :
      Emits c (c.envelope .kindClose)
  | openAck : Emits c (c.envelope .kindOpenAck)
  | error : Emits c (c.envelope .kindError)

/-- `c'` has handed out what `c` has, and envelopes that `c` can. -/
def Outgoing (c c' : RelayConnection) : Prop := ∃ extra, c'.out = c.out ++ extra ∧ ∀ env ∈ extra, Emits c env

theorem Outgoing.none (h : c'.out = c.out) : Outgoing c c' := ⟨[], by rw [h, List.append_nil], List.forall_mem_nil _⟩

theorem Outgoing.one {env : RelayEnvelope} (h : c'.out = c.out ++ [env]) (he : Emits c env) : Outgoing c c' :=
  ⟨[env], h, fun _ hm => List.mem_singleton.mp hm ▸ he⟩

theorem loopStep_out (h : c.loopStep how = some c') : Outgoing c c' := by
  have hstart : ∀ back, Outgoing c (c.startRetry back) := by
    intro back
    unfold RelayConnection.startRetry
    (repeat' split) <;> exact .none rfl
  have hfinish : ∀ back, c.finishRetry back = some c' → Outgoing c c' := by
    intro back h
    unfold RelayConnection.finishRetry at h
    split at h <;> cases h
    exact .none rfl
  unfold RelayConnection.loopStep at h
  split at h
  case h_3 => split at h <;> cases h; exact hstart _
  case h_4 => exact hfinish _ h
  case h_8 =>
    split at h
    · split at h <;> cases h <;> exact .none rfl
    · rename_i hr
      cases h
      exact .one rfl (.plain (by simpa using hr))
  case h_10 => cases h; exact hstart _
  case h_11 => exact hfinish _ h
  case h_13 hloop =>
    split at h <;> cases h
    exact .one rfl (.data (Xmit.mem_carried.mpr (.inl (by rw [hloop]; exact List.mem_cons_self))))
  case h_17 hloop _ =>
    obtain ⟨⟨c₁, pc'⟩, hr, rfl⟩ := Option.map_eq_some_iff.mp h
    obtain ⟨extra, ho, he⟩ := (retryStep_frame hr).out
    exact ⟨extra, ho, fun env hm => .data (Xmit.mem_carried.mpr (.inl (by rw [hloop]; exact he env hm)))⟩
  all_goals (repeat' split at h) <;> cases h <;> exact .none rfl

theorem roundStep_out (h : c.roundStep how = some c') : Outgoing c c' := by
  unfold RelayConnection.roundStep at h
  split at h
  · rename_i pc hpc
    obtain ⟨⟨c₁, pc'⟩, hr, rfl⟩ := Option.map_eq_some_iff.mp h
    obtain ⟨extra, ho, he⟩ := (retryStep_frame hr).out
    exact ⟨extra, ho, fun env hm => .data (Xmit.mem_carried.mpr (.inr (.inl (by rw [hpc]; exact he env hm))))⟩
  · cases h

theorem readerStep_out (h : c.readerStep = some c') : c'.out = c.out ∧ c'.calls = c.calls ∧ c'.returns = c.returns ∧
    SameConn c c' := by
  cases readerStep_effect h <;> exact ⟨rfl, rfl, rfl, rfl, rfl, rfl⟩

theorem DispatchEffect.out (h : DispatchEffect c c') : Outgoing c c' := by
  cases h with
  | ping hpc hk => exact .one rfl .error
  | _ => exact .none rfl

theorem CallEffect.out {pc : CallPc} (hpc : c.calls[i]? = some pc) (h : CallEffect c i pc c') : Outgoing c c' := by
  cases h with
  | close hc => exact .one rfl (.close hpc hc)
  | _ => exact .none rfl

end

end Turntf.Relay
