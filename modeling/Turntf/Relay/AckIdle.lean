/-
  Turntf.Relay.AckIdle — `Close` and the acknowledgements still owed (`waitReceiveACK`).

  `ackIdle` is the channel `Close` waits for before it sends CLOSE. It is there while a frame
  is registered (`ackGenerating`), an acknowledgement is pending (`ackPending`) or one is
  being sent (`ackSending`); when all three are over, every frame pushed has been acknowledged
  and the acknowledgement accepted.

  After a failed sending `receiveACKLoop` resets `ackSending`, leaves `ackIdle` alone and
  closes the connection in a later section. A `finishReceiveACK` in between finds nothing
  owed and closes `ackIdle`: `close_overtakes_ack` is a run in which CLOSE is then sent though
  the acknowledgement was not.
  - `close_after_acks`: as long as `finishReceiveACK` does not run there, CLOSE is sent only
    when the acknowledgement of every frame pushed before the call of `Close` was accepted.
-/

import Turntf.Relay.Budget

namespace Turntf.Relay

open Lts Numbered

section

variable {c c' : RelayConnection}

/-! ## The channel -/

/-- An acknowledgement that was not accepted is on its way to close the connection. -/
def AckPc.lost : AckPc → Bool
  | .sent (some _) | .failing _ => true
  | _ => false

def AckPc.isFailing : AckPc → Bool
  | .failing _ => true
  | _ => false

/-- The worker is between taking an acknowledgement and the section after its sending. -/
def AckPc.busy : AckPc → Bool
  | .sending _ _ | .delay _ _ | .sent _ => true
  | _ => false

structure Acks.Idle (a : Acks) : Prop where
  off : a.ackOut = none → a.worker = .off
  busy : a.worker.busy = true → a.ackSending = true
  idle : a.ackIdle = none →
    a.ackGenerating = 0 ∧ a.ackSending = false ∧ a.ackPending = none ∧ a.worker.isFailing = false

theorem Acks.Idle.openIdle {a : Acks} (off : a.ackOut = none → a.worker = .off)
    (busy : a.worker.busy = true → a.ackSending = true) : a.openIdle.Idle := by
  unfold Acks.openIdle
  split
  · exact ⟨off, busy, nofun⟩
  · rename_i hi
    exact ⟨off, busy, fun hn => by rw [hi] at hn; cases hn⟩

/-- Closing the channel needs that nothing is owed and no failure is on its way. -/
theorem Acks.Idle.closeACKIdleLocked {a : Acks} (off : a.ackOut = none → a.worker = .off)
    (busy : a.worker.busy = true → a.ackSending = true) (hf : a.worker.isFailing = false)
    (hi : a.ackIdle = none → a.ackGenerating = 0 ∧ a.ackSending = false ∧ a.ackPending = none) :
    a.closeACKIdleLocked.Idle := by
  unfold Acks.closeACKIdleLocked
  split
  · rename_i h
    exact ⟨off, busy, fun _ => ⟨h.1, h.2.1, h.2.2, hf⟩⟩
  · exact ⟨off, busy, fun hn => ⟨(hi hn).1, (hi hn).2.1, (hi hn).2.2, hf⟩⟩

theorem Acks.Idle.queueACK {a : Acks} (h : a.Idle) (closed : Bool) (env : RelayEnvelope) :
    (a.queueACK closed env).Idle := by
  unfold Acks.queueACK
  split
  · exact h
  · have hs : a.startWorker.worker.busy = true → a.startWorker.ackSending = true := by
      unfold Acks.startWorker
      split
      · nofun
      · exact h.busy
    have ho : a.startWorker.ackOut ≠ none := by
      unfold Acks.startWorker
      split
      · nofun
      · rename_i hout
        rw [hout]
        nofun
    have := Acks.Idle.openIdle (a := { a.startWorker with
      ackPending := some (Acks.coalesce a.startWorker.ackPending env) }) (fun hn => absurd hn ho) hs
    refine ⟨nofun, this.busy, this.idle⟩

/-- Where the worker is plays no part in closing the channel. -/
theorem closeACKIdleLocked_worker (a : Acks) (pc : AckPc) :
    { a.closeACKIdleLocked with worker := pc } = { a with worker := pc }.closeACKIdleLocked := by
  unfold Acks.closeACKIdleLocked
  by_cases h : a.ackGenerating = 0 ∧ a.ackSending = false ∧ a.ackPending = none
  · rw [if_pos h, if_pos h]
  · rw [if_neg h, if_neg h]

theorem WorkerEffect.idle (he : WorkerEffect c c') (h : c.acks.Idle) : c'.acks.Idle := by
  have hbusy : c.acks.worker.busy = true → c.acks.ackIdle ≠ none := by
    intro hb hn
    have := h.busy hb
    rw [(h.idle hn).2.1] at this
    cases this
  have hon : c.acks.worker ≠ .off → c.acks.ackOut ≠ none := fun hw hn => hw (h.off hn)
  have hidle : c.acks.ackIdle = none → c.acks.ackGenerating = 0 ∧ c.acks.ackSending = false ∧ c.acks.ackPending = none :=
    fun hn => ⟨(h.idle hn).1, (h.idle hn).2.1, (h.idle hn).2.2.1⟩
  -- an acknowledgement is being sent: the channel is there
  have hsending : ∀ {a : Acks}, c.acks.worker.busy = true → a.ackOut = c.acks.ackOut → a.ackIdle = c.acks.ackIdle →
      (a.worker.busy = true → a.ackSending = true) → a.Idle := by
    intro a hb ho hi hs
    refine ⟨fun hn => ?_, hs, fun hn => absurd (hi ▸ hn) (hbusy hb)⟩
    rw [ho] at hn
    refine absurd hn (hon fun hw => ?_)
    rw [hw] at hb
    cases hb
  cases he with
  | wake hpc => exact ⟨nofun, nofun, fun hn => ⟨(hidle hn).1, (hidle hn).2.1, (hidle hn).2.2, rfl⟩⟩
  | stop hpc =>
    exact ⟨fun hn => absurd hn (hon (by rw [hpc]; nofun)), nofun,
      fun hn => ⟨(hidle hn).1, (hidle hn).2.1, (hidle hn).2.2, rfl⟩⟩
  | rest hpc hp =>
    show Acks.Idle { c.acks.grab with worker := .select }
    rw [Acks.grab, closeACKIdleLocked_worker]
    refine .closeACKIdleLocked (fun hn => absurd hn (hon (by rw [hpc]; nofun))) nofun rfl fun hn => ?_
    exact ⟨(hidle hn).1, by rw [hp]; rfl, rfl⟩
  | @grab env hpc hp =>
    show Acks.Idle { c.acks.grab with worker := .sending env 0 }
    rw [Acks.grab, closeACKIdleLocked_worker]
    refine .closeACKIdleLocked (fun hn => absurd hn (hon (by rw [hpc]; nofun))) (fun _ => by rw [hp]; rfl) rfl fun hn => ?_
    have := (hidle hn).2.2
    rw [hp] at this
    cases this
  | retry hpc | accepted hpc | refused hpc | resend hpc | cancel hpc =>
    have hb : c.acks.worker.busy = true := by rw [hpc]; rfl
    exact hsending hb rfl rfl fun _ => h.busy hb
  | sent hpc =>
    show Acks.Idle { c.acks.sent none with worker := .grab }
    rw [Acks.sent, if_pos rfl, closeACKIdleLocked_worker]
    refine .closeACKIdleLocked (fun hn => absurd hn (hon (by rw [hpc]; nofun))) nofun rfl fun hn => ?_
    exact ⟨(hidle hn).1, rfl, (hidle hn).2.2⟩
  | failed hpc => exact hsending (by rw [hpc]; rfl) rfl rfl nofun
  | exit hpc =>
    refine ⟨fun hn => absurd hn (hon (by rw [hpc]; nofun)), nofun, fun hn => ?_⟩
    have := (h.idle hn).2.2.2
    rw [hpc] at this
    cases this

/-! ## The run condition -/

/-- `finishReceiveACK` does not run between a failed sending and the closing it causes. -/
def Unhurried (c : RelayConnection) (a : RelayConnection.Action) : Bool :=
  match c.acks.worker, a with
  | .failing _, .reader =>
    match c.recv.reader with
    | .undo _ => false
    | _ => true
  | .failing _, .dispatcher _ =>
    match c.recv.dispatcher with
    | .finish _ => false
    | _ => true
  | _, _ => true

theorem Unhurried.undo {env : RelayEnvelope} (h : Unhurried c .reader = true) (hpc : c.recv.reader = .undo env) :
    c.acks.worker.isFailing = false := by
  unfold Unhurried at h
  rw [hpc] at h
  cases hw : c.acks.worker with
  | failing e =>
    rw [hw] at h
    cases h
  | _ => rfl

theorem Unhurried.finish {how : Choice} {env : RelayEnvelope} (h : Unhurried c (.dispatcher how) = true)
    (hpc : c.recv.dispatcher = .finish env) : c.acks.worker.isFailing = false := by
  unfold Unhurried at h
  rw [hpc] at h
  cases hw : c.acks.worker with
  | failing e =>
    rw [hw] at h
    cases h
  | _ => rfl

/-- `finishReceiveACK` of a registered frame. -/
theorem Acks.Idle.finishReceiveACK {a : Acks} (h : a.Idle) (hg : 1 ≤ a.ackGenerating) (hf : a.worker.isFailing = false) :
    a.finishReceiveACK.Idle := by
  refine .closeACKIdleLocked h.off h.busy hf fun hn => ?_
  have := (h.idle hn).1
  omega

theorem Acks.Idle.step (h : c.acks.Idle) (hg : Generating c) {a : RelayConnection.Action} (hok : Unhurried c a = true)
    (hs : StepEffect c a c') : c'.acks.Idle := by
  cases hs.acks with
  | same ha => exact ha ▸ h
  | queue _ ha =>
    rw [ha]
    exact h.queueACK _ _
  | begin ha =>
    rw [ha]
    exact .openIdle h.off h.busy
  | finish hf ha =>
    rw [ha]
    cases hf with
    | @undo env hpc =>
      obtain ⟨hd, hr⟩ := Bool.and_eq_true_iff.mp (hg.undoes env hpc)
      have hone : env.dataCount = 1 := if_pos hd
      have hcount := hg.count hr
      rw [hpc] at hcount
      simp only [ReaderPc.generating, hone] at hcount
      exact h.finishReceiveACK (by omega) (Unhurried.undo hok hpc)
    | @finish how env hpc =>
      obtain ⟨hd, hr⟩ := Bool.and_eq_true_iff.mp (hg.finishes env hpc)
      have hone : env.dataCount = 1 := if_pos hd
      have hcount := hg.count hr
      rw [hpc] at hcount
      simp only [DispatchPc.generating, hone] at hcount
      exact h.finishReceiveACK (by omega) (Unhurried.finish hok hpc)
  | worker h' => exact (ackStep_effect h').idle h

/-! ## Every frame pushed is answered for -/

/-- The frame `handleData` is delivering or acknowledging. -/
def DispatchPc.handling : DispatchPc → Option RelayEnvelope
  | .deliverOne env | .deliver env _ _ _ _ | .delivered env _ _ | .settle env _ | .queue env _ => some env
  | _ => none

/-- An acknowledgement of number `s` or above was accepted or is held, or its sending has failed. -/
inductive Acks.Covers (a : Acks) (s : Nat) : Prop
  | accepted (n : Nat) (hn : n ∈ a.ackAccepted) (hs : s ≤ n) : Acks.Covers a s
  | held (env : RelayEnvelope) (he : env ∈ a.held) (hs : s ≤ env.ackSeq) : Acks.Covers a s
  | lost (h : a.worker.lost = true) : Acks.Covers a s

/-- An acknowledgement of number `s` was accepted, is held or about to be queued, or the connection
    is closed or about to be. -/
inductive Answer (c : RelayConnection) (s : Nat) : Prop
  | accepted (n : Nat) (hn : n ∈ c.acks.ackAccepted) (hs : s ≤ n) : Answer c s
  | held (env : RelayEnvelope) (he : env ∈ c.acks.held) (hs : s ≤ env.ackSeq) : Answer c s
  | queue (n : Nat) (hn : n ∈ c.recv.dispatcher.ackSeq?) (hs : s ≤ n) : Answer c s
  | lost (h : c.acks.worker.lost = true) : Answer c s
  | closed (h : c.life.closed = true) : Answer c s

theorem Acks.Covers.answer {s : Nat} (h : c.acks.Covers s) : Answer c s := by
  cases h with
  | accepted n hn hs => exact .accepted n hn hs
  | held env he hs => exact .held env he hs
  | lost h => exact .lost h

theorem Answer.covers_or {s : Nat} (h : Answer c s) :
    c.acks.Covers s ∨ (∃ n ∈ c.recv.dispatcher.ackSeq?, s ≤ n) ∨ c.life.closed = true := by
  cases h with
  | accepted n hn hs => exact .inl (.accepted n hn hs)
  | held env he hs => exact .inl (.held env he hs)
  | queue n hn hs => exact .inr (.inl ⟨n, hn, hs⟩)
  | lost h => exact .inl (.lost h)
  | closed h => exact .inr (.inr h)

theorem closeACKIdleLocked_accepted (a : Acks) : a.closeACKIdleLocked.ackAccepted = a.ackAccepted := by
  unfold Acks.closeACKIdleLocked
  split <;> rfl

theorem openIdle_worker (a : Acks) : a.openIdle.worker = a.worker ∧ a.openIdle.ackAccepted = a.ackAccepted := by
  unfold Acks.openIdle
  split <;> exact ⟨rfl, rfl⟩

/-- The worker gives up no acknowledgement unless the connection is closed. -/
theorem WorkerEffect.covers {s : Nat} (he : WorkerEffect c c') (h : c.acks.Covers s) :
    c'.acks.Covers s ∨ c'.life.closed = true := by
  -- the worker has the same envelopes in its hands, and the same failure
  have hsame : (∀ n ∈ c.acks.ackAccepted, n ∈ c'.acks.ackAccepted) → (∀ env ∈ c.acks.held, env ∈ c'.acks.held) →
      (c.acks.worker.lost = true → c'.acks.worker.lost = true) → c'.acks.Covers s ∨ c'.life.closed = true := by
    intro ha hh hw
    cases h with
    | accepted n hn hs => exact .inl (.accepted n (ha n hn) hs)
    | held env he hs => exact .inl (.held env (hh env he) hs)
    | lost h => exact .inl (.lost (hw h))
  have hheld : ∀ {pc : AckPc}, c'.acks.ackPending = c.acks.ackPending → c'.acks.worker = pc →
      (∀ env ∈ c.acks.worker.frames, env ∈ pc.frames) → ∀ env ∈ c.acks.held, env ∈ c'.acks.held := by
    intro pc hp hw hf env he
    rw [mem_held] at he ⊢
    rw [hp, hw]
    exact he.imp_right (hf env)
  cases he with
  | wake hpc | stop hpc =>
    refine hsame (fun _ h => h) (hheld rfl rfl ?_) ?_ <;> rw [hpc]
    · exact fun _ h => absurd h List.not_mem_nil
    · exact fun h => absurd h Bool.false_ne_true
  | rest hpc hp =>
    refine hsame (fun n hn => ?_) (fun env he => ?_) (by rw [hpc]; exact fun h => absurd h Bool.false_ne_true)
    · show n ∈ (Acks.closeACKIdleLocked _).ackAccepted
      rw [closeACKIdleLocked_accepted]
      exact hn
    · rw [mem_held, hp, hpc] at he
      rcases he with he | he <;> cases he
  | @grab env hpc hp =>
    refine hsame (fun n hn => ?_) (fun e he => ?_) (by rw [hpc]; exact fun h => absurd h Bool.false_ne_true)
    · show n ∈ (Acks.closeACKIdleLocked _).ackAccepted
      rw [closeACKIdleLocked_accepted]
      exact hn
    · rw [mem_held, hp, hpc] at he
      rcases he with he | he <;> cases he
      exact mem_held.mpr (.inr List.mem_cons_self)
  | retry hpc | resend hpc =>
    refine hsame (fun _ h => h) (hheld rfl rfl ?_) ?_ <;> rw [hpc]
    · exact fun _ h => h
    · exact fun h => absurd h Bool.false_ne_true
  | @accepted env _ hpc =>
    cases h with
    | accepted n hn hs => exact .inl (.accepted n (List.mem_append_left _ hn) hs)
    | held e he hs =>
      rw [mem_held, hpc] at he
      rcases he with he | he
      · exact .inl (.held e (mem_held.mpr (.inl he)) hs)
      · rw [List.mem_singleton.mp he] at hs
        exact .inl (.accepted env.ackSeq (List.mem_append_right _ List.mem_cons_self) hs)
    | lost h =>
      rw [hpc] at h
      cases h
  | refused | cancel | failed => exact .inl (.lost rfl)
  | sent hpc =>
    refine hsame (fun n hn => ?_) (fun env he => ?_) (by rw [hpc]; exact fun h => absurd h Bool.false_ne_true)
    · show n ∈ (Acks.closeACKIdleLocked _).ackAccepted
      rw [closeACKIdleLocked_accepted]
      exact hn
    · rw [mem_held, hpc] at he
      rw [mem_held]
      refine .inl ?_
      show (Acks.closeACKIdleLocked _).ackPending = some env
      unfold Acks.closeACKIdleLocked
      split <;> exact he.resolve_right List.not_mem_nil
  | exit => exact .inr (closeWithSource_closed _ _ _)

theorem Answer.worker {s : Nat} (h : Answer c s) (he : WorkerEffect c c') : Answer c' s := by
  have hr : c'.recv = c.recv ∧ (c.life.closed = true → c'.life.closed = true) := by
    cases he with
    | exit => exact ⟨rfl, fun _ => closeWithSource_closed _ _ _⟩
    | _ => exact ⟨rfl, id⟩
  rcases h.covers_or with h | ⟨n, hn, hs⟩ | h
  · exact (he.covers h).elim Acks.Covers.answer .closed
  · exact .queue n (by rw [hr.1]; exact hn) hs
  · exact .closed (hr.2 h)

/-- `queueACK` of an open connection: what was held stays covered, and so is the new number. -/
theorem queueACK_answers {a : Acks} (hoff : a.ackOut = none → a.worker = .off) (env : RelayEnvelope) :
    (∀ e, e ∈ a.held ∨ e = env → ∃ e' ∈ (a.queueACK false env).held, e.ackSeq ≤ e'.ackSeq) ∧
      (a.queueACK false env).ackAccepted = a.ackAccepted ∧
      (a.worker.lost = true → (a.queueACK false env).worker.lost = true) := by
  have hw : a.startWorker.ackPending = a.ackPending ∧ a.startWorker.ackAccepted = a.ackAccepted ∧
      (a.worker ≠ .off → a.startWorker.worker = a.worker) := by
    unfold Acks.startWorker
    split
    · rename_i hn
      exact ⟨rfl, rfl, fun hne => absurd (hoff hn) hne⟩
    · exact ⟨rfl, rfl, fun _ => rfl⟩
  obtain ⟨hp, hacc, hworker⟩ := hw
  -- the new state, with the coalesced acknowledgement pending
  obtain ⟨hopen, hopen'⟩ := openIdle_worker { a.startWorker with
    ackPending := some (Acks.coalesce a.startWorker.ackPending env) }
  have hheld : ∀ e, e ∈ (a.queueACK false env).held ↔
      e ∈ ({ a.startWorker with ackPending := some (Acks.coalesce a.startWorker.ackPending env) } : Acks).held := by
    intro e
    have := openIdle_held { a.startWorker with ackPending := some (Acks.coalesce a.startWorker.ackPending env) }
    rw [← this]
    rfl
  have hmem : Acks.coalesce a.ackPending env ∈ (a.queueACK false env).held := by
    refine (hheld _).mpr (mem_held.mpr (.inl ?_))
    rw [hp]
  have hmax : env.ackSeq ≤ (Acks.coalesce a.ackPending env).ackSeq ∧
      ∀ p, a.ackPending = some p → p.ackSeq ≤ (Acks.coalesce a.ackPending env).ackSeq := by
    unfold Acks.coalesce
    cases a.ackPending with
    | none => exact ⟨Nat.le_refl _, fun p hp => absurd hp (Option.not_mem_none p)⟩
    | some p =>
      dsimp only
      split
      · refine ⟨Nat.le_refl _, fun q hq => ?_⟩
        cases hq
        omega
      · refine ⟨by omega, fun q hq => ?_⟩
        cases hq
        exact Nat.le_refl _
  refine ⟨fun e he => ?_, ?_, fun hl => ?_⟩
  · rcases he with he | rfl
    · rcases mem_held.mp he with he | he
      · exact ⟨_, hmem, hmax.2 e he⟩
      · refine ⟨e, (hheld e).mpr (mem_held.mpr (.inr ?_)), Nat.le_refl _⟩
        show e ∈ a.startWorker.worker.frames
        rw [hworker fun ho => by rw [ho] at he; cases he]
        exact he
    · exact ⟨_, hmem, hmax.1⟩
  · show (Acks.openIdle _).ackAccepted = _
    rw [hopen', hacc]
  · show (Acks.openIdle _).worker.lost = true
    rw [hopen]
    show a.startWorker.worker.lost = true
    rw [hworker fun ho => by rw [ho] at hl; cases hl]
    exact hl

/-- `queueACK` of an open connection drops no acknowledgement, and takes the new one. -/
theorem Acks.Covers.queueACK {a : Acks} {s : Nat} {env : RelayEnvelope} (hoff : a.ackOut = none → a.worker = .off)
    (h : a.Covers s ∨ s ≤ env.ackSeq) : (a.queueACK false env).Covers s := by
  obtain ⟨hheld, hacc, hlost⟩ := queueACK_answers hoff env
  have hin : ∀ e, e ∈ a.held ∨ e = env → s ≤ e.ackSeq → (a.queueACK false env).Covers s := by
    intro e he hs
    obtain ⟨e', he', hle⟩ := hheld e he
    exact .held e' he' (Nat.le_trans hs hle)
  rcases h with h | h
  · cases h with
    | accepted m hm hs => exact .accepted m (by rw [hacc]; exact hm) hs
    | held e he hs => exact hin e (.inl he) hs
    | lost h => exact .lost (hlost h)
  · exact hin env (.inr rfl) h

/-- `queueACK`, by either of its callers. -/
theorem Answer.queueACK {s : Nat} (h : Answer c s) (hi : c.acks.Idle) {n : Nat}
    (ha : c'.acks = c.acks.queueACK c.life.closed (c.ackEnvelope n)) (hl : c'.life = c.life)
    (hd : ∀ m ∈ c.recv.dispatcher.ackSeq?, m ∈ c'.recv.dispatcher.ackSeq? ∨ m = n) : Answer c' s := by
  by_cases hc : c.life.closed = true
  · exact .closed (by rw [hl, hc])
  · have hc : c.life.closed = false := by simpa using hc
    rw [hc] at ha
    have hcover : c.acks.Covers s ∨ s ≤ n → Answer c' s := by
      intro h
      refine Acks.Covers.answer ?_
      rw [ha]
      exact .queueACK hi.off h
    rcases h.covers_or with h | ⟨m, hm, hs⟩ | h
    · exact hcover (.inl h)
    · rcases hd m hm with hm | rfl
      · exact .queue m hm hs
      · exact hcover (.inr hs)
    · exact .closed (by rw [hl]; exact h)

structure Answered (c : RelayConnection) : Prop where
  reliable : c.reliable = true
  ordering : c.recv.dispatcher.ordering = true → c.config.reliability = .reliableOrdered
  order : c.config.reliability = .reliableOrdered → c.recv.Ordered c.life.closed
  data : ∀ env ∈ c.recv.dispatcher.handling, env.isData = true
  pushed : ∀ f ∈ c.recv.pushed, Answer c f.1

/-- The steps of `dispatchLoop` that queue no acknowledgement: a frame is pushed only when its
    acknowledgement is to be queued, and the number to be queued is given up only when there
    is nothing to acknowledge or the connection is closed. -/
theorem Answered.dispatch (h : Answered c) (hi : c.acks.Idle) (he : DispatchEffect c c')
    (hclosed : c.life.closed = true → c'.life.closed = true) : ∀ f ∈ c'.recv.pushed, Answer c' f.1 := by
  -- `handleData` has no number to queue, before the step or no longer
  have hkeep : c'.acks = c.acks → c'.recv.pushed = c.recv.pushed →
      (∀ f ∈ c.recv.pushed, ∀ n ∈ c.recv.dispatcher.ackSeq?, f.1 ≤ n → Answer c' f.1) →
      ∀ f ∈ c'.recv.pushed, Answer c' f.1 := by
    intro ha hp hq f hf
    rw [hp] at hf
    cases h.pushed f hf with
    | accepted n hn hs => exact .accepted n (by rw [ha]; exact hn) hs
    | held env he hs => exact .held env (by rw [ha]; exact he) hs
    | queue n hn hs => exact hq f hf n hn hs
    | lost h => exact .lost (by rw [ha]; exact h)
    | closed h => exact .closed (hclosed h)
  have hnone : ∀ {pc : DispatchPc}, c.recv.dispatcher = pc → pc.ackSeq? = none →
      ∀ f ∈ c.recv.pushed, ∀ n ∈ c.recv.dispatcher.ackSeq?, f.1 ≤ n → Answer c' f.1 := by
    intro pc hpc hn
    rw [hpc, hn]
    nofun
  -- the frame just pushed has at most the number that is to be queued
  have hpush : ∀ {seq n : Nat} {data : Bytes}, c'.acks = c.acks → c'.recv.pushed = c.recv.pushed ++ [(seq, data)] →
      n ∈ c'.recv.dispatcher.ackSeq? → seq ≤ n → (∀ m ∈ c.recv.dispatcher.ackSeq?, m = n) →
      ∀ f ∈ c'.recv.pushed, Answer c' f.1 := by
    intro seq n data ha hp hn hle hm f hf
    rw [hp, List.mem_append] at hf
    rcases hf with hf | hf
    · cases h.pushed f hf with
      | accepted k hk hs => exact .accepted k (by rw [ha]; exact hk) hs
      | held env he hs => exact .held env (by rw [ha]; exact he) hs
      | queue k hk hs => exact .queue n hn (hm k hk ▸ hs)
      | lost h => exact .lost (by rw [ha]; exact h)
      | closed h => exact .closed (hclosed h)
    · rw [List.mem_singleton.mp hf]
      exact .queue n hn hle
  cases he with
  | @move pc hm =>
    generalize hpc : c.recv.dispatcher = pc₀ at hm
    cases hm with
    | abandon hc => exact fun f _ => .closed hc
    | stop | halt | terminal | checked | idle | wait | waited | skip | outside | one | abandonOne | pinged =>
      exact hkeep rfl rfl (hnone hpc rfl)
  | take hpc | openAck hpc | close hpc | error hpc | ack hpc | ping hpc | shut hpc => exact hkeep rfl rfl (hnone hpc rfl)
  | order hpc _ _ hord =>
    obtain ⟨_, _, _, _, hp, _⟩ := order_frame hord
    exact hkeep rfl hp (hnone hpc rfl)
  | @deliverOne env hpc =>
    have hq : (if c.reliable then DispatchPc.queue env env.seq else c.handled env) = .queue env env.seq := if_pos h.reliable
    refine hpush (n := env.seq) rfl rfl ?_ (Nat.le_refl _) (by rw [hpc]; nofun)
    show env.seq ∈ (if c.reliable then DispatchPc.queue env env.seq else c.handled env).ackSeq?
    rw [hq]
    rfl
  | @deliver env seq data ready n hpc =>
    have hord := h.order (h.ordering (by rw [hpc]; rfl))
    have hlen := hord.ackSeq n (by rw [hpc]; rfl)
    have hlt := hord.run.lt (seq, data) (by rw [hpc]; exact List.mem_append_right _ List.mem_cons_self)
    refine hpush (n := n) rfl rfl rfl (by simp only at hlt; omega) (by rw [hpc]; exact fun m hm => (Option.some.inj hm).symm)
  | @delivered env ready n hpc =>
    refine hkeep rfl rfl fun f _ m hm hle => .queue m ?_ hle
    rw [hpc] at hm
    dsimp only
    rw [delivering_ackSeq?]
    exact hm
  | @settle env n hpc =>
    refine hkeep rfl rfl fun f hf m hm hle => ?_
    rw [hpc] at hm
    cases hm
    by_cases hn : n = 0
    · -- nothing was pushed
      have hord := h.order (h.ordering (by rw [hpc]; rfl))
      have := (run_append.mp hord.run).1.lt f hf
      omega
    · refine .queue n ?_ hle
      dsimp only
      rw [if_neg hn]
      rfl
  | @queue env n hpc =>
    intro f hf
    refine (h.pushed f hf).queueACK hi rfl rfl fun m hm => ?_
    rw [hpc] at hm
    exact .inr (Option.some.inj hm).symm
  | finish hpc =>
    intro f hf
    have hacks : c.acks.finishReceiveACK.ackAccepted = c.acks.ackAccepted ∧
        c.acks.finishReceiveACK.worker = c.acks.worker := by
      unfold Acks.finishReceiveACK Acks.closeACKIdleLocked
      split <;> exact ⟨rfl, rfl⟩
    cases h.pushed f hf with
    | accepted n hn hs => exact .accepted n (hacks.1 ▸ hn) hs
    | held env he hs => exact .held env (finishReceiveACK_held c.acks ▸ he) hs
    | queue n hn hs =>
      rw [hpc] at hn
      cases hn
    | lost h => exact .lost (by rw [← hacks.2] at h; exact h)
    | closed h => exact .closed h
  | @release env hpc =>
    refine hkeep rfl ?_ (hnone hpc rfl)
    show (c.recv.release env).pushed = _
    unfold Recv.release
    split <;> rfl

theorem handled_handling (c : RelayConnection) (env : RelayEnvelope) :
    (c.handled env).handling = none ∧ (c.handled env).ordering = false := by
  rcases handled_cases c env with h | h <;> rw [h] <;> exact ⟨rfl, rfl⟩

/-- Only `handleData` of a DATA frame gets to the positions of a delivery, and only that of a
    reliable-ordered connection to those of a batch. -/
theorem DispatchEffect.handling (h : DispatchEffect c c') :
    (c'.recv.dispatcher.ordering = true →
      c.recv.dispatcher.ordering = true ∨ c.config.reliability = .reliableOrdered) ∧
      ∀ env ∈ c'.recv.dispatcher.handling, env ∈ c.recv.dispatcher.handling ∨ env.kind = .kindData := by
  have hhandled : ∀ {env : RelayEnvelope}, c'.recv.dispatcher = c.handled env →
      (c'.recv.dispatcher.ordering = true →
        c.recv.dispatcher.ordering = true ∨ c.config.reliability = .reliableOrdered) ∧
        ∀ env ∈ c'.recv.dispatcher.handling, env ∈ c.recv.dispatcher.handling ∨ env.kind = .kindData := by
    intro env hd
    obtain ⟨h1, h2⟩ := handled_handling c env
    rw [hd, h1, h2]
    exact ⟨Bool.noConfusion, fun _ he => by cases he⟩
  cases h with
  | move hm =>
    generalize hpc : c.recv.dispatcher = pc at hm
    cases hm with
    | one hk =>
      refine ⟨Bool.noConfusion, fun e he => .inr ?_⟩
      cases he
      exact hk
    | skip | outside | abandonOne | abandon | pinged => rw [← hpc]; exact hhandled rfl
    | stop | halt | terminal | checked | idle | wait | waited => exact ⟨Bool.noConfusion, fun _ he => by cases he⟩
  | openAck | close | error | ack | queue => exact hhandled rfl
  | take | ping | finish | release | shut => exact ⟨Bool.noConfusion, fun _ he => by cases he⟩
  | @order env r ready _ hk ho =>
    refine ⟨fun _ => .inr ho, fun e he => .inr ?_⟩
    cases ready <;> cases he <;> exact hk
  | deliverOne hpc =>
    rw [hpc]
    dsimp only
    split
    · exact ⟨Bool.noConfusion, fun e he => .inl he⟩
    · rename_i env _ _
      rw [(handled_handling c env).1, (handled_handling c env).2]
      exact ⟨Bool.noConfusion, fun _ he => by cases he⟩
  | deliver hpc =>
    rw [hpc]
    exact ⟨fun _ => .inl rfl, fun e he => .inl he⟩
  | @delivered env ready n hpc =>
    rw [hpc]
    refine ⟨fun _ => .inl rfl, fun e he => .inl ?_⟩
    cases ready <;> exact he
  | @settle env n hpc =>
    rw [hpc]
    dsimp only
    split
    · rw [(handled_handling c env).1, (handled_handling c env).2]
      exact ⟨Bool.noConfusion, fun _ he => by cases he⟩
    · exact ⟨Bool.noConfusion, fun e he => .inl he⟩

/-- A step that is not `dispatchLoop`'s. -/
theorem Answer.other {s : Nat} (h : Answer c s) (hi : c.acks.Idle) (hoff : c.recv.inbox = none → c.recv.dispatcher = .off)
    {a : RelayConnection.Action} (hs : StepEffect c a c') (hsame : SameOrder c.recv c'.recv) : Answer c' s := by
  have hq : ∀ m ∈ c.recv.dispatcher.ackSeq?, m ∈ c'.recv.dispatcher.ackSeq? := by
    rcases hsame.dispatcher with ⟨hd, _⟩ | ⟨hn, _, _⟩
    · rw [hd]
      exact fun _ h => h
    · rw [hoff hn]
      nofun
  have hkeep : c'.acks.ackAccepted = c.acks.ackAccepted → c'.acks.held = c.acks.held → c'.acks.worker = c.acks.worker →
      Answer c' s := by
    intro ha hh hw
    cases h with
    | accepted n hn hs => exact .accepted n (by rw [ha]; exact hn) hs
    | held env he hs => exact .held env (by rw [hh]; exact he) hs
    | queue n hn hs => exact .queue n (hq n hn) hs
    | lost h => exact .lost (by rw [hw]; exact h)
    | closed h => exact .closed (hs.closed_stays h)
  cases hs.acks with
  | same ha => exact hkeep (by rw [ha]) (by rw [ha]) (by rw [ha])
  | queue _ ha hl => exact h.queueACK hi ha hl fun m hm => .inl (hq m hm)
  | begin ha =>
    obtain ⟨hw, hacc⟩ := openIdle_worker { c.acks with ackGenerating := c.acks.ackGenerating + 1 }
    rw [ha] at hkeep
    exact hkeep hacc (beginReceiveACK_held _) hw
  | finish _ ha =>
    have hu : c.acks.finishReceiveACK.ackAccepted = c.acks.ackAccepted ∧
        c.acks.finishReceiveACK.worker = c.acks.worker := by
      unfold Acks.finishReceiveACK Acks.closeACKIdleLocked
      split <;> exact ⟨rfl, rfl⟩
    rw [ha] at hkeep
    exact hkeep hu.1 (finishReceiveACK_held _) hu.2
  | worker h' => exact h.worker (ackStep_effect h')

theorem Answered.step (h : Answered c) (hi : c.acks.Idle) (hoff : c.recv.inbox = none → c.recv.dispatcher = .off)
    {a : RelayConnection.Action} (hs : StepEffect c a c') : Answered c' := by
  have hcfg := hs.conn.config
  refine ⟨?_, ?_, ?_, ?_, ?_⟩
  · have := h.reliable
    rwa [RelayConnection.reliable, hcfg]
  · rw [hcfg]
    rcases hs.order with hsame | ⟨_, hd⟩
    · rcases hsame.dispatcher with ⟨hd, _⟩ | ⟨_, _, hd⟩ <;> rw [hd]
      · exact h.ordering
      · exact Bool.noConfusion
    · exact fun ho => (hd.handling.1 ho).elim h.ordering id
  · rw [hcfg]
    intro ho
    rcases hs.order with hsame | ⟨_, hd⟩
    · exact (h.order ho).same hsame hs.closed_stays
    · exact (h.order ho).dispatch ho hs.closed_stays hd
  · rcases hs.order with hsame | ⟨_, hd⟩
    · rcases hsame.dispatcher with ⟨hd, _⟩ | ⟨_, _, hd⟩ <;> rw [hd]
      · exact h.data
      · exact fun env he => absurd he (by simp [DispatchPc.handling])
    · intro env he
      rcases hd.handling.2 env he with he | hk
      · exact h.data env he
      · simp [RelayEnvelope.isData, hk]
  · rcases hs.order with hsame | ⟨_, hd⟩
    · rw [hsame.pushed]
      exact fun f hf => (h.pushed f hf).other hi hoff hs hsame
    · exact h.dispatch hi hd hs.closed_stays

theorem Answered.new {config : RelayConfig} (hr : config.reliability ≠ .bestEffort) (relayID : String)
    (my remote : SessionRef) (dialed : Bool) : Answered (.new config relayID my remote dialed) :=
  ⟨decide_eq_true hr, nofun, fun ho => (InOrder.new ho relayID my remote dialed).ordered, nofun, nofun⟩

/-! ## A connection without the channel owes nothing -/

/-- An acknowledgement of each of the frames was accepted. -/
def Acknowledged (frames : List (Nat × Bytes)) (c : RelayConnection) : Prop :=
  ∀ f ∈ frames, ∃ n ∈ c.acks.ackAccepted, f.1 ≤ n

theorem Answered.acknowledged (h : Answered c) (hi : c.acks.Idle) (hg : Generating c) (hn : c.acks.ackIdle = none)
    (hc : c.life.closed = false) : Acknowledged c.recv.pushed c := by
  obtain ⟨hgen, hsend, hpend, hfail⟩ := hi.idle hn
  have hbusy : c.acks.worker.busy = false := by
    cases hb : c.acks.worker.busy with
    | false => rfl
    | true =>
      have := hi.busy hb
      rw [hsend] at this
      cases this
  intro f hf
  cases h.pushed f hf with
  | accepted n hn hs => exact ⟨n, hn, hs⟩
  | held env he =>
    rcases mem_held.mp he with he | he
    · rw [hpend] at he
      cases he
    · cases hw : c.acks.worker <;> rw [hw] at he hbusy <;> cases he <;> cases hbusy
  | queue n hn =>
    -- the frame that is being handled is registered
    have hcount := hg.count h.reliable
    have hdata := h.data
    cases hd : c.recv.dispatcher <;> rw [hd] at hn hcount hdata <;> cases hn
    all_goals
      have hone : RelayEnvelope.dataCount _ = 1 := if_pos (hdata _ rfl)
      simp only [DispatchPc.generating] at hcount
      omega
  | lost h =>
    cases hw : c.acks.worker <;> rw [hw] at h hbusy hfail
    case sent => cases hbusy
    case failing => cases hfail
    all_goals cases h
  | closed h =>
    rw [hc] at h
    cases h

/-! ## What a step does to the channel -/

/-- What was accepted stays so, and a channel is replaced only after it was closed. -/
structure Acks.Follows (a a' : Acks) : Prop where
  accepted : a.ackAccepted <+: a'.ackAccepted
  idle : a'.ackIdle = a.ackIdle ∨ a.ackIdle = none ∨ a'.ackIdle = none

theorem Acks.Follows.openIdle {a b : Acks} (ha : b.ackAccepted = a.ackAccepted) (hi : b.ackIdle = a.ackIdle) :
    a.Follows b.openIdle := by
  refine ⟨by rw [(openIdle_worker b).2, ha], ?_⟩
  unfold Acks.openIdle
  split
  · rename_i hn
    exact .inr (.inl (hi ▸ hn))
  · exact .inl hi

theorem Acks.Follows.closeACKIdleLocked {a b : Acks} (ha : b.ackAccepted = a.ackAccepted) (hi : b.ackIdle = a.ackIdle) :
    a.Follows b.closeACKIdleLocked := by
  refine ⟨by rw [closeACKIdleLocked_accepted, ha], ?_⟩
  unfold Acks.closeACKIdleLocked
  split
  · exact .inr (.inr rfl)
  · exact .inl hi

theorem Acks.Follows.queueACK (a : Acks) (closed : Bool) (env : RelayEnvelope) : a.Follows (a.queueACK closed env) := by
  unfold Acks.queueACK
  split
  · exact ⟨List.prefix_rfl, .inl rfl⟩
  · have hs : a.startWorker.ackAccepted = a.ackAccepted ∧ a.startWorker.ackIdle = a.ackIdle := by
      unfold Acks.startWorker
      split <;> exact ⟨rfl, rfl⟩
    have := Acks.Follows.openIdle (b := { a.startWorker with
      ackPending := some (Acks.coalesce a.startWorker.ackPending env) }) hs.1 hs.2
    exact ⟨this.accepted, this.idle⟩

theorem WorkerEffect.follows (h : WorkerEffect c c') : c.acks.Follows c'.acks := by
  cases h with
  | accepted => exact ⟨List.prefix_append _ _, .inl rfl⟩
  | rest | grab =>
    have : c.acks.Follows c.acks.grab := .closeACKIdleLocked rfl rfl
    exact ⟨this.accepted, this.idle⟩
  | sent =>
    have : c.acks.Follows (c.acks.sent none) := .closeACKIdleLocked rfl rfl
    exact ⟨this.accepted, this.idle⟩
  | _ => exact ⟨List.prefix_rfl, .inl rfl⟩

theorem StepEffect.follows {a : RelayConnection.Action} (h : StepEffect c a c') : c.acks.Follows c'.acks := by
  cases h.acks with
  | same ha =>
    rw [ha]
    exact ⟨List.prefix_rfl, .inl rfl⟩
  | queue _ ha =>
    rw [ha]
    exact .queueACK _ _ _
  | begin ha =>
    rw [ha]
    exact .openIdle rfl rfl
  | finish _ ha =>
    rw [ha]
    exact .closeACKIdleLocked rfl rfl
  | worker h => exact (ackStep_effect h).follows

/-- What was pushed is what was taken from `recvCh` and what is in it. -/
theorem StepEffect.received {a : RelayConnection.Action} (h : StepEffect c a c')
    (hr : c.recv.consumed ++ c.recv.recvCh = c.recv.pushed.map Prod.snd) :
    c'.recv.consumed ++ c'.recv.recvCh = c'.recv.pushed.map Prod.snd := by
  rcases h.order with hs | ⟨_, hd⟩
  · rw [hs.received, hs.pushed, hr]
  · have hpush : ∀ {seq : Nat} {data : Bytes},
        c.recv.consumed ++ (c.recv.recvCh ++ [data]) = (c.recv.pushed ++ [(seq, data)]).map Prod.snd := by
      intro seq data
      rw [← List.append_assoc, hr, List.map_append, List.map_singleton]
    cases hd with
    | deliverOne | deliver => exact hpush
    | order _ _ _ hord =>
      obtain ⟨_, _, hch, hcons, hpushed, _⟩ := order_frame hord
      dsimp only
      rw [hch, hcons, hpushed]
      exact hr
    | release =>
      dsimp only [RelayConnection.dispatcherAt]
      unfold Recv.release
      split <;> exact hr
    | _ => exact hr

/-! ## A `Close` that waits -/

structure Owing (c : RelayConnection) : Prop where
  budgeted : Budgeted c
  idle : c.acks.Idle
  answered : Answered c
  received : c.recv.consumed ++ c.recv.recvCh = c.recv.pushed.map Prod.snd

theorem Owing.new {config : RelayConfig} (hr : config.reliability ≠ .bestEffort) (relayID : String)
    (my remote : SessionRef) (dialed : Bool) : Owing (.new config relayID my remote dialed) :=
  ⟨.new _ _ _ _ _, ⟨fun _ => rfl, nofun, fun _ => ⟨rfl, rfl, rfl, rfl⟩⟩, .new hr _ _ _ _, rfl⟩

theorem Owing.step (h : Owing c) {a : RelayConnection.Action} (hok : Unhurried c a = true) (hs : StepEffect c a c') :
    Owing c' :=
  ⟨h.budgeted.step hs, h.idle.step h.budgeted.generating hok hs, h.answered.step h.idle h.budgeted.bounded.off hs,
    hs.received h.received⟩

theorem Owing.acknowledged (h : Owing c) (hn : c.acks.ackIdle = none) (hc : c.life.closed = false) :
    Acknowledged c.recv.pushed c :=
  h.answered.acknowledged h.idle h.budgeted.generating hn hc

/-- What a `Close` knows from `waitReceiveACK` on about the frames pushed before it was called. -/
def Waited (frames : List (Nat × Bytes)) (c : RelayConnection) : CallPc → Prop
  | .close _ (.waitIdle idle) => c.acks.ackIdle = some idle ∨ c.life.closed = true ∨ Acknowledged frames c
  | .close _ .context | .close _ .start => c.life.closed = true ∨ Acknowledged frames c
  | _ => True

/-- The others' steps. The channel a `Close` waits for is gone only when nothing is owed. -/
theorem Waited.still {frames : List (Nat × Bytes)} {pc : CallPc} (h : Waited frames c pc) {a : RelayConnection.Action}
    (hs : StepEffect c a c') (ho : Owing c') (hp : frames <+: c'.recv.pushed) : Waited frames c' pc := by
  have hkeep : c.life.closed = true ∨ Acknowledged frames c → c'.life.closed = true ∨ Acknowledged frames c' := by
    refine Or.imp hs.closed_stays fun hack f hf => ?_
    obtain ⟨n, hn, hle⟩ := hack f hf
    exact ⟨n, hs.follows.accepted.subset hn, hle⟩
  unfold Waited at h ⊢
  split at h
  · rcases h with h | h
    · rcases hs.follows.idle with hi | hi | hi
      · exact .inl (hi.trans h)
      · rw [hi] at h
        cases h
      · cases hc : c'.life.closed with
        | true => exact .inr (.inl rfl)
        | false => exact .inr (.inr fun f hf => ho.acknowledged hi hc f (hp.subset hf))
    · exact .inr (hkeep h)
  · exact hkeep h
  · exact hkeep h
  · trivial

/-- The steps of the `Close` itself. -/
theorem Waited.call {frames : List (Nat × Bytes)} {i : Nat} {pc pc' : CallPc} (h : Waited frames c pc) (ho : Owing c)
    (hp : frames <+: c.recv.pushed) (he : CallEffect c i pc c') (hpc : c'.calls[i]? = some pc')
    (hi : i < c.calls.length) : Waited frames c' pc' := by
  have hset : ∀ {pc₁ : CallPc}, (c.calls.set i pc₁)[i]? = some pc' → pc₁ = pc' := by
    intro pc₁ hs
    rw [List.getElem?_set_self hi] at hs
    exact Option.some.inj hs
  have hend : ∀ {c'' : RelayConnection} {pc₁ : CallPc}, (c.calls.set i pc₁)[i]? = some pc' →
      (∀ c, Waited frames c pc₁) → Waited frames c'' pc' := fun hs hw => hset hs ▸ hw _
  cases he with
  | move hm =>
    cases hm with
    | closeIdle hn =>
      rw [← hset hpc]
      cases hc : c.life.closed with
      | true => exact .inl hc
      | false => exact .inr fun f hf => ho.acknowledged hn hc f (hp.subset hf)
    | closeWait hn =>
      rw [← hset hpc]
      exact .inl hn
    | closeWaited hw =>
      rw [← hset hpc]
      rcases h with h | h
      · exact .inl (hw.resolve_left fun hne => hne h)
      · exact h
    | closeContext =>
      rw [← hset hpc]
      exact h
    | closeFlushed =>
      refine hend hpc fun _ => ?_
      split <;> trivial
    | _ => exact hend hpc fun _ => trivial
  | _ => exact hend hpc fun _ => trivial

/-- The call `q.calls.length` is a `Close` that started in the state `q`. -/
structure Closer (q c : RelayConnection) : Prop where
  started : q.calls.length < c.calls.length
  received : q.recv.consumed ++ q.recv.recvCh = q.recv.pushed.map Prod.snd
  pushed : q.recv.pushed <+: c.recv.pushed
  waited : ∀ pc, c.calls[q.calls.length]? = some pc → Waited q.recv.pushed c pc

theorem Closer.start (h : Owing c) : Closer c (c.startCall .close) := by
  refine ⟨?_, h.received, List.prefix_rfl, fun pc hpc => ?_⟩
  · show c.calls.length < (c.calls ++ [_]).length
    simp
  · have : (c.calls ++ [CallPc.close (queuedPayloads c.returns).length .lock])[c.calls.length]? = some pc := hpc
    rw [List.getElem?_concat_length] at this
    cases this
    trivial

theorem Closer.step {q : RelayConnection} (h : Closer q c) (ho : Owing c) (ho' : Owing c') {a : RelayConnection.Action}
    (hs : StepEffect c a c') : Closer q c' := by
  have hp := h.pushed.trans hs.pushed
  rcases hs.calls with hcalls | ⟨call, _, rfl⟩ | ⟨i, how, pc, _, hpc, he⟩
  · refine ⟨by rw [hcalls]; exact h.started, h.received, hp, fun pc hpc => ?_⟩
    rw [hcalls] at hpc
    exact (h.waited pc hpc).still hs ho' hp
  · obtain ⟨pc₀, hcalls⟩ := startCall_calls c call
    have hlt := h.started
    refine ⟨by rw [hcalls, List.length_append]; omega, h.received, hp, fun pc hpc => ?_⟩
    rw [hcalls, List.getElem?_append_left hlt] at hpc
    exact (h.waited pc hpc).still hs ho' hp
  · obtain ⟨pc₀, hcalls⟩ := he.calls
    refine ⟨by rw [hcalls, List.length_set]; exact h.started, h.received, hp, fun pc' hpc' => ?_⟩
    rcases Slots.get_set (hcalls ▸ hpc') with ⟨rfl, -⟩ | ⟨-, hold⟩
    · exact (h.waited pc hpc).call ho h.pushed he hpc' h.started
    · exact (h.waited pc' hold).still hs ho' hp

theorem closers {config : RelayConfig} {relayID : String} {my remote : SessionRef} {dialed : Bool}
    (hr : config.reliability ≠ .bestEffort) {tr : List (RelayConnection × RelayConnection.Action)}
    (h : Trace RelayConnection.step (fun c a => Unhurried c a = true) (· = .new config relayID my remote dialed) tr c) :
    Owing c ∧ ∀ q, (q, .call .close) ∈ tr → Closer q c := by
  refine h.keeps (P := fun tr c => Owing c ∧ ∀ q, (q, .call .close) ∈ tr → Closer q c) ?_ ?_
  · rintro c rfl
    exact ⟨.new hr _ _ _ _, fun q hq => absurd hq List.not_mem_nil⟩
  · intro tr c a c' _ hi hok hs
    have he := step_effect hs
    have ho' := hi.1.step hok he
    refine ⟨ho', fun q hq => ?_⟩
    rcases List.mem_append.mp hq with hq | hq
    · exact (hi.2 q hq).step hi.1 ho' he
    · rw [List.mem_singleton, Prod.mk.injEq] at hq
      obtain ⟨rfl, rfl⟩ := hq
      cases hs
      exact .start hi.1

/-- `Close` hands CLOSE to the network only when an acknowledgement of every frame that was pushed
    before the call, among them those the application took, has been accepted. -/
theorem close_after_acks {config : RelayConfig} {relayID : String} {my remote : SessionRef} {dialed : Bool}
    (hr : config.reliability ≠ .bestEffort) {tr : List (RelayConnection × RelayConnection.Action)}
    (h : Trace RelayConnection.step (fun c a => Unhurried c a = true) (· = .new config relayID my remote dialed) tr c)
    {q : RelayConnection} (hq : (q, .call .close) ∈ tr) {how : Choice}
    (hs : c.step (.run q.calls.length how) = some c') (hout : c'.out ≠ c.out) :
    c'.out = c.out ++ [c.envelope .kindClose] ∧ q.recv.consumed <+: q.recv.pushed.map Prod.snd ∧
      ∀ f ∈ q.recv.pushed, ∃ n ∈ c.acks.ackAccepted, f.1 ≤ n := by
  have hcloser := (closers hr h).2 q hq
  obtain ⟨pc, hpc, he⟩ := callStep_effect hs
  cases he with
  | close hc =>
    have hw : c.life.closed = true ∨ Acknowledged q.recv.pushed c := hcloser.waited _ hpc
    rw [hc] at hw
    exact ⟨rfl, ⟨_, hcloser.received⟩, hw.resolve_left nofun⟩
  | _ => exact absurd rfl hout

/-! ## Sample runs -/

/-- The states in which a `Close` was called. -/
def closeCalls (tr : List (RelayConnection × RelayConnection.Action)) : List RelayConnection :=
  tr.filterMap fun
    | (q, .call .close) => some q
    | _ => none

theorem mem_closeCalls {tr : List (RelayConnection × RelayConnection.Action)} {q : RelayConnection}
    (h : q ∈ closeCalls tr) : (q, .call .close) ∈ tr := by
  obtain ⟨e, he, hq⟩ := List.mem_filterMap.mp h
  split at hq <;> cases hq
  exact he

/-- An accepted connection of a reliable-ordered relay. -/
def sampleAccepted : RelayConnection :=
  .new { defaultRelayConfig with reliability := .reliableOrdered, windowSize := 8 } "r" (sampleSession .b)
    (sampleSession .a) false

/-- One DATA frame arrives, the application takes it and calls `Close`, which waits for the
    acknowledgement; `dispatchLoop` has not yet let go of the frame. -/
def takenAndClosing : List RelayConnection.Action := List.flatten
  [(gets .b (sampleEnvelope .a .kindData 1 0 [10]) 4 7).map Prod.snd, [.receive, .call .close],
    List.replicate 3 (.run 0 .go), List.replicate 3 (.loop .go), List.replicate 3 (.run 0 .go)]

/-- The sending of the acknowledgement returns, `dispatchLoop` lets go of the frame and `Close` goes
    on until it is about to send CLOSE. -/
def answeredWith (err : Option Err) : List RelayConnection.Action :=
  [.ackWorker .go, .ackWorker .go, .ackWorker (.result err), .ackWorker .go, .dispatcher .go, .run 0 .go, .run 0 .go]

theorem close_after_acks_taken : ∃ q c c' : RelayConnection, q.recv.consumed = [[10]] ∧ c.acks.ackAccepted = [1] ∧
    c'.out = c.out ++ [c.envelope .kindClose] ∧ ∀ f ∈ q.recv.pushed, ∃ n ∈ c.acks.ackAccepted, f.1 ≤ n := by
  have h : ((record (guarded RelayConnection.step fun c a => Unhurried c a = true) [] sampleAccepted
      (takenAndClosing ++ answeredWith none)).any fun r => r.2.acks.ackAccepted = [1] ∧
        ∃ q ∈ closeCalls r.1, q.recv.consumed = [[10]] ∧
          (r.2.step (.run q.calls.length .go)).any (fun c' => c'.out ≠ r.2.out) = true) = true := by
    decide +kernel
  obtain ⟨tr, c, hc, hw⟩ := trace_any (I := fun c => c = sampleAccepted) _ rfl h
  simp only [decide_eq_true_eq, Option.any_eq_true] at hw
  obtain ⟨hacc, q, hq, hcons, c', hs, hout⟩ := hw
  have := close_after_acks (by decide) hc (mem_closeCalls hq) hs (by simpa using hout)
  exact ⟨q, c, c', hcons, hacc, this.1, this.2.2⟩

/-- The sending of the acknowledgement fails. Before `receiveACKLoop` closes the connection, the
    `finishReceiveACK` of the frame closes the channel, and CLOSE is sent without it. -/
theorem close_overtakes_ack : ∃ tr c q c', Trace RelayConnection.step free (fun c => c = sampleAccepted) tr c ∧
    (q, .call .close) ∈ tr ∧ q.recv.pushed = [(1, [10])] ∧ q.recv.consumed = [[10]] ∧
    c.step (.run q.calls.length .go) = some c' ∧ c'.out = c.out ++ [c.envelope .kindClose] ∧
    c.acks.ackAccepted = [] := by
  have h : ((record (guarded RelayConnection.step free) [] sampleAccepted
      (takenAndClosing ++ answeredWith (some .notConnected))).any fun r => r.2.acks.ackAccepted = [] ∧
        ∃ q ∈ closeCalls r.1, q.recv.pushed = [(1, [10])] ∧ q.recv.consumed = [[10]] ∧
          (r.2.step (.run q.calls.length .go)).any (fun c' => c'.out = r.2.out ++ [r.2.envelope .kindClose]) = true) =
      true := by
    decide +kernel
  obtain ⟨tr, c, hc, hw⟩ := trace_any (I := fun c => c = sampleAccepted) _ rfl h
  simp only [decide_eq_true_eq, Option.any_eq_true] at hw
  obtain ⟨hacc, q, hq, hpushed, hcons, c', hs, hout⟩ := hw
  exact ⟨tr, c, q, c', hc, mem_closeCalls hq, hpushed, hcons, hs, hout, hacc⟩

end

end Turntf.Relay
