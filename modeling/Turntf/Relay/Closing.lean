/-
  Turntf.Relay.Closing — what a `Close` waits for (`relay.go`).

  A `Close` that finds the connection open sets it to Closing behind `enqueueMu`; from then on no
  `Send` gets past its check, so its marker is behind every payload. It goes on when `sendLoop` has
  come to the marker (`flushCh`) and again when `unacked` is empty, and only then sends CLOSE.

  - `close_loses_nothing`: when a CLOSE is handled, every payload was pushed.
  - `close_acknowledged`: a `Close` that returns nil leaves nothing unacknowledged, unless it found
    the connection opening or closing: then it returns nil at once (`close_returns_early`).
-/

import Turntf.Relay.Acked
import Turntf.Relay.Queue

namespace Turntf.Relay

open Lts Ends Numbered

/-! ## Nothing after the marker -/

/-- No payload follows a marker. -/
def Sealed : List SendItem → Prop
  | [] => True
  | .marker :: items => payloads items = []
  | _ :: items => Sealed items

theorem Sealed.of_payloads {items : List SendItem} (h : payloads items = []) : Sealed items := by
  induction items with
  | nil => trivial
  | cons item items ih =>
    cases item with
    | data => cases h
    | barrier => exact ih h
    | marker => exact h

theorem Sealed.of_unmarked {items : List SendItem} (h : .marker ∉ items) : Sealed items := by
  induction items with
  | nil => trivial
  | cons item items ih =>
    have htail : .marker ∉ items := fun hm => h (List.mem_cons_of_mem _ hm)
    cases item with
    | marker => exact absurd List.mem_cons_self h
    | _ => exact ih htail

theorem Sealed.tail {item : SendItem} {items : List SendItem} (h : Sealed (item :: items)) : Sealed items := by
  cases item with
  | marker => exact .of_payloads h
  | _ => exact h

theorem Sealed.snoc {item : SendItem} {items : List SendItem} (h : Sealed items) (hi : payloads [item] = []) :
    Sealed (items ++ [item]) := by
  induction items with
  | nil => exact .of_payloads hi
  | cons x items ih =>
    cases x with
    | marker =>
      show payloads (items ++ [item]) = []
      rw [payloads_append, hi, List.append_nil]
      exact h
    | _ => exact ih h

/-! ## The stages of a `Close` -/

/-- The positions of a `Close` that has set the state to Closing. -/
def ClosePc.begun : ClosePc → Bool
  | .lock | .state | .result => false
  | _ => true

/-- The positions of a `Close` that has seen `flushCh`. -/
def ClosePc.flushed : ClosePc → Bool
  | .lock | .state | .push | .flush | .result => false
  | _ => true

/-- The positions of a `Close` that has found `unacked` empty. -/
def ClosePc.drained : ClosePc → Bool
  | .readIdle | .waitIdle _ | .context | .start | .sent => true
  | _ => false

/-- A `Close` has set the state to Closing. -/
def Begun (c : RelayConnection) : Prop :=
  .marker ∈ c.xmit.line.items ∨ c.xmit.flushCh = true ∨
    ∃ (i before : Nat) (pc : ClosePc), c.calls[i]? = some (.close before pc) ∧ pc.begun = true

structure Closing (c : RelayConnection) : Prop where
  early : c.life.state = .stateOpening ∨ c.life.state = .stateOpen → ¬ Begun c
  sending : ∀ (i : Nat) (data : Bytes), c.calls[i]? = some (.send data .select) → ¬ Begun c
  marked : Sealed c.xmit.line.items
  done : c.xmit.flushCh = true → c.xmit.took = c.xmit.assigned ∧ payloads c.xmit.line.items = []
  flushed : ∀ (i before : Nat) (pc : ClosePc), c.calls[i]? = some (.close before pc) → pc.flushed = true →
    c.xmit.flushCh = true
  drained : ∀ (i before : Nat) (pc : ClosePc), c.calls[i]? = some (.close before pc) → pc.drained = true →
    c.xmit.unacked.keys = []
  out : ∀ env ∈ c.out, env.kind = .kindClose → c.xmit.flushCh = true ∧ c.xmit.unacked.keys = []

section

variable {c c' : RelayConnection} {a : RelayConnection.Action}

theorem Closing.new (config : RelayConfig) (relayID : String) (my remote : SessionRef) (dialed : Bool) :
    Closing (.new config relayID my remote dialed) := by
  refine ⟨fun _ h => ?_, nofun, trivial, nofun, nofun, nofun, fun env he hk => ?_⟩
  · rcases h with h | h | ⟨_, _, _, h, _⟩ <;> cases h
  · rw [List.mem_singleton.mp he] at hk
    cases dialed <;> cases hk

/-- The payloads with a number, once the loop has none in its hands. -/
theorem XmitEffect.quiet {t : Xmit} (h : XmitEffect c t) (hr : c.reliable = true) (hp : c.xmit.loop.pending = []) :
    t.assigned = c.xmit.assigned ∧ (c.xmit.unacked.keys = [] → t.unacked.keys = []) := by
  have hreceive : ∀ (u : Xmit) (item : SendItem), (u.receive item).assigned = u.assigned ∧
      (u.receive item).unacked = u.unacked := by
    intro u item
    cases item <;> exact ⟨rfl, rfl⟩
  cases h with
  | still core => exact ⟨core.assigned, fun hu => by rw [core.unacked]; exact hu⟩
  | ack =>
    unfold Xmit.handleAck
    split
    · exact ⟨rfl, id⟩
    · split
      · refine ⟨rfl, fun hu => ?_⟩
        rw [hu]
        exact hu
      · exact ⟨rfl, id⟩
  | @push item t _ h =>
    show t.assigned = _ ∧ (_ → t.unacked.keys = [])
    unfold Xmit.push at h
    (repeat' split at h) <;> cases h
    · exact ⟨rfl, id⟩
    · rw [(hreceive _ _).1, (hreceive _ _).2]
      exact ⟨rfl, id⟩
  | receive =>
    rw [(hreceive _ _).1, (hreceive _ _).2]
    exact ⟨rfl, id⟩
  | assign hl =>
    rw [hl] at hp
    cases hp
  | plain _ hr' =>
    rw [hr] at hr'
    cases hr'
  | _ => exact ⟨rfl, id⟩

theorem Closing.pending (h : Closing c) (hs : Sending c) (hf : c.xmit.flushCh = true) : c.xmit.loop.pending = [] := by
  by_cases hm : c.xmit.loop.mode = .ended
  · cases hl : c.xmit.loop <;> first
      | rfl
      | (rw [hl] at hm; cases hm)
  · have ht := hs.window.took hm
    rw [(h.done hf).1] at ht
    exact List.append_right_eq_self.mp ht.symm

theorem LineEffect.flushCh_stays (h : LineEffect c a c') (hf : c.xmit.flushCh = true) : c'.xmit.flushCh = true := by
  cases h with
  | same h | send _ h | hand _ _ h | barrier _ h | marker _ h | receive _ _ h | answer _ _ _ _ h =>
    exact (congrArg Line.flushCh h).trans hf
  | flush _ _ _ h => exact congrArg Line.flushCh h

/-- Where a marker or its end comes from. -/
theorem LineEffect.marked (h : LineEffect c a c') (hm : .marker ∈ c'.xmit.line.items ∨ c'.xmit.flushCh = true) :
    .marker ∈ c.xmit.line.items ∨ c.xmit.flushCh = true ∨
      ∃ i before : Nat, c.calls[i]? = some (.close before .push) := by
  have hold : c'.xmit.line.flushCh = c.xmit.line.flushCh →
      (.marker ∈ c'.xmit.line.items → .marker ∈ c.xmit.line.items) → .marker ∈ c.xmit.line.items ∨
      c.xmit.flushCh = true ∨ ∃ i before : Nat, c.calls[i]? = some (.close before .push) := by
    intro hf hi
    exact hm.elim (fun hm => .inl (hi hm)) fun hm => .inr (.inl (hf.symm.trans hm))
  cases h with
  | same h | hand _ _ h => exact hold ((congrArg Line.flushCh h).trans rfl) (by rw [h]; exact id)
  | send _ h | barrier _ h => exact hold ((congrArg Line.flushCh h).trans rfl) (by rw [h]; simp [Line.push])
  | marker hpc => exact .inr (.inr ⟨_, _, hpc⟩)
  | receive _ hi h | answer _ _ _ hi h =>
    exact hold ((congrArg Line.flushCh h).trans rfl) (by rw [h, hi]; exact List.mem_cons_of_mem _)
  | flush _ _ hi => exact .inl (by rw [hi]; exact List.mem_cons_self)

/-- A `Close` begins at its state check, or has begun before. -/
theorem begun_step (heff : StepEffect c a c') (hl : LineEffect c a c') (h : Begun c') : Begun c ∨
    ∃ i before : Nat, c.calls[i]? = some (.close before .state) ∧ c'.life.state = .stateClosing := by
  have hline : .marker ∈ c'.xmit.line.items ∨ c'.xmit.flushCh = true → Begun c := by
    intro hm
    rcases hl.marked hm with hm | hf | ⟨i, before, hpc⟩
    · exact .inl hm
    · exact .inr (.inl hf)
    · exact .inr (.inr ⟨i, before, .push, hpc, rfl⟩)
  rcases h with hm | hf | ⟨i, before, pc, hpc, hb⟩
  · exact .inl (hline (.inl hm))
  · exact .inl (hline (.inr hf))
  · rcases heff.call_cases hpc with hold | hnew | ⟨pc₀, hold, hn⟩
    · exact .inl (.inr (.inr ⟨i, before, pc, hold, hb⟩))
    · cases pc with
      | lock => cases hb
      | _ => cases hnew
    · cases hn with
      | closing _ hs => exact .inr ⟨i, before, hold, hs⟩
      | move hm => cases hm with
        | closeLock | closeClosed => cases hb
        | _ => exact .inl (.inr (.inr ⟨i, before, _, hold, rfl⟩))
      | closed => cases hb
      | _ => exact .inl (.inr (.inr ⟨i, before, _, hold, rfl⟩))

theorem LifeEffect.early {l : Life} (h : LifeEffect c a l) (hs : l.state = .stateOpening ∨ l.state = .stateOpen) :
    c.life.state = .stateOpening ∨ c.life.state = .stateOpen := by
  have hclosed : ∀ reason remote, (c.life.closeWithSource reason remote).state = .stateClosed := by
    intro reason remote
    simpa [Life.closed] using closeWithSource_closed c.life reason remote
  cases h with
  | same => exact hs
  | note h => rwa [h.sameLife.state] at hs
  | openAck =>
    unfold Life.handleOpenAck at hs
    split at hs
    · exact .inl ‹_›
    · exact hs
  | closing => rcases hs with hs | hs <;> cases hs
  | closed =>
    rw [Life.closeConnection, hclosed] at hs
    rcases hs with hs | hs <;> cases hs
  | remote =>
    rw [hclosed] at hs
    rcases hs with hs | hs <;> cases hs

theorem Closing.quiet (h : Closing c) (hs : Sending c) (heff : StepEffect c a c') (hf : c.xmit.flushCh = true) :
    c'.xmit.assigned = c.xmit.assigned ∧ (c.xmit.unacked.keys = [] → c'.xmit.unacked.keys = []) :=
  heff.xmit.quiet hs.reliable (h.pending hs hf)

/-- While a `Send` may yet put its payload in line, no `Close` has begun. -/
theorem Closing.sending_step (h : Closing c) (hq : Queued c) (heff : StepEffect c a c') (hl : LineEffect c a c') :
    ∀ (i : Nat) (data : Bytes), c'.calls[i]? = some (.send data .select) → ¬ Begun c' := by
  intro i data hi hb
  have hclash : ∀ {pc : SendPc}, c.calls[i]? = some (.send data pc) → (CallPc.send data pc).holds = true →
      ¬ Begun c → False := by
    intro pc hold hh hno
    rcases begun_step heff hl hb with hb | ⟨j, before, hj, _⟩
    · exact hno hb
    · obtain rfl := hq.alone hold hj hh rfl
      rw [hold] at hj
      cases hj
  rcases heff.call_cases hi with hold | hnew | ⟨pc₀, hold, hn⟩
  · exact hclash hold rfl (h.sending i data hold)
  · cases hnew
  · cases hn with
    | move hm => cases hm with
      | sendOpen ho => exact hclash hold rfl (h.early (.inr ho))

theorem Closing.marked_step (h : Closing c) (hl : LineEffect c a c') : Sealed c'.xmit.line.items := by
  have hs := h.marked
  cases hl with
  | same h | hand _ _ h => rw [h]; exact hs
  | send hpc hline =>
    rw [hline]
    refine .of_unmarked fun hm => h.sending _ _ hpc (.inl ?_)
    simpa [Line.push] using hm
  | barrier _ h | marker _ h => rw [h]; exact hs.snoc rfl
  | receive _ hi h | answer _ _ _ hi h | flush _ _ hi h =>
    rw [hi] at hs
    rw [h]
    exact hs.tail

/-- When the loop has come to the marker, every payload has its number. -/
theorem Closing.done_step (h : Closing c) (hs : Sending c) (heff : StepEffect c a c') (hl : LineEffect c a c')
    (hf : c'.xmit.flushCh = true) : c'.xmit.took = c'.xmit.assigned ∧ payloads c'.xmit.line.items = [] := by
  have hsend : ∀ {i : Nat} {data : Bytes}, c.calls[i]? = some (.send data .select) → c.xmit.flushCh = true → False :=
    fun hpc hf => h.sending _ _ hpc (.inr (.inl hf))
  have hkeep : c'.xmit.line.flushCh = c.xmit.line.flushCh → (c.xmit.flushCh = true → c'.xmit.line.took = c.xmit.took) →
      (c.xmit.flushCh = true → payloads c'.xmit.line.items = []) →
      c'.xmit.took = c'.xmit.assigned ∧ payloads c'.xmit.line.items = [] := by
    intro hsame htook hp
    have hold : c.xmit.flushCh = true := hsame.symm.trans hf
    rw [(h.quiet hs heff hold).1, ← (h.done hold).1]
    exact ⟨htook hold, hp hold⟩
  cases hl with
  | same h' => exact hkeep ((congrArg Line.flushCh h').trans rfl) (fun _ => (congrArg Line.took h').trans rfl) fun hf => by rw [h']; exact (h.done hf).2
  | send hpc h' => exact hkeep ((congrArg Line.flushCh h').trans rfl) (fun hf => (hsend hpc hf).elim) fun hf => (hsend hpc hf).elim
  | hand hpc _ h' => exact hkeep ((congrArg Line.flushCh h').trans rfl) (fun hf => (hsend hpc hf).elim) fun hf => (hsend hpc hf).elim
  | barrier _ h' | marker _ h' =>
    refine hkeep ((congrArg Line.flushCh h').trans rfl) (fun _ => (congrArg Line.took h').trans rfl) fun hf => ?_
    rw [h']
    simp [Line.push, (h.done hf).2]
  | receive _ hi h' =>
    have hnone : c.xmit.flushCh = true → False := by
      intro hf
      have := (h.done hf).2
      rw [hi] at this
      cases this
    exact hkeep ((congrArg Line.flushCh h').trans rfl) (fun hf => (hnone hf).elim) fun hf => (hnone hf).elim
  | answer _ _ _ hi h' =>
    refine hkeep ((congrArg Line.flushCh h').trans rfl) (fun _ => (congrArg Line.took h').trans rfl) fun hf => ?_
    have := (h.done hf).2
    rw [hi] at this
    rw [h']
    exact this
  | flush hloop _ hi h' =>
    have hquiet := heff.xmit.quiet hs.reliable (by rw [hloop]; rfl)
    have htook := hs.window.took (by simp [hloop, LoopPc.mode])
    rw [hloop, show LoopPc.marker.pending = [] from rfl, List.append_nil] at htook
    have hmark := h.marked
    rw [hi] at hmark
    rw [hquiet.1, ← htook, h']
    exact ⟨(congrArg Line.took h').trans rfl, hmark⟩

theorem Closing.step (h : Closing c) (hq : Queued c) (hs : Sending c) (hstep : c.step a = some c') : Closing c' := by
  have heff := step_effect hstep
  have hl := step_line hq.cap hstep
  have hstay : c.xmit.flushCh = true → c.xmit.unacked.keys = [] → c'.xmit.unacked.keys = [] :=
    fun hf => (h.quiet hs heff hf).2
  refine ⟨fun hst hb => ?_, h.sending_step hq heff hl, h.marked_step hl, h.done_step hs heff hl, ?_, ?_, ?_⟩
  · rcases begun_step heff hl hb with hb | ⟨_, _, _, hc⟩
    · exact h.early (heff.life.early hst) hb
    · rw [hc] at hst
      rcases hst with hst | hst <;> cases hst
  · intro i before pc hi hp
    rcases heff.call_cases hi with hold | hnew | ⟨pc₀, hold, hn⟩
    · exact hl.flushCh_stays (h.flushed i before pc hold hp)
    · cases pc with
      | lock => cases hp
      | _ => cases hnew
    · refine hl.flushCh_stays ?_
      cases hn with
      | closing | marker | closed => cases hp
      | close => exact h.flushed i before _ hold rfl
      | move hm => cases hm with
        | closeLock | closeClosed => cases hp
        | closeFlushed hf => exact hf
        | _ => exact h.flushed i before _ hold rfl
  · intro i before pc hi hp
    rcases heff.call_cases hi with hold | hnew | ⟨pc₀, hold, hn⟩
    · exact hstay (h.flushed i before pc hold (by cases pc <;> first | rfl | cases hp)) (h.drained i before pc hold hp)
    · cases pc with
      | lock => cases hp
      | _ => cases hnew
    · cases hn with
      | closing | marker | closed => cases hp
      | close => exact hstay (h.flushed i before _ hold rfl) (h.drained i before _ hold rfl)
      | move hm => cases hm with
        | closeLock | closeClosed | closePending | closeTick => cases hp
        | closeFlushed =>
          rw [hs.reliable] at hp
          cases hp
        | closeDrained hu => exact hstay (h.flushed i before _ hold rfl) hu
        | _ => exact hstay (h.flushed i before _ hold rfl) (h.drained i before _ hold rfl)
  · intro env he hk
    obtain ⟨extra, ho, hx⟩ := heff.out
    rw [ho, List.mem_append] at he
    have hboth : c.xmit.flushCh = true ∧ c.xmit.unacked.keys = [] := by
      rcases he with he | he
      · exact h.out env he hk
      · cases hx env he with
        | data hc =>
          rw [(hs.window.carried env hc).1] at hk
          cases hk
        | plain hr =>
          rw [hs.reliable] at hr
          cases hr
        | ack ha =>
          rw [hs.held env ha] at hk
          cases hk
        | close hpc => exact ⟨h.flushed _ _ _ hpc rfl, h.drained _ _ _ hpc rfl⟩
        | openAck | error => cases hk
    exact ⟨hl.flushCh_stays hboth.1, hstay hboth.1 hboth.2⟩

/-- With nothing left to acknowledge, every payload has its number and was acknowledged. -/
theorem Closing.complete (h : Closing c) (hq : Queued c) (hs : Sending c) (hf : c.xmit.flushCh = true)
    (hu : c.xmit.unacked.keys = []) :
    queuedPayloads c.returns = c.xmit.assigned ∧ c.xmit.sendBase = c.xmit.assigned.length + 1 := by
  obtain ⟨htook, hnone⟩ := h.done hf
  refine ⟨?_, ?_⟩
  · rw [hq.line.order, hnone, List.append_nil]
    exact htook
  · have hbase := hs.window.base
    have hnext := hs.window.next
    have hkey := hs.window.mem_keys (s := c.xmit.sendBase)
    rw [hu] at hkey
    have : ¬ (c.xmit.sendBase ≤ c.xmit.sendBase ∧ c.xmit.sendBase < c.xmit.nextSeq) := fun hb => nomatch hkey.mpr hb
    omega

/-- Once the loop has come to the marker, no `Send` returns nil any more. -/
theorem Closing.frozen (h : Closing c) (hl : LineEffect c a c') (hf : c.xmit.flushCh = true) :
    queuedPayloads c'.returns = queuedPayloads c.returns := by
  cases hl with
  | same _ hq => exact hq
  | send hpc | hand hpc => exact absurd (.inr (.inl hf)) (h.sending _ _ hpc)
  | barrier _ _ _ hr | marker _ _ _ hr | receive _ _ _ hr | answer _ _ _ _ _ hr | flush _ _ _ _ hr => rw [hr]

end

/-! ## Both ends -/

section

variable {config : Side → RelayConfig} {relayID : String} {session : Side → SessionRef} {ok : Pair → PairAction → Prop}
  {p : Pair}

theorem queued (h : Reach Pair.step ok (· = Pair.new config relayID session) p) (x : Side) : Queued (p x) := by
  refine Reach.ends_keep (P := fun _ c => Queued c) ?_ ?_ h x
  · rintro p rfl x
    exact .new _ _ _ _ _
  · intro p x a c _ hp _ hs
    exact hp.step hs

theorem closing (hr : ∀ x, (config x).reliability ≠ .bestEffort)
    (h : Reach Pair.step ok (· = Pair.new config relayID session) p) (x : Side) : Closing (p x) := by
  refine Reach.ends_keep (P := fun _ c => Closing c) ?_ ?_ h x
  · rintro p rfl x
    exact .new _ _ _ _ _
  · intro p x a c hreach hp _ hs
    exact hp.step (queued hreach x) (sending hr hreach x) hs

/-- After its CLOSE, all that an end was given to send was pushed at the other one. -/
theorem closed_delivered (ho : ∀ x, (config x).reliability = .reliableOrdered)
    (h : Reach Pair.step Network (· = Pair.new config relayID session) p) (x : Side)
    (hc : ∃ env ∈ (p x.peer).out, env.kind = .kindClose) :
    (p x).recv.pushed.map Prod.snd = queuedPayloads (p x.peer).returns := by
  have hr : ∀ x, (config x).reliability ≠ .bestEffort := fun x => by rw [ho x]; nofun
  obtain ⟨env, henv, hk⟩ := hc
  obtain ⟨hf, hu⟩ := (closing hr h x.peer).out env henv hk
  obtain ⟨hall, hbase⟩ := (closing hr h x.peer).complete (queued h x.peer) (sending hr h x.peer) hf hu
  have hacked := acked_pushed ho h x.peer
  rw [Side.peer_peer, hbase, Nat.add_sub_cancel, List.take_length] at hacked
  rw [hall]
  refine List.IsPrefix.eq_of_length_le ?_ hacked.length_le
  rw [pushed_eq_take ho h x]
  exact List.take_prefix _ _

/-! ### `ReceiveTimeout` after the end -/

structure Terminal (c : RelayConnection) : Prop where
  terminal : ∀ (i : Nat) (timed : Bool) (fallback : Err),
    c.calls[i]? = some (.receive timed (.terminal fallback)) → c.life.closed = true
  drain : ∀ (i : Nat) (timed remoteClosed : Bool) (cause : Option Err) (fallback : Err),
    c.calls[i]? = some (.receive timed (.drain remoteClosed cause fallback)) →
      c.life.closed = true ∧ remoteClosed = c.life.remoteClosed
  returned : ∀ err consumed, .terminal err consumed ∈ c.returns → c.life.closed = true

theorem Terminal.step {c c' : RelayConnection} {a : RelayConnection.Action} (h : Terminal c) (heff : StepEffect c a c') :
    Terminal c' := by
  refine ⟨?_, ?_, ?_⟩
  · intro i timed fallback hi
    rcases heff.call_cases hi with hold | hnew | ⟨pc₀, hold, hn⟩
    · exact heff.closed_stays (h.terminal i timed fallback hold)
    · cases hnew
    · cases hn with
      | move hm => cases hm with
        | receiveClosed hc => exact heff.closed_stays hc
  · intro i timed remoteClosed cause fallback hi
    rcases heff.call_cases hi with hold | hnew | ⟨pc₀, hold, hn⟩
    · obtain ⟨hc, he⟩ := h.drain i timed remoteClosed cause fallback hold
      exact ⟨heff.closed_stays hc, he.trans (heff.life.frozen hc).remoteClosed.symm⟩
    · cases hnew
    · cases hn with
      | move hm => cases hm with
        | receiveTerminal =>
          have hc := h.terminal i timed _ hold
          exact ⟨heff.closed_stays hc, (heff.life.frozen hc).remoteClosed.symm⟩
  · intro err consumed hr
    rcases heff.returns hr with hold | ⟨_, he⟩ | ⟨_, he⟩ | ⟨i, pc, _, hpc, hret, _⟩
    · exact heff.closed_stays (h.returned err consumed hold)
    · cases he
    · cases he
    · cases hret with
      | terminal => exact heff.closed_stays (h.drain i _ _ _ _ hpc).1

theorem terminal (h : Reach Pair.step ok (· = Pair.new config relayID session) p) (x : Side) : Terminal (p x) := by
  refine Reach.ends_keep (P := fun _ c => Terminal c) ?_ ?_ h x
  · rintro p rfl x
    refine ⟨fun i _ _ hi => ?_, fun i _ _ _ _ hi => ?_, fun _ _ ht => absurd ht List.not_mem_nil⟩
    all_goals exact absurd hi (by simp [Pair.new, RelayConnection.new])
  · intro p x a c _ hp _ hs
    exact hp.step (step_effect hs)

/-- A connection is closed by its peer in the step that handles CLOSE. -/
theorem LifeEffect.remoteClosed {c : RelayConnection} {a : RelayConnection.Action} {l : Life} (h : LifeEffect c a l)
    (hr : l.remoteClosed = true) : c.life.remoteClosed = true ∨
      c.life.closed = false ∧ ∃ env, c.recv.dispatcher = .handle env ∧ env.kind = .kindClose := by
  cases h with
  | same => exact .inl hr
  | note h => exact .inl (h.sameLife.remoteClosed.symm.trans hr)
  | openAck =>
    unfold Life.handleOpenAck at hr
    split at hr <;> exact .inl hr
  | closing => exact .inl hr
  | closed =>
    unfold Life.closeConnection Life.closeWithSource at hr
    split at hr
    · exact .inl hr
    · cases hr
  | remote hpc hk =>
    unfold Life.closeWithSource at hr
    split at hr
    · exact .inl hr
    · rename_i hs
      exact .inr ⟨by simpa [Life.closed] using hs, _, hpc, hk⟩

/-- The CLOSE being handled was handed out by the other end. -/
theorem close_handed_out (h : Reach Pair.step Network (· = Pair.new config relayID session) p) (x : Side)
    {env : RelayEnvelope} (hpc : (p x).recv.dispatcher = .handle env) : env ∈ (p x.peer).out :=
  frames_sent (by rintro _ rfl _; rfl) h x env (Recv.mem_frames.mpr (.inr (.inr (by rw [hpc]; exact List.mem_cons_self))))

theorem close_received (h : Reach Pair.step Network (· = Pair.new config relayID session) p) (x : Side)
    (hx : (p x).life.remoteClosed = true) : ∃ env ∈ (p x.peer).out, env.kind = .kindClose := by
  refine h.keeps (P := fun p => ∀ x, (p x).life.remoteClosed = true → ∃ env ∈ (p x.peer).out, env.kind = .kindClose)
    ?_ ?_ x hx
  · rintro p rfl x hx
    cases hx
  · intro p m q hreach hp _ hq y hy
    obtain ⟨hown, hother⟩ := stepAt_cases hq
    have heff := step_effect hown
    by_cases hm : y = m.1
    · subst hm
      rw [hother _ (Side.peer_ne _)]
      rcases heff.life.remoteClosed hy with hold | ⟨_, env, hpc, hk⟩
      · exact hp _ hold
      · exact ⟨env, close_handed_out hreach _ hpc, hk⟩
    · obtain rfl := Side.eq_peer_of_ne hm
      rw [hother _ hm] at hy
      obtain ⟨env, henv, hk⟩ := hp _ hy
      rw [Side.peer_peer] at henv ⊢
      obtain ⟨extra, hout, _⟩ := heff.out
      rw [hout]
      exact ⟨env, List.mem_append_left _ henv, hk⟩

/-- The first terminal error comes after the last payload. -/
theorem terminal_last (ho : ∀ x, (config x).reliability = .reliableOrdered)
    (h : Reach Pair.step Network (· = Pair.new config relayID session) p) (x : Side)
    (hx : (p x).life.remoteClosed = true) {err : Err} {consumed : List Bytes}
    (ht : .terminal err consumed ∈ (p x).returns) : consumed = queuedPayloads (p x.peer).returns := by
  have hr : ∀ x, (config x).reliability ≠ .bestEffort := fun x => by rw [ho x]; nofun
  refine h.keeps (P := fun p => ∀ x, (p x).life.remoteClosed = true → ∀ err consumed,
    .terminal err consumed ∈ (p x).returns → consumed = queuedPayloads (p x.peer).returns) ?_ ?_ x hx err consumed ht
  · rintro p rfl x hx
    cases hx
  · intro p m q hreach hp _ hq y hy err consumed ht
    obtain ⟨hown, hother⟩ := stepAt_cases hq
    have heff := step_effect hown
    by_cases hm : y = m.1
    · subst hm
      rw [hother _ (Side.peer_ne _)]
      have hold : (p m.1).life.closed = true → (p m.1).life.remoteClosed = true :=
        fun hc => (heff.life.frozen hc).remoteClosed.symm.trans hy
      rcases heff.returns ht with ht | ⟨_, he⟩ | ⟨_, he⟩ | ⟨i, pc, _, hpc, hret, _⟩
      · exact hp _ (hold ((terminal hreach m.1).returned err consumed ht)) err consumed ht
      · cases he
      · cases he
      · cases hret with
        | terminal hd =>
          obtain ⟨hc, hrc⟩ := (terminal hreach m.1).drain i _ _ _ _ hpc
          have hempty := hd (hrc.trans (hold hc))
          have hrecv := (inOrder ho hreach m.1).ordered.received
          rw [hempty, List.append_nil] at hrecv
          rw [hrecv]
          exact closed_delivered ho hreach m.1 (close_received hreach m.1 (hold hc))
    · -- the other end sends nothing any more
      obtain rfl := Side.eq_peer_of_ne hm
      rw [hother _ hm] at hy ht
      obtain ⟨env, henv, hk⟩ := close_received hreach _ hy
      have := hp _ hy err consumed ht
      rw [Side.peer_peer] at henv this ⊢
      have hclose := closing hr hreach m.1
      rw [this, hclose.frozen (step_line (queued hreach m.1).cap hown) (hclose.out env henv hk).1]

end

/-- A graceful close loses nothing: when a CLOSE is about to be handled, and ever after it was the
    cause of the closing, all the payloads of the sender were pushed, in order and once, and a terminal
    error is returned only when all of them were received. -/
theorem close_loses_nothing {config : Side → RelayConfig} {relayID : String} {session : Side → SessionRef}
    (ho : ∀ x, (config x).reliability = .reliableOrdered) {p : Pair}
    (h : Reach Pair.step Network (· = Pair.new config relayID session) p) (x : Side) :
    (∀ env, (p x).recv.dispatcher = .handle env → env.kind = .kindClose →
      (p x).recv.pushed.map Prod.snd = queuedPayloads (p x.peer).returns) ∧
    ((p x).life.remoteClosed = true →
      (p x).recv.pushed.map Prod.snd = queuedPayloads (p x.peer).returns ∧
      (p x).recv.consumed ++ (p x).recv.recvCh = (p x).recv.pushed.map Prod.snd ∧
      ∀ err consumed, .terminal err consumed ∈ (p x).returns → consumed = (p x).recv.pushed.map Prod.snd) := by
  refine ⟨fun env hpc hk => ?_, fun hx => ?_⟩
  · exact closed_delivered ho h x ⟨env, close_handed_out h x hpc, hk⟩
  · have hall := closed_delivered ho h x (close_received h x hx)
    refine ⟨hall, (inOrder ho h x).ordered.received, fun err consumed ht => ?_⟩
    rw [hall]
    exact terminal_last ho h x hx ht

/-- Call `i` of `a` is a `Close`, which gets as far as its CLOSE, and `b` handles that. -/
def closes (i reader : Nat) : List PairAction :=
  List.flatten [[(.a, .call .close)], List.replicate 3 (.a, .run i .go), List.replicate 2 (.a, .loop .go),
    List.replicate 5 (.a, .run i .go), gets .b (sampleEnvelope .a .kindClose 0 0 []) reader 4]

/-- Call `i` of `b` is a `ReceiveTimeout` whose `select` picks `closeCh`. -/
def receivesClosed (i : Nat) : List PairAction :=
  [(.b, .call (.receive false)), (.b, .run i .closed), (.b, .run i .go), (.b, .run i .go)]

deriving instance DecidableEq for Return

/-- One payload is acknowledged, then `Close`; the first of two receives gets the payload. -/
theorem close_loses_nothing_one : ∃ p : Pair,
    ((p .b).life.remoteClosed = true ∧ (p .b).recv.consumed = [[10]] ∧
      (.terminal .remoteClose [[10]] : Return) ∈ (p .b).returns) ∧
    (p .b).recv.pushed.map Prod.snd = queuedPayloads (p .a).returns := by
  have h : ((exec (guarded Pair.step Network) (samplePair .reliableOrdered 8) (List.flatten
      [opened, sends .a 0 [10], [(.a, .task 0 none), (.a, .task 0 none)],
        gets .b (sampleEnvelope .a .kindData 1 0 [10]) 4 9, acks .b,
        [(.b, .ackWorker (.result none)), (.b, .ackWorker .go)], gets .a (sampleEnvelope .b .kindAck 0 1 []) 1 0,
        closes 1 2, receivesClosed 0, receivesClosed 1])).any fun p =>
      (p .b).life.remoteClosed = true ∧ (p .b).recv.consumed = [[10]] ∧
        (.terminal .remoteClose [[10]] : Return) ∈ (p .b).returns) = true := by
    decide +kernel
  obtain ⟨p, hp, hw⟩ := reach_any (I := fun p => p = samplePair .reliableOrdered 8) _ (.init rfl) h
  simp only [decide_eq_true_eq] at hw
  exact ⟨p, hw, ((close_loses_nothing (fun _ => rfl) hp .b).2 hw.1).1⟩

/-- `Send` of an empty payload returns nil, and nothing is sent. -/
theorem empty_payload_dropped : ∃ p : Pair, Reach Pair.step Network (· = samplePair .reliableOrdered 8) p ∧
    (p .b).life.remoteClosed = true ∧ sentPayloads (p .a).returns = [[]] ∧ (p .b).recv.pushed = [] := by
  have h : ((exec (guarded Pair.step Network) (samplePair .reliableOrdered 8) (List.flatten
      [opened, [(.a, .call (.send []))], closes 1 3])).any fun p =>
      (p .b).life.remoteClosed = true ∧ sentPayloads (p .a).returns = [[]] ∧ (p .b).recv.pushed = []) = true := by
    decide +kernel
  obtain ⟨p, hp, hw⟩ := reach_any (I := fun p => p = samplePair .reliableOrdered 8) _ (.init rfl) h
  simp only [decide_eq_true_eq] at hw
  exact ⟨p, hp, hw⟩

/-! ## What `Close` returns -/

/-- `Abort` is not called. -/
def Unaborted (_ : RelayConnection) : RelayConnection.Action → Prop
  | .abort _ => False
  | _ => True

/-- A `Close` that looks at the state finds the connection open or closed. -/
def OpenOrClosed (c : RelayConnection) : RelayConnection.Action → Prop
  | .run i _ =>
    match c.calls[i]? with
    | some (.close _ .state) => c.life.state = .stateOpen ∨ c.life.state = .stateClosed
    | _ => True
  | _ => True

instance (c : RelayConnection) (a : RelayConnection.Action) : Decidable (Unaborted c a) := by
  unfold Unaborted
  split <;> infer_instance

instance (c : RelayConnection) (a : RelayConnection.Action) : Decidable (OpenOrClosed c a) := by
  unfold OpenOrClosed
  split
  · split <;> infer_instance
  · infer_instance

structure CloseReturns (c : RelayConnection) : Prop where
  result : ∀ i before : Nat, c.calls[i]? = some (.close before .result) → c.life.closed = true
  before : ∀ before pc, .close before pc ∈ c.calls → before ≤ (queuedPayloads c.returns).length
  returned : ∀ before err, .close before err ∈ c.returns →
    before ≤ (queuedPayloads c.returns).length ∧ (err = none → c.life.closed = true ∧ c.life.closeErr = none)
  clean : c.life.closed = true → c.life.closeErr = none → c.xmit.flushCh = true ∧ c.xmit.unacked.keys = []

section

variable {c c' : RelayConnection} {a : RelayConnection.Action}

theorem CloseReturns.new (config : RelayConfig) (relayID : String) (my remote : SessionRef) (dialed : Bool) :
    CloseReturns (.new config relayID my remote dialed) :=
  ⟨nofun, nofun, nofun, fun hc _ => by cases dialed <;> cases hc⟩

/-- A connection is closed without an error only by a `Close` whose CLOSE was accepted. -/
theorem LifeEffect.clean {l : Life} (h : LifeEffect c a l) (ha : Unaborted c a) (hc : l.closed = true)
    (he : l.closeErr = none) : c.life.closed = true ∧ c.life.closeErr = none ∨
      ∃ i before : Nat, c.calls[i]? = some (.close before .sent) := by
  have hsame : ∀ {reason : Option Err} {remote : Bool}, c.life.state = .stateClosed →
      c.life.closeWithSource reason remote = c.life := fun hs => if_pos hs
  cases h with
  | same => exact .inl ⟨hc, he⟩
  | note h => exact .inl ⟨h.sameLife.closed_eq.symm.trans hc, h.sameLife.closeErr.symm.trans he⟩
  | openAck =>
    unfold Life.handleOpenAck at hc he
    split at hc
    · cases hc
    · rw [if_neg ‹_›] at he
      exact .inl ⟨hc, he⟩
  | closing => cases hc
  | @closed reason hr =>
    by_cases hs : c.life.state = .stateClosed
    · rw [Life.closeConnection, hsame hs] at hc he
      exact .inl ⟨hc, he⟩
    · rw [Life.closeConnection, Life.closeWithSource, if_neg hs] at he
      rcases hr he with rfl | hcall
      · exact absurd ha id
      · exact .inr hcall
  | remote =>
    by_cases hs : c.life.state = .stateClosed
    · rw [hsame hs] at hc he
      exact .inl ⟨hc, he⟩
    · rw [Life.closeWithSource, if_neg hs] at he
      cases he

theorem CallMove.to_result {pc : CallPc} {before : Nat} (h : CallMove c pc (.close before .result)) :
    c.life.closed = true := by
  generalize hq : CallPc.close before .result = pc' at h
  cases h with
  | closeClosed _ hc => exact hc
  | closeFlushed => split at hq <;> cases hq
  | _ => cases hq

/-- A `Close` that goes on keeps its count. -/
theorem CallNext.before {pc : CallPc} {before : Nat} {q : ClosePc} (h : CallNext c c' pc (.close before q)) :
    ∃ q₀, pc = .close before q₀ := by
  generalize hq : CallPc.close before q = pc' at h
  cases h with
  | move hm => cases hm <;> cases hq <;> exact ⟨_, rfl⟩
  | _ => cases hq <;> exact ⟨_, rfl⟩

theorem CloseReturns.before_step (h : CloseReturns c) (heff : StepEffect c a c')
    (hlen : (queuedPayloads c.returns).length ≤ (queuedPayloads c'.returns).length) :
    ∀ before pc, .close before pc ∈ c'.calls → before ≤ (queuedPayloads c'.returns).length := by
  intro before pc hm
  have hold : .close before pc ∈ c.calls → before ≤ (queuedPayloads c'.returns).length :=
    fun hm => Nat.le_trans (h.before before pc hm) hlen
  rcases heff.calls with hs | ⟨call, _, rfl⟩ | ⟨i, how, pc₀, _, hpc, he⟩
  · exact hold (hs ▸ hm)
  · cases call with
    | send data => cases data with
      | _ =>
        rcases List.mem_append.mp hm with hm | hm
        · exact hold hm
        · cases List.mem_singleton.mp hm
    | close =>
      rcases List.mem_append.mp hm with hm | hm
      · exact hold hm
      · cases List.mem_singleton.mp hm
        exact Nat.le_refl _
    | _ =>
      rcases List.mem_append.mp hm with hm | hm
      · exact hold hm
      · cases List.mem_singleton.mp hm
  · obtain ⟨pc', hcalls, hnext⟩ := he.next
    rw [hcalls] at hm
    rcases List.mem_or_eq_of_mem_set hm with hm | rfl
    · exact hold hm
    · obtain ⟨q₀, rfl⟩ := hnext.before
      exact Nat.le_trans (h.before before q₀ (List.mem_of_getElem? hpc)) hlen

theorem CloseReturns.step (h : CloseReturns c) (hclose : Closing c) (hq : Queued c) (hs : Sending c)
    (ha : Unaborted c a) (hok : OpenOrClosed c a) (hstep : c.step a = some c') : CloseReturns c' := by
  have heff := step_effect hstep
  have hl := step_line hq.cap hstep
  have hlen := hl.queued_grows.length_le
  have hstays : c.life.closed = true ∧ c.life.closeErr = none → c'.life.closed = true ∧ c'.life.closeErr = none :=
    fun hc => ⟨heff.closed_stays hc.1, (heff.life.frozen hc.1).closeErr.trans hc.2⟩
  refine ⟨?_, h.before_step heff hlen, ?_, ?_⟩
  · intro i before hi
    rcases heff.call_cases hi with hold | hnew | ⟨pc₀, hold, hn⟩
    · exact heff.closed_stays (h.result i before hold)
    · cases hnew
    · cases hn with
      | closed hc => exact hc
      | move hm => exact heff.closed_stays hm.to_result
  · intro before err hr
    rcases heff.returns hr with hold | ⟨_, he⟩ | ⟨_, he⟩ | ⟨i, pc, ⟨how, rfl⟩, hpc, hret, hc'⟩
    · obtain ⟨hb, hn⟩ := h.returned before err hold
      exact ⟨Nat.le_trans hb hlen, fun he => hstays (hn he)⟩
    · cases he
    · cases he
    · have hb : before ≤ (queuedPayloads c'.returns).length := by
        cases hret <;> exact Nat.le_trans (h.before before _ (List.mem_of_getElem? hpc)) hlen
      refine ⟨hb, fun he => hstays ?_⟩
      cases hret with
      | closeNotOpen hne =>
        simp only [OpenOrClosed, hpc] at hok
        exact ⟨by simpa [Life.closed] using hok.resolve_left hne, he⟩
      | closeStart hc => exact ⟨hc, he⟩
      | closeResult => exact ⟨h.result i before hpc, he⟩
  · intro hc he
    rcases heff.life.clean ha hc he with ⟨hc, he⟩ | ⟨i, before, hpc⟩
    · obtain ⟨hf, hu⟩ := h.clean hc he
      exact ⟨hl.flushCh_stays hf, (hclose.quiet hs heff hf).2 hu⟩
    · have hf := hclose.flushed i before _ hpc rfl
      exact ⟨hl.flushCh_stays hf, (hclose.quiet hs heff hf).2 (hclose.drained i before _ hpc rfl)⟩

theorem closeReturns {config : RelayConfig} {relayID : String} {my remote : SessionRef} {dialed : Bool}
    (hr : config.reliability ≠ .bestEffort)
    (h : Reach RelayConnection.step (fun c a => Unaborted c a ∧ OpenOrClosed c a)
      (· = .new config relayID my remote dialed) c) : Sending c ∧ Queued c ∧ Closing c ∧ CloseReturns c := by
  refine h.keeps (P := fun c => Sending c ∧ Queued c ∧ Closing c ∧ CloseReturns c) ?_ ?_
  · rintro _ rfl
    exact ⟨.new hr _ _ _ _, .new _ _ _ _ _, .new _ _ _ _ _, .new _ _ _ _ _⟩
  · rintro c a c' _ ⟨hs, hq, hclose, hret⟩ ⟨ha, hok⟩ hstep
    exact ⟨hs.step (step_effect hstep), hq.step hstep, hclose.step hq hs hstep, hret.step hclose hq hs ha hok hstep⟩

end

/-- When a `Close` has returned nil, the connection is closed, and the payloads whose `Send` had
    returned nil before it, numbered as they were sent, are acknowledged. -/
theorem close_acknowledged {config : RelayConfig} {relayID : String} {my remote : SessionRef} {dialed : Bool}
    {c : RelayConnection} {before : Nat} (ho : config.reliability = .reliableOrdered)
    (h : Reach RelayConnection.step (fun c a => Unaborted c a ∧ OpenOrClosed c a)
      (· = .new config relayID my remote dialed) c) (hret : .close before none ∈ c.returns) :
    c.life.state = .stateClosed ∧ before ≤ (queuedPayloads c.returns).length ∧
      (queuedPayloads c.returns).take before = c.xmit.assigned.take before ∧
      ∀ s, 1 ≤ s → s ≤ before → s ∈ c.xmit.acked ∧ c.xmit.unacked.lookup s = none := by
  obtain ⟨hs, hq, hclose, hreturns⟩ := closeReturns (by rw [ho]; nofun) h
  obtain ⟨hb, hnil⟩ := hreturns.returned before none hret
  obtain ⟨hc, he⟩ := hnil rfl
  obtain ⟨hf, hu⟩ := hreturns.clean hc he
  obtain ⟨hall, hbase⟩ := hclose.complete hq hs hf hu
  rw [hall] at hb
  refine ⟨by simpa [Life.closed] using hc, by rw [hall]; exact hb, by rw [hall], fun s h1 hsb => ⟨?_, ?_⟩⟩
  · exact (hs.window.acked s).mpr ⟨h1, by omega⟩
  · cases hl : c.xmit.unacked.lookup s with
    | none => rfl
    | some d =>
      have := ((hs.window.unacked s d).mp hl).1
      omega

/-- An accepted reliable-ordered connection. -/
def sampleConnection : RelayConnection :=
  .new { defaultRelayConfig with reliability := .reliableOrdered, windowSize := 8 } "r" (sampleSession .b) (sampleSession .a) false

/-- A payload is handed to the network, and a `Close` puts its marker in line. -/
def sendAndClose : List RelayConnection.Action :=
  List.flatten [[.loop .go, .call (.send [10])], List.replicate 3 (.run 0 .go), List.replicate 3 (.loop .go), [.call .close],
    List.replicate 3 (.run 1 .go)]

theorem close_acknowledged_once : ∃ c : RelayConnection, (.close 1 none : Return) ∈ c.returns ∧
    c.life.state = .stateClosed ∧ 1 ∈ c.xmit.acked := by
  have h : ((exec (guarded RelayConnection.step fun c a => Unaborted c a ∧ OpenOrClosed c a) sampleConnection
      (List.flatten [sendAndClose, [.task 0 none, .task 0 none, .packet (sampleEnvelope .a .kindAck 0 1 []), .reader],
        List.replicate 2 (.loop .go), List.replicate 5 (.run 1 .go), [.run 1 (.result none), .run 1 .go]])).any fun c =>
      decide ((.close 1 none : Return) ∈ c.returns)) = true := by
    decide +kernel
  obtain ⟨c, hc, hw⟩ := reach_any (I := fun c => c = sampleConnection) _ (.init rfl) h
  have hret := of_decide_eq_true hw
  obtain ⟨hstate, _, _, hacked⟩ := close_acknowledged rfl hc hret
  exact ⟨c, hret, hstate, (hacked 1 (Nat.le_refl 1) (Nat.le_refl 1)).1⟩

/-- A second `Close` finds the state Closing and returns nil, with the payload not acknowledged. -/
theorem close_returns_early : ∃ c : RelayConnection, Reach RelayConnection.step Unaborted (· = sampleConnection) c ∧
    (.close 1 none : Return) ∈ c.returns ∧ c.life.state = .stateClosing ∧ queuedPayloads c.returns = [[10]] ∧
      c.xmit.acked = [] := by
  have h : ((exec (guarded RelayConnection.step Unaborted) sampleConnection
      (sendAndClose ++ [.call .close, .run 2 .go, .run 2 .go])).any fun c =>
      (.close 1 none : Return) ∈ c.returns ∧ c.life.state = .stateClosing ∧ queuedPayloads c.returns = [[10]] ∧
        c.xmit.acked = []) = true := by
    decide +kernel
  obtain ⟨c, hc, hw⟩ := reach_any (I := fun c => c = sampleConnection) _ (.init rfl) h
  exact ⟨c, hc, of_decide_eq_true hw⟩

end Turntf.Relay
