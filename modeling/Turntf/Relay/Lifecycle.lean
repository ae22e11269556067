/-
  Turntf.Relay.Lifecycle — the life of a `RelayConnection` goes one way, and each function
  given to `OnClose` is called once (`OnClose`, `closeWithSource`, `handleEnvelope` in
  `relay.go`).

  A connection is closed by whoever gets to `closeWithSource` first: the handling of CLOSE or
  ERROR, a deadline, a failed sending, a receive overflow, `Abort`, `closeAll`. That section
  copies the callbacks registered so far; the rest of it (`Notice`) calls them one after the
  other while other goroutines go on, and an `OnClose` that finds the connection closed calls
  its function itself.

  Proved:
  (1) The state only moves along Opening, Open, Closing, Closed, and a closed connection keeps
      what its first close set (`LifeEffect.onward`).
  (2) What was called and what the notice has yet to call are the registered functions, each as
      often as it was registered (`Notifies`); all calls have the first reason.
  Both are in `life_one_way`.
-/

import Turntf.Relay.Manager
import Turntf.Relay.Steps

namespace Turntf.Relay

open Lts

/-- How far a state is along the life of a connection. -/
def RelayState.rank : RelayState → Nat
  | .stateOpening => 0
  | .stateOpen => 1
  | .stateClosing => 2
  | .stateClosed => 3

theorem RelayState.rank_le_closed (s : RelayState) : s.rank ≤ RelayState.stateClosed.rank := by
  cases s <;> decide

/-- The callbacks that are yet to be called. -/
def Notice.callbacks : Notice → List Nat
  | .none => []
  | .remove callbacks | .call callbacks => callbacks

/-- The functions an action gives to `OnClose`. -/
def RelayConnection.Action.registers : RelayConnection.Action → List Nat
  | .onClose callback => [callback]
  | _ => []

/-- The functions given to `OnClose` in a run. -/
def registrations (tr : List (RelayConnection × RelayConnection.Action)) : List Nat :=
  tr.flatMap fun st => st.2.registers

section

variable {c c' : RelayConnection} {a : RelayConnection.Action} {l l' l'' : Life} {callbacks : List Nat}

theorem Life.closed_iff : l.closed = true ↔ l.state = .stateClosed := by
  simp [Life.closed]

/-! ## One way -/

/-- `l'` comes after `l` in the life of a connection. -/
structure Onward (l l' : Life) : Prop where
  rank : l.state.rank ≤ l'.state.rank
  closed : l.closed = true → SameLife l l'

theorem Onward.refl (l : Life) : Onward l l := ⟨Nat.le_refl _, fun _ => .refl l⟩

theorem SameLife.trans (h : SameLife l l') (h' : SameLife l' l'') : SameLife l l'' :=
  ⟨h'.state.trans h.state, h'.closeErr.trans h.closeErr, h'.remoteClosed.trans h.remoteClosed,
    h'.remoteSession.trans h.remoteSession⟩

theorem Onward.trans (h : Onward l l') (h' : Onward l' l'') : Onward l l'' := by
  refine ⟨h.rank.trans h'.rank, fun hc => ?_⟩
  have hsame := h.closed hc
  exact hsame.trans (h'.closed (hsame.closed_eq.trans hc))

theorem LifeEffect.onward (h : LifeEffect c a l) : Onward c.life l := by
  refine ⟨?_, h.frozen⟩
  have hclosed : ∀ reason remote, c.life.state.rank ≤ (c.life.closeWithSource reason remote).state.rank := by
    intro reason remote
    rw [Life.closed_iff.mp (closeWithSource_closed c.life reason remote)]
    exact RelayState.rank_le_closed _
  cases h with
  | same => exact Nat.le_refl _
  | note h => rw [h.sameLife.state]
  | openAck =>
    unfold Life.handleOpenAck
    split
    · rename_i ho
      rw [ho]
      exact Nat.zero_le _
    · exact Nat.le_refl _
  | closing _ ho =>
    rw [ho]
    exact Nat.le_succ 1
  | closed | remote => exact hclosed _ _

theorem onward {ok : RelayConnection → RelayConnection.Action → Prop} {I : RelayConnection → Prop}
    {tr : List (RelayConnection × RelayConnection.Action)} (h : Trace RelayConnection.step ok I tr c) :
    ∀ st ∈ tr, Onward st.1.life c.life := by
  refine h.keeps (P := fun tr c => ∀ st ∈ tr, Onward st.1.life c.life) (fun _ _ => nofun) ?_
  intro tr s a t _ ih _ hs st hst
  have hstep := (step_effect hs).life.onward
  rcases List.mem_append.mp hst with hst | hst
  · exact (ih st hst).trans hstep
  · cases List.mem_singleton.mp hst
    exact hstep

/-! ## Called once -/

/-- The life of a connection with these callbacks registered so far. -/
structure Notifies (l : Life) (callbacks : List Nat) : Prop where
  early : l.closed = false → l.onClose = callbacks ∧ l.notice = .none ∧ l.notified = []
  unset : l.closed = false → l.closeErr = none ∧ l.remoteClosed = false
  /-- Once closed, each callback was called or is yet to be. -/
  owed : l.closed = true → (l.notified.map Prod.fst ++ l.notice.callbacks).Perm callbacks
  reasons : ∀ call ∈ l.notified, call.2 = l.closeErr

theorem Notifies.new (config : RelayConfig) (relayID : String) (my remote : SessionRef) (dialed : Bool) :
    Notifies (RelayConnection.new config relayID my remote dialed).life [] :=
  ⟨fun _ => ⟨rfl, rfl, rfl⟩, fun _ => ⟨rfl, rfl⟩, fun hc => (by cases dialed <;> cases hc), nofun⟩

/-- A state other than Closed matters to nobody here. -/
theorem Notifies.moves {state : RelayState} {remoteSession : SessionRef} {openCh : Bool} (h : Notifies l callbacks)
    (ho : l.state ≠ .stateClosed) (hs : state ≠ .stateClosed) :
    Notifies { l with state := state, remoteSession := remoteSession, openCh := openCh } callbacks := by
  have hopen : l.closed = false := by simpa [Life.closed] using ho
  exact ⟨fun _ => h.early hopen, fun _ => h.unset hopen, fun hc => absurd (Life.closed_iff.mp hc) hs, h.reasons⟩

theorem Notifies.close (h : Notifies l callbacks) (reason : Option Err) (remoteClose : Bool) :
    Notifies (l.closeWithSource reason remoteClose) callbacks := by
  unfold Life.closeWithSource
  split
  · exact h
  · rename_i ho
    obtain ⟨hreg, -, hnone⟩ := h.early (by simpa [Life.closed] using ho)
    refine ⟨fun hc => absurd hc (by simp [Life.closed]), fun hc => absurd hc (by simp [Life.closed]), fun _ => ?_,
      fun call hcall => ?_⟩
    · -- nothing was called yet, and the notice has a copy of all of them
      simp [hnone, hreg, Notice.callbacks]
    · simp [hnone] at hcall

/-- A closed connection goes on notifying: what it calls, it calls with the reason of the close. -/
theorem Notifies.goes {registered : List Nat} (h : Notifies l callbacks) (hc : l.closed = true) (hs : SameLife l l')
    (hp : (l'.notified.map Prod.fst ++ l'.notice.callbacks).Perm registered)
    (hr : ∀ call ∈ l'.notified, call ∈ l.notified ∨ call.2 = l.closeErr) : Notifies l' registered := by
  have hclosed : l'.closed ≠ false := by simp [hs.closed_eq, hc]
  refine ⟨fun ho => absurd ho hclosed, fun ho => absurd ho hclosed, fun _ => hp, fun call hcall => ?_⟩
  rw [hs.closeErr]
  rcases hr call hcall with hcall | hcall
  · exact h.reasons call hcall
  · exact hcall

/-- Only a closed connection has a notice. -/
theorem Notifies.closed (h : Notifies l callbacks) (hn : l.notice ≠ .none) : l.closed = true := by
  by_contra ho
  exact hn (h.early (by simpa using ho)).2.1

theorem Notifies.note (h : Notifies l callbacks) (hn : NoteEffect l a l') : Notifies l' (callbacks ++ a.registers) := by
  have hsame := hn.sameLife
  cases hn with
  | @late callback hc =>
    have hp : (l.notified.map Prod.fst ++ callback :: l.notice.callbacks).Perm (callbacks ++ [callback]) :=
      List.perm_middle.trans (((h.owed hc).cons callback).trans (List.perm_append_singleton _ _).symm)
    refine h.goes hc hsame (by simpa [RelayConnection.Action.registers] using hp) fun call hcall => ?_
    exact (List.mem_append.mp hcall).imp_right fun hcall => by rw [List.mem_singleton.mp hcall]
  | register ho =>
    have hclosed : l.closed ≠ true := by simp [ho]
    obtain ⟨hreg, hrest⟩ := h.early ho
    exact ⟨fun _ => ⟨by rw [← hreg]; rfl, hrest⟩, h.unset, fun hc => absurd hc hclosed, h.reasons⟩
  | remove hn | finish hn =>
    have hc := h.closed (by simp [hn])
    have hp := h.owed hc
    rw [hn] at hp
    refine h.goes hc hsame ?_ fun call hcall => .inl hcall
    simpa [RelayConnection.Action.registers, Notice.callbacks] using hp
  | call hn =>
    have hc := h.closed (by simp [hn])
    have hp := h.owed hc
    rw [hn] at hp
    refine h.goes hc hsame (by simpa [RelayConnection.Action.registers, Notice.callbacks] using hp) fun call hcall => ?_
    exact (List.mem_append.mp hcall).imp_right fun hcall => by rw [List.mem_singleton.mp hcall]

theorem registerOnClose_note (c : RelayConnection) (callback : Nat) :
    NoteEffect c.life (.onClose callback) (c.registerOnClose callback).life := by
  unfold RelayConnection.registerOnClose
  split
  · exact .late ‹_›
  · exact .register (by simpa using ‹¬c.life.closed = true›)

theorem Notifies.step (h : Notifies c.life callbacks) (hs : c.step a = some c') :
    Notifies c'.life (callbacks ++ a.registers) := by
  by_cases ha : a.registers = []
  · have hsame : callbacks ++ a.registers = callbacks := by rw [ha, List.append_nil]
    have heff := (step_effect hs).life
    generalize c'.life = l at heff ⊢
    cases heff with
    | note hn => exact h.note hn
    | same => rwa [hsame]
    | openAck env =>
      rw [hsame]
      unfold Life.handleOpenAck
      split
      · rename_i ho
        exact h.moves (by rw [ho]; nofun) nofun
      · exact h
    | closing _ ho =>
      rw [hsame]
      exact h.moves (by rw [ho]; nofun) nofun
    | closed | remote =>
      rw [hsame]
      exact h.close _ _
  · cases a with
    | onClose callback =>
      cases hs
      exact h.note (registerOnClose_note c callback)
    | _ => exact absurd rfl ha

theorem notifies {ok : RelayConnection → RelayConnection.Action → Prop}
    {tr : List (RelayConnection × RelayConnection.Action)} (h : Trace RelayConnection.step ok Fresh tr c) :
    Notifies c.life (registrations tr) := by
  refine h.keeps (P := fun tr c => Notifies c.life (registrations tr)) ?_ ?_
  · rintro c ⟨config, relayID, my, remote, dialed, rfl⟩
    exact .new config relayID my remote dialed
  · intro tr s a t _ ih _ hs
    have := ih.step hs
    simpa [registrations] using this

/-- The rest of a closing runs to its end on its own. -/
theorem notice_ends (c : RelayConnection) : ∃ n c', exec RelayConnection.step c (List.replicate n .notify) = some c' ∧
    c'.life.notice = .none := by
  have hcall : ∀ (callbacks : List Nat) (c : RelayConnection), c.life.notice = .call callbacks →
      ∃ n c', exec RelayConnection.step c (List.replicate n .notify) = some c' ∧ c'.life.notice = .none := by
    intro callbacks
    induction callbacks with
    | nil =>
      intro c hn
      exact ⟨1, _, by simp only [List.replicate, exec, RelayConnection.step, RelayConnection.notifyStep, hn]; rfl, rfl⟩
    | cons callback callbacks ih =>
      intro c hn
      obtain ⟨n, c', hexec, hend⟩ := ih { c with life := { c.life with
        notice := .call callbacks, notified := c.life.notified ++ [(callback, c.life.closeErr)] } } rfl
      refine ⟨n + 1, c', ?_, hend⟩
      simpa only [List.replicate, exec, RelayConnection.step, RelayConnection.notifyStep, hn, Option.bind_some]
        using hexec
  cases hn : c.life.notice with
  | none => exact ⟨0, c, rfl, hn⟩
  | call callbacks => exact hcall callbacks c hn
  | remove callbacks =>
    obtain ⟨n, c', hexec, hend⟩ := hcall callbacks
      { c with life := { c.life with registered := false, notice := .call callbacks } } rfl
    refine ⟨n + 1, c', ?_, hend⟩
    simpa only [List.replicate, exec, RelayConnection.step, RelayConnection.notifyStep, hn, Option.bind_some]
      using hexec

/-- In every run of a connection: its state never goes back and stays Closed; `closeErr` and
    `remoteClosed` are set by the first close alone; each function is called at most as often as
    it was given to `OnClose`, with that close's reason, and exactly as often once the closing
    has run to its end. -/
theorem life_one_way {tr : List (RelayConnection × RelayConnection.Action)}
    (h : Trace RelayConnection.step free Fresh tr c) :
    (∀ st ∈ tr, st.1.life.state.rank ≤ c.life.state.rank ∧
      (st.1.life.state = .stateClosed → c.life.state = .stateClosed ∧
        c.life.closeErr = st.1.life.closeErr ∧ c.life.remoteClosed = st.1.life.remoteClosed)) ∧
    (c.life.state ≠ .stateClosed →
      c.life.closeErr = none ∧ c.life.remoteClosed = false ∧ c.life.notified = []) ∧
    (∀ call ∈ c.life.notified, call.2 = c.life.closeErr) ∧
    (∀ callback, (c.life.notified.map Prod.fst).count callback ≤ (registrations tr).count callback) ∧
    (c.life.state = .stateClosed → c.life.notice = .none →
      (c.life.notified.map Prod.fst).Perm (registrations tr)) ∧
    ∃ n c', exec RelayConnection.step c (List.replicate n .notify) = some c' ∧ c'.life.notice = .none := by
  have hn := notifies h
  refine ⟨fun st hst => ?_, fun ho => ?_, hn.reasons, fun callback => ?_, fun hc hend => ?_, notice_ends c⟩
  · have hon := onward h st hst
    refine ⟨hon.rank, fun hc => ?_⟩
    have hsame := hon.closed (Life.closed_iff.mpr hc)
    exact ⟨hsame.state.trans hc, hsame.closeErr, hsame.remoteClosed⟩
  · have hopen : c.life.closed = false := by simpa [Life.closed] using ho
    obtain ⟨herr, hremote⟩ := hn.unset hopen
    exact ⟨herr, hremote, (hn.early hopen).2.2⟩
  · cases hc : c.life.closed with
    | false => simp [(hn.early hc).2.2]
    | true =>
      rw [← (hn.owed hc).count_eq, List.count_append]
      exact Nat.le_add_right _ _
  · have hp := hn.owed (Life.closed_iff.mpr hc)
    simpa [hend, Notice.callbacks] using hp

end

/-- An open connection is being closed by a `Close`, and the CLOSE of its peer is about to be
    handled; `Abort` is faster than both. One callback was registered before, one while the first
    is yet to be called and one at the end. -/
def closings : List RelayConnection.Action := List.flatten
  [[.onClose 0, .call .close, .run 0 .go, .run 0 .go, .packet (sampleEnvelope .a .kindClose 0 0 [])],
    List.replicate 3 .reader, List.replicate 3 (.dispatcher .go),
    [.abort (some .sendTimeout), .onClose 1, .dispatcher .go, .deadline 0],
    List.replicate 3 .notify, [.onClose 2]]

theorem life_one_way_closings : ∃ tr c, Trace RelayConnection.step free Fresh tr c ∧
    c.life.state = .stateClosed ∧ c.life.remoteClosed = false ∧ c.life.notice = .none ∧
    c.life.notified = [(1, some .sendTimeout), (0, some .sendTimeout), (2, some .sendTimeout)] ∧
    (c.life.notified.map Prod.fst).Perm (registrations tr) := by
  have h : (record (guarded RelayConnection.step free) []
      (.new defaultRelayConfig "r" (sampleSession .b) (sampleSession .a) false) closings).any (fun r =>
        r.2.life.state = .stateClosed ∧ r.2.life.remoteClosed = false ∧ r.2.life.notice = .none ∧
        r.2.life.notified = [(1, some .sendTimeout), (0, some .sendTimeout), (2, some .sendTimeout)]) = true := by
    decide +kernel
  obtain ⟨tr, c, htr, hw⟩ := trace_any (I := Fresh) _ ⟨_, _, _, _, _, rfl⟩ h
  simp only [decide_eq_true_eq] at hw
  obtain ⟨hc, hr, hend, hcalls⟩ := hw
  exact ⟨tr, c, htr, hc, hr, hend, hcalls, (life_one_way htr).2.2.2.2.1 hc hend⟩

end Turntf.Relay
