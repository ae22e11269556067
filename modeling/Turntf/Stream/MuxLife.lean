/-
  Turntf.Stream.MuxLife — the lives of the connections of a `StreamMux`: registered, terminated,
  taken out (`terminate`, `remove` and `StreamMux.Close` in `stream_conn.go`).

  A `terminate` runs once (`doneOnce`): it sets the close reason behind the connection's mutex
  and then calls `remove`; whoever else terminates the connection waits for it. `Close` of the
  mux runs once too: it swaps in an empty map and terminates what the old one had. Who is inside
  the function of a `sync.Once` is alone there (`Locks.Guarded`).

  `pcStep_lives` lists what the step of a call can do to the lives and to the mux. `MuxSound` is
  what holds in every state: a connection whose `terminate` is through is closed and not
  registered; before the swap only a `terminate` takes a connection out; after it `Close` still
  has on its list what is not terminated.
-/

import Turntf.Stream.Mux

namespace Turntf.Stream

open Locks

/-! ## One connection -/

def Pc.terminates : Pc → Option TerminatePc
  | .close (.terminate _ t) | .handle (.terminate t) => some t
  | _ => none

/-- The connection that a call terminates, and where it is with that. -/
def MuxPc.terminates : MuxPc → Option (Nat × TerminatePc)
  | .conn k pc _ => pc.terminates.map (k, ·)
  | .terminate k _ t _ => some (k, t)
  | _ => none

/-- What of an end says whether it is registered and terminated. -/
structure EndLife where
  id : StreamID
  registered : Bool
  doneOnce : Once
  closed : Bool

def StreamEnd.life (e : StreamEnd) : EndLife := ⟨e.conn.id, e.registered, e.doneOnce, e.conn.isClosed⟩

def StreamMux.lives (m : StreamMux) : List EndLife := m.conns.map StreamEnd.life

/-- One step of `terminate`, as far as the life of the connection goes. -/
inductive Terminates (l : EndLife) : TerminatePc → EndLife → Option TerminatePc → Prop
  | enter (hf : l.doneOnce = .fresh) : Terminates l .once { l with doneOnce := .running } (some .lockMu)
  | late (hf : l.doneOnce = .finished) : Terminates l .once l none
  | locked : Terminates l .lockMu l (some .set)
  | set : Terminates l .set { l with closed := true } (some .remove)
  | remove : Terminates l .remove { l with registered := false, doneOnce := .finished } none

section

variable {e e' : StreamEnd} {sent : Option StreamError} {how : Choice} {l l' l'' : EndLife} {t : TerminatePc}
  {t' : Option TerminatePc}

theorem terminateStep_life {err : StreamError} (h : terminateStep e err t = some (e', t')) :
    Terminates e.life t e'.life t' := by
  cases t with
  | once =>
    simp only [terminateStep] at h
    split at h <;> rename_i hf <;> cases h
    · exact .enter hf
    · exact .late hf
  | lockMu => cases h; exact .locked
  | set => cases h; exact .set
  | remove => cases h; exact .remove

/-- Apart from `terminate`, no call on a connection changes its life. -/
theorem Effect.life {pc : Pc} {n : Next Pc} (h : Effect e pc e' n) (hpc : pc.terminates = none) : e'.life = e.life := by
  cases h with
  | storeCredit =>
    obtain ⟨_, _, _, hc⟩ := StreamConn.storeCredit_eq e.conn ‹_›
    rw [StreamEnd.life, hc]
    rfl
  | clear =>
    obtain ⟨_, _, hc⟩ := StreamConn.clearResume_eq e.conn ‹_›
    rw [StreamEnd.life, hc]
    rfl
  | take he => rw [he]; rfl
  | terminate hpc' =>
    rcases hpc' with ⟨⟨_, rfl⟩, _⟩ | ⟨rfl, _⟩ <;> cases hpc
  | _ => rfl

/-- A step of a call that is not inside `terminate` goes at most to its beginning. -/
theorem pcStep_outside {pc pc' : Pc} {n : Next Pc} (h : pcStep e sent how pc = some (e', n))
    (hpc : pc.terminates = none) (hn : n.pc? = some pc') :
    pc'.terminates = none ∨ pc'.terminates = some .once := by
  have hmap {P : Type} {f : P → Pc} {n₁ : Next P} (hf : ∀ p, (f p).terminates = none)
      (hn : (n₁.map f).pc? = some pc') : pc'.terminates = none := by
    obtain ⟨p, -, rfl⟩ := Next.pc?_map hn
    exact hf p
  cases pc with
  | read pc =>
    obtain ⟨⟨e₁, n₁⟩, -, he⟩ := Option.map_eq_some_iff.mp h
    cases he
    exact .inl (hmap (fun _ => rfl) hn)
  | write pc =>
    obtain ⟨⟨e₁, n₁⟩, -, he⟩ := Option.map_eq_some_iff.mp h
    cases he
    exact .inl (hmap (fun _ => rfl) hn)
  | resume pc =>
    obtain ⟨⟨e₁, n₁⟩, -, he⟩ := Option.map_eq_some_iff.mp h
    cases he
    exact .inl (hmap (fun _ => rfl) hn)
  | close pc =>
    obtain ⟨⟨e₁, n₁⟩, hs, he⟩ := Option.map_eq_some_iff.mp h
    cases he
    cases pc with
    | terminate => cases hpc
    | isClosed =>
      simp only [closeStep, Option.some.injEq, Prod.mk.injEq] at hs
      obtain ⟨-, rfl⟩ := hs
      split at hn <;> cases hn
      exact .inl rfl
    | snapshot => cases hs; cases hn; exact .inr rfl
    | _ => cases hs; cases hn <;> exact .inl rfl
  | handle pc =>
    obtain ⟨⟨e₁, n₁⟩, hs, he⟩ := Option.map_eq_some_iff.mp h
    cases he
    cases pc with
    | terminate => cases hpc
    | _ =>
      simp only [handleStep, enterStep, dispatchStep, acknowledgeStep] at hs
      (repeat' split at hs) <;> cases hs <;> cases hn <;> first | exact .inl rfl | exact .inr rfl

/-- A step of `terminate` within a call on the connection. -/
theorem pcStep_terminates {pc : Pc} {n : Next Pc} (h : pcStep e sent how pc = some (e', n))
    (hpc : pc.terminates = some t) : ∃ pc' t', n = .goto pc' ∧ pc'.terminates = t' ∧ Terminates e.life t e'.life t' := by
  cases pc with
  | read | write | resume => cases hpc
  | close pc =>
    obtain ⟨⟨e₁, n₁⟩, hs, he⟩ := Option.map_eq_some_iff.mp h
    cases he
    cases pc with
    | terminate epoch t =>
      cases hpc
      obtain ⟨⟨e₂, t'⟩, ht, he⟩ := Option.map_eq_some_iff.mp hs
      cases he
      exact ⟨_, t', rfl, by cases t' <;> rfl, terminateStep_life ht⟩
    | _ => cases hpc
  | handle pc =>
    obtain ⟨⟨e₁, n₁⟩, hs, he⟩ := Option.map_eq_some_iff.mp h
    cases he
    cases pc with
    | terminate t =>
      cases hpc
      obtain ⟨⟨e₂, t'⟩, ht, he⟩ := Option.map_eq_some_iff.mp hs
      cases he
      exact ⟨_, t', rfl, by cases t' <;> rfl, terminateStep_life ht⟩
    | _ => cases hpc

end

/-! ## The mux -/

def TerminatePc.inside (k : Nat) : TerminatePc → List (Option Nat)
  | .once => []
  | .lockMu | .set | .remove => [some k]

/-- The functions of a `sync.Once` that a call is inside: `some k` is that of the connection
    `k`, `none` that of the mux. -/
def MuxPc.inside : MuxPc → List (Option Nat)
  | .conn k pc _ => (pc.terminates.map (TerminatePc.inside k)).getD []
  | .terminate k _ t after => t.inside k ++ after.inside
  | .closeStreams | .closing _ => [none]
  | _ => []

def StreamMux.onceOf (m : StreamMux) : Option Nat → Once
  | none => m.once
  | some k => ((m.lives[k]?).map EndLife.doneOnce).getD .fresh

/-- Steps that leave the lives and the mux as they are, by position. -/
inductive Quiet (m : StreamMux) : MuxPc → MuxPc → Prop
  | conn {k : Nat} {pc pc' : Pc} {sent sent' : Option StreamError} (hpc : pc.terminates = none)
      (hpc' : pc'.terminates = none ∨ pc'.terminates = some .once) : Quiet m (.conn k pc sent) (.conn k pc' sent')
  | connReturns {k : Nat} {pc : Pc} {sent err : Option StreamError} (hpc : pc.terminates = none) :
      Quiet m (.conn k pc sent) (.returned err)
  | answers {frame : StreamFrame} {err : Option StreamError} : Quiet m (.handleFrame frame) (.returned err)
  | routes {frame : StreamFrame} {k : Nat} : Quiet m (.handleFrame frame) (.conn k (.handle (.lockHandle frame)) none)
  | reopens {frame : StreamFrame} {k : Nat} : Quiet m (.handleFrame frame) (.sendAck frame k false)
  | acks {frame : StreamFrame} {k : Nat} {created : Bool} {err : Option StreamError} :
      Quiet m (.sendAck frame k created) (.ackSent frame k created err)
  | reopened {frame : StreamFrame} {k : Nat} {err : Option StreamError} :
      Quiet m (.ackSent frame k false err) (.returned err)
  | ackFailed {frame : StreamFrame} {k : Nat} {err : StreamError} :
      Quiet m (.ackSent frame k true (some err)) (.terminate k err .once (.returned (some err)))
  | acked {frame : StreamFrame} {k : Nat} : Quiet m (.ackSent frame k true none) (.offer frame k)
  | offered {frame : StreamFrame} {k : Nat} : Quiet m (.offer frame k) (.returned none)
  | full {frame : StreamFrame} {k : Nat} :
      Quiet m (.offer frame k) (.terminate k StreamMux.backlogFull .once (.sendClose frame k))
  | closeSent {frame : StreamFrame} {k : Nat} {err : Option StreamError} : Quiet m (.sendClose frame k) (.returned err)
  | refused {id : StreamID} {err : Option StreamError} : Quiet m (.dial id) (.returned err)
  | opens {k : Nat} {err : Option StreamError} : Quiet m (.sendOpen k) (.openSent k err)
  | openFailed {k : Nat} {err : StreamError} :
      Quiet m (.openSent k (some err)) (.terminate k err .once (.returned (some err)))
  | awaits {k : Nat} : Quiet m (.openSent k none) (.await k)
  | dialed {k : Nat} : Quiet m (.await k) (.returned none)
  | closed {k : Nat} {l : EndLife} {err : Option StreamError} (hl : m.lives[k]? = some l) (hc : l.closed = true) :
      Quiet m (.await k) (.returned err)
  | cancelled {k : Nat} :
      Quiet m (.await k) (.terminate k StreamMux.canceled .once (.returned (some StreamMux.canceled)))
  | takes {k : Nat} : Quiet m .accept (.accepted k)
  | acceptReturns {err : Option StreamError} : Quiet m .accept (.returned err)
  | skips {k : Nat} : Quiet m (.accepted k) .accept
  | accepted {k : Nat} {err : Option StreamError} : Quiet m (.accepted k) (.returned err)
  | closedBefore {err : Option StreamError} (ho : m.once = .finished) : Quiet m .close (.returned err)
  | next {k : Nat} {ks : List Nat} : Quiet m (.closing (k :: ks)) (.terminate k .closed .once (.closing ks))

structure SameMux (m m' : StreamMux) : Prop where
  closed : m'.closed = m.closed
  once : m'.once = m.once

/-- All that the step of a call at a position can do to the lives of the connections and to the
    mux, and the call's next position. -/
inductive MuxLife (m m' : StreamMux) : MuxPc → MuxPc → Prop
  | quiet {pc pc' : MuxPc} (hl : m'.lives = m.lives) (hs : SameMux m m') (hq : Quiet m pc pc') : MuxLife m m' pc pc'
  | opened {frame : StreamFrame} (hc : m.closed = false) (hn : m.find frame.id = none)
      (hl : m'.lives = m.lives ++ [⟨frame.id, true, .fresh, false⟩]) (hs : SameMux m m') :
      MuxLife m m' (.handleFrame frame) (.sendAck frame m.conns.length true)
  | dialed {id : StreamID} (hc : m.closed = false) (hn : m.find id = none)
      (hl : m'.lives = m.lives ++ [⟨id, true, .fresh, false⟩]) (hs : SameMux m m') :
      MuxLife m m' (.dial id) (.sendOpen m.conns.length)
  | connTerminates {k : Nat} {pc pc' : Pc} {sent sent' : Option StreamError} {l l' : EndLife} {t : TerminatePc}
      {t' : Option TerminatePc} (hk : m.lives[k]? = some l) (hpc : pc.terminates = some t) (hpc' : pc'.terminates = t')
      (ht : Terminates l t l' t') (hl : m'.lives = m.lives.set k l') (hs : SameMux m m') :
      MuxLife m m' (.conn k pc sent) (.conn k pc' sent')
  | terminates {k : Nat} {err : StreamError} {after : MuxPc} {l l' : EndLife} {t : TerminatePc}
      {t' : Option TerminatePc} (hk : m.lives[k]? = some l) (ht : Terminates l t l' t')
      (hl : m'.lives = m.lives.set k l') (hs : SameMux m m') :
      MuxLife m m' (.terminate k err t after) (t'.elim after fun t' => .terminate k err t' after)
  | closes (hf : m.once = .fresh) (hl : m'.lives = m.lives) (hc : m'.closed = true) (ho : m'.once = .running) :
      MuxLife m m' .close .closeStreams
  | swaps {ks : List Nat} (hks : ∀ k l, m.lives[k]? = some l → l.registered = true → k ∈ ks)
      (hl : m'.lives = m.lives.map fun l => { l with registered := false }) (hs : SameMux m m') :
      MuxLife m m' .closeStreams (.closing ks)
  | ends (hl : m'.lives = m.lives) (hc : m'.closed = m.closed) (ho : m'.once = .finished) :
      MuxLife m m' (.closing []) (.returned none)

section

variable {m m' : StreamMux} {i k : Nat} {how : Choice} {pc pc' : MuxPc}

theorem lives_get {e : StreamEnd} (h : m.conns[k]? = some e) : m.lives[k]? = some e.life := by
  rw [StreamMux.lives, List.getElem?_map, h]
  rfl

theorem give_lives (m : StreamMux) (k : Nat) (frame : StreamFrame) : (m.give k frame).lives = m.lives := by
  apply List.ext_getElem?
  intro j
  simp only [StreamMux.lives, StreamMux.give, List.getElem?_map, List.getElem?_modify]
  cases m.conns[j]? with
  | none => rfl
  | some e => by_cases h : k = j <;> simp [h, StreamEnd.life]

theorem setConn_lives (m : StreamMux) (k : Nat) (e : StreamEnd) : (m.setConn k e).lives = m.lives.set k e.life :=
  List.map_set

theorem setConn_same {e e' : StreamEnd} (h : m.conns[k]? = some e) (hl : e'.life = e.life) :
    (m.setConn k e').lives = m.lives := by
  obtain ⟨hlt, he⟩ := List.getElem?_eq_some_iff.mp (lives_get h)
  rw [setConn_lives, hl, ← he, List.set_getElem_self]

/-- The call `i` goes on to `pc'`. -/
def StreamMux.Lives (m : StreamMux) (i : Nat) (pc : MuxPc) (m' : StreamMux) : Prop :=
  ∃ pc', MuxLife m m' pc pc' ∧ m'.calls = m.calls.set i pc'

theorem StreamMux.Lives.quiet (hl : m'.lives = m.lives) (hc : m'.calls = m.calls) (hs : SameMux m m')
    (hq : Quiet m pc pc') : m.Lives i pc (m'.goto i pc') :=
  ⟨pc', .quiet hl ⟨hs.closed, hs.once⟩ hq, by rw [goto, hc]⟩

theorem handleFrame_lives (m : StreamMux) (i : Nat) (frame : StreamFrame) :
    m.Lives i (.handleFrame frame) (m.handleFrame i frame) := by
  unfold StreamMux.handleFrame
  split
  · exact .quiet rfl rfl ⟨rfl, rfl⟩ .answers
  split
  · unfold StreamMux.handleOpen
    split
    · exact .quiet rfl rfl ⟨rfl, rfl⟩ .answers
    split
    · exact .quiet rfl rfl ⟨rfl, rfl⟩ .answers
    split
    · exact .quiet rfl rfl ⟨rfl, rfl⟩ .answers
    rename_i hc
    split
    · exact .quiet rfl rfl ⟨rfl, rfl⟩ .reopens
    · rename_i hn
      exact ⟨_, .opened (by simpa using hc) hn List.map_append ⟨rfl, rfl⟩, rfl⟩
  · split
    · exact .quiet rfl rfl ⟨rfl, rfl⟩ .routes
    · exact .quiet rfl rfl ⟨rfl, rfl⟩ .answers

theorem connStep_lives {pc : Pc} {sent : Option StreamError} (h : m.connStep i k pc sent how = some m') :
    m.Lives i (.conn k pc sent) m' := by
  unfold StreamMux.connStep at h
  split at h
  · cases h
  rename_i e he
  cases hpc : pc.terminates with
  | none =>
    have hlife {e' : StreamEnd} {n : Next Pc} (hs : Stream.pcStep e sent how pc = some (e', n)) :
        (m.setConn k e').lives = m.lives := setConn_same he ((pcStep_effect hs).life hpc)
    split at h
    · cases h
    · rename_i hs
      cases h
      exact .quiet (hlife hs) rfl ⟨rfl, rfl⟩ (.conn hpc (pcStep_outside hs hpc rfl))
    · rename_i hs
      cases h
      exact .quiet (hlife hs) rfl ⟨rfl, rfl⟩ (.connReturns hpc)
    · rename_i hs
      obtain ⟨err, -, rfl⟩ := Option.map_eq_some_iff.mp h
      exact .quiet ((give_lives _ _ _).trans (hlife hs)) rfl ⟨rfl, rfl⟩ (.conn hpc (pcStep_outside hs hpc rfl))
  | some t =>
    split at h
    · cases h
    all_goals
      rename_i hs
      obtain ⟨pc₁, t', hn, hpc', ht⟩ := pcStep_terminates hs hpc
      cases hn
    cases h
    exact ⟨_, .connTerminates (lives_get he) hpc hpc' ht (setConn_lives m k _) ⟨rfl, rfl⟩, rfl⟩

theorem closeStreams_ks (m : StreamMux) : ∀ k l, m.lives[k]? = some l → l.registered = true →
    k ∈ (List.range m.conns.length).filter fun k => (m.conns[k]?).any StreamEnd.registered := by
  intro k l hl hr
  obtain ⟨e, he, rfl⟩ := Option.map_eq_some_iff.mp (List.getElem?_map ▸ hl)
  simp only [List.mem_filter, List.mem_range, he, Option.any_some]
  exact ⟨(List.getElem?_eq_some_iff.mp he).1, hr⟩

theorem pcStep_lives (h : m.pcStep i how pc = some m') : m.Lives i pc m' := by
  cases pc with
  | conn k pc sent => exact connStep_lives h
  | handleFrame frame =>
    cases h
    exact handleFrame_lives m i frame
  | sendAck frame k created =>
    obtain ⟨err, _, rfl⟩ := Option.map_eq_some_iff.mp h
    exact .quiet (give_lives _ _ _) rfl ⟨rfl, rfl⟩ .acks
  | ackSent frame k created err =>
    cases h
    cases err <;> cases created
    · exact .quiet rfl rfl ⟨rfl, rfl⟩ .reopened
    · exact .quiet rfl rfl ⟨rfl, rfl⟩ .acked
    · exact .quiet rfl rfl ⟨rfl, rfl⟩ .reopened
    · exact .quiet rfl rfl ⟨rfl, rfl⟩ .ackFailed
  | offer frame k =>
    simp only [StreamMux.pcStep] at h
    split at h <;> cases h
    · exact .quiet rfl rfl ⟨rfl, rfl⟩ .offered
    · exact .quiet rfl rfl ⟨rfl, rfl⟩ .full
  | sendClose frame k =>
    obtain ⟨err, _, rfl⟩ := Option.map_eq_some_iff.mp h
    exact .quiet (give_lives _ _ _) rfl ⟨rfl, rfl⟩ .closeSent
  | dial id =>
    simp only [StreamMux.pcStep] at h
    split at h
    · cases h
      exact .quiet rfl rfl ⟨rfl, rfl⟩ .refused
    rename_i hc
    split at h
    · cases h
      exact .quiet rfl rfl ⟨rfl, rfl⟩ .refused
    · rename_i hn
      cases h
      exact ⟨_, .dialed (by simpa using hc) hn List.map_append ⟨rfl, rfl⟩, rfl⟩
  | sendOpen k =>
    simp only [StreamMux.pcStep] at h
    split at h
    · cases h
    · obtain ⟨err, _, rfl⟩ := Option.map_eq_some_iff.mp h
      exact .quiet (give_lives _ _ _) rfl ⟨rfl, rfl⟩ .opens
  | openSent k err =>
    cases h
    cases err with
    | none => exact .quiet rfl rfl ⟨rfl, rfl⟩ .awaits
    | some err => exact .quiet rfl rfl ⟨rfl, rfl⟩ .openFailed
  | await k =>
    simp only [StreamMux.pcStep] at h
    split at h
    · split at h <;> cases h
      exact .quiet rfl rfl ⟨rfl, rfl⟩ .dialed
    · rename_i e he
      split at h <;> cases h
      rename_i hc
      exact .quiet rfl rfl ⟨rfl, rfl⟩ (.closed (lives_get he) hc)
    · cases h
      exact .quiet rfl rfl ⟨rfl, rfl⟩ .cancelled
    · cases h
  | accept =>
    simp only [StreamMux.pcStep] at h
    split at h
    · rename_i rest _
      cases h
      exact .quiet rfl rfl ⟨rfl, rfl⟩ .takes
    · split at h <;> cases h
      exact .quiet rfl rfl ⟨rfl, rfl⟩ .acceptReturns
    · cases h
      exact .quiet rfl rfl ⟨rfl, rfl⟩ .acceptReturns
    · cases h
  | accepted k =>
    simp only [StreamMux.pcStep] at h
    split at h
    · cases h
    · cases h
      split
      · exact .quiet rfl rfl ⟨rfl, rfl⟩ .skips
      · exact .quiet rfl rfl ⟨rfl, rfl⟩ .accepted
  | close =>
    simp only [StreamMux.pcStep] at h
    split at h <;> rename_i ho <;> cases h
    · exact ⟨_, .closes ho rfl rfl rfl, rfl⟩
    · exact .quiet rfl rfl ⟨rfl, rfl⟩ (.closedBefore ho)
  | closeStreams =>
    cases h
    refine ⟨_, .swaps (closeStreams_ks m) ?_ ⟨rfl, rfl⟩, rfl⟩
    simp [StreamMux.lives, StreamMux.goto, StreamMux.unregisterAll, StreamEnd.life]
  | closing ks =>
    cases ks with
    | nil =>
      cases h
      exact ⟨_, .ends rfl rfl rfl, rfl⟩
    | cons k ks =>
      cases h
      exact .quiet rfl rfl ⟨rfl, rfl⟩ .next
  | terminate k err t after =>
    simp only [StreamMux.pcStep] at h
    split at h
    · cases h
    rename_i e he
    obtain ⟨⟨e', t'⟩, ht, rfl⟩ := Option.map_eq_some_iff.mp h
    refine ⟨_, .terminates (lives_get he) (terminateStep_life ht) (setConn_lives m k e') ⟨rfl, rfl⟩, ?_⟩
    cases t' <;> rfl
  | returned err => cases h

end

/-! ## What a step does to a life -/

/-- What holds of a life on its own. -/
structure LifeOk (l : EndLife) : Prop where
  finished : l.doneOnce = .finished → l.closed = true ∧ l.registered = false
  closed : l.closed = true → l.doneOnce ≠ .fresh

/-- `l'` comes after `l`; where `swap` holds, the connection may have lost its entry to `Close`. -/
structure Ages (swap : Prop) (l l' : EndLife) : Prop where
  sameID : l'.id = l.id
  closed : l.closed = true → l'.closed = true
  finished : l.doneOnce = .finished → l'.doneOnce = .finished
  registered : l.registered = false → l'.registered = false
  lost : l'.registered = false → l.registered = false ∨ l'.doneOnce = .finished ∨ swap
  ok : LifeOk l → LifeOk l'

/-- What a call in `terminate` knows of the connection. -/
def Knowing (m : StreamMux) (pc : MuxPc) : Prop :=
  ∀ k t l, pc.terminates = some (k, t) → m.lives[k]? = some l →
    (t ≠ .once → l.doneOnce = .running) ∧ (t = .remove → l.closed = true)

section

variable {m m' : StreamMux} {i k : Nat} {pc pc' : MuxPc} {l l' : EndLife} {t : TerminatePc} {t' : Option TerminatePc}
  {swap : Prop}

theorem Ages.refl (l : EndLife) : Ages swap l l := ⟨rfl, id, id, id, .inl, id⟩

theorem Terminates.ages (h : Terminates l t l' t') (hin : t ≠ .once → l.doneOnce = .running)
    (hr : t = .remove → l.closed = true) : Ages swap l l' := by
  cases h with
  | enter hf =>
    refine ⟨rfl, id, fun h => ?_, id, .inl, fun hok => ⟨nofun, fun _ => nofun⟩⟩
    rw [hf] at h
    cases h
  | late | locked => exact .refl _
  | set =>
    have hrun : l.doneOnce = .running := hin nofun
    refine ⟨rfl, fun _ => rfl, id, id, .inl, fun hok => ⟨fun hf => ?_, fun _ => ?_⟩⟩
    · cases hrun.symm.trans hf
    · exact fun hf => nomatch hrun.symm.trans hf
  | remove =>
    exact ⟨rfl, id, fun _ => rfl, fun _ => rfl, fun _ => .inr (.inl rfl), fun _ => ⟨fun _ => ⟨hr rfl, rfl⟩, fun _ => nofun⟩⟩

theorem Terminates.returned (h : Terminates l t l' none) : l'.doneOnce = .finished := by
  cases h with
  | late hf => exact hf
  | remove => rfl

theorem lives_set {j : Nat} {lj : EndLife} (hl : m'.lives = m.lives.set k l') (hj : m'.lives[j]? = some lj) :
    j = k ∧ lj = l' ∨ j ≠ k ∧ m.lives[j]? = some lj := by
  rw [hl] at hj
  exact Slots.get_set hj

theorem lives_append {new : EndLife} (hl : m'.lives = m.lives ++ [new]) (hk : m'.lives[k]? = some l') :
    m.lives[k]? = some l' ∨ k = m.lives.length ∧ l' = new := by
  rw [hl] at hk
  exact Slots.get_snoc hk

/-- A life goes on, or begins, which it does only in a mux that is not closed. -/
theorem MuxLife.origin (h : MuxLife m m' pc pc') (hpc : Knowing m pc) (hk : m'.lives[k]? = some l') :
    (∃ l, m.lives[k]? = some l ∧ Ages (pc = .closeStreams) l l') ∨
      k = m.lives.length ∧ m.closed = false ∧ ∃ id, l' = ⟨id, true, .fresh, false⟩ := by
  cases h with
  | quiet hl | closes _ hl | ends hl => exact .inl ⟨l', hl ▸ hk, .refl _⟩
  | opened hc _ hl | dialed hc _ hl =>
    rcases lives_append hl hk with hk | ⟨hnew, hk⟩
    · exact .inl ⟨l', hk, .refl _⟩
    · exact .inr ⟨hnew, hc, _, hk⟩
  | connTerminates hk₀ hpc₀ _ ht hl =>
    rcases lives_set hl hk with ⟨rfl, rfl⟩ | ⟨-, hk⟩
    · obtain ⟨hin, hr⟩ := hpc k _ _ (by rw [MuxPc.terminates, hpc₀]; rfl) hk₀
      exact .inl ⟨_, hk₀, ht.ages hin hr⟩
    · exact .inl ⟨l', hk, .refl _⟩
  | terminates hk₀ ht hl =>
    rcases lives_set hl hk with ⟨rfl, rfl⟩ | ⟨-, hk⟩
    · obtain ⟨hin, hr⟩ := hpc k _ _ rfl hk₀
      exact .inl ⟨_, hk₀, ht.ages hin hr⟩
    · exact .inl ⟨l', hk, .refl _⟩
  | swaps _ hl =>
    rw [hl, List.getElem?_map] at hk
    obtain ⟨l, hl, rfl⟩ := Option.map_eq_some_iff.mp hk
    refine .inl ⟨l, hl, rfl, id, id, fun _ => rfl, fun _ => .inr (.inr rfl), fun hok => ?_⟩
    exact ⟨fun hf => ⟨(hok.finished hf).1, rfl⟩, hok.closed⟩

theorem MuxLife.length_le (h : MuxLife m m' pc pc') : m.lives.length ≤ m'.lives.length := by
  cases h with
  | quiet hl | closes _ hl | ends hl => rw [hl]
  | opened _ _ hl | dialed _ _ hl => simp [hl]
  | connTerminates _ _ _ _ hl | terminates _ _ hl | swaps _ hl => simp [hl]

theorem MuxLife.ages (h : MuxLife m m' pc pc') (hpc : Knowing m pc) (hk : m.lives[k]? = some l) :
    ∃ l', m'.lives[k]? = some l' ∧ Ages (pc = .closeStreams) l l' := by
  have hlt := (List.getElem?_eq_some_iff.mp hk).1
  have hk' := List.getElem?_eq_getElem (hlt.trans_le h.length_le)
  rcases h.origin hpc hk' with ⟨l₀, hk₀, hages⟩ | ⟨hnew, -⟩
  · cases hk.symm.trans hk₀
    exact ⟨_, hk', hages⟩
  · omega

/-- Only `Close` changes the mux, when it enters and when it is through. -/
theorem MuxLife.once_cases (h : MuxLife m m' pc pc') : SameMux m m' ∨
    (m.once = .fresh ∧ m'.once = .running ∧ m'.closed = true) ∨
      pc = .closing [] ∧ m'.once = .finished ∧ m'.closed = m.closed ∧ m'.lives = m.lives := by
  cases h with
  | quiet _ hs | opened _ _ _ hs | dialed _ _ _ hs | connTerminates _ _ _ _ _ hs | terminates _ _ _ hs
  | swaps _ _ hs => exact .inl hs
  | closes hf _ hc ho => exact .inr (.inl ⟨hf, ho, hc⟩)
  | ends hl hc ho => exact .inr (.inr ⟨rfl, ho, hc, hl⟩)

/-! ## Inside a `sync.Once` -/

theorem Quiet.inside (h : Quiet m pc pc') : pc'.inside = pc.inside := by
  cases h with
  | conn hpc hpc' => rcases hpc' with hpc' | hpc' <;> simp [MuxPc.inside, hpc, hpc', TerminatePc.inside]
  | connReturns hpc => simp [MuxPc.inside, hpc]
  | _ => rfl

theorem onceOf_same (hl : m'.lives = m.lives) (ho : m'.once = m.once) : m'.onceOf = m.onceOf := by
  funext x
  cases x with
  | none => exact ho
  | some k => simp [StreamMux.onceOf, hl]

theorem onceOf_append {id : StreamID} (hl : m'.lives = m.lives ++ [⟨id, true, .fresh, false⟩]) (ho : m'.once = m.once) :
    m'.onceOf = m.onceOf := by
  funext x
  cases x with
  | none => exact ho
  | some k =>
    simp only [StreamMux.onceOf, hl]
    by_cases hlt : k < m.lives.length
    · rw [List.getElem?_append_left hlt]
    · rw [List.getElem?_append_right (by omega), List.getElem?_eq_none (by omega : m.lives.length ≤ k)]
      by_cases he : k - m.lives.length = 0 <;> simp [he]

theorem onceOf_set (hk : m.lives[k]? = some l) (hl : m'.lives = m.lives.set k l') (ho : m'.once = m.once)
    (x : Option Nat) : m'.onceOf x = if x = some k then l'.doneOnce else m.onceOf x := by
  cases x with
  | none => exact ho
  | some j =>
    simp only [StreamMux.onceOf, hl]
    by_cases he : j = k
    · subst he
      simp [List.getElem?_set_self (List.getElem?_eq_some_iff.mp hk).1]
    · rw [List.getElem?_set_ne (Ne.symm he)]
      simp [he]

/-- A step of `terminate` keeps to the rules of `doneOnce`, whatever else (`rest`) the call is
    inside. -/
theorem Terminates.guarded (rest : List (Option Nat)) (ht : Terminates l t l' t')
    (h : Guarded MuxPc.inside (m.onceOf · = .running) m.calls) (hpc : m.calls[i]? = some pc)
    (hx : pc.inside = t.inside k ++ rest) (hy : pc'.inside = (t'.map (TerminatePc.inside k)).getD [] ++ rest)
    (hk : m.lives[k]? = some l) (hl : m'.lives = m.lives.set k l') (ho : m'.once = m.once) :
    Guarded MuxPc.inside (m'.onceOf · = .running) (m.calls.set i pc') := by
  have honce := onceOf_set hk hl ho
  have hmk : m.onceOf (some k) = l.doneOnce := by simp [StreamMux.onceOf, hk]
  have hbusy : ∀ x ∈ pc.inside, m.onceOf x = .running := h.held pc (List.mem_of_getElem? hpc)
  -- where `doneOnce` stays what it was, nothing changes
  have hsame (hd : l'.doneOnce = l.doneOnce) (hin : pc'.inside = pc.inside) :
      Guarded MuxPc.inside (m'.onceOf · = .running) (m.calls.set i pc') := by
    have honce' : ∀ x, m'.onceOf x = m.onceOf x := by
      intro x
      rw [honce x]
      split
      · rename_i he
        rw [he, hmk, hd]
      · rfl
    refine h.set hpc none nofun (by simp [hin]) (fun x hx => ?_) fun x hx _ => ?_
    · rw [honce' x]
      exact hbusy x (hin ▸ hx)
    · rw [honce' x]
      exact hx
  cases ht with
  | enter hf =>
    have hin : pc'.inside = some k :: pc.inside := by rw [hx, hy]; rfl
    have hrun : ∀ x, m.onceOf x = .running → m'.onceOf x = .running := by
      intro x hx
      rw [honce x]
      split
      · rfl
      · exact hx
    refine h.set hpc (some (some k)) ?_ (by simp [hin]) (fun x hx => ?_) fun x hx _ => hrun x hx
    · rintro x hxk hrun
      cases hxk
      rw [hmk, hf] at hrun
      cases hrun
    · rw [hin] at hx
      rcases List.mem_cons.mp hx with rfl | hx
      · rw [honce, if_pos rfl]
      · exact hrun x (hbusy x hx)
  | late => exact hsame rfl (by rw [hx, hy]; rfl)
  | locked => exact hsame rfl (by rw [hx, hy]; rfl)
  | set => exact hsame rfl (by rw [hx, hy]; rfl)
  | remove =>
    have hin : pc.inside = some k :: pc'.inside := by rw [hx, hy]; rfl
    have hrun : ∀ x, x ≠ some k → m.onceOf x = .running → m'.onceOf x = .running := by
      intro x hne hx
      rw [honce x, if_neg hne]
      exact hx
    -- the call was inside the function of `k` once only
    have hout : some k ∉ pc'.inside := h.exclusive.once (List.mem_of_getElem? hpc) hin
    refine h.set hpc none nofun (by simp [hin]) (fun x hx => ?_) fun x hx hnx => ?_
    · exact hrun x (fun he => hout (he ▸ hx)) (hbusy x (hin ▸ List.mem_cons_of_mem _ hx))
    · exact hrun x (fun he => hnx (by rw [hin, he]; exact List.mem_cons_self)) hx

theorem MuxLife.guarded (heff : MuxLife m m' pc pc') (h : Guarded MuxPc.inside (m.onceOf · = .running) m.calls)
    (hpc : m.calls[i]? = some pc) : Guarded MuxPc.inside (m'.onceOf · = .running) (m.calls.set i pc') := by
  have hbusy : ∀ x ∈ pc.inside, m.onceOf x = .running := h.held pc (List.mem_of_getElem? hpc)
  have hsame (hin : pc'.inside = pc.inside) (ho : m'.onceOf = m.onceOf) :
      Guarded MuxPc.inside (m'.onceOf · = .running) (m.calls.set i pc') := by
    rw [ho]
    exact h.set hpc none nofun (by simp [hin]) (fun x hx => hbusy x (hin ▸ hx)) fun x hx _ => hx
  cases heff with
  | quiet hl hs hq => exact hsame hq.inside (onceOf_same hl hs.once)
  | opened _ _ hl hs | dialed _ _ hl hs => exact hsame rfl (onceOf_append hl hs.once)
  | connTerminates hk hpc₀ hpc' ht hl hs =>
    exact ht.guarded [] h hpc (by rw [MuxPc.inside, hpc₀, List.append_nil]; rfl)
      (by rw [MuxPc.inside, hpc', List.append_nil]) hk hl hs.once
  | @terminates k err after l l' t t' hk ht hl hs =>
    exact ht.guarded after.inside h hpc rfl (by cases t' <;> rfl) hk hl hs.once
  | closes hf hl _ ho =>
    have hsome : ∀ k, m'.onceOf (some k) = m.onceOf (some k) := fun k => by simp [StreamMux.onceOf, hl]
    have hrun : ∀ x, m.onceOf x = .running → m'.onceOf x = .running := by
      intro x hx
      cases x with
      | none => exact ho
      | some k => rw [hsome k, hx]
    refine h.set hpc (some none) ?_ (by simp [MuxPc.inside]) (fun x hx => ?_) fun x hx _ => hrun x hx
    · rintro x hx hrun
      cases hx
      cases hf.symm.trans hrun
    · cases List.mem_singleton.mp hx
      exact ho
  | swaps _ hl hs =>
    refine hsame rfl (funext fun x => ?_)
    cases x with
    | none => exact hs.once
    | some k =>
      simp only [StreamMux.onceOf, hl, List.getElem?_map]
      cases m.lives[k]? <;> rfl
  | ends hl =>
    refine h.set hpc none nofun (by simp [MuxPc.inside]) (fun x hx => absurd hx List.not_mem_nil) ?_
    intro x hx hnx
    cases x with
    | none => exact absurd List.mem_cons_self hnx
    | some k =>
      have : m'.onceOf (some k) = m.onceOf (some k) := by simp [StreamMux.onceOf, hl]
      rw [this, hx]

end

/-! ## What holds of the mux -/

/-- The connections that `Close` has yet to terminate, from its swap of the map on. -/
def MuxPc.pending : MuxPc → Option (List Nat)
  | .closing ks => some ks
  | .terminate k _ _ after => after.pending.map (k :: ·)
  | _ => none

/-- Where a call may go on after `terminate`. -/
def MuxPc.afterwards : MuxPc → Bool
  | .returned _ | .sendClose .. | .closing _ => true
  | _ => false

structure MuxSound (m : StreamMux) : Prop where
  guarded : Guarded MuxPc.inside (m.onceOf · = .running) m.calls
  lives : ∀ l ∈ m.lives, LifeOk l
  removes : ∀ pc ∈ m.calls, ∀ k l, pc.terminates = some (k, .remove) → m.lives[k]? = some l → l.closed = true
  after : ∀ k err t after, .terminate k err t after ∈ m.calls → after.afterwards = true
  fresh : m.once = .fresh ↔ m.closed = false
  /-- Before the swap, only a `terminate` takes a connection out. -/
  early : m.once = .fresh ∨ .closeStreams ∈ m.calls → ∀ l ∈ m.lives, l.registered = false → l.doneOnce = .finished
  swapped : ∀ pc ∈ m.calls, ∀ ks, pc.pending = some ks → ∀ k l, m.lives[k]? = some l →
    l.registered = false ∧ (k ∈ ks ∨ l.doneOnce = .finished)
  ended : m.once = .finished → ∀ l ∈ m.lives, l.doneOnce = .finished

section

variable {m m' : StreamMux} {i k : Nat} {pc pc' pc₁ : MuxPc} {l l' : EndLife} {ks : List Nat}

theorem MuxPc.inside_of_pending (h : pc.pending = some ks) : none ∈ pc.inside := by
  induction pc generalizing ks with
  | closing => exact List.mem_cons_self
  | terminate k err t after ih =>
    obtain ⟨ks', hks, -⟩ := Option.map_eq_some_iff.mp h
    exact List.mem_append_right _ (ih hks)
  | _ => cases h

theorem MuxPc.inside_of_terminates {t : TerminatePc} (h : pc.terminates = some (k, t)) (ht : t ≠ .once) :
    some k ∈ pc.inside := by
  have hin : some k ∈ t.inside k := by
    cases t with
    | once => exact absurd rfl ht
    | _ => exact List.mem_cons_self
  cases pc with
  | conn k' pc sent =>
    obtain ⟨t', ht', he⟩ := Option.map_eq_some_iff.mp h
    cases he
    simpa [MuxPc.inside, ht'] using hin
  | terminate =>
    cases h
    exact List.mem_append_left _ hin
  | _ => cases h

theorem MuxPc.not_terminates (h : pc.afterwards = true) : pc.terminates = none := by
  cases pc with
  | returned | sendClose | closing => rfl
  | _ => cases h

theorem MuxSound.knowing (h : MuxSound m) (hpc : pc ∈ m.calls) : Knowing m pc := by
  intro k t l ht hk
  refine ⟨fun hne => ?_, fun hr => h.removes pc hpc k l (hr ▸ ht) hk⟩
  have hrun := h.guarded.held pc hpc _ (MuxPc.inside_of_terminates ht hne)
  simpa [StreamMux.onceOf, hk] using hrun

theorem MuxSound.after_terminate (h : MuxSound m) (hpc : pc ∈ m.calls) :
    ∀ k err t after, pc = .terminate k err t after → after.afterwards = true :=
  fun k err t after he => h.after k err t after (he ▸ hpc)

/-- A call inside the function of the mux's `once`: the mux is closed. -/
theorem MuxSound.running (h : MuxSound m) (hpc : pc ∈ m.calls) (hin : none ∈ pc.inside) :
    m.once = .running ∧ m.closed = true := by
  have hrun : m.once = .running := h.guarded.held pc hpc none hin
  refine ⟨hrun, ?_⟩
  by_contra hc
  have := h.fresh.mpr (by simpa using hc)
  cases hrun.symm.trans this

/-- A call of the state after a step of the call `i`. -/
theorem mem_calls (hcalls : m'.calls = m.calls.set i pc') (h : pc₁ ∈ m'.calls) :
    pc₁ = pc' ∨ ∃ j, j ≠ i ∧ m.calls[j]? = some pc₁ := by
  rw [hcalls] at h
  obtain ⟨j, hj⟩ := List.mem_iff_getElem?.mp h
  rcases Slots.get_set hj with ⟨-, he⟩ | ⟨hne, hj⟩
  · exact .inl he
  · exact .inr ⟨j, hne, hj⟩

/-! ### One clause after the other -/

theorem MuxLife.ok (heff : MuxLife m m' pc pc') (hpc : Knowing m pc) (h : ∀ l ∈ m.lives, LifeOk l) :
    ∀ l ∈ m'.lives, LifeOk l := by
  intro l' hl'
  obtain ⟨k, hk⟩ := List.mem_iff_getElem?.mp hl'
  rcases heff.origin hpc hk with ⟨l, hl, hages⟩ | ⟨-, -, id, rfl⟩
  · exact hages.ok (h l (List.mem_of_getElem? hl))
  · exact ⟨nofun, nofun⟩

theorem Quiet.not_remove (h : Quiet m pc pc') : pc'.terminates ≠ some (k, .remove) := by
  cases h with
  | conn _ hpc' => rcases hpc' with hpc' | hpc' <;> simp [MuxPc.terminates, hpc']
  | _ => nofun

/-- A call gets to `remove` by setting the close reason. -/
theorem MuxLife.to_remove (heff : MuxLife m m' pc pc')
    (hafter : ∀ k err t after, pc = .terminate k err t after → after.afterwards = true)
    (ht : pc'.terminates = some (k, .remove)) (hk : m'.lives[k]? = some l') : l'.closed = true := by
  have hset {l₀ l₁ : EndLife} {t : TerminatePc} (hk₀ : m.lives[k]? = some l₀)
      (ht : Terminates l₀ t l₁ (some .remove)) (hl : m'.lives = m.lives.set k l₁) : l'.closed = true := by
    rcases lives_set hl hk with ⟨-, rfl⟩ | ⟨hne, -⟩
    · cases ht
      rfl
    · exact absurd rfl hne
  cases heff with
  | quiet _ _ hq => exact absurd ht hq.not_remove
  | opened | dialed | closes | swaps | ends => cases ht
  | connTerminates hk₀ _ hpc' ht' hl =>
    obtain ⟨t₁, ht₁, he⟩ := Option.map_eq_some_iff.mp ht
    cases he
    exact hset hk₀ (hpc'.symm.trans ht₁ ▸ ht') hl
  | @terminates k₀ err after _ _ t t' hk₀ ht' hl =>
    cases t' with
    | none => cases (MuxPc.not_terminates (hafter k₀ err t after rfl)).symm.trans ht
    | some t' =>
      cases ht
      exact hset hk₀ ht' hl

theorem MuxLife.afterwards (heff : MuxLife m m' pc pc')
    (hafter : ∀ k err t after, pc = .terminate k err t after → after.afterwards = true) :
    ∀ k err t after, pc' = .terminate k err t after → after.afterwards = true := by
  cases heff with
  | quiet _ _ hq =>
    intro k err t after he
    cases hq <;> cases he <;> rfl
  | @terminates k₀ err₀ after₀ _ _ t₀ t' =>
    have ha := hafter k₀ err₀ t₀ after₀ rfl
    intro k err t after he
    cases t' with
    | none =>
      obtain rfl : after₀ = .terminate k err t after := he
      cases MuxPc.not_terminates ha
    | some t' =>
      cases he
      exact ha
  | _ => nofun

theorem MuxLife.fresh (heff : MuxLife m m' pc pc') (h : m.once = .fresh ↔ m.closed = false)
    (hrun : none ∈ pc.inside → m.once = .running ∧ m.closed = true) : m'.once = .fresh ↔ m'.closed = false := by
  rcases heff.once_cases with hs | ⟨-, ho, hc⟩ | ⟨rfl, ho, hc, -⟩
  · rw [hs.once, hs.closed, h]
  · simp [ho, hc]
  · simp [ho, hc, (hrun List.mem_cons_self).2]

/-- Of two calls inside the function of the mux's `once`, one is the other. -/
theorem MuxSound.alone (h : MuxSound m) (hpc : m.calls[i]? = some pc) (hin : none ∈ pc.inside) {j : Nat}
    (hj : m.calls[j]? = some pc₁) (hne : j ≠ i) : none ∉ pc₁.inside :=
  h.guarded.exclusive.apart hpc hj hne hin

theorem MuxLife.to_closeStreams (heff : MuxLife m m' pc .closeStreams)
    (hafter : ∀ k err t after, pc = .terminate k err t after → after.afterwards = true) : m.once = .fresh := by
  generalize hq : MuxPc.closeStreams = pc' at heff
  cases heff with
  | quiet _ _ hq' => subst hq; cases hq'
  | closes hf => exact hf
  | @terminates k₀ err after _ _ t t' =>
    have ha := hafter k₀ err t after rfl
    cases t' with
    | none =>
      obtain rfl : MuxPc.closeStreams = after := hq
      cases ha
    | some t' => cases hq
  | _ => cases hq

theorem MuxSound.early_step (h : MuxSound m) (heff : MuxLife m m' pc pc') (hpc : m.calls[i]? = some pc)
    (hcalls : m'.calls = m.calls.set i pc') (hp : m'.once = .fresh ∨ .closeStreams ∈ m'.calls) :
    ∀ l ∈ m'.lives, l.registered = false → l.doneOnce = .finished := by
  have hmem := List.mem_of_getElem? hpc
  -- the swap had not come before this step, and is not this step
  have hbefore : (m.once = .fresh ∨ .closeStreams ∈ m.calls) ∧ pc ≠ .closeStreams := by
    rcases hp with hp | hp
    · have hfresh : m.once = .fresh := by
        rcases heff.once_cases with hs | ⟨hf, -⟩ | ⟨-, ho, -⟩
        · rw [← hs.once, hp]
        · exact hf
        · cases hp.symm.trans ho
      refine ⟨.inl hfresh, ?_⟩
      rintro rfl
      cases hfresh.symm.trans (h.running hmem List.mem_cons_self).1
    · rcases mem_calls hcalls hp with rfl | ⟨j, hj, hcall⟩
      · have hfresh := heff.to_closeStreams (h.after_terminate hmem)
        refine ⟨.inl hfresh, ?_⟩
        rintro rfl
        cases hfresh.symm.trans (h.running hmem List.mem_cons_self).1
      · refine ⟨.inr (List.mem_of_getElem? hcall), ?_⟩
        rintro rfl
        exact h.alone hpc List.mem_cons_self hcall hj List.mem_cons_self
  obtain ⟨hbefore, hne⟩ := hbefore
  intro l' hl' hr
  obtain ⟨k, hk⟩ := List.mem_iff_getElem?.mp hl'
  rcases heff.origin (h.knowing hmem) hk with ⟨l, hl, hages⟩ | ⟨-, -, id, rfl⟩
  · rcases hages.lost hr with hr | hf | he
    · exact hages.finished (h.early hbefore l (List.mem_of_getElem? hl) hr)
    · exact hf
    · exact absurd he hne
  · cases hr

/-- From the swap on nothing is registered, and `Close` terminates one connection after the
    other. -/
theorem MuxSound.swapped_step (h : MuxSound m) (heff : MuxLife m m' pc pc') (hpc : m.calls[i]? = some pc)
    (hcalls : m'.calls = m.calls.set i pc') (hmem' : pc₁ ∈ m'.calls) (hks : pc₁.pending = some ks)
    (hk : m'.lives[k]? = some l') : l'.registered = false ∧ (k ∈ ks ∨ l'.doneOnce = .finished) := by
  have hmem := List.mem_of_getElem? hpc
  have hkeep (hpc₀ : MuxPc) (hmem₀ : hpc₀ ∈ m.calls) (ks₀ : List Nat) (hks₀ : hpc₀.pending = some ks₀) :
      l'.registered = false ∧ (k ∈ ks₀ ∨ l'.doneOnce = .finished) := by
    rcases heff.origin (h.knowing hmem) hk with ⟨l, hl, hages⟩ | ⟨-, hc, -⟩
    · obtain ⟨hr, hf⟩ := h.swapped hpc₀ hmem₀ ks₀ hks₀ k l hl
      exact ⟨hages.registered hr, hf.imp_right hages.finished⟩
    · cases hc.symm.trans (h.running hmem₀ (MuxPc.inside_of_pending hks₀)).2
  rcases mem_calls hcalls hmem' with rfl | ⟨j, -, hcall⟩
  · cases heff with
    | quiet _ _ hq => cases hq with
      | @next k₀ ks₀ =>
        cases hks
        exact hkeep _ hmem (k₀ :: ks₀) rfl
      | _ => cases hks
    | opened | dialed | connTerminates | closes | ends => cases hks
    | @terminates k₀ err after _ _ t t' hk₀ ht hl =>
      cases t' with
      | some t' => exact hkeep _ hmem ks hks
      | none =>
        have hks : after.pending = some ks := hks
        obtain ⟨hr, hf⟩ := hkeep _ hmem (k₀ :: ks) (by rw [MuxPc.pending, hks]; rfl)
        refine ⟨hr, ?_⟩
        rcases hf with hf | hf
        · rcases List.mem_cons.mp hf with rfl | hf
          · rcases lives_set hl hk with ⟨-, rfl⟩ | ⟨hne, -⟩
            · exact .inr ht.returned
            · exact absurd rfl hne
          · exact .inl hf
        · exact .inr hf
    | @swaps ks₀ hks₀ hl =>
      cases hks
      rw [hl, List.getElem?_map] at hk
      obtain ⟨l, hkl, rfl⟩ := Option.map_eq_some_iff.mp hk
      refine ⟨rfl, ?_⟩
      cases hr : l.registered with
      | true => exact .inl (hks₀ k l hkl hr)
      | false => exact .inr (h.early (.inr hmem) l (List.mem_of_getElem? hkl) hr)
  · exact hkeep _ (List.mem_of_getElem? hcall) ks hks

theorem MuxSound.ended_step (h : MuxSound m) (heff : MuxLife m m' pc pc') (hpc : pc ∈ m.calls)
    (ho : m'.once = .finished) : ∀ l ∈ m'.lives, l.doneOnce = .finished := by
  have hkeep (hf : m.once = .finished) : ∀ l ∈ m'.lives, l.doneOnce = .finished := by
    intro l' hl'
    obtain ⟨k, hk⟩ := List.mem_iff_getElem?.mp hl'
    rcases heff.origin (h.knowing hpc) hk with ⟨l, hl, hages⟩ | ⟨-, hc, -⟩
    · exact hages.finished (h.ended hf l (List.mem_of_getElem? hl))
    · cases (h.fresh.mpr hc).symm.trans hf
  rcases heff.once_cases with hs | ⟨-, ho', -⟩ | ⟨rfl, -, -, hl⟩
  · exact hkeep (hs.once.symm.trans ho)
  · cases ho.symm.trans ho'
  · intro l hl'
    rw [hl] at hl'
    obtain ⟨k, hk⟩ := List.mem_iff_getElem?.mp hl'
    exact (h.swapped _ hpc [] rfl k l hk).2.resolve_left List.not_mem_nil

theorem MuxSound.run (h : MuxSound m) (heff : MuxLife m m' pc pc') (hpc : m.calls[i]? = some pc)
    (hcalls : m'.calls = m.calls.set i pc') : MuxSound m' := by
  have hmem := List.mem_of_getElem? hpc
  have hknow := h.knowing hmem
  refine ⟨hcalls ▸ heff.guarded h.guarded hpc, heff.ok hknow h.lives, fun pc₁ hmem' k l' ht hk => ?_,
    fun k err t after hmem' => ?_, heff.fresh h.fresh (h.running hmem), h.early_step heff hpc hcalls,
    fun pc₁ hmem' ks hks k l' hk => h.swapped_step heff hpc hcalls hmem' hks hk, h.ended_step heff hmem⟩
  · rcases mem_calls hcalls hmem' with rfl | ⟨j, -, hcall⟩
    · exact heff.to_remove (h.after_terminate hmem) ht hk
    · rcases heff.origin hknow hk with ⟨l, hl, hages⟩ | ⟨hnew, -⟩
      · exact hages.closed (h.removes pc₁ (List.mem_of_getElem? hcall) k l ht hl)
      · -- whoever is inside the function of a connection found it
        have hrun := h.guarded.held pc₁ (List.mem_of_getElem? hcall) _ (MuxPc.inside_of_terminates ht nofun)
        simp [StreamMux.onceOf, hnew] at hrun
  · rcases mem_calls hcalls hmem' with he | ⟨j, -, hcall⟩
    · exact heff.afterwards (h.after_terminate hmem) k err t after he.symm
    · exact h.after k err t after (List.mem_of_getElem? hcall)

theorem Call.start_outside {c : Call} {p : Pc} (h : c.start = some p) : p.terminates = none := by
  cases c with
  | read n | write p =>
    simp only [Call.start] at h
    split at h <;> cases h
    rfl
  | _ => cases h; rfl

/-- A call starts outside of everything. -/
theorem StreamMux.start_outside {c : MuxCall} (h : m.start c = some pc) :
    pc.inside = [] ∧ pc.terminates = none ∧ pc.pending = none ∧ pc ≠ .closeStreams := by
  have hconn {k : Nat} {c : Call} (h : m.onConn k c = some pc) :
      pc.inside = [] ∧ pc.terminates = none ∧ pc.pending = none ∧ pc ≠ .closeStreams := by
    unfold StreamMux.onConn at h
    split at h
    · obtain ⟨p, hp, rfl⟩ := Option.map_eq_some_iff.mp h
      have ht := Call.start_outside hp
      simp [MuxPc.inside, MuxPc.terminates, MuxPc.pending, ht]
    · cases h
  cases c with
  | read k n | write k p | resume k | closeConn k => exact hconn h
  | _ => cases h; exact ⟨rfl, rfl, rfl, nofun⟩

theorem MuxSound.call {c : MuxCall} (h : MuxSound m) (hstart : m.start c = some pc) :
    MuxSound { m with calls := m.calls ++ [pc] } := by
  obtain ⟨hin, ht, hp, hne⟩ := StreamMux.start_outside hstart
  have hold {pc₁ : MuxPc} (hmem : pc₁ ∈ m.calls ++ [pc]) (hn : pc₁ ≠ pc) : pc₁ ∈ m.calls :=
    (List.mem_append.mp hmem).resolve_right fun hm => hn (List.mem_singleton.mp hm)
  refine ⟨h.guarded.add hin, h.lives, fun pc₁ hmem k l ht₁ hk => ?_, fun k err t after hmem => ?_, h.fresh,
    fun hb => ?_, fun pc₁ hmem ks hks k l hk => ?_, h.ended⟩
  · exact h.removes pc₁ (hold hmem fun he => by rw [he, ht] at ht₁; cases ht₁) k l ht₁ hk
  · exact h.after k err t after (hold hmem fun he => by rw [← he] at ht; cases ht)
  · exact h.early (hb.imp_right fun hmem => hold hmem (Ne.symm hne))
  · exact h.swapped pc₁ (hold hmem fun he => by rw [he, hp] at hks; cases hks) ks hks k l hk

theorem MuxSound.new (cfg : StreamMuxConfig) : MuxSound (.new cfg) :=
  ⟨⟨fun _ => Nat.zero_le _, nofun⟩, nofun, nofun, nofun, ⟨fun _ => rfl, fun _ => rfl⟩, fun _ => nofun, nofun, nofun⟩

/-- A step brings in a new call, or a call goes on. -/
theorem StreamMux.step_lives {a : MuxMove} (h : m.step a = some m') :
    (∃ c pc, a = .call c ∧ m.start c = some pc ∧ m' = { m with calls := m.calls ++ [pc] }) ∨
      ∃ i how pc pc', a = .run i how ∧ m.calls[i]? = some pc ∧ MuxLife m m' pc pc' ∧ m'.calls = m.calls.set i pc' := by
  cases a with
  | call c =>
    obtain ⟨pc, hpc, rfl⟩ := Option.map_eq_some_iff.mp h
    exact .inl ⟨c, pc, rfl, hpc, rfl⟩
  | run i how =>
    simp only [StreamMux.step] at h
    split at h
    · cases h
    rename_i pc hpc
    split at h
    · cases h
    obtain ⟨pc', heff, hcalls⟩ := pcStep_lives h
    exact .inr ⟨i, how, pc, pc', rfl, hpc, heff, hcalls⟩

theorem MuxSound.step {a : MuxMove} (h : MuxSound m) (hs : m.step a = some m') : MuxSound m' := by
  rcases StreamMux.step_lives hs with ⟨c, pc, rfl, hstart, rfl⟩ | ⟨i, how, pc, pc', rfl, hpc, heff, hcalls⟩
  · exact h.call hstart
  · exact h.run heff hpc hcalls

end

end Turntf.Stream
