/-
  Turntf.Stream.Mux — a `StreamMux`, its connections and the calls on them
  (`stream_conn.go`).

  `conns` are all the connections the mux ever made, in order; `m.streams` maps an ID to the
  one of them that is still registered under it. A call on a connection takes the steps of
  `Turntf.Stream.Calls`; the calls on the mux itself take a step for each section behind
  `m.mu`, each send and each channel operation. The transport is the environment: it takes a
  frame or refuses it, and frames arrive by `handleFrame` calls at any time, from within a
  send too.
-/

import Turntf.Stream.Effects

namespace Turntf.Stream

open Locks

/-! ## Configuration -/

structure StreamMuxConfig where
  window : UInt64
  maxFrameSize : Int
  acceptBacklog : Int
  deriving DecidableEq

def StreamMuxConfig.normalized (c : StreamMuxConfig) : Except StreamError StreamMuxConfig :=
  let c := if c.window = 0 then { c with window := defaultStreamWindow } else c
  let c := if c.maxFrameSize = 0 then { c with maxFrameSize := defaultStreamMaxFrame } else c
  if c.maxFrameSize < 1 ∨ c.maxFrameSize > defaultStreamMaxFrame then
    .error (.text "stream max frame size is out of range")
  else if c.window.toNat > maxInt then .error (.text "stream window is too large")
  else
    let c := if c.acceptBacklog = 0 then { c with acceptBacklog := 16 } else c
    if c.acceptBacklog < 1 then .error (.text "stream accept backlog must be positive")
    else .ok c

theorem normalized_ok {raw cfg : StreamMuxConfig} (h : raw.normalized = .ok cfg) :
    cfg.window.toNat ≤ maxInt ∧ 1 ≤ cfg.maxFrameSize ∧ cfg.maxFrameSize ≤ defaultStreamMaxFrame ∧
      1 ≤ cfg.acceptBacklog := by
  unfold StreamMuxConfig.normalized at h
  extract_lets c₁ c₂ c₃ at h
  by_cases hf : c₂.maxFrameSize < 1 ∨ c₂.maxFrameSize > defaultStreamMaxFrame
  · rw [if_pos hf] at h
    cases h
  by_cases hw : c₂.window.toNat > maxInt
  · rw [if_neg hf, if_pos hw] at h
    cases h
  by_cases hb : c₃.acceptBacklog < 1
  · rw [if_neg hf, if_neg hw, if_pos hb] at h
    cases h
  rw [if_neg hf, if_neg hw, if_neg hb, Except.ok.injEq] at h
  have hsame : c₃.window = c₂.window ∧ c₃.maxFrameSize = c₂.maxFrameSize := by
    unfold c₃
    split <;> exact ⟨rfl, rfl⟩
  rw [← h, hsame.1, hsame.2]
  omega

/-! ## The mux -/

/-- Where a call is. `terminate` goes on with `after` when it has returned. -/
inductive MuxPc where
  | conn (k : Nat) (pc : Pc) (sent : Option StreamError)
  | handleFrame (frame : StreamFrame)
  | sendAck (frame : StreamFrame) (k : Nat) (created : Bool)
  | ackSent (frame : StreamFrame) (k : Nat) (created : Bool) (err : Option StreamError)
  | offer (frame : StreamFrame) (k : Nat)
  | sendClose (frame : StreamFrame) (k : Nat)
  | dial (id : StreamID)
  | sendOpen (k : Nat)
  | openSent (k : Nat) (err : Option StreamError)
  | await (k : Nat)
  | accept
  | accepted (k : Nat)
  | close
  | closeStreams
  | closing (ks : List Nat)
  | terminate (k : Nat) (err : StreamError) (t : TerminatePc) (after : MuxPc)
  | returned (err : Option StreamError)

/-- A mutex of a connection of the mux. -/
structure MuxLock where
  conn : Nat
  mutex : Mutex
  deriving DecidableEq

def MuxPc.wants : MuxPc → Option MuxLock
  | .conn k pc _ => pc.wants.map (.mk k)
  | .terminate k _ t _ => t.wants.map (.mk k)
  | _ => none

def MuxPc.holds : MuxPc → List MuxLock
  | .conn k pc _ => pc.holds.map (.mk k)
  | .terminate k _ t _ => t.holds.map (.mk k)
  | _ => []

structure StreamMux where
  cfg : StreamMuxConfig
  conns : List StreamEnd
  accept : List Nat
  closed : Bool
  once : Once
  calls : List MuxPc

inductive MuxCall where
  | handleFrame (frame : StreamFrame)
  | dial (id : StreamID)
  | accept
  | close
  | read (k n : Nat)
  | write (k : Nat) (p : Bytes)
  | resume (k : Nat)
  | closeConn (k : Nat)

inductive MuxMove where
  | call (call : MuxCall)
  | run (i : Nat) (how : Choice)

/-- The connection of `newStreamConn`, before anything is sent for it. -/
def newMuxEnd (id : StreamID) (epoch window : UInt64) (maxFrameSize : Nat) (opened : Bool) : StreamEnd :=
  { StreamEnd.new id window maxFrameSize opened with conn := newStreamConn id epoch window opened, out := [] }

/-- What `m.send` returns. -/
def sendResult : Choice → Option (Option StreamError)
  | .taken => some none
  | .refused err => some (some err)
  | _ => none

namespace StreamMux

def new (cfg : StreamMuxConfig) : StreamMux where
  cfg := cfg
  conns := []
  accept := []
  closed := false
  once := .fresh
  calls := []

variable (m : StreamMux)

/-- `m.streams[id]`. -/
def find (id : StreamID) : Option Nat := m.conns.findIdx? fun e => e.registered && e.conn.id = id

def held : List MuxLock := m.calls.flatMap MuxPc.holds

def goto (i : Nat) (pc : MuxPc) : StreamMux := { m with calls := m.calls.set i pc }

def setConn (k : Nat) (e : StreamEnd) : StreamMux := { m with conns := m.conns.set k e }

/-- `m.send` of a frame for the connection `k`. -/
def give (k : Nat) (frame : StreamFrame) : StreamMux :=
  { m with conns := m.conns.modify k fun e => { e with out := e.out ++ [frame] } }

/-- A new connection is registered. -/
def register (id : StreamID) (epoch window : UInt64) (opened : Bool) : StreamMux :=
  { m with conns := m.conns ++ [newMuxEnd id epoch window m.cfg.maxFrameSize.toNat opened] }

/-- `m.streams = make(map[StreamID]*StreamConn)`. -/
def unregisterAll : StreamMux := { m with conns := m.conns.map fun e : StreamEnd => { e with registered := false } }

/-- `handleOpen` up to the end of its section. -/
def handleOpen (i : Nat) (frame : StreamFrame) : StreamMux :=
  if frame.epoch = 0 ∨ frame.payload.length ≠ 0 then m.goto i (.returned (some (.text "invalid stream open frame")))
  else if (openAck frame).window.toNat > maxInt then m.goto i (.returned (some .credit))
  else if m.closed then m.goto i (.returned (some .closed))
  else match m.find frame.id with
    | some k => m.goto i (.sendAck frame k false)
    | none => (m.register frame.id frame.epoch (openAck frame).window true).goto i (.sendAck frame m.conns.length true)

def handleFrame (i : Nat) (frame : StreamFrame) : StreamMux :=
  match frameError m.cfg.maxFrameSize.toNat frame with
  | some err => m.goto i (.returned (some err))
  | none =>
    if frame.kind = .frameOpen then m.handleOpen i frame
    else match m.find frame.id with
      | some k => m.goto i (.conn k (.handle (.lockHandle frame)) none)
      | none => m.goto i (.returned (if frame.kind = .frameClose then none else some .unknown))

/-- The step of a call on the connection `k`. -/
def connStep (i k : Nat) (pc : Pc) (sent : Option StreamError) (how : Choice) : Option StreamMux :=
  match m.conns[k]? with
  | none => none
  | some e =>
    match pcStep e sent how pc with
    | none => none
    | some (e', .goto pc') => some ((m.setConn k e').goto i (.conn k pc' sent))
    | some (e', .ret err) => some ((m.setConn k e').goto i (.returned err))
    | some (e', .send frame pc') =>
      (sendResult how).map fun err => ((m.setConn k e').give k frame).goto i (.conn k pc' err)

def backlogFull : StreamError := .text "stream accept backlog is full"

def canceled : StreamError := .text "context canceled"

def pcStep (i : Nat) (how : Choice) : MuxPc → Option StreamMux
  | .conn k pc sent => m.connStep i k pc sent how
  | .handleFrame frame => some (m.handleFrame i frame)
  | .sendAck frame k created =>
    (sendResult how).map fun err => (m.give k (openAck frame)).goto i (.ackSent frame k created err)
  | .ackSent frame k created err =>
    some (m.goto i (match err, created with
      | some err, true => .terminate k err .once (.returned (some err))
      | some err, false => .returned (some err)
      | none, true => .offer frame k
      | none, false => .returned none))
  | .offer frame k =>
    if m.accept.length < m.cfg.acceptBacklog then some ({ m with accept := m.accept ++ [k] }.goto i (.returned none))
    else some (m.goto i (.terminate k backlogFull .once (.sendClose frame k)))
  | .sendClose frame k =>
    (sendResult how).map fun _ =>
      (m.give k { kind := .frameClose, id := frame.id, epoch := frame.epoch }).goto i (.returned (some backlogFull))
  | .dial id =>
    if m.closed then some (m.goto i (.returned (some .closed)))
    else match m.find id with
      | some _ => some (m.goto i (.returned (some (.text "stream ID is already registered"))))
      | none => some ((m.register id 1 m.cfg.window false).goto i (.sendOpen m.conns.length))
  | .sendOpen k =>
    match m.conns[k]? with
    | none => none
    | some e =>
      (sendResult how).map fun err =>
        (m.give k { kind := .frameOpen, id := e.conn.id, epoch := 1, window := m.cfg.window }).goto i (.openSent k err)
  | .openSent k err =>
    some (m.goto i (match err with
      | some err => .terminate k err .once (.returned (some err))
      | none => .await k))
  | .await k =>
    match m.conns[k]?, how with
    | some e, .go => if e.conn.opened then some (m.goto i (.returned none)) else none
    | some e, .done => if e.conn.isClosed then some (m.goto i (.returned (some e.conn.closeError))) else none
    | _, .cancelled => some (m.goto i (.terminate k canceled .once (.returned (some canceled))))
    | _, _ => none
  | .accept =>
    match m.accept, how with
    | k :: rest, .go => some ({ m with accept := rest }.goto i (.accepted k))
    | _, .done => if m.closed then some (m.goto i (.returned (some .closed))) else none
    | _, .cancelled => some (m.goto i (.returned (some canceled)))
    | _, _ => none
  | .accepted k =>
    match m.conns[k]? with
    | none => none
    | some e => some (m.goto i (if e.conn.isClosed then .accept else .returned none))
  | .close =>
    match m.once with
    | .fresh => some ({ m with once := .running, closed := true }.goto i .closeStreams)
    | .running => none
    | .finished => some (m.goto i (.returned none))
  | .closeStreams =>
    some (m.unregisterAll.goto i (.closing ((List.range m.conns.length).filter fun k =>
      (m.conns[k]?).any StreamEnd.registered)))
  | .closing [] => some ({ m with once := .finished }.goto i (.returned none))
  | .closing (k :: ks) => some (m.goto i (.terminate k .closed .once (.closing ks)))
  | .terminate k err t after =>
    match m.conns[k]? with
    | none => none
    | some e =>
      (terminateStep e err t).map fun (e', t') =>
        (m.setConn k e').goto i (match t' with
          | some t' => .terminate k err t' after
          | none => after)
  | .returned _ => none

/-- A call on the connection `k`, which the caller got from `Dial` or `Accept`. -/
def onConn (k : Nat) (c : Call) : Option MuxPc :=
  if k < m.conns.length then c.start.map fun pc => .conn k pc none else none

def start : MuxCall → Option MuxPc
  | .handleFrame frame => some (.handleFrame frame)
  | .dial id => some (.dial id)
  | .accept => some .accept
  | .close => some .close
  | .read k n => m.onConn k (.read n)
  | .write k p => m.onConn k (.write p)
  | .resume k => m.onConn k .resume
  | .closeConn k => m.onConn k .close

def step : MuxMove → Option StreamMux
  | .call c => (m.start c).map fun pc => { m with calls := m.calls ++ [pc] }
  | .run i how =>
    match m.calls[i]? with
    | none => none
    | some pc => if pc.wants.any (· ∈ m.held) then none else m.pcStep i how pc

end StreamMux

/-! ## What one step can do -/

/-- What of an end only its own handlers and readers change. -/
def StreamEnd.inbound (e : StreamEnd) : UInt64 × Bytes × UInt64 × Nat :=
  (e.conn.receiver.offset, e.conn.readBuf, e.conn.window, e.maxFrameSize)

/-- The positions that are not on a connection and have no frame to route. -/
def MuxPc.plain : MuxPc → Bool
  | .conn .. | .handleFrame _ | .terminate .. => false
  | _ => true

theorem MuxPc.holds_of_plain {pc : MuxPc} (h : pc.plain = true) : pc.holds = [] := by
  cases pc <;> first | rfl | cases h

/-- A call goes on from a position: the connections after its step and its next position. -/
inductive MuxEffect (m : StreamMux) : MuxPc → List StreamEnd → MuxPc → Prop
  | conn {k : Nat} {pc : Pc} {sent sent' : Option StreamError} {how : Choice} {e e' : StreamEnd} {n : Next Pc} {pc' : Pc}
      {extra : List StreamFrame} (he : m.conns[k]? = some e) (hs : Stream.pcStep e sent how pc = some (e', n))
      (hn : n.pc? = some pc') :
      MuxEffect m (.conn k pc sent) (m.conns.set k { e' with out := e'.out ++ extra }) (.conn k pc' sent')
  | ret {k : Nat} {pc : Pc} {sent err : Option StreamError} {how : Choice} {e e' : StreamEnd} (he : m.conns[k]? = some e)
      (hs : Stream.pcStep e sent how pc = some (e', .ret err)) :
      MuxEffect m (.conn k pc sent) (m.conns.set k e') (.returned err)
  | route {frame : StreamFrame} {k : Nat} (hf : frameError m.cfg.maxFrameSize.toNat frame = none)
      (hk : m.find frame.id = some k) : MuxEffect m (.handleFrame frame) m.conns (.conn k (.handle (.lockHandle frame)) none)
  | opened {frame : StreamFrame} (hk : frame.kind = .frameOpen) (hw : (openAck frame).window.toNat ≤ maxInt)
      (hn : m.find frame.id = none) :
      MuxEffect m (.handleFrame frame) (m.register frame.id frame.epoch (openAck frame).window true).conns
        (.sendAck frame m.conns.length true)
  | dialed {id : StreamID} (hn : m.find id = none) :
      MuxEffect m (.dial id) (m.register id 1 m.cfg.window false).conns (.sendOpen m.conns.length)
  | terminate {k : Nat} {err : StreamError} {t : TerminatePc} {after : MuxPc} {e e' : StreamEnd}
      {t' : Option TerminatePc} (he : m.conns[k]? = some e) (ht : terminateStep e err t = some (e', t')) :
      MuxEffect m (.terminate k err t after) (m.conns.set k e') (t'.elim after fun t' => .terminate k err t' after)
  | close {pc after : MuxPc} {k : Nat} {err : StreamError} (hp : after.plain = true) :
      MuxEffect m pc m.conns (.terminate k err .once after)
  | quiet {pc pc' : MuxPc} {conns : List StreamEnd} (hc : conns.map StreamEnd.inbound = m.conns.map StreamEnd.inbound)
      (hp : pc'.plain = true) : MuxEffect m pc conns pc'

/-- The `i`-th call, at `pc`, has gone on. -/
def StreamMux.Continues (m : StreamMux) (i : Nat) (pc : MuxPc) (m' : StreamMux) : Prop :=
  m'.cfg = m.cfg ∧ ∃ pc', MuxEffect m pc m'.conns pc' ∧ m'.calls = m.calls.set i pc'

section

variable {m m' : StreamMux} {i : Nat} {how : Choice} {pc pc' : MuxPc}

theorem StreamMux.Continues.quiet (hc : m'.conns.map StreamEnd.inbound = m.conns.map StreamEnd.inbound)
    (hm : m'.calls = m.calls) (hcfg : m'.cfg = m.cfg) (hp : pc'.plain = true) : m.Continues i pc (m'.goto i pc') :=
  ⟨hcfg, pc', .quiet hc hp, by rw [goto, hm]⟩

theorem give_inbound (m : StreamMux) (k : Nat) (frame : StreamFrame) :
    (m.give k frame).conns.map StreamEnd.inbound = m.conns.map StreamEnd.inbound := by
  apply List.ext_getElem?
  intro j
  simp only [StreamMux.give, List.getElem?_map, List.getElem?_modify]
  cases m.conns[j]? with
  | none => rfl
  | some e => by_cases h : k = j <;> simp [h, StreamEnd.inbound]

theorem handleOpen_effect {frame : StreamFrame} (hk : frame.kind = .frameOpen) :
    m.Continues i (.handleFrame frame) (m.handleOpen i frame) := by
  unfold StreamMux.handleOpen
  split
  · exact .quiet rfl rfl rfl rfl
  · split
    · exact .quiet rfl rfl rfl rfl
    · rename_i hw
      split
      · exact .quiet rfl rfl rfl rfl
      · split
        · exact .quiet rfl rfl rfl rfl
        · rename_i hn
          exact ⟨rfl, _, .opened hk (by omega) hn, rfl⟩

theorem handleFrame_effect (m : StreamMux) (i : Nat) (frame : StreamFrame) :
    m.Continues i (.handleFrame frame) (m.handleFrame i frame) := by
  unfold StreamMux.handleFrame
  split
  · exact .quiet rfl rfl rfl rfl
  · rename_i hf
    split
    · rename_i hk
      exact handleOpen_effect hk
    · split
      · rename_i hk
        exact ⟨rfl, _, .route hf hk, rfl⟩
      · exact .quiet rfl rfl rfl rfl

theorem connStep_effect {k : Nat} {pc : Pc} {sent : Option StreamError} (h : m.connStep i k pc sent how = some m') :
    m.Continues i (.conn k pc sent) m' := by
  have hgoes : ∀ {e e' n pc'} (extra : List StreamFrame) (sent' : Option StreamError), m.conns[k]? = some e →
      Stream.pcStep e sent how pc = some (e', n) → n.pc? = some pc' →
      m'.conns = m.conns.set k { e' with out := e'.out ++ extra } → m'.cfg = m.cfg →
      m'.calls = m.calls.set i (.conn k pc' sent') → m.Continues i (.conn k pc sent) m' := by
    intro e e' n pc' extra sent' he hs hn hc hcfg hm
    exact ⟨hcfg, _, hc ▸ .conn he hs hn, hm⟩
  unfold StreamMux.connStep at h
  split at h
  · cases h
  · rename_i e he
    split at h
    · cases h
    · rename_i e' pc' hs
      cases h
      exact hgoes [] sent he hs rfl (by rw [List.append_nil]; rfl) rfl rfl
    · rename_i hs
      cases h
      exact ⟨rfl, _, .ret he hs, rfl⟩
    · rename_i e' frame pc' hs
      obtain ⟨err, _, rfl⟩ := Option.map_eq_some_iff.mp h
      refine hgoes [frame] err he hs rfl ?_ rfl rfl
      apply List.ext_getElem?
      intro j
      simp only [StreamMux.goto, StreamMux.give, StreamMux.setConn, List.getElem?_modify, List.getElem?_set]
      by_cases hj : k = j <;> by_cases hl : k < m.conns.length <;> simp [hj]

theorem pcStep_continues (h : m.pcStep i how pc = some m') : m.Continues i pc m' := by
  cases pc with
  | conn k pc sent => exact connStep_effect h
  | handleFrame frame =>
    cases h
    exact handleFrame_effect m i frame
  | sendAck frame k created =>
    obtain ⟨err, _, rfl⟩ := Option.map_eq_some_iff.mp h
    exact .quiet (give_inbound _ _ _) rfl rfl rfl
  | ackSent frame k created err =>
    cases h
    cases err <;> cases created <;> first
      | exact .quiet rfl rfl rfl rfl
      | exact ⟨rfl, _, .close rfl, rfl⟩
  | sendClose frame k =>
    obtain ⟨err, _, rfl⟩ := Option.map_eq_some_iff.mp h
    exact .quiet (give_inbound _ _ _) rfl rfl rfl
  | dial id =>
    simp only [StreamMux.pcStep] at h
    split at h
    · cases h
      exact .quiet rfl rfl rfl rfl
    · split at h
      · cases h
        exact .quiet rfl rfl rfl rfl
      · rename_i hn
        cases h
        exact ⟨rfl, _, .dialed hn, rfl⟩
  | sendOpen k =>
    simp only [StreamMux.pcStep] at h
    split at h
    · cases h
    · obtain ⟨err, _, rfl⟩ := Option.map_eq_some_iff.mp h
      exact .quiet (give_inbound _ _ _) rfl rfl rfl
  | openSent k err =>
    cases h
    cases err with
    | none => exact .quiet rfl rfl rfl rfl
    | some err => exact ⟨rfl, _, .close rfl, rfl⟩
  | closeStreams =>
    cases h
    refine .quiet ?_ rfl rfl rfl
    simp only [StreamMux.unregisterAll, List.map_map]
    rfl
  | closing ks =>
    cases ks with
    | nil => cases h; exact .quiet rfl rfl rfl rfl
    | cons k ks => cases h; exact ⟨rfl, _, .close rfl, rfl⟩
  | terminate k err t after =>
    simp only [StreamMux.pcStep] at h
    split at h
    · cases h
    · rename_i e he
      obtain ⟨⟨e', t'⟩, ht, rfl⟩ := Option.map_eq_some_iff.mp h
      refine ⟨rfl, _, .terminate he ht, ?_⟩
      cases t' <;> rfl
  | accepted k =>
    simp only [StreamMux.pcStep] at h
    split at h
    · cases h
    · cases h
      split <;> exact .quiet rfl rfl rfl rfl
  | _ =>
    simp only [StreamMux.pcStep] at h
    (repeat' split at h) <;> cases h <;> first
      | exact .quiet rfl rfl rfl rfl
      | exact ⟨rfl, _, .close rfl, rfl⟩

/-- A step brings in a new call or is one of a call whose mutex, if it needs one, is free. -/
theorem StreamMux.step_cases {a : MuxMove} (h : m.step a = some m') :
    (∃ c pc, a = .call c ∧ m.start c = some pc ∧ m' = { m with calls := m.calls ++ [pc] }) ∨
      ∃ i how pc, a = .run i how ∧ m.calls[i]? = some pc ∧ (∀ l, pc.wants = some l → l ∉ m.held) ∧
        m.Continues i pc m' := by
  cases a with
  | call c =>
    obtain ⟨pc, hpc, rfl⟩ := Option.map_eq_some_iff.mp h
    exact .inl ⟨c, pc, rfl, hpc, rfl⟩
  | run i how =>
    simp only [StreamMux.step] at h
    split at h
    · cases h
    · rename_i pc hpc
      split at h
      · cases h
      · rename_i hfree
        refine .inr ⟨i, how, pc, rfl, hpc, fun l hl hheld => hfree ?_, pcStep_continues h⟩
        rw [hl]
        simpa using hheld

end

end Turntf.Stream
