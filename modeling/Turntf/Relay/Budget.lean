/-
  Turntf.Relay.Budget — how much a receiver can hold.

  A DATA payload the receiver has is in the inbox, in the hands of `dispatchLoop` and not yet
  stored, in `recvBuf`, in a ready batch or in `recvCh` (`Recv.held`). `enqueueEnvelope`
  admits one more when `inboxData`, `len(recvCh)` and the number it read in its first section
  are below the budget. That number may be old by then: `dispatchLoop` may have stored a
  frame since. It cannot have let go of one, which needs `inboxMu`, so such a frame is still
  counted in `inboxData` (`Recv.Bounded.read`).

  - `receive_bounded`: the payloads held never exceed `cap(recvCh) + 2 * max(WindowSize, 1)`,
    and `inboxData`, `recvReady` and `ackGenerating` are never negative.
-/

import Turntf.Relay.Acked

namespace Turntf.Relay

open Lts

/-! ## What is held, and where -/

def RelayEnvelope.dataCount (env : RelayEnvelope) : Nat := if env.isData then 1 else 0

/-- The DATA frames in the inbox. -/
def Recv.inboxCount (r : Recv) : Nat := (r.inbox.getD []).countP RelayEnvelope.isData

/-- The DATA frame in hand, before it is stored or pushed. -/
def DispatchPc.unmoved : DispatchPc → Nat
  | .check env | .readIdle env | .waitIdle env _ | .handle env => env.dataCount
  | .deliverOne _ => 1
  | _ => 0

/-- The DATA frame in hand, after that and until it is let go of. -/
def DispatchPc.moved : DispatchPc → Nat
  | .deliver env _ _ _ _ | .delivered env _ _ | .settle env _ | .queue env _ | .ping env | .finish env
  | .release env => env.dataCount
  | _ => 0

/-- The frames of the ready batch that are not pushed. -/
def DispatchPc.batch : DispatchPc → Nat
  | .deliver _ _ _ ready _ => ready.length + 1
  | .delivered _ ready _ => ready.length
  | _ => 0

/-- The frames of the ready batch that `recvReady` counts. -/
def DispatchPc.counted : DispatchPc → Nat
  | .deliver _ _ _ ready _ | .delivered _ ready _ => ready.length + 1
  | _ => 0

/-- The DATA payloads the receiver has. -/
def Recv.held (r : Recv) : Nat :=
  r.inboxCount + r.dispatcher.unmoved + r.recvBuf.keys.length + r.dispatcher.batch + r.recvCh.length

/-- `enqueueEnvelope` has tested the budget for a DATA frame. -/
def ReaderPc.tested : ReaderPc → Bool
  | .begin env | .push env => env.isData
  | _ => false

/-- The number `enqueueEnvelope` read in its first section. -/
def ReaderPc.buffered? : ReaderPc → Option Int
  | .snapped _ _ buffered _ _ _ | .budget _ buffered => some buffered
  | _ => none

structure Recv.Bounded (r : Recv) (budget : Int) : Prop where
  off : r.inbox = none → r.dispatcher = .off
  held : r.held ≤ budget
  room : r.reader.tested = true → r.held < budget
  read : ∀ n ∈ r.reader.buffered?, (r.recvBuf.keys.length + r.dispatcher.batch : Int) ≤ r.dispatcher.moved + n
  inboxData : (r.inboxCount + r.dispatcher.unmoved + r.dispatcher.moved : Int) ≤ r.inboxData
  recvReady : (r.dispatcher.counted : Int) ≤ r.recvReady

theorem DispatchPc.batch_le_counted (pc : DispatchPc) : pc.batch ≤ pc.counted := by
  cases pc <;> simp [DispatchPc.batch, DispatchPc.counted]

/-! ## `dispatchLoop` only moves payloads -/

section

variable {c c' : RelayConnection}

/-- A step of `dispatchLoop` that does not need `inboxMu`. -/
structure Flow (r r' : Recv) : Prop where
  reader : r'.reader = r.reader
  inboxData : r'.inboxData = r.inboxData
  held : r'.held ≤ r.held
  stored : r'.recvBuf.keys.length + r'.dispatcher.batch + r.dispatcher.moved ≤
    r.recvBuf.keys.length + r.dispatcher.batch + r'.dispatcher.moved
  pending : r'.inboxCount + r'.dispatcher.unmoved + r'.dispatcher.moved ≤
    r.inboxCount + r.dispatcher.unmoved + r.dispatcher.moved
  ready : r'.dispatcher.counted + r.recvReady ≤ r.dispatcher.counted + r'.recvReady

theorem Recv.Bounded.flow {r r' : Recv} {budget : Int} (h : r.Bounded budget) (hin : r'.inbox ≠ none)
    (hf : Flow r r') : r'.Bounded budget := by
  have hheld := hf.held
  refine ⟨fun hn => absurd hn hin, ?_, ?_, ?_, ?_, ?_⟩
  · have := h.held
    omega
  · rw [hf.reader]
    intro ht
    have := h.room ht
    omega
  · rw [hf.reader]
    intro n hn
    have := h.read n hn
    have := hf.stored
    omega
  · have := h.inboxData
    have := hf.pending
    have := hf.inboxData
    omega
  · have := h.recvReady
    have := hf.ready
    omega

theorem takeReady_count (fuel : Nat) (buf : SeqMap) (next : Nat) :
    (takeReady fuel buf next).1.length + (takeReady fuel buf next).2.1.keys.length = buf.keys.length := by
  induction fuel generalizing buf next with
  | zero => simp [takeReady]
  | succ fuel ih =>
    unfold takeReady
    split
    · rename_i data hdata
      have hmem : next ∈ buf.keys := by
        rw [← AList.mem_keys, ← AList.lookup_isSome, hdata]
        rfl
      have hlen := List.length_erase_of_mem hmem
      have hpos := List.length_pos_of_mem hmem
      have := ih (buf.erase next) (next + 1)
      rw [AList.keys_erase, hlen] at this
      show (takeReady fuel (buf.erase next) (next + 1)).1.length + 1 +
        (takeReady fuel (buf.erase next) (next + 1)).2.1.keys.length = _
      omega
    · simp

/-- The first section of `handleData` stores at most the frame in hand. -/
theorem order_count {r r' : Recv} {w : Int} {env : RelayEnvelope} {ready : List (Nat × Bytes)}
    (h : r.order w env = (r', some ready)) :
    r'.recvBuf.keys.length + ready.length ≤ r.recvBuf.keys.length + 1 ∧ r'.recvReady = r.recvReady + ready.length ∧
      r'.inboxData = r.inboxData := by
  unfold Recv.order at h
  split at h
  · cases h
    have := takeReady_count r.recvBuf.keys.length r.recvBuf (env.seq + 1)
    refine ⟨?_, rfl, rfl⟩
    show (takeReady r.recvBuf.keys.length r.recvBuf (env.seq + 1)).2.1.keys.length +
      ((takeReady r.recvBuf.keys.length r.recvBuf (env.seq + 1)).1.length + 1) ≤ _
    omega
  · split at h
    · split at h <;> cases h
      refine ⟨?_, by simp, rfl⟩
      have := List.length_erase_le (a := env.seq) (l := r.recvBuf.keys)
      simp only [AList.keys_insert, List.length_cons, List.length_nil]
      omega
    · cases h
      exact ⟨by simp, by simp, rfl⟩

theorem handled_counts (c : RelayConnection) (env : RelayEnvelope) :
    (c.handled env).batch = 0 ∧ (c.handled env).counted = 0 ∧ (c.handled env).unmoved = 0 ∧
      (c.handled env).moved = env.dataCount := by
  rcases handled_cases c env with h | h <;> rw [h] <;> exact ⟨rfl, rfl, rfl, rfl⟩

/-- `dispatchLoop` goes from `pc` to `pc'` and nothing else changes. -/
theorem Flow.pc {r : Recv} {pc pc' : DispatchPc} (hpc : r.dispatcher = pc)
    (hh : pc'.unmoved + pc'.batch ≤ pc.unmoved + pc.batch) (hs : pc'.batch + pc.moved ≤ pc.batch + pc'.moved)
    (hp : pc'.unmoved + pc'.moved ≤ pc.unmoved + pc.moved) (hc : pc'.counted ≤ pc.counted) :
    Flow r { r with dispatcher := pc' } := by
  subst hpc
  refine ⟨rfl, rfl, ?_, ?_, ?_, ?_⟩ <;> simp only [Recv.held, Recv.inboxCount] <;> omega

theorem Flow.handled {r : Recv} {pc : DispatchPc} {env : RelayEnvelope} (hpc : r.dispatcher = pc)
    (hp : pc.unmoved + pc.moved = env.dataCount) : Flow r { r with dispatcher := c.handled env } := by
  obtain ⟨h1, h2, h3, h4⟩ := handled_counts c env
  exact .pc hpc (by omega) (by omega) (by omega) (by omega)

theorem dataCount_of_data {env : RelayEnvelope} (hk : env.kind = .kindData) : env.dataCount = 1 := by
  simp [RelayEnvelope.dataCount, RelayEnvelope.isData, hk]

theorem dataCount_le (env : RelayEnvelope) : env.dataCount ≤ 1 := by
  unfold RelayEnvelope.dataCount
  split <;> omega

theorem DispatchMove.flow {pc pc' : DispatchPc} (hm : DispatchMove c pc pc') (hpc : c.recv.dispatcher = pc) :
    Flow c.recv { c.recv with dispatcher := pc' } := by
  cases hm with
  | stop => exact .pc hpc (Nat.le_refl _) (Nat.le_refl _) (Nat.le_refl _) (Nat.le_refl _)
  | halt => exact .pc hpc (Nat.zero_le _) (Nat.le_refl _) (Nat.zero_le _) (Nat.le_refl _)
  | terminal | checked | idle | wait | waited =>
    exact .pc hpc (Nat.le_refl _) (Nat.le_refl _) (Nat.le_refl _) (Nat.le_refl _)
  | skip | outside | pinged => exact .handled hpc (by simp [DispatchPc.unmoved, DispatchPc.moved])
  | one hk =>
    have := dataCount_of_data hk
    refine .pc hpc ?_ (Nat.le_refl _) ?_ (Nat.le_refl _) <;> simp [DispatchPc.unmoved, DispatchPc.moved, DispatchPc.batch, this]
  | @abandonOne env =>
    have := dataCount_le env
    rcases handled_cases c env with he | he <;> rw [he] <;> refine .pc hpc ?_ ?_ ?_ ?_ <;>
      simp only [DispatchPc.unmoved, DispatchPc.moved, DispatchPc.batch, DispatchPc.counted] <;> omega
  | @abandon env =>
    rcases handled_cases c env with he | he <;> rw [he] <;> refine .pc hpc ?_ ?_ ?_ ?_ <;>
      simp only [DispatchPc.unmoved, DispatchPc.moved, DispatchPc.batch, DispatchPc.counted] <;> omega

theorem release_frame (r : Recv) (env : RelayEnvelope) :
    (r.release env).inbox = r.inbox ∧ (r.release env).recvBuf = r.recvBuf ∧ (r.release env).recvCh = r.recvCh ∧
      (r.release env).recvReady = r.recvReady ∧ (r.release env).reader = r.reader ∧
      (r.release env).inboxData = r.inboxData - env.dataCount := by
  unfold Recv.release RelayEnvelope.dataCount RelayEnvelope.isData
  split <;> simp [*]

/-- The steps that need no `inboxMu` only move payloads; the other two find the reader idle. -/
inductive DispatchFlow (r : Recv) : Recv → Prop
  | flow {r' : Recv} (h : Flow r r') : DispatchFlow r r'
  | release {env : RelayEnvelope} (hpc : r.dispatcher = .release env) (hr : r.reader = .idle) :
      DispatchFlow r { r.release env with dispatcher := .select }
  | shut (hpc : r.dispatcher = .exiting) (hr : r.reader = .idle) : DispatchFlow r { r.shut with dispatcher := .exited }

theorem DispatchEffect.flow (he : DispatchEffect c c') : DispatchFlow c.recv c'.recv := by
  have hhandled : ∀ {env : RelayEnvelope} {pc : DispatchPc}, c.recv.dispatcher = pc → pc.unmoved + pc.moved = env.dataCount →
      c'.recv = { c.recv with dispatcher := c.handled env } → DispatchFlow c.recv c'.recv := by
    intro env pc hpc hp hrecv
    exact .flow (hrecv ▸ .handled hpc hp)
  cases he with
  | release hpc hr => exact .release hpc hr
  | shut hpc hr => exact .shut hpc hr
  | move hm => exact .flow (hm.flow rfl)
  | @take env queue hpc hq =>
    refine .flow ⟨rfl, rfl, ?_, ?_, ?_, ?_⟩ <;>
      simp only [Recv.held, Recv.inboxCount, hpc, hq, Option.getD_some, List.countP_cons, DispatchPc.unmoved,
        DispatchPc.moved, DispatchPc.batch, DispatchPc.counted, RelayEnvelope.dataCount] <;> omega
  | openAck hpc | close hpc | error hpc | ack hpc | queue hpc => exact hhandled hpc (by simp [DispatchPc.unmoved, DispatchPc.moved]) rfl
  | ping hpc =>
    exact .flow (.pc hpc (by simp [DispatchPc.unmoved, DispatchPc.batch]) (by simp [DispatchPc.moved, DispatchPc.batch])
      (by simp [DispatchPc.unmoved, DispatchPc.moved]) (Nat.le_refl _))
  | @order env r ready hpc hk _ hord =>
    obtain ⟨hr, hi, hch, _⟩ := order_frame hord
    obtain ⟨hcount, hready, hdata⟩ := order_count hord
    have hone := dataCount_of_data hk
    refine .flow ⟨hr, hdata, ?_, ?_, ?_, ?_⟩ <;> cases ready <;>
      simp only [Recv.held, Recv.inboxCount, hi, hch, hpc, DispatchPc.delivering, DispatchPc.unmoved, DispatchPc.moved,
        DispatchPc.batch, DispatchPc.counted, List.length_nil, List.length_cons] at hcount hready ⊢ <;> omega
  | @deliverOne env hpc =>
    have hle := dataCount_le env
    have hpush : ∀ pc : DispatchPc, pc.unmoved = 0 → pc.batch = 0 → pc.counted = 0 → pc.moved = env.dataCount →
        Flow c.recv { c.recv with
          recvCh := c.recv.recvCh ++ [env.payload], pushed := c.recv.pushed ++ [(env.seq, env.payload)]
          dispatcher := pc } := by
      intro pc h1 h2 h3 h4
      have hu : c.recv.dispatcher.unmoved = 1 ∧ c.recv.dispatcher.moved = 0 ∧ c.recv.dispatcher.batch = 0 := by
        rw [hpc]
        exact ⟨rfl, rfl, rfl⟩
      refine ⟨rfl, rfl, ?_, ?_, ?_, ?_⟩ <;>
        simp only [Recv.held, Recv.inboxCount, List.length_append, List.length_singleton] <;> omega
    refine .flow ?_
    dsimp only
    split
    · exact hpush _ rfl rfl rfl rfl
    · obtain ⟨h1, h2, h3, h4⟩ := handled_counts c env
      exact hpush _ h3 h1 h2 h4
  | @deliver env seq data ready n hpc =>
    refine .flow ⟨rfl, rfl, ?_, ?_, ?_, ?_⟩ <;>
      simp only [Recv.held, Recv.inboxCount, hpc, List.length_append, List.length_singleton, DispatchPc.unmoved,
        DispatchPc.moved, DispatchPc.batch, DispatchPc.counted] <;> omega
  | @delivered env ready n hpc =>
    refine .flow ⟨rfl, rfl, ?_, ?_, ?_, ?_⟩ <;> cases ready <;>
      simp only [Recv.held, Recv.inboxCount, hpc, DispatchPc.delivering, DispatchPc.unmoved, DispatchPc.moved,
        DispatchPc.batch, DispatchPc.counted, List.length_nil, List.length_cons] <;> omega
  | @settle env n hpc =>
    have hmove : ∀ pc : DispatchPc, pc.unmoved = 0 → pc.batch = 0 → pc.counted = 0 → pc.moved = env.dataCount →
        Flow c.recv { c.recv with recvDelivered := n, dispatcher := pc } := by
      intro pc h1 h2 h3 h4
      have hf : Flow c.recv { c.recv with dispatcher := pc } := by
        refine .pc hpc ?_ ?_ ?_ ?_ <;>
          simp only [DispatchPc.unmoved, DispatchPc.moved, DispatchPc.batch, DispatchPc.counted] at * <;> omega
      exact ⟨hf.reader, hf.inboxData, hf.held, hf.stored, hf.pending, hf.ready⟩
    refine .flow ?_
    dsimp only
    split
    · obtain ⟨h1, h2, h3, h4⟩ := handled_counts c env
      exact hmove _ h3 h1 h2 h4
    · exact hmove _ rfl rfl rfl rfl
  | finish hpc =>
    exact .flow (.pc hpc (Nat.le_refl _) (Nat.le_refl _) (Nat.le_refl _) (Nat.le_refl _))

theorem Recv.Bounded.dispatch {budget : Int} (h : c.recv.Bounded budget) (he : DispatchEffect c c') :
    c'.recv.Bounded budget := by
  have hin := he.inbox h.off
  have hheld := h.held
  have hdata := h.inboxData
  have hready := h.recvReady
  generalize hr' : c'.recv = r' at hin ⊢
  cases hr' ▸ he.flow with
  | flow hf => exact h.flow hin hf
  | @release env hpc hr =>
    -- the reader is idle: nothing it read is pending
    obtain ⟨h1, h2, h3, h4, h5, h6⟩ := release_frame c.recv env
    simp only [Recv.held, Recv.inboxCount, hpc, DispatchPc.unmoved, DispatchPc.moved, DispatchPc.batch,
      DispatchPc.counted] at hheld hdata hready
    refine ⟨fun hn => absurd hn hin, ?_, ?_, ?_, ?_, ?_⟩ <;>
      simp only [Recv.held, Recv.inboxCount, h1, h2, h3, h4, h5, h6, hr, ReaderPc.tested, ReaderPc.buffered?,
        DispatchPc.unmoved, DispatchPc.moved, DispatchPc.batch, DispatchPc.counted]
    · omega
    · nofun
    · nofun
    · omega
    · omega
  | shut hpc hr =>
    simp only [Recv.held, hpc, DispatchPc.unmoved, DispatchPc.batch, DispatchPc.counted] at hheld hready
    refine ⟨nofun, ?_, ?_, ?_, ?_, ?_⟩ <;>
      simp only [Recv.held, Recv.inboxCount, Recv.shut, hr, ReaderPc.tested, ReaderPc.buffered?, Option.getD_some,
        List.countP_nil, DispatchPc.unmoved, DispatchPc.moved, DispatchPc.batch, DispatchPc.counted]
    · omega
    · nofun
    · nofun
    · omega
    · omega

/-! ## `enqueueEnvelope` adds one payload at a time -/

/-- The reader goes on and nothing else changes. -/
theorem Recv.Bounded.readerAt {r : Recv} {budget : Int} {pc : ReaderPc} (h : r.Bounded budget)
    (hroom : pc.tested = true → r.held < budget)
    (hread : ∀ n ∈ pc.buffered?, (r.recvBuf.keys.length + r.dispatcher.batch : Int) ≤ r.dispatcher.moved + n) :
    { r with reader := pc }.Bounded budget :=
  ⟨h.off, h.held, hroom, hread, h.inboxData, h.recvReady⟩

/-- The test of the budget counts everything that is held. -/
theorem Recv.Bounded.tested (h : c.recv.Bounded c.budget) {env : RelayEnvelope} {buffered : Int}
    (hn : buffered ∈ c.recv.reader.buffered?) : (c.readerAt (c.afterBudget env buffered)).recv.Bounded c.budget := by
  have hread := h.read buffered hn
  have hdata := h.inboxData
  refine h.readerAt ?_ ?_ <;> unfold RelayConnection.afterBudget
  · intro ht
    simp only [Recv.held]
    by_cases hd : env.isData = true
    · by_cases hb : c.recv.inboxData + c.recv.recvCh.length + buffered ≥ c.budget
      · rw [if_pos (by simp [hd, hb])] at ht
        split at ht <;> cases ht
      · omega
    · (repeat' split at ht) <;> simp_all [ReaderPc.tested]
  · (repeat' split) <;> nofun

theorem Recv.Bounded.reader (h : c.recv.Bounded c.budget) (hs : c.readerStep = some c') : c'.recv.Bounded c.budget := by
  cases readerStep_effect hs with
  | drop | ack | again | full | overflow => exact h.readerAt nofun nofun
  | tested hpc => exact h.tested (by rw [hpc]; rfl)
  | budget hpc => exact h.tested (by rw [hpc]; rfl)
  | begin hpc => exact h.readerAt (fun ht => h.room (by rw [hpc]; exact ht)) nofun
  | undo => exact h.readerAt (by split <;> nofun) (by split <;> nofun)
  | fail =>
    have : { c.recv with reader := .idle }.Bounded c.budget := h.readerAt nofun nofun
    exact ⟨this.off, this.held, this.room, this.read, this.inboxData, this.recvReady⟩
  | @start env _ _ buffered _ _ hpc hi =>
    have hoff := h.off hi
    have hheld := h.held
    have hread := h.read buffered (by rw [hpc]; rfl)
    have hdata := h.inboxData
    have hready := h.recvReady
    simp only [Recv.held, Recv.inboxCount, hi, hoff, Option.getD_none, List.countP_nil, DispatchPc.unmoved,
      DispatchPc.moved, DispatchPc.batch, DispatchPc.counted] at hheld hread hdata hready
    refine ⟨nofun, ?_, nofun, ?_, ?_, ?_⟩ <;>
      simp only [Recv.held, Recv.inboxCount, Option.getD_some, List.countP_nil, DispatchPc.unmoved, DispatchPc.moved,
        DispatchPc.batch, DispatchPc.counted]
    · omega
    · intro n hn
      cases hn
      omega
    · omega
    · omega
  | @admitted env queue hpc hi =>
    have hheld := h.held
    have hdata := h.inboxData
    have hroom : env.isData = true → (c.recv.held : Int) < c.budget := fun hd => h.room (by rw [hpc]; exact hd)
    simp only [Recv.held, Recv.inboxCount, hi, Option.getD_some] at hheld hdata hroom
    refine ⟨nofun, ?_, nofun, nofun, ?_, h.recvReady⟩ <;>
      simp only [Recv.held, Recv.inboxCount, RelayConnection.admitted, Option.getD_some, List.countP_append,
        List.countP_singleton] <;> by_cases hd : env.isData = true <;>
      simp only [hd, if_true, if_false, Bool.false_eq_true, true_implies] at hroom ⊢ <;> omega

/-! ## Acknowledgements being generated -/

/-- The DATA frame in hand, until `finishReceiveACK` has run for it. -/
def DispatchPc.generating : DispatchPc → Nat
  | .check env | .readIdle env | .waitIdle env _ | .handle env | .deliverOne env | .deliver env _ _ _ _
  | .delivered env _ _ | .settle env _ | .queue env _ | .ping env | .finish env => env.dataCount
  | _ => 0

/-- The DATA frame the reader has registered. -/
def ReaderPc.generating : ReaderPc → Nat
  | .push env | .undo env => env.dataCount
  | _ => 0

/-- `ackGenerating` counts every frame that may yet produce an acknowledgement. -/
structure Generating (c : RelayConnection) : Prop where
  begins : ∀ env, c.recv.reader = .begin env → (env.isData && c.reliable) = true
  undoes : ∀ env, c.recv.reader = .undo env → (env.isData && c.reliable) = true
  finishes : ∀ env, c.recv.dispatcher = .finish env → (env.isData && c.reliable) = true
  count : c.reliable = true →
    (c.recv.inboxCount + c.recv.dispatcher.generating + c.recv.reader.generating : Int) ≤ c.acks.ackGenerating
  nonneg : 0 ≤ c.acks.ackGenerating

theorem handled_finish {env e : RelayEnvelope} (h : c.handled env = .finish e) : (e.isData && c.reliable) = true := by
  unfold RelayConnection.handled at h
  split at h <;> cases h
  assumption

theorem handled_generating (c : RelayConnection) (env : RelayEnvelope) : (c.handled env).generating ≤ env.dataCount := by
  rcases handled_cases c env with h | h <;> rw [h]
  · exact Nat.le_refl _
  · exact Nat.zero_le _

theorem closeACKIdleLocked_generating (a : Acks) : a.closeACKIdleLocked.ackGenerating = a.ackGenerating := by
  unfold Acks.closeACKIdleLocked
  split <;> rfl

theorem openIdle_generating (a : Acks) : a.openIdle.ackGenerating = a.ackGenerating := by
  unfold Acks.openIdle
  split <;> rfl

theorem finishReceiveACK_generating (a : Acks) : a.finishReceiveACK.ackGenerating = a.ackGenerating - 1 :=
  closeACKIdleLocked_generating { a with ackGenerating := a.ackGenerating - 1 }

theorem beginReceiveACK_generating (a : Acks) : a.beginReceiveACK.ackGenerating = a.ackGenerating + 1 :=
  openIdle_generating { a with ackGenerating := a.ackGenerating + 1 }

theorem queueACK_generating (a : Acks) (closed : Bool) (env : RelayEnvelope) :
    (a.queueACK closed env).ackGenerating = a.ackGenerating := by
  unfold Acks.queueACK
  split
  · rfl
  · show (Acks.openIdle _).ackGenerating = _
    rw [openIdle_generating]
    unfold Acks.startWorker
    split <;> rfl

theorem WorkerEffect.generating (h : WorkerEffect c c') : c'.acks.ackGenerating = c.acks.ackGenerating := by
  cases h with
  | rest | grab => exact closeACKIdleLocked_generating _
  | sent => exact closeACKIdleLocked_generating { c.acks with ackSending := false }
  | _ => rfl

/-- A step that registers nothing and lets go of nothing. -/
theorem Generating.still (h : Generating c) (hcfg : c'.config = c.config)
    (hbegin : ∀ env, c'.recv.reader = .begin env → (env.isData && c.reliable) = true)
    (hundo : ∀ env, c'.recv.reader = .undo env → (env.isData && c.reliable) = true)
    (hfinish : ∀ env, c'.recv.dispatcher = .finish env → (env.isData && c.reliable) = true)
    (hg : c'.acks.ackGenerating = c.acks.ackGenerating)
    (hc : c.reliable = true → c'.recv.inboxCount + c'.recv.dispatcher.generating + c'.recv.reader.generating ≤
      c.recv.inboxCount + c.recv.dispatcher.generating + c.recv.reader.generating) : Generating c' := by
  have hrel : c'.reliable = c.reliable := by rw [RelayConnection.reliable, RelayConnection.reliable, hcfg]
  refine ⟨by rw [hrel]; exact hbegin, by rw [hrel]; exact hundo, by rw [hrel]; exact hfinish, ?_, by rw [hg]; exact h.nonneg⟩
  intro hr
  rw [hrel] at hr
  have := h.count hr
  have := hc hr
  omega

theorem Generating.dispatch (h : Generating c) (he : DispatchEffect c c') : Generating c' := by
  have hmove : c'.config = c.config → c'.recv.reader = c.recv.reader → c'.acks.ackGenerating = c.acks.ackGenerating →
      (∀ env, c'.recv.dispatcher = .finish env → (env.isData && c.reliable) = true) →
      c'.recv.inboxCount + c'.recv.dispatcher.generating ≤ c.recv.inboxCount + c.recv.dispatcher.generating →
      Generating c' := by
    intro hcfg hr hg hf hc
    refine h.still hcfg (by rw [hr]; exact h.begins) (by rw [hr]; exact h.undoes) hf hg fun _ => ?_
    rw [hr]
    omega
  have hhandled : ∀ {env : RelayEnvelope} {pc : DispatchPc}, c.recv.dispatcher = pc → pc.generating = env.dataCount →
      c'.config = c.config → c'.acks.ackGenerating = c.acks.ackGenerating →
      c'.recv = { c.recv with dispatcher := c.handled env } → Generating c' := by
    intro env pc hpc hp hcfg hg hrecv
    refine hmove hcfg (by rw [hrecv]) hg (by rw [hrecv]; exact fun _ he => handled_finish he) ?_
    have := handled_generating c env
    rw [hrecv, hpc, hp]
    simp only [Recv.inboxCount]
    omega
  cases he with
  | @move pc hm =>
    generalize hpc : c.recv.dispatcher = pc₀ at hm
    cases hm with
    | skip | outside | abandonOne | abandon | pinged => exact hhandled hpc rfl rfl rfl rfl
    | stop | terminal | checked | idle | wait | waited | one =>
      exact hmove rfl rfl rfl (fun _ => DispatchPc.noConfusion) (by rw [hpc]; exact Nat.le_refl _)
    | halt => exact hmove rfl rfl rfl (fun _ => DispatchPc.noConfusion) (by rw [hpc]; exact Nat.le_add_right _ _)
  | @take env queue hpc hq =>
    refine hmove rfl rfl rfl (fun _ => DispatchPc.noConfusion) ?_
    simp only [Recv.inboxCount, hpc, hq, Option.getD_some, List.countP_cons, DispatchPc.generating,
      RelayEnvelope.dataCount]
    omega
  | openAck hpc | close hpc | error hpc | ack hpc => exact hhandled hpc rfl rfl rfl rfl
  | queue hpc => exact hhandled hpc rfl rfl (queueACK_generating _ _ _) rfl
  | ping hpc => exact hmove rfl rfl rfl (fun _ => DispatchPc.noConfusion) (by rw [hpc]; exact Nat.le_refl _)
  | @order env r ready hpc _ _ hord =>
    obtain ⟨hr, hi, _⟩ := order_frame hord
    refine hmove rfl hr rfl (by cases ready <;> exact fun _ => DispatchPc.noConfusion) ?_
    simp only [Recv.inboxCount, hi, hpc]
    cases ready <;> exact Nat.le_refl _
  | deliverOne hpc =>
    refine hmove rfl rfl rfl ?_ ?_ <;> dsimp only <;> split
    · exact fun _ => DispatchPc.noConfusion
    · exact fun _ he => handled_finish he
    · rw [hpc]
      exact Nat.le_refl _
    · rw [hpc]
      exact Nat.add_le_add_left (handled_generating _ _) _
  | deliver hpc => exact hmove rfl rfl rfl (fun _ => DispatchPc.noConfusion) (by rw [hpc]; exact Nat.le_refl _)
  | @delivered env ready n hpc =>
    refine hmove rfl rfl rfl (by cases ready <;> exact fun _ => DispatchPc.noConfusion) ?_
    rw [hpc]
    cases ready <;> exact Nat.le_refl _
  | settle hpc =>
    refine hmove rfl rfl rfl ?_ ?_ <;> dsimp only <;> split
    · exact fun _ he => handled_finish he
    · exact fun _ => DispatchPc.noConfusion
    · rw [hpc]
      exact Nat.add_le_add_left (handled_generating _ _) _
    · rw [hpc]
      exact Nat.le_refl _
  | @finish env hpc =>
    have hrel := h.finishes env hpc
    have hcount := h.count (Bool.and_eq_true_iff.mp hrel).2
    have hone : env.dataCount = 1 := if_pos (Bool.and_eq_true_iff.mp hrel).1
    rw [hpc] at hcount
    simp only [DispatchPc.generating, hone] at hcount
    refine ⟨h.begins, h.undoes, fun _ => DispatchPc.noConfusion, fun _ => ?_, ?_⟩
    · show (c.recv.inboxCount + (DispatchPc.release env).generating + c.recv.reader.generating : Int) ≤
        c.acks.finishReceiveACK.ackGenerating
      rw [finishReceiveACK_generating]
      simp only [DispatchPc.generating]
      omega
    · show 0 ≤ c.acks.finishReceiveACK.ackGenerating
      rw [finishReceiveACK_generating]
      omega
  | @release env hpc =>
    obtain ⟨h1, _, _, _, h5, _⟩ := release_frame c.recv env
    refine hmove rfl h5 rfl (fun _ => DispatchPc.noConfusion) ?_
    simp only [Recv.inboxCount, h1, hpc, DispatchPc.generating]
    omega
  | shut => exact hmove rfl rfl rfl (fun _ => DispatchPc.noConfusion) (Nat.zero_le _)

/-- After the budget, reliable DATA has yet to be registered. -/
theorem afterBudget_generating (c : RelayConnection) (env : RelayEnvelope) (buffered : Int) :
    (∀ e, c.afterBudget env buffered = .begin e → (e.isData && c.reliable) = true) ∧
      (∀ e, c.afterBudget env buffered ≠ .undo e) ∧
      (c.reliable = true → (c.afterBudget env buffered).generating = 0) := by
  unfold RelayConnection.afterBudget
  refine ⟨fun e he => ?_, fun e he => ?_, fun hr => ?_⟩
  · (repeat' split at he) <;> cases he
    assumption
  · (repeat' split at he) <;> cases he
  · split
    · split <;> rfl
    · split
      · rfl
      · rename_i hd
        simp only [hr, Bool.and_true, Bool.not_eq_true] at hd
        simp [ReaderPc.generating, RelayEnvelope.dataCount, hd]

theorem Generating.reader (h : Generating c) (hs : c.readerStep = some c') : Generating c' := by
  have hmove : ∀ {pc : ReaderPc}, c'.recv = { c.recv with reader := pc } → c'.config = c.config →
      c'.acks.ackGenerating = c.acks.ackGenerating → (∀ env, pc = .begin env → (env.isData && c.reliable) = true) →
      (∀ env, pc = .undo env → (env.isData && c.reliable) = true) →
      (c.reliable = true → pc.generating ≤ c.recv.reader.generating) → Generating c' := by
    intro pc hrecv hcfg hg hb hu hc
    refine h.still hcfg (by rw [hrecv]; exact hb) (by rw [hrecv]; exact hu) (by rw [hrecv]; exact h.finishes) hg fun hr => ?_
    have := hc hr
    rw [hrecv]
    simp only [Recv.inboxCount]
    omega
  cases readerStep_effect hs with
  | drop | ack | overflow =>
    exact hmove rfl rfl rfl (fun _ => ReaderPc.noConfusion) (fun _ => ReaderPc.noConfusion) fun _ => Nat.zero_le _
  | again =>
    exact hmove rfl rfl (queueACK_generating _ _ _) (fun _ => ReaderPc.noConfusion) (fun _ => ReaderPc.noConfusion)
      fun _ => Nat.zero_le _
  | @tested env _ _ buffered =>
    obtain ⟨hb, hu, hg⟩ := afterBudget_generating c env buffered
    exact hmove rfl rfl rfl hb (fun e he => absurd he (hu e)) fun hr => by rw [hg hr]; exact Nat.zero_le _
  | @budget env buffered =>
    obtain ⟨hb, hu, hg⟩ := afterBudget_generating c env buffered
    exact hmove rfl rfl rfl hb (fun e he => absurd he (hu e)) fun hr => by rw [hg hr]; exact Nat.zero_le _
  | @full env hpc hw =>
    refine hmove rfl rfl rfl (fun _ => ReaderPc.noConfusion) ?_ fun _ => by rw [hpc]; exact Nat.le_refl _
    intro e he
    cases he
    exact hw
  | fail =>
    refine h.still rfl (fun _ => ReaderPc.noConfusion) (fun _ => ReaderPc.noConfusion) h.finishes rfl fun _ => ?_
    exact Nat.add_le_add_left (Nat.zero_le _) _
  | start =>
    refine h.still rfl (fun _ => ReaderPc.noConfusion) (fun _ => ReaderPc.noConfusion) (fun _ => DispatchPc.noConfusion) rfl
      fun _ => ?_
    simp [Recv.inboxCount, DispatchPc.generating, ReaderPc.generating]
  | @begin env hpc =>
    have hone : env.dataCount = 1 := if_pos (Bool.and_eq_true_iff.mp (h.begins env hpc)).1
    refine ⟨fun _ => ReaderPc.noConfusion, fun _ => ReaderPc.noConfusion, h.finishes, fun hr => ?_, ?_⟩
    · have hcount := h.count hr
      rw [hpc] at hcount
      show (c.recv.inboxCount + c.recv.dispatcher.generating + (ReaderPc.push env).generating : Int) ≤
        c.acks.beginReceiveACK.ackGenerating
      rw [beginReceiveACK_generating]
      simp only [ReaderPc.generating, hone] at hcount ⊢
      omega
    · have := h.nonneg
      show 0 ≤ c.acks.beginReceiveACK.ackGenerating
      rw [beginReceiveACK_generating]
      omega
  | @admitted env queue hpc hi =>
    refine h.still rfl (fun _ => ReaderPc.noConfusion) (fun _ => ReaderPc.noConfusion) h.finishes rfl fun _ => ?_
    simp only [Recv.inboxCount, RelayConnection.admitted, hpc, hi, Option.getD_some, List.countP_append,
      List.countP_singleton, ReaderPc.generating, RelayEnvelope.dataCount]
    omega
  | @undo env hpc =>
    have hrel := h.undoes env hpc
    have hcount := h.count (Bool.and_eq_true_iff.mp hrel).2
    have hone : env.dataCount = 1 := if_pos (Bool.and_eq_true_iff.mp hrel).1
    rw [hpc] at hcount
    simp only [ReaderPc.generating, hone] at hcount
    have hpc' : ∀ b : Bool, (if b then ReaderPc.idle else .fail).generating = 0 := by
      intro b
      cases b <;> rfl
    have hrest : ∀ b : Bool, (∀ e, (if b then ReaderPc.idle else .fail) ≠ .begin e) ∧
        ∀ e, (if b then ReaderPc.idle else .fail) ≠ .undo e := by
      intro b
      cases b <;> exact ⟨fun _ => ReaderPc.noConfusion, fun _ => ReaderPc.noConfusion⟩
    obtain ⟨hb, hu⟩ := hrest (c.dedup env)
    refine ⟨fun e he => absurd he (hb e), fun e he => absurd he (hu e), h.finishes, fun _ => ?_, ?_⟩
    · show (c.recv.inboxCount + c.recv.dispatcher.generating + (if c.dedup env then ReaderPc.idle else .fail).generating : Int) ≤
        c.acks.finishReceiveACK.ackGenerating
      rw [hpc', finishReceiveACK_generating]
      omega
    · show 0 ≤ c.acks.finishReceiveACK.ackGenerating
      rw [finishReceiveACK_generating]
      omega

/-! ## Whole runs -/

structure Budgeted (c : RelayConnection) : Prop where
  bounded : c.recv.Bounded c.budget
  generating : Generating c

theorem Budgeted.new (config : RelayConfig) (relayID : String) (my remote : SessionRef) (dialed : Bool) :
    Budgeted (.new config relayID my remote dialed) := by
  refine ⟨⟨fun _ => rfl, ?_, Bool.noConfusion, fun _ hn => absurd hn (Option.not_mem_none _), Int.le_refl 0, Int.le_refl 0⟩,
    fun _ => ReaderPc.noConfusion, fun _ => ReaderPc.noConfusion, fun _ => DispatchPc.noConfusion,
    fun _ => Int.le_refl 0, Int.le_refl 0⟩
  show (0 : Int) ≤ RelayConnection.budget _
  unfold RelayConnection.budget RelayConnection.window recvCap
  omega

/-- What neither the reader nor `dispatchLoop` does. -/
theorem Budgeted.still (h : Budgeted c) (hcfg : c'.config = c.config) (hr : c'.recv = c.recv)
    (hg : c'.acks.ackGenerating = c.acks.ackGenerating) : Budgeted c' := by
  have hb : c'.budget = c.budget := by
    rw [RelayConnection.budget, RelayConnection.budget, RelayConnection.window, RelayConnection.window, hcfg]
  refine ⟨by rw [hr, hb]; exact h.bounded, h.generating.still hcfg ?_ ?_ ?_ hg fun _ => by rw [hr]⟩ <;> rw [hr]
  · exact h.generating.begins
  · exact h.generating.undoes
  · exact h.generating.finishes

/-- The consumer takes a payload. -/
theorem Budgeted.take (h : Budgeted c) {data : Bytes} {rest : List Bytes} (hr : c.recv.recvCh = data :: rest) :
    Budgeted (c.take data rest) := by
  have hb := h.bounded
  have hheld : (c.take data rest).recv.held ≤ c.recv.held := by
    simp only [Recv.held, Recv.inboxCount, RelayConnection.take, hr, List.length_cons]
    omega
  refine ⟨⟨hb.off, ?_, fun ht => ?_, hb.read, hb.inboxData, hb.recvReady⟩,
    ⟨h.generating.begins, h.generating.undoes, h.generating.finishes, h.generating.count, h.generating.nonneg⟩⟩
  · have := hb.held
    show ((c.take data rest).recv.held : Int) ≤ c.budget
    omega
  · have := hb.room ht
    show ((c.take data rest).recv.held : Int) < c.budget
    omega

theorem Budgeted.step (h : Budgeted c) {a : RelayConnection.Action} (hs : StepEffect c a c') : Budgeted c' := by
  have hb : c'.recv.Bounded c.budget → c'.recv.Bounded c'.budget := by
    intro hb
    rwa [RelayConnection.budget, RelayConnection.window, hs.conn.config]
  cases hs with
  | packet hr =>
    refine ⟨h.bounded.readerAt nofun fun n hn => ?_, ?_⟩
    · have hready := h.bounded.recvReady
      have hle := c.recv.dispatcher.batch_le_counted
      cases hn
      omega
    · exact h.generating.still rfl (fun _ => ReaderPc.noConfusion) (fun _ => ReaderPc.noConfusion) h.generating.finishes rfl
        fun _ => Nat.add_le_add_left (Nat.zero_le _) _
  | reader h' => exact ⟨hb (h.bounded.reader h'), h.generating.reader h'⟩
  | dispatcher h' => exact ⟨hb (h.bounded.dispatch h'), h.generating.dispatch h'⟩
  | ackWorker h' =>
    have hf := ackStep_frame h'
    exact h.still hf.config hf.recv (ackStep_effect h').generating
  | sender _ rest => exact h.still rest.config rest.recv (congrArg Acks.ackGenerating rest.acks)
  | @call call => cases call with
    | send data => cases data <;> exact h.still rfl rfl rfl
    | _ => exact h.still rfl rfl rfl
  | run _ h' => cases h' with
    | receive hr =>
      have := h.take hr
      exact this.still rfl rfl rfl
    | _ => exact h.still rfl rfl rfl
  | take hr => exact h.take hr
  | _ => exact h.still rfl rfl rfl

theorem budgeted {config : RelayConfig} {relayID : String} {my remote : SessionRef} {dialed : Bool}
    {ok : RelayConnection → RelayConnection.Action → Prop}
    (h : Reach RelayConnection.step ok (· = .new config relayID my remote dialed) c) : Budgeted c ∧ c.config = config := by
  refine h.keeps (P := fun c => Budgeted c ∧ c.config = config) ?_ ?_
  · intro c hc
    subst hc
    exact ⟨.new _ _ _ _ _, rfl⟩
  · intro c a c' _ hi _ hs
    have he := step_effect hs
    exact ⟨hi.1.step he, he.conn.config.trans hi.2⟩

/-- Whatever the peer sends, a receiver holds at most `cap(recvCh) + 2 * max(WindowSize, 1)` DATA
    payloads, and its counters are never negative. -/
theorem receive_bounded {config : RelayConfig} {relayID : String} {my remote : SessionRef} {dialed : Bool}
    (h : Reach RelayConnection.step free (· = .new config relayID my remote dialed) c) :
    (c.recv.held : Int) ≤ recvCap + 2 * max config.windowSize 1 ∧ 0 ≤ c.recv.inboxData ∧ 0 ≤ c.recv.recvReady ∧
      0 ≤ c.acks.ackGenerating := by
  obtain ⟨hi, hcfg⟩ := budgeted h
  have hheld := hi.bounded.held
  have hdata := hi.bounded.inboxData
  have hready := hi.bounded.recvReady
  rw [RelayConnection.budget, RelayConnection.window, hcfg] at hheld
  exact ⟨hheld, by omega, by omega, hi.generating.nonneg⟩

/-- Window 1, frames 2 to 4 arrive and then frame 1: frame 2 is past the window and dropped, as are
    the others, and frame 1 is held in `recvCh`. -/
theorem receive_bounded_gap : ∃ c : RelayConnection, c.recv.recvCh = [[10]] ∧ c.recv.held = 1 ∧
    (c.recv.held : Int) ≤ recvCap + 2 * max 1 1 := by
  let config := { defaultRelayConfig with reliability := .reliableOrdered, windowSize := 1 }
  let start : RelayConnection := .new config "r" (sampleSession .b) (sampleSession .a) false
  let get (seq reader dispatcher : Nat) : List RelayConnection.Action :=
    (gets .b (sampleEnvelope .a .kindData seq 0 [10]) reader dispatcher).map Prod.snd
  have h : ((exec (guarded RelayConnection.step free) start (List.flatten
      [get 2 1 0, get 3 1 0, get 4 1 0, get 1 4 4])).any fun c => c.recv.recvCh = [[10]] ∧ c.recv.held = 1) = true := by
    decide +kernel
  obtain ⟨c, hc, hw⟩ := reach_any (I := fun c => c = start) _ (.init rfl) h
  simp only [decide_eq_true_eq] at hw
  exact ⟨c, hw.1, hw.2, (receive_bounded hc).1⟩

end

end Turntf.Relay
