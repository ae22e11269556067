/-
  Turntf.Relay.Admission — the window at admission and the window at dispatch.

  `enqueueEnvelope` of a reliable-ordered connection measures a DATA frame from the first number
  from `expectedSeq` on that is not pending in `inboxSeq`; `handleData` measures it from
  `expectedSeq` when its turn has come. In between the frames ahead of it are handled. The two
  agree since a number in `inboxSeq` has been handled or is ahead in the inbox: the queue
  `Fits` the reorder buffer (`Recv.Windowed`).

  - `admitted_in_window`: a DATA frame that comes out of the inbox is never out of the window
    of `handleData`.
-/

import Turntf.Lib.Reorder
import Turntf.Relay.Budget

namespace Turntf.Relay

open Lts Numbered Reorder

section

variable {c c' : RelayConnection}

/-! ## Frames on their way to `handleData` -/

/-- The frame in hand that `handleEnvelope` has yet to see. -/
def DispatchPc.unhandled : DispatchPc → List RelayEnvelope
  | .check env | .readIdle env | .waitIdle env _ | .handle env => [env]
  | _ => []

def DispatchPc.running : DispatchPc → Bool
  | .exiting | .exited => false
  | _ => true

def dataSeqs (frames : List RelayEnvelope) : List Nat := (frames.filter RelayEnvelope.isData).map RelayEnvelope.seq

/-- The numbers of the DATA frames `handleData` has yet to see, in the order it will see them. -/
def Recv.ahead (r : Recv) : List Nat := dataSeqs (r.dispatcher.unhandled ++ r.inbox.getD [])

/-- The frame that `enqueueEnvelope` has found in the window. -/
def ReaderPc.entering : ReaderPc → List RelayEnvelope
  | .budget env _ | .begin env | .push env => [env]
  | _ => []

/-- The `expectedSeq` that `enqueueEnvelope` read in its first section. -/
def ReaderPc.expected? : ReaderPc → Option Nat
  | .snapped _ _ _ _ expected _ => some expected
  | _ => none

structure Recv.Windowed (r : Recv) (windowSize : Int) : Prop where
  first : 1 ≤ r.expectedSeq
  keys : ∀ s ∈ r.recvBuf.keys, r.expectedSeq < s ∧ s - r.expectedSeq < uint64 windowSize
  queued : ∀ s ∈ r.inboxSeq, s < r.expectedSeq ∨ s ∈ r.recvBuf.keys ∨ s ∈ r.ahead
  fits : Fits (uint64 (max windowSize 1)) r.expectedSeq (· ∈ r.recvBuf.keys) (r.ahead ++ dataSeqs r.reader.entering)
  positive : ∀ s ∈ r.ahead ++ dataSeqs r.reader.entering, 1 ≤ s
  snapped : ∀ n ∈ r.reader.expected?, n ≤ r.expectedSeq ∧ 1 ≤ n

theorem dataSeqs_append (l l' : List RelayEnvelope) : dataSeqs (l ++ l') = dataSeqs l ++ dataSeqs l' := by
  simp [dataSeqs]

theorem dataSeqs_data {env : RelayEnvelope} (hd : env.isData = true) : dataSeqs [env] = [env.seq] := by
  simp [dataSeqs, hd]

theorem dataSeqs_other {env : RelayEnvelope} (hd : env.isData = false) : dataSeqs [env] = [] := by
  simp [dataSeqs, hd]

/-! ## The first section of `handleData` -/

/-- `takeReady` ends at a number that is not there, and takes what is below it. -/
theorem takeReady_gap (fuel : Nat) (buf : SeqMap) (next : Nat) (hf : buf.keys.length ≤ fuel) :
    (takeReady fuel buf next).2.2 ∉ buf.keys ∧
      ∀ s, s ∈ (takeReady fuel buf next).2.1.keys ↔ s ∈ buf.keys ∧ ¬ (next ≤ s ∧ s < (takeReady fuel buf next).2.2) := by
  induction fuel generalizing buf next with
  | zero =>
    have : buf.keys = [] := List.length_eq_zero_iff.mp (by omega)
    simp [takeReady, this]
  | succ fuel ih =>
    unfold takeReady
    split
    · rename_i data hdata
      have hmem : next ∈ buf.keys := by
        rw [← AList.mem_keys, ← AList.lookup_isSome, hdata]
        rfl
      have hlen := List.length_erase_of_mem hmem
      have hpos := List.length_pos_of_mem hmem
      have hstop := (takeReady_spec fuel (buf.erase next) (next + 1)).2.1
      obtain ⟨hgap, hrest⟩ := ih (buf.erase next) (next + 1) (by rw [AList.keys_erase]; omega)
      have hkey : ∀ s, s ∈ (buf.erase next).keys ↔ s ≠ next ∧ s ∈ buf.keys := by
        intro s
        rw [AList.keys_erase, buf.keys_nodup.mem_erase_iff]
      refine ⟨fun hm => hgap ((hkey _).mpr ⟨?_, hm⟩), fun s => ?_⟩
      · show (takeReady fuel (buf.erase next) (next + 1)).2.2 ≠ next
        omega
      · show s ∈ (takeReady fuel (buf.erase next) (next + 1)).2.1.keys ↔
          s ∈ buf.keys ∧ ¬ (next ≤ s ∧ s < (takeReady fuel (buf.erase next) (next + 1)).2.2)
        rw [hrest, hkey]
        by_cases hs : s ∈ buf.keys <;> simp only [hs, and_true, true_and, and_false, false_and]
        omega
    · rename_i hnone
      refine ⟨?_, fun s => ?_⟩
      · rw [← AList.mem_keys, ← AList.lookup_eq_none]
        exact hnone
      · dsimp only
        by_cases hs : s ∈ buf.keys <;> simp only [hs, true_and, false_and, true_iff]
        omega

/-- What the first section of `handleData` does to a frame: it is the next one and is taken with those
    that follow it, it is in the window and stored, it is out of the window, or it is old. -/
inductive OrderEffect (r : Recv) (windowSize : Int) (env : RelayEnvelope) : Recv × Option (List (Nat × Bytes)) → Prop
  | next {r' : Recv} {ready : List (Nat × Bytes)} (hs : env.seq = r.expectedSeq) (hnext : r.expectedSeq < r'.expectedSeq)
      (hgap : r'.expectedSeq ∉ r.recvBuf.keys)
      (hkeys : ∀ s, s ∈ r'.recvBuf.keys ↔ s ∈ r.recvBuf.keys ∧ ¬ (r.expectedSeq < s ∧ s < r'.expectedSeq)) :
      OrderEffect r windowSize env (r', some ((env.seq, env.payload) :: ready))
  | store (hs : r.expectedSeq < env.seq) (hw : env.seq - r.expectedSeq < uint64 windowSize) :
      OrderEffect r windowSize env ({ r with recvBuf := r.recvBuf.insert env.seq env.payload }, some [])
  | outside (hs : r.expectedSeq < env.seq) (hw : uint64 windowSize ≤ env.seq - r.expectedSeq) :
      OrderEffect r windowSize env (r, none)
  | old (hs : env.seq < r.expectedSeq) : OrderEffect r windowSize env (r, some [])

theorem order_effect (r : Recv) (windowSize : Int) (env : RelayEnvelope) :
    OrderEffect r windowSize env (r.order windowSize env) := by
  unfold Recv.order
  by_cases hs : env.seq = r.expectedSeq
  · rw [if_pos hs]
    have hstop := (takeReady_spec r.recvBuf.keys.length r.recvBuf (env.seq + 1)).2.1
    obtain ⟨hgap, hkeys⟩ := takeReady_gap r.recvBuf.keys.length r.recvBuf (env.seq + 1) (Nat.le_refl _)
    refine .next hs ?_ hgap fun s => ?_
    · show r.expectedSeq < (takeReady _ _ _).2.2
      omega
    · rw [hkeys s, ← hs]
      exact Iff.rfl
  · rw [if_neg hs]
    by_cases hgt : env.seq > r.expectedSeq
    · rw [if_pos hgt]
      by_cases hw : env.seq - r.expectedSeq ≥ uint64 windowSize
      · rw [if_pos hw]
        exact .outside hgt hw
      · rw [if_neg hw]
        exact .store hgt (by omega)
    · rw [if_neg hgt]
      exact .old (by omega)

/-! ## `dispatchLoop` -/

/-- Nothing that the windows look at changes, except that numbers leave `inboxSeq`. -/
theorem Recv.Windowed.same {r r' : Recv} {w : Int} (h : r.Windowed w) (he : r'.expectedSeq = r.expectedSeq)
    (hb : r'.recvBuf = r.recvBuf) (hs : r'.inboxSeq ⊆ r.inboxSeq) (ha : r'.ahead = r.ahead) (hr : r'.reader = r.reader) :
    r'.Windowed w := by
  refine ⟨?_, ?_, fun s hm => ?_, ?_, ?_, ?_⟩
  · rw [he]
    exact h.first
  · rw [he, hb]
    exact h.keys
  · rw [he, hb, ha]
    exact h.queued s (hs hm)
  · rw [he, hb, ha, hr]
    exact h.fits
  · rw [ha, hr]
    exact h.positive
  · rw [he, hr]
    exact h.snapped

/-- The width at admission is the one at dispatch, or 1. -/
theorem width_cases (windowSize : Int) :
    uint64 (max windowSize 1) = uint64 windowSize ∨ uint64 (max windowSize 1) = 1 := by
  by_cases h : 1 ≤ windowSize
  · exact .inl (by rw [max_eq_left h])
  · refine .inr ?_
    rw [max_eq_right (by omega)]
    decide

/-- The frame whose turn it is, is in the window of `handleData`. -/
theorem Recv.Windowed.inside {r : Recv} {w : Int} (h : r.Windowed w) {env : RelayEnvelope} (hpc : r.dispatcher = .handle env)
    (hd : env.isData = true) : ¬ (r.expectedSeq < env.seq ∧ uint64 w ≤ env.seq - r.expectedSeq) := by
  have hfits := h.fits
  rw [Recv.ahead, hpc, show (DispatchPc.handle env).unhandled = [env] from rfl, dataSeqs_append, dataSeqs_data hd] at hfits
  have hlt := hfits.head fun hm => by have := (h.keys _ hm).1; omega
  have hw := width_cases w
  omega

/-- `handleData` takes the frame whose turn it is. -/
theorem Recv.Windowed.order {r r' : Recv} {w : Int} {env : RelayEnvelope} {ready : Option (List (Nat × Bytes))}
    {pc : DispatchPc} (h : r.Windowed w) (hpc : r.dispatcher = .handle env) (hd : env.isData = true)
    (hord : r.order w env = (r', ready)) (hpc' : pc.unhandled = []) : { r' with dispatcher := pc }.Windowed w := by
  have hin := h.inside hpc hd
  have hahead : r.ahead = env.seq :: dataSeqs (r.inbox.getD []) := by
    rw [Recv.ahead, hpc, show (DispatchPc.handle env).unhandled = [env] from rfl, dataSeqs_append, dataSeqs_data hd]
    rfl
  have hfits := h.fits
  have hpositive := h.positive
  rw [hahead, List.cons_append] at hfits hpositive
  have hahead' : ∀ {r'' : Recv}, r''.inbox = r.inbox →
      ({ r'' with dispatcher := pc } : Recv).ahead = dataSeqs (r.inbox.getD []) := by
    intro r'' hi
    show dataSeqs (pc.unhandled ++ r''.inbox.getD []) = _
    rw [hpc', hi]
    rfl
  -- in each case the receiver has the frame or needs it no more
  have hkeep : ∀ {r'' : Recv}, r''.inbox = r.inbox → r''.reader = r.reader → r''.inboxSeq = r.inboxSeq →
      r.expectedSeq ≤ r''.expectedSeq → (∀ s ∈ r''.recvBuf.keys, r''.expectedSeq < s ∧ s - r''.expectedSeq < uint64 w) →
      (∀ n, r''.expectedSeq ≤ n → n ∈ r.recvBuf.keys ∨ n = env.seq → n ∈ r''.recvBuf.keys) →
      { r'' with dispatcher := pc }.Windowed w := by
    intro r'' hi hr hs hle hkeys hhas
    refine ⟨Nat.le_trans h.first hle, hkeys, fun s hm => ?_, ?_, ?_, fun n hn => ?_⟩
    · rw [hahead' hi]
      show s < r''.expectedSeq ∨ s ∈ r''.recvBuf.keys ∨ s ∈ dataSeqs (r.inbox.getD [])
      by_cases hlt : s < r''.expectedSeq
      · exact .inl hlt
      · rw [show ({ r'' with dispatcher := pc } : Recv).inboxSeq = r.inboxSeq from hs] at hm
        have hq := h.queued s hm
        rw [hahead, List.mem_cons] at hq
        rcases hq with hq | hq | rfl | hq
        · omega
        · exact .inr (.inl (hhas s (by omega) (.inl hq)))
        · exact .inr (.inl (hhas _ (by omega) (.inr rfl)))
        · exact .inr (.inr hq)
    · rw [hahead' hi]
      show Fits _ r''.expectedSeq (· ∈ r''.recvBuf.keys) (_ ++ dataSeqs r''.reader.entering)
      rw [hr]
      exact hfits.tail hle hhas
    · rw [hahead' hi]
      show ∀ s ∈ _ ++ dataSeqs r''.reader.entering, 1 ≤ s
      rw [hr]
      exact fun s hm => hpositive s (List.mem_cons_of_mem _ hm)
    · rw [show ({ r'' with dispatcher := pc } : Recv).reader = r.reader from hr] at hn
      have := h.snapped n hn
      exact ⟨Nat.le_trans this.1 hle, this.2⟩
  have he := order_effect r w env
  obtain ⟨hreader, hinbox, -⟩ := order_frame hord
  have hseq : r'.inboxSeq = r.inboxSeq := by
    unfold Recv.order at hord
    (repeat' split at hord) <;> cases hord <;> rfl
  rw [hord] at he
  cases he with
  | next hs hnext hgap hkeys =>
    refine hkeep hinbox hreader hseq (by omega) (fun s hm => ?_) fun n hn hm => ?_
    · have hm := (hkeys s).mp hm
      have hlt := h.keys s hm.1
      have hne : s ≠ r'.expectedSeq := fun he => hgap (he ▸ hm.1)
      omega
    · rw [hkeys]
      rcases hm with hm | rfl
      · exact ⟨hm, by omega⟩
      · omega
  | store hs hw =>
    refine hkeep rfl rfl rfl (Nat.le_refl _) (fun s hm => ?_) fun n hn hm => ?_
    · rw [AList.keys_insert, List.mem_cons] at hm
      rcases hm with rfl | hm
      · exact ⟨hs, hw⟩
      · exact h.keys s (List.mem_of_mem_erase hm)
    · rw [AList.keys_insert, List.mem_cons]
      by_cases he : n = env.seq
      · exact .inl he
      · exact .inr ((List.mem_erase_of_ne he).mpr (hm.resolve_right he))
  | outside hs hw => exact absurd ⟨hs, hw⟩ hin
  | old hs =>
    refine hkeep rfl rfl rfl (Nat.le_refl _) h.keys fun n hn hm => ?_
    rcases hm with hm | rfl
    · exact hm
    · omega

@[simp] theorem handled_unhandled (c : RelayConnection) (env : RelayEnvelope) : (c.handled env).unhandled = [] := by
  rcases handled_cases c env with h | h <;> rw [h] <;> rfl

@[simp] theorem delivering_unhandled (env : RelayEnvelope) (ready : List (Nat × Bytes)) (n : Nat) :
    (DispatchPc.delivering env ready n).unhandled = [] := by
  cases ready <;> rfl

/-- `dispatchLoop` is done with a frame that is not DATA, or has been done with it before. -/
theorem ahead_of_unhandled {r : Recv} {pc : DispatchPc} (h : dataSeqs pc.unhandled = dataSeqs r.dispatcher.unhandled) :
    ({ r with dispatcher := pc } : Recv).ahead = r.ahead := by
  rw [Recv.ahead, Recv.ahead, dataSeqs_append, dataSeqs_append]
  exact congrArg (· ++ _) h

theorem isData_of_kind {env : RelayEnvelope} {k : RelayKind} (hk : env.kind = k) (hne : k ≠ .kindData) : env.isData = false := by
  simp [RelayEnvelope.isData, hk, hne]

theorem DispatchMove.windowed {w : Int} {pc pc' : DispatchPc} (hm : DispatchMove c pc pc') (hpc : c.recv.dispatcher = pc)
    (ho : c.config.reliability = .reliableOrdered) (hw : c.config.windowSize = w) (h : c.recv.Windowed w)
    (hrun : pc'.running = true) : (c.dispatcherAt pc').recv.Windowed w := by
  have hmove : dataSeqs pc'.unhandled = dataSeqs pc.unhandled → (c.dispatcherAt pc').recv.Windowed w := by
    intro hu
    rw [← hpc] at hu
    exact h.same rfl rfl (Finset.Subset.refl _) (ahead_of_unhandled hu) rfl
  cases hm with
  | stop | halt => cases hrun
  | terminal | checked | idle | wait | waited => exact hmove rfl
  | @skip env hk =>
    have hd : env.isData = false := by rcases hk with hk | hk <;> simp [RelayEnvelope.isData, hk]
    exact hmove (by rw [handled_unhandled, show (DispatchPc.handle env).unhandled = [env] from rfl, dataSeqs_other hd]; rfl)
  | outside hk _ hout => exact absurd (hw ▸ hout) (h.inside hpc (by simp [RelayEnvelope.isData, hk]))
  | one _ hno => exact absurd ho hno
  | abandonOne | abandon | pinged => exact hmove (by rw [handled_unhandled]; rfl)

theorem Recv.Windowed.dispatch {w : Int} (ho : c.config.reliability = .reliableOrdered) (hw : c.config.windowSize = w)
    (h : c.recv.dispatcher.running = true → c.recv.Windowed w) (he : DispatchEffect c c')
    (hrun : c'.recv.dispatcher.running = true) : c'.recv.Windowed w := by
  -- `dispatchLoop` goes on with nothing but its position changed
  have hmove : ∀ {pc : DispatchPc} (pc' : DispatchPc), c.recv.dispatcher = pc → pc.running = true →
      dataSeqs pc'.unhandled = dataSeqs pc.unhandled → { c.recv with dispatcher := pc' }.Windowed w := by
    intro pc pc' hpc hr hu
    rw [← hpc] at hr hu
    exact (h hr).same rfl rfl (Finset.Subset.refl _) (ahead_of_unhandled hu) rfl
  have hother : ∀ {env : RelayEnvelope} {k : RelayKind} {pc' : DispatchPc}, c.recv.dispatcher = .handle env →
      env.kind = k → k ≠ .kindData → pc'.unhandled = [] → { c.recv with dispatcher := pc' }.Windowed w := by
    intro env k pc' hpc hk hne hu
    refine hmove pc' hpc rfl ?_
    rw [hu, show (DispatchPc.handle env).unhandled = [env] from rfl, dataSeqs_other (isData_of_kind hk hne)]
    rfl
  cases he with
  | move hm =>
    generalize hpc : c.recv.dispatcher = pc at hm
    refine hm.windowed hpc ho hw (h ?_) hrun
    rw [hpc]
    cases hm <;> rfl
  | @take env queue hpc hq =>
    have hW := h (by rw [hpc]; rfl)
    refine hW.same rfl rfl (Finset.Subset.refl _) ?_ rfl
    rw [Recv.ahead, Recv.ahead, hpc, hq]
    rfl
  | openAck hpc hk => exact hother hpc hk (by decide) (handled_unhandled _ _)
  | close hpc hk => exact hother hpc hk (by decide) (handled_unhandled _ _)
  | error hpc hk => exact hother hpc hk (by decide) (handled_unhandled _ _)
  | ack hpc hk => exact hother hpc hk (by decide) (handled_unhandled _ _)
  | ping hpc hk => exact hother hpc hk (by decide) rfl
  | @order env r ready hpc hk _ hord =>
    subst hw
    exact (h (by rw [hpc]; rfl)).order hpc (by simp [RelayEnvelope.isData, hk]) hord (delivering_unhandled _ _ _)
  | @deliverOne env hpc =>
    have hu : ∀ b : Bool, (if b then DispatchPc.queue env env.seq else c.handled env).unhandled = [] := by
      intro b
      cases b
      · exact handled_unhandled c env
      · rfl
    have := hmove (if c.reliable then .queue env env.seq else c.handled env) hpc rfl (by rw [hu]; rfl)
    exact this.same rfl rfl (Finset.Subset.refl _) rfl rfl
  | @deliver env _ _ ready n hpc =>
    have := hmove (.delivered env ready n) hpc rfl rfl
    exact this.same rfl rfl (Finset.Subset.refl _) rfl rfl
  | @delivered env ready n hpc =>
    have := hmove (.delivering env ready n) hpc rfl (by rw [delivering_unhandled]; rfl)
    exact this.same rfl rfl (Finset.Subset.refl _) rfl rfl
  | @settle env n hpc =>
    have hu : (if n = 0 then c.handled env else DispatchPc.queue env n).unhandled = [] := by
      split
      · exact handled_unhandled c env
      · rfl
    have := hmove (if n = 0 then c.handled env else .queue env n) hpc rfl (by rw [hu]; rfl)
    exact this.same rfl rfl (Finset.Subset.refl _) rfl rfl
  | queue hpc => exact hmove _ hpc rfl (by rw [handled_unhandled]; rfl)
  | finish hpc => exact hmove _ hpc rfl rfl
  | @release env hpc =>
    obtain ⟨hi, hb, -⟩ := release_frame c.recv env
    have hrel : (c.recv.release env).expectedSeq = c.recv.expectedSeq ∧ (c.recv.release env).inboxSeq ⊆ c.recv.inboxSeq ∧
        (c.recv.release env).reader = c.recv.reader := by
      unfold Recv.release
      split
      · exact ⟨rfl, Finset.erase_subset _ _, rfl⟩
      · exact ⟨rfl, Finset.Subset.refl _, rfl⟩
    refine (h (by rw [hpc]; rfl)).same hrel.1 hb hrel.2.1 ?_ hrel.2.2
    rw [Recv.ahead, Recv.ahead, hpc]
    show dataSeqs ([] ++ (c.recv.release env).inbox.getD []) = _
    rw [hi]
    rfl
  | shut => cases hrun

/-! ## `enqueueEnvelope` -/

theorem frontier_spec (fuel : Nat) (s : Finset Nat) (n : Nat) :
    n ≤ frontier fuel s n ∧ ∀ m, n ≤ m → m < frontier fuel s n → m ∈ s := by
  induction fuel generalizing n with
  | zero => exact ⟨Nat.le_refl _, fun m h1 h2 => absurd h2 (by simp only [frontier]; omega)⟩
  | succ fuel ih =>
    unfold frontier
    by_cases hn : n ∈ s
    · rw [if_pos hn]
      obtain ⟨hle, hall⟩ := ih (n + 1)
      refine ⟨by omega, fun m h1 h2 => ?_⟩
      by_cases hm : m = n
      · rw [hm]
        exact hn
      · exact hall m (by omega) h2
    · rw [if_neg hn]
      exact ⟨Nat.le_refl _, fun m h1 h2 => by omega⟩

/-- A DATA frame gets past the tests of its number only when it is new and in the window. -/
theorem snapped_passes {env : RelayEnvelope} {closed reordered : Bool} {buffered : Int} {expected delivered : Nat}
    (hpc : c.recv.reader = .snapped env closed buffered reordered expected delivered) (hs : c.readerStep = some c')
    (hin : c'.recv.reader ≠ .idle) (hd : c.dedup env = true) :
    reordered = false ∧ env.seq ∉ c.recv.inboxSeq ∧ expected ≤ env.seq ∧ c.beyondWindow expected env = false := by
  unfold RelayConnection.readerStep at hs
  rw [hpc] at hs
  simp only [hd, Bool.true_and] at hs
  have hidle : ∀ {d : RelayConnection}, some d = some c' → d.recv.reader = .idle → False := by
    intro d he hi
    cases he
    exact hin hi
  split at hs
  · exact (hidle hs rfl).elim
  · split at hs
    · exact (hidle hs rfl).elim
    · split at hs
      · exact (hidle hs rfl).elim
      · split at hs
        · exact (hidle hs rfl).elim
        · rename_i hnew
          split at hs
          · split at hs <;> exact (hidle hs rfl).elim
          · rename_i hge
            split at hs
            · exact (hidle hs rfl).elim
            · rename_i hbw
              simp only [Bool.or_eq_true, decide_eq_true_eq, not_or, Bool.not_eq_true] at hnew hge hbw
              exact ⟨hnew.2, hnew.1, by omega, hbw⟩

/-- The reader goes on with the frame it had found in the window, or without one. -/
theorem Recv.Windowed.readerAt {r : Recv} {w : Int} {pc : ReaderPc} (h : r.Windowed w)
    (hin : pc.entering = [] ∨ pc.entering = r.reader.entering) (hexp : pc.expected? = none) :
    { r with reader := pc }.Windowed w := by
  have hsnap : ∀ n ∈ pc.expected?, n ≤ r.expectedSeq ∧ 1 ≤ n := by
    rw [hexp]
    exact fun n hn => absurd hn (Option.not_mem_none n)
  rcases hin with hin | hin
  · refine ⟨h.first, h.keys, h.queued, ?_, ?_, hsnap⟩
    · show Fits _ _ _ (r.ahead ++ dataSeqs pc.entering)
      intro ahead s behind hq
      refine h.fits ahead s (behind ++ dataSeqs r.reader.entering) ?_
      rw [hin] at hq
      rw [show r.ahead = ahead ++ s :: behind by simpa [dataSeqs] using hq]
      simp
    · show ∀ s ∈ r.ahead ++ dataSeqs pc.entering, 1 ≤ s
      rw [hin]
      exact fun s hs => h.positive s (List.mem_append_left _ (by simpa [dataSeqs] using hs))
  · refine ⟨h.first, h.keys, h.queued, ?_, ?_, hsnap⟩
    · show Fits _ _ _ (r.ahead ++ dataSeqs pc.entering)
      rw [hin]
      exact h.fits
    · show ∀ s ∈ r.ahead ++ dataSeqs pc.entering, 1 ≤ s
      rw [hin]
      exact h.positive

/-- A frame that has passed the tests fits in behind those in the inbox: up to the number it was
    measured from, everything is there or ahead of it. -/
theorem Recv.Windowed.enter {env : RelayEnvelope} {closed reordered : Bool} {buffered : Int} {expected delivered : Nat}
    {pc : ReaderPc} (h : c.recv.Windowed c.config.windowSize) (ho : c.config.reliability = .reliableOrdered)
    (hpc : c.recv.reader = .snapped env closed buffered reordered expected delivered)
    (hpass : c.dedup env = true → expected ≤ env.seq ∧ c.beyondWindow expected env = false)
    (hin : pc.entering = [env]) (hexp : pc.expected? = none) :
    { c.recv with reader := pc }.Windowed c.config.windowSize := by
  have hsnap : ∀ n ∈ pc.expected?, n ≤ c.recv.expectedSeq ∧ 1 ≤ n := by
    rw [hexp]
    exact fun n hn => absurd hn (Option.not_mem_none n)
  have hfits := h.fits
  have hpositive := h.positive
  rw [hpc, show dataSeqs (ReaderPc.snapped env closed buffered reordered expected delivered).entering = [] from rfl,
    List.append_nil] at hfits hpositive
  by_cases hd : env.isData = true
  · have hdedup : c.dedup env = true := by simp [RelayConnection.dedup, RelayConnection.ordered, hd, ho]
    obtain ⟨hge, hbw⟩ := hpass hdedup
    obtain ⟨hle, hpos⟩ := h.snapped expected (by rw [hpc]; rfl)
    obtain ⟨-, hfront⟩ := frontier_spec c.recv.inboxSeq.card c.recv.inboxSeq expected
    generalize hf : frontier c.recv.inboxSeq.card c.recv.inboxSeq expected = front at hfront
    have hlt : env.seq < front + uint64 (max c.config.windowSize 1) := by
      unfold RelayConnection.beyondWindow at hbw
      simp only [hf, Bool.and_eq_false_iff, decide_eq_false_iff_not, RelayConnection.window] at hbw
      omega
    have hfilled : Filled c.recv.expectedSeq (· ∈ c.recv.recvBuf.keys) c.recv.ahead front := by
      intro n hn hnf
      rcases h.queued n (hfront n (by omega) hnf) with hq | hq
      · omega
      · exact hq
    refine ⟨h.first, h.keys, h.queued, ?_, ?_, hsnap⟩
    · show Fits _ _ _ (c.recv.ahead ++ dataSeqs pc.entering)
      rw [hin, dataSeqs_data hd]
      exact hfits.snoc hfilled hlt
    · show ∀ s ∈ c.recv.ahead ++ dataSeqs pc.entering, 1 ≤ s
      rw [hin, dataSeqs_data hd]
      intro s hs
      rcases List.mem_append.mp hs with hs | hs
      · exact hpositive s hs
      · rw [List.mem_singleton.mp hs]
        omega
  · have hd : env.isData = false := by simpa using hd
    refine ⟨h.first, h.keys, h.queued, ?_, ?_, hsnap⟩
    · show Fits _ _ _ (c.recv.ahead ++ dataSeqs pc.entering)
      rw [hin, dataSeqs_other hd, List.append_nil]
      exact hfits
    · show ∀ s ∈ c.recv.ahead ++ dataSeqs pc.entering, 1 ≤ s
      rw [hin, dataSeqs_other hd, List.append_nil]
      exact hpositive

/-- After the test of the budget the reader has given up or goes on with the frame. -/
theorem afterBudget_entering (c : RelayConnection) (env : RelayEnvelope) (buffered : Int) :
    ((c.afterBudget env buffered).entering = [] ∨ (c.afterBudget env buffered).entering = [env]) ∧
      (c.afterBudget env buffered).expected? = none := by
  unfold RelayConnection.afterBudget
  (repeat' split) <;> exact ⟨by simp [ReaderPc.entering], rfl⟩

theorem Recv.Windowed.reader (h : c.recv.Windowed c.config.windowSize) (ho : c.config.reliability = .reliableOrdered)
    (hoff : c.recv.inbox = none → c.recv.dispatcher = .off) (hs : c.readerStep = some c') :
    c'.recv.Windowed c.config.windowSize := by
  have hbudget : ∀ {env : RelayEnvelope} {buffered : Int}, c.recv.reader.entering = [env] →
      (c.readerAt (c.afterBudget env buffered)).recv.Windowed c.config.windowSize := by
    intro env buffered hin
    obtain ⟨he, hexp⟩ := afterBudget_entering c env buffered
    exact h.readerAt (by rw [hin]; exact he) hexp
  cases readerStep_effect hs with
  | drop | ack | again | full | overflow => exact h.readerAt (.inl rfl) rfl
  | undo => exact h.readerAt (.inl (by split <;> rfl)) (by split <;> rfl)
  | fail =>
    have : { c.recv with reader := .idle }.Windowed c.config.windowSize := h.readerAt (.inl rfl) rfl
    exact this.same rfl rfl (Finset.Subset.refl _) rfl rfl
  | budget hpc => exact hbudget (by rw [hpc]; rfl)
  | begin hpc => exact h.readerAt (.inr (by rw [hpc]; rfl)) rfl
  | @tested env closed reordered buffered expected delivered hpc =>
    obtain ⟨he, hexp⟩ := afterBudget_entering c env buffered
    rcases he with he | he
    · exact h.readerAt (.inl he) hexp
    · refine h.enter ho hpc (fun hd => ?_) he hexp
      have hin : (c.afterBudget env buffered) ≠ .idle := fun hi => by rw [hi] at he; cases he
      obtain ⟨-, -, hge, hbw⟩ := snapped_passes hpc hs hin hd
      exact ⟨hge, hbw⟩
  | @start env closed reordered buffered expected delivered hpc hi =>
    have hW : { c.recv with reader := .budget env buffered }.Windowed c.config.windowSize :=
      h.enter ho hpc (fun hd => (snapped_passes hpc hs ReaderPc.noConfusion hd).2.2) rfl rfl
    refine hW.same rfl rfl (Finset.empty_subset _) ?_ rfl
    rw [Recv.ahead, Recv.ahead, hi, hoff hi]
    rfl
  | @admitted env queue hpc hi =>
    have hahead : (c.admitted env queue).recv.ahead = c.recv.ahead ++ dataSeqs [env] := by
      rw [Recv.ahead, Recv.ahead, hi, ← dataSeqs_append, List.append_assoc]
      rfl
    have hfits := h.fits
    have hpositive := h.positive
    rw [hpc, show (ReaderPc.push env).entering = [env] from rfl, ← hahead] at hfits hpositive
    refine ⟨h.first, h.keys, fun s hm => ?_, ?_, ?_, fun n hn => absurd hn (Option.not_mem_none n)⟩
    · rw [hahead, List.mem_append]
      have hold : s ∈ c.recv.inboxSeq → s < c.recv.expectedSeq ∨ s ∈ c.recv.recvBuf.keys ∨
          s ∈ c.recv.ahead ∨ s ∈ dataSeqs [env] := fun hm => (h.queued s hm).imp_right (Or.imp_right Or.inl)
      by_cases hd : c.dedup env = true
      · have hm : s ∈ insert env.seq c.recv.inboxSeq := by simpa [RelayConnection.admitted, hd] using hm
        rcases Finset.mem_insert.mp hm with rfl | hm
        · have hdata : env.isData = true := (Bool.and_eq_true_iff.mp hd).1
          rw [dataSeqs_data hdata]
          exact .inr (.inr (.inr List.mem_cons_self))
        · exact hold hm
      · have hm : s ∈ c.recv.inboxSeq := by simpa [RelayConnection.admitted, hd] using hm
        exact hold hm
    · show Fits _ _ _ ((c.admitted env queue).recv.ahead ++ [])
      rw [List.append_nil]
      exact hfits
    · show ∀ s ∈ (c.admitted env queue).recv.ahead ++ [], 1 ≤ s
      rw [List.append_nil]
      exact hpositive

/-! ## Whole runs -/

/-- The frames of a reliable-ordered connection are in order, and the windows agree until
    `dispatchLoop` ends. -/
structure Admitting (c : RelayConnection) : Prop extends InOrder c where
  windowed : c.recv.dispatcher.running = true → c.recv.Windowed c.config.windowSize

theorem Admitting.new {config : RelayConfig} (ho : config.reliability = .reliableOrdered) (relayID : String)
    (my remote : SessionRef) (dialed : Bool) : Admitting (.new config relayID my remote dialed) := by
  refine ⟨.new ho _ _ _ _, fun _ => ⟨Nat.le_refl 1, fun s hm => absurd hm List.not_mem_nil, fun s hm => absurd hm (Finset.notMem_empty s),
    .nil, fun s hm => absurd hm List.not_mem_nil, fun n hn => absurd hn (Option.not_mem_none n)⟩⟩

theorem Admitting.step (h : Admitting c) {a : RelayConnection.Action} (hs : StepEffect c a c') : Admitting c' := by
  refine ⟨h.toInOrder.step hs, ?_⟩
  rw [hs.conn.config]
  have hsame : c'.recv = c.recv → c'.recv.dispatcher.running = true → c'.recv.Windowed c.config.windowSize := by
    intro hr
    rw [hr]
    exact h.windowed
  cases hs with
  | @packet env hr =>
    intro hrun
    have hW := h.windowed hrun
    have hidle : { c.recv with reader := .idle }.Windowed c.config.windowSize := hW.readerAt (.inl rfl) rfl
    refine ⟨hW.first, hW.keys, hW.queued, hidle.fits, hidle.positive, fun n hn => ?_⟩
    cases hn
    exact ⟨Nat.le_refl _, hW.first⟩
  | reader h' =>
    intro hrun
    refine (h.windowed ?_).reader h.reliability h.ordered.off h'
    rcases (readerStep_order h').dispatcher with ⟨hd, -⟩ | ⟨hi, -, -⟩
    · rw [← hd]
      exact hrun
    · rw [h.ordered.off hi]
      rfl
  | dispatcher h' => exact fun hrun => Recv.Windowed.dispatch h.reliability rfl h.windowed h' hrun
  | ackWorker h' => exact hsame (ackStep_frame h').recv
  | sender _ rest => exact hsame rest.recv
  | @call call => cases call with
    | send data => cases data <;> exact hsame rfl
    | _ => exact hsame rfl
  | run _ h' => cases h' with
    | receive => exact fun hrun => (h.windowed hrun).same rfl rfl (Finset.Subset.refl _) rfl rfl
    | _ => exact hsame rfl
  | take => exact fun hrun => (h.windowed hrun).same rfl rfl (Finset.Subset.refl _) rfl rfl
  | _ => exact hsame rfl

theorem admitting {config : RelayConfig} {relayID : String} {my remote : SessionRef} {dialed : Bool}
    {ok : RelayConnection → RelayConnection.Action → Prop} (ho : config.reliability = .reliableOrdered)
    (h : Reach RelayConnection.step ok (· = .new config relayID my remote dialed) c) : Admitting c ∧ c.config = config := by
  refine h.keeps (P := fun c => Admitting c ∧ c.config = config) ?_ ?_
  · intro c hc
    subst hc
    exact ⟨.new ho _ _ _ _, rfl⟩
  · intro c a c' _ hi _ hs
    have he := step_effect hs
    exact ⟨hi.1.step he, he.conn.config.trans hi.2⟩

theorem handleData_ready {env : RelayEnvelope} {r : Recv} {ready : List (Nat × Bytes)}
    (ho : c.config.reliability = .reliableOrdered) (hord : c.recv.order c.config.windowSize env = (r, some ready)) :
    c.handleData env = { c with recv := { r with dispatcher := .delivering env ready (r.expectedSeq - 1) } } := by
  simp only [RelayConnection.handleData, ho, hord]

/-- Whatever `WindowSize` is and whatever arrives: a DATA frame that comes out of the inbox is not out
    of the window. `handleData` goes on to deliver it, or has stored it in `recvBuf`, or it was
    delivered before. -/
theorem admitted_in_window {config : RelayConfig} {relayID : String} {my remote : SessionRef} {dialed : Bool}
    {env : RelayEnvelope} (ho : config.reliability = .reliableOrdered)
    (h : Reach RelayConnection.step free (· = .new config relayID my remote dialed) c)
    (hpc : c.recv.dispatcher = .handle env) (hk : env.kind = .kindData) :
    (c.recv.order config.windowSize env).2 ≠ none ∧ ∃ c', c.step (.dispatcher .go) = some c' ∧
      ((∃ ready n, c'.recv.dispatcher = .deliver env env.seq env.payload ready n) ∨
        c'.recv.recvBuf.lookup env.seq = some env.payload ∨ ∃ data, (env.seq, data) ∈ c.recv.pushed) := by
  obtain ⟨hi, rfl⟩ := admitting ho h
  have hd : env.isData = true := by simp [RelayEnvelope.isData, hk]
  have hW := hi.windowed (by rw [hpc]; rfl)
  have hstep : c.step (.dispatcher .go) = some (c.handleData env) := by
    simp only [RelayConnection.step, RelayConnection.dispatchStep, hpc, RelayConnection.handleEnvelope, hk]
  have he := order_effect c.recv c.config.windowSize env
  generalize hord : c.recv.order c.config.windowSize env = x at he
  cases he with
  | next =>
    rw [handleData_ready ho hord] at hstep
    exact ⟨Option.some_ne_none _, _, hstep, .inl ⟨_, _, rfl⟩⟩
  | store =>
    rw [handleData_ready ho hord] at hstep
    exact ⟨Option.some_ne_none _, _, hstep, .inr (.inl (AList.lookup_insert _))⟩
  | outside hs hw => exact absurd ⟨hs, hw⟩ (hW.inside hpc hd)
  | old hs =>
    refine ⟨Option.some_ne_none _, _, hstep, .inr (.inr ?_)⟩
    -- everything below `expectedSeq` was pushed
    have hpos : 1 ≤ env.seq := by
      refine hW.positive env.seq (List.mem_append_left _ ?_)
      rw [Recv.ahead, hpc, show (DispatchPc.handle env).unhandled = [env] from rfl, dataSeqs_append, dataSeqs_data hd]
      exact List.mem_cons_self
    have hexp := hi.ordered.expected
    have hrun := hi.ordered.run
    rw [hpc, show (DispatchPc.handle env).ready = [] from rfl, List.append_nil] at hexp hrun
    have hexp := hexp.resolve_right fun hr => absurd hr.2 Bool.false_ne_true
    exact hrun.mem hpos (by omega)

/-- The frame that `handleEnvelope` is about to take. -/
def DispatchPc.handled? : DispatchPc → Option RelayEnvelope
  | .handle env => some env
  | _ => none

theorem DispatchPc.eq_handle {pc : DispatchPc} {env : RelayEnvelope} (h : pc.handled? = some env) : pc = .handle env := by
  cases pc with
  | handle e =>
    cases h
    rfl
  | _ => cases h

/-- `WindowSize` is 0, so that `handleData` stores nothing, and frame 2 is admitted while frame 1 is
    in the inbox: when its turn comes it is the next one. -/
theorem admitted_in_window_zero : ∃ c : RelayConnection, c.recv.pushed = [(1, [10])] ∧
    (c.recv.order 0 (sampleEnvelope .a .kindData 2 0 [10])).2 ≠ none := by
  have h : ((exec (guarded RelayConnection.step free) (sampleReceiver 0) (List.flatten
      [getsData 1 4 0, getsData 2 3 9, [.dispatcher .go, .dispatcher .go]])).any fun c =>
        c.recv.pushed = [(1, [10])] ∧ c.recv.dispatcher.handled? = some (sampleEnvelope .a .kindData 2 0 [10])) = true := by
    decide +kernel
  obtain ⟨c, hr, hw⟩ := reach_any (I := fun c => c = sampleReceiver 0) _ (.init rfl) h
  simp only [decide_eq_true_eq] at hw
  obtain ⟨hp, hm⟩ := hw
  exact ⟨c, hp, (admitted_in_window rfl hr (DispatchPc.eq_handle hm) rfl).1⟩

end

end Turntf.Relay
