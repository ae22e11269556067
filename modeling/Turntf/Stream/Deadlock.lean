/-
  Turntf.Stream.Deadlock — waiting for mutexes when `mux.send` calls the peer's
  `HandleFrame` before it returns (`stream_conn.go`).

  In such a run a thread's stack is a `Read`, `Write`, `Resume` or `Close`, under it at
  most one call that handles the frame it sent, and under that at most one that handles
  the Ack of that frame (`Stacked`). A call that answers with an Ack locks `responseMu`
  while it holds `handleMu`, and keeps `responseMu` while the Ack locks the peer's
  `handleMu`.

  - `acks_deadlock`: with a `Read` and a `Write` on each end this closes a cycle of four.
  - `no_deadlock`: a cycle needs two Acks at once on both ends. Where on one end no Ack is
    made while another one is being sent, no set of threads waits for one another.
-/

import Mathlib.Tactic.FinCases
import Turntf.Stream.Steps

namespace Turntf.Stream

open Lts Locks Ends

/-! ## Synchronous runs -/

/-- The threads make only the four calls, and every frame is handed on at once. -/
def Synchronous : Move → Bool
  | .call _ (.handleFrame _) => false
  | .run _ .taken => false
  | .run _ (.refused _) => false
  | _ => true

/-- The mutex thread `t` is about to lock. -/
def Sys.waiting (s : Sys) (t : Nat) : Option Lock :=
  s.threads[t]?.bind fun th => th.stack.head?.bind Act.wants

/-- The mutexes thread `t` holds. -/
def Sys.locks (s : Sys) (t : Nat) : List Lock :=
  (s.threads[t]?.map fun th => th.stack.flatMap Act.holds).getD []

/-- Each thread of a set waits for a mutex another one of the set holds. -/
def Sys.Deadlocked (s : Sys) (ts : Finset Nat) : Prop :=
  CircularWait (fun t l => s.waiting t = some l) (fun t l => l ∈ s.locks t) ts

/-- The step after which a call at `pc` is about to send an Ack. -/
def Pc.makesAck : Pc → Bool
  | .read (.take _) => true
  | .handle (.append ..) => true
  | .handle (.setWindow _) => true
  | _ => false

/-- The end `x` makes no Ack while another of its Acks is being sent. -/
def OneAck (x : Side) (s : Sys) : Move → Bool
  | .run i _ =>
    match s.threads[i]? with
    | some ⟨y :: _, _⟩ => !(y.side = x && y.pc.makesAck && decide (⟨x, .responseMu⟩ ∈ s.held))
    | _ => true
  | _ => true

/-! ## The shape of a stack -/

/-- The kinds of the frames a call has made and not yet sent. -/
def Pc.Carries : Pc → Prop
  | .read (.lockResponse ack) | .read (.unlockHandle ack) | .read (.send ack) => ack.kind = .frameAck
  | .write (.send _ _ frame) => frame.kind = .frameData
  | .resume (.lockMu _ _ frames) | .resume (.register _ _ frames) | .resume (.sendResume _ _ frames _)
  | .resume (.sentResume frames _) | .resume (.await frames _) | .resume (.send frames) | .resume (.sent frames) =>
    ∀ f ∈ frames, f.kind = .frameData
  | .handle (.lockAppend _ ack) | .handle (.append _ ack) | .handle (.lockWindow ack) | .handle (.setWindow ack)
  | .handle (.lockResponse ack) | .handle (.unlockHandle ack) | .handle (.send ack) => ack.kind = .frameAck
  | _ => True

/-- The kind of the frame a call is in the middle of sending. -/
def Pc.sends : Pc → Option StreamFrameKind
  | .read .sent => some .frameAck
  | .write (.sent ..) => some .frameData
  | .resume (.sentResume ..) => some .frameResume
  | .resume (.sent _) => some .frameData
  | .close .sent => some .frameClose
  | .handle .sent => some .frameAck
  | .handle .sentOpenAck => some .frameOpenAck
  | _ => none

/-- The call may be handling a frame of kind `k`. -/
def HandlePc.Handles (k : StreamFrameKind) : HandlePc → Prop
  | .enter f | .lockHandle f | .dispatch f | .lockCredit f | .storeCredit f => f.kind = k
  | .sendOpenAck _ | .sentOpenAck => k = .frameOpen
  | .lockCheck .. | .checkData .. | .accept _ | .lockAppend .. | .append .. => k = .frameData
  | .lockWindow _ | .setWindow _ => k = .frameResume
  | .lockResponse _ | .unlockHandle _ | .send _ | .sent => k = .frameData ∨ k = .frameResume
  | .markOpen | .terminate _ | .unlock _ => True

def Pc.IsHandle : Pc → Prop
  | .handle _ => True
  | _ => False

/-- Under each call stands the one that sent the frame it handles. -/
def Stacked : List Act → Prop
  | [] => True
  | [x] => ¬ x.pc.IsHandle
  | x :: y :: rest =>
    (∃ k h, x.pc = .handle h ∧ h.Handles k ∧ y.pc.sends = some k) ∧ x.side = y.side.peer ∧ Stacked (y :: rest)

section

variable {e e' : StreamEnd} {sent : Option StreamError} {how : Choice}

theorem readStep_carries {pc : ReadPc} {n : Next ReadPc} (h : readStep e sent pc = some (e', n))
    (hc : (Pc.read pc).Carries) : ∀ pc', n.pc? = some pc' → (Pc.read pc').Carries := by
  intro pc' hn
  cases pc <;> simp only [readStep] at h <;> (repeat' split at h) <;> cases h <;> cases hn <;>
    first | exact hc | exact rfl | trivial

theorem writeStep_carries {pc : WritePc} {n : Next WritePc} (h : writeStep e sent pc = some (e', n))
    (hc : (Pc.write pc).Carries) : ∀ pc', n.pc? = some pc' → (Pc.write pc').Carries := by
  intro pc' hn
  cases pc with
  | data done rest available =>
    simp only [writeStep] at h
    split at h
    · cases h; cases hn; trivial
    · rename_i frame s hd
      cases h; cases hn
      obtain ⟨_, _, _, hf, _⟩ := data_ok hd
      show frame.kind = .frameData
      rw [hf]
  | _ =>
    simp only [writeStep] at h
    (repeat' split at h) <;> cases h <;> cases hn <;> first | exact hc | trivial

theorem resume_frames_kind {s s' : StreamSenderState} {epoch acked : UInt64} {fs : List StreamFrame}
    (h : s.resume epoch acked = .ok (fs, s')) : ∀ f ∈ fs, f.kind = .frameData := by
  obtain ⟨_, _, _, hfs, _⟩ := resume_ok h
  intro f hf
  rw [hfs] at hf
  obtain ⟨old, _, ho⟩ := List.mem_filterMap.mp hf
  unfold StreamSenderState.restamp at ho
  split at ho <;> cases ho
  rfl

theorem resumeStep_carries {pc : ResumePc} {n : Next ResumePc} (h : resumeStep e sent how pc = some (e', n))
    (hc : (Pc.resume pc).Carries) : ∀ pc', n.pc? = some pc' → (Pc.resume pc').Carries := by
  intro pc' hn
  cases pc with
  | resume epoch acked =>
    simp only [resumeStep] at h
    split at h
    · cases h; cases hn; trivial
    · rename_i frames s hr
      cases h; cases hn
      exact resume_frames_kind hr
  | send frames =>
    simp only [resumeStep] at h
    split at h
    · cases h; cases hn; trivial
    · rename_i frame rest
      cases h; cases hn
      exact fun f hf => hc f (List.mem_cons_of_mem _ hf)
  | _ =>
    simp only [resumeStep] at h
    (repeat' split at h) <;> cases h <;> cases hn <;> first | exact hc | trivial

theorem closeStep_carries {pc' : ClosePc} : (Pc.close pc').Carries := by
  cases pc' <;> trivial

theorem handleStep_carries {pc : HandlePc} {n : Next HandlePc} (h : handleStep e sent pc = some (e', n))
    (hc : (Pc.handle pc).Carries) : ∀ pc', n.pc? = some pc' → (Pc.handle pc').Carries := by
  intro pc' hn
  cases pc with
  | terminate pc =>
    obtain ⟨⟨e₁, _ | pc₁⟩, _, he⟩ := Option.map_eq_some_iff.mp h <;> cases he <;> cases hn <;> trivial
  | accept f =>
    simp only [handleStep] at h
    split at h
    · cases h; cases hn; trivial
    · rename_i payload ack r ha
      cases h; cases hn
      obtain ⟨_, _, _, _, _, _, _, hak⟩ := accept_shape ha
      show ack.kind = .frameAck
      rw [hak]
      rfl
  | dispatch f =>
    simp only [handleStep, dispatchStep, acknowledgeStep] at h
    (repeat' split at h) <;> cases h <;> cases hn <;> first
      | trivial
      | (rename_i ack r hr
         obtain ⟨_, _, _, hak⟩ := receiver_resume_ok hr
         show ack.kind = .frameAck
         rw [hak]
         rfl)
  | _ =>
    simp only [handleStep, enterStep] at h
    (repeat' split at h) <;> cases h <;> cases hn <;> first | exact hc | trivial

theorem handleStep_handles {pc : HandlePc} {n : Next HandlePc} {k : StreamFrameKind}
    (h : handleStep e sent pc = some (e', n)) (hk : pc.Handles k) : ∀ pc', n.pc? = some pc' → pc'.Handles k := by
  intro pc' hn
  cases pc with
  | terminate pc =>
    obtain ⟨⟨e₁, _ | pc₁⟩, _, he⟩ := Option.map_eq_some_iff.mp h <;> cases he <;> cases hn <;> trivial
  | dispatch f =>
    replace hk : f.kind = k := hk
    simp only [handleStep, dispatchStep, acknowledgeStep] at h
    (repeat' split at h) <;> cases h <;> cases hn <;> first
      | trivial
      | exact hk
      | (rename_i hkind _; exact hk.symm.trans hkind)
      | (rename_i hkind _ _ _ _; exact hk.symm.trans hkind)
  | enter f =>
    replace hk : f.kind = k := hk
    simp only [handleStep, enterStep] at h
    (repeat' split at h) <;> cases h <;> cases hn <;> first
      | exact hk
      | (rename_i hkind _ _ _; exact hk.symm.trans hkind)
  | _ =>
    simp only [handleStep] at h
    (repeat' split at h) <;> cases h <;> cases hn <;> first
      | trivial
      | exact hk
      | exact .inl hk
      | exact .inr hk

theorem pcStep_carries {pc : Pc} {n : Next Pc} (h : pcStep e sent how pc = some (e', n)) (hc : pc.Carries) :
    ∀ pc', n.pc? = some pc' → pc'.Carries := by
  intro pc' hn
  cases pc <;> obtain ⟨⟨e₁, n₁⟩, hs, he⟩ := Option.map_eq_some_iff.mp h <;> cases he <;> cases n₁ <;> cases hn
  all_goals first
    | exact closeStep_carries
    | exact readStep_carries hs hc _ rfl
    | exact writeStep_carries hs hc _ rfl
    | exact resumeStep_carries hs hc _ rfl
    | exact handleStep_carries hs hc _ rfl

/-- A call stays in the function it is in. -/
theorem pcStep_isHandle {pc pc' : Pc} {n : Next Pc} (h : pcStep e sent how pc = some (e', n)) (hn : n.pc? = some pc') :
    pc'.IsHandle ↔ pc.IsHandle := by
  cases pc <;> obtain ⟨⟨e₁, n₁⟩, _, he⟩ := Option.map_eq_some_iff.mp h <;> cases he <;> cases n₁ <;> cases hn <;>
    exact Iff.rfl

theorem pcStep_handles {h : HandlePc} {pc' : Pc} {n : Next Pc} {k : StreamFrameKind}
    (hs : pcStep e sent how (.handle h) = some (e', n)) (hk : h.Handles k) (hn : n.pc? = some pc') :
    ∃ h', pc' = .handle h' ∧ h'.Handles k := by
  obtain ⟨⟨e₁, n₁⟩, hs', he⟩ := Option.map_eq_some_iff.mp hs
  cases he
  cases n₁ <;> cases hn <;> exact ⟨_, rfl, handleStep_handles hs' hk _ rfl⟩

/-- The frame given to the transport is of the kind the call is then sending. -/
theorem pcStep_sends {pc pc' : Pc} {f : StreamFrame} (h : pcStep e sent how pc = some (e', .send f pc'))
    (hc : pc.Carries) : pc'.sends = some f.kind := by
  cases pc with
  | read pc =>
    obtain ⟨⟨e₁, n₁⟩, hs, he⟩ := Option.map_eq_some_iff.mp h
    cases n₁ <;> cases he
    cases pc <;> simp only [readStep] at hs <;> (repeat' split at hs) <;> cases hs
    exact congrArg some hc.symm
  | write pc =>
    obtain ⟨⟨e₁, n₁⟩, hs, he⟩ := Option.map_eq_some_iff.mp h
    cases n₁ <;> cases he
    cases pc <;> simp only [writeStep] at hs <;> (repeat' split at hs) <;> cases hs
    exact congrArg some hc.symm
  | resume pc =>
    obtain ⟨⟨e₁, n₁⟩, hs, he⟩ := Option.map_eq_some_iff.mp h
    cases n₁ <;> cases he
    cases pc <;> simp only [resumeStep] at hs <;> (repeat' split at hs) <;> cases hs
    · rfl
    · exact congrArg some (hc _ List.mem_cons_self).symm
  | close pc =>
    obtain ⟨⟨e₁, n₁⟩, hs, he⟩ := Option.map_eq_some_iff.mp h
    cases n₁ <;> cases he
    cases pc with
    | terminate epoch pc =>
      obtain ⟨⟨e₂, _ | pc₂⟩, _, he⟩ := Option.map_eq_some_iff.mp hs <;> cases he
    | _ => simp only [closeStep] at hs; (repeat' split at hs) <;> cases hs <;> rfl
  | handle pc =>
    obtain ⟨⟨e₁, n₁⟩, hs, he⟩ := Option.map_eq_some_iff.mp h
    cases n₁ <;> cases he
    cases pc with
    | terminate pc =>
      obtain ⟨⟨e₂, _ | pc₂⟩, _, he⟩ := Option.map_eq_some_iff.mp hs <;> cases he
    | _ =>
      simp only [handleStep, enterStep, dispatchStep, acknowledgeStep] at hs
      (repeat' split at hs) <;> cases hs <;> first | rfl | exact congrArg some hc.symm

end

/-- The top call of a stack goes on, or sends and goes on. -/
theorem Stacked.goOn {e e' : StreamEnd} {sent : Option StreamError} {how : Choice} {x : Act} {rest : List Act}
    {n : Next Pc} {pc : Pc} (h : Stacked (x :: rest)) (hp : pcStep e sent how x.pc = some (e', n))
    (hn : n.pc? = some pc) : Stacked (⟨x.side, pc⟩ :: rest) := by
  cases rest with
  | nil =>
    intro hh
    exact h ((pcStep_isHandle hp hn).mp hh)
  | cons y rest =>
    obtain ⟨⟨k, hd, hx, hk, hy⟩, hside, hrest⟩ := h
    rw [hx] at hp
    obtain ⟨hd', he, hk'⟩ := pcStep_handles hp hk hn
    exact ⟨⟨k, hd', he, hk', hy⟩, hside, hrest⟩

theorem Stacked.tail {x : Act} {rest : List Act} (h : Stacked (x :: rest)) : Stacked rest := by
  cases rest with
  | nil => trivial
  | cons y rest => exact h.2.2

def Nested (th : Thread) : Prop := Stacked th.stack ∧ ∀ x ∈ th.stack, x.pc.Carries

theorem actStep_nested {s : Sys} {sent sent' : Option StreamError} {how : Choice} {x : Act} {rest new : List Act}
    {e : StreamEnd} (h : Nested ⟨x :: rest, sent⟩) (hs : s.actStep sent how x = some (e, new, sent')) :
    Nested ⟨new ++ rest, sent'⟩ := by
  obtain ⟨hst, hc⟩ := h
  have hcx := hc x List.mem_cons_self
  have hcr : ∀ y ∈ rest, y.pc.Carries := fun y hy => hc y (List.mem_cons_of_mem _ hy)
  rcases actStep_cases hs with ⟨pc, hp, hn, _⟩ | ⟨err, _, hn, _⟩ | ⟨e₀, f, pc, hp, _, hn | ⟨_, hn⟩⟩ <;> subst hn
  · refine ⟨hst.goOn hp rfl, fun y hy => ?_⟩
    rcases List.mem_cons.mp hy with rfl | hy
    · exact pcStep_carries hp hcx _ rfl
    · exact hcr y hy
  · exact ⟨hst.tail, hcr⟩
  · refine ⟨hst.goOn hp rfl, fun y hy => ?_⟩
    rcases List.mem_cons.mp hy with rfl | hy
    · exact pcStep_carries hp hcx _ rfl
    · exact hcr y hy
  · have hgo : Stacked (⟨x.side, pc⟩ :: rest) := hst.goOn hp rfl
    refine ⟨⟨⟨f.kind, .enter f, rfl, rfl, pcStep_sends hp hcx⟩, rfl, hgo⟩, fun y hy => ?_⟩
    rcases List.mem_cons.mp hy with rfl | hy
    · trivial
    rcases List.mem_cons.mp hy with rfl | hy
    · exact pcStep_carries hp hcx _ rfl
    · exact hcr y hy

theorem step_nested {s s' : Sys} {m : Move} (h : ∀ th ∈ s.threads, Nested th) (hm : Synchronous m = true)
    (hs : s.step m = some s') : ∀ th ∈ s'.threads, Nested th := by
  rcases step_cases hs with ⟨x, c, rfl, hc⟩ | ⟨i, how, _, ⟨mv⟩⟩
  · rw [hc.threads]
    intro th hth
    rcases List.mem_append.mp hth with hth | hth
    · exact h th hth
    · rw [List.mem_singleton.mp hth]
      cases c with
      | handleFrame f => cases hm
      | read n =>
        by_cases e : n = 0
        · simp [Call.start, e, Nested, Stacked]
        · simp [Call.start, e, Nested, Stacked, Pc.IsHandle, Pc.Carries]
      | write p =>
        by_cases e : p = []
        · simp [Call.start, e, Nested, Stacked]
        · simp [Call.start, e, Nested, Stacked, Pc.IsHandle, Pc.Carries]
      | resume => exact ⟨id, fun y hy => by rw [List.mem_singleton.mp hy]; trivial⟩
      | close => exact ⟨id, fun y hy => by rw [List.mem_singleton.mp hy]; trivial⟩
  · rw [mv.threads]
    intro th hth
    rcases List.mem_or_eq_of_mem_set hth with hth | rfl
    · exact h th hth
    · exact actStep_nested (h _ (List.mem_of_getElem? mv.thread)) mv.step

/-! ## The order of the locks -/

/-- `responseMu` of `x` below both locks of the peer, `handleMu` of `x` above them. -/
def rank (x : Side) (l : Lock) : Nat :=
  match l.mutex with
  | .writeMu => 0
  | .responseMu => if l.side = x then 1 else 3
  | .handleMu => if l.side = x then 4 else 2
  | .mu => 5

/-- Within one call, `mu` is locked last and `responseMu` under `handleMu`. -/
theorem Pc.wants_last {pc : Pc} {m : Mutex} (h : pc.wants = some m) :
    ∀ m' ∈ pc.holds, m = .mu ∧ m' ≠ .mu ∨ m = .responseMu ∧ m' = .handleMu := by
  intro m' hm'
  cases pc with
  | close pc =>
    cases pc with
    | terminate epoch pc => cases pc <;> cases h; cases hm'
    | _ => cases h <;> cases hm'
  | handle pc =>
    cases pc with
    | terminate pc => cases pc <;> cases h; rw [List.mem_singleton.mp hm']; decide
    | _ => cases h <;> first | cases hm'; done | (rw [List.mem_singleton.mp hm']; decide)
  | read pc => cases pc <;> cases h <;> first | cases hm'; done | (rw [List.mem_singleton.mp hm']; decide)
  | write pc => cases pc <;> cases h <;> first | cases hm'; done | (rw [List.mem_singleton.mp hm']; decide)
  | resume pc => cases pc <;> cases h <;> first | cases hm'; done | (rw [List.mem_singleton.mp hm']; decide)

theorem Pc.holds_of_sends {pc : Pc} {k : StreamFrameKind} (h : pc.sends = some k) :
    k = .frameAck ∧ pc.holds = [.responseMu] ∨
      (k = .frameData ∨ k = .frameResume) ∧ pc.holds = [.writeMu] ∧ ¬ pc.IsHandle ∨
      k = .frameClose ∧ pc.holds = [] ∧ ¬ pc.IsHandle ∨ pc = .handle .sentOpenAck := by
  rcases pc with pc | pc | pc | pc | pc <;> cases pc <;> cases h <;> simp [Pc.holds, Pc.IsHandle, ReadPc.holds,
    WritePc.holds, ResumePc.holds, ClosePc.holds, HandlePc.holds]

/-- The calls under a handler hold `writeMu`, or `responseMu` of the peer while the handler
    has an Ack. -/
theorem Stacked.below {x : Act} {rest : List Act} (h : Stacked (x :: rest)) :
    ∀ l ∈ rest.flatMap Act.holds, l.mutex = .writeMu ∨
      l = ⟨x.side.peer, .responseMu⟩ ∧ ∃ hd, x.pc = .handle hd ∧ hd.Handles .frameAck := by
  induction rest generalizing x with
  | nil => intro l hl; cases hl
  | cons y rest ih =>
    obtain ⟨⟨k, hd, hx, hk, hy⟩, hside, hrest⟩ := h
    intro l hl
    rw [List.flatMap_cons, List.mem_append] at hl
    rcases hl with hl | hl
    · obtain ⟨m, hm, rfl⟩ := List.mem_map.mp hl
      rcases Pc.holds_of_sends hy with ⟨rfl, he⟩ | ⟨_, he, _⟩ | ⟨_, he, _⟩ | he
      · rw [he] at hm
        exact .inr ⟨by rw [List.mem_singleton.mp hm, hside, Side.peer_peer], hd, hx, hk⟩
      · rw [he] at hm
        exact .inl (List.mem_singleton.mp hm)
      · rw [he] at hm
        cases hm
      · rw [he] at hm
        cases hm
    · -- a call that answers a frame was itself called by a `Write` or a `Resume`
      rcases ih hrest l hl with hw | ⟨_, hd', hy', hk'⟩
      · exact .inl hw
      · rw [hy'] at hy
        cases hd' <;> cases hy
        · cases hk'
        · rcases hk' with hk' | hk' <;> cases hk'

theorem HandlePc.wants_of_ack {h : HandlePc} {m : Mutex} (hw : h.wants = some m) :
    m ≠ .writeMu ∧ (h.Handles .frameAck → m ≠ .responseMu) := by
  cases h with
  | terminate pc => cases pc <;> cases hw; exact ⟨by decide, fun _ => by decide⟩
  | _ => cases hw <;> simp [HandlePc.Handles]

/-- A thread waits only above what it holds, except for `responseMu` of `x`. -/
theorem rank_lt {x₀ : Side} {x : Act} {rest : List Act} {l l' : Lock} (h : Stacked (x :: rest))
    (hw : x.wants = some l) (hne : l ≠ ⟨x₀, .responseMu⟩) (hl : l' ∈ (x :: rest).flatMap Act.holds) :
    rank x₀ l' < rank x₀ l := by
  obtain ⟨m, hm, rfl⟩ := Option.map_eq_some_iff.mp hw
  rw [List.flatMap_cons, List.mem_append] at hl
  rcases hl with hl | hl
  · obtain ⟨m', hm', rfl⟩ := List.mem_map.mp hl
    rcases Pc.wants_last hm m' hm' with ⟨rfl, hmu⟩ | ⟨rfl, rfl⟩
    · cases m' <;> simp [rank] at hmu ⊢ <;> split <;> decide
    · have hs : x.side ≠ x₀ := fun e => hne (by rw [e])
      simp [rank, hs]
  · cases rest with
    | nil => cases hl
    | cons y rest =>
      obtain ⟨⟨_, hd, hx, _, _⟩, _, _⟩ := id h
      rw [hx] at hm
      obtain ⟨hnw, hnr⟩ := HandlePc.wants_of_ack hm
      rcases h.below l' hl with hwr | ⟨rfl, hd', hx', hk⟩
      · cases m <;> simp [rank, hwr] at hnw ⊢ <;> split <;> decide
      · rw [hx] at hx'
        cases hx'
        have hnr := hnr hk
        by_cases e : x.side = x₀
        · cases m <;> simp [rank, e] at hnw hnr ⊢
        · have hp : x.side.peer = x₀ := (Side.eq_peer_of_ne (Ne.symm e)).symm
          cases m <;> simp [rank, e, hp] at hnw hnr ⊢

/-! ## One Ack at a time -/

theorem Pc.holds_of_wants_response {pc : Pc} (h : pc.wants = some .responseMu) : .handleMu ∈ pc.holds := by
  cases pc with
  | read pc => cases pc <;> cases h; exact List.mem_cons_self
  | write pc => cases pc <;> cases h
  | resume pc => cases pc <;> cases h
  | close pc =>
    cases pc with
    | terminate epoch pc => cases pc <;> cases h
    | _ => cases h
  | handle pc =>
    cases pc with
    | terminate pc => cases pc <;> cases h
    | _ => cases h <;> exact List.mem_cons_self

/-- A call comes to `responseMu` by the step that makes its Ack, in which it locks nothing. -/
theorem pcStep_wants_response {e e' : StreamEnd} {sent : Option StreamError} {how : Choice} {pc pc' : Pc} {n : Next Pc}
    (h : pcStep e sent how pc = some (e', n)) (hn : n.pc? = some pc') (hw : pc'.wants = some .responseMu) :
    pc.makesAck = true ∧ pc.wants = none := by
  cases pc with
  | read pc =>
    obtain ⟨⟨e₁, n₁⟩, hs, he⟩ := Option.map_eq_some_iff.mp h
    cases he
    cases pc <;> simp only [readStep] at hs <;> (repeat' split at hs) <;> cases hs <;> cases hn <;> cases hw
    exact ⟨rfl, rfl⟩
  | write pc =>
    obtain ⟨⟨e₁, n₁⟩, hs, he⟩ := Option.map_eq_some_iff.mp h
    cases he
    cases pc <;> simp only [writeStep] at hs <;> (repeat' split at hs) <;> cases hs <;> cases hn <;> cases hw
  | resume pc =>
    obtain ⟨⟨e₁, n₁⟩, hs, he⟩ := Option.map_eq_some_iff.mp h
    cases he
    cases pc <;> simp only [resumeStep] at hs <;> (repeat' split at hs) <;> cases hs <;> cases hn <;> cases hw
  | close pc =>
    obtain ⟨⟨e₁, n₁⟩, hs, he⟩ := Option.map_eq_some_iff.mp h
    cases he
    cases n₁ <;> cases hn <;> rename_i pc₁ <;> cases pc₁ <;> try cases hw
    all_goals rename_i pc₁; cases pc₁ <;> cases hw
  | handle pc =>
    obtain ⟨⟨e₁, n₁⟩, hs, he⟩ := Option.map_eq_some_iff.mp h
    cases he
    cases pc with
    | terminate pc =>
      obtain ⟨⟨e₂, _ | pc₂⟩, _, he⟩ := Option.map_eq_some_iff.mp hs <;> cases he <;> cases hn
      · cases hw
      · cases pc₂ <;> cases hw
    | _ =>
      simp only [handleStep, enterStep, dispatchStep, acknowledgeStep] at hs
      (repeat' split at hs) <;> cases hs <;> cases hn <;> cases hw <;> exact ⟨rfl, rfl⟩

/-- No call is about to lock `responseMu` of `x` while it is held. -/
def AckFree (x : Side) (s : Sys) : Prop := ∀ w ∈ s.acts, w.wants = some ⟨x, .responseMu⟩ → ⟨x, .responseMu⟩ ∉ s.held

theorem wants_side {x : Act} {y : Side} {m : Mutex} (h : x.wants = some ⟨y, m⟩) : x.side = y ∧ x.pc.wants = some m := by
  obtain ⟨m', hm, he⟩ := Option.map_eq_some_iff.mp h
  cases he
  exact ⟨rfl, hm⟩

/-- What is held after a step was held before it, or is what the call was about to lock. -/
theorem Moves.held {s s' : Sys} {i : Nat} {how : Choice} (mv : Moves s s' i how) {l : Lock} (h : l ∈ s'.held) :
    l ∈ s.held ∨ mv.x.wants = some l := by
  by_cases e : mv.x.wants = some l
  · exact .inr e
  refine .inl ?_
  rw [Sys.held, mv.acts', List.flatMap_append, List.flatMap_append, List.mem_append, List.mem_append] at h
  rw [Sys.held, mv.acts, List.flatMap_append, List.flatMap_cons, List.mem_append, List.mem_append]
  rcases h with (h | h) | h
  · exact .inl h
  · have hc := mv.takes l
    have hw : mv.x.wants.toList.count l = 0 := List.count_eq_zero.mpr (by simpa using e)
    have := List.one_le_count_iff.mpr h
    rw [List.count_append] at hc
    exact .inr (.inl (List.one_le_count_iff.mp (by omega)))
  · exact .inr (.inr h)

theorem step_ackFree {x : Side} {s s' : Sys} {m : Move} (hx : Exclusive Act.holds s.acts) (h : AckFree x s)
    (hm : OneAck x s m = true) (hs : s.step m = some s') : AckFree x s' := by
  rcases step_cases hs with ⟨y, c, _, hc⟩ | ⟨i, how, rfl, ⟨mv⟩⟩
  · have hheld : s'.held = s.held := by
      rw [Sys.held, hc.acts', List.flatMap_append]
      cases c <;> simp only [Call.start] <;> (try split) <;> exact List.append_nil _
    intro w hw hwant
    rw [hheld]
    rw [hc.acts'] at hw
    rcases List.mem_append.mp hw with hw | hw
    · exact h w hw hwant
    · obtain ⟨pc, hpc, rfl⟩ := Option.map_eq_some_iff.mp (Option.mem_toList.mp hw)
      have hw' := (wants_side hwant).2
      cases c <;> simp only [Call.start] at hpc <;> (try split at hpc) <;> cases hpc <;> cases hw'
  · intro w hw hwant hheld
    obtain ⟨hside, hwpc⟩ := wants_side hwant
    rcases mv.mem_cases hw with hw | hw
    · rcases mv.held hheld with hbefore | htake
      · exact h w (mv.mem_others hw) hwant hbefore
      · -- the call that takes `responseMu` and the one waiting for it would both hold `handleMu`
        obtain ⟨hxs, hxpc⟩ := wants_side htake
        exact mv.alone hx hw (hside.trans hxs.symm) (Pc.holds_of_wants_response hxpc)
          (Pc.holds_of_wants_response hwpc)
    · obtain ⟨n, pc, hp, hn, hwe⟩ := mv.new_wants hw (by rw [hwpc]; simp)
      have hwpc' : pc.wants = some .responseMu := by rw [hwe] at hwpc; exact hwpc
      obtain ⟨hack, hnone⟩ := pcStep_wants_response hp hn hwpc'
      have hxs : mv.x.side = x := by rw [hwe] at hside; exact hside
      rcases mv.held hheld with hbefore | htake
      · simp [OneAck, mv.thread, hxs, hack, hbefore] at hm
      · rw [(wants_side htake).2] at hnone
        cases hnone

theorem waiting_stack {s : Sys} {t : Nat} {l : Lock} (h : s.waiting t = some l) :
    ∃ x rest sent, s.threads[t]? = some ⟨x :: rest, sent⟩ ∧ x.wants = some l ∧
      s.locks t = (x :: rest).flatMap Act.holds := by
  obtain ⟨⟨stack, sent⟩, ht, hw⟩ := Option.bind_eq_some_iff.mp h
  cases stack with
  | nil => cases hw
  | cons x rest => exact ⟨x, rest, sent, ht, hw, by simp [Sys.locks, ht]⟩

theorem mem_acts {s : Sys} {t : Nat} {th : Thread} (ht : s.threads[t]? = some th) {x : Act} (hx : x ∈ th.stack) :
    x ∈ s.acts := List.mem_flatMap.mpr ⟨th, List.mem_of_getElem? ht, hx⟩

theorem mem_held_of_locks {s : Sys} {t : Nat} {l : Lock} (h : l ∈ s.locks t) : l ∈ s.held := by
  unfold Sys.locks at h
  cases ht : s.threads[t]? with
  | none => simp [ht] at h
  | some th =>
    simp only [ht, Option.map_some, Option.getD_some] at h
    obtain ⟨x, hx, hl⟩ := List.mem_flatMap.mp h
    exact List.mem_flatMap.mpr ⟨x, mem_acts ht hx, hl⟩

/-- With synchronous sends, and at one end no Ack made while another is being sent, no set
    of threads waits for mutexes held among them. -/
theorem no_deadlock {id : StreamID} {window : Side → UInt64} {maxFrameSize : Side → Nat} {accepted : Side → Bool}
    (x : Side) {s : Sys}
    (h : Reach Sys.step (fun s m => Synchronous m = true ∧ OneAck x s m = true)
      (fun s => s = Sys.new id window maxFrameSize accepted) s) (ts : Finset Nat) : ¬ s.Deadlocked ts := by
  have hx : Exclusive Act.holds s.acts := exclusive (fun _ hi => by rw [hi]; rfl) h
  have hnested : ∀ th ∈ s.threads, Nested th := by
    refine h.keeps (P := fun s => ∀ th ∈ s.threads, Nested th) ?_ fun _ _ _ _ hp hm hs => step_nested hp hm.1 hs
    intro s hs th hth
    rw [hs] at hth
    cases hth
  have hfree : AckFree x s := by
    refine h.keeps (P := AckFree x) ?_ ?_
    · intro s hs w hw
      rw [hs] at hw
      cases hw
    · intro s m t hr hp hm hs
      exact step_ackFree (exclusive (fun _ hi => by rw [hi]; rfl) hr) hp hm.2 hs
  intro hd
  have hne : ∀ t ∈ ts, s.waiting t ≠ some ⟨x, .responseMu⟩ := by
    intro t ht hw
    obtain ⟨l, hl, u, _, _, hu⟩ := hd.2 t ht
    obtain ⟨y, rest, sent, hth, hy, _⟩ := waiting_stack hw
    rw [hw] at hl
    cases hl
    exact hfree y (mem_acts hth List.mem_cons_self) hy (mem_held_of_locks hu)
  refine no_circular_wait (rank x) ?_ hd
  intro t ht l l' hw hl
  obtain ⟨y, rest, sent, hth, hy, hlocks⟩ := waiting_stack hw
  rw [hlocks] at hl
  have hn := hnested _ (List.mem_of_getElem? hth)
  exact rank_lt hn.1 hy (fun e => hne t ht (by rw [hw, e])) hl

/-- A byte each way is buffered; then on each end a `Read` is sending its Ack and a `Write`
    has its frame handled at the other end. -/
def ackCycle : List Move := List.flatten
  [[.call .a (.write [1])], runs 0 27 .sync, [.call .b (.write [2])], runs 1 27 .sync,
    [.call .a (.read 1)], runs 2 7 .sync, [.call .b (.read 1)], runs 3 7 .sync,
    [.call .a (.write [3])], runs 4 14 .sync, [.call .b (.write [4])], runs 5 14 .sync, runs 2 2 .sync, runs 3 2 .sync]

/-- Reader and writer of both ends wait for one another. -/
theorem acks_deadlock : ∃ s, Reach Sys.step (fun _ m => Synchronous m = true) (fun s => s = samplePair 8) s ∧
    s.Deadlocked {2, 3, 4, 5} := by
  have h : ((exec (guarded Sys.step fun _ m => Synchronous m = true) (samplePair 8) ackCycle).any fun s =>
      s.waiting 2 = some ⟨.b, .handleMu⟩ ∧ ⟨.b, .handleMu⟩ ∈ s.locks 4 ∧
      s.waiting 4 = some ⟨.b, .responseMu⟩ ∧ ⟨.b, .responseMu⟩ ∈ s.locks 3 ∧
      s.waiting 3 = some ⟨.a, .handleMu⟩ ∧ ⟨.a, .handleMu⟩ ∈ s.locks 5 ∧
      s.waiting 5 = some ⟨.a, .responseMu⟩ ∧ ⟨.a, .responseMu⟩ ∈ s.locks 2) = true := by
    decide +kernel
  obtain ⟨s, hs, hw⟩ := reach_any (I := fun s => s = samplePair 8) _ (.init rfl) h
  simp only [decide_eq_true_eq] at hw
  obtain ⟨w2, l2, w4, l4, w3, l3, w5, l5⟩ := hw
  refine ⟨s, hs, ⟨2, by decide⟩, ?_⟩
  intro t ht
  fin_cases ht
  · exact ⟨_, w2, 4, by decide, by decide, l2⟩
  · exact ⟨_, w3, 5, by decide, by decide, l3⟩
  · exact ⟨_, w4, 3, by decide, by decide, l4⟩
  · exact ⟨_, w5, 2, by decide, by decide, l5⟩

/-- A `Write` whose Data is being handled while a `Read` of the other end waits for it. -/
theorem no_deadlock_write : ∃ s : Sys, s.waiting 1 = some ⟨.b, .handleMu⟩ ∧ ⟨.b, .handleMu⟩ ∈ s.locks 2 ∧
    ∀ ts, ¬ s.Deadlocked ts := by
  have h : ((exec (guarded Sys.step fun s m => Synchronous m = true ∧ OneAck .a s m = true) (samplePair 8)
      (List.flatten [[.call .a (.write [1])], runs 0 27 .sync, [.call .b (.read 1)], runs 1 2 .sync,
        [.call .a (.write [3])], runs 2 10 .sync])).any fun s =>
      s.waiting 1 = some ⟨.b, .handleMu⟩ ∧ ⟨.b, .handleMu⟩ ∈ s.locks 2) = true := by
    decide +kernel
  obtain ⟨s, hs, hw⟩ := reach_any (I := fun s => s = samplePair 8) _ (.init rfl) h
  simp only [decide_eq_true_eq] at hw
  exact ⟨s, hw.1, hw.2, no_deadlock .a hs⟩

end Turntf.Stream
