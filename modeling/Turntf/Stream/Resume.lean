/-
  Turntf.Stream.Resume — one direction of a stream over a path that loses, repeats and
  reorders: a `StreamSenderState`, a `StreamReceiverState`, and every frame, ack and
  resume request either has produced (`stream_protocol.go`).

  Any of these may reach the other side any number of times, in any order, or never. A
  rejected call changes nothing. A resume exchange starts with `sender.Resume` at an
  offset the receiver has acknowledged; the receiver gets the same epoch and offset.

  - `joined`: in every state so reached, `acked ≤ offset ≤ next ≤ acked + window`, the
    pending frames retain the written bytes, and the receiver has delivered exactly the
    first `offset` of them.
  - `resume_recovers`: from every such state one exchange under the next epoch, with
    nothing lost, brings the receiver to `next` with all written bytes delivered.
-/

import Turntf.Lib.Lts
import Turntf.Stream.Retention

namespace Turntf.Stream

open Segment Lts

structure Link where
  sender : StreamSenderState
  receiver : StreamReceiverState
  /-- The payloads of the successful `data` calls, put together. -/
  written : Bytes
  /-- What `accept` returned, put together. -/
  delivered : Bytes
  frames : List StreamFrame
  acks : List StreamFrame
  /-- Epoch and offset of each resume the sender started. -/
  resumes : List (UInt64 × UInt64)

def Link.new (id : StreamID) (epoch window : UInt64) : Link :=
  ⟨newStreamSenderState id epoch window, newStreamReceiverState id epoch window, [], [], [], [], []⟩

inductive LinkAct where
  | data (payload : Bytes)
  | accept (frame : StreamFrame)
  | acknowledge (ack : StreamFrame)
  | resumeSender (epoch offset : UInt64)
  | resumeReceiver (epoch offset : UInt64)

def Link.step (l : Link) : LinkAct → Option Link
  | .data p => some <| match l.sender.data p with
    | .ok (f, s) => { l with sender := s, written := l.written ++ p, frames := l.frames ++ [f] }
    | .error _ => l
  | .accept f =>
    if f ∈ l.frames then some <| match l.receiver.accept f with
      | .ok (p, a, r) => { l with receiver := r, delivered := l.delivered ++ p, acks := l.acks ++ [a] }
      | .error _ => l
    else none
  | .acknowledge a =>
    if a ∈ l.acks then some <| match l.sender.acknowledge a.epoch a.offset a.window with
      | .ok s => { l with sender := s }
      | .error _ => l
    else none
  | .resumeSender e o =>
    if o = l.sender.acked ∨ o ∈ l.acks.map (·.offset) then some <| match l.sender.resume e o with
      | .ok (fs, s) => { l with sender := s, frames := l.frames ++ fs, resumes := l.resumes ++ [(e, o)] }
      | .error _ => l
    else none
  | .resumeReceiver e o =>
    if (e, o) ∈ l.resumes then some <| match l.receiver.resume e o with
      | .ok (a, r) => { l with receiver := r, acks := l.acks ++ [a] }
      | .error _ => l
    else none

/-- A call that returned no error. -/
inductive Link.Moved (l : Link) : Link → Prop
  | data {p : Bytes} {f : StreamFrame} {s : StreamSenderState} (h : l.sender.data p = .ok (f, s)) :
      Moved l { l with sender := s, written := l.written ++ p, frames := l.frames ++ [f] }
  | accept {f a : StreamFrame} {p : Bytes} {r : StreamReceiverState} (hf : f ∈ l.frames)
      (h : l.receiver.accept f = .ok (p, a, r)) :
      Moved l { l with receiver := r, delivered := l.delivered ++ p, acks := l.acks ++ [a] }
  | acknowledge {a : StreamFrame} {s : StreamSenderState} (ha : a ∈ l.acks)
      (h : l.sender.acknowledge a.epoch a.offset a.window = .ok s) : Moved l { l with sender := s }
  | resumeSender {e o : UInt64} {fs : List StreamFrame} {s : StreamSenderState}
      (ho : o = l.sender.acked ∨ o ∈ l.acks.map (·.offset)) (h : l.sender.resume e o = .ok (fs, s)) :
      Moved l { l with sender := s, frames := l.frames ++ fs, resumes := l.resumes ++ [(e, o)] }
  | resumeReceiver {e o : UInt64} {a : StreamFrame} {r : StreamReceiverState} (hm : (e, o) ∈ l.resumes)
      (h : l.receiver.resume e o = .ok (a, r)) : Moved l { l with receiver := r, acks := l.acks ++ [a] }

/-- With an error nothing changes. -/
theorem Link.step_moved {l l' : Link} {a : LinkAct} (hs : l.step a = some l') : l' = l ∨ l.Moved l' := by
  cases a with
  | data p =>
    simp only [Link.step, Option.some.injEq] at hs
    subst hs
    split
    · rename_i h
      exact .inr (.data h)
    · exact .inl rfl
  | accept f =>
    simp only [Link.step] at hs
    split at hs
    · rename_i hf
      simp only [Option.some.injEq] at hs
      subst hs
      split
      · rename_i h
        exact .inr (.accept hf h)
      · exact .inl rfl
    · cases hs
  | acknowledge a =>
    simp only [Link.step] at hs
    split at hs
    · rename_i ha
      simp only [Option.some.injEq] at hs
      subst hs
      split
      · rename_i h
        exact .inr (.acknowledge ha h)
      · exact .inl rfl
    · cases hs
  | resumeSender e o =>
    simp only [Link.step] at hs
    split at hs
    · rename_i ho
      simp only [Option.some.injEq] at hs
      subst hs
      split
      · rename_i h
        exact .inr (.resumeSender ho h)
      · exact .inl rfl
    · cases hs
  | resumeReceiver e o =>
    simp only [Link.step] at hs
    split at hs
    · rename_i hm
      simp only [Option.some.injEq] at hs
      subst hs
      split
      · rename_i h
        exact .inr (.resumeReceiver hm h)
      · exact .inl rfl
    · cases hs

/-! ## The joint invariant -/

structure Joined (l : Link) : Prop where
  retains : Retains l.sender l.written
  delivered : l.delivered = l.written.take l.receiver.offset.toNat
  offset : l.receiver.offset.toNat ≤ l.written.length
  acked : l.sender.acked.toNat ≤ l.receiver.offset.toNat
  frames : ∀ f ∈ l.frames, InStream l.written f
  acks : ∀ a ∈ l.acks, a.offset.toNat ≤ l.receiver.offset.toNat ∧ a.window = l.receiver.window
  epoch : l.receiver.epoch ≤ l.sender.epoch
  resumes : ∀ x ∈ l.resumes, x.1 ≤ l.sender.epoch
  window : l.sender.window = l.receiver.window
  credit : l.written.length ≤ l.sender.acked.toNat + l.sender.window.toNat
  id : l.sender.id = l.receiver.id

/-- The bytes written and the window together stay below `2^64`. -/
def Fits (l : Link) : Prop := l.written.length + l.receiver.window.toNat < 2 ^ 64

theorem new_joined (id : StreamID) (epoch window : UInt64) : Joined (Link.new id epoch window) where
  retains := new_retains id epoch window
  delivered := rfl
  offset := Nat.le_refl 0
  acked := Nat.le_refl 0
  frames := fun _ h => by cases h
  acks := fun _ h => by cases h
  epoch := UInt64.le_refl epoch
  resumes := fun _ h => by cases h
  window := rfl
  credit := Nat.zero_le _
  id := rfl

theorem data_joined {l : Link} {p : Bytes} {f : StreamFrame} {s : StreamSenderState} (h : Joined l)
    (hd : l.sender.data p = .ok (f, s)) (hn : (l.written ++ p).length < 2 ^ 64) :
    Joined { l with sender := s, written := l.written ++ p, frames := l.frames ++ [f] } := by
  obtain ⟨hr, hf⟩ := data_retains h.retains hd hn
  obtain ⟨_, _, hw, _, hs⟩ := data_ok hd
  have hlen : (l.written ++ p).length = l.written.length + p.length := List.length_append
  have hack := h.retains.acked
  have hnext := h.retains.next
  have hle : l.sender.acked ≤ l.sender.next := UInt64.le_iff_toNat_le.mpr (by omega)
  subst hs
  refine ⟨hr, ?_, ?_, h.acked, ?_, h.acks, h.epoch, h.resumes, h.window, ?_, h.id⟩
  · show l.delivered = _
    rw [List.take_append_of_le_length h.offset]
    exact h.delivered
  · have := h.offset
    show l.receiver.offset.toNat ≤ (l.written ++ p).length
    omega
  · intro g hg
    rcases List.mem_append.mp hg with hg | hg
    · exact (h.frames g hg).grow p
    · rw [List.mem_singleton.mp hg]; exact hf
  · -- the window check, read in the naturals: nothing wraps below `2^64`
    rw [UInt64.le_iff_toNat_le, UInt64.toNat_add, UInt64.toNat_sub_of_le _ _ hle,
      toNat_len64 (by omega)] at hw
    show (l.written ++ p).length ≤ l.sender.acked.toNat + l.sender.window.toNat
    omega

theorem accept_joined {l : Link} {f a : StreamFrame} {p : Bytes} {r : StreamReceiverState} (h : Joined l)
    (hf : f ∈ l.frames) (ha : l.receiver.accept f = .ok (p, a, r)) :
    Joined { l with receiver := r, delivered := l.delivered ++ p, acks := l.acks ++ [a] } := by
  obtain ⟨hmono, hle, hext⟩ := accept_extends h.retains.length_lt (h.frames f hf) h.offset ha
  obtain ⟨_, _, _, _, _, _, hr, hak⟩ := accept_shape ha
  have hwin : r.window = l.receiver.window := by rw [hr]
  refine ⟨h.retains, ?_, hle, Nat.le_trans h.acked hmono, h.frames, ?_, ?_, h.resumes, ?_, h.credit, ?_⟩
  · show l.delivered ++ p = l.written.take r.offset.toNat
    rw [h.delivered, hext]
  · intro b hb
    rcases List.mem_append.mp hb with hb | hb
    · obtain ⟨h1, h2⟩ := h.acks b hb
      exact ⟨Nat.le_trans h1 hmono, by rw [h2, hwin]⟩
    · rw [List.mem_singleton.mp hb, hak]
      exact ⟨Nat.le_refl _, rfl⟩
  · show r.epoch ≤ l.sender.epoch
    rw [hr]; exact h.epoch
  · show l.sender.window = r.window
    rw [hwin]; exact h.window
  · show l.sender.id = r.id
    rw [hr]; exact h.id

theorem acknowledge_joined {l : Link} {a : StreamFrame} {s : StreamSenderState} (h : Joined l) (ha : a ∈ l.acks)
    (hs : l.sender.acknowledge a.epoch a.offset a.window = .ok s) : Joined { l with sender := s } := by
  obtain ⟨_, hlo, hhi, he⟩ := acknowledge_ok hs
  obtain ⟨hoff, hwin⟩ := h.acks a ha
  rw [UInt64.le_iff_toNat_le] at hlo
  have hsw : s.window = l.sender.window := by
    rw [he]
    show (if a.window > 0 then a.window else l.sender.window) = _
    split
    · rw [hwin, h.window]
    · rfl
  have hret := acknowledge_retains h.retains hs
  refine ⟨hret, h.delivered, h.offset, ?_, h.frames, h.acks, ?_, ?_, ?_, ?_, ?_⟩
  · rw [he]; exact hoff
  · rw [he]; exact h.epoch
  · rw [he]; exact h.resumes
  · show s.window = _
    rw [hsw]; exact h.window
  · have := h.credit
    show l.written.length ≤ s.acked.toNat + s.window.toNat
    rw [hsw, he]
    show l.written.length ≤ a.offset.toNat + l.sender.window.toNat
    omega
  · rw [he]; exact h.id

theorem resumeSender_joined {l : Link} {e o : UInt64} {fs : List StreamFrame} {s : StreamSenderState} (h : Joined l)
    (ho : o = l.sender.acked ∨ o ∈ l.acks.map (·.offset)) (hr : l.sender.resume e o = .ok (fs, s)) :
    Joined { l with sender := s, frames := l.frames ++ fs, resumes := l.resumes ++ [(e, o)] } := by
  obtain ⟨hep, hlo, _, _, hs⟩ := resume_ok hr
  rw [UInt64.le_iff_toNat_le] at hlo
  have hret := resume_retains h.retains hr
  have hfs : s.pending = fs := by rw [hs]
  have hoff : o.toNat ≤ l.receiver.offset.toNat := by
    rcases ho with rfl | ho
    · exact h.acked
    · obtain ⟨a, ha, rfl⟩ := List.mem_map.mp ho
      exact (h.acks a ha).1
  refine ⟨hret, h.delivered, h.offset, ?_, ?_, h.acks, ?_, ?_, ?_, ?_, ?_⟩
  · rw [hs]; exact hoff
  · intro f hf
    rcases List.mem_append.mp hf with hf | hf
    · exact h.frames f hf
    · exact hret.pending_at f (by rw [hfs]; exact hf)
  · rw [hs]; exact UInt64.le_trans h.epoch (UInt64.le_of_lt hep)
  · intro x hx
    rw [hs]
    show x.1 ≤ e
    rcases List.mem_append.mp hx with hx | hx
    · exact UInt64.le_trans (h.resumes x hx) (UInt64.le_of_lt hep)
    · rw [List.mem_singleton.mp hx]; exact UInt64.le_refl _
  · rw [hs]; exact h.window
  · have := h.credit
    rw [hs]
    show l.written.length ≤ o.toNat + l.sender.window.toNat
    omega
  · rw [hs]; exact h.id

theorem resumeReceiver_joined {l : Link} {e o : UInt64} {a : StreamFrame} {r : StreamReceiverState} (h : Joined l)
    (hm : (e, o) ∈ l.resumes) (hr : l.receiver.resume e o = .ok (a, r)) :
    Joined { l with receiver := r, acks := l.acks ++ [a] } := by
  obtain ⟨_, _, rfl, rfl⟩ := receiver_resume_ok hr
  refine ⟨h.retains, h.delivered, h.offset, h.acked, h.frames, ?_, h.resumes (e, o) hm, h.resumes, h.window,
    h.credit, h.id⟩
  intro b hb
  rcases List.mem_append.mp hb with hb | hb
  · exact h.acks b hb
  · rw [List.mem_singleton.mp hb]
    exact ⟨Nat.le_refl _, rfl⟩

theorem step_joined {l l' : Link} (a : LinkAct) (h : Joined l) (hs : l.step a = some l') (hf : Fits l') :
    Joined l' := by
  rcases Link.step_moved hs with rfl | hm
  · exact h
  · cases hm with
    | @data p f s hd =>
      refine data_joined h hd ?_
      have : (l.written ++ p).length + l.receiver.window.toNat < 2 ^ 64 := hf
      omega
    | accept hmem ha => exact accept_joined h hmem ha
    | acknowledge hmem ha => exact acknowledge_joined h hmem ha
    | resumeSender ho hr => exact resumeSender_joined h ho hr
    | resumeReceiver hmem hr => exact resumeReceiver_joined h hmem hr

/-- The written bytes only grow and the window stays, so a state that fits was reached
    through states that fit. -/
theorem step_fits {l l' : Link} (a : LinkAct) (hs : l.step a = some l') (hf : Fits l') : Fits l := by
  rcases Link.step_moved hs with rfl | hm
  · exact hf
  · cases hm with
    | @data p f s hd =>
      have : (l.written ++ p).length + l.receiver.window.toNat < 2 ^ 64 := hf
      rw [List.length_append] at this
      unfold Fits
      omega
    | accept _ ha =>
      obtain ⟨_, _, _, _, _, _, hx, _⟩ := accept_shape ha
      unfold Fits at hf ⊢
      rw [hx] at hf
      exact hf
    | acknowledge | resumeSender => exact hf
    | resumeReceiver _ hr =>
      obtain ⟨_, _, hx, _⟩ := receiver_resume_ok hr
      unfold Fits at hf ⊢
      rw [hx] at hf
      exact hf

theorem joined {id : StreamID} {epoch window : UInt64} {l : Link}
    (h : Reach Link.step free (fun l => l = Link.new id epoch window) l) (hf : Fits l) : Joined l := by
  refine h.keeps (P := fun l => Fits l → Joined l) ?_ ?_ hf
  · intro l hl _
    exact hl ▸ new_joined id epoch window
  · intro l a l' _ ih _ hs hf'
    exact step_joined a (ih (step_fits a hs hf')) hs hf'

/-! ## Recovery -/

/-- `accept` of the frames in order, each of which has to succeed: the bytes they added. -/
def acceptAll : StreamReceiverState → List StreamFrame → Except StreamError (Bytes × StreamReceiverState)
  | r, [] => .ok ([], r)
  | r, f :: fs =>
    match r.accept f with
    | .error e => .error e
    | .ok (p, _, r') => (acceptAll r' fs).map fun (q, r'') => (p ++ q, r'')

/-- A chain of frames of the receiver's epoch that starts at or before its offset and ends
    within its window is accepted frame by frame, overlap included. -/
theorem acceptAll_chain {w : Bytes} {fs : List StreamFrame} {r : StreamReceiverState} {lo : Nat}
    (hc : Chain w lo w.length (fs.map piece))
    (hst : ∀ f ∈ fs, f.kind = .frameData ∧ f.id = r.id ∧ f.epoch = r.epoch) (hlo : lo ≤ r.offset.toNat)
    (hle : r.offset.toNat ≤ w.length) (hwin : w.length ≤ r.offset.toNat + r.window.toNat)
    (hn : w.length + r.window.toNat < 2 ^ 64) :
    ∃ out r', acceptAll r fs = .ok (out, r') ∧ r'.offset.toNat = w.length ∧ w.take r.offset.toNat ++ out = w := by
  induction fs generalizing r lo with
  | nil =>
    have he : lo = w.length := hc
    have ho : r.offset.toNat = w.length := by omega
    refine ⟨[], r, rfl, ho, ?_⟩
    rw [ho, List.take_length, List.append_nil]
  | cons f fs ih =>
    obtain ⟨hfo, hne, hat, hrest⟩ := hc
    replace hfo : f.offset.toNat = lo := hfo
    replace hat : At w lo f.payload := hat
    replace hrest : Chain w (lo + f.payload.length) w.length (fs.map piece) := hrest
    have hfl := hat.le_length
    obtain ⟨hk, hid, hep⟩ := hst f List.mem_cons_self
    have hcredit : f.stop ≤ r.offset + r.window := by
      rw [UInt64.le_iff_toNat_le, toNat_stop (by omega), UInt64.toNat_add]
      omega
    obtain ⟨p, a, r', ha⟩ := accept_succeeds hid hk hep (UInt64.le_iff_toNat_le.mpr (by omega)) hcredit
    obtain ⟨_, hle', hext⟩ := accept_extends (by omega) ⟨hne, by rw [hfo]; exact hat⟩ hle ha
    obtain ⟨_, _, hoff⟩ := accept_ok (by omega) ha
    obtain ⟨_, _, _, _, _, _, hr, _⟩ := accept_shape ha
    have hwr : r'.window = r.window := by rw [hr]
    obtain ⟨out, r'', hall, hend, htake⟩ := ih (r := r') hrest
      (fun g hg => by rw [hr]; exact hst g (List.mem_cons_of_mem _ hg))
      (by rw [hoff]; omega) hle' (by rw [hwr, hoff]; omega) (by rw [hwr]; exact hn)
    refine ⟨p ++ out, r'', ?_, hend, ?_⟩
    · simp only [acceptAll, ha, hall, Except.map]
    · rw [← List.append_assoc, hext, htake]

/-- From every state reached, one resume exchange under the next epoch and the frames it
    hands out bring the receiver to the end of what was written. -/
theorem resume_recovers {id : StreamID} {epoch window : UInt64} {l : Link}
    (h : Reach Link.step free (fun l => l = Link.new id epoch window) l) (hf : Fits l)
    (he : l.sender.epoch.toNat + 1 < 2 ^ 64) :
    ∃ fs s₁ ack r₁ s₂ out r₂,
      l.sender.resume (l.sender.epoch + 1) l.sender.acked = .ok (fs, s₁) ∧
      l.receiver.resume (l.sender.epoch + 1) l.sender.acked = .ok (ack, r₁) ∧
      s₁.acknowledge ack.epoch ack.offset ack.window = .ok s₂ ∧
      acceptAll r₁ fs = .ok (out, r₂) ∧
      r₂.offset = s₂.next ∧ l.delivered ++ out = l.written := by
  have hj := joined h hf
  have hlt : l.sender.epoch < l.sender.epoch + 1 := by
    rw [UInt64.lt_iff_toNat_lt, UInt64.toNat_add]
    show _ < (l.sender.epoch.toNat + 1) % 2 ^ 64
    omega
  have hnext := hj.retains.next
  have hoff := hj.offset
  have hack := hj.acked
  have hcredit := hj.credit
  have hbound : l.written.length + l.receiver.window.toNat < 2 ^ 64 := hf
  rw [hj.window] at hcredit
  obtain ⟨fs, s₁, hr⟩ := resume_succeeds hlt (UInt64.le_refl _) (UInt64.le_iff_toNat_le.mpr (by omega))
  obtain ⟨ack, r₁, hrr⟩ := receiver_resume_succeeds (UInt64.lt_of_le_of_lt hj.epoch hlt)
    (UInt64.le_iff_toNat_le.mpr hack)
  obtain ⟨_, _, _, _, hs₁⟩ := resume_ok hr
  obtain ⟨_, _, hr₁, hak⟩ := receiver_resume_ok hrr
  have hret := resume_retains hj.retains hr
  obtain ⟨s₂, hs₂⟩ := acknowledge_succeeds (s := s₁) (o := l.receiver.offset) l.receiver.window
    (by rw [hs₁]; exact UInt64.le_iff_toNat_le.mpr hack)
    (by rw [hs₁]; exact UInt64.le_iff_toNat_le.mpr (by rw [hnext]; exact hoff))
  obtain ⟨_, _, _, hs₂'⟩ := acknowledge_ok hs₂
  -- the frames are the new pending list: stamped with the epoch the receiver has just taken
  have hstamp : ∀ f ∈ fs, f.kind = .frameData ∧ f.id = r₁.id ∧ f.epoch = r₁.epoch := by
    intro f hf
    obtain ⟨hk, hid, hep⟩ := hret.stamp f (by rw [hs₁]; exact hf)
    rw [hr₁]
    rw [hs₁] at hid hep
    exact ⟨hk, by rw [hid]; exact hj.id, hep⟩
  have ho₁ : r₁.offset = l.receiver.offset := by rw [hr₁]
  have hw₁ : r₁.window = l.receiver.window := by rw [hr₁]
  obtain ⟨out, r₂, hall, hend, htake⟩ := acceptAll_chain (resume_frames hj.retains hr) hstamp
    (by rw [ho₁]; exact hack) (by rw [ho₁]; exact hoff) (by rw [ho₁, hw₁]; omega) (by rw [hw₁]; exact hbound)
  refine ⟨fs, s₁, ack, r₁, s₂, out, r₂, hr, hrr, ?_, hall, ?_, ?_⟩
  · rw [hak, hr₁]
    rw [hs₁] at hs₂ ⊢
    exact hs₂
  · apply UInt64.toNat.inj
    rw [hend, hs₂', hs₁]
    exact hnext.symm
  · rw [hj.delivered, ← ho₁, htake]

/-- The ack of the first frame and the whole second frame are lost; the exchange resends
    both frames. -/
theorem resume_recovers_lost : ∃ l : Link, l.delivered = [1, 2, 3] ∧ l.written = [1, 2, 3, 4, 5] ∧
    l.sender.acked = 0 ∧ ∃ fs s₁ ack r₁ s₂ out r₂,
      l.sender.resume (l.sender.epoch + 1) l.sender.acked = .ok (fs, s₁) ∧
      l.receiver.resume (l.sender.epoch + 1) l.sender.acked = .ok (ack, r₁) ∧
      s₁.acknowledge ack.epoch ack.offset ack.window = .ok s₂ ∧
      acceptAll r₁ fs = .ok (out, r₂) ∧
      r₂.offset = s₂.next ∧ l.delivered ++ out = l.written := by
  have h : ∃ l, exec Link.step (Link.new (Vector.replicate 16 7) 1 5)
      [.data [1, 2, 3], .accept { kind := .frameData, id := Vector.replicate 16 7, epoch := 1, payload := [1, 2, 3] },
        .data [4, 5]] = some l ∧
      l.delivered = [1, 2, 3] ∧ l.written = [1, 2, 3, 4, 5] ∧ l.sender.acked = 0 ∧ l.sender.epoch = 1 ∧
      l.receiver.window = 5 := ⟨_, rfl, rfl, rfl, rfl, rfl, rfl⟩
  obtain ⟨l, hl, hd, hw, ha, he, hwin⟩ := h
  refine ⟨l, hd, hw, ha, resume_recovers (reach_exec _ (.init rfl) hl) ?_ ?_⟩
  · unfold Fits
    rw [hw, hwin]
    decide
  · rw [he]
    decide

end Turntf.Stream
