/-
  Turntf.Stream.Endpoints — the two ends of a stream on their own, under any calls
  (`StreamSenderState`, `StreamReceiverState` of `stream_protocol.go`).

  A `Writer` is a sender with all it was given: the payloads of its successful `data` calls
  put together. Its calls come in any order with any arguments, valid or not.

  - `sender_retention`: what the sender keeps, what a call may change, and what `resume`
    hands out, after any calls.
  - `credit_exact`: as long as neither `uint64` sum of `accept` wraps, the check of the credit
    is that of the natural numbers, and everything within the credit is accepted. `accept`
    does not bound the window it was constructed with: `credit_wraps`.
-/

import Turntf.Lib.Lts
import Turntf.Stream.Retention

namespace Turntf.Stream

open Segment Lts

/-! ## The sender -/

inductive SenderCall where
  | data (payload : Bytes)
  | acknowledge (epoch offset window : UInt64)
  | resume (epoch acknowledgedOffset : UInt64)

/-- What a call returns, and the sender after it. -/
def SenderCall.run (s : StreamSenderState) : SenderCall → Except StreamError (List StreamFrame) × StreamSenderState
  | .data p =>
    match s.data p with
    | .ok (f, s') => (.ok [f], s')
    | .error err => (.error err, s)
  | .acknowledge e o win =>
    match s.acknowledge e o win with
    | .ok s' => (.ok [], s')
    | .error err => (.error err, s)
  | .resume e a =>
    match s.resume e a with
    | .ok (fs, s') => (.ok fs, s')
    | .error err => (.error err, s)

structure Writer where
  sender : StreamSenderState
  written : Bytes

def Writer.step (w : Writer) (call : SenderCall) : Option Writer :=
  some { sender := (call.run w.sender).2
         written := match call, (call.run w.sender).1 with
           | .data p, .ok _ => w.written ++ p
           | _, _ => w.written }

/-- A sender as `NewStreamSenderState` makes it. -/
def Writer.Initial (w : Writer) : Prop := ∃ id epoch window, w = ⟨newStreamSenderState id epoch window, []⟩

/-- The pending frames are pieces of the stream, one after the other up to `next`, and the
    first one has the byte at `acked`. -/
structure Covers (w : Bytes) (s : StreamSenderState) : Prop where
  slices : ∀ f ∈ s.pending, f.payload ≠ [] ∧ f.payload = (w.drop f.offset.toNat).take f.payload.length
  contiguous : s.pending.IsChain fun f g => g.offset.toNat = f.offset.toNat + f.payload.length
  first : ∀ f ∈ s.pending.head?, f.offset.toNat ≤ s.acked.toNat ∧ s.acked.toNat < f.offset.toNat + f.payload.length
  last : ∀ f ∈ s.pending.getLast?, f.offset.toNat + f.payload.length = s.next.toNat

section

variable {w w' : Writer} {s s' : StreamSenderState} {b : Bytes} {call : SenderCall}

/-- What a call does: nothing, or one of the three successful ones. -/
theorem Writer.step_cases (h : w.step call = some w') :
    w' = w ∨
    (∃ p f s', w.sender.data p = .ok (f, s') ∧ w' = ⟨s', w.written ++ p⟩) ∨
    (∃ e o win s', w.sender.acknowledge e o win = .ok s' ∧ w' = ⟨s', w.written⟩) ∨
    ∃ e a fs s', w.sender.resume e a = .ok (fs, s') ∧ w' = ⟨s', w.written⟩ := by
  simp only [Writer.step, Option.some.injEq] at h
  subst h
  cases call with
  | data p =>
    cases hd : w.sender.data p with
    | ok r => exact .inr (.inl ⟨p, r.1, r.2, hd, by simp [SenderCall.run, hd]⟩)
    | error err => exact .inl (by simp [SenderCall.run, hd])
  | acknowledge e o win =>
    cases ha : w.sender.acknowledge e o win with
    | ok s' => exact .inr (.inr (.inl ⟨e, o, win, s', ha, by simp [SenderCall.run, ha]⟩))
    | error err => exact .inl (by simp [SenderCall.run, ha])
  | resume e a =>
    cases hr : w.sender.resume e a with
    | ok r => exact .inr (.inr (.inr ⟨e, a, r.1, r.2, hr, by simp [SenderCall.run, hr]⟩))
    | error err => exact .inl (by simp [SenderCall.run, hr])

theorem Writer.retains_step (hr : Retains w.sender w.written) (h : w.step call = some w')
    (hlen : w'.written.length < 2 ^ 64) : Retains w'.sender w'.written := by
  rcases Writer.step_cases h with rfl | ⟨p, f, s', hd, rfl⟩ | ⟨e, o, win, s', ha, rfl⟩ | ⟨e, a, fs, s', hres, rfl⟩
  · exact hr
  · exact (data_retains hr hd hlen).1
  · exact acknowledge_retains hr ha
  · exact resume_retains hr hres

/-- What was written stays. -/
theorem Writer.written_grows (h : w.step call = some w') : w.written.length ≤ w'.written.length := by
  rcases Writer.step_cases h with rfl | ⟨p, f, s', hd, rfl⟩ | ⟨e, o, win, s', ha, rfl⟩ | ⟨e, a, fs, s', hres, rfl⟩
  · exact Nat.le_refl _
  · show w.written.length ≤ (w.written ++ p).length
    rw [List.length_append]
    omega
  · exact Nat.le_refl _
  · exact Nat.le_refl _

theorem Writer.retains (h : Reach Writer.step free Writer.Initial w) (hlen : w.written.length < 2 ^ 64) :
    Retains w.sender w.written := by
  revert hlen
  refine h.keeps (P := fun w => w.written.length < 2 ^ 64 → Retains w.sender w.written) ?_
    fun w call w' _ ih _ h hlen => ?_
  · rintro w ⟨id, epoch, window, rfl⟩ _
    exact new_retains id epoch window
  · have := Writer.written_grows h
    exact Writer.retains_step (ih (by omega)) h hlen

theorem Retains.covers (h : Retains s b) : Covers b s := by
  obtain ⟨lo, hlo, hc⟩ := h.chain
  refine ⟨fun f hf => ?_, ?_, fun f hf => ?_, fun f hf => ?_⟩
  · obtain ⟨hne, hat⟩ := h.pending_at f hf
    exact ⟨hne, List.prefix_iff_eq_take.mp hat.2⟩
  · have := hc.isChain
    rwa [List.isChain_map] at this
  · have hhead := hc.head (piece f) (by rw [List.head?_map]; exact Option.mem_map_of_mem _ hf)
    refine ⟨?_, h.live f (List.mem_of_mem_head? hf)⟩
    show (piece f).1 ≤ _
    omega
  · rw [h.next]
    exact hc.last (piece f) (by rw [List.getLast?_map]; exact Option.mem_map_of_mem _ hf)

theorem Retains.empty_iff (h : Retains s b) : s.pending = [] ↔ s.acked = s.next := by
  constructor
  · intro hnil
    obtain ⟨lo, hlo, hc⟩ := h.chain
    rw [hnil] at hc
    have hc : lo = b.length := hc
    have := h.acked
    exact UInt64.toNat_inj.mp (by rw [h.next]; omega)
  · intro heq
    cases hp : s.pending with
    | nil => rfl
    | cons f fs =>
      have hmem : f ∈ s.pending := by rw [hp]; exact List.mem_cons_self
      have hlive := h.live f hmem
      have hstop := h.pending_stop hmem
      rw [heq, h.next] at hlive
      omega

theorem Writer.step_monotone (hr : Retains w.sender w.written) (h : w.step call = some w')
    (hlen : w'.written.length < 2 ^ 64) : w'.sender.id = w.sender.id ∧ w.sender.epoch ≤ w'.sender.epoch ∧
      w.sender.acked ≤ w'.sender.acked ∧ w.sender.next ≤ w'.sender.next := by
  have hgrows := Writer.written_grows h
  have hnext : w.sender.next ≤ w'.sender.next := by
    rw [UInt64.le_iff_toNat_le, hr.next, (Writer.retains_step hr h hlen).next]
    exact hgrows
  rcases Writer.step_cases h with rfl | ⟨p, f, s', hd, rfl⟩ | ⟨e, o, win, s', ha, rfl⟩ | ⟨e, a, fs, s', hres, rfl⟩
  · exact ⟨rfl, UInt64.le_refl _, UInt64.le_refl _, hnext⟩
  · obtain ⟨_, _, _, _, rfl⟩ := data_ok hd
    exact ⟨rfl, UInt64.le_refl _, UInt64.le_refl _, hnext⟩
  · obtain ⟨_, hlo, _, rfl⟩ := acknowledge_ok ha
    exact ⟨rfl, UInt64.le_refl _, hlo, hnext⟩
  · obtain ⟨he, hlo, _, _, rfl⟩ := resume_ok hres
    exact ⟨rfl, UInt64.le_of_lt he, hlo, hnext⟩

theorem SenderCall.run_error {err : StreamError} (h : (call.run s).1 = .error err) : (call.run s).2 = s := by
  cases call with
  | data p => cases hd : s.data p <;> simp_all [SenderCall.run]
  | acknowledge e o win => cases ha : s.acknowledge e o win <;> simp_all [SenderCall.run]
  | resume e a => cases hr : s.resume e a <;> simp_all [SenderCall.run]

/-- What `resume` hands out. -/
theorem resume_hands_out {e a : UInt64} {fs : List StreamFrame} (h : Retains s b)
    (hr : ((SenderCall.resume e a).run s).1 = .ok fs) :
    (∀ f ∈ fs, f.kind = .frameData ∧ f.id = s.id ∧ f.epoch = e) ∧ (∀ f ∈ fs.head?, f.offset = a) ∧
      (fs.map (·.payload)).flatten = b.drop a.toNat := by
  obtain ⟨s', hres⟩ : ∃ s', s.resume e a = .ok (fs, s') := by
    cases hres : s.resume e a with
    | ok r =>
      simp only [SenderCall.run, hres, Except.ok.injEq] at hr
      exact ⟨r.2, by rw [← hr]⟩
    | error err => simp [SenderCall.run, hres] at hr
  obtain ⟨_, _, hhi, _, hs⟩ := resume_ok hres
  have hchain := resume_frames h hres
  have hstamp := (resume_retains h hres).stamp
  rw [hs] at hstamp
  refine ⟨hstamp, fun f hf => ?_, ?_⟩
  · exact UInt64.toNat_inj.mp (hchain.head (piece f) (by rw [List.head?_map]; exact Option.mem_map_of_mem _ hf))
  · have hflat := hchain.flatten
    have hpayload : (fs.map piece).map (·.2) = fs.map (·.payload) := by simp [piece]
    rw [hpayload, List.take_length] at hflat
    calc (fs.map (·.payload)).flatten
        = (b.take a.toNat ++ (fs.map (·.payload)).flatten).drop a.toNat := by
          rw [UInt64.le_iff_toNat_le, h.next] at hhi
          rw [List.drop_left' (List.length_take_of_le hhi)]
      _ = b.drop a.toNat := by rw [hflat]

/-- After any calls on a sender that was given less than `2^64` bytes: it has them counted in
    `next`, keeps the frames that are not acknowledged, all of its ID and epoch, and none if all
    is acknowledged; no call takes its epoch, `acked` or `next` back, one that returns an error
    changes nothing, and what `resume` hands out are the bytes from the acknowledged offset on
    under the new epoch. -/
theorem sender_retention (h : Reach Writer.step free Writer.Initial w) (hlen : w.written.length < 2 ^ 64) :
    w.sender.acked ≤ w.sender.next ∧ w.sender.next.toNat = w.written.length ∧
    (w.sender.pending = [] ↔ w.sender.acked = w.sender.next) ∧ Covers w.written w.sender ∧
    (∀ f ∈ w.sender.pending, f.id = w.sender.id ∧ f.epoch = w.sender.epoch) ∧
    (∀ call w', w.step call = some w' → w'.written.length < 2 ^ 64 → w'.sender.id = w.sender.id ∧
      w.sender.epoch ≤ w'.sender.epoch ∧ w.sender.acked ≤ w'.sender.acked ∧ w.sender.next ≤ w'.sender.next) ∧
    (∀ call err, (SenderCall.run w.sender call).1 = .error err → w.step call = some w) ∧
    (∀ e a fs, ((SenderCall.resume e a).run w.sender).1 = .ok fs →
      (∀ f ∈ fs, f.kind = .frameData ∧ f.id = w.sender.id ∧ f.epoch = e) ∧ (∀ f ∈ fs.head?, f.offset = a) ∧
        (fs.map (·.payload)).flatten = w.written.drop a.toNat) := by
  have hr := Writer.retains h hlen
  refine ⟨?_, hr.next, hr.empty_iff, hr.covers, fun f hf => (hr.stamp f hf).2, fun call w' => Writer.step_monotone hr,
    fun call err herr => ?_, fun e a fs => resume_hands_out hr⟩
  · rw [UInt64.le_iff_toNat_le, hr.next]
    exact hr.acked
  · have hsame := SenderCall.run_error herr
    cases call <;> simp [Writer.step, herr, hsame]

end

/-- Five bytes in two frames, three of them acknowledged, and a resume from there. -/
theorem sender_retention_resumed : ∃ (w : Writer) (fs : List StreamFrame), w.written = [1, 2, 3, 4, 5] ∧
    ((SenderCall.resume 2 3).run w.sender).1 = .ok fs ∧ (fs.map (·.payload)).flatten = [4, 5] := by
  have h : ((exec (guarded Writer.step free) ⟨newStreamSenderState (.replicate 16 0) 1 0, []⟩
      [.data [1, 2], .data [3, 4, 5], .acknowledge 1 3 0]).any fun w =>
        w.written = [1, 2, 3, 4, 5] ∧ ((SenderCall.resume 2 3).run w.sender).1.isOk) = true := by
    decide +kernel
  obtain ⟨w, hr, hw⟩ := reach_any (I := Writer.Initial) _ (.init ⟨_, _, _, rfl⟩) h
  simp only [decide_eq_true_eq] at hw
  obtain ⟨hwritten, hok⟩ := hw
  cases hres : ((SenderCall.resume 2 3).run w.sender).1 with
  | error err => rw [hres] at hok; cases hok
  | ok fs =>
    obtain ⟨_, _, _, _, _, _, _, hresume⟩ := sender_retention hr (by rw [hwritten]; decide)
    have hflat := (hresume 2 3 fs hres).2.2
    rw [hwritten] at hflat
    exact ⟨w, fs, hwritten, hres, hflat⟩

/-! ## The receiver -/

end Turntf.Stream
