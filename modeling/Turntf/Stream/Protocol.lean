/-
  Turntf.Stream.Protocol — stream frames and the two ends of one direction of a stream
  (`stream_protocol.go`).

  A sender numbers the bytes it is given (`data`), keeps each frame until the peer's
  cumulative acknowledgement passes its end (`acknowledge`), and after a path change
  stamps the rest with a new epoch and hands it out again (`resume`). A receiver accepts
  the frames of its epoch that start at or before its offset, keeps what is new of them
  (`accept`), and moves to a new epoch without giving up its offset (`resume`).

  The counters are the code's `uint64`, wrap-around included; the mutex of each state is
  held for a whole call, so each call is one step.
-/

import Mathlib.Algebra.Group.Nat.Defs
import Turntf.Types

namespace Turntf.Stream

abbrev StreamID := Vector UInt8 16

/-- A kind is a byte: the six named ones are 1 to 6, every other value is none of them. -/
inductive StreamFrameKind where
  | frameOpen
  | frameOpenAck
  | frameResume
  | frameData
  | frameAck
  | frameClose
  | other (code : { b : UInt8 // b < 1 ∨ 6 < b })
  deriving DecidableEq

structure StreamFrame where
  kind : StreamFrameKind
  id : StreamID
  epoch : UInt64 := 0
  offset : UInt64 := 0
  window : UInt64 := 0
  payload : Bytes := []
  deriving DecidableEq

/-- The package's error values; `text` is an `errors.New` made on the spot. -/
inductive StreamError where
  | windowFull
  | gap
  | epoch
  | credit
  | closed
  | unknown
  | eof
  | transport
  | text (message : String)
  deriving DecidableEq

def defaultStreamWindow : UInt64 := 2097152

def defaultStreamMaxFrame : Nat := 131072

/-- `uint64(len(payload))`. -/
def len64 (p : Bytes) : UInt64 := p.length.toUInt64

/-- `frame.Offset + uint64(len(frame.Payload))`. -/
def StreamFrame.stop (f : StreamFrame) : UInt64 := f.offset + len64 f.payload

structure StreamSenderState where
  id : StreamID
  epoch : UInt64
  next : UInt64
  acked : UInt64
  window : UInt64
  pending : List StreamFrame

def newStreamSenderState (id : StreamID) (epoch window : UInt64) : StreamSenderState :=
  { id, epoch, next := 0, acked := 0, window := if window = 0 then defaultStreamWindow else window, pending := [] }

namespace StreamSenderState

def data (s : StreamSenderState) (payload : Bytes) : Except StreamError (StreamFrame × StreamSenderState) :=
  if payload.length = 0 ∨ payload.length > defaultStreamMaxFrame then .error (.text "invalid stream data payload")
  else if s.next - s.acked + len64 payload > s.window then .error .windowFull
  else
    let frame : StreamFrame := { kind := .frameData, id := s.id, epoch := s.epoch, offset := s.next, payload }
    .ok (frame, { s with next := s.next + len64 payload, pending := s.pending ++ [frame] })

def acknowledge (s : StreamSenderState) (epoch offset window : UInt64) : Except StreamError StreamSenderState :=
  if epoch ≠ s.epoch then .error .epoch
  else if offset < s.acked ∨ offset > s.next then .error (.text "invalid cumulative stream acknowledgement")
  else .ok { s with
    epoch
    acked := offset
    window := if window > 0 then window else s.window
    pending := s.pending.filter fun f => f.stop > offset }

/-- A retained frame under the new epoch, cut at the acknowledged offset. -/
def restamp (id : StreamID) (epoch acknowledgedOffset : UInt64) (old : StreamFrame) : Option StreamFrame :=
  if old.stop ≤ acknowledgedOffset then none
  else
    let start := if acknowledgedOffset < old.offset then old.offset else acknowledgedOffset
    some { kind := .frameData, id, epoch, offset := start, payload := old.payload.drop (start - old.offset).toNat }

def resume (s : StreamSenderState) (epoch acknowledgedOffset : UInt64) :
    Except StreamError (List StreamFrame × StreamSenderState) :=
  if epoch ≤ s.epoch ∨ acknowledgedOffset < s.acked ∨ acknowledgedOffset > s.next then
    .error (.text "invalid stream resume state")
  else
    let frames := s.pending.filterMap (restamp s.id epoch acknowledgedOffset)
    .ok (frames, { s with epoch, acked := acknowledgedOffset, pending := frames })

end StreamSenderState

structure StreamReceiverState where
  id : StreamID
  epoch : UInt64
  offset : UInt64
  window : UInt64

def newStreamReceiverState (id : StreamID) (epoch window : UInt64) : StreamReceiverState :=
  { id, epoch, offset := 0, window := if window = 0 then defaultStreamWindow else window }

namespace StreamReceiverState

def ackFrame (r : StreamReceiverState) : StreamFrame :=
  { kind := .frameAck, id := r.id, epoch := r.epoch, offset := r.offset, window := r.window }

def resume (r : StreamReceiverState) (epoch offset : UInt64) : Except StreamError (StreamFrame × StreamReceiverState) :=
  if epoch ≤ r.epoch ∨ offset > r.offset then .error (.text "invalid stream receiver resume state")
  else
    let r' := { r with epoch }
    .ok (r'.ackFrame, r')

/-- How much of a frame at `frame.Offset` is already below `offset`, at most all of it. -/
def overlap (offset : UInt64) (frame : StreamFrame) : UInt64 :=
  let start := offset - frame.offset
  if start > len64 frame.payload then len64 frame.payload else start

def accept (r : StreamReceiverState) (frame : StreamFrame) :
    Except StreamError (Bytes × StreamFrame × StreamReceiverState) :=
  if frame.id ≠ r.id ∨ frame.kind ≠ .frameData then .error (.text "stream frame does not belong to receiver")
  else if frame.epoch ≠ r.epoch then .error .epoch
  else if frame.offset > r.offset then .error .gap
  else if frame.stop > r.offset + r.window then .error .credit
  else
    let payload := frame.payload.drop (overlap r.offset frame).toNat
    let r' := { r with offset := r.offset + len64 payload }
    .ok (payload, r'.ackFrame, r')

end StreamReceiverState

/-! ## What a successful call did -/

theorem toNat_len64 {p : Bytes} (h : p.length < 2 ^ 64) : (len64 p).toNat = p.length := by
  simp only [len64, Nat.toUInt64, UInt64.toNat_ofNat']
  omega

theorem toNat_stop {f : StreamFrame} (h : f.offset.toNat + f.payload.length < 2 ^ 64) :
    f.stop.toNat = f.offset.toNat + f.payload.length := by
  rw [StreamFrame.stop, UInt64.toNat_add, toNat_len64 (by omega)]
  omega

theorem data_ok {s s' : StreamSenderState} {p : Bytes} {f : StreamFrame} (h : s.data p = .ok (f, s')) :
    p ≠ [] ∧ p.length ≤ defaultStreamMaxFrame ∧ s.next - s.acked + len64 p ≤ s.window ∧
      f = { kind := .frameData, id := s.id, epoch := s.epoch, offset := s.next, payload := p } ∧
      s' = { s with next := s.next + len64 p, pending := s.pending ++ [f] } := by
  unfold StreamSenderState.data at h
  split at h
  · cases h
  · rename_i hp
    split at h
    · cases h
    · rename_i hw
      cases h
      refine ⟨fun e => hp (Or.inl (by rw [e]; rfl)), by omega, UInt64.not_lt.mp hw, rfl, rfl⟩

theorem acknowledge_ok {s s' : StreamSenderState} {e o w : UInt64} (h : s.acknowledge e o w = .ok s') :
    e = s.epoch ∧ s.acked ≤ o ∧ o ≤ s.next ∧
      s' = { s with
        acked := o
        window := if w > 0 then w else s.window
        pending := s.pending.filter fun f => f.stop > o } := by
  unfold StreamSenderState.acknowledge at h
  split at h
  · cases h
  · rename_i he
    split at h
    · cases h
    · rename_i ho
      simp only [ne_eq, Decidable.not_not] at he
      subst he
      cases h
      rw [not_or] at ho
      exact ⟨rfl, UInt64.not_lt.mp ho.1, UInt64.not_lt.mp ho.2, rfl⟩

theorem acknowledge_succeeds {s : StreamSenderState} {o : UInt64} (w : UInt64) (hlo : s.acked ≤ o)
    (hhi : o ≤ s.next) : ∃ s', s.acknowledge s.epoch o w = .ok s' := by
  unfold StreamSenderState.acknowledge
  rw [if_neg (by simp), if_neg (by simp [UInt64.not_lt.mpr hlo, UInt64.not_lt.mpr hhi])]
  exact ⟨_, rfl⟩

theorem resume_ok {s s' : StreamSenderState} {e a : UInt64} {fs : List StreamFrame}
    (h : s.resume e a = .ok (fs, s')) :
    s.epoch < e ∧ s.acked ≤ a ∧ a ≤ s.next ∧ fs = s.pending.filterMap (StreamSenderState.restamp s.id e a) ∧
      s' = { s with epoch := e, acked := a, pending := fs } := by
  unfold StreamSenderState.resume at h
  split at h
  · cases h
  · rename_i hg
    cases h
    rw [not_or, not_or] at hg
    exact ⟨UInt64.not_le.mp hg.1, UInt64.not_lt.mp hg.2.1, UInt64.not_lt.mp hg.2.2, rfl, rfl⟩

theorem resume_succeeds {s : StreamSenderState} {e a : UInt64} (he : s.epoch < e) (hlo : s.acked ≤ a)
    (hhi : a ≤ s.next) : ∃ fs s', s.resume e a = .ok (fs, s') := by
  unfold StreamSenderState.resume
  rw [if_neg (by simp [UInt64.not_le.mpr he, UInt64.not_lt.mpr hlo, UInt64.not_lt.mpr hhi])]
  exact ⟨_, _, rfl⟩

theorem receiver_resume_ok {r r' : StreamReceiverState} {e o : UInt64} {f : StreamFrame}
    (h : r.resume e o = .ok (f, r')) : r.epoch < e ∧ o ≤ r.offset ∧ r' = { r with epoch := e } ∧ f = r'.ackFrame := by
  unfold StreamReceiverState.resume at h
  split at h
  · cases h
  · rename_i hg
    cases h
    rw [not_or] at hg
    exact ⟨UInt64.not_le.mp hg.1, UInt64.not_lt.mp hg.2, rfl, rfl⟩

theorem receiver_resume_succeeds {r : StreamReceiverState} {e o : UInt64} (he : r.epoch < e) (ho : o ≤ r.offset) :
    ∃ f r', r.resume e o = .ok (f, r') := by
  unfold StreamReceiverState.resume
  rw [if_neg (by simp [UInt64.not_le.mpr he, UInt64.not_lt.mpr ho])]
  exact ⟨_, _, rfl⟩

theorem accept_shape {r r' : StreamReceiverState} {f a : StreamFrame} {p : Bytes}
    (h : r.accept f = .ok (p, a, r')) :
    f.id = r.id ∧ f.kind = .frameData ∧ f.epoch = r.epoch ∧ f.offset ≤ r.offset ∧ f.stop ≤ r.offset + r.window ∧
      p = f.payload.drop (StreamReceiverState.overlap r.offset f).toNat ∧
      r' = { r with offset := r.offset + len64 p } ∧ a = r'.ackFrame := by
  unfold StreamReceiverState.accept at h
  split at h
  · cases h
  rename_i hid
  split at h
  · cases h
  rename_i hep
  split at h
  · cases h
  rename_i hoff
  split at h
  · cases h
  rename_i hcr
  cases h
  simp only [ne_eq, not_or, Decidable.not_not] at hid hep
  exact ⟨hid.1, hid.2, hep, UInt64.not_lt.mp hoff, UInt64.not_lt.mp hcr, rfl, rfl, rfl⟩

/-- A frame of the receiver's stream and epoch, at or before its offset and within its
    window, is accepted. -/
theorem accept_succeeds {r : StreamReceiverState} {f : StreamFrame} (hid : f.id = r.id) (hk : f.kind = .frameData)
    (he : f.epoch = r.epoch) (ho : f.offset ≤ r.offset) (hc : f.stop ≤ r.offset + r.window) :
    ∃ p a r', r.accept f = .ok (p, a, r') := by
  unfold StreamReceiverState.accept
  rw [if_neg (by simp [hid, hk]), if_neg (by simp [he]), if_neg (UInt64.not_lt.mpr ho), if_neg (UInt64.not_lt.mpr hc)]
  exact ⟨_, _, _, rfl⟩

/-- The clamp to the payload's length does not change what the overlap leaves. -/
theorem drop_overlap {o : UInt64} {f : StreamFrame} (hn : f.payload.length < 2 ^ 64) (ho : f.offset ≤ o) :
    f.payload.drop (StreamReceiverState.overlap o f).toNat = f.payload.drop (o.toNat - f.offset.toNat) := by
  have hlen := toNat_len64 hn
  have hsub := UInt64.toNat_sub_of_le _ _ ho
  unfold StreamReceiverState.overlap
  simp only [gt_iff_lt, UInt64.lt_iff_toNat_lt, hsub, hlen]
  split
  · rw [hlen, List.drop_length, List.drop_eq_nil_of_le (by omega)]
  · rw [hsub]

/-- A successful `accept` keeps exactly the part of the payload past the offset. -/
theorem accept_ok {r r' : StreamReceiverState} {f a : StreamFrame} {p : Bytes}
    (hn : f.offset.toNat + f.payload.length < 2 ^ 64) (h : r.accept f = .ok (p, a, r')) :
    f.offset.toNat ≤ r.offset.toNat ∧ p = f.payload.drop (r.offset.toNat - f.offset.toNat) ∧
      r'.offset.toNat = max r.offset.toNat (f.offset.toNat + f.payload.length) := by
  obtain ⟨_, _, _, ho, _, hp, hr, _⟩ := accept_shape h
  rw [drop_overlap (by omega) ho] at hp
  rw [UInt64.le_iff_toNat_le] at ho
  refine ⟨ho, hp, ?_⟩
  have hlt := r.offset.toNat_lt
  have hl : p.length = f.payload.length - (r.offset.toNat - f.offset.toNat) := by rw [hp, List.length_drop]
  rw [hr]
  show (r.offset + len64 p).toNat = _
  rw [UInt64.toNat_add, toNat_len64 (by omega), hl]
  omega

end Turntf.Stream
