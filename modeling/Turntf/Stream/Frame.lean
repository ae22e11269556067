/-
  Turntf.Stream.Frame — the bytes of a stream frame (`stream_protocol.go`).

  A frame is a header of 49 bytes and its payload: the magic, the kind, the id, three 64-bit
  numbers and the length of the payload. `layout` is that sequence of fields; what
  `marshalBinary` writes is one (`marshalBinary_eq`), and every byte string that is long
  enough is one too (`layout_slices`).

  - `codec_bijective`: what `marshalBinary` makes of a frame is what `unmarshalStreamFrame`
    reads as that frame, and nothing else.
-/

import Turntf.Lib.Layout
import Turntf.Stream.Protocol

namespace Turntf.Stream

open Layout

def streamHeaderSize : Nat := 49

def streamMagic : Bytes := [84, 84, 83, 1]

/-- The byte of a kind. -/
def StreamFrameKind.code : StreamFrameKind → UInt8
  | .frameOpen => 1
  | .frameOpenAck => 2
  | .frameResume => 3
  | .frameData => 4
  | .frameAck => 5
  | .frameClose => 6
  | .other code => code.1

/-- `StreamFrameKind(b)`. -/
def StreamFrameKind.ofCode (b : UInt8) : StreamFrameKind :=
  if h : b < 1 ∨ 6 < b then .other ⟨b, h⟩
  else if b = 1 then .frameOpen
  else if b = 2 then .frameOpenAck
  else if b = 3 then .frameResume
  else if b = 4 then .frameData
  else if b = 5 then .frameAck
  else .frameClose

/-- `kind < StreamFrameOpen || kind > StreamFrameClose`. -/
def StreamFrameKind.invalid (kind : StreamFrameKind) : Bool := kind.code < 1 || kind.code > 6

def invalidKind (kind : StreamFrameKind) : StreamError :=
  .text ("invalid stream frame kind " ++ toString kind.code.toNat)

/-- `binary.BigEndian`. -/
def putUint64 (v : UInt64) : Bytes := putBE 8 v.toNat

def uint64 (b : Bytes) : UInt64 := UInt64.ofNat (getBE b)

def putUint32 (v : UInt32) : Bytes := putBE 4 v.toNat

def uint32 (b : Bytes) : UInt32 := UInt32.ofNat (getBE b)

/-- `copy(id[:], b)` of a new id. -/
def idOf (b : Bytes) : StreamID := Vector.ofFn fun i => b.getD i 0

def StreamFrame.marshalBinary (f : StreamFrame) : Except StreamError Bytes :=
  if f.kind.invalid then .error (invalidKind f.kind)
  else if f.payload.length > defaultStreamMaxFrame then
    .error (.text ("stream payload exceeds " ++ toString defaultStreamMaxFrame ++ " bytes"))
  else
    let out := List.replicate (streamHeaderSize + f.payload.length) 0
    let out := copyTo out 0 4 streamMagic
    let out := out.set 4 f.kind.code
    let out := copyTo out 5 21 f.id.toList
    let out := copyTo out 21 29 (putUint64 f.epoch)
    let out := copyTo out 29 37 (putUint64 f.offset)
    let out := copyTo out 37 45 (putUint64 f.window)
    let out := copyTo out 45 49 (putUint32 f.payload.length.toUInt32)
    .ok (copyTo out 49 (streamHeaderSize + f.payload.length) f.payload)

def isStreamFrame (data : Bytes) : Bool :=
  data.length ≥ streamMagic.length && slice data 0 streamMagic.length = streamMagic

def unmarshalStreamFrame (data : Bytes) : Except StreamError StreamFrame :=
  if data.length < streamHeaderSize || !isStreamFrame data then .error (.text "invalid stream frame header")
  else
    let kind := StreamFrameKind.ofCode (data.getD 4 0)
    if kind.invalid then .error (invalidKind kind)
    else
      let payloadLen := (uint32 (slice data 45 49)).toNat
      if payloadLen > defaultStreamMaxFrame || data.length ≠ streamHeaderSize + payloadLen then
        .error (.text "invalid stream payload length")
      else .ok {
        kind
        id := idOf (slice data 5 21)
        epoch := uint64 (slice data 21 29)
        offset := uint64 (slice data 29 37)
        window := uint64 (slice data 37 45)
        payload := data.drop 49 }

/-! ## The fields -/

theorem StreamFrameKind.ofCode_code (kind : StreamFrameKind) : .ofCode kind.code = kind := by
  cases kind with
  | other code => exact dif_pos code.2
  | _ => rfl

theorem StreamFrameKind.code_ofCode (b : UInt8) : (StreamFrameKind.ofCode b).code = b := by
  unfold ofCode
  split
  · rfl
  · rename_i h
    have hb : b = 1 ∨ b = 2 ∨ b = 3 ∨ b = 4 ∨ b = 5 ∨ b = 6 := by
      simp only [← UInt8.toNat_inj, UInt8.lt_iff_toNat_lt] at h ⊢
      have h1 : (1 : UInt8).toNat = 1 := rfl
      have h6 : (6 : UInt8).toNat = 6 := rfl
      simp only [h1, h6, show (2 : UInt8).toNat = 2 from rfl, show (3 : UInt8).toNat = 3 from rfl,
        show (4 : UInt8).toNat = 4 from rfl, show (5 : UInt8).toNat = 5 from rfl] at h ⊢
      omega
    rcases hb with rfl | rfl | rfl | rfl | rfl | rfl <;> rfl

theorem idOf_toList (id : StreamID) : idOf id.toList = id := by
  ext i hi
  simp [idOf]

theorem toList_idOf {b : Bytes} (h : b.length = 16) : (idOf b).toList = b := by
  apply List.ext_getElem
  · simp [h]
  · intro i h1 h2
    simp [idOf, h2]

theorem length_putUint64 (v : UInt64) : (putUint64 v).length = 8 := length_putBE 8 _

theorem length_putUint32 (v : UInt32) : (putUint32 v).length = 4 := length_putBE 4 _

theorem uint64_putUint64 (v : UInt64) : uint64 (putUint64 v) = v := by
  rw [uint64, putUint64, getBE_putBE _ _ (Nat.lt_of_lt_of_eq v.toNat_lt rfl), UInt64.ofNat_toNat]

theorem putUint64_uint64 {b : Bytes} (h : b.length = 8) : putUint64 (uint64 b) = b := by
  have hlt := getBE_lt b
  rw [h] at hlt
  have := putBE_getBE b
  rw [h] at this
  rw [putUint64, uint64, UInt64.toNat_ofNat_of_lt' hlt, this]

theorem uint32_putUint32 (v : UInt32) : uint32 (putUint32 v) = v := by
  rw [uint32, putUint32, getBE_putBE _ _ (Nat.lt_of_lt_of_eq v.toNat_lt rfl), UInt32.ofNat_toNat]

theorem putUint32_uint32 {b : Bytes} (h : b.length = 4) : putUint32 (uint32 b) = b := by
  have hlt := getBE_lt b
  rw [h] at hlt
  have := putBE_getBE b
  rw [h] at this
  rw [putUint32, uint32, UInt32.toNat_ofNat_of_lt' hlt, this]

/-- The length of an admissible payload fits into 32 bits. -/
theorem toNat_toUInt32_length {payload : Bytes} (h : payload.length ≤ defaultStreamMaxFrame) :
    payload.length.toUInt32.toNat = payload.length :=
  UInt32.toNat_ofNat_of_lt' (Nat.lt_of_le_of_lt h (by decide))

/-! ## The sequence of the fields -/

def layout (magic : Bytes) (kind : UInt8) (id epoch offset window size payload : Bytes) : Bytes :=
  magic ++ ([kind] ++ (id ++ (epoch ++ (offset ++ (window ++ (size ++ payload))))))

section

variable {magic id epoch offset window size payload : Bytes} {kind : UInt8} (hm : magic.length = 4) (hi : id.length = 16)
  (he : epoch.length = 8) (ho : offset.length = 8) (hw : window.length = 8) (hs : size.length = 4)

include hm hi he ho hw hs

/-- Every field is read from its place. -/
theorem slice_layout {b : Bytes} (hb : b = layout magic kind id epoch offset window size payload) :
    b.length = 49 + payload.length ∧ slice b 0 4 = magic ∧ b.getD 4 0 = kind ∧ slice b 5 21 = id ∧
      slice b 21 29 = epoch ∧ slice b 29 37 = offset ∧ slice b 37 45 = window ∧ slice b 45 49 = size ∧
      b.drop 49 = payload := by
  subst hb
  have hk : [kind].length = 1 := rfl
  refine ⟨?_, ?_, ?_, ?_, ?_, ?_, ?_, ?_, ?_⟩
  · simp only [layout, List.length_append, hm, hi, he, ho, hw, hs, hk]
    omega
  · exact slice_append hm
  · simp [layout, List.getD_eq_getElem?_getD, hm]
  · rw [layout, slice_skip hm (by omega), slice_skip hk (by omega), slice_append hi]
  · rw [layout, slice_skip hm (by omega), slice_skip hk (by omega), slice_skip hi (by omega), slice_append he]
  · rw [layout, slice_skip hm (by omega), slice_skip hk (by omega), slice_skip hi (by omega), slice_skip he (by omega),
      slice_append ho]
  · rw [layout, slice_skip hm (by omega), slice_skip hk (by omega), slice_skip hi (by omega), slice_skip he (by omega),
      slice_skip ho (by omega), slice_append hw]
  · rw [layout, slice_skip hm (by omega), slice_skip hk (by omega), slice_skip hi (by omega), slice_skip he (by omega),
      slice_skip ho (by omega), slice_skip hw (by omega), slice_append hs]
  · simp only [layout, ← List.append_assoc]
    exact List.drop_left' (by simp [hm, hi, he, ho, hw, hs])

/-- A writer that fills the buffer field by field writes the sequence. -/
theorem copyTo_layout : copyTo (copyTo (copyTo (copyTo (copyTo (copyTo ((copyTo (List.replicate (49 + payload.length) 0)
      0 4 magic).set 4 kind) 5 21 id) 21 29 epoch) 29 37 offset) 37 45 window) 45 49 size) 49 (49 + payload.length) payload =
    layout magic kind id epoch offset window size payload := by
  have hstart : List.replicate (49 + payload.length) (0 : UInt8) = [] ++ List.replicate (49 + payload.length) 0 := rfl
  rw [hstart, copyTo_next List.length_nil hm, set_next (by simp [hm]) (by omega), copyTo_next (by simp [hm]) hi,
    copyTo_next (by simp [hm, hi]) he, copyTo_next (by simp [hm, hi, he]) ho, copyTo_next (by simp [hm, hi, he, ho]) hw,
    copyTo_next (by simp [hm, hi, he, ho, hw]) hs, copyTo_next (by simp [hm, hi, he, ho, hw, hs]) (by omega)]
  have hfull : 49 + payload.length - magic.length - 1 - id.length - epoch.length - offset.length - window.length -
      size.length - payload.length = 0 := by omega
  simp only [hfull, List.replicate_zero, List.append_nil, List.nil_append, layout, List.append_assoc]

end

/-- A byte string with room for a header is made of such fields. -/
theorem layout_slices {b : Bytes} (h : 49 ≤ b.length) :
    layout (slice b 0 4) (b.getD 4 0) (slice b 5 21) (slice b 21 29) (slice b 29 37) (slice b 37 45) (slice b 45 49)
      (b.drop 49) = b := by
  have hk : [b.getD 4 0] = slice b 4 5 := by
    apply List.ext_getElem
    · rw [length_slice (by omega)]
      rfl
    · intro i h1 h2
      obtain rfl : i = 0 := by simpa using h1
      simp [slice, List.getD_eq_getElem?_getD, List.getElem?_eq_getElem (show 4 < b.length by omega)]
  have hd : b.drop 49 = slice b 49 b.length := by simp [slice]
  rw [layout, hk, hd, slice_slice b (by omega) h, slice_slice b (by omega) (by omega), slice_slice b (by omega) (by omega),
    slice_slice b (by omega) (by omega), slice_slice b (by omega) (by omega), slice_slice b (by omega) (by omega),
    slice_slice b (by omega) (by omega)]
  simp [slice]

/-! ## Frames and bytes -/

/-- The frames `MarshalBinary` accepts. -/
def StreamFrame.valid (f : StreamFrame) : Bool := !f.kind.invalid && f.payload.length ≤ defaultStreamMaxFrame

def StreamFrame.bytes (f : StreamFrame) : Bytes :=
  layout streamMagic f.kind.code f.id.toList (putUint64 f.epoch) (putUint64 f.offset) (putUint64 f.window)
    (putUint32 f.payload.length.toUInt32) f.payload

theorem marshalBinary_ok {f : StreamFrame} {b : Bytes} : f.marshalBinary = .ok b ↔ f.valid = true ∧ b = f.bytes := by
  have hbytes : _ = f.bytes :=
    copyTo_layout rfl f.id.length_toList (length_putUint64 _) (length_putUint64 _) (length_putUint64 _)
      (length_putUint32 _)
  simp only [StreamFrame.marshalBinary, StreamFrame.valid, streamHeaderSize, hbytes]
  by_cases hk : f.kind.invalid = true
  · simp [hk]
  · by_cases hp : f.payload.length > defaultStreamMaxFrame
    · simp [hk, hp, Nat.not_le.mpr hp]
    · simp [hk, hp, Nat.not_lt.mp hp, eq_comm]

/-- What is written is read back. -/
theorem unmarshalStreamFrame_bytes {f : StreamFrame} (h : f.valid = true) : unmarshalStreamFrame f.bytes = .ok f := by
  obtain ⟨hk, hp⟩ : f.kind.invalid = false ∧ f.payload.length ≤ defaultStreamMaxFrame := by
    simpa [StreamFrame.valid] using h
  obtain ⟨hlen, hmagic, hkind, hid, hepoch, hoffset, hwindow, hsize, hpayload⟩ :=
    slice_layout rfl f.id.length_toList (length_putUint64 _) (length_putUint64 _) (length_putUint64 _)
      (length_putUint32 _) (show f.bytes = _ from rfl)
  have hlong : 49 ≤ f.bytes.length := by omega
  have hframe : isStreamFrame f.bytes = true := by
    have hfour : 4 ≤ f.bytes.length := by omega
    exact Bool.and_eq_true_iff.mpr ⟨decide_eq_true hfour, decide_eq_true hmagic⟩
  have hcode : StreamFrameKind.ofCode (f.bytes.getD 4 0) = f.kind := by rw [hkind, StreamFrameKind.ofCode_code]
  have hsize : (uint32 (slice f.bytes 45 49)).toNat = f.payload.length := by
    rw [hsize, uint32_putUint32, toNat_toUInt32_length hp]
  simp only [unmarshalStreamFrame, streamHeaderSize, hframe, hcode, hk, hsize, hlen, hid, idOf_toList, hepoch, hoffset,
    hwindow, uint64_putUint64, hpayload]
  simp [Nat.not_lt.mpr hp]

/-- What is read was written so. -/
theorem bytes_of_unmarshalStreamFrame {f : StreamFrame} {b : Bytes} (h : unmarshalStreamFrame b = .ok f) :
    f.valid = true ∧ b = f.bytes := by
  unfold unmarshalStreamFrame streamHeaderSize at h
  split at h
  · cases h
  · rename_i hhead
    dsimp only at h
    split at h
    · cases h
    · rename_i hk
      split at h
      · cases h
      · rename_i hp
        cases h
        simp only [Bool.or_eq_true, Bool.not_eq_true', decide_eq_true_eq, not_or, Bool.not_eq_false] at hhead hp
        obtain ⟨hlong, hframe⟩ := hhead
        obtain ⟨hmax, hlen⟩ := hp
        have hmagic : slice b 0 4 = streamMagic := by
          simp only [isStreamFrame, Bool.and_eq_true, decide_eq_true_eq] at hframe
          exact hframe.2
        have hsize : (b.drop 49).length.toUInt32 = uint32 (slice b 45 49) := by
          apply UInt32.toNat_inj.mp
          rw [toNat_toUInt32_length (by rw [List.length_drop]; omega), List.length_drop]
          omega
        refine ⟨?_, ?_⟩
        · simp only [StreamFrame.valid, hk, Bool.not_false, Bool.true_and, decide_eq_true_eq, List.length_drop]
          omega
        · simp only [StreamFrame.bytes, StreamFrameKind.code_ofCode, hsize]
          rw [toList_idOf (length_slice (by omega)), putUint64_uint64 (length_slice (by omega)),
            putUint64_uint64 (length_slice (by omega)), putUint64_uint64 (length_slice (by omega)),
            putUint32_uint32 (length_slice (by omega)), ← hmagic, layout_slices (by omega)]

/-- A frame is accepted exactly when its kind is one of the six and its payload fits; the bytes it
    is written as are read as that frame, and whatever is read as a frame is written back as it was. -/
theorem codec_bijective (f : StreamFrame) (b : Bytes) :
    ((∃ b, f.marshalBinary = .ok b) ↔ f.kind.invalid = false ∧ f.payload.length ≤ defaultStreamMaxFrame) ∧
      (f.marshalBinary = .ok b ↔ unmarshalStreamFrame b = .ok f) ∧
      ((∃ f, unmarshalStreamFrame b = .ok f) ↔ ∃ f, StreamFrame.marshalBinary f = .ok b) := by
  have hiff : ∀ f, StreamFrame.marshalBinary f = .ok b ↔ unmarshalStreamFrame b = .ok f := by
    intro f
    rw [marshalBinary_ok]
    refine ⟨?_, bytes_of_unmarshalStreamFrame⟩
    rintro ⟨hv, rfl⟩
    exact unmarshalStreamFrame_bytes hv
  refine ⟨?_, hiff f, exists_congr fun f => (hiff f).symm⟩
  simp [marshalBinary_ok, StreamFrame.valid]

end Turntf.Stream
