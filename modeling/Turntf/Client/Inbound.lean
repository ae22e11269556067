/-
  Turntf.Client.Inbound — the two ways a stream frame comes in (`handleServerEnvelope` of
  `client.go`, `UnmarshalStreamFrame` of `stream_protocol.go`, `handlePacket` of `relay.go`).

  A frame arrives as the fields of a `StreamFramePushed`, or as the body of a packet, in the
  encoding of `MarshalBinary`. Packets go through the relay first, which takes those whose
  body decodes as an envelope of its own: `decode` is `decodeRelayEnvelope`, of which is
  assumed that it refuses a body that starts with the first byte of the stream magic.

  `Given` is what a handler should be given for the fields of a frame: nothing if they make
  no valid frame, the frame itself if it has `OnStream`, and otherwise a packet that decodes
  to the frame.

  - `pushed_given`: a packet with the encoding of the fields gives just that.
  - `native_given_iff`: the fields themselves do only if they make a valid frame and the
    handler has `OnStream`. The kind is cut to a byte and neither it nor the size of the
    payload is checked (`native_kind_wraps`), and a packet made of the fields has no body.
-/

import Turntf.Stream.Frame

namespace Turntf.Inbound

open Turntf.Stream Layout

inductive DeliveryMode where
  | unspecified
  | bestEffort
  | routeRetry
  deriving DecidableEq

structure Packet where
  packetID : UInt64 := 0
  sourceNodeID : Int := 0
  targetNodeID : Int := 0
  recipient : UserRef := ⟨0, 0⟩
  sender : UserRef := ⟨0, 0⟩
  body : Bytes := []
  deliveryMode : DeliveryMode := .unspecified
  targetSession : SessionRef := ⟨0, ""⟩
  deriving DecidableEq

/-- `pb.StreamFramePushed`, the fields that are read. -/
structure StreamFramePushed where
  streamId : Bytes
  kind : UInt32
  epoch : UInt64
  offset : UInt64
  window : UInt64
  payload : Bytes
  sender : UserRef
  recipient : UserRef
  sourceSession : SessionRef

/-- The calls of the client's handler. -/
inductive HandlerCall where
  | onStream (pkt : Packet) (frame : StreamFrame)
  | onPacket (pkt : Packet)
  deriving DecidableEq

/-- The frame of the fields, its kind cut to a byte. -/
def StreamFramePushed.frame (f : StreamFramePushed) : StreamFrame where
  kind := .ofCode f.kind.toUInt8
  id := idOf f.streamId
  epoch := f.epoch
  offset := f.offset
  window := f.window
  payload := f.payload

/-- The case of a `StreamFramePushed`. -/
def handleStreamFrame (streamHandler : Bool) (f : StreamFramePushed) : Except StreamError (List HandlerCall) :=
  if f.streamId.length ≠ 16 then .error (.text "invalid stream id")
  else
    let pkt : Packet := { sender := f.sender, recipient := f.recipient, targetSession := f.sourceSession }
    if streamHandler then .ok [.onStream pkt f.frame] else .ok [.onPacket pkt]

/-- Whether the relay takes the packet. -/
def relayHandles (decode : Bytes → Option Relay.RelayEnvelope) (pkt : Packet) : Bool :=
  match decode pkt.body with
  | none => false
  | some env => env.relayID ≠ "" && env.kind ≠ .kindUnspecified

/-- The case of a `PacketPushed`. -/
def handlePacketPushed (decode : Bytes → Option Relay.RelayEnvelope) (streamHandler : Bool) (pkt : Packet) :
    Except StreamError (List HandlerCall) :=
  if relayHandles decode pkt then .ok []
  else if isStreamFrame pkt.body then
    match unmarshalStreamFrame pkt.body with
    | .error err => .error err
    | .ok frame => if streamHandler then .ok [.onStream pkt frame] else .ok [.onPacket pkt]
  else .ok [.onPacket pkt]

/-- The calls of the handler. An error is reported and calls none of these. -/
def calls : Except StreamError (List HandlerCall) → List HandlerCall
  | .ok calls => calls
  | .error _ => []

/-! ## What a handler should be given -/

/-- The kind is one of the six, and the payload fits. -/
def StreamFramePushed.valid (f : StreamFramePushed) : Bool :=
  1 ≤ f.kind && f.kind ≤ 6 && f.payload.length ≤ defaultStreamMaxFrame

def Given (streamHandler : Bool) (f : StreamFramePushed) (calls : List HandlerCall) : Prop :=
  if f.valid then
    if streamHandler then ∃ pkt, calls = [.onStream pkt f.frame]
    else ∃ pkt, calls = [.onPacket pkt] ∧ unmarshalStreamFrame pkt.body = .ok f.frame
  else calls = []

/-- The fields as `MarshalBinary` lays them out, where the kind has a byte. -/
def StreamFramePushed.encoded (f : StreamFramePushed) : Bytes :=
  layout streamMagic f.kind.toUInt8 f.streamId (putUint64 f.epoch) (putUint64 f.offset) (putUint64 f.window)
    (putUint32 f.payload.length.toUInt32) f.payload

section

variable {f : StreamFramePushed} {decode : Bytes → Option Relay.RelayEnvelope} {pkt : Packet}

theorem encoded_eq_bytes (hid : f.streamId.length = 16) : f.encoded = f.frame.bytes := by
  simp only [StreamFramePushed.encoded, StreamFrame.bytes, StreamFramePushed.frame, StreamFrameKind.code_ofCode,
    toList_idOf hid]

/-- A kind that has a byte is valid exactly as that byte is. -/
theorem frame_valid (hkind : f.kind < 256) : f.frame.valid = f.valid := by
  have hbyte : f.kind.toUInt8.toNat = f.kind.toNat := by
    have : f.kind.toNat < 256 := UInt32.lt_iff_toNat_lt.mp hkind
    rw [UInt32.toNat_toUInt8]
    omega
  have h1 : (1 : UInt8).toNat = 1 ∧ (1 : UInt32).toNat = 1 := ⟨rfl, rfl⟩
  have h6 : (6 : UInt8).toNat = 6 ∧ (6 : UInt32).toNat = 6 := ⟨rfl, rfl⟩
  rw [Bool.eq_iff_iff]
  simp only [StreamFrame.valid, StreamFrameKind.invalid, StreamFramePushed.frame, StreamFrameKind.code_ofCode,
    StreamFramePushed.valid, Bool.and_eq_true, Bool.not_eq_true', Bool.or_eq_false_iff, decide_eq_false_iff_not,
    decide_eq_true_eq, gt_iff_lt, UInt8.lt_iff_toNat_lt, UInt32.le_iff_toNat_le, hbyte, h1.1, h1.2, h6.1, h6.2]
  constructor
  · rintro ⟨⟨hlo, hhi⟩, hlen⟩
    exact ⟨⟨by omega, by omega⟩, of_decide_eq_true hlen⟩
  · rintro ⟨⟨hlo, hhi⟩, hlen⟩
    exact ⟨⟨by omega, by omega⟩, decide_eq_true hlen⟩

/-- The bytes of a frame tell its kind and its payload, valid or not. -/
theorem bytes_valid {f g : StreamFrame} (h : f.bytes = g.bytes) : f.valid = g.valid := by
  have hf := slice_layout rfl f.id.length_toList (length_putUint64 _) (length_putUint64 _) (length_putUint64 _)
    (length_putUint32 _) (show f.bytes = _ from rfl)
  have hg := slice_layout rfl g.id.length_toList (length_putUint64 _) (length_putUint64 _) (length_putUint64 _)
    (length_putUint32 _) (show g.bytes = _ from rfl)
  obtain ⟨_, _, hfkind, _, _, _, _, _, hfpayload⟩ := hf
  obtain ⟨_, _, hgkind, _, _, _, _, _, hgpayload⟩ := hg
  have hkind : f.kind.code = g.kind.code := by rw [← hfkind, ← hgkind, h]
  have hpayload : f.payload = g.payload := by rw [← hfpayload, ← hgpayload, h]
  simp only [StreamFrame.valid, StreamFrameKind.invalid, hkind, hpayload]

/-- A body that starts with the stream magic is not for the relay. -/
theorem relay_leaves (hdecode : ∀ body : Bytes, body.head? = some 0x54 → decode body = none) (hid : f.streamId.length = 16)
    (hbody : pkt.body = f.encoded) : relayHandles decode pkt = false ∧ isStreamFrame pkt.body = true := by
  have hlayout := slice_layout rfl hid (length_putUint64 f.epoch) (length_putUint64 f.offset)
    (length_putUint64 f.window) (length_putUint32 f.payload.length.toUInt32) (show f.encoded = _ from rfl)
  rw [hbody]
  refine ⟨?_, ?_⟩
  · rw [relayHandles, hbody, hdecode f.encoded rfl]
  · have hfour : 4 ≤ f.encoded.length := by omega
    exact Bool.and_eq_true_iff.mpr ⟨decide_eq_true hfour, decide_eq_true hlayout.2.1⟩

/-- A packet with the encoding of the fields. -/
theorem pushed_given (streamHandler : Bool) (hdecode : ∀ body : Bytes, body.head? = some 0x54 → decode body = none)
    (hid : f.streamId.length = 16) (hkind : f.kind < 256) (hbody : pkt.body = f.encoded) :
    Given streamHandler f (calls (handlePacketPushed decode streamHandler pkt)) := by
  obtain ⟨hrelay, hstream⟩ := relay_leaves hdecode hid hbody
  have hvalid := frame_valid hkind
  unfold Given handlePacketPushed
  rw [hrelay, hstream]
  by_cases hv : f.valid
  · have hframe : unmarshalStreamFrame pkt.body = .ok f.frame := by
      rw [hbody, encoded_eq_bytes hid]
      exact unmarshalStreamFrame_bytes (hvalid.trans hv)
    rw [if_pos hv, hframe]
    cases streamHandler with
    | true => exact ⟨pkt, rfl⟩
    | false => exact ⟨pkt, rfl, hframe⟩
  · rw [if_neg hv]
    cases hread : unmarshalStreamFrame pkt.body with
    | error err => rfl
    | ok frame =>
      -- what is read was written as that frame, whose fields these are
      obtain ⟨hframe, hbytes⟩ := bytes_of_unmarshalStreamFrame hread
      rw [hbody, encoded_eq_bytes hid] at hbytes
      exact absurd (hvalid.symm.trans ((bytes_valid hbytes).trans hframe)) hv

/-- The fields themselves. -/
theorem native_given_iff (streamHandler : Bool) (hid : f.streamId.length = 16) :
    Given streamHandler f (calls (handleStreamFrame streamHandler f)) ↔ f.valid ∧ streamHandler := by
  unfold Given handleStreamFrame
  rw [if_neg (not_not.mpr hid)]
  by_cases hv : f.valid
  · rw [if_pos hv]
    cases streamHandler with
    | true => exact iff_of_true ⟨_, rfl⟩ ⟨hv, rfl⟩
    | false =>
      refine iff_of_false ?_ nofun
      rintro ⟨pkt, hcalls, hread⟩
      -- the packet of the fields has an empty body
      cases hcalls
      cases hread
  · rw [if_neg hv]
    refine iff_of_false ?_ fun h => hv h.1
    cases streamHandler <;> nofun

/-- For fields that make a valid frame, and a handler with `OnStream`, both ways give it that
    frame. -/
theorem inbound_agree (decode : Bytes → Option Relay.RelayEnvelope)
    (hdecode : ∀ body : Bytes, body.head? = some 0x54 → decode body = none)
    (hid : f.streamId.length = 16) (hbody : pkt.body = f.encoded) (hvalid : f.valid) :
    Given true f (calls (handleStreamFrame true f)) ∧ Given true f (calls (handlePacketPushed decode true pkt)) ∧
    ∃ pkt₁ pkt₂, calls (handleStreamFrame true f) = [.onStream pkt₁ f.frame] ∧
      calls (handlePacketPushed decode true pkt) = [.onStream pkt₂ f.frame] := by
  have hkind : f.kind < 256 := by
    simp only [StreamFramePushed.valid, Bool.and_eq_true, decide_eq_true_eq, UInt32.le_iff_toNat_le] at hvalid
    rw [UInt32.lt_iff_toNat_lt]
    exact Nat.lt_of_le_of_lt hvalid.1.2 (by decide)
  have hnative := (native_given_iff true hid).mpr ⟨hvalid, rfl⟩
  have hpushed := pushed_given true hdecode hid hkind hbody
  refine ⟨hnative, hpushed, ?_⟩
  simp only [Given, if_pos hvalid, if_true] at hnative hpushed
  obtain ⟨pkt₁, h₁⟩ := hnative
  obtain ⟨pkt₂, h₂⟩ := hpushed
  exact ⟨pkt₁, pkt₂, h₁, h₂⟩

end

def sampleFields (kind : UInt32) : StreamFramePushed where
  streamId := List.replicate 16 0
  kind := kind
  epoch := 1
  offset := 0
  window := 0
  payload := [7]
  sender := ⟨1, 2⟩
  recipient := ⟨1, 3⟩
  sourceSession := ⟨1, "s"⟩

/-- A data frame, where nothing decodes as an envelope. -/
theorem inbound_agree_data : ∃ pkt₁ pkt₂,
    calls (handleStreamFrame true (sampleFields 4)) = [.onStream pkt₁ (sampleFields 4).frame] ∧
    calls (handlePacketPushed (fun _ => none) true { body := (sampleFields 4).encoded }) =
      [.onStream pkt₂ (sampleFields 4).frame] :=
  (inbound_agree (f := sampleFields 4) (fun _ => none) (fun _ _ => rfl) (by decide) rfl (by decide)).2.2

/-- Kind 257 is given to `OnStream` as an opening frame, kind 7 as what it is, and a handler
    without `OnStream` gets a packet without the frame. -/
theorem native_kind_wraps :
    ¬ Given true (sampleFields 257) (calls (handleStreamFrame true (sampleFields 257))) ∧
    (sampleFields 257).frame.kind = .frameOpen ∧
    ¬ Given true (sampleFields 7) (calls (handleStreamFrame true (sampleFields 7))) ∧
    ¬ Given false (sampleFields 4) (calls (handleStreamFrame false (sampleFields 4))) := by
  refine ⟨?_, by decide, ?_, ?_⟩ <;> rw [native_given_iff _ (by decide)] <;> decide

end Turntf.Inbound
