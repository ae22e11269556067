/-
  Turntf.Stream.Retention — what a `StreamSenderState` still holds of the bytes it was
  given (`stream_protocol.go`).

  `Retains s w` ties a sender to `w`, the payloads of its successful `data` calls put
  together: `next` counts them, and the pending frames are a chain of pieces of `w` from
  at or before `acked` up to `next`, each reaching past `acked`. The first one may start
  before `acked`: `acknowledge` keeps a frame that straddles the offset whole, `resume`
  cuts it. Each successful call keeps the tie (`data_retains`, `acknowledge_retains`,
  `resume_retains`), and what `resume` hands out runs from the acknowledged offset to the
  end (`resume_frames`).
-/

import Mathlib.Data.List.Basic
import Turntf.Lib.Segment
import Turntf.Stream.Protocol

namespace Turntf.Stream

open Segment

def piece (f : StreamFrame) : Nat × Bytes := (f.offset.toNat, f.payload)

structure Retains (s : StreamSenderState) (w : Bytes) : Prop where
  next : s.next.toNat = w.length
  acked : s.acked.toNat ≤ w.length
  chain : ∃ lo, lo ≤ s.acked.toNat ∧ Chain w lo w.length (s.pending.map piece)
  live : ∀ f ∈ s.pending, s.acked.toNat < f.offset.toNat + f.payload.length
  stamp : ∀ f ∈ s.pending, f.kind = .frameData ∧ f.id = s.id ∧ f.epoch = s.epoch

/-- A data frame whose payload stands in `w` at its offset. -/
def InStream (w : Bytes) (f : StreamFrame) : Prop := f.payload ≠ [] ∧ At w f.offset.toNat f.payload

theorem InStream.grow {w : Bytes} {f : StreamFrame} (h : InStream w f) (v : Bytes) : InStream (w ++ v) f :=
  ⟨h.1, h.2.grow v⟩

theorem new_retains (id : StreamID) (epoch window : UInt64) : Retains (newStreamSenderState id epoch window) [] where
  next := rfl
  acked := Nat.le_refl 0
  chain := ⟨0, Nat.le_refl 0, rfl⟩
  live := fun _ h => by cases h
  stamp := fun _ h => by cases h

namespace Retains

variable {s s' : StreamSenderState} {w : Bytes}

theorem length_lt (h : Retains s w) : w.length < 2 ^ 64 := h.next ▸ s.next.toNat_lt

theorem pending_at (h : Retains s w) : ∀ f ∈ s.pending, InStream w f := by
  obtain ⟨lo, _, hc⟩ := h.chain
  intro f hf
  obtain ⟨_, _, h3, h4⟩ := hc.mem_at (piece f) (List.mem_map_of_mem hf)
  exact ⟨h3, h4⟩

theorem pending_stop (h : Retains s w) {f : StreamFrame} (hf : f ∈ s.pending) :
    f.stop.toNat = f.offset.toNat + f.payload.length ∧ f.stop.toNat ≤ w.length := by
  have hl := (h.pending_at f hf).2.le_length
  have := h.length_lt
  have he := toNat_stop (f := f) (by omega)
  exact ⟨he, by omega⟩

end Retains

variable {s s' : StreamSenderState} {w : Bytes}

theorem data_retains {p : Bytes} {f : StreamFrame} (h : Retains s w) (hd : s.data p = .ok (f, s'))
    (hn : (w ++ p).length < 2 ^ 64) : Retains s' (w ++ p) ∧ InStream (w ++ p) f := by
  obtain ⟨hp, _, _, hf, hs⟩ := data_ok hd
  have hlen : (w ++ p).length = w.length + p.length := List.length_append
  have hfo : f.offset.toNat = w.length := by rw [hf]; exact h.next
  have hfp : f.payload = p := by rw [hf]
  have hat : At (w ++ p) w.length p := at_end w p
  have hpos : 0 < p.length := List.length_pos_iff.mpr hp
  refine ⟨⟨?_, ?_, ?_, ?_, ?_⟩, hfp ▸ hp, ?_⟩
  · rw [hs]
    show (s.next + len64 p).toNat = _
    rw [UInt64.toNat_add, toNat_len64 (by omega), h.next]
    omega
  · rw [hs]
    show s.acked.toNat ≤ _
    have := h.acked
    omega
  · obtain ⟨lo, hlo, hc⟩ := h.chain
    refine ⟨lo, by rw [hs]; exact hlo, ?_⟩
    rw [hs, hlen]
    simp only [List.map_append, List.map_cons, List.map_nil, piece, hfo, hfp]
    exact (hc.grow p).snoc hp hat
  · rw [hs]
    intro g hg
    rcases List.mem_append.mp hg with hg | hg
    · exact h.live g hg
    · have := h.acked
      rw [List.mem_singleton.mp hg, hfo, hfp]
      show s.acked.toNat < _
      omega
  · rw [hs]
    intro g hg
    rcases List.mem_append.mp hg with hg | hg
    · exact h.stamp g hg
    · rw [List.mem_singleton.mp hg, hf]
      exact ⟨rfl, rfl, rfl⟩
  · rw [hfo, hfp]
    exact hat

/-- Acknowledged frames go by their end in the stream: the `uint64` sum does not wrap. -/
theorem filter_pieces (h : Retains s w) (o : UInt64) :
    (s.pending.filter fun f => f.stop > o).map piece =
      (s.pending.map piece).filter fun p => o.toNat < p.1 + p.2.length := by
  rw [List.filter_map]
  congr 1
  refine List.filter_congr fun f hf => ?_
  show decide (o < f.stop) = decide (o.toNat < f.offset.toNat + f.payload.length)
  rw [decide_eq_decide, UInt64.lt_iff_toNat_lt, (h.pending_stop hf).1]

theorem acknowledge_retains {e o win : UInt64} (h : Retains s w) (ha : s.acknowledge e o win = .ok s') :
    Retains s' w := by
  obtain ⟨_, hlo, hhi, hs⟩ := acknowledge_ok ha
  rw [UInt64.le_iff_toNat_le] at hlo hhi
  rw [h.next] at hhi
  subst hs
  refine ⟨h.next, hhi, ?_, ?_, ?_⟩
  · obtain ⟨lo, hle, hc⟩ := h.chain
    show ∃ lo, lo ≤ o.toNat ∧ Chain w lo w.length ((s.pending.filter fun f => f.stop > o).map piece)
    rw [filter_pieces h o]
    exact hc.dropUpTo (by omega) hhi
  · intro f hf
    obtain ⟨hm, hgt⟩ := List.mem_filter.mp hf
    simp only [gt_iff_lt, decide_eq_true_eq, UInt64.lt_iff_toNat_lt, (h.pending_stop hm).1] at hgt
    exact hgt
  · intro f hf
    exact h.stamp f (List.mem_filter.mp hf).1

/-- Restamping a retained frame cuts its piece at the acknowledged offset. -/
theorem restamp_piece (h : Retains s w) (id : StreamID) (e a : UInt64) {f : StreamFrame} (hf : f ∈ s.pending) :
    (StreamSenderState.restamp id e a f).map piece = cut a.toNat (piece f) := by
  obtain ⟨hstop, _⟩ := h.pending_stop hf
  unfold StreamSenderState.restamp cut piece
  simp only [UInt64.le_iff_toNat_le, UInt64.lt_iff_toNat_lt, hstop]
  split
  · rfl
  · simp only [Option.map_some, Option.some.injEq, Prod.mk.injEq]
    by_cases hlt : a.toNat < f.offset.toNat
    · simp only [if_pos hlt, UInt64.sub_self, Nat.max_eq_right (Nat.le_of_lt hlt), Nat.sub_self]
      exact ⟨trivial, rfl⟩
    · have hle : f.offset.toNat ≤ a.toNat := by omega
      simp only [if_neg hlt, Nat.max_eq_left hle, true_and]
      rw [UInt64.toNat_sub_of_le _ _ (UInt64.le_iff_toNat_le.mpr hle)]

theorem restamp_pieces (h : Retains s w) (id : StreamID) (e a : UInt64) :
    (s.pending.filterMap (StreamSenderState.restamp id e a)).map piece =
      (s.pending.map piece).filterMap (cut a.toNat) := by
  rw [List.map_filterMap, List.filterMap_map]
  exact List.filterMap_congr fun f hf => restamp_piece h id e a hf

/-- What a successful `resume` hands out is the sender's pending list: a chain from the
    acknowledged offset to the end. -/
theorem resume_frames {e a : UInt64} {fs : List StreamFrame} (h : Retains s w)
    (hr : s.resume e a = .ok (fs, s')) : Chain w a.toNat w.length (fs.map piece) := by
  obtain ⟨_, hlo, hhi, hfs, _⟩ := resume_ok hr
  rw [UInt64.le_iff_toNat_le] at hlo hhi
  rw [h.next] at hhi
  obtain ⟨lo, hle, hc⟩ := h.chain
  rw [hfs, restamp_pieces h]
  exact hc.trim (by omega) hhi

theorem resume_retains {e a : UInt64} {fs : List StreamFrame} (h : Retains s w)
    (hr : s.resume e a = .ok (fs, s')) : Retains s' w := by
  obtain ⟨_, _, hhi, hfs, hs⟩ := resume_ok hr
  rw [UInt64.le_iff_toNat_le, h.next] at hhi
  have hch := resume_frames h hr
  subst hs
  refine ⟨h.next, hhi, ⟨a.toNat, Nat.le_refl _, hch⟩, ?_, ?_⟩
  · intro f hf
    obtain ⟨h1, _, h3, _⟩ := hch.mem_at (piece f) (List.mem_map_of_mem hf)
    have : 0 < f.payload.length := List.length_pos_iff.mpr h3
    show a.toNat < f.offset.toNat + f.payload.length
    have : a.toNat ≤ f.offset.toNat := h1
    omega
  · intro f hf
    replace hf : f ∈ fs := hf
    rw [hfs] at hf
    obtain ⟨old, _, ho⟩ := List.mem_filterMap.mp hf
    unfold StreamSenderState.restamp at ho
    split at ho
    · cases ho
    · cases ho
      exact ⟨rfl, rfl, rfl⟩

/-- A receiver that has the first `offset` bytes and accepts a frame of the stream has the
    bytes up to its new offset. -/
theorem accept_extends {r r' : StreamReceiverState} {f a : StreamFrame} {p : Bytes} (hw : w.length < 2 ^ 64)
    (hin : InStream w f) (ho : r.offset.toNat ≤ w.length) (ha : r.accept f = .ok (p, a, r')) :
    r.offset.toNat ≤ r'.offset.toNat ∧ r'.offset.toNat ≤ w.length ∧
      w.take r.offset.toNat ++ p = w.take r'.offset.toNat := by
  have hstop := hin.2.le_length
  obtain ⟨hlo, hp, hoff⟩ := accept_ok (by omega) ha
  refine ⟨by omega, by omega, ?_⟩
  rw [hp, hoff]
  by_cases e : r.offset.toNat ≤ f.offset.toNat + f.payload.length
  · rw [hin.2.take_extend hlo e, Nat.max_eq_right e]
  · rw [List.drop_eq_nil_of_le (by omega), List.append_nil, Nat.max_eq_left (by omega)]

end Turntf.Stream
