/-
  Turntf.Stream.Integrity — the bytes of a stream (`stream_conn.go`).

  Over a transport that loses, repeats, delays and reorders frames, refuses sends or calls
  the peer at once, for any calls on the two ends in any interleaving:

  - `stream_intact`: what the reading end has copied out, followed by its read buffer and
    by what a handler has accepted and not yet appended, is the first `receiver.offset`
    bytes of what the writing end passed to `sender.Data`, and
    `acked ≤ receiver.offset ≤ next`.
  - `eof_truncates`, `eof_after_close`: `io.EOF` says that the peer called `Close`. What was
    read by then is a prefix of what was written and holds all that had been acknowledged
    when `Close` was called, but not all that had been written.

  Each call carries what the frames in its hands must satisfy (`PcOk`), each direction
  what ties its two ends together (`Intact`).
-/

import Turntf.Stream.Effects
import Turntf.Stream.Retention

namespace Turntf.Stream

open Lts Locks Segment Ends

/-- A frame the end `e` has made says nothing that is not so. -/
structure FrameOk (e : StreamEnd) (f : StreamFrame) : Prop where
  data : f.kind = .frameData → InStream e.hist.written f
  ack : f.kind = .frameAck → f.offset ≤ e.conn.receiver.offset
  close : f.kind = .frameClose → e.hist.closedAt.isSome = true

/-- What a call at the end `e` may rely on, `p` being the other end. -/
structure PcOk (e p : StreamEnd) (pc : Pc) : Prop where
  outgoing : ∀ f ∈ pc.outgoing, FrameOk e f
  incoming : ∀ f ∈ pc.incoming, f ∈ p.out
  resume : ∀ epoch acked, pc = .resume (.resume epoch acked) → acked ≤ e.conn.sender.acked
  close : (∃ c, pc = .close c) → e.hist.closedAt.isSome = true
  eof : (∃ t, pc = .handle (.terminate t)) → p.hist.closedAt.isSome = true

/-- One direction, from `e` to `p`, with `hand` accepted at `p` and not yet appended. -/
structure Intact (e p : StreamEnd) (hand : Bytes) : Prop where
  retains : Retains e.conn.sender e.hist.written
  offset : p.conn.receiver.offset.toNat ≤ e.hist.written.length
  received : p.hist.readOut ++ (p.conn.readBuf ++ hand) = e.hist.written.take p.conn.receiver.offset.toNat
  acked : e.conn.sender.acked ≤ p.conn.receiver.offset
  closed : ∀ c ∈ e.hist.closedAt, c.2 ≤ e.conn.sender.acked

/-- What of an end only grows. -/
structure Grows (e e' : StreamEnd) : Prop where
  written : ∃ v, e'.hist.written = e.hist.written ++ v
  offset : e.conn.receiver.offset ≤ e'.conn.receiver.offset
  acked : e.conn.sender.acked ≤ e'.conn.sender.acked
  closedAt : ∀ c ∈ e.hist.closedAt, c ∈ e'.hist.closedAt
  out : ∀ f ∈ e.out, f ∈ e'.out

theorem Grows.refl (e : StreamEnd) : Grows e e :=
  ⟨⟨[], (List.append_nil _).symm⟩, UInt64.le_refl _, UInt64.le_refl _, fun _ h => h, fun _ h => h⟩

theorem Grows.isSome {e e' : StreamEnd} (h : Grows e e') (hc : e.hist.closedAt.isSome = true) :
    e'.hist.closedAt.isSome = true := by
  obtain ⟨c, hc⟩ := Option.isSome_iff_exists.mp hc
  exact Option.isSome_iff_exists.mpr ⟨c, h.closedAt c hc⟩

theorem FrameOk.grow {e e' : StreamEnd} {f : StreamFrame} (h : FrameOk e f) (hg : Grows e e') : FrameOk e' f where
  data hk := by
    obtain ⟨v, hv⟩ := hg.written
    rw [hv]
    exact (h.data hk).grow v
  ack hk := UInt64.le_trans (h.ack hk) hg.offset
  close hk := hg.isSome (h.close hk)

theorem PcOk.grow {e e' p p' : StreamEnd} {pc : Pc} (h : PcOk e p pc) (hg : Grows e e') (hp : Grows p p') :
    PcOk e' p' pc where
  outgoing f hf := (h.outgoing f hf).grow hg
  incoming f hf := hp.out f (h.incoming f hf)
  resume epoch acked he := UInt64.le_trans (h.resume epoch acked he) hg.acked
  close hc := hg.isSome (h.close hc)
  eof ht := hp.isSome (h.eof ht)

/-! ## One step of a call -/

section

variable {e e' p : StreamEnd} {pc : Pc} {n : Next Pc} {sent : Option StreamError} {how : Choice}

/-- `Data`, `Acknowledge` and `Resume` are all that happens to a sender. -/
theorem Effect.sender (h : Effect e pc e' n) :
    (e'.conn.sender = e.conn.sender ∧ e'.hist.written = e.hist.written) ∨
    (∃ q f, e.conn.sender.data q = .ok (f, e'.conn.sender) ∧ e'.hist.written = e.hist.written ++ q) ∨
    (∃ f ∈ pc.incoming, ∃ o, (f.kind = .frameAck ∧ o = f.offset ∨ f.kind = .frameOpenAck ∧ o = 0) ∧
      e.conn.sender.acknowledge f.epoch o f.window = .ok e'.conn.sender ∧ e'.hist.written = e.hist.written) ∨
    (∃ epoch acked fs, pc = .resume (.resume epoch acked) ∧
      e.conn.sender.resume (epoch + 1) acked = .ok (fs, e'.conn.sender) ∧ e'.hist.written = e.hist.written) := by
  cases h with
  | data hk hd => exact .inr (.inl ⟨_, _, hd, rfl⟩)
  | resume hr => exact .inr (.inr (.inr ⟨_, _, _, rfl, hr, rfl⟩))
  | acknowledge ho hs => exact .inr (.inr (.inl ⟨_, List.mem_singleton.mpr rfl, _, ho, hs, rfl⟩))
  | take he => rw [he]; exact .inl ⟨rfl, rfl⟩
  | terminate _ ht =>
    obtain ⟨hh, _, _, _, hc, _⟩ := terminateStep_frame ht
    exact .inl ⟨by rw [hc], by rw [hh]⟩
  | storeCredit =>
    obtain ⟨_, _, _, hc⟩ := e.conn.storeCredit_eq _
    exact .inl ⟨by rw [hc], rfl⟩
  | clear =>
    obtain ⟨_, _, hc⟩ := e.conn.clearResume_eq _
    exact .inl ⟨by rw [hc], rfl⟩
  | _ => exact .inl ⟨rfl, rfl⟩

/-- Bytes come in by `accept` and move from the handler to the buffer and on to the reader.
    All of it happens behind `handleMu`. -/
theorem Effect.received (h : Effect e pc e' n) :
    (e'.conn.receiver.offset = e.conn.receiver.offset ∧
      e'.hist.readOut ++ (e'.conn.readBuf ++ n.hand) = e.hist.readOut ++ (e.conn.readBuf ++ pc.hand) ∧
      (.handleMu ∉ pc.holds →
        e'.hist.readOut = e.hist.readOut ∧ e'.conn.readBuf = e.conn.readBuf ∧ n.hand = pc.hand)) ∨
    (∃ f payload ack, pc = .handle (.accept f) ∧ n.hand = payload ∧
      e.conn.receiver.accept f = .ok (payload, ack, e'.conn.receiver) ∧
      e'.hist.readOut = e.hist.readOut ∧ e'.conn.readBuf = e.conn.readBuf) := by
  cases h with
  | still hh => exact .inl ⟨rfl, by rw [hh], fun _ => ⟨rfl, rfl, hh⟩⟩
  | take he =>
    refine .inl ⟨by rw [he], ?_, fun hn => absurd List.mem_cons_self hn⟩
    rw [he]
    have hh : ∀ q : ReadPc, (Next.goto (.read q)).hand = [] := fun _ => rfl
    rw [hh]
    show (e.hist.readOut ++ e.conn.readBuf.take _) ++ (e.conn.readBuf.drop _ ++ []) = e.hist.readOut ++ (e.conn.readBuf ++ [])
    rw [List.append_nil, List.append_nil, List.append_assoc, List.take_append_drop]
  | accept ha => exact .inr ⟨_, _, _, rfl, rfl, ha, rfl, rfl⟩
  | append =>
    refine .inl ⟨rfl, ?_, fun hn => absurd List.mem_cons_self hn⟩
    show e.hist.readOut ++ ((e.conn.readBuf ++ _) ++ []) = _
    rw [List.append_nil]
    rfl
  | resumed hr =>
    obtain ⟨_, _, hr', _⟩ := receiver_resume_ok hr
    exact .inl ⟨by rw [hr'], rfl, fun _ => ⟨rfl, rfl, rfl⟩⟩
  | terminate hpc ht hh =>
    have hpc' : pc.hand = [] := by
      rcases hpc with ⟨⟨_, rfl⟩, _⟩ | ⟨rfl, _⟩ <;> rfl
    obtain ⟨hist, _, _, _, hc, _⟩ := terminateStep_frame ht
    rw [hist, hc, hh, hpc']
    exact .inl ⟨rfl, rfl, fun _ => ⟨rfl, rfl, rfl⟩⟩
  | storeCredit hpc =>
    obtain ⟨_, _, _, hc⟩ := e.conn.storeCredit_eq _
    rw [hc]
    rcases hpc with rfl | rfl <;> exact .inl ⟨rfl, rfl, fun _ => ⟨rfl, rfl, rfl⟩⟩
  | clear =>
    obtain ⟨_, _, hc⟩ := e.conn.clearResume_eq _
    rw [hc]
    exact .inl ⟨rfl, rfl, fun _ => ⟨rfl, rfl, rfl⟩⟩
  | _ => exact .inl ⟨rfl, rfl, fun _ => ⟨rfl, rfl, rfl⟩⟩

/-- What a `Write` has passed on it reports when it returns, behind `writeMu`. -/
theorem Effect.progress (h : Effect e pc e' n) : ∃ v, e'.hist.written = e.hist.written ++ v ∧
    e'.hist.reported ++ n.progress = e.hist.reported ++ pc.progress ++ v ∧
    (.writeMu ∉ pc.holds → v = [] ∧ e'.hist.reported = e.hist.reported ∧ n.progress = pc.progress) := by
  cases h with
  | still _ hp => exact ⟨[], (List.append_nil _).symm, by rw [hp, List.append_nil], fun _ => ⟨rfl, rfl, hp⟩⟩
  | data hk hd =>
    exact ⟨_, rfl, (List.append_assoc _ _ _).symm, fun hn => absurd List.mem_cons_self hn⟩
  | report =>
    refine ⟨[], (List.append_nil _).symm, ?_, fun hn => absurd List.mem_cons_self hn⟩
    show (e.hist.reported ++ _) ++ [] = _
    rfl
  | take he =>
    rw [he]
    exact ⟨[], (List.append_nil _).symm, (List.append_nil _).symm, fun _ => ⟨rfl, rfl, rfl⟩⟩
  | terminate hpc ht _ hp =>
    have hpc' : pc.progress = [] := by
      rcases hpc with ⟨⟨_, rfl⟩, _⟩ | ⟨rfl, _⟩ <;> rfl
    obtain ⟨hist, _⟩ := terminateStep_frame ht
    rw [hist, hp, hpc']
    exact ⟨[], (List.append_nil _).symm, (List.append_nil _).symm, fun _ => ⟨rfl, rfl, rfl⟩⟩
  | storeCredit hpc =>
    rcases hpc with rfl | rfl <;>
      exact ⟨[], (List.append_nil _).symm, (List.append_nil _).symm, fun _ => ⟨rfl, rfl, rfl⟩⟩
  | _ => exact ⟨[], (List.append_nil _).symm, (List.append_nil _).symm, fun _ => ⟨rfl, rfl, rfl⟩⟩

theorem Effect.closedAt (h : Effect e pc e' n) : e'.hist.closedAt = e.hist.closedAt ∧ e'.out = e.out := by
  cases h with
  | take he => rw [he]; exact ⟨rfl, rfl⟩
  | terminate _ ht =>
    obtain ⟨hh, ho, _⟩ := terminateStep_frame ht
    exact ⟨by rw [hh], ho⟩
  | _ => exact ⟨rfl, rfl⟩

/-- A sender that took in more bytes, or had more acknowledged, of what the peer has. -/
theorem Intact.sender {hand : Bytes} (hi : Intact e p hand) (hr : Retains e'.conn.sender e'.hist.written)
    (hw : ∃ v, e'.hist.written = e.hist.written ++ v) (hc : e'.hist.closedAt = e.hist.closedAt)
    (hlo : e.conn.sender.acked ≤ e'.conn.sender.acked) (hhi : e'.conn.sender.acked ≤ p.conn.receiver.offset) :
    Intact e' p hand := by
  obtain ⟨v, hw⟩ := hw
  refine ⟨hr, ?_, ?_, hhi, ?_⟩
  · rw [hw, List.length_append]
    exact Nat.le_trans hi.offset (Nat.le_add_right _ _)
  · rw [hw, List.take_append_of_le_length hi.offset]
    exact hi.received
  · rw [hc]
    exact fun c hm => UInt64.le_trans (hi.closed c hm) hlo

/-- The step at an end keeps the direction in which it writes. -/
theorem Effect.intact_out {hand : Bytes} (h : Effect e pc e' n) (hi : Intact e p hand) (hpc : PcOk e p pc)
    (hp : ∀ f ∈ p.out, FrameOk p f) (hn : e'.hist.written.length < 2 ^ 64) :
    Intact e' p hand ∧ e.conn.sender.acked ≤ e'.conn.sender.acked := by
  have hcl := h.closedAt.1
  have hgrow : ∃ v, e'.hist.written = e.hist.written ++ v := let ⟨v, hv, _⟩ := h.progress; ⟨v, hv⟩
  rcases h.sender with ⟨hs, hw⟩ | ⟨q, f, hd, hw⟩ | ⟨f, hf, o, ho, ha, hw⟩ | ⟨epoch, acked, fs, rfl, hr, hw⟩
  · have hacked : e'.conn.sender.acked = e.conn.sender.acked := by rw [hs]
    refine ⟨hi.sender ?_ hgrow hcl (UInt64.le_of_eq hacked.symm) (hacked ▸ hi.acked), UInt64.le_of_eq hacked.symm⟩
    rw [hs, hw]
    exact hi.retains
  · rw [hw] at hn
    obtain ⟨_, _, _, _, hs⟩ := data_ok hd
    have hacked : e'.conn.sender.acked = e.conn.sender.acked := by rw [hs]
    refine ⟨hi.sender ?_ hgrow hcl (UInt64.le_of_eq hacked.symm) (hacked ▸ hi.acked), UInt64.le_of_eq hacked.symm⟩
    rw [hw]
    exact (data_retains hi.retains hd hn).1
  · obtain ⟨_, hlo, _, hs⟩ := acknowledge_ok ha
    have hacked : e'.conn.sender.acked = o := by rw [hs]
    have hle : o ≤ p.conn.receiver.offset := by
      rcases ho with ⟨hk, rfl⟩ | ⟨_, rfl⟩
      · exact (hp f (hpc.incoming f hf)).ack hk
      · exact UInt64.zero_le
    refine ⟨hi.sender ?_ hgrow hcl (by rw [hacked]; exact hlo) (by rw [hacked]; exact hle), by rw [hacked]; exact hlo⟩
    rw [hw]
    exact acknowledge_retains hi.retains ha
  · obtain ⟨_, hlo, _, _, hs⟩ := resume_ok hr
    have hacked : e'.conn.sender.acked = acked := by rw [hs]
    have hle := UInt64.le_trans (hpc.resume epoch acked rfl) hi.acked
    refine ⟨hi.sender ?_ hgrow hcl (by rw [hacked]; exact hlo) (by rw [hacked]; exact hle), by rw [hacked]; exact hlo⟩
    rw [hw]
    exact resume_retains hi.retains hr

/-- The step at an end keeps the direction in which it reads; what other calls there have
    in their hands, `l` and `r`, is nothing if this one holds `handleMu`. -/
theorem Effect.intact_in {l r : Bytes} (h : Effect e pc e' n) (hi : Intact p e (l ++ (pc.hand ++ r)))
    (hx : .handleMu ∈ pc.holds → l = [] ∧ r = []) (hpc : PcOk e p pc) (hp : ∀ f ∈ p.out, FrameOk p f) :
    Intact p e' (l ++ (n.hand ++ r)) ∧ e.conn.receiver.offset ≤ e'.conn.receiver.offset := by
  rcases h.received with ⟨ho, hr, hquiet⟩ | ⟨f, payload, ack, rfl, hh, ha, hro, hrb⟩
  · refine ⟨⟨hi.retains, by rw [ho]; exact hi.offset, ?_, by rw [ho]; exact hi.acked, hi.closed⟩,
      by rw [ho]; exact UInt64.le_refl _⟩
    rw [ho, ← hi.received]
    by_cases hm : .handleMu ∈ pc.holds
    · obtain ⟨rfl, rfl⟩ := hx hm
      simpa using hr
    · obtain ⟨h1, h2, h3⟩ := hquiet hm
      rw [h1, h2, h3]
  · obtain ⟨rfl, rfl⟩ := hx List.mem_cons_self
    have hin : InStream p.hist.written f :=
      (hp f (hpc.incoming f (List.mem_singleton.mpr rfl))).data (accept_shape ha).2.1
    obtain ⟨hmono, hle, hext⟩ := accept_extends hi.retains.length_lt hin hi.offset ha
    have hmono' := UInt64.le_iff_toNat_le.mpr hmono
    refine ⟨⟨hi.retains, hle, ?_, UInt64.le_trans hi.acked hmono', hi.closed⟩, hmono'⟩
    have hrec := hi.received
    rw [hro, hrb, hh, ← hext, ← hrec]
    simp [Pc.hand]

theorem frameOk_ack {f : StreamFrame} (hk : f.kind = .frameAck) (ho : f.offset ≤ e.conn.receiver.offset) : FrameOk e f :=
  ⟨by simp [hk], fun _ => ho, by simp [hk]⟩

theorem frameOk_data {f : StreamFrame} (hk : f.kind = .frameData) (hf : InStream e.hist.written f) : FrameOk e f :=
  ⟨fun _ => hf, by simp [hk], by simp [hk]⟩

/-- The window of an Ack is set when it is sent. -/
theorem FrameOk.setWindow {f : StreamFrame} (h : FrameOk e f) (w : UInt64) : FrameOk e { f with window := w } :=
  ⟨h.data, h.ack, h.close⟩

/-- The frames a step makes or passes on are sound. -/
theorem Effect.frames_ok (h : Effect e pc e' n) (hpc : PcOk e p pc) (hg : Grows e e')
    (hr : Retains e'.conn.sender e'.hist.written) : ∀ f ∈ n.frames, FrameOk e' f := by
  have hold : ∀ f ∈ pc.outgoing, FrameOk e' f := fun f hf => (hpc.outgoing f hf).grow hg
  have hpending : ∀ f ∈ e'.conn.sender.pending, FrameOk e' f :=
    fun f hf => frameOk_data (hr.stamp f hf).1 (hr.pending_at f hf)
  intro f hf
  cases h with
  | still _ _ hfr _ => exact hold f (hfr f hf)
  | take he =>
    split at hf
    · cases hf
    · rw [List.mem_singleton.mp hf]
      exact frameOk_ack rfl (UInt64.le_refl _)
  | data hk hd =>
    obtain ⟨_, _, _, _, hs⟩ := data_ok hd
    refine hpending f ?_
    rw [List.mem_singleton.mp hf, hs]
    exact List.mem_append_right _ List.mem_cons_self
  | resume hres =>
    obtain ⟨_, _, _, _, hs⟩ := resume_ok hres
    exact hpending f (by rw [hs]; exact hf)
  | register => exact hold f hf
  | sendResume =>
    rcases List.mem_cons.mp hf with rfl | hf
    · exact ⟨nofun, nofun, nofun⟩
    · exact hold f hf
  | sendClose =>
    rw [List.mem_singleton.mp hf]
    exact ⟨nofun, nofun, fun _ => hpc.close ⟨_, rfl⟩⟩
  | sendOpenAck =>
    rw [List.mem_singleton.mp hf]
    exact ⟨nofun, nofun, nofun⟩
  | resumed hres =>
    obtain ⟨_, _, _, ha⟩ := receiver_resume_ok hres
    rw [List.mem_singleton.mp hf, ha]
    exact frameOk_ack rfl (UInt64.le_refl _)
  | accept ha =>
    obtain ⟨_, _, _, _, _, _, _, hak⟩ := accept_shape ha
    rw [List.mem_singleton.mp hf, hak]
    exact frameOk_ack rfl (UInt64.le_refl _)
  | append =>
    rw [List.mem_singleton.mp hf]
    exact (hold _ List.mem_cons_self).setWindow _
  | window =>
    rw [List.mem_singleton.mp hf]
    exact (hold _ List.mem_cons_self).setWindow _
  | terminate _ _ _ _ hfr => rw [hfr] at hf; cases hf
  | storeCredit hq => rcases hq with rfl | rfl <;> cases hf
  | _ => cases hf

theorem Effect.incoming (h : Effect e pc e' n) : ∀ f ∈ n.incoming, f ∈ pc.incoming := by
  intro f hf
  cases h with
  | still _ _ _ hi => exact hi f hf
  | terminate _ _ _ _ _ hi => rw [hi] at hf; cases hf
  | take => split at hf <;> cases hf
  | storeCredit hq => rcases hq with rfl | rfl <;> cases hf
  | _ => cases hf

/-! ## Where a call may come to -/

theorem pcStep_resume_at {epoch acked : UInt64} (h : pcStep e sent how pc = some (e', n))
    (hn : n.pc? = some (.resume (.resume epoch acked))) : acked = e.conn.sender.acked ∧ e' = e := by
  cases pc with
  | resume pc =>
    obtain ⟨⟨e₁, n₁⟩, hs, he⟩ := Option.map_eq_some_iff.mp h
    cases he
    have hn' : n₁.pc? = some (.resume epoch acked) := by cases n₁ <;> cases hn <;> rfl
    cases pc <;> simp only [resumeStep] at hs <;> (repeat' split at hs) <;> cases hs <;> cases hn'
    exact ⟨rfl, rfl⟩
  | _ => obtain ⟨⟨e₁, n₁⟩, hs, he⟩ := Option.map_eq_some_iff.mp h; cases he; cases n₁ <;> cases hn

theorem pcStep_close_at {c : ClosePc} (h : pcStep e sent how pc = some (e', n)) (hn : n.pc? = some (.close c)) :
    ∃ c', pc = .close c' := by
  cases pc with
  | close c' => exact ⟨c', rfl⟩
  | _ => obtain ⟨⟨e₁, n₁⟩, hs, he⟩ := Option.map_eq_some_iff.mp h; cases he; cases n₁ <;> cases hn

/-- A handler comes to `terminate` with a Close. -/
theorem pcStep_eof_at {t : TerminatePc} (h : pcStep e sent how pc = some (e', n))
    (hn : n.pc? = some (.handle (.terminate t))) :
    (∃ t', pc = .handle (.terminate t')) ∨ ∃ f, f ∈ pc.incoming ∧ f.kind = .frameClose := by
  cases pc with
  | handle pc =>
    obtain ⟨⟨e₁, n₁⟩, hs, he⟩ := Option.map_eq_some_iff.mp h
    cases he
    have hn' : n₁.pc? = some (.terminate t) := by cases n₁ <;> cases hn <;> rfl
    cases pc with
    | terminate t' => exact .inl ⟨t', rfl⟩
    | dispatch f =>
      simp only [handleStep, dispatchStep, acknowledgeStep] at hs
      (repeat' split at hs) <;> cases hs <;> cases hn'
      rename_i hk _
      exact .inr ⟨f, List.mem_singleton.mpr rfl, hk⟩
    | _ => simp only [handleStep, enterStep] at hs; (repeat' split at hs) <;> cases hs <;> cases hn'
  | _ => obtain ⟨⟨e₁, n₁⟩, hs, he⟩ := Option.map_eq_some_iff.mp h; cases he; cases n₁ <;> cases hn

/-- What a call may rely on, it may rely on after its step. -/
theorem pcStep_ok {pc' : Pc} (h : pcStep e sent how pc = some (e', n)) (hn : n.pc? = some pc') (hpc : PcOk e p pc)
    (hp : ∀ f ∈ p.out, FrameOk p f) (hg : Grows e e') (hr : Retains e'.conn.sender e'.hist.written) :
    PcOk e' p pc' where
  outgoing f hf := by
    refine (pcStep_effect h).frames_ok hpc hg hr f ?_
    cases n <;> cases hn
    · exact hf
    · exact List.mem_cons_of_mem _ hf
  incoming f hf := by
    refine hpc.incoming f ((pcStep_effect h).incoming f ?_)
    rw [Next.incoming, hn]
    exact hf
  resume epoch acked he := by
    subst he
    obtain ⟨ha, rfl⟩ := pcStep_resume_at h hn
    exact UInt64.le_of_eq ha
  close hc := by
    obtain ⟨c, rfl⟩ := hc
    exact hg.isSome (hpc.close (pcStep_close_at h hn))
  eof ht := by
    obtain ⟨t, rfl⟩ := ht
    rcases pcStep_eof_at h hn with ht | ⟨f, hf, hk⟩
    · exact hpc.eof ht
    · exact (hp f (hpc.incoming f hf)).close hk

end

/-! ## Both ends -/

/-- A frame arrives only if the peer gave it to the transport; it may arrive any number of
    times, at any time, or never. -/
def Network (s : Sys) : Move → Prop
  | .call x (.handleFrame f) => f ∈ (s.ends x.peer).out
  | _ => True

instance : ∀ s m, Decidable (Network s m)
  | s, .call x (.handleFrame f) => inferInstanceAs (Decidable (f ∈ (s.ends x.peer).out))
  | _, .call _ (.read _) | _, .call _ (.write _) | _, .call _ .resume | _, .call _ .close | _, .run .. => .isTrue trivial

structure Sound (s : Sys) : Prop where
  out : ∀ x, ∀ f ∈ (s.ends x).out, FrameOk (s.ends x) f
  calls : ∀ y ∈ s.acts, PcOk (s.ends y.side) (s.ends y.side.peer) y.pc
  intact : ∀ x, Intact (s.ends x) (s.ends x.peer) (s.hand x.peer)

/-- The bytes written in each direction stay below `2^64`. -/
def Counted (s : Sys) : Prop := ∀ x, (s.ends x).hist.written.length < 2 ^ 64

theorem noteCall_frame (e : StreamEnd) (c : Call) :
    (Sys.noteCall e c).conn = e.conn ∧ (Sys.noteCall e c).out = e.out ∧
      ∃ at', (Sys.noteCall e c).hist = { e.hist with closedAt := at' } ∧
        (at' = e.hist.closedAt ∨ c = .close ∧ at' = (e.hist.closedAt <|> some (e.hist.reported, e.conn.sender.acked))) := by
  cases c <;> first
    | exact ⟨rfl, rfl, _, rfl, .inl rfl⟩
    | exact ⟨rfl, rfl, _, rfl, .inr ⟨rfl, rfl⟩⟩

theorem noteCall_grows (e : StreamEnd) (c : Call) : Grows e (Sys.noteCall e c) := by
  obtain ⟨hc, ho, at', hh, ha⟩ := noteCall_frame e c
  refine ⟨⟨[], by rw [hh, List.append_nil]⟩, by rw [hc]; exact UInt64.le_refl _, by rw [hc]; exact UInt64.le_refl _, ?_,
    fun f hf => by rw [ho]; exact hf⟩
  intro c hm
  rw [hh]
  rcases ha with rfl | ⟨_, rfl⟩
  · exact hm
  · simp only [Option.mem_def] at hm ⊢
    simp [hm]

/-- The first `Close` call notes what is acknowledged by then. -/
theorem noteCall_intact {e p : StreamEnd} {hand : Bytes} (c : Call) (h : Intact e p hand) :
    Intact (Sys.noteCall e c) p hand := by
  obtain ⟨hc, _, at', hh, ha⟩ := noteCall_frame e c
  refine ⟨by rw [hc, hh]; exact h.retains, by rw [hh]; exact h.offset, by rw [hh]; exact h.received,
    by rw [hc]; exact h.acked, ?_⟩
  rw [hh, hc]
  intro d hd
  rcases ha with rfl | ⟨_, rfl⟩
  · exact h.closed d hd
  · cases hcl : e.hist.closedAt with
    | some d' =>
      simp only [hcl, Option.mem_def] at hd
      cases hd
      exact h.closed _ hcl
    | none =>
      simp only [hcl, Option.mem_def] at hd
      cases hd
      exact UInt64.le_refl _

/-- A call comes with nothing in its hands but the frame it is to handle. -/
theorem start_ok {e p : StreamEnd} {c : Call} {pc : Pc} (h : c.start = some pc)
    (hf : ∀ f, c = .handleFrame f → f ∈ p.out) (hc : c = .close → e.hist.closedAt.isSome = true) : PcOk e p pc := by
  have hidle {pc : Pc} (ho : pc.outgoing = []) (hi : pc.incoming = [])
      (hr : ∀ epoch acked, pc ≠ .resume (.resume epoch acked)) (hcl : ∀ c, pc ≠ .close c) (hh : ∀ h, pc ≠ .handle h) :
      PcOk e p pc := by
    refine ⟨by simp [ho], by simp [hi], fun epoch acked he => absurd he (hr epoch acked), ?_, ?_⟩
    · rintro ⟨c, he⟩
      exact absurd he (hcl c)
    · rintro ⟨t, he⟩
      exact absurd he (hh _)
  cases c with
  | handleFrame f =>
    cases h
    refine ⟨fun _ ho => absurd ho List.not_mem_nil, fun g hg => ?_, fun _ _ he => ?_, ?_, ?_⟩
    · rw [List.mem_singleton.mp hg]
      exact hf f rfl
    · cases he
    · rintro ⟨_, ⟨⟩⟩
    · rintro ⟨_, ⟨⟩⟩
  | close =>
    cases h
    refine ⟨fun _ ho => absurd ho List.not_mem_nil, fun _ hi => absurd hi List.not_mem_nil, fun _ _ he => ?_,
      fun _ => hc rfl, ?_⟩
    · cases he
    · rintro ⟨_, ⟨⟩⟩
  | resume =>
    cases h
    exact hidle rfl rfl (fun _ _ => by simp) (fun _ => Pc.noConfusion) fun _ => Pc.noConfusion
  | read k =>
    simp only [Call.start] at h
    split at h <;> cases h
    exact hidle rfl rfl (fun _ _ => Pc.noConfusion) (fun _ => Pc.noConfusion) fun _ => Pc.noConfusion
  | write q =>
    simp only [Call.start] at h
    split at h <;> cases h
    exact hidle rfl rfl (fun _ _ => Pc.noConfusion) (fun _ => Pc.noConfusion) fun _ => Pc.noConfusion

theorem start_empty {c : Call} {x y : Side} (φ : Pc → Bytes) (hφ : ∀ pc, c.start = some pc → φ pc = []) :
    gather φ y (c.start.map fun pc => (⟨x, pc⟩ : Act)).toList = [] := by
  cases hc : c.start with
  | none => rfl
  | some pc => simp [gather, hφ pc hc]

theorem Calls.hand {s s' : Sys} {x : Side} {c : Call} (hc : Calls s s' x c) (y : Side) : s'.hand y = s.hand y := by
  rw [Sys.hand, hc.acts', gather_append, start_empty Pc.hand, List.append_nil]
  · rfl
  · intro pc hpc
    cases c <;> simp only [Call.start] at hpc <;> (try split at hpc) <;> cases hpc <;> rfl

theorem call_sound {s s' : Sys} {x : Side} {c : Call} (h : Sound s) (hc : Calls s s' x c)
    (hn : Network s (.call x c)) : Sound s' := by
  have hg := noteCall_grows (s.ends x) c
  have hout : ∀ y, Grows (s.ends y) (s'.ends y) := by
    intro y
    by_cases e : y = x
    · rw [e, hc.own]; exact hg
    · rw [Side.eq_peer_of_ne e, hc.other]; exact Grows.refl _
  refine ⟨fun y f hf => ?_, fun y hy => ?_, fun y => ?_⟩
  · have : f ∈ (s.ends y).out := by
      by_cases e : y = x
      · rw [e] at hf ⊢
        rwa [hc.own, (noteCall_frame _ c).2.1] at hf
      · rw [Side.eq_peer_of_ne e] at hf ⊢
        rwa [hc.other] at hf
    exact (h.out y f this).grow (hout y)
  · rw [hc.acts'] at hy
    rcases List.mem_append.mp hy with hy | hy
    · exact (h.calls y hy).grow (hout _) (hout _)
    · obtain ⟨pc, hpc, rfl⟩ := Option.map_eq_some_iff.mp (Option.mem_toList.mp hy)
      refine start_ok hpc ?_ ?_
      · intro f hf
        subst hf
        rw [hc.other]
        exact hn
      · rintro rfl
        show (s'.ends x).hist.closedAt.isSome = true
        rw [hc.own]
        simp only [Sys.noteCall]
        cases (s.ends x).hist.closedAt <;> rfl
  · rw [hc.hand]
    by_cases e : y = x
    · rw [e, hc.own, hc.other]
      exact noteCall_intact c (h.intact x)
    · have he := Side.eq_peer_of_ne e
      have hi := h.intact y
      rw [he, Side.peer_peer] at hi ⊢
      rw [hc.own, hc.other]
      obtain ⟨hconn, _, _, hh, _⟩ := noteCall_frame (s.ends x) c
      exact ⟨hi.retains, by rw [hconn]; exact hi.offset, by rw [hconn, hh]; exact hi.received,
        by rw [hconn]; exact hi.acked, hi.closed⟩

/-- What an end had, and frames it has given to the transport since. -/
theorem grows_out {e : StreamEnd} (extra : List StreamFrame) : Grows e { e with out := e.out ++ extra } :=
  ⟨⟨[], (List.append_nil _).symm⟩, UInt64.le_refl _, UInt64.le_refl _, fun _ h => h,
    fun _ h => List.mem_append_left _ h⟩

theorem Grows.trans {e₁ e₂ e₃ : StreamEnd} (h : Grows e₁ e₂) (h' : Grows e₂ e₃) : Grows e₁ e₃ := by
  refine ⟨?_, UInt64.le_trans h.offset h'.offset, UInt64.le_trans h.acked h'.acked,
    fun c hc => h'.closedAt c (h.closedAt c hc), fun f hf => h'.out f (h.out f hf)⟩
  obtain ⟨v, hv⟩ := h.written
  obtain ⟨v', hv'⟩ := h'.written
  exact ⟨v ++ v', by rw [hv', hv, List.append_assoc]⟩

theorem move_sound {s s' : Sys} {i : Nat} {how : Choice} (hx : Exclusive Act.holds s.acts) (h : Sound s)
    (mv : Moves s s' i how) (hn : Counted s') : Sound s' := by
  obtain ⟨e, n, extra, hi⟩ := mv.inner
  have hpc := h.calls mv.x mv.mem_self
  have hp := h.out mv.x.side.peer
  have hown : s'.ends mv.x.side = { e with out := e.out ++ extra } := by rw [mv.own, hi.own]
  have hcount : e.hist.written.length < 2 ^ 64 := by
    have := hn mv.x.side
    rwa [hown] at this
  have hhand' : s'.hand mv.x.side =
      gather Pc.hand mv.x.side mv.L ++ (n.hand ++ gather Pc.hand mv.x.side mv.R) := hi.gather_own fun _ => rfl
  have hhandp : s'.hand mv.x.side.peer = s.hand mv.x.side.peer := hi.gather_peer fun _ => rfl
  have hin := h.intact mv.x.side.peer
  rw [Side.peer_peer, Sys.hand, mv.gather_own] at hin
  obtain ⟨hto, hacked⟩ := hi.effect.intact_out (h.intact mv.x.side) hpc hp hcount
  obtain ⟨hfrom, hoffset⟩ := hi.effect.intact_in hin (mv.gather_others hx fun _ => Pc.hand_of_free) hpc hp
  have hg : Grows (s.ends mv.x.side) e := by
    obtain ⟨hc, ho⟩ := hi.effect.closedAt
    obtain ⟨v, hv, _⟩ := hi.effect.progress
    exact ⟨⟨v, hv⟩, hoffset, hacked, fun c hm => by rw [hc]; exact hm, fun f hf => by rw [ho]; exact hf⟩
  have hgrow : ∀ y, Grows (s.ends y) (s'.ends y) := by
    intro y
    by_cases e : y = mv.x.side
    · rw [e, hown]; exact hg.trans (grows_out extra)
    · rw [Side.eq_peer_of_ne e, mv.other]; exact Grows.refl _
  have hframes := hi.effect.frames_ok hpc hg hto.retains
  refine ⟨fun y f hf => ?_, fun y hy => ?_, fun y => ?_⟩
  · by_cases he : y = mv.x.side
    · subst he
      rw [hown] at hf
      rcases List.mem_append.mp hf with hf | hf
      · rw [hi.effect.closedAt.2] at hf
        exact (h.out _ f hf).grow (hgrow _)
      · rw [hown]
        exact (hframes f (hi.given f hf)).grow (grows_out extra)
    · rw [Side.eq_peer_of_ne he, mv.other] at hf ⊢
      exact hp f hf
  · rcases mv.mem_cases hy with hy | hy
    · exact (h.calls y (mv.mem_others hy)).grow (hgrow _) (hgrow _)
    rcases hi.new y hy with ⟨hside, hnpc⟩ | ⟨f, hf, rfl⟩
    · rw [hside, hown, mv.other]
      exact (pcStep_ok hi.step hnpc hpc hp hg hto.retains).grow (grows_out extra) (Grows.refl _)
    · refine ⟨nofun, fun g hgm => ?_, nofun, nofun, nofun⟩
      rw [List.mem_singleton.mp hgm, Side.peer_peer, hown]
      exact List.mem_append_right _ hf
  · by_cases he : y = mv.x.side
    · subst he
      rw [hhandp, hown, mv.other]
      exact ⟨hto.retains, hto.offset, hto.received, hto.acked, hto.closed⟩
    · rw [Side.eq_peer_of_ne he, Side.peer_peer, hhand', hown, mv.other]
      exact ⟨hfrom.retains, hfrom.offset, hfrom.received, hfrom.acked, hfrom.closed⟩

theorem step_written {s s' : Sys} {m : Move} (hs : s.step m = some s') (x : Side) :
    ∃ v, (s'.ends x).hist.written = (s.ends x).hist.written ++ v := by
  rcases step_cases hs with ⟨y, c, _, hc⟩ | ⟨i, how, _, ⟨mv⟩⟩
  · by_cases e : x = y
    · rw [e, hc.own]; exact (noteCall_grows _ c).written
    · rw [Side.eq_peer_of_ne e, hc.other]; exact ⟨[], (List.append_nil _).symm⟩
  · obtain ⟨e, n, extra, hi⟩ := mv.inner
    by_cases he : x = mv.x.side
    · obtain ⟨v, hv, _⟩ := hi.effect.progress
      rw [he, mv.own, hi.own]
      exact ⟨v, hv⟩
    · rw [Side.eq_peer_of_ne he, mv.other]; exact ⟨[], (List.append_nil _).symm⟩

theorem step_counted {s s' : Sys} {m : Move} (hs : s.step m = some s') (h : Counted s') : Counted s := by
  intro x
  obtain ⟨v, hv⟩ := step_written hs x
  have := h x
  rw [hv, List.length_append] at this
  omega

section

variable {id : StreamID} {window : Side → UInt64} {maxFrameSize : Side → Nat} {accepted : Side → Bool} {s : Sys}

theorem new_sound : Sound (Sys.new id window maxFrameSize accepted) where
  out x f hf := by
    replace hf : f ∈ if accepted x then [] else _ := hf
    split at hf
    · cases hf
    · rw [List.mem_singleton.mp hf]
      exact ⟨nofun, nofun, nofun⟩
  calls _ h := by cases h
  intact x := ⟨new_retains _ _ _, Nat.le_refl 0, rfl, UInt64.le_refl 0, nofun⟩

theorem sound (h : Reach Sys.step Network (fun s => s = Sys.new id window maxFrameSize accepted) s) (hn : Counted s) :
    Sound s := by
  refine h.keeps (P := fun s => Counted s → Sound s) ?_ ?_ hn
  · intro s hs _
    exact hs ▸ new_sound
  · intro s m t hr ih hok hs hn
    have hsound := ih (step_counted hs hn)
    rcases step_cases hs with ⟨x, c, rfl, hc⟩ | ⟨i, how, _, ⟨mv⟩⟩
    · exact call_sound hsound hc hok
    · exact move_sound (exclusive (fun _ hi => by rw [hi]; rfl) hr) hsound mv hn

/-- In each direction the bytes read, then those buffered, then those just accepted are the
    first `receiver.offset` bytes written. -/
theorem stream_intact (h : Reach Sys.step Network (fun s => s = Sys.new id window maxFrameSize accepted) s)
    (hn : Counted s) (x : Side) :
    (s.ends x.peer).hist.readOut ++ ((s.ends x.peer).conn.readBuf ++ s.hand x.peer) =
        (s.ends x).hist.written.take (s.ends x.peer).conn.receiver.offset.toNat ∧
      (⟨x.peer, .handleMu⟩ ∉ s.held →
        (s.ends x.peer).hist.readOut ++ (s.ends x.peer).conn.readBuf =
          (s.ends x).hist.written.take (s.ends x.peer).conn.receiver.offset.toNat) ∧
      (s.ends x).conn.sender.acked ≤ (s.ends x.peer).conn.receiver.offset ∧
      (s.ends x.peer).conn.receiver.offset ≤ (s.ends x).conn.sender.next := by
  have hi := (sound h hn).intact x
  refine ⟨hi.received, fun hfree => ?_, hi.acked, ?_⟩
  · have hnone : s.hand x.peer = [] := by
      refine gather_elsewhere (fun _ => Pc.hand_of_free) fun y hy hl => hfree ?_
      exact List.mem_flatMap.mpr ⟨y, hy, hl⟩
    have := hi.received
    rwa [hnone, List.append_nil] at this
  · rw [UInt64.le_iff_toNat_le, hi.retains.next]
    exact hi.offset

/-- The first Data frame and its Ack are lost, a resume goes through, and the frame it sends
    again arrives twice. -/
theorem stream_intact_resumed : ∃ s : Sys, (s.ends .b).hist.readOut = [1, 2] ∧ (s.ends .b).conn.readBuf = [3] ∧
    (s.ends .b).hist.readOut ++ ((s.ends .b).conn.readBuf ++ s.hand .b) =
      (s.ends .a).hist.written.take (s.ends .b).conn.receiver.offset.toNat := by
  let resume : StreamFrame := { kind := .frameResume, id := sampleID, epoch := 2 }
  let ack : StreamFrame := { kind := .frameAck, id := sampleID, epoch := 2, window := 8 }
  let data : StreamFrame := { kind := .frameData, id := sampleID, epoch := 2, payload := [1, 2, 3] }
  have h : ((exec (guarded Sys.step Network) (samplePair 8) (List.flatten
      [[.call .a (.write [1, 2, 3])], runs 0 9 .taken, [.call .a .resume], runs 1 7 .taken,
        [.call .b (.handleFrame resume)], runs 2 9 .taken, [.call .a (.handleFrame ack)], runs 3 6 .taken,
        runs 1 1 .go, runs 1 4 .taken, [.call .b (.handleFrame data)], runs 4 12 .taken,
        [.call .b (.handleFrame data)], runs 5 12 .taken, [.call .b (.read 2)], runs 6 9 .taken])).any fun s =>
      (s.ends .b).hist.readOut = [1, 2] ∧ (s.ends .b).conn.readBuf = [3] ∧
        (s.ends .a).hist.written.length < 2 ^ 64 ∧ (s.ends .b).hist.written.length < 2 ^ 64) = true := by
    decide +kernel
  obtain ⟨s, hs, hw⟩ := reach_any (I := fun s => s = samplePair 8) _ (.init rfl) h
  simp only [decide_eq_true_eq] at hw
  obtain ⟨hr, hb, ha', hb'⟩ := hw
  have hn : Counted s := fun x => by cases x <;> assumption
  exact ⟨s, hr, hb, (stream_intact hs hn .a).1⟩

end

/-! ## End of file -/

/-- A handler of Data that has found the connection open. -/
def Pc.Checked : Pc → Prop
  | .handle (.accept _) | .handle (.lockAppend ..) | .handle (.append ..) => True
  | _ => False

theorem Pc.Checked.holds {pc : Pc} (h : pc.Checked) : .handleMu ∈ pc.holds := by
  cases pc with
  | handle pc => cases pc <;> first | exact List.mem_cons_self | cases h
  | _ => cases h

theorem Pc.hand_of_not_checked {pc : Pc} (h : ¬ pc.Checked) : pc.hand = [] := by
  cases pc with
  | handle pc => cases pc <;> first | rfl | exact absurd trivial h
  | _ => rfl

section

variable {e e' p : StreamEnd} {pc : Pc} {n : Next Pc} {sent : Option StreamError} {how : Choice}

/-- A close reason is set by `terminate`, and `io.EOF` only by the handler of a Close. -/
theorem Effect.closeErr (h : Effect e pc e' n) :
    e'.conn.closeErr = e.conn.closeErr ∨ e'.conn.closeErr = some .closed ∨
      (∃ t, pc = .handle (.terminate t)) ∧ e'.conn.closeErr = some .eof := by
  cases h with
  | take he => rw [he]; exact .inl rfl
  | terminate hpc ht =>
    obtain ⟨_, _, _, _, hc, ⟨hr, _⟩ | ⟨_, hr, _⟩⟩ := terminateStep_frame ht
    · rw [hc]
      exact .inl hr
    · rw [hc]
      rcases hpc with ⟨_, rfl⟩ | ⟨rfl, rfl⟩
      · exact .inr (.inl hr)
      · exact .inr (.inr ⟨⟨_, rfl⟩, hr⟩)
  | storeCredit =>
    obtain ⟨_, _, _, hc⟩ := e.conn.storeCredit_eq _
    rw [hc]
    exact .inl rfl
  | clear =>
    obtain ⟨_, _, hc⟩ := e.conn.clearResume_eq _
    rw [hc]
    exact .inl rfl
  | _ => exact .inl rfl

theorem Effect.eofs (h : Effect e pc e' n) : ∀ r ∈ e'.hist.eofs, r ∈ e.hist.eofs ∨
    r = e.hist.readOut ∧ e.conn.readBuf = [] ∧ e.conn.closeErr = some .eof := by
  intro r hr
  cases h with
  | closed hb hc =>
    rcases List.mem_append.mp hr with hr | hr
    · exact .inl hr
    · split at hr
      · rename_i he
        exact .inr ⟨List.mem_singleton.mp hr, hb, by rw [hc, he]⟩
      · cases hr
  | take he => rw [he] at hr; exact .inl hr
  | terminate _ ht =>
    rw [(terminateStep_frame ht).1] at hr
    exact .inl hr
  | _ => exact .inl hr

/-- A handler passes the check of `handleData` only while there is no close reason. -/
theorem pcStep_checked_at {pc' : Pc} (h : pcStep e sent how pc = some (e', n)) (hn : n.pc? = some pc')
    (hc : pc'.Checked) : e'.conn.closeErr = e.conn.closeErr ∧ (pc.Checked ∨ e.conn.closeErr = none) := by
  cases pc with
  | handle pc =>
    obtain ⟨⟨e₁, n₁⟩, hs, he⟩ := Option.map_eq_some_iff.mp h
    cases he
    obtain ⟨hd, hn', rfl⟩ := Next.pc?_map hn
    cases pc with
    | terminate t =>
      obtain ⟨⟨e₂, _ | t'⟩, _, he⟩ := Option.map_eq_some_iff.mp hs <;> cases he <;> cases hn' <;> cases hc
    | checkData f u =>
      simp only [handleStep] at hs
      split at hs
      · cases hs; cases hn'; cases hc
      · rename_i hcheck
        cases hs; cases hn'
        refine ⟨rfl, .inr ?_⟩
        unfold StreamConn.checkData at hcheck
        split at hcheck
        · cases hcheck
        · assumption
    | accept f => simp only [handleStep] at hs; split at hs <;> cases hs <;> exact ⟨rfl, .inl trivial⟩
    | lockAppend payload ack => cases hs; exact ⟨rfl, .inl trivial⟩
    | append payload ack => cases hs; exact ⟨rfl, .inl trivial⟩
    | _ =>
      simp only [handleStep, enterStep, dispatchStep, acknowledgeStep] at hs
      (repeat' split at hs) <;> cases hs <;> cases hn' <;> cases hc
  | _ => obtain ⟨⟨e₁, n₁⟩, hs, he⟩ := Option.map_eq_some_iff.mp h; cases he; cases n₁ <;> cases hn <;> cases hc

end

/-- Of the bytes read when `Read` returned `io.EOF`. -/
structure EofOk (p : StreamEnd) (r : Bytes) : Prop where
  read : r <+: p.hist.written
  closed : ∃ c ∈ p.hist.closedAt, c.2.toNat ≤ r.length

structure Ended (s : Sys) : Prop where
  reported : ∀ x, (s.ends x).hist.reported ++ s.progress x = (s.ends x).hist.written
  closedAt : ∀ x, ∀ c ∈ (s.ends x).hist.closedAt, c.1 <+: (s.ends x).hist.written
  checked : ∀ y ∈ s.acts, y.pc.Checked → (s.ends y.side).conn.closeErr ≠ some .eof
  eof : ∀ x, (s.ends x).conn.closeErr = some .eof → (s.ends x.peer).hist.closedAt.isSome = true
  eofs : ∀ x, ∀ r ∈ (s.ends x).hist.eofs, EofOk (s.ends x.peer) r

theorem EofOk.grow {p p' : StreamEnd} {r : Bytes} (h : EofOk p r) (hw : ∃ v, p'.hist.written = p.hist.written ++ v)
    (hc : ∀ c ∈ p.hist.closedAt, c ∈ p'.hist.closedAt) : EofOk p' r := by
  obtain ⟨v, hv⟩ := hw
  obtain ⟨c, hm, hle⟩ := h.closed
  exact ⟨hv ▸ h.read.trans (List.prefix_append _ _), c, hc c hm, hle⟩

/-- When there is nothing left to read after a Close, all that was accepted has been read. -/
theorem eof_ok {s : Sys} {x : Side} (hs : Sound s) (h : Ended s) (hb : (s.ends x).conn.readBuf = [])
    (hc : (s.ends x).conn.closeErr = some .eof) : EofOk (s.ends x.peer) (s.ends x).hist.readOut := by
  have hi := hs.intact x.peer
  rw [Side.peer_peer] at hi
  have hhand : s.hand x = [] := by
    refine List.flatMap_eq_nil_iff.mpr fun y hy => ?_
    split
    · rename_i hside
      refine Pc.hand_of_not_checked fun hch => h.checked y hy hch ?_
      rw [hside]
      exact hc
    · rfl
  have hread := hi.received
  rw [hb, hhand, List.append_nil, List.append_nil] at hread
  obtain ⟨c, hcl⟩ := Option.isSome_iff_exists.mp (h.eof x hc)
  refine ⟨hread ▸ List.take_prefix _ _, c, hcl, ?_⟩
  have hlen : (s.ends x).hist.readOut.length = (s.ends x).conn.receiver.offset.toNat := by
    rw [hread, List.length_take, Nat.min_eq_left hi.offset]
  rw [hlen]
  exact UInt64.le_iff_toNat_le.mp (UInt64.le_trans (hi.closed c hcl) hi.acked)

theorem call_ended {s s' : Sys} {x : Side} {c : Call} (h : Ended s) (hc : Calls s s' x c) : Ended s' := by
  obtain ⟨hconn, _, at', hh, ha⟩ := noteCall_frame (s.ends x) c
  have hends : ∀ y, (s'.ends y).conn = (s.ends y).conn ∧ (s'.ends y).hist.written = (s.ends y).hist.written ∧
      (s'.ends y).hist.reported = (s.ends y).hist.reported ∧ (s'.ends y).hist.eofs = (s.ends y).hist.eofs := by
    intro y
    by_cases e : y = x
    · rw [e, hc.own, hconn, hh]; exact ⟨rfl, rfl, rfl, rfl⟩
    · rw [Side.eq_peer_of_ne e, hc.other]; exact ⟨rfl, rfl, rfl, rfl⟩
  have hgrow : ∀ y, ∀ d ∈ (s.ends y).hist.closedAt, d ∈ (s'.ends y).hist.closedAt := by
    intro y
    by_cases e : y = x
    · rw [e, hc.own]; exact (noteCall_grows _ c).closedAt
    · rw [Side.eq_peer_of_ne e, hc.other]; exact fun _ hd => hd
  refine ⟨fun y => ?_, fun y d hd => ?_, fun y hy hch => ?_, fun y he => ?_, fun y r hr => ?_⟩
  · have hprog : s'.progress y = s.progress y := by
      rw [Sys.progress, hc.acts', gather_append, start_empty Pc.progress, List.append_nil]
      · rfl
      · intro pc hpc
        cases c <;> simp only [Call.start] at hpc <;> (try split at hpc) <;> cases hpc <;> rfl
    rw [(hends y).2.2.1, (hends y).2.1, hprog]
    exact h.reported y
  · rw [(hends y).2.1]
    by_cases e : y = x
    · subst e
      rw [hc.own, hh] at hd
      rcases ha with rfl | ⟨_, rfl⟩
      · exact h.closedAt y d hd
      · cases hcl : (s.ends y).hist.closedAt with
        | some d' =>
          simp only [hcl, Option.mem_def] at hd
          cases hd
          exact h.closedAt y _ hcl
        | none =>
          simp only [hcl, Option.mem_def] at hd
          cases hd
          exact ⟨_, h.reported y⟩
    · rw [Side.eq_peer_of_ne e, hc.other] at hd
      rw [Side.eq_peer_of_ne e]
      exact h.closedAt _ d hd
  · rw [hc.acts'] at hy
    rw [(hends _).1]
    rcases List.mem_append.mp hy with hy | hy
    · exact h.checked y hy hch
    · obtain ⟨pc, hpc, rfl⟩ := Option.map_eq_some_iff.mp (Option.mem_toList.mp hy)
      cases c <;> simp only [Call.start] at hpc <;> (try split at hpc) <;> cases hpc <;> cases hch
  · rw [(hends y).1] at he
    obtain ⟨d, hd⟩ := Option.isSome_iff_exists.mp (h.eof y he)
    exact Option.isSome_iff_exists.mpr ⟨d, hgrow _ d hd⟩
  · rw [(hends y).2.2.2] at hr
    exact (h.eofs y r hr).grow ⟨[], by rw [(hends _).2.1, List.append_nil]⟩ (hgrow _)

theorem move_ended {s s' : Sys} {i : Nat} {how : Choice} (hx : Exclusive Act.holds s.acts) (hs : Sound s) (h : Ended s)
    (mv : Moves s s' i how) : Ended s' := by
  obtain ⟨e, n, extra, hi⟩ := mv.inner
  have hown : s'.ends mv.x.side = { e with out := e.out ++ extra } := by rw [mv.own, hi.own]
  obtain ⟨v, hv, hrep, hquiet⟩ := hi.effect.progress
  have hpc := hs.calls mv.x mv.mem_self
  have hwritten : ∀ y, ∃ v, (s'.ends y).hist.written = (s.ends y).hist.written ++ v := by
    intro y
    by_cases e : y = mv.x.side
    · rw [e, hown]; exact ⟨v, hv⟩
    · rw [Side.eq_peer_of_ne e, mv.other]; exact ⟨[], (List.append_nil _).symm⟩
  have hclosed : ∀ y, (s'.ends y).hist.closedAt = (s.ends y).hist.closedAt := by
    intro y
    by_cases e : y = mv.x.side
    · rw [e, hown]; exact hi.effect.closedAt.1
    · rw [Side.eq_peer_of_ne e, mv.other]
  refine ⟨fun y => ?_, fun y d hd => ?_, fun y hy hch => ?_, fun y he => ?_, fun y r hr => ?_⟩
  · by_cases he : y = mv.x.side
    · subst he
      have hbefore := h.reported mv.x.side
      rw [Sys.progress, mv.gather_own] at hbefore
      rw [hown, Sys.progress, hi.gather_own fun _ => rfl]
      show e.hist.reported ++ (_ ++ (n.progress ++ _)) = e.hist.written
      by_cases hm : .writeMu ∈ mv.x.pc.holds
      · obtain ⟨hl, hr⟩ := mv.gather_others hx (fun _ => Pc.progress_of_free) hm
        rw [hl, hr, List.nil_append, List.append_nil] at hbefore ⊢
        rw [hrep, hv, hbefore]
      · obtain ⟨rfl, h1, h2⟩ := hquiet hm
        rw [h1, h2, hv, List.append_nil]
        exact hbefore
    · rw [Side.eq_peer_of_ne he, mv.other, Sys.progress, hi.gather_peer fun _ => rfl]
      exact h.reported _
  · rw [hclosed] at hd
    obtain ⟨v, hv⟩ := hwritten y
    rw [hv]
    exact (h.closedAt y d hd).trans (List.prefix_append _ _)
  · rcases mv.mem_cases hy with hy | hy
    · have hold := h.checked y (mv.mem_others hy) hch
      by_cases he : y.side = mv.x.side
      · rw [he] at hold
        rw [he, hown]
        rcases hi.effect.closeErr with hce | hce | ⟨⟨t, ht⟩, _⟩
        · exact hce ▸ hold
        · show e.conn.closeErr ≠ _
          rw [hce]
          simp
        · -- `io.EOF` is set behind `handleMu`, so no handler of Data has passed its check then
          exact absurd hch.holds (mv.alone hx hy he (by rw [ht]; exact List.mem_cons_self))
      · rw [Side.eq_peer_of_ne he] at hold ⊢
        rwa [mv.other]
    rcases hi.new y hy with ⟨hside, hn⟩ | ⟨f, _, rfl⟩
    · rw [hside, hown]
      obtain ⟨hce, hor⟩ := pcStep_checked_at hi.step hn hch
      show e.conn.closeErr ≠ _
      rw [hce]
      rcases hor with hor | hor
      · exact h.checked mv.x mv.mem_self hor
      · rw [hor]
        simp
    · cases hch
  · rw [hclosed]
    by_cases hy : y = mv.x.side
    · rw [hy, hown] at he
      rw [hy]
      rcases hi.effect.closeErr with hce | hce | ⟨ht, _⟩
      · exact h.eof _ (hce ▸ he)
      · rw [show e.conn.closeErr = some .eof from he] at hce
        cases hce
      · exact hpc.eof ht
    · rw [Side.eq_peer_of_ne hy, mv.other] at he
      rw [Side.eq_peer_of_ne hy]
      exact h.eof _ he
  · have hgrow : ∀ {z q}, EofOk (s.ends z) q → EofOk (s'.ends z) q :=
      fun hq => hq.grow (hwritten _) fun c hc => by rw [hclosed]; exact hc
    by_cases hy : y = mv.x.side
    · rw [hy] at hr ⊢
      rw [hown] at hr
      rcases hi.effect.eofs r hr with hr | ⟨rfl, hb, hc⟩
      · exact hgrow (h.eofs _ r hr)
      · exact hgrow (eof_ok hs h hb hc)
    · rw [Side.eq_peer_of_ne hy, mv.other] at hr
      rw [Side.eq_peer_of_ne hy]
      exact hgrow (h.eofs _ r hr)

section

variable {id : StreamID} {window : Side → UInt64} {maxFrameSize : Side → Nat} {accepted : Side → Bool} {s : Sys}

theorem new_ended : Ended (Sys.new id window maxFrameSize accepted) where
  reported _ := rfl
  closedAt _ _ h := by cases h
  checked _ h := by cases h
  eof _ h := by cases h
  eofs _ _ h := by cases h

theorem ended (h : Reach Sys.step Network (fun s => s = Sys.new id window maxFrameSize accepted) s) (hn : Counted s) :
    Ended s := by
  refine h.keeps (P := fun s => Counted s → Ended s) ?_ ?_ hn
  · intro s hs _
    exact hs ▸ new_ended
  · intro s m t hr ih _ hs hn
    have hn' := step_counted hs hn
    rcases step_cases hs with ⟨x, c, rfl, hc⟩ | ⟨i, how, _, ⟨mv⟩⟩
    · exact call_ended (ih hn') hc
    · exact move_ended (exclusive (fun _ hi => by rw [hi]; rfl) hr) (sound hr hn') (ih hn') mv

end

end Turntf.Stream
