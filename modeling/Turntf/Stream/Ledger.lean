/-
  Turntf.Stream.Ledger — what a receiving end advertises (`stream_conn.go`).

  Whatever frames arrive, hostile ones included, the bytes a connection has accepted are the
  ones read, the ones in `readBuf` and the ones a handler is about to append, and never more
  than the window is unread. Three producers build acknowledgements: the handlers of Data and
  of Resume, and `Read`. Each does so behind `handleMu`, keeps it until it has `responseMu`,
  and gives the frame to the transport behind that; so the credit advertised, Offset + Window,
  is what was read by then plus the window, and acknowledgements leave in the order in which
  they were built.

  - `receive_ledger`: the balance, the bound, and the credit of every acknowledgement.
-/

import Turntf.Stream.Deadlock
import Turntf.Stream.Integrity

namespace Turntf.Stream

open Lts Locks Ends

/-- Offset + Window. -/
def StreamFrame.grant (f : StreamFrame) : Nat := f.offset.toNat + f.window.toNat

/-- What an end may promise at a moment: what was read, and a window more. -/
def StreamEnd.promise (e : StreamEnd) : Nat := e.hist.readOut.length + e.conn.window.toNat

def StreamEnd.acks (e : StreamEnd) : List StreamFrame := e.out.filter fun f => f.kind = .frameAck

/-- The receiving side of an end, with `hand` bytes accepted and not yet appended. -/
structure Ledger (e : StreamEnd) (hand : Nat) : Prop where
  balance : e.hist.readOut.length + e.conn.readBuf.length + hand = e.conn.receiver.offset.toNat
  bound : e.conn.readBuf.length + hand ≤ e.conn.window.toNat
  promised : ∀ f ∈ e.acks, f.grant ≤ e.promise
  sorted : (e.acks.map StreamFrame.grant).Pairwise (· ≤ ·)

/-- The acknowledgement a call has just built, `handleMu` still held. -/
def Pc.built : Pc → Option StreamFrame
  | .read (.lockResponse ack) | .read (.unlockHandle ack) | .handle (.lockResponse ack)
  | .handle (.unlockHandle ack) => some ack
  | _ => none

/-- The acknowledgement a call is about to give to the transport. -/
def Pc.reply : Pc → Option StreamFrame
  | .read (.send ack) | .handle (.send ack) => some ack
  | _ => none

/-- What a call knows of its end's receiving side. -/
def LedgerPc (e : StreamEnd) (pc : Pc) : Prop :=
  match pc with
  | .handle (.lockHandle f) | .handle (.dispatch f) => f.payload.length ≤ e.maxFrameSize
  | .handle (.lockCheck f unique) | .handle (.checkData f unique) =>
    f.payload.length ≤ e.maxFrameSize ∧ f.offset ≤ e.conn.receiver.offset ∧
      unique = StreamConn.unique e.conn.receiver.offset f
  | .handle (.accept f) =>
    f.payload.length ≤ e.maxFrameSize ∧ f.offset ≤ e.conn.receiver.offset ∧
      e.conn.readBuf.length + (StreamConn.unique e.conn.receiver.offset f).toNat ≤ e.conn.window.toNat
  | .handle (.lockAppend _ ack) | .handle (.append _ ack) | .handle (.lockWindow ack) | .handle (.setWindow ack) =>
    ack.kind = .frameAck ∧ ack.offset = e.conn.receiver.offset
  | .read (.lockResponse ack) | .read (.unlockHandle ack) | .handle (.lockResponse ack)
  | .handle (.unlockHandle ack) => ack.kind = .frameAck ∧ ack.grant = e.promise
  | .read (.send ack) | .handle (.send ack) =>
    ack.kind = .frameAck ∧ ack.grant ≤ e.promise ∧ ∀ f ∈ e.acks, f.grant ≤ ack.grant
  | .write (.send _ _ f) => f.kind = .frameData
  | .resume pc => ∀ f ∈ (Pc.resume pc).outgoing, f.kind = .frameData
  | _ => True

section

variable {e e' : StreamEnd} {pc pc' : Pc} {n : Next Pc} {sent : Option StreamError} {how : Choice}

/-! ## The bytes -/

/-- How much of a frame is new, as a number. -/
theorem toNat_unique {o : UInt64} {f : StreamFrame} (hn : f.payload.length < 2 ^ 64) :
    (StreamConn.unique o f).toNat = (f.payload.drop (StreamReceiverState.overlap o f).toNat).length := by
  have hlen := toNat_len64 hn
  have hle : StreamReceiverState.overlap o f ≤ len64 f.payload := by
    unfold StreamReceiverState.overlap
    dsimp only
    split
    · exact UInt64.le_refl _
    · rename_i h
      exact UInt64.not_lt.mp h
  rw [StreamConn.unique, UInt64.toNat_sub_of_le _ _ hle, hlen, List.length_drop]

theorem frameError_payload {max : Nat} {f : StreamFrame} (h : frameError max f = none) : f.payload.length ≤ max := by
  unfold frameError at h
  (repeat' split at h) <;> first
    | omega
    | cases h

/-- The sum that `checkData` compares with the window does not wrap. -/
theorem checkData_fits {f : StreamFrame} (hlen : e.conn.readBuf.length + f.payload.length < 2 ^ 64)
    (h : e.conn.checkData (StreamConn.unique e.conn.receiver.offset f) = none) :
    e.conn.readBuf.length + (StreamConn.unique e.conn.receiver.offset f).toNat ≤ e.conn.window.toNat := by
  have hu := toNat_unique (o := e.conn.receiver.offset) (show f.payload.length < 2 ^ 64 by omega)
  rw [List.length_drop] at hu
  have hsum : (len64 e.conn.readBuf + StreamConn.unique e.conn.receiver.offset f).toNat =
      e.conn.readBuf.length + (StreamConn.unique e.conn.receiver.offset f).toNat := by
    rw [UInt64.toNat_add, toNat_len64 (by omega)]
    omega
  rw [← hsum, ← UInt64.le_iff_toNat_le]
  unfold StreamConn.checkData at h
  split at h
  · cases h
  · split at h
    · cases h
    · rename_i hle
      exact UInt64.not_lt.mp hle

theorem Effect.fixed (h : Effect e pc e' n) : e'.conn.window = e.conn.window ∧ e'.maxFrameSize = e.maxFrameSize ∧
    e.hist.readOut <+: e'.hist.readOut := by
  cases h with
  | take he =>
    rw [he]
    exact ⟨rfl, rfl, List.prefix_append _ _⟩
  | @terminate _ _ t _ _ _ _ ht =>
    obtain ⟨hh, _, _, _, hc, _⟩ := terminateStep_frame ht
    refine ⟨by rw [hc], ?_, by rw [hh]⟩
    cases t <;> simp only [terminateStep] at ht <;> (repeat' split at ht) <;> cases ht <;> rfl
  | storeCredit =>
    obtain ⟨_, _, _, hc⟩ := e.conn.storeCredit_eq _
    exact ⟨by rw [hc], rfl, List.prefix_rfl⟩
  | clear =>
    obtain ⟨_, _, hc⟩ := e.conn.clearResume_eq _
    exact ⟨by rw [hc], rfl, List.prefix_rfl⟩
  | _ => exact ⟨rfl, rfl, List.prefix_rfl⟩

theorem Effect.promise_le (h : Effect e pc e' n) : e.promise ≤ e'.promise := by
  obtain ⟨hw, _, hr⟩ := h.fixed
  have := hr.length_le
  simp only [StreamEnd.promise, hw]
  omega

/-- A step keeps the balance; what other calls have in hand, `l` and `r`, is nothing if this one
    holds `handleMu`. -/
theorem Effect.ledger {l r : Bytes} (h : Effect e pc e' n) (hl : Ledger e (l ++ (pc.hand ++ r)).length)
    (hpc : LedgerPc e pc) (hx : .handleMu ∈ pc.holds → l = [] ∧ r = []) (hmax : e.maxFrameSize < 2 ^ 64)
    (hroom : e.conn.receiver.offset.toNat + e.conn.window.toNat < 2 ^ 64) :
    Ledger e' (l ++ (n.hand ++ r)).length := by
  obtain ⟨hwin, _, hgrows⟩ := h.fixed
  have hout : e'.acks = e.acks := by rw [StreamEnd.acks, h.closedAt.2, StreamEnd.acks]
  have hprom : ∀ f ∈ e'.acks, f.grant ≤ e'.promise := by
    rw [hout]
    exact fun f hf => Nat.le_trans (hl.promised f hf) h.promise_le
  have hsort : (e'.acks.map StreamFrame.grant).Pairwise (· ≤ ·) := by rw [hout]; exact hl.sorted
  have hbal := hl.balance
  have hbound := hl.bound
  rcases h.received with ⟨ho, hmoved, hquiet⟩ | ⟨f, payload, ack, rfl, hh, ha, hro, hrb⟩
  · have hlen := congrArg List.length hmoved
    have hle := hgrows.length_le
    simp only [List.length_append] at hlen hbal hbound
    by_cases hm : .handleMu ∈ pc.holds
    · obtain ⟨rfl, rfl⟩ := hx hm
      simp only [List.length_nil] at hbal hbound
      refine ⟨?_, ?_, hprom, hsort⟩ <;> simp only [List.length_append, List.length_nil, ho, hwin] <;> omega
    · obtain ⟨h1, h2, h3⟩ := hquiet hm
      refine ⟨?_, ?_, hprom, hsort⟩ <;> simp only [List.length_append, ho, hwin, h1, h2, h3] <;> omega
  · -- the new bytes fit into the window, so the offset does not wrap
    obtain ⟨rfl, rfl⟩ := hx List.mem_cons_self
    obtain ⟨hmaxf, hoff, hfits⟩ : f.payload.length ≤ e.maxFrameSize ∧ f.offset ≤ e.conn.receiver.offset ∧
        e.conn.readBuf.length + (StreamConn.unique e.conn.receiver.offset f).toNat ≤ e.conn.window.toNat := hpc
    obtain ⟨_, _, _, _, _, hp, hr, _⟩ := accept_shape ha
    rw [toNat_unique (by omega), ← hp] at hfits
    have hoffset : e'.conn.receiver.offset.toNat = e.conn.receiver.offset.toNat + payload.length := by
      rw [hr]
      show (e.conn.receiver.offset + len64 payload).toNat = _
      rw [UInt64.toNat_add, toNat_len64 (by omega)]
      omega
    simp only [Pc.hand, List.append_nil, List.length_nil] at hbal hbound
    refine ⟨?_, ?_, hprom, hsort⟩ <;>
      simp only [List.append_nil, List.nil_append, hh, hro, hrb, hwin, hoffset] <;> omega

/-! ## The acknowledgements -/

/-- `free` does not underflow, so an acknowledgement of the whole offset promises exactly what may
    be promised. -/
theorem Ledger.grant_eq (h : Ledger e 0) {ack : StreamFrame} (ho : ack.offset = e.conn.receiver.offset)
    (hw : ack.window = e.conn.free) : ack.grant = e.promise := by
  have hbal := h.balance
  have hbound := h.bound
  have hlen : (len64 e.conn.readBuf).toNat = e.conn.readBuf.length :=
    toNat_len64 (Nat.lt_of_le_of_lt hbound e.conn.window.toNat_lt)
  have hle : len64 e.conn.readBuf ≤ e.conn.window := by
    rw [UInt64.le_iff_toNat_le, hlen]
    omega
  simp only [StreamFrame.grant, StreamEnd.promise, ho, hw, StreamConn.free, UInt64.toNat_sub_of_le _ _ hle, hlen]
  omega

theorem readStep_ledger {pc : ReadPc} {n : Next ReadPc} {pc' : ReadPc} (h : readStep e sent pc = some (e', n))
    (hn : n.pc? = some pc') (hpc : LedgerPc e (.read pc)) (hl : .handleMu ∈ pc.holds → Ledger e' 0) :
    LedgerPc e' (.read pc') := by
  cases pc with
  | take k =>
    simp only [readStep] at h
    split at h
    · cases h
      cases hn
      trivial
    · cases h
      cases hn
      split
      · trivial
      · exact ⟨rfl, (hl List.mem_cons_self).grant_eq rfl rfl⟩
  | lockResponse ack =>
    cases h
    cases hn
    exact hpc
  | unlockHandle ack =>
    cases h
    cases hn
    obtain ⟨hk, hg⟩ := hpc
    refine ⟨hk, Nat.le_of_eq hg, fun f hf => ?_⟩
    rw [hg]
    exact (hl List.mem_cons_self).promised f hf
  | _ =>
    simp only [readStep] at h
    (repeat' split at h) <;> cases h <;> cases hn <;> trivial

theorem writeStep_ledger {pc : WritePc} {n : Next WritePc} {pc' : WritePc} (h : writeStep e sent pc = some (e', n))
    (hn : n.pc? = some pc') : LedgerPc e' (.write pc') := by
  cases pc with
  | data done rest available =>
    simp only [writeStep] at h
    split at h
    · cases h
      cases hn
      trivial
    · rename_i hd
      cases h
      cases hn
      show StreamFrame.kind _ = .frameData
      rw [(data_ok hd).2.2.2.1]
  | _ =>
    simp only [writeStep] at h
    (repeat' split at h) <;> cases h <;> cases hn <;> trivial

theorem resumeStep_ledger {pc : ResumePc} {n : Next ResumePc} {pc' : ResumePc}
    (h : resumeStep e sent how pc = some (e', n)) (hn : n.pc? = some pc') (hpc : LedgerPc e (.resume pc)) :
    LedgerPc e' (.resume pc') := by
  have hnone : ∀ {e : StreamEnd} {pc : ResumePc}, (Pc.resume pc).outgoing = [] → LedgerPc e (.resume pc) := by
    intro e pc ho f hf
    rw [ho] at hf
    cases hf
  cases pc with
  | resume epoch acked =>
    simp only [resumeStep] at h
    split at h
    · cases h
      cases hn
      exact hnone rfl
    · rename_i hr
      cases h
      cases hn
      exact resume_frames_kind hr
  | send frames =>
    simp only [resumeStep] at h
    split at h
    · cases h
      cases hn
      exact hnone rfl
    · cases h
      cases hn
      exact fun f hf => hpc f (List.mem_cons_of_mem _ hf)
  | _ =>
    simp only [resumeStep] at h
    (repeat' split at h) <;> cases h <;> cases hn <;> first
      | exact hpc
      | exact hnone rfl

theorem dispatchStep_ledger {f : StreamFrame} {pc' : HandlePc} (hn : (dispatchStep e f).2.pc? = some pc')
    (hpc : LedgerPc e (.handle (.dispatch f))) : LedgerPc (dispatchStep e f).1 (.handle pc') := by
  unfold dispatchStep acknowledgeStep at hn ⊢
  split at hn
  · split at hn <;> cases hn <;> trivial
  · split at hn <;> cases hn <;> trivial
  · split at hn
    · cases hn
      rename_i hgt
      rw [if_pos hgt]
      trivial
    · rename_i hle
      cases hn
      rw [if_neg hle]
      exact ⟨hpc, UInt64.not_lt.mp hle, rfl⟩
  · split at hn
    · cases hn
      trivial
    · rename_i hr
      cases hn
      obtain ⟨_, _, hr', hack⟩ := receiver_resume_ok hr
      exact ⟨by rw [hack]; rfl, by rw [hack]; rfl⟩
  · split at hn <;> cases hn <;> trivial
  · cases hn
    trivial
  · cases hn
    trivial

theorem handleStep_ledger {pc : HandlePc} {n : Next HandlePc} {pc' : HandlePc}
    (h : handleStep e sent pc = some (e', n)) (hn : n.pc? = some pc') (hpc : LedgerPc e (.handle pc))
    (hl : .handleMu ∈ pc.holds → Ledger e' (Pc.handle pc').hand.length) (hmax : e.maxFrameSize < 2 ^ 63)
    (hroom : e.conn.receiver.offset.toNat + e.conn.window.toNat < 2 ^ 64) : LedgerPc e' (.handle pc') := by
  cases pc with
  | enter f =>
    simp only [handleStep, enterStep] at h
    split at h
    · cases h
      cases hn
    · rename_i hok
      have hlen := frameError_payload hok
      (repeat' split at h) <;> cases h <;> cases hn <;> first
        | exact hlen
        | trivial
  | dispatch f =>
    simp only [handleStep, Option.some.injEq] at h
    have hnext : (dispatchStep e f).2.pc? = some pc' := by rw [h]; exact hn
    have := dispatchStep_ledger hnext hpc
    rwa [h] at this
  | checkData f unique =>
    simp only [handleStep] at h
    cases h
    obtain ⟨hlen, hoff, rfl⟩ := hpc
    split at hn
    · cases hn
      trivial
    · rename_i hok
      cases hn
      have hledger : Ledger e 0 := hl List.mem_cons_self
      have hbal := hledger.balance
      have hbound := hledger.bound
      -- the unread bytes are at most half of what can be counted, so the sum does not wrap
      exact ⟨hlen, hoff, checkData_fits (by omega) hok⟩
  | accept f =>
    simp only [handleStep] at h
    split at h
    · cases h
      cases hn
      trivial
    · rename_i ha
      cases h
      cases hn
      obtain ⟨_, _, _, _, _, _, _, hack⟩ := accept_shape ha
      exact ⟨by rw [hack]; rfl, by rw [hack]; rfl⟩
  | append payload ack =>
    cases h
    cases hn
    exact ⟨hpc.1, (hl List.mem_cons_self).grant_eq hpc.2 rfl⟩
  | setWindow ack =>
    cases h
    cases hn
    exact ⟨hpc.1, (hl List.mem_cons_self).grant_eq hpc.2 rfl⟩
  | unlockHandle ack =>
    cases h
    cases hn
    obtain ⟨hk, hg⟩ := hpc
    refine ⟨hk, Nat.le_of_eq hg, fun f hf => ?_⟩
    rw [hg]
    exact (hl List.mem_cons_self).promised f hf
  | terminate t =>
    obtain ⟨⟨e₁, t'⟩, _, he⟩ := Option.map_eq_some_iff.mp h
    cases he
    cases t' <;> cases hn <;> trivial
  | storeCredit f =>
    simp only [handleStep] at h
    split at h <;> cases h <;> cases hn <;> trivial
  | lockHandle | lockCheck | lockAppend | lockWindow | lockResponse =>
    cases h
    cases hn
    exact hpc
  | _ =>
    cases h
    cases hn <;> trivial

theorem pcStep_ledger (h : pcStep e sent how pc = some (e', n)) (hn : n.pc? = some pc') (hpc : LedgerPc e pc)
    (hl : .handleMu ∈ pc.holds → Ledger e' pc'.hand.length) (hmax : e.maxFrameSize < 2 ^ 63)
    (hroom : e.conn.receiver.offset.toNat + e.conn.window.toNat < 2 ^ 64) : LedgerPc e' pc' := by
  cases pc <;> obtain ⟨⟨e₁, n₁⟩, hs, he⟩ := Option.map_eq_some_iff.mp h <;> cases he <;> cases n₁ <;> cases hn
  all_goals first
    | exact readStep_ledger hs rfl hpc hl
    | exact writeStep_ledger hs rfl
    | exact resumeStep_ledger hs rfl hpc
    | exact handleStep_ledger hs rfl hpc hl hmax hroom
    | trivial

/-- What a call that gives a frame to the transport knows of it. -/
theorem pcStep_gives {f : StreamFrame} (h : pcStep e sent how pc = some (e', .send f pc')) (hpc : LedgerPc e pc) :
    e' = e ∧ pc'.reply = none ∧ (f.kind = .frameAck → pc.reply = some f ∧ .responseMu ∈ pc.holds) := by
  have hdata : f.kind = .frameData → f.kind = .frameAck → pc.reply = some f ∧ .responseMu ∈ pc.holds := by
    intro hd hk
    rw [hd] at hk
    cases hk
  cases pc <;> obtain ⟨⟨e₁, n₁⟩, hs, he⟩ := Option.map_eq_some_iff.mp h <;> cases n₁ <;> cases he
  case read.send pc _ =>
    cases pc <;> simp only [readStep] at hs <;> (repeat' split at hs) <;> cases hs
    exact ⟨rfl, rfl, fun _ => ⟨rfl, List.mem_cons_self⟩⟩
  case write.send pc _ =>
    cases pc <;> simp only [writeStep] at hs <;> (repeat' split at hs) <;> cases hs
    exact ⟨rfl, rfl, hdata hpc⟩
  case resume.send pc _ =>
    cases pc <;> simp only [resumeStep] at hs <;> (repeat' split at hs) <;> cases hs
    · exact ⟨rfl, rfl, StreamFrameKind.noConfusion⟩
    · exact ⟨rfl, rfl, hdata (hpc _ List.mem_cons_self)⟩
  case close.send pc _ =>
    cases pc with
    | terminate epoch t =>
      obtain ⟨⟨e₂, t'⟩, _, he⟩ := Option.map_eq_some_iff.mp hs
      cases he
    | isClosed =>
      simp only [closeStep] at hs
      split at hs <;> cases hs
    | send epoch =>
      cases hs
      exact ⟨rfl, rfl, StreamFrameKind.noConfusion⟩
    | _ => cases hs
  case handle.send pc _ =>
    cases pc with
    | terminate t =>
      obtain ⟨⟨e₂, t'⟩, _, he⟩ := Option.map_eq_some_iff.mp hs
      cases he
    | sendOpenAck g =>
      cases hs
      exact ⟨rfl, rfl, StreamFrameKind.noConfusion⟩
    | send ack =>
      cases hs
      exact ⟨rfl, rfl, fun _ => ⟨rfl, List.mem_cons_self⟩⟩
    | _ =>
      simp only [handleStep, enterStep, dispatchStep, acknowledgeStep] at hs
      (repeat' split at hs) <;> cases hs

/-! ## The other calls -/

/-- A call that is not about to give out an acknowledgement looks at the receiving side only. -/
theorem LedgerPc.same (h : LedgerPc e pc) (hr : pc.reply = none)
    (ho : e'.conn.receiver.offset = e.conn.receiver.offset) (hb : e'.conn.readBuf = e.conn.readBuf)
    (hp : e'.promise = e.promise) (hw : e'.conn.window = e.conn.window) (hm : e'.maxFrameSize = e.maxFrameSize) :
    LedgerPc e' pc := by
  unfold LedgerPc at h ⊢
  rw [ho, hb, hp, hw, hm]
  split at h <;> first
    | exact h
    | cases hr

theorem LedgerPc.of_reply (h : LedgerPc e pc) {ack : StreamFrame} (hr : pc.reply = some ack) :
    ack.kind = .frameAck ∧ ack.grant ≤ e.promise ∧ ∀ f ∈ e.acks, f.grant ≤ ack.grant := by
  cases pc with
  | read pc => cases pc <;> cases hr; exact h
  | handle pc => cases pc <;> cases hr; exact h
  | _ => cases hr

theorem Pc.holds_of_reply (h : pc.reply ≠ none) : pc.holds = [.responseMu] := by
  cases pc with
  | read pc => cases pc <;> first | rfl | exact absurd rfl h
  | handle pc => cases pc <;> first | rfl | exact absurd rfl h
  | _ => exact absurd rfl h

/-- A call outside `handleMu` looks at what only grows. -/
theorem LedgerPc.grows (h : LedgerPc e pc) (hfree : .handleMu ∉ pc.holds) (hp : e.promise ≤ e'.promise)
    (ha : pc.reply ≠ none → e'.acks = e.acks) (hm : e'.maxFrameSize = e.maxFrameSize) : LedgerPc e' pc := by
  have hreply : ∀ ack, pc.reply = some ack → ack.kind = .frameAck ∧ ack.grant ≤ e.promise ∧ (∀ f ∈ e.acks, f.grant ≤ ack.grant) →
      ack.kind = .frameAck ∧ ack.grant ≤ e'.promise ∧ ∀ f ∈ e'.acks, f.grant ≤ ack.grant := by
    intro ack hr ⟨hk, hg, hle⟩
    rw [ha (by rw [hr]; nofun)]
    exact ⟨hk, Nat.le_trans hg hp, hle⟩
  cases pc with
  | read pc =>
    cases pc with
    | send ack => exact hreply ack rfl h
    | lockResponse | unlockHandle => exact absurd List.mem_cons_self hfree
    | _ => trivial
  | write pc => cases pc <;> exact h
  | resume pc => exact h
  | close pc => trivial
  | handle pc =>
    cases pc with
    | send ack => exact hreply ack rfl h
    | lockHandle f =>
      show f.payload.length ≤ e'.maxFrameSize
      rw [hm]
      exact h
    | enter | sendOpenAck | sentOpenAck | sent => trivial
    | _ => exact absurd List.mem_cons_self hfree

/-- A frame is given to the transport. -/
theorem Ledger.given {hand : Nat} (h : Ledger e hand) {f : StreamFrame}
    (hf : f.kind = .frameAck → f.grant ≤ e.promise ∧ ∀ g ∈ e.acks, g.grant ≤ f.grant) :
    Ledger { e with out := e.out ++ [f] } hand := by
  have hacks : ({ e with out := e.out ++ [f] } : StreamEnd).acks = e.acks ++ if f.kind = .frameAck then [f] else [] := by
    simp only [StreamEnd.acks, List.filter_append]
    split <;> rename_i hk <;> simp [hk]
  refine ⟨h.balance, h.bound, fun g hg => ?_, ?_⟩
  · rw [hacks] at hg
    rcases List.mem_append.mp hg with hg | hg
    · exact h.promised g hg
    · split at hg
      · rename_i hk
        rw [List.mem_singleton.mp hg]
        exact (hf hk).1
      · cases hg
  · rw [hacks]
    split
    · rename_i hk
      rw [List.map_append, List.pairwise_append]
      refine ⟨h.sorted, List.pairwise_singleton _ _, ?_⟩
      intro a ha b hb
      obtain ⟨g, hg, rfl⟩ := List.mem_map.mp ha
      rw [List.map_singleton, List.mem_singleton] at hb
      rw [hb]
      exact (hf hk).2 g hg
    · rw [List.append_nil]
      exact h.sorted

/-! ## Both ends -/

/-- The frames a step gives to the transport: the one of its `send`, if it is one. -/
theorem Inner.given_one {s s' : Sys} {i : Nat} {mv : Moves s s' i how} {extra : List StreamFrame} (hi : Inner mv e n extra) :
    extra = [] ∨ ∃ f pc, n = .send f pc ∧ extra = [f] := by
  have hout : (s'.ends mv.x.side).out = e.out ++ extra := by rw [mv.own, hi.own]
  have hsame : (s'.ends mv.x.side) = e → extra = [] := by
    intro he
    rw [he] at hout
    exact List.self_eq_append_right.mp hout
  rcases actStep_cases mv.step with ⟨pc, hp, _⟩ | ⟨err, hp, _⟩ | ⟨e₀, f, pc, hp, he, _⟩
  · rw [hi.step, Option.some.injEq, Prod.mk.injEq] at hp
    exact .inl (hsame (by rw [mv.own, hp.1]))
  · rw [hi.step, Option.some.injEq, Prod.mk.injEq] at hp
    exact .inl (hsame (by rw [mv.own, hp.1]))
  · rw [hi.step, Option.some.injEq, Prod.mk.injEq] at hp
    obtain ⟨rfl, rfl⟩ := hp
    rw [mv.own, he] at hout
    exact .inr ⟨f, pc, rfl, (List.append_cancel_left hout).symm⟩

/-- The counters of the connection at `x` do not wrap. -/
def Roomy (x : Side) (s : Sys) : Prop :=
  (s.ends x).conn.receiver.offset.toNat + (s.ends x).conn.window.toNat < 2 ^ 64

instance (x : Side) (s : Sys) : Decidable (Roomy x s) :=
  inferInstanceAs (Decidable ((s.ends x).conn.receiver.offset.toNat + (s.ends x).conn.window.toNat < 2 ^ 64))

structure Ledgered (x : Side) (window : UInt64) (s : Sys) : Prop where
  exclusive : Exclusive Act.holds s.acts
  window : (s.ends x).conn.window = window
  small : (s.ends x).maxFrameSize < 2 ^ 63
  ledger : Ledger (s.ends x) (s.hand x).length
  calls : Relies LedgerPc x s

theorem Ledgered.call {s s' : Sys} {x z : Side} {window : UInt64} {c : Call} (h : Ledgered x window s)
    (hc : Calls s s' z c) (hs : Exclusive Act.holds s'.acts) : Ledgered x window s' := by
  have hend : (s'.ends x).conn = (s.ends x).conn ∧ (s'.ends x).hist.readOut = (s.ends x).hist.readOut ∧
      (s'.ends x).out = (s.ends x).out ∧ (s'.ends x).maxFrameSize = (s.ends x).maxFrameSize := by
    by_cases e : x = z
    · rw [e, hc.own]
      cases c <;> exact ⟨rfl, rfl, rfl, rfl⟩
    · rw [Side.eq_peer_of_ne e, hc.other]
      exact ⟨rfl, rfl, rfl, rfl⟩
  obtain ⟨hconn, hread, hout, hmax⟩ := hend
  have hacks : (s'.ends x).acks = (s.ends x).acks := by rw [StreamEnd.acks, hout, StreamEnd.acks]
  have hprom : (s'.ends x).promise = (s.ends x).promise := by rw [StreamEnd.promise, hconn, hread, StreamEnd.promise]
  have hl := h.ledger
  refine ⟨hs, by rw [hconn]; exact h.window, by rw [hmax]; exact h.small, ⟨?_, ?_, ?_, ?_⟩, ?_⟩
  · rw [hc.hand, hconn, hread]
    exact hl.balance
  · rw [hc.hand, hconn]
    exact hl.bound
  · rw [hacks, hprom]
    exact hl.promised
  · rw [hacks]
    exact hl.sorted
  · refine call_relies hc h.calls (fun pc hpc => ?_) fun pc hpc => ?_
    · by_cases hr : pc.reply = none
      · exact hpc.same hr (by rw [hconn]) (by rw [hconn]) hprom (by rw [hconn]) hmax
      · exact hpc.grows (by rw [Pc.holds_of_reply hr]; decide) (Nat.le_of_eq hprom.symm) (fun _ => hacks) hmax
    · cases c <;> simp only [Call.start] at hpc <;> (try split at hpc) <;> cases hpc <;> first
        | trivial
        | exact fun f hf => by cases hf

theorem Ledgered.move {s s' : Sys} {i : Nat} {x : Side} {window : UInt64} (h : Ledgered x window s) (mv : Moves s s' i how)
    (hs : Exclusive Act.holds s'.acts) (hroom : Roomy x s) : Ledgered x window s' := by
  obtain ⟨e, n, extra, hi⟩ := mv.inner
  by_cases he : mv.x.side = x
  · subst he
    have hpc := h.calls mv.x mv.mem_self rfl
    have hown : s'.ends mv.x.side = { e with out := e.out ++ extra } := by rw [mv.own, hi.own]
    have hhand : s'.hand mv.x.side =
        gather Pc.hand mv.x.side mv.L ++ (n.hand ++ gather Pc.hand mv.x.side mv.R) := hi.gather_own fun _ => rfl
    have hothers := mv.gather_others h.exclusive fun _ => Pc.hand_of_free
    obtain ⟨hwin, hmax, _⟩ := hi.effect.fixed
    have hsmall := h.small
    -- the end before the frame is given out
    have hledger : Ledger e (s'.hand mv.x.side).length := by
      rw [hhand]
      refine hi.effect.ledger ?_ hpc hothers (by omega) hroom
      rw [← mv.gather_own]
      exact h.ledger
    have hmoved : ∀ pc, n.pc? = some pc → LedgerPc e pc := by
      intro pc hn
      refine pcStep_ledger hi.step hn hpc (fun hm => ?_) hsmall hroom
      rw [hhand, (hothers hm).1, (hothers hm).2, List.nil_append, List.append_nil, Next.hand, hn] at hledger
      exact hledger
    -- the frame given out, if any
    have hgiven : Ledger (s'.ends mv.x.side) (s'.hand mv.x.side).length ∧
        (∀ pc, n.pc? = some pc → LedgerPc (s'.ends mv.x.side) pc) ∧
        (.responseMu ∉ mv.x.pc.holds → (s'.ends mv.x.side).acks = e.acks) := by
      rw [hown]
      rcases hi.given_one with rfl | ⟨f, pc, rfl, rfl⟩
      · rw [List.append_nil]
        exact ⟨hledger, hmoved, fun _ => rfl⟩
      · obtain ⟨rfl, hr, hf⟩ := pcStep_gives hi.step hpc
        refine ⟨hledger.given fun hk => (hpc.of_reply (hf hk).1).2, ?_, fun hm => ?_⟩
        · rintro _ ⟨⟩
          exact (hmoved pc rfl).same hr rfl rfl rfl rfl rfl
        · have hk : f.kind ≠ .frameAck := fun hk => hm (hf hk).2
          simp [StreamEnd.acks, hk]
    obtain ⟨hledger', hmoved', hacks⟩ := hgiven
    refine ⟨hs, ?_, ?_, hledger', hi.relies (fun hne => absurd rfl hne) (fun _ => trivial) (fun _ => hmoved') ?_⟩
    · rw [hown]
      exact hwin.trans h.window
    · rw [hown]
      exact lt_of_eq_of_lt hmax hsmall
    · intro _ y hy hside
      have hy' := h.calls y (mv.mem_others hy) hside
      have hprom : (s'.ends mv.x.side).promise = e.promise := by rw [hown]; rfl
      by_cases hm : .handleMu ∈ y.pc.holds
      · -- the call that moves is outside `handleMu`
        have hfree : .handleMu ∉ mv.x.pc.holds := fun hm' => mv.alone h.exclusive hy hside hm' hm
        have hr : y.pc.reply = none := by
          by_cases hr : y.pc.reply = none
          · exact hr
          · rw [Pc.holds_of_reply hr] at hm
            exact absurd hm (by decide)
        rcases hi.effect.received with ⟨ho, _, hquiet⟩ | ⟨f, _, _, hacc, _⟩
        · obtain ⟨h1, h2, _⟩ := hquiet hfree
          refine hy'.same hr ?_ ?_ ?_ ?_ ?_
          · rw [hown]
            exact ho
          · rw [hown]
            exact h2
          · rw [hprom, StreamEnd.promise, h1, hwin, StreamEnd.promise]
          · rw [hown]
            exact hwin
          · rw [hown]
            exact hmax
        · rw [hacc] at hfree
          exact absurd List.mem_cons_self hfree
      · refine hy'.grows hm ?_ (fun hr => ?_) (by rw [hown]; exact hmax)
        · rw [hprom]
          exact hi.effect.promise_le
        · rw [hacks fun hm' => mv.alone h.exclusive hy hside hm' (by rw [Pc.holds_of_reply hr]; decide),
            StreamEnd.acks, hi.effect.closedAt.2, StreamEnd.acks]
  · have hx := Side.eq_peer_of_ne (Ne.symm he)
    have hend : s'.ends x = s.ends x := by rw [hx]; exact mv.other
    have hhand : s'.hand x = s.hand x := by rw [hx]; exact hi.gather_peer fun _ => rfl
    refine ⟨hs, by rw [hend]; exact h.window, by rw [hend]; exact h.small, by rw [hend, hhand]; exact h.ledger,
      hi.relies (fun _ => h.calls) (fun _ => trivial) (fun hside => absurd hside he) fun hside => absurd hside he⟩

theorem LedgerPc.of_built (h : LedgerPc e pc) {ack : StreamFrame} (hb : pc.built = some ack) : ack.grant = e.promise := by
  cases pc with
  | read pc => cases pc <;> cases hb <;> exact h.2
  | handle pc => cases pc <;> cases hb <;> exact h.2
  | _ => cases hb

/-- An acknowledgement that is about to be given out was just built. -/
theorem pcStep_reply_at {ack : StreamFrame} (h : pcStep e sent how pc = some (e', n)) (hn : n.pc? = some pc')
    (hr : pc'.reply = some ack) : pc.built = some ack := by
  cases pc with
  | read pc =>
    obtain ⟨⟨e₁, n₁⟩, hs, he⟩ := Option.map_eq_some_iff.mp h
    cases he
    cases pc <;> simp only [readStep] at hs <;> (repeat' split at hs) <;> cases hs <;> cases hn <;> cases hr
    rfl
  | handle pc =>
    obtain ⟨⟨e₁, n₁⟩, hs, he⟩ := Option.map_eq_some_iff.mp h
    cases he
    cases pc with
    | terminate t =>
      obtain ⟨⟨e₂, t'⟩, _, he⟩ := Option.map_eq_some_iff.mp hs
      cases he
      cases t' <;> cases hn <;> cases hr
    | unlockHandle ack =>
      cases hs
      cases hn
      exact hr
    | _ =>
      simp only [handleStep, enterStep, dispatchStep, acknowledgeStep] at hs
      (repeat' split at hs) <;> cases hs <;> cases hn <;> cases hr
  | _ =>
    obtain ⟨⟨e₁, n₁⟩, _, he⟩ := Option.map_eq_some_iff.mp h
    cases he
    cases n₁ <;> cases hn <;> cases hr

end

/-! ## Whole runs -/

section

variable {id : StreamID} {window : Side → UInt64} {maxFrameSize : Side → Nat} {accepted : Side → Bool} {s : Sys}
  {tr : List (Sys × Move)} {x : Side}

/-- In the course of the run a call at `x` built the acknowledgement, and it promised what could be
    promised at that moment. -/
def BuiltIn (x : Side) (tr : List (Sys × Move)) (ack : StreamFrame) : Prop :=
  ∃ q m, (q, m) ∈ tr ∧ (∃ y ∈ q.acts, y.side = x ∧ y.pc.built = some ack) ∧ ack.grant = (q.ends x).promise

theorem BuiltIn.later {ack : StreamFrame} {later : List (Sys × Move)} (h : BuiltIn x tr ack) : BuiltIn x (tr ++ later) ack :=
  let ⟨q, m, hq, hb⟩ := h
  ⟨q, m, List.mem_append_left _ hq, hb⟩

structure Recorded (x : Side) (tr : List (Sys × Move)) (s : Sys) : Prop where
  replies : ∀ y ∈ s.acts, y.side = x → ∀ ack, y.pc.reply = some ack → BuiltIn x tr ack
  acks : ∀ f ∈ (s.ends x).acks, BuiltIn x tr f

theorem Recorded.step {w : UInt64} {s' : Sys} {m : Move} (h : Recorded x tr s) (hl : Ledgered x w s)
    (hs : s.step m = some s') : Recorded x (tr ++ [(s, m)]) s' := by
  rcases step_cases hs with ⟨z, c, _, hc⟩ | ⟨i, how, _, ⟨mv⟩⟩
  · have hout : (s'.ends x).acks = (s.ends x).acks := by
      by_cases e : x = z
      · rw [e, hc.own, StreamEnd.acks, (noteCall_frame _ c).2.1, StreamEnd.acks]
      · rw [Side.eq_peer_of_ne e, hc.other]
    refine ⟨fun y hy hside ack hr => ?_, fun f hf => ?_⟩
    · rw [hc.acts'] at hy
      rcases List.mem_append.mp hy with hy | hy
      · exact (h.replies y hy hside ack hr).later
      · obtain ⟨pc, hpc, rfl⟩ := Option.map_eq_some_iff.mp (Option.mem_toList.mp hy)
        cases c <;> simp only [Call.start] at hpc <;> (try split at hpc) <;> cases hpc <;> cases hr
    · rw [hout] at hf
      exact (h.acks f hf).later
  · obtain ⟨e, n, extra, hi⟩ := mv.inner
    refine ⟨fun y hy hside ack hr => ?_, fun f hf => ?_⟩
    · rcases mv.mem_cases hy with hy | hy
      · exact (h.replies y (mv.mem_others hy) hside ack hr).later
      · rcases hi.new y hy with ⟨hs', hn⟩ | ⟨f, _, rfl⟩
        · -- the call has let go of `handleMu` with this step
          have hb := pcStep_reply_at hi.step hn hr
          have hx : mv.x.side = x := hs'.symm.trans hside
          refine ⟨s, m, List.mem_append_right _ List.mem_cons_self, ⟨mv.x, mv.mem_self, hx, hb⟩, ?_⟩
          exact (hl.calls mv.x mv.mem_self hx).of_built hb
        · cases hr
    · by_cases hx : mv.x.side = x
      · have hpc := hl.calls mv.x mv.mem_self hx
        have hmem : f ∈ (s.ends x).acks ∨ f ∈ extra ∧ f.kind = .frameAck := by
          rw [StreamEnd.acks, ← hx, mv.own, hi.own, List.mem_filter, List.mem_append] at hf
          rw [StreamEnd.acks, ← hx, List.mem_filter, ← hi.effect.closedAt.2]
          exact hf.1.imp (fun hm => ⟨hm, hf.2⟩) fun hm => ⟨hm, by simpa using hf.2⟩
        rcases hmem with hm | ⟨hm, hk⟩
        · exact (h.acks f hm).later
        · rcases hi.given_one with rfl | ⟨g, pc, rfl, rfl⟩
          · cases hm
          · rw [List.mem_singleton.mp hm] at hk ⊢
            rw [← hx] at hpc
            exact (h.replies mv.x mv.mem_self hx g ((pcStep_gives hi.step hpc).2.2 hk).1).later
      · rw [Side.eq_peer_of_ne (Ne.symm hx), mv.other, ← Side.eq_peer_of_ne (Ne.symm hx)] at hf
        exact (h.acks f hf).later

theorem ledgered (hmax : maxFrameSize x ≤ defaultStreamMaxFrame)
    (h : Trace Sys.step (fun s _ => Roomy x s) (· = Sys.new id window maxFrameSize accepted) tr s) :
    Ledgered x (window x) s ∧ Recorded x tr s := by
  refine h.keeps (P := fun tr s => Ledgered x (window x) s ∧ Recorded x tr s) ?_ ?_
  · rintro s rfl
    have hacks : ((Sys.new id window maxFrameSize accepted).ends x).acks = [] := by
      show List.filter _ (if accepted x then [] else _) = []
      split <;> rfl
    refine ⟨⟨?_, rfl, Nat.lt_of_le_of_lt hmax (by decide), ⟨rfl, Nat.zero_le _, ?_, ?_⟩, fun _ hy => absurd hy List.not_mem_nil⟩,
      fun _ hy => absurd hy List.not_mem_nil, ?_⟩
    · intro k
      exact Nat.zero_le 1
    · rw [hacks]
      nofun
    · rw [hacks]
      exact .nil
    · rw [hacks]
      nofun
  · intro tr s m s' _ hi hroom hs
    have hex := step_exclusive hi.1.exclusive hs
    refine ⟨?_, hi.2.step hi.1 hs⟩
    rcases step_cases hs with ⟨z, c, _, hc⟩ | ⟨i, how, _, ⟨mv⟩⟩
    · exact hi.1.call hc hex
    · exact hi.1.move mv hex hroom

/-- Whatever frames a connection gets, what was read, what is in `readBuf` and what a handler is
    about to append is what was accepted, and at most a window of it is unread. Each acknowledgement
    promises, when it is built, what was read by then and a window more; those given to the transport
    never promise less than one before. -/
theorem receive_ledger (hmax : maxFrameSize x ≤ defaultStreamMaxFrame)
    (h : Trace Sys.step (fun s _ => Roomy x s) (· = Sys.new id window maxFrameSize accepted) tr s) :
    (s.ends x).hist.readOut.length + (s.ends x).conn.readBuf.length + (s.hand x).length =
        (s.ends x).conn.receiver.offset.toNat ∧
      ((∀ y ∈ s.acts, y.side = x → .handleMu ∉ y.pc.holds) → s.hand x = []) ∧
      (s.ends x).conn.readBuf.length ≤ (window x).toNat ∧
      (∀ y ∈ s.acts, y.side = x → ∀ ack, y.pc.built = some ack →
        ack.grant = (s.ends x).hist.readOut.length + (window x).toNat) ∧
      (∀ f ∈ (s.ends x).acks, ∃ q m, (q, m) ∈ tr ∧ (∃ y ∈ q.acts, y.side = x ∧ y.pc.built = some f) ∧
        f.grant = (q.ends x).hist.readOut.length + (q.ends x).conn.window.toNat) ∧
      ((s.ends x).acks.map StreamFrame.grant).Pairwise (· ≤ ·) := by
  obtain ⟨hl, hr⟩ := ledgered hmax h
  have hbound := hl.ledger.bound
  rw [hl.window] at hbound
  refine ⟨hl.ledger.balance, fun hquiet => ?_, by omega, fun y hy hside ack hb => ?_, hr.acks, hl.ledger.sorted⟩
  · refine gather_elsewhere (fun _ => Pc.hand_of_free) fun y hy hm => ?_
    obtain ⟨m, hm, he⟩ := List.mem_map.mp hm
    cases he
    exact hquiet y hy rfl hm
  · rw [(hl.calls y hy hside).of_built hb, StreamEnd.promise, hl.window]

end

/-- A window of 4: three bytes arrive and two of them are read. -/
theorem receive_ledger_read : ∃ s : Sys, ((s.ends .b).acks.map StreamFrame.grant = [4, 6] ∧
    (s.ends .b).conn.readBuf = [3]) ∧ ((s.ends .b).acks.map StreamFrame.grant).Pairwise (· ≤ ·) := by
  let frame : StreamFrame := { kind := .frameData, id := sampleID, epoch := 1, payload := [1, 2, 3] }
  have h : ((record (guarded Sys.step fun s _ => Roomy .b s) [] (samplePair 4) (List.flatten
      [[.call .b (.handleFrame frame)], runs 0 10 .go, runs 0 1 .taken, runs 0 1 .go, [.call .b (.read 2)],
        runs 1 7 .go, runs 1 1 .taken])).any fun r =>
      (r.2.ends .b).acks.map StreamFrame.grant = [4, 6] ∧ (r.2.ends .b).conn.readBuf = [3]) = true := by
    decide +kernel
  obtain ⟨tr, s, hs, hw⟩ := trace_any (I := fun s => s = samplePair 4) _ rfl h
  simp only [decide_eq_true_eq] at hw
  exact ⟨s, hw, (receive_ledger (by decide) hs).2.2.2.2.2⟩

end Turntf.Stream
