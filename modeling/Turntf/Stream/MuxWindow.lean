/-
  Turntf.Stream.MuxWindow — how much a mux buffers for its peers (`stream_conn.go`).

  The buffer of a connection is bounded by the window it was made with. Behind `handleMu` the
  handler of a Data frame finds that the new bytes fit, accepts the frame and appends them;
  no other call touches `readBuf` but a `Read`, which shortens it. For a dialed connection
  that window is `cfg.Window`, for one the peer opened it is the `Window` of the peer's Open
  frame, and any up to `maxInt` is taken.

  - `window_bounds`: while no peer opens a stream with more than `cfg.Window`, no connection
    has more than `cfg.Window` unread bytes.
  - `window_exceeded`: a peer that asks for a larger window gets it.
-/

import Turntf.Stream.Ledger
import Turntf.Stream.Mux

namespace Turntf.Stream

open Lts Locks

/-! ## One connection -/

/-- What a handler knows of the buffer of its end. -/
def BoundPc (e : StreamEnd) : Pc → Prop
  | .handle (.lockHandle f) | .handle (.dispatch f) => f.payload.length ≤ e.maxFrameSize
  | .handle (.lockCheck f unique) | .handle (.checkData f unique) =>
    f.payload.length ≤ e.maxFrameSize ∧ unique = StreamConn.unique e.conn.receiver.offset f
  | .handle (.accept f) =>
    f.payload.length ≤ e.maxFrameSize ∧
      e.conn.readBuf.length + (StreamConn.unique e.conn.receiver.offset f).toNat ≤ e.conn.window.toNat
  | .handle (.lockAppend payload _) | .handle (.append payload _) =>
    e.conn.readBuf.length + payload.length ≤ e.conn.window.toNat
  | _ => True

/-- An end of a mux with the normalized configuration `cfg`. -/
structure EndBound (cfg : StreamMuxConfig) (e : StreamEnd) : Prop where
  frames : e.maxFrameSize = cfg.maxFrameSize.toNat
  window : e.conn.window.toNat ≤ cfg.window.toNat
  unread : e.conn.readBuf.length ≤ e.conn.window.toNat

section

variable {e e' : StreamEnd} {pc pc' : Pc} {n : Next Pc} {sent : Option StreamError} {how : Choice}

theorem inbound_eq : e'.inbound = e.inbound ↔ e'.conn.receiver.offset = e.conn.receiver.offset ∧
    e'.conn.readBuf = e.conn.readBuf ∧ e'.conn.window = e.conn.window ∧ e'.maxFrameSize = e.maxFrameSize := by
  simp only [StreamEnd.inbound, Prod.mk.injEq]

theorem BoundPc.same (h : e'.inbound = e.inbound) (hb : BoundPc e pc) : BoundPc e' pc := by
  obtain ⟨ho, hr, hw, hm⟩ := inbound_eq.mp h
  cases pc with
  | handle pc => cases pc <;> simp only [BoundPc, ho, hr, hw, hm] <;> exact hb
  | _ => trivial

theorem EndBound.same {cfg : StreamMuxConfig} (h : e'.inbound = e.inbound) (hb : EndBound cfg e) : EndBound cfg e' := by
  obtain ⟨_, hr, hw, hm⟩ := inbound_eq.mp h
  exact ⟨by rw [hm]; exact hb.frames, by rw [hw]; exact hb.window, by rw [hr, hw]; exact hb.unread⟩

/-- A call without `handleMu` knows at most how long its frame is. -/
theorem BoundPc.free (hm : e'.maxFrameSize = e.maxFrameSize) (hf : .handleMu ∉ pc.holds) (hb : BoundPc e pc) :
    BoundPc e' pc := by
  cases pc with
  | handle pc =>
    cases pc <;> first
      | trivial
      | exact absurd List.mem_cons_self hf
      | (simp only [BoundPc, hm]; exact hb)
  | _ => trivial

/-- The offset and the buffer change only behind `handleMu`. -/
theorem BoundPc.other {pc₂ : Pc} (h : Effect e pc e' n) (hx : .handleMu ∈ pc.holds → .handleMu ∉ pc₂.holds)
    (hb : BoundPc e pc₂) : BoundPc e' pc₂ := by
  obtain ⟨hw, hm, _⟩ := h.fixed
  by_cases hheld : .handleMu ∈ pc₂.holds
  · have hfree : .handleMu ∉ pc.holds := fun hpc => hx hpc hheld
    rcases h.received with ⟨ho, _, hquiet⟩ | ⟨_, _, _, rfl, _⟩
    · exact hb.same (inbound_eq.mpr ⟨ho, (hquiet hfree).2.1, hw, hm⟩)
    · exact absurd List.mem_cons_self hfree
  · exact hb.free hm hheld

/-- `Read` shortens the buffer, and what a handler appends fits. -/
theorem Effect.unread (h : Effect e pc e' n) (hb : e.conn.readBuf.length ≤ e.conn.window.toNat) (hpc : BoundPc e pc) :
    e'.conn.readBuf.length ≤ e'.conn.window.toNat := by
  rw [h.fixed.1]
  cases h with
  | take he =>
    rw [he]
    show (e.conn.readBuf.drop _).length ≤ _
    rw [List.length_drop]
    omega
  | append =>
    show (e.conn.readBuf ++ _).length ≤ _
    rw [List.length_append]
    exact hpc
  | terminate _ ht =>
    obtain ⟨_, _, _, _, hc, _⟩ := terminateStep_frame ht
    rw [hc]
    exact hb
  | storeCredit =>
    obtain ⟨_, _, _, hc⟩ := e.conn.storeCredit_eq _
    show (e.conn.storeCredit _).readBuf.length ≤ _
    rw [hc]
    exact hb
  | clear =>
    obtain ⟨_, _, hc⟩ := e.conn.clearResume_eq _
    show (e.conn.clearResume _).readBuf.length ≤ _
    rw [hc]
    exact hb
  | _ => exact hb

/-- The bytes a frame brings fit when the handler has checked them behind `handleMu`. -/
theorem handleStep_bound {pc : HandlePc} {n : Next HandlePc} {pc' : HandlePc} (h : handleStep e sent pc = some (e', n))
    (hn : n.pc? = some pc') (hroom : e.conn.readBuf.length + e.maxFrameSize < 2 ^ 64) (hpc : BoundPc e (.handle pc)) :
    BoundPc e' (.handle pc') := by
  cases pc with
  | enter f =>
    simp only [handleStep, enterStep] at h
    split at h
    · cases h
      cases hn
    · rename_i hok
      have hlen := frameError_payload hok
      (repeat' split at h) <;> cases h <;> cases hn <;> first
        | exact hlen
        | trivial
  | dispatch f =>
    simp only [handleStep, dispatchStep, acknowledgeStep] at h
    (repeat' split at h) <;> cases h <;> cases hn <;> first
      | exact ⟨hpc, rfl⟩
      | trivial
  | checkData f unique =>
    simp only [handleStep] at h
    cases h
    obtain ⟨hlen, rfl⟩ := hpc
    split at hn
    · cases hn
      trivial
    · rename_i hok
      cases hn
      exact ⟨hlen, checkData_fits (by omega) hok⟩
  | accept f =>
    simp only [handleStep] at h
    split at h
    · cases h
      cases hn
      trivial
    · rename_i ha
      cases h
      cases hn
      obtain ⟨hlen, hfits⟩ := hpc
      obtain ⟨_, _, _, _, _, hp, _, _⟩ := accept_shape ha
      rw [toNat_unique (by omega), ← hp] at hfits
      exact hfits
  | terminate t =>
    obtain ⟨⟨e₁, t'⟩, _, he⟩ := Option.map_eq_some_iff.mp h
    cases he
    cases t' <;> cases hn <;> trivial
  | storeCredit f =>
    simp only [handleStep] at h
    split at h <;> cases h <;> cases hn <;> trivial
  | lockHandle | lockCheck | lockAppend =>
    cases h
    cases hn
    exact hpc
  | _ =>
    cases h
    cases hn <;> trivial

theorem pcStep_bound (h : pcStep e sent how pc = some (e', n)) (hn : n.pc? = some pc')
    (hroom : e.conn.readBuf.length + e.maxFrameSize < 2 ^ 64) (hpc : BoundPc e pc) : BoundPc e' pc' := by
  cases pc <;> obtain ⟨⟨e₁, n₁⟩, hs, he⟩ := Option.map_eq_some_iff.mp h <;> cases he <;> cases n₁ <;> cases hn
  all_goals first
    | exact handleStep_bound hs rfl hroom hpc
    | trivial

theorem terminateStep_inbound {err : StreamError} {t : TerminatePc} {t' : Option TerminatePc}
    (h : terminateStep e err t = some (e', t')) : e'.inbound = e.inbound := by
  cases t <;> simp only [terminateStep] at h <;> (repeat' split at h) <;> cases h <;> rfl

end

/-! ## All connections of a mux -/

/-- What a call knows of the connections: each call is on one of them, and the Open frames that
    arrive ask for no more than the window. -/
def Knows (cfg : StreamMuxConfig) (conns : List StreamEnd) : MuxPc → Prop
  | .conn k pc _ => ∃ e, conns[k]? = some e ∧ BoundPc e pc
  | .handleFrame frame => frame.kind = .frameOpen → (openAck frame).window.toNat ≤ cfg.window.toNat
  | .terminate _ _ _ after => after.plain = true
  | _ => True

structure Windowed (m : StreamMux) : Prop where
  ends : ∀ e ∈ m.conns, EndBound m.cfg e
  knows : ∀ pc ∈ m.calls, Knows m.cfg m.conns pc
  exclusive : Exclusive MuxPc.holds m.calls

/-- A peer opens no stream with a larger window than the local one. -/
def Modest (m : StreamMux) : MuxMove → Prop
  | .call (.handleFrame frame) => frame.kind = .frameOpen → (openAck frame).window.toNat ≤ m.cfg.window.toNat
  | _ => True

instance (m : StreamMux) (a : MuxMove) : Decidable (Modest m a) := by
  unfold Modest
  split <;> infer_instance

section

variable {m m' : StreamMux} {pc pc' : MuxPc} {conns : List StreamEnd}

theorem Knows.of_plain {cfg : StreamMuxConfig} (h : pc.plain = true) : Knows cfg conns pc := by
  cases pc with
  | conn | handleFrame | terminate => cases h
  | _ => trivial

/-- Where the end at `k` after a step comes from. -/
theorem MuxEffect.origin (h : MuxEffect m pc conns pc') {k : Nat} {e' : StreamEnd} (he' : conns[k]? = some e') :
    (∃ e, m.conns[k]? = some e ∧ e'.inbound = e.inbound) ∨
    (∃ pc₁ sent e e₁ n, pc = .conn k pc₁ sent ∧ m.conns[k]? = some e ∧ Effect e pc₁ e₁ n ∧ e'.inbound = e₁.inbound) ∨
    (k = m.conns.length ∧ ∃ id epoch window opened, e' = newMuxEnd id epoch window m.cfg.maxFrameSize.toNat opened ∧
      (window = m.cfg.window ∨
        ∃ frame, pc = .handleFrame frame ∧ frame.kind = .frameOpen ∧ window = (openAck frame).window)) := by
  have hset : ∀ {j : Nat} {e₀ : StreamEnd}, (m.conns.set j e₀)[k]? = some e' →
      j = k ∧ e' = e₀ ∨ ∃ e, m.conns[k]? = some e ∧ e'.inbound = e.inbound := by
    intro j e₀ hj
    rcases Slots.get_set hj with ⟨he, hk⟩ | ⟨-, hk⟩
    · exact .inl ⟨he.symm, hk⟩
    · exact .inr ⟨e', hk, rfl⟩
  have hnew : ∀ {e₀ : StreamEnd}, (m.conns ++ [e₀])[k]? = some e' →
      k = m.conns.length ∧ e' = e₀ ∨ ∃ e, m.conns[k]? = some e ∧ e'.inbound = e.inbound := by
    intro e₀ hk
    rcases Slots.get_snoc hk with hk | hnew
    · exact .inr ⟨e', hk, rfl⟩
    · exact .inl hnew
  cases h with
  | conn he hs hn =>
    rcases hset he' with ⟨rfl, rfl⟩ | hold
    · exact .inr (.inl ⟨_, _, _, _, _, rfl, he, pcStep_effect hs, rfl⟩)
    · exact .inl hold
  | ret he hs =>
    rcases hset he' with ⟨rfl, rfl⟩ | hold
    · exact .inr (.inl ⟨_, _, _, _, _, rfl, he, pcStep_effect hs, rfl⟩)
    · exact .inl hold
  | terminate he ht =>
    rcases hset he' with ⟨rfl, rfl⟩ | hold
    · exact .inl ⟨_, he, terminateStep_inbound ht⟩
    · exact .inl hold
  | opened hk hw hn =>
    rcases hnew he' with ⟨hlen, rfl⟩ | hold
    · exact .inr (.inr ⟨hlen, _, _, _, _, rfl, .inr ⟨_, rfl, hk, rfl⟩⟩)
    · exact .inl hold
  | dialed hn =>
    rcases hnew he' with ⟨hlen, rfl⟩ | hold
    · exact .inr (.inr ⟨hlen, _, _, _, _, rfl, .inl rfl⟩)
    · exact .inl hold
  | route | close => exact .inl ⟨e', he', rfl⟩
  | quiet hc =>
    have hk := congrArg (fun l => l[k]?) hc
    simp only [List.getElem?_map, he', Option.map_some] at hk
    obtain ⟨e, he, hi⟩ := Option.map_eq_some_iff.mp hk.symm
    exact .inl ⟨e, he, hi.symm⟩

theorem MuxEffect.length_le (h : MuxEffect m pc conns pc') : m.conns.length ≤ conns.length := by
  cases h with
  | conn | ret | terminate => rw [List.length_set]
  | opened | dialed => simp [StreamMux.register]
  | route | close => exact Nat.le_refl _
  | quiet hc =>
    have := congrArg List.length hc
    simp only [List.length_map] at this
    omega

/-- Every end of before is still there. -/
theorem MuxEffect.stays (h : MuxEffect m pc conns pc') {k : Nat} {e : StreamEnd} (he : m.conns[k]? = some e) :
    ∃ e', conns[k]? = some e' ∧ (e'.inbound = e.inbound ∨
      ∃ pc₁ sent e₁ n, pc = .conn k pc₁ sent ∧ Effect e pc₁ e₁ n ∧ e'.inbound = e₁.inbound) := by
  obtain ⟨hk, _⟩ := List.getElem?_eq_some_iff.mp he
  have he' := List.getElem?_eq_getElem (Nat.lt_of_lt_of_le hk h.length_le)
  refine ⟨_, he', ?_⟩
  rcases h.origin he' with ⟨e₀, h₀, hi⟩ | ⟨pc₁, sent, e₀, e₁, n, hpc, h₀, heff, hi⟩ | ⟨hlen, _⟩
  · rw [he, Option.some.injEq] at h₀
    exact .inl (h₀ ▸ hi)
  · rw [he, Option.some.injEq] at h₀
    subst h₀
    exact .inr ⟨pc₁, sent, e₁, n, hpc, heff, hi⟩
  · omega

theorem MuxEffect.takes (h : MuxEffect m pc conns pc') (hpc : Knows m.cfg m.conns pc) (l : MuxLock) :
    pc'.holds.count l ≤ (pc.wants.toList ++ pc.holds).count l := by
  have hinj : ∀ k : Nat, Function.Injective (MuxLock.mk k) := fun _ _ _ h => (MuxLock.mk.inj h).2
  have hnone : ∀ {pc' : MuxPc}, pc'.holds = [] → pc'.holds.count l ≤ (pc.wants.toList ++ pc.holds).count l := by
    intro pc' hh
    rw [hh]
    exact Nat.zero_le _
  cases h with
  | conn he hs hn => exact takesAtMost_map (hinj _) (pcStep_locks hs hn) l
  | @terminate _ _ _ _ _ _ t' he ht =>
    cases t' with
    | none => exact hnone (MuxPc.holds_of_plain hpc)
    | some t' => exact takesAtMost_map (hinj _) (terminateStep_locks ht) l
  | quiet _ hp => exact hnone (MuxPc.holds_of_plain hp)
  | _ => exact hnone rfl

theorem MuxEffect.ends (h : MuxEffect m pc conns pc') (hw : ∀ e ∈ m.conns, EndBound m.cfg e)
    (hpc : Knows m.cfg m.conns pc) {e' : StreamEnd} (he' : e' ∈ conns) : EndBound m.cfg e' := by
  obtain ⟨k, hk⟩ := List.mem_iff_getElem?.mp he'
  rcases h.origin hk with ⟨e, he, hi⟩ | ⟨pc₁, sent, e, e₁, n, rfl, he, heff, hi⟩ | ⟨_, id, epoch, window, opened, rfl, hwin⟩
  · exact (hw e (List.mem_of_getElem? he)).same hi
  · have hb := hw e (List.mem_of_getElem? he)
    obtain ⟨e₀, he₀, hbound⟩ := hpc
    rw [he, Option.some.injEq] at he₀
    subst he₀
    obtain ⟨hwin, hmax, _⟩ := heff.fixed
    exact EndBound.same hi ⟨by rw [hmax]; exact hb.frames, by rw [hwin]; exact hb.window, heff.unread hb.unread hbound⟩
  · refine ⟨rfl, ?_, Nat.zero_le _⟩
    rcases hwin with rfl | ⟨frame, rfl, hopen, rfl⟩
    · exact Nat.le_refl _
    · exact hpc hopen

/-- What the other calls know, they still know. -/
theorem MuxEffect.others (h : MuxEffect m pc conns pc') {y : MuxPc} (hx : ∀ l ∈ pc.holds, l ∉ y.holds)
    (hy : Knows m.cfg m.conns y) : Knows m.cfg conns y := by
  cases y with
  | conn k pc₂ sent₂ =>
    obtain ⟨e, he, hb⟩ := hy
    obtain ⟨e', he', hi | ⟨pc₁, sent, e₁, n, rfl, heff, hi⟩⟩ := h.stays he
    · exact ⟨e', he', hb.same hi⟩
    · refine ⟨e', he', BoundPc.same hi (BoundPc.other heff (fun hm hm₂ => ?_) hb)⟩
      exact hx _ (List.mem_map_of_mem hm) (List.mem_map_of_mem hm₂)
  | _ => exact hy

/-- What the call that moved knows. -/
theorem MuxEffect.own (h : MuxEffect m pc conns pc') (hw : ∀ e ∈ m.conns, EndBound m.cfg e)
    (hroom : m.cfg.window.toNat + m.cfg.maxFrameSize.toNat < 2 ^ 64) (hpc : Knows m.cfg m.conns pc) :
    Knows m.cfg conns pc' := by
  cases h with
  | @conn k _ _ _ _ e e' _ _ _ he hs hn =>
    obtain ⟨e₀, he₀, hb⟩ := hpc
    rw [he, Option.some.injEq] at he₀
    subst he₀
    have hend := hw e (List.mem_of_getElem? he)
    have h₁ := hend.frames
    have h₂ := hend.window
    have h₃ := hend.unread
    obtain ⟨hk, _⟩ := List.getElem?_eq_some_iff.mp he
    refine ⟨_, List.getElem?_set_self hk, ?_⟩
    exact BoundPc.same (e := e') rfl (pcStep_bound hs hn (by omega) hb)
  | @route frame k hf hk =>
    obtain ⟨hlt, _⟩ := List.findIdx?_eq_some_iff_getElem.mp hk
    refine ⟨_, List.getElem?_eq_getElem hlt, ?_⟩
    show frame.payload.length ≤ _
    rw [(hw _ (List.getElem_mem hlt)).frames]
    exact frameError_payload hf
  | @terminate _ _ _ _ _ _ t' he ht =>
    cases t' with
    | none => exact .of_plain hpc
    | some t' => exact hpc
  | close hp => exact hp
  | quiet _ hp => exact .of_plain hp
  | _ => trivial

theorem Windowed.run {i : Nat} (hi : Windowed m) (hroom : m.cfg.window.toNat + m.cfg.maxFrameSize.toNat < 2 ^ 64)
    (hcall : m.calls[i]? = some pc) (hfree : ∀ l, pc.wants = some l → l ∉ m.held) (h : m.Continues i pc m') :
    Windowed m' := by
  obtain ⟨hcfg, pc', heff, hcalls⟩ := h
  have hknow := hi.knows pc (List.mem_of_getElem? hcall)
  refine ⟨fun e he => hcfg ▸ heff.ends hi.ends hknow he, fun y hy => ?_, ?_⟩
  · rw [hcfg]
    rw [hcalls] at hy
    obtain ⟨j, hj⟩ := List.mem_iff_getElem?.mp hy
    rcases Slots.get_set hj with ⟨-, rfl⟩ | ⟨hne, hj⟩
    · exact heff.own hi.ends hroom hknow
    · exact heff.others (fun l hl => hi.exclusive.apart hcall hj hne hl) (hi.knows y (List.mem_of_getElem? hj))
  · rw [hcalls]
    exact hi.exclusive.set hcall pc.wants hfree (heff.takes hknow)

theorem Call.start_holds {c : Call} {p : Pc} (h : c.start = some p) : p.holds = [] := by
  cases c <;> simp only [Call.start] at h <;> (try split at h) <;> cases h <;> rfl

theorem StreamMux.start_holds {c : MuxCall} (h : m.start c = some pc) : pc.holds = [] := by
  have hconn : ∀ {k : Nat} {c : Call}, m.onConn k c = some pc → pc.holds = [] := by
    intro k c hc
    unfold StreamMux.onConn at hc
    split at hc
    · obtain ⟨p, hp, rfl⟩ := Option.map_eq_some_iff.mp hc
      show p.holds.map _ = []
      rw [Call.start_holds hp]
      rfl
    · cases hc
  cases c with
  | read | write | resume | closeConn => exact hconn h
  | _ => cases h; rfl

/-- A new call knows nothing yet, but for the Open frames that `Modest` speaks of. -/
theorem StreamMux.start_knows {c : MuxCall} (h : m.start c = some pc) (hok : Modest m (.call c)) :
    Knows m.cfg m.conns pc := by
  have hconn : ∀ {k : Nat} {c : Call}, m.onConn k c = some pc → Knows m.cfg m.conns pc := by
    intro k c hc
    unfold StreamMux.onConn at hc
    split at hc
    · rename_i hk
      obtain ⟨p, hp, rfl⟩ := Option.map_eq_some_iff.mp hc
      refine ⟨_, List.getElem?_eq_getElem hk, ?_⟩
      cases c <;> simp only [Call.start] at hp <;> (try split at hp) <;> cases hp <;> trivial
    · cases hc
  cases c with
  | read | write | resume | closeConn => exact hconn h
  | handleFrame => cases h; exact hok
  | _ => cases h; trivial

theorem Windowed.call {c : MuxCall} (hi : Windowed m) (hok : Modest m (.call c)) (h : m.start c = some pc) :
    Windowed { m with calls := m.calls ++ [pc] } := by
  refine ⟨hi.ends, fun y hy => ?_, hi.exclusive.add ?_⟩
  · rcases List.mem_append.mp hy with hy | hy
    · exact hi.knows y hy
    · rw [List.mem_singleton.mp hy]
      exact StreamMux.start_knows h hok
  · rw [List.flatMap_singleton]
    exact StreamMux.start_holds h

theorem windowed {cfg : StreamMuxConfig} (hroom : cfg.window.toNat + cfg.maxFrameSize.toNat < 2 ^ 64)
    (h : Reach StreamMux.step Modest (· = .new cfg) m) : m.cfg = cfg ∧ Windowed m := by
  refine Reach.keeps (P := fun m => m.cfg = cfg ∧ Windowed m) ?_ ?_ h
  · rintro _ rfl
    exact ⟨rfl, fun _ h => absurd h List.not_mem_nil, fun _ h => absurd h List.not_mem_nil, fun _ => Nat.zero_le _⟩
  · rintro m a m' _ ⟨hcfg, hi⟩ hok hstep
    rcases StreamMux.step_cases hstep with ⟨c, pc, rfl, hstart, rfl⟩ | ⟨i, how, pc, rfl, hcall, hfree, hc⟩
    · exact ⟨hcfg, hi.call hok hstart⟩
    · exact ⟨hc.1.trans hcfg, hi.run (by rw [hcfg]; exact hroom) hcall hfree hc⟩

end

/-- While no peer opens a stream with a larger window than the local one, no connection holds
    more unread bytes than the local window, whatever else arrives. -/
theorem window_bounds {raw cfg : StreamMuxConfig} {m : StreamMux} (hcfg : raw.normalized = .ok cfg)
    (h : Reach StreamMux.step Modest (· = .new cfg) m) :
    ∀ e ∈ m.conns, e.conn.readBuf.length ≤ cfg.window.toNat := by
  obtain ⟨hwin, _, hmax, _⟩ := normalized_ok hcfg
  have hroom : cfg.window.toNat + cfg.maxFrameSize.toNat < 2 ^ 64 := by
    unfold maxInt at hwin
    unfold defaultStreamMaxFrame at hmax
    omega
  obtain ⟨hsame, hi⟩ := windowed hroom h
  intro e he
  have hend := hi.ends e he
  rw [hsame] at hend
  exact Nat.le_trans hend.unread hend.window

/-- A mux with a window of four bytes and frames of at most eight. -/
def smallMux : StreamMuxConfig where
  window := 4
  maxFrameSize := 8
  acceptBacklog := 1

/-- An Open frame with the window `w` and a Data frame with `p` arrive, each handled to its end. -/
def openAndSend (w : UInt64) (p : Bytes) : List MuxMove :=
  List.flatten [[.call (.handleFrame { kind := .frameOpen, id := sampleID, epoch := 1, window := w }),
    .run 0 .go, .run 0 .taken, .run 0 .go, .run 0 .go,
    .call (.handleFrame { kind := .frameData, id := sampleID, epoch := 1, payload := p })],
    List.replicate 10 (.run 1 .go), [.run 1 .taken, .run 1 .go]]

theorem window_bounds_filled : ∃ m : StreamMux, (m.conns.map fun e => e.conn.readBuf) = [[1, 2, 3, 4]] ∧
    ∀ e ∈ m.conns, e.conn.readBuf.length ≤ 4 := by
  have h : (exec (guarded StreamMux.step Modest) (.new smallMux) (openAndSend 4 [1, 2, 3, 4])).any (fun m =>
      (m.conns.map fun e => e.conn.readBuf) = [[1, 2, 3, 4]]) = true := by decide +kernel
  obtain ⟨m, hm, hw⟩ := reach_any (I := fun m => m = .new smallMux) _ (.init rfl) h
  have hcfg : smallMux.normalized = .ok smallMux := rfl
  exact ⟨m, of_decide_eq_true hw, window_bounds hcfg hm⟩

/-- The peer opens with a window of eight and sends five bytes, the local window is four. -/
theorem window_exceeded : smallMux.normalized = .ok smallMux ∧
    ∃ m : StreamMux, Reach StreamMux.step free (· = .new smallMux) m ∧
      ∃ e ∈ m.conns, e.registered = true ∧ smallMux.window.toNat < e.conn.readBuf.length := by
  refine ⟨rfl, ?_⟩
  have h : (exec (guarded StreamMux.step free) (.new smallMux) (openAndSend 8 [1, 2, 3, 4, 5])).any (fun m =>
      ∃ e ∈ m.conns, e.registered = true ∧ smallMux.window.toNat < e.conn.readBuf.length) = true := by decide +kernel
  obtain ⟨m, hm, hw⟩ := reach_any (I := fun m => m = .new smallMux) _ (.init rfl) h
  exact ⟨m, hm, of_decide_eq_true hw⟩

end Turntf.Stream
