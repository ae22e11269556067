/-
  Turntf.Stream.Credit — the credit a `Write` goes by (`stream_conn.go`).

  An acknowledgement is applied in two sections: `sender.Acknowledge`, which moves `acked`,
  and the one behind `mu`, which stores `sendWin` and wakes the waiting calls. A `Write`
  takes a snapshot of the sender and then, behind `mu`, compares it with `sendWin`. Between
  two sections of the one there may come sections of the other.

  - `credit_overrun`: a snapshot that already counts an acknowledgement is compared with the
    `sendWin` from before it, and the frame goes past every credit the peer ever gave.
  - `credit_obeyed`: where that does not happen, no frame of `Write` goes past the credit and
    `sender.Data` never finds the window full.
  - `wakeup_lost`: a snapshot from before an acknowledgement is compared after its wakeup,
    and the `Write` waits although there is credit and nothing is left that would wake it.
  - `parked_without_credit`: where each snapshot is compared while `acked` is as it was, a
    waiting `Write` has no credit, or the wakeup is on its way.
-/

import Turntf.Stream.Integrity

namespace Turntf.Stream

open Lts Locks Ends

/-! ## The acknowledgements applied -/

/-- What an OpenAck or Ack acknowledges. -/
def ackOffset (f : StreamFrame) : UInt64 := if f.kind = .frameOpenAck then 0 else f.offset

namespace StreamEnd

/-- Offset and window of the last acknowledgement applied, at first of the opening. -/
def lastAck (e : StreamEnd) : UInt64 × UInt64 := e.hist.applied.getLast?.getD (0, e.conn.window)

/-- Offset and window of the one before it. -/
def prevAck (e : StreamEnd) : UInt64 × UInt64 := e.hist.applied.dropLast.getLast?.getD (0, e.conn.window)

end StreamEnd

def grant (a : UInt64 × UInt64) : Nat := a.1.toNat + a.2.toNat

/-- The frame whose acknowledgement is applied and whose window is not yet stored. -/
def Pc.storing : Pc → Option StreamFrame
  | .handle (.lockCredit f) | .handle (.storeCredit f) => some f
  | _ => none

/-- The call on top of thread `i`, if it is one of end `x`. -/
def Sys.top (s : Sys) (x : Side) (i : Nat) : Option Pc :=
  match s.threads[i]? with
  | some ⟨y :: _, _⟩ => if y.side = x then some y.pc else none
  | _ => none

/-- The peer of `x` is honest: what it acknowledges, and how far it gives credit, does not go
    back, and stays below `2^64`. -/
def Honest (x : Side) (s : Sys) : Move → Bool
  | .run i _ =>
    match s.top x i with
    | some (.handle (.dispatch f)) =>
      f.kind ≠ .frameAck && f.kind ≠ .frameOpenAck ||
        match (s.ends x).conn.sender.acknowledge f.epoch (ackOffset f) f.window with
        | .ok _ => grant (s.ends x).lastAck ≤ grant (ackOffset f, f.window) && grant (ackOffset f, f.window) < 2 ^ 64
        | .error _ => true
    | _ => true
  | _ => true

/-- A `Write` does not compare a snapshot that counts an acknowledgement with the larger
    `sendWin` from before it. -/
def Settled (x : Side) (s : Sys) : Move → Bool
  | .run i _ =>
    match s.top x i with
    | some (.write (.credit _ _ _ acked)) =>
      !s.acts.any fun z => z.side = x && z.pc.storing.any fun f =>
        ackOffset f = acked && f.window < (s.ends x).conn.sendWin
    | _ => true
  | _ => true

/-- A `Write` compares its snapshot while `acked` is still what the snapshot says. -/
def Current (x : Side) (s : Sys) : Move → Bool
  | .run i _ =>
    match s.top x i with
    | some (.write (.credit _ _ _ acked)) => acked = (s.ends x).conn.sender.acked
    | _ => true
  | _ => true

/-! ## What one step does to the credit -/

/-- Nothing was written or acknowledged. -/
structure SameAcks (e e' : StreamEnd) : Prop where
  next : e'.conn.sender.next = e.conn.sender.next
  acked : e'.conn.sender.acked = e.conn.sender.acked
  window : e'.conn.sender.window = e.conn.sender.window
  opening : e'.conn.window = e.conn.window
  applied : e'.hist.applied = e.hist.applied
  made : e'.hist.made = e.hist.made
  refused : e'.hist.refused = e.hist.refused

/-- Nothing the credit depends on has changed. -/
structure SameCredit (e e' : StreamEnd) : Prop extends SameAcks e e' where
  sendWin : e'.conn.sendWin = e.conn.sendWin

/-- `Write` calls `sender.Data` with the next chunk, and it makes a frame or refuses. -/
def SendsData (e : StreamEnd) (rest : Bytes) (available : UInt64) (e' : StreamEnd) : Prop :=
  ∃ p, p = rest.take (chunkSize rest e.maxFrameSize available) ∧
    ((∃ f s, e.conn.sender.data p = .ok (f, s) ∧
      e' = { e with
        conn.sender := s
        hist.written := e.hist.written ++ p
        hist.made := e.hist.made ++ [(f, e.credit)] }) ∨
    (∃ err, e.conn.sender.data p = .error err ∧ e' = { e with hist.refused := e.hist.refused ++ [err] }))

section

variable {e e' : StreamEnd} {pc : Pc} {n : Next Pc} {sent : Option StreamError} {how : Choice}

theorem Effect.credit (h : Effect e pc e' n) : SameCredit e e' ∨
    (∃ done rest available, pc = .write (.data done rest available) ∧ SendsData e rest available e') ∨
    (∃ epoch acked fs s, pc = .resume (.resume epoch acked) ∧
      e.conn.sender.resume (epoch + 1) acked = .ok (fs, s) ∧ e' = { e with conn.sender := s }) ∨
    (∃ f s, pc = .handle (.dispatch f) ∧ (f.kind = .frameAck ∨ f.kind = .frameOpenAck) ∧
      e.conn.sender.acknowledge f.epoch (ackOffset f) f.window = .ok s ∧ n = .goto (.handle (.lockCredit f)) ∧
      e' = { e with conn.sender := s, hist.applied := e.hist.applied ++ [(ackOffset f, f.window)] }) ∨
    (∃ f, pc = .handle (.storeCredit f) ∧ e' = { e with conn := e.conn.storeCredit f }) := by
  cases h with
  | data hk hd => subst hk; exact .inr (.inl ⟨_, _, _, rfl, _, rfl, .inl ⟨_, _, hd, rfl⟩⟩)
  | refused hd => exact .inr (.inl ⟨_, _, _, rfl, _, rfl, .inr ⟨_, hd, rfl⟩⟩)
  | resume hr => exact .inr (.inr (.inl ⟨_, _, _, _, rfl, hr, rfl⟩))
  | acknowledge ho hs =>
    rename_i f o s
    have ho' : o = ackOffset f := by
      rcases ho with ⟨hk, rfl⟩ | ⟨hk, rfl⟩ <;> simp [ackOffset, hk]
    subst ho'
    exact .inr (.inr (.inr (.inl ⟨_, _, rfl, ho.imp And.left And.left, hs, rfl, rfl⟩)))
  | storeCredit => exact .inr (.inr (.inr (.inr ⟨_, rfl, rfl⟩)))
  | take he => rw [he]; exact .inl ⟨⟨rfl, rfl, rfl, rfl, rfl, rfl, rfl⟩, rfl⟩
  | terminate _ ht =>
    obtain ⟨hh, _, _, _, hc, _⟩ := terminateStep_frame ht
    refine .inl ⟨⟨?_, ?_, ?_, ?_, by rw [hh], by rw [hh], by rw [hh]⟩, ?_⟩ <;> rw [hc]
  | clear =>
    obtain ⟨_, _, hc⟩ := e.conn.clearResume_eq _
    refine .inl ⟨⟨?_, ?_, ?_, ?_, rfl, rfl, rfl⟩, ?_⟩ <;> rw [hc]
  | _ => exact .inl ⟨⟨rfl, rfl, rfl, rfl, rfl, rfl, rfl⟩, rfl⟩

/-- The channel waited on stays open only while the close reason stays too. -/
theorem Effect.channel (h : Effect e pc e' n) :
    e'.conn.state = e.conn.state ∧ e'.conn.closeErr = e.conn.closeErr ∨ e'.conn.state = e.conn.state + 1 := by
  cases h with
  | take he => rw [he]; exact .inl ⟨rfl, rfl⟩
  | terminate hpc ht =>
    obtain ⟨_, _, _, _, hc, ⟨hr, hs⟩ | ⟨_, _, hs⟩⟩ := terminateStep_frame ht
    · rw [hc]
      exact .inl ⟨hs, hr⟩
    · rw [hc]
      exact .inr hs
  | storeCredit =>
    obtain ⟨_, _, _, hc⟩ := e.conn.storeCredit_eq _
    rw [hc]
    exact .inr rfl
  | clear =>
    obtain ⟨_, _, hc⟩ := e.conn.clearResume_eq _
    rw [hc]
    exact .inl ⟨rfl, rfl⟩
  | append => exact .inr rfl
  | _ => exact .inl ⟨rfl, rfl⟩

/-- An acknowledgement that is applied stays so until its window is stored. -/
theorem pcStep_storing {f : StreamFrame} (h : pcStep e sent how pc = some (e', n)) (hf : pc.storing = some f) :
    e' = e ∧ n = .goto (.handle (.storeCredit f)) ∨
      e' = { e with conn := e.conn.storeCredit f } ∧ n.pc?.bind Pc.storing = none := by
  cases pc with
  | handle pc =>
    cases pc <;> cases hf
    · cases h; exact .inl ⟨rfl, rfl⟩
    · cases h
      refine .inr ⟨rfl, ?_⟩
      show (some (Pc.handle (if f.kind = .frameOpenAck then .markOpen else .unlock none))).bind Pc.storing = none
      split <;> rfl
  | _ => cases hf

theorem pcStep_storing_at {pc' : Pc} {f : StreamFrame} (h : pcStep e sent how pc = some (e', n))
    (hn : n.pc? = some pc') (hf : pc'.storing = some f) :
    pc.storing = some f ∧ e' = e ∨ pc = .handle (.dispatch f) ∧ ∃ s,
      e.conn.sender.acknowledge f.epoch (ackOffset f) f.window = .ok s ∧
      e' = { e with conn.sender := s, hist.applied := e.hist.applied ++ [(ackOffset f, f.window)] } := by
  cases pc with
  | handle pc =>
    obtain ⟨⟨e₁, n₁⟩, hs, he⟩ := Option.map_eq_some_iff.mp h
    cases he
    obtain ⟨hd, hn', rfl⟩ := Next.pc?_map hn
    cases pc with
    | terminate t =>
      obtain ⟨⟨e₂, _ | t'⟩, _, he⟩ := Option.map_eq_some_iff.mp hs <;> cases he <;> cases hn' <;> cases hf
    | dispatch g =>
      simp only [handleStep, dispatchStep, acknowledgeStep] at hs
      (repeat' split at hs) <;> cases hs <;> cases hn' <;> cases hf <;> rename_i _ _ _ hk ha
      · have ho : ackOffset f = 0 := if_pos hk
        exact .inr ⟨rfl, _, ho ▸ ha, by rw [ho]⟩
      · have ho : ackOffset f = f.offset := if_neg (by simp [hk])
        exact .inr ⟨rfl, _, ho ▸ ha, by rw [ho]⟩
    | lockCredit g => cases hs; cases hn'; cases hf; exact .inl ⟨rfl, rfl⟩
    | _ =>
      simp only [handleStep, enterStep] at hs
      (repeat' split at hs) <;> cases hs <;> cases hn' <;> cases hf
  | _ => obtain ⟨⟨e₁, n₁⟩, hs, he⟩ := Option.map_eq_some_iff.mp h; cases he; cases n₁ <;> cases hn <;> cases hf

/-- How a `Write` comes to compare a snapshot, to have credit, and to wait. -/
theorem pcStep_write_at {w : WritePc} (h : pcStep e sent how pc = some (e', n)) (hn : n.pc? = some (.write w)) :
    match w with
    | .lockMu _ _ next acked => next = e.conn.sender.next ∧ acked = e.conn.sender.acked ∧ e' = e
    | .credit done rest next acked => pc = .write (.lockMu done rest next acked) ∧ e' = e
    | .data done rest available => e' = e ∧ ∃ next acked, pc = .write (.credit done rest next acked) ∧
        e.conn.closeErr = none ∧ next - acked < e.conn.sendWin ∧ available = e.conn.sendWin - (next - acked)
    | .parked done rest state => e' = e ∧ state = e.conn.state ∧ ∃ next acked, pc = .write (.credit done rest next acked) ∧
        e.conn.closeErr = none ∧ e.conn.sendWin ≤ next - acked
    | _ => True := by
  cases pc with
  | write pc =>
    obtain ⟨⟨e₁, n₁⟩, hs, he⟩ := Option.map_eq_some_iff.mp h
    cases he
    have hn' : n₁.pc? = some w := by cases n₁ <;> cases hn <;> rfl
    cases pc with
    | credit done rest next acked =>
      simp only [writeStep, StreamConn.waitSendCredit] at hs
      split at hs
      · cases hs; cases hn'; trivial
      · rename_i available hc
        cases hs; cases hn'
        split at hc
        · cases hc
        · rename_i hclose
          split at hc <;> cases hc
          rename_i hlt
          exact ⟨rfl, _, _, rfl, hclose, hlt, rfl⟩
      · rename_i hc
        cases hs; cases hn'
        split at hc
        · cases hc
        · rename_i hclose
          split at hc <;> cases hc
          rename_i hlt
          exact ⟨rfl, rfl, _, _, rfl, hclose, UInt64.not_lt.mp hlt⟩
    | snapshot done rest =>
      simp only [writeStep] at hs
      split at hs <;> cases hs <;> cases hn'
      · trivial
      · exact ⟨rfl, rfl, rfl⟩
    | lockMu done rest next acked => cases hs; cases hn'; exact ⟨rfl, rfl⟩
    | _ => simp only [writeStep] at hs; (repeat' split at hs) <;> cases hs <;> cases hn' <;> trivial
  | _ => obtain ⟨⟨e₁, n₁⟩, hs, he⟩ := Option.map_eq_some_iff.mp h; cases he; cases n₁ <;> cases hn

end

/-! ## Snapshots -/

/-- `next` in the snapshot of a `Write` that is to compare it. -/
def Pc.snapNext : Pc → Option UInt64
  | .write (.lockMu _ _ next _) | .write (.credit _ _ next _) => some next
  | _ => none

theorem Pc.holds_of_snapNext {pc : Pc} {v : UInt64} (h : pc.snapNext = some v) : .writeMu ∈ pc.holds := by
  cases pc with
  | write pc => cases pc <;> first | exact List.mem_cons_self | cases h
  | _ => cases h

/-- Between the sections of a `Write` nothing is written. -/
def SnapOk (e : StreamEnd) (pc : Pc) : Prop := ∀ v, pc.snapNext = some v → v = e.conn.sender.next

theorem Effect.next {e e' : StreamEnd} {pc : Pc} {n : Next Pc} (h : Effect e pc e' n) :
    e'.conn.sender.next = e.conn.sender.next ∨ .writeMu ∈ pc.holds := by
  rcases h.credit with h | ⟨_, _, _, rfl, _⟩ | ⟨_, _, _, s, rfl, hr, rfl⟩ | ⟨f, s, rfl, _, ha, _, rfl⟩ | ⟨f, rfl, rfl⟩
  · exact .inl h.next
  · exact .inr List.mem_cons_self
  · exact .inr List.mem_cons_self
  · obtain ⟨_, _, _, hs⟩ := acknowledge_ok ha
    exact .inl (by rw [hs])
  · obtain ⟨_, _, _, hc⟩ := e.conn.storeCredit_eq f
    exact .inl (by rw [hc])

theorem Call.start_snapNext {c : Call} {pc : Pc} (h : c.start = some pc) : pc.snapNext = none := by
  cases c <;> simp only [Call.start] at h <;> (try split at h) <;> cases h <;> rfl

theorem step_snapshots {x : Side} {s s' : Sys} {m : Move} (hx : Exclusive Act.holds s.acts) (h : Relies SnapOk x s)
    (hs : s.step m = some s') : Relies SnapOk x s' := by
  rcases step_cases hs with ⟨z, c, _, hc⟩ | ⟨i, how, _, ⟨mv⟩⟩
  · refine call_relies hc h (fun pc hq v hv => ?_) fun pc hpc v hv => ?_
    · rw [hc.conn]; exact hq v hv
    · rw [Call.start_snapNext hpc] at hv; cases hv
  · obtain ⟨e, n, extra, hi⟩ := mv.inner
    refine hi.relies (fun _ => h) (fun f v hv => by cases hv) ?_ ?_
    · rintro rfl pc hn v hv
      rw [mv.own, hi.own]
      show v = e.conn.sender.next
      cases pc with
      | write w =>
        have hat := pcStep_write_at hi.step hn
        cases w <;> cases hv
        · obtain ⟨h1, _, h3⟩ := hat
          rw [h1, h3]
        · obtain ⟨hpc, h3⟩ := hat
          rw [h3]
          exact h mv.x mv.mem_self rfl _ (by rw [hpc]; rfl)
      | _ => cases hv
    · rintro rfl y hy hside v hv
      rw [mv.own, hi.own]
      show v = e.conn.sender.next
      rcases hi.effect.next with hn | hw
      · rw [hn]
        exact h y (mv.mem_others hy) hside v hv
      · exact absurd (Pc.holds_of_snapNext hv) (mv.alone hx hy hside hw)

/-! ## No wakeup is lost -/

/-- An acknowledgement of the end `x` is between its two sections. -/
def Sys.storing (s : Sys) (x : Side) : Prop := ∃ y ∈ s.acts, y.side = x ∧ y.pc.storing.isSome = true

/-- A `Write` waits on a channel made by now. While the channel is open the end offers the
    `Write` nothing, unless a wakeup is on its way. -/
def ParkedOk (wakeup : Prop) (e : StreamEnd) (pc : Pc) : Prop :=
  ∀ done rest state, pc = .write (.parked done rest state) →
    state ≤ e.conn.state ∧ (state = e.conn.state →
      e.conn.closeErr = none ∧ (e.conn.sendWin ≤ e.conn.sender.next - e.conn.sender.acked ∨ wakeup))

theorem ParkedOk.mono {p q : Prop} (hpq : p → q) {e e' : StreamEnd} {pc : Pc} (hc : e'.conn = e.conn)
    (h : ParkedOk p e pc) : ParkedOk q e' pc := by
  intro done rest state hpc
  rw [hc]
  obtain ⟨hle, hopen⟩ := h done rest state hpc
  exact ⟨hle, fun hst => ⟨(hopen hst).1, (hopen hst).2.imp_right hpq⟩⟩

theorem Call.start_not_parked {c : Call} {p : Prop} {e : StreamEnd} {pc : Pc} (h : c.start = some pc) :
    ParkedOk p e pc := by
  rintro done rest state rfl
  cases c <;> simp only [Call.start] at h <;> (try split at h) <;> cases h

section

variable {s s' : Sys} {i : Nat} {how : Choice} {mv : Moves s s' i how} {e : StreamEnd} {n : Next Pc}
  {extra : List StreamFrame}

theorem Moves.top (mv : Moves s s' i how) : s.top mv.x.side i = some mv.x.pc := by
  simp [Sys.top, mv.thread]

/-- An acknowledgement stays between its two sections until its window is stored. -/
theorem Inner.storing_kept (hi : Inner mv e n extra) {x : Side} (h : s.storing x) :
    s'.storing x ∨ mv.x.side = x ∧ ∃ f, mv.x.pc.storing = some f ∧
      e = { s.ends x with conn := (s.ends x).conn.storeCredit f } := by
  obtain ⟨y, hy, hside, hf⟩ := h
  rcases mv.mem_or hy with rfl | hy
  · obtain ⟨f, hf⟩ := Option.isSome_iff_exists.mp hf
    rcases pcStep_storing hi.step hf with ⟨_, hn⟩ | ⟨he, _⟩
    · exact .inl ⟨⟨_, .handle (.storeCredit f)⟩, hi.moved_acts (by rw [hn]; rfl), hside, rfl⟩
    · exact .inr ⟨hside, f, hf, hside ▸ he⟩
  · exact .inl ⟨y, mv.mem_others' hy, hside, hf⟩

theorem step_parked {x : Side} {m : Move} (hx : Exclusive Act.holds s.acts) (hsnap : Relies SnapOk x s)
    (h : Relies (ParkedOk (s.storing x)) x s) (hok : Current x s m = true) (hs : s.step m = some s') :
    Relies (ParkedOk (s'.storing x)) x s' := by
  rcases step_cases hs with ⟨z, c, _, hc⟩ | ⟨i, how, rfl, ⟨mv⟩⟩
  · have hkept : s.storing x → s'.storing x := by
      rintro ⟨y, hy, hst⟩
      exact ⟨y, by rw [hc.acts']; exact List.mem_append_left _ hy, hst⟩
    intro y hy hside
    rw [hc.acts'] at hy
    rcases List.mem_append.mp hy with hy | hy
    · exact (h y hy hside).mono hkept (hc.conn x)
    · obtain ⟨pc, hpc, rfl⟩ := Option.map_eq_some_iff.mp (Option.mem_toList.mp hy)
      exact Call.start_not_parked hpc
  · obtain ⟨e, n, extra, hi⟩ := mv.inner
    refine hi.relies ?_ nofun ?_ ?_
    · intro hne y hy hside
      refine (h y hy hside).mono (fun hst => ?_) rfl
      rcases hi.storing_kept hst with hst | ⟨he, _⟩
      · exact hst
      · exact absurd he hne
    · rintro rfl pc hn done rest state rfl
      obtain ⟨rfl, rfl, next, acked, hpc, hclose, hle⟩ := pcStep_write_at hi.step hn
      have hnext := hsnap mv.x mv.mem_self rfl next (by rw [hpc]; rfl)
      simp only [Current, mv.top, hpc, decide_eq_true_eq] at hok
      rw [hnext, hok] at hle
      rw [mv.own, hi.own]
      exact ⟨Nat.le_refl _, fun _ => ⟨hclose, .inl hle⟩⟩
    · rintro rfl y hy hside done rest state hpc
      rw [mv.own, hi.own]
      show state ≤ e.conn.state ∧ (state = e.conn.state → e.conn.closeErr = none ∧
        (e.conn.sendWin ≤ e.conn.sender.next - e.conn.sender.acked ∨ s'.storing mv.x.side))
      obtain ⟨hle, hopen⟩ := h y (mv.mem_others hy) hside done rest state hpc
      rcases hi.effect.channel with ⟨hst, hce⟩ | hst
      · rw [hst, hce]
        refine ⟨hle, fun heq => ⟨(hopen heq).1, ?_⟩⟩
        have hwriter : .writeMu ∉ mv.x.pc.holds := fun hm => mv.alone hx hy hside hm (by rw [hpc]; exact List.mem_cons_self)
        rcases hi.effect.credit with hc | ⟨_, _, _, hp, _⟩ | ⟨_, _, _, _, hp, _⟩ | ⟨f, _, _, _, _, rfl, _⟩ | ⟨f, _, rfl⟩
        · rw [hc.sendWin, hc.next, hc.acked]
          refine (hopen heq).2.imp_right fun hs => ?_
          rcases hi.storing_kept hs with hs | ⟨_, f, _, rfl⟩
          · exact hs
          · obtain ⟨_, _, _, hc⟩ := (s.ends mv.x.side).conn.storeCredit_eq f
            simp only [hc] at hst
            omega
        · exact absurd (by rw [hp]; exact List.mem_cons_self) hwriter
        · exact absurd (by rw [hp]; exact List.mem_cons_self) hwriter
        · exact .inr ⟨⟨_, .handle (.lockCredit f)⟩, hi.moved_acts rfl, rfl, rfl⟩
        · obtain ⟨_, _, _, hc⟩ := (s.ends mv.x.side).conn.storeCredit_eq f
          simp only [hc] at hst
          omega
      · exact ⟨by omega, fun heq => by omega⟩

theorem snapshots {ok : Sys → Move → Prop} {I : Sys → Prop} (hI : ∀ s, I s → s.threads = []) {s : Sys}
    (h : Reach Sys.step ok I s) (x : Side) : Relies SnapOk x s := by
  refine h.keeps (P := Relies SnapOk x) (fun s hi y hy => ?_) fun _ _ _ hr ih _ hs => step_snapshots (exclusive hI hr) ih hs
  rw [Sys.acts, hI s hi] at hy
  cases hy

/-- In a run in which each `Write` of `x` compares its snapshot while `acked` is as it was, a
    `Write` that waits on an open channel is offered nothing, once no acknowledgement is
    between its two sections. -/
theorem parked_without_credit {id : StreamID} {window : Side → UInt64} {maxFrameSize : Side → Nat}
    {accepted : Side → Bool} {x : Side} {s : Sys}
    (h : Reach Sys.step (fun s m => Current x s m = true) (fun s => s = Sys.new id window maxFrameSize accepted) s)
    {done rest : Bytes} {state : Nat} (hparked : ⟨x, .write (.parked done rest state)⟩ ∈ s.acts)
    (hopen : state = (s.ends x).conn.state) : (s.ends x).conn.closeErr = none ∧
      (¬s.storing x → (s.ends x).conn.sendWin ≤ (s.ends x).conn.sender.next - (s.ends x).conn.sender.acked) := by
  have hnew : ∀ s, s = Sys.new id window maxFrameSize accepted → s.threads = [] := by
    rintro s rfl
    rfl
  have hp : Relies (ParkedOk (s.storing x)) x s := by
    refine h.keeps (P := fun s => Relies (ParkedOk (s.storing x)) x s) ?_ ?_
    · rintro s rfl y hy
      cases hy
    · intro s m t hr ih hok hs
      exact step_parked (exclusive hnew hr) (snapshots hnew hr x) ih hok hs
  obtain ⟨_, hoffer⟩ := hp _ hparked rfl done rest state rfl
  obtain ⟨hclose, hle⟩ := hoffer hopen
  exact ⟨hclose, fun hst => hle.resolve_right hst⟩

end

/-- Whether the calls still running are one `Write` of `a` that waits on an open channel. -/
def onlyParked (s : Sys) : Bool :=
  match s.acts with
  | [⟨.a, .write (.parked _ _ state)⟩] => state = (s.ends .a).conn.state
  | _ => false

theorem onlyParked_acts {s : Sys} (h : onlyParked s = true) :
    ∃ done rest, s.acts = [⟨.a, .write (.parked done rest (s.ends .a).conn.state)⟩] := by
  unfold onlyParked at h
  split at h
  · rename_i hacts
    simp only [decide_eq_true_eq] at h
    exact ⟨_, _, by rw [hacts, h]⟩
  · cases h

/-- A `Write` of three bytes with a window of two waits for the third. -/
theorem parked_without_credit_full : ∃ s : Sys, onlyParked s = true ∧ (s.ends .a).conn.closeErr = none ∧
    (s.ends .a).conn.sendWin ≤ (s.ends .a).conn.sender.next - (s.ends .a).conn.sender.acked := by
  have h : ((exec (guarded Sys.step fun s m => Current .a s m = true) (samplePair 2) (List.flatten
      [[.call .a (.write [1, 2, 3])], runs 0 10 .taken])).any onlyParked) = true := by
    decide +kernel
  obtain ⟨s, hs, hw⟩ := reach_any (I := fun s => s = samplePair 2) _ (.init rfl) h
  obtain ⟨done, rest, hacts⟩ := onlyParked_acts hw
  have hstoring : ¬s.storing .a := by
    rintro ⟨y, hy, _, hst⟩
    rw [hacts] at hy
    rw [List.mem_singleton.mp hy] at hst
    cases hst
  obtain ⟨hclose, hle⟩ := parked_without_credit hs (by rw [hacts]; exact List.mem_cons_self) rfl
  exact ⟨s, hw, hclose, hle hstoring⟩

/-- `b` gets the two bytes of `a` in one frame and answers with Acks of window 0, and of window
    2 when they are read. -/
def filledRun : List Move := List.flatten
  [[.call .a (.write [1, 2])], runs 0 9 .taken,
    [.call .b (.handleFrame { kind := .frameData, id := sampleID, epoch := 1, payload := [1, 2] })], runs 1 12 .taken,
    [.call .b (.read 2)], runs 2 9 .taken]

/-- The next `Write` of `a` takes its snapshot, the Ack of window 2 is handled from beginning
    to end, and only then the `Write` compares. -/
def staleRun : List Move := List.flatten
  [filledRun, [.call .a (.write [3])], runs 3 2 .taken,
    [.call .a (.handleFrame { kind := .frameAck, id := sampleID, epoch := 1, offset := 2, window := 2 })], runs 4 6 .taken,
    runs 3 2 .taken]

/-- The `Write` is the only call left and waits on an open channel, with credit for two bytes. -/
theorem wakeup_lost : ∃ s, Reach Sys.step Network (fun s => s = samplePair 2) s ∧
    (∃ done rest, s.acts = [⟨.a, .write (.parked done rest (s.ends .a).conn.state)⟩]) ∧
    ¬(s.ends .a).conn.sendWin ≤ (s.ends .a).conn.sender.next - (s.ends .a).conn.sender.acked := by
  have h : ((exec (guarded Sys.step Network) (samplePair 2) staleRun).any fun s => onlyParked s = true ∧
      ¬(s.ends .a).conn.sendWin ≤ (s.ends .a).conn.sender.next - (s.ends .a).conn.sender.acked) = true := by
    decide +kernel
  obtain ⟨s, hs, hw⟩ := reach_any (I := fun s => s = samplePair 2) _ (.init rfl) h
  simp only [decide_eq_true_eq] at hw
  exact ⟨s, hs, onlyParked_acts hw.1, hw.2⟩

/-! ## The credit is obeyed -/

/-- Between the acknowledgements and the sender of one end. -/
structure CreditOk (e : StreamEnd) : Prop where
  acked : e.conn.sender.acked = e.lastAck.1
  window : 0 < e.lastAck.2 → e.conn.sender.window = e.lastAck.2
  credit : e.credit = grant e.lastAck
  small : grant e.lastAck < 2 ^ 64
  prev : e.prevAck.1 ≤ e.lastAck.1 ∧ grant e.prevAck ≤ grant e.lastAck
  acked_le : e.conn.sender.acked ≤ e.conn.sender.next
  next_le : e.conn.sender.next.toNat ≤ grant e.lastAck
  made : ∀ p ∈ e.hist.made, p.1.offset.toNat + p.1.payload.length ≤ p.2
  refused : .windowFull ∉ e.hist.refused

/-- What a call knows of the credit: a snapshot's `acked` is the last acknowledgement's or one
    from before it; what a `Write` may send is within the credit; while a window waits to be
    stored `sendWin` is the one from before. -/
def CreditPc (e : StreamEnd) : Pc → Prop
  | .write (.lockMu _ _ _ acked) | .write (.credit _ _ _ acked) => acked = e.lastAck.1 ∨ acked ≤ e.prevAck.1
  | .write (.data _ _ available) => e.conn.sender.next.toNat + available.toNat ≤ grant e.lastAck
  | .resume (.resume _ acked) => acked ≤ e.conn.sender.acked
  | .handle (.lockCredit f) | .handle (.storeCredit f) =>
    e.lastAck = (ackOffset f, f.window) ∧ e.conn.sendWin = e.prevAck.2
  | _ => True

structure Credited (x : Side) (s : Sys) : Prop where
  ok : CreditOk (s.ends x)
  calls : Relies CreditPc x s
  stored : s.storing x ∨ (s.ends x).conn.sendWin = (s.ends x).lastAck.2

section

variable {e e' : StreamEnd} {pc : Pc} {f : StreamFrame} {t : StreamSenderState}

theorem SameAcks.lastAck (h : SameAcks e e') : e'.lastAck = e.lastAck := by
  rw [StreamEnd.lastAck, h.applied, h.opening, StreamEnd.lastAck]

theorem SameAcks.prevAck (h : SameAcks e e') : e'.prevAck = e.prevAck := by
  rw [StreamEnd.prevAck, h.applied, h.opening, StreamEnd.prevAck]

theorem SameAcks.credit (h : SameAcks e e') : e'.credit = e.credit := by
  rw [StreamEnd.credit, h.applied, h.opening, StreamEnd.credit]

theorem CreditOk.same (h : CreditOk e) (hs : SameAcks e e') : CreditOk e' where
  acked := by rw [hs.acked, hs.lastAck, h.acked]
  window := by rw [hs.window, hs.lastAck]; exact h.window
  credit := by rw [hs.credit, hs.lastAck, h.credit]
  small := by rw [hs.lastAck]; exact h.small
  prev := by rw [hs.lastAck, hs.prevAck]; exact h.prev
  acked_le := by rw [hs.acked, hs.next]; exact h.acked_le
  next_le := by rw [hs.next, hs.lastAck]; exact h.next_le
  made := by rw [hs.made]; exact h.made
  refused := by rw [hs.refused]; exact h.refused

theorem CreditPc.same (h : CreditPc e pc) (hs : SameCredit e e') : CreditPc e' pc := by
  unfold CreditPc at h ⊢
  split at h <;> simp only [hs.lastAck, hs.prevAck, hs.next, hs.acked, hs.sendWin] <;> exact h

/-! ### An acknowledgement is applied -/

/-- The end after `sender.Acknowledge` for `f`. -/
def acknowledged (e : StreamEnd) (f : StreamFrame) (t : StreamSenderState) : StreamEnd :=
  { e with conn.sender := t, hist.applied := e.hist.applied ++ [(ackOffset f, f.window)] }

@[simp] theorem acknowledged_lastAck : (acknowledged e f t).lastAck = (ackOffset f, f.window) := by
  simp [acknowledged, StreamEnd.lastAck]

@[simp] theorem acknowledged_prevAck : (acknowledged e f t).prevAck = e.lastAck := by
  simp [acknowledged, StreamEnd.prevAck, StreamEnd.lastAck]

@[simp] theorem acknowledged_credit :
    (acknowledged e f t).credit = max e.credit (grant (ackOffset f, f.window)) := by
  simp [acknowledged, StreamEnd.credit, grant]

theorem CreditOk.acknowledged (h : CreditOk e)
    (ha : e.conn.sender.acknowledge f.epoch (ackOffset f) f.window = .ok t)
    (hm : grant e.lastAck ≤ grant (ackOffset f, f.window)) (hb : grant (ackOffset f, f.window) < 2 ^ 64) :
    CreditOk (acknowledged e f t) := by
  obtain ⟨_, hlo, hhi, ht⟩ := acknowledge_ok ha
  have hnext : (Stream.acknowledged e f t).conn.sender.next = e.conn.sender.next := by
    show t.next = _
    rw [ht]
  have hacked : (Stream.acknowledged e f t).conn.sender.acked = ackOffset f := by
    show t.acked = _
    rw [ht]
  refine ⟨?_, ?_, ?_, ?_, ?_, ?_, ?_, h.made, h.refused⟩
  · rw [hacked, acknowledged_lastAck]
  · rw [acknowledged_lastAck]
    intro hpos
    show t.window = f.window
    rw [ht]
    exact if_pos hpos
  · rw [acknowledged_credit, acknowledged_lastAck, h.credit, Nat.max_eq_right hm]
  · rw [acknowledged_lastAck]
    exact hb
  · rw [acknowledged_lastAck, acknowledged_prevAck, ← h.acked]
    exact ⟨hlo, hm⟩
  · rw [hacked, hnext]
    exact hhi
  · rw [hnext, acknowledged_lastAck]
    exact Nat.le_trans h.next_le hm

/-- A call that does not hold `handleMu` keeps what it knows. -/
theorem CreditPc.acknowledged (h : CreditPc e pc) (hok : CreditOk e) (hfree : .handleMu ∉ pc.holds)
    (ha : e.conn.sender.acknowledge f.epoch (ackOffset f) f.window = .ok t)
    (hm : grant e.lastAck ≤ grant (ackOffset f, f.window)) : CreditPc (acknowledged e f t) pc := by
  obtain ⟨_, hlo, _, ht⟩ := acknowledge_ok ha
  have hsnap : ∀ {acked : UInt64}, acked = e.lastAck.1 ∨ acked ≤ e.prevAck.1 → acked ≤ e.lastAck.1 := by
    rintro acked (rfl | hle)
    · exact UInt64.le_refl _
    · exact UInt64.le_trans hle hok.prev.1
  unfold CreditPc at h ⊢
  split at h
  · rw [acknowledged_prevAck]
    exact .inr (hsnap h)
  · rw [acknowledged_prevAck]
    exact .inr (hsnap h)
  · rw [acknowledged_lastAck]
    show t.next.toNat + _ ≤ _
    rw [ht]
    exact Nat.le_trans h hm
  · show _ ≤ t.acked
    rw [ht]
    exact UInt64.le_trans h hlo
  · exact absurd List.mem_cons_self hfree
  · exact absurd List.mem_cons_self hfree
  · trivial

/-- Storing a window changes nothing for a call that does not hold `handleMu`. -/
theorem CreditPc.stored (h : CreditPc e pc) (hs : SameAcks e e') (hfree : .handleMu ∉ pc.holds) : CreditPc e' pc := by
  unfold CreditPc at h ⊢
  split at h
  · rw [hs.lastAck, hs.prevAck]; exact h
  · rw [hs.lastAck, hs.prevAck]; exact h
  · rw [hs.lastAck, hs.next]; exact h
  · rw [hs.acked]; exact h
  · exact absurd List.mem_cons_self hfree
  · exact absurd List.mem_cons_self hfree
  · trivial

theorem CreditPc.storing (h : CreditPc e pc) (hf : pc.storing = some f) :
    e.lastAck = (ackOffset f, f.window) ∧ e.conn.sendWin = e.prevAck.2 := by
  cases pc with
  | handle pc => cases pc <;> cases hf <;> exact h
  | _ => cases hf

/-! ### A `Write` sends -/

/-- A chunk that `sender.Data` takes for its length is within what is available. -/
theorem chunk_le {rest : Bytes} {k : Nat} {available : UInt64}
    (h : (rest.take (chunkSize rest k available)).length ≤ defaultStreamMaxFrame) :
    (rest.take (chunkSize rest k available)).length ≤ available.toNat := by
  obtain ⟨chunk, hchunk, hk⟩ : ∃ chunk ≤ rest.length,
      chunkSize rest k available = if chunk.toUInt64 > available then available.toNat else chunk :=
    ⟨if rest.length > k then k else rest.length, by split <;> omega, rfl⟩
  rw [hk] at h ⊢
  split
  · exact List.length_take_le _ _
  · rename_i hle
    rw [if_neg hle, List.length_take, Nat.min_eq_left hchunk] at h
    rw [List.length_take, Nat.min_eq_left hchunk]
    rw [gt_iff_lt, UInt64.not_lt, UInt64.le_iff_toNat_le, Nat.toUInt64, UInt64.toNat_ofNat'] at hle
    rwa [Nat.mod_eq_of_lt (Nat.lt_of_le_of_lt h (by decide))] at hle

theorem data_windowFull {p : Bytes} (h : t.data p = .error .windowFull) :
    p ≠ [] ∧ p.length ≤ defaultStreamMaxFrame ∧ t.window < t.next - t.acked + len64 p := by
  unfold StreamSenderState.data at h
  split at h
  · cases h
  · rename_i hp
    rw [not_or, Nat.not_lt] at hp
    split at h
    · rename_i hw
      exact ⟨fun he => hp.1 (by rw [he]; rfl), hp.2, hw⟩
    · cases h

theorem CreditOk.sendsData {rest : Bytes} {available : UInt64} (h : CreditOk e) (hd : SendsData e rest available e')
    (hc : e.conn.sender.next.toNat + available.toNat ≤ grant e.lastAck) : CreditOk e' := by
  obtain ⟨p, hp, ⟨f, t, hok, rfl⟩ | ⟨err, herr, rfl⟩⟩ := hd
  · obtain ⟨_, hlen, _, hf, ht⟩ := data_ok hok
    have hle : p.length ≤ available.toNat := hp ▸ chunk_le (hp ▸ hlen)
    have hsmall := h.small
    have hnext : t.next.toNat = e.conn.sender.next.toNat + p.length := by
      rw [ht]
      show (e.conn.sender.next + len64 p).toNat = _
      rw [UInt64.toNat_add, toNat_len64 (by omega), Nat.mod_eq_of_lt (by omega)]
    refine ⟨?_, ?_, h.credit, h.small, h.prev, ?_, ?_, ?_, h.refused⟩
    · show t.acked = _
      rw [ht]
      exact h.acked
    · show 0 < e.lastAck.2 → t.window = _
      rw [ht]
      exact h.window
    · show t.acked ≤ t.next
      have := UInt64.le_iff_toNat_le.mp h.acked_le
      rw [UInt64.le_iff_toNat_le, hnext, ht]
      show e.conn.sender.acked.toNat ≤ _
      omega
    · show t.next.toNat ≤ grant e.lastAck
      omega
    · intro q hq
      rcases List.mem_append.mp hq with hq | hq
      · exact h.made q hq
      · rw [List.mem_singleton.mp hq, hf]
        show e.conn.sender.next.toNat + p.length ≤ e.credit
        rw [h.credit]
        omega
  · refine ⟨h.acked, h.window, h.credit, h.small, h.prev, h.acked_le, h.next_le, h.made, fun hm => ?_⟩
    rcases List.mem_append.mp hm with hm | hm
    · exact h.refused hm
    · -- `sender.Data` cannot find the window full: the credit ends where its window does
      rw [← List.mem_singleton.mp hm] at herr
      obtain ⟨hne, hlen, hfull⟩ := data_windowFull herr
      have hle : p.length ≤ available.toNat := hp ▸ chunk_le (hp ▸ hlen)
      have hpos := List.length_pos_iff.mpr hne
      have hsmall := h.small
      have hacked := h.acked_le
      have hgrant : grant e.lastAck = e.conn.sender.acked.toNat + e.lastAck.2.toNat := by rw [h.acked]; rfl
      have hle' := UInt64.le_iff_toNat_le.mp hacked
      have hwin : 0 < e.lastAck.2 := UInt64.lt_iff_toNat_lt.mpr (by show 0 < e.lastAck.2.toNat; omega)
      rw [h.window hwin, UInt64.lt_iff_toNat_lt, UInt64.toNat_add, UInt64.toNat_sub_of_le _ _ hacked,
        toNat_len64 (by omega), Nat.mod_eq_of_lt (by omega)] at hfull
      omega

/-- Other calls are not in `Write` while one sends. -/
theorem CreditPc.sendsData {rest : Bytes} {available : UInt64} (h : CreditPc e pc) (hd : SendsData e rest available e')
    (hfree : .writeMu ∉ pc.holds) : CreditPc e' pc := by
  have hsame : e'.lastAck = e.lastAck ∧ e'.prevAck = e.prevAck ∧ e'.conn.sendWin = e.conn.sendWin := by
    obtain ⟨p, _, ⟨f, t, _, rfl⟩ | ⟨err, _, rfl⟩⟩ := hd <;> exact ⟨rfl, rfl, rfl⟩
  obtain ⟨h1, h2, h3⟩ := hsame
  unfold CreditPc at h ⊢
  split at h
  · rw [h1, h2]; exact h
  · rw [h1, h2]; exact h
  · exact absurd List.mem_cons_self hfree
  · exact absurd List.mem_cons_self hfree
  · rw [h1, h2, h3]; exact h
  · rw [h1, h2, h3]; exact h
  · trivial

end

/-! ### One step -/

theorem SameCredit.refl (e : StreamEnd) : SameCredit e e := ⟨⟨rfl, rfl, rfl, rfl, rfl, rfl, rfl⟩, rfl⟩

theorem SameCredit.out (e : StreamEnd) (fs : List StreamFrame) : SameCredit e { e with out := fs } :=
  ⟨⟨rfl, rfl, rfl, rfl, rfl, rfl, rfl⟩, rfl⟩

theorem SameAcks.storeCredit (e : StreamEnd) (f : StreamFrame) :
    SameAcks e { e with conn := e.conn.storeCredit f } := by
  obtain ⟨_, _, _, hc⟩ := e.conn.storeCredit_eq f
  refine ⟨?_, ?_, ?_, ?_, rfl, rfl, rfl⟩ <;> simp only [hc]

/-- A `Resume` that succeeds was called with the offset that is acknowledged. -/
theorem SameCredit.resume {e : StreamEnd} {epoch acked : UInt64} {fs : List StreamFrame} {t : StreamSenderState}
    (hr : e.conn.sender.resume epoch acked = .ok (fs, t)) (hle : acked ≤ e.conn.sender.acked) :
    SameCredit e { e with conn.sender := t } := by
  obtain ⟨_, hge, _, _, ht⟩ := resume_ok hr
  refine ⟨⟨?_, ?_, ?_, rfl, rfl, rfl, rfl⟩, rfl⟩
  · show t.next = _
    rw [ht]
  · show t.acked = _
    rw [ht]
    exact UInt64.le_antisymm hle hge
  · show t.window = _
    rw [ht]

section

variable {s s' : Sys} {i : Nat} {how : Choice} {mv : Moves s s' i how} {e : StreamEnd} {n : Next Pc}
  {extra : List StreamFrame}

theorem Honest.grant_le {f : StreamFrame} {t : StreamSenderState} (mv : Moves s s' i how)
    (h : Honest mv.x.side s (.run i how) = true) (hpc : mv.x.pc = .handle (.dispatch f))
    (hk : f.kind = .frameAck ∨ f.kind = .frameOpenAck)
    (ha : (s.ends mv.x.side).conn.sender.acknowledge f.epoch (ackOffset f) f.window = .ok t) :
    grant (s.ends mv.x.side).lastAck ≤ grant (ackOffset f, f.window) ∧ grant (ackOffset f, f.window) < 2 ^ 64 := by
  simp only [Honest, mv.top, hpc, ha] at h
  rcases hk with hk | hk <;> simpa [hk] using h

theorem Settled.window_le {done rest : Bytes} {next acked : UInt64} (mv : Moves s s' i how)
    (h : Settled mv.x.side s (.run i how) = true) (hpc : mv.x.pc = .write (.credit done rest next acked)) {y : Act}
    (hy : y ∈ s.acts) (hside : y.side = mv.x.side) {f : StreamFrame} (hf : y.pc.storing = some f)
    (ho : ackOffset f = acked) : (s.ends mv.x.side).conn.sendWin ≤ f.window := by
  simp only [Settled, mv.top, hpc, Bool.not_eq_true', List.any_eq_false] at h
  have := h y hy
  simpa [hside, hf, ho] using this

/-- What `waitSendCredit` finds available is within the credit. -/
theorem available_le {done rest : Bytes} {next acked : UInt64} (mv : Moves s s' i how) (h : Credited mv.x.side s)
    (hsnap : Relies SnapOk mv.x.side s) (hset : Settled mv.x.side s (.run i how) = true)
    (hpc : mv.x.pc = .write (.credit done rest next acked)) (hlt : next - acked < (s.ends mv.x.side).conn.sendWin) :
    (s.ends mv.x.side).conn.sender.next.toNat + ((s.ends mv.x.side).conn.sendWin - (next - acked)).toNat ≤
      grant (s.ends mv.x.side).lastAck := by
  have hnext := hsnap mv.x mv.mem_self rfl next (by rw [hpc]; rfl)
  have hacked : acked = (s.ends mv.x.side).lastAck.1 ∨ acked ≤ (s.ends mv.x.side).prevAck.1 := by
    have := h.calls mv.x mv.mem_self rfl
    rwa [hpc] at this
  have hprev := h.ok.prev
  have hle : acked ≤ (s.ends mv.x.side).lastAck.1 := by
    rcases hacked with rfl | hle
    · exact UInt64.le_refl _
    · exact UInt64.le_trans hle hprev.1
  have hle' : acked ≤ next := by
    rw [hnext]
    exact UInt64.le_trans (h.ok.acked ▸ hle) h.ok.acked_le
  -- the sum is `acked + sendWin`; it is to be compared with the last acknowledgement
  have hsum : acked.toNat + (s.ends mv.x.side).conn.sendWin.toNat ≤ grant (s.ends mv.x.side).lastAck := by
    have hlast := UInt64.le_iff_toNat_le.mp hle
    rcases h.stored with ⟨y, hy, hside, hf⟩ | hwin
    · obtain ⟨f, hf⟩ := Option.isSome_iff_exists.mp hf
      obtain ⟨hl, hw⟩ := (h.calls y hy hside).storing hf
      rcases hacked with ha | ha
      · have hsw := Settled.window_le mv hset hpc hy hside hf (by rw [ha, hl])
        rw [UInt64.le_iff_toNat_le] at hsw
        rw [hl] at hlast ⊢
        exact Nat.add_le_add hlast hsw
      · rw [hw]
        rw [UInt64.le_iff_toNat_le] at ha
        exact Nat.le_trans (Nat.add_le_add_right ha _) hprev.2
    · rw [hwin]
      exact Nat.add_le_add_right hlast _
  have hused : (next - acked).toNat = next.toNat - acked.toNat := UInt64.toNat_sub_of_le _ _ hle'
  rw [UInt64.toNat_sub_of_le _ _ (UInt64.le_of_lt hlt), ← hnext, hused]
  rw [UInt64.lt_iff_toNat_lt, hused] at hlt
  rw [UInt64.le_iff_toNat_le] at hle'
  omega

/-- No window waits to be stored while another handler is behind `handleMu`. -/
theorem Moves.not_storing (mv : Moves s s' i how) (hx : Exclusive Act.holds s.acts) (hm : .handleMu ∈ mv.x.pc.holds)
    (hf : mv.x.pc.storing = none) : ¬s.storing mv.x.side := by
  rintro ⟨y, hy, hside, hst⟩
  have hholds : .handleMu ∈ y.pc.holds := by
    obtain ⟨f, hst⟩ := Option.isSome_iff_exists.mp hst
    cases hpc : y.pc with
    | handle pc =>
      rw [hpc] at hst
      cases pc <;> cases hst <;> exact List.mem_cons_self
    | _ => rw [hpc] at hst; cases hst
  rcases mv.mem_or hy with rfl | hy
  · rw [hf] at hst
    cases hst
  · exact mv.alone hx hy hside hm hholds

theorem Inner.credit_moved (hi : Inner mv e n extra) (hx : Exclusive Act.holds s.acts) (h : Credited mv.x.side s)
    (hsnap : Relies SnapOk mv.x.side s) (hset : Settled mv.x.side s (.run i how) = true) {pc : Pc} (hn : n.pc? = some pc) : CreditPc e pc := by
  cases pc with
  | write w =>
    have hat := pcStep_write_at hi.step hn
    cases w with
    | lockMu done rest next acked =>
      obtain ⟨_, ha, rfl⟩ := hat
      exact .inl (ha.trans h.ok.acked)
    | credit done rest next acked =>
      obtain ⟨hpc, rfl⟩ := hat
      have := h.calls mv.x mv.mem_self rfl
      rwa [hpc] at this
    | data done rest available =>
      obtain ⟨rfl, next, acked, hpc, _, hlt, rfl⟩ := hat
      exact available_le mv h hsnap hset hpc hlt
    | _ => trivial
  | resume r =>
    cases r with
    | resume epoch acked =>
      obtain ⟨ha, rfl⟩ := pcStep_resume_at hi.step hn
      exact UInt64.le_of_eq ha
    | _ => trivial
  | handle hd =>
    have hstoring : ∀ f, (Pc.handle hd).storing = some f →
        e.lastAck = (ackOffset f, f.window) ∧ e.conn.sendWin = e.prevAck.2 := by
      intro f hf
      rcases pcStep_storing_at hi.step hn hf with ⟨hpc, rfl⟩ | ⟨hpc, t, _, rfl⟩
      · exact (h.calls mv.x mv.mem_self rfl).storing hpc
      · have hwin := h.stored.resolve_left
          (mv.not_storing hx (by rw [hpc]; exact List.mem_cons_self) (by rw [hpc]; rfl))
        exact ⟨acknowledged_lastAck, hwin.trans (by rw [← acknowledged_prevAck (f := f) (t := t)]; rfl)⟩
    cases hd with
    | lockCredit f => exact hstoring f rfl
    | storeCredit f => exact hstoring f rfl
    | _ => trivial
  | _ => trivial

theorem Inner.credit_ok (hi : Inner mv e n extra) (h : Credited mv.x.side s)
    (hhon : Honest mv.x.side s (.run i how) = true) : CreditOk e := by
  have hpc := h.calls mv.x mv.mem_self rfl
  rcases hi.effect.credit with hs | ⟨_, _, _, hp, hd⟩ | ⟨_, _, _, _, hp, hr, rfl⟩ | ⟨f, t, hp, hk, ha, _, rfl⟩ | ⟨f, _, rfl⟩
  · exact h.ok.same hs.toSameAcks
  · rw [hp] at hpc
    exact h.ok.sendsData hd hpc
  · rw [hp] at hpc
    exact h.ok.same (SameCredit.resume hr hpc).toSameAcks
  · obtain ⟨hm, hb⟩ := Honest.grant_le mv hhon hp hk ha
    exact h.ok.acknowledged ha hm hb
  · exact h.ok.same (SameAcks.storeCredit _ f)

theorem Inner.credit_others (hi : Inner mv e n extra) (hx : Exclusive Act.holds s.acts) (h : Credited mv.x.side s)
    (hhon : Honest mv.x.side s (.run i how) = true) {y : Act} (hy : y ∈ mv.L ++ mv.R) (hside : y.side = mv.x.side) :
    CreditPc e y.pc := by
  have hpc := h.calls mv.x mv.mem_self rfl
  have hold := h.calls y (mv.mem_others hy) hside
  rcases hi.effect.credit with hs | ⟨_, _, _, hp, hd⟩ | ⟨_, _, _, _, hp, hr, rfl⟩ | ⟨f, t, hp, hk, ha, _, rfl⟩ | ⟨f, hp, rfl⟩
  · exact hold.same hs
  · exact hold.sendsData hd (mv.alone hx hy hside (by rw [hp]; exact List.mem_cons_self))
  · rw [hp] at hpc
    exact hold.same (SameCredit.resume hr hpc)
  · exact hold.acknowledged h.ok (mv.alone hx hy hside (by rw [hp]; exact List.mem_cons_self)) ha
      (Honest.grant_le mv hhon hp hk ha).1
  · exact hold.stored (SameAcks.storeCredit _ f) (mv.alone hx hy hside (by rw [hp]; exact List.mem_cons_self))

theorem Inner.credit_stored (hi : Inner mv e n extra) (h : Credited mv.x.side s) :
    s'.storing mv.x.side ∨ e.conn.sendWin = e.lastAck.2 := by
  by_cases hst : s.storing mv.x.side
  · refine (hi.storing_kept hst).imp_right fun ⟨_, f, hf, he⟩ => ?_
    obtain ⟨_, _, _, hc⟩ := (s.ends mv.x.side).conn.storeCredit_eq f
    rw [he, (SameAcks.storeCredit _ f).lastAck, ((h.calls mv.x mv.mem_self rfl).storing hf).1]
    simp only [hc]
  · have hwin := h.stored.resolve_left hst
    rcases hi.effect.credit with hs | ⟨_, _, _, _, hd⟩ | ⟨_, _, _, _, _, _, rfl⟩ | ⟨f, t, _, _, _, rfl, _⟩ | ⟨f, hp, _⟩
    · rw [hs.sendWin, hs.lastAck]
      exact .inr hwin
    · obtain ⟨p, _, ⟨f, t, _, rfl⟩ | ⟨err, _, rfl⟩⟩ := hd <;> exact .inr hwin
    · exact .inr hwin
    · exact .inl ⟨⟨_, .handle (.lockCredit f)⟩, hi.moved_acts rfl, rfl, rfl⟩
    · exact absurd ⟨mv.x, mv.mem_self, rfl, by rw [hp]; rfl⟩ hst

theorem Call.start_creditPc {c : Call} {pc : Pc} (h : c.start = some pc) (e : StreamEnd) : CreditPc e pc := by
  cases c <;> simp only [Call.start] at h <;> (try split at h) <;> cases h <;> trivial

theorem Calls.sameCredit {z : Side} {c : Call} (hc : Calls s s' z c) (x : Side) : SameCredit (s.ends x) (s'.ends x) := by
  by_cases hz : x = z
  · rw [hz, hc.own]
    cases c <;> exact ⟨⟨rfl, rfl, rfl, rfl, rfl, rfl, rfl⟩, rfl⟩
  · rw [Side.eq_peer_of_ne hz, hc.other]
    exact .refl _

theorem call_credited {x z : Side} {c : Call} (hc : Calls s s' z c) (h : Credited x s) : Credited x s' where
  ok := h.ok.same (hc.sameCredit x).toSameAcks
  calls := call_relies hc h.calls (fun _ hq => hq.same (hc.sameCredit x)) fun _ hpc => Call.start_creditPc hpc _
  stored := by
    rw [(hc.sameCredit x).sendWin, (hc.sameCredit x).lastAck]
    refine h.stored.imp_left ?_
    rintro ⟨y, hy, hst⟩
    exact ⟨y, by rw [hc.acts']; exact List.mem_append_left _ hy, hst⟩

theorem step_credited {x : Side} {m : Move} (hx : Exclusive Act.holds s.acts) (hsnap : Relies SnapOk x s)
    (h : Credited x s) (hhon : Honest x s m = true) (hset : Settled x s m = true) (hs : s.step m = some s') :
    Credited x s' := by
  rcases step_cases hs with ⟨z, c, _, hc⟩ | ⟨i, how, rfl, ⟨mv⟩⟩
  · exact call_credited hc h
  · obtain ⟨e, n, extra, hi⟩ := mv.inner
    by_cases hside : mv.x.side = x
    · subst hside
      have hown : s'.ends mv.x.side = { e with out := e.out ++ extra } := mv.own.trans hi.own
      refine ⟨?_, ?_, ?_⟩
      · rw [hown]
        exact (hi.credit_ok h hhon).same (SameCredit.out e _).toSameAcks
      · refine hi.relies (fun hne => absurd rfl hne) (fun _ => trivial) (fun _ pc hn => ?_) fun _ y hy hy' => ?_
        · rw [hown]
          exact (hi.credit_moved hx h hsnap hset hn).same (SameCredit.out e _)
        · rw [hown]
          exact (hi.credit_others hx h hhon hy hy').same (SameCredit.out e _)
      · rw [hown]
        exact hi.credit_stored h
    · have hother : s'.ends x = s.ends x := by
        rw [Side.eq_peer_of_ne (Ne.symm hside)]
        exact mv.other
      refine ⟨hother ▸ h.ok, ?_, ?_⟩
      · exact hi.relies (fun _ => h.calls) (fun _ => trivial) (fun he => absurd he hside) (fun he => absurd he hside)
      · rw [hother]
        refine h.stored.imp_left fun hst => ?_
        rcases hi.storing_kept hst with hst | ⟨he, _⟩
        · exact hst
        · exact absurd he hside

end

section

variable {id : StreamID} {window : Side → UInt64} {maxFrameSize : Side → Nat} {accepted : Side → Bool}

theorem new_credited (x : Side) : Credited x (Sys.new id window maxFrameSize accepted) where
  ok := by
    have hgrant : grant ((Sys.new id window maxFrameSize accepted).ends x).lastAck = (window x).toNat := Nat.zero_add _
    refine ⟨rfl, fun hpos => ?_, hgrant.symm, ?_, ?_, ?_, Nat.zero_le _, nofun, nofun⟩
    · have hne : window x ≠ 0 := fun h0 => by
        change 0 < window x at hpos
        rw [h0] at hpos
        exact absurd hpos (by decide)
      exact if_neg hne
    · rw [hgrant]
      exact (window x).toNat_lt
    · exact ⟨UInt64.le_refl _, Nat.le_refl _⟩
    · exact UInt64.le_refl _
  calls := fun _ h => absurd h List.not_mem_nil
  stored := .inr rfl

/-- In a run with an honest peer in which no `Write` of `x` compares a snapshot that counts an
    acknowledgement with the larger `sendWin` from before it, every data frame ends within the
    credit given when it was made, and `sender.Data` never finds the window full. -/
theorem credit_obeyed {x : Side} {s : Sys}
    (h : Reach Sys.step (fun s m => Honest x s m = true ∧ Settled x s m = true)
      (fun s => s = Sys.new id window maxFrameSize accepted) s) :
    (∀ p ∈ (s.ends x).hist.made, p.1.offset.toNat + p.1.payload.length ≤ p.2) ∧
      .windowFull ∉ (s.ends x).hist.refused := by
  have hnew : ∀ s, s = Sys.new id window maxFrameSize accepted → s.threads = [] := by
    rintro s rfl
    rfl
  have hc : Credited x s := by
    refine h.keeps (P := Credited x) ?_ ?_
    · rintro s rfl
      exact new_credited x
    · intro s m t hr ih hok hs
      exact step_credited (exclusive hnew hr) (snapshots hnew hr x) ih hok.1 hok.2 hs
  exact ⟨hc.ok.made, hc.ok.refused⟩

end

/-- `filledRun`, the Ack of window 2 handled, and the third byte written. -/
theorem credit_obeyed_acked : ∃ s : Sys, (s.ends .a).hist.made.length = 2 ∧
    (∀ p ∈ (s.ends .a).hist.made, p.1.offset.toNat + p.1.payload.length ≤ p.2) ∧
    .windowFull ∉ (s.ends .a).hist.refused := by
  have h : ((exec (guarded Sys.step fun s m => Honest .a s m = true ∧ Settled .a s m = true) (samplePair 2) (List.flatten
      [filledRun,
        [.call .a (.handleFrame { kind := .frameAck, id := sampleID, epoch := 1, offset := 2, window := 2 })],
        runs 3 6 .taken, [.call .a (.write [3])], runs 4 9 .taken])).any fun s =>
      (s.ends .a).hist.made.length = 2) = true := by
    decide +kernel
  obtain ⟨s, hs, hw⟩ := reach_any (I := fun s => s = samplePair 2) _ (.init rfl) h
  simp only [decide_eq_true_eq] at hw
  exact ⟨s, hw, credit_obeyed hs⟩

/-- The Ack of window 0 is between its two sections when the next `Write` of `a` takes its
    snapshot, compares and sends. -/
def unsettledRun : List Move := List.flatten
  [filledRun, [.call .a (.handleFrame { kind := .frameAck, id := sampleID, epoch := 1, offset := 2 })], runs 3 3 .taken,
    [.call .a (.write [3])], runs 4 5 .taken]

/-- The third byte is sent when the peer has given credit for two. -/
theorem credit_overrun : ∃ s, Reach Sys.step (fun s m => Network s m ∧ Honest .a s m = true) (fun s => s = samplePair 2) s ∧
    ∃ p ∈ (s.ends .a).hist.made, ¬p.1.offset.toNat + p.1.payload.length ≤ p.2 := by
  have h : ((exec (guarded Sys.step fun s m => Network s m ∧ Honest .a s m = true) (samplePair 2) unsettledRun).any fun s =>
      (s.ends .a).hist.made.any fun p => ¬p.1.offset.toNat + p.1.payload.length ≤ p.2) = true := by
    decide +kernel
  obtain ⟨s, hs, hw⟩ := reach_any (I := fun s => s = samplePair 2) _ (.init rfl) h
  obtain ⟨p, hp, hover⟩ := List.any_eq_true.mp hw
  exact ⟨s, hs, p, hp, of_decide_eq_true hover⟩

end Turntf.Stream
