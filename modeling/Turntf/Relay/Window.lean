/-
  Turntf.Relay.Window — the sending side of a reliable connection.

  The payloads `sendLoop` numbers are a stream, `assigned`: its next number is `nextSeq`, and
  `unacked` holds exactly the numbers from `sendBase` on, each with its payload. Every DATA
  frame ever handed out carries a payload of the stream under its number. What the loop took
  from `sendCh` is the stream and the payload in its hands, which is dropped only when the
  connection is closed.

  - `Xmit.Window`: the invariant of the sending side, kept by every effect on it.
  - `Sending`: the same of a connection, with the envelopes it handed out.
  - `send_window`: whatever numbers are acknowledged, `unacked` is the window from `sendBase`
    to `nextSeq`, at most `WindowSize` wide, and both ends of it only advance.
  - `frames_sent`: with a network, whatever is on its way to be handled was handed out by
    the other end.
-/

import Turntf.Lib.Numbered
import Turntf.Relay.Steps

namespace Turntf.Relay

open Lts Ends Numbered

/-- `env` is a DATA frame of the stream `w`. -/
def Carries (w : List Bytes) (env : RelayEnvelope) : Prop := env.kind = .kindData ∧ At w env.seq env.payload

theorem Carries.mono {w v : List Bytes} {env : RelayEnvelope} (h : Carries w env) (hp : w <+: v) : Carries v env :=
  ⟨h.1, h.2.mono hp⟩

/-! ## The window -/

structure Xmit.Window (t : Xmit) : Prop where
  next : t.nextSeq = t.assigned.length + 1
  base : 1 ≤ t.sendBase ∧ t.sendBase ≤ t.nextSeq
  unacked : ∀ s d, t.unacked.lookup s = some d ↔ t.sendBase ≤ s ∧ At t.assigned s d
  acked : ∀ s, s ∈ t.acked ↔ 1 ≤ s ∧ s < t.sendBase
  carried : ∀ env ∈ t.carried, Carries t.assigned env
  took : t.loop.mode ≠ .ended → t.took = t.assigned ++ t.loop.pending
  prefixed : t.assigned <+: t.took

theorem lookup_eraseAll (gone : List Nat) (m : SeqMap) (s : Nat) :
    (gone.foldl (fun m seq => m.erase seq) m).lookup s = if s ∈ gone then none else m.lookup s := by
  induction gone generalizing m with
  | nil => simp
  | cons k gone ih =>
    rw [List.foldl_cons, ih]
    by_cases hs : s = k
    · subst hs
      simp [AList.lookup_erase]
    · simp [AList.lookup_erase_ne hs, hs]

namespace Xmit

variable {t : Xmit}

theorem Window.mem_keys (h : t.Window) {s : Nat} : s ∈ t.unacked.keys ↔ t.sendBase ≤ s ∧ s < t.nextSeq := by
  rw [← AList.mem_keys, ← AList.lookup_isSome, Option.isSome_iff_exists]
  constructor
  · rintro ⟨d, hd⟩
    obtain ⟨hb, hat⟩ := (h.unacked s d).mp hd
    have := hat.le_length
    have := h.next
    omega
  · rintro ⟨hb, hn⟩
    have := h.base
    have := h.next
    obtain ⟨d, hd⟩ := exists_at (w := t.assigned) (s := s) (by omega) (by omega)
    exact ⟨d, (h.unacked s d).mpr ⟨hb, hd⟩⟩

theorem Window.handleAck (h : t.Window) (reliability : Reliability) (env : RelayEnvelope) :
    (t.handleAck reliability env).Window := by
  unfold Xmit.handleAck
  split
  · exact h
  · split
    · rename_i hack
      have hgone : ∀ s, s ∈ t.unacked.keys.filter (· ≤ env.ackSeq) ↔ t.sendBase ≤ s ∧ s ≤ env.ackSeq := by
        intro s
        rw [List.mem_filter, h.mem_keys, decide_eq_true_eq]
        omega
      refine ⟨h.next, ⟨Nat.le_add_left 1 _, hack.2⟩, ?_, ?_, h.carried, h.took, h.prefixed⟩ <;> dsimp only
      · intro s d
        rw [lookup_eraseAll]
        split <;> rename_i hs
        · rw [hgone] at hs
          exact iff_of_false nofun fun hn => by omega
        · rw [hgone] at hs
          rw [h.unacked]
          exact and_congr_left fun _ => by omega
      · intro s
        have hb := h.base
        rw [List.mem_append, h.acked, hgone]
        omega
    · exact h

theorem Window.sendCh (h : t.Window) (items : List SendItem) (barriers : Nat) :
    { t with sendCh := items, barriers := barriers }.Window :=
  ⟨h.next, h.base, h.unacked, h.acked, h.carried, h.took, h.prefixed⟩

/-- The loop goes on without a frame in its hands. -/
theorem Window.loopAt (h : t.Window) {pc : LoopPc} (hf : pc.frames = []) (ht : pc.mode ≠ .ended → t.took = t.assigned ++ pc.pending) :
    { t with loop := pc }.Window := by
  refine ⟨h.next, h.base, h.unacked, h.acked, fun env he => ?_, ht, h.prefixed⟩
  rcases mem_carried.mp he with he | he
  · rw [show ({ t with loop := pc } : Xmit).loop.frames = [] from hf] at he
    cases he
  · exact h.carried env (mem_carried.mpr (.inr he))

theorem Window.receive (h : t.Window) (hl : t.loop = .select) (item : SendItem) : (t.receive item).Window := by
  have ht : t.took = t.assigned := by
    have := h.took (by rw [hl]; nofun)
    rwa [hl, show LoopPc.select.pending = [] from rfl, List.append_nil] at this
  cases item with
  | data data =>
    have hw : { t with loop := .select }.Window := h.loopAt rfl (by rw [ht]; simp [LoopPc.pending])
    refine ⟨h.next, h.base, h.unacked, h.acked, hw.carried, fun _ => ?_, h.prefixed.trans (List.prefix_append _ _)⟩
    show t.took ++ [data] = t.assigned ++ [data]
    rw [ht]
  | barrier id => exact h.loopAt rfl fun _ => by rw [ht]; simp [LoopPc.pending]
  | marker => exact h.loopAt rfl fun _ => by rw [ht]; simp [LoopPc.pending]

theorem Window.push (h : t.Window) {t' : Xmit} {cap : Nat} {item : SendItem} (hp : t.push cap item = some t') :
    t'.Window := by
  unfold Xmit.push at hp
  split at hp
  · cases hp
    exact h.sendCh _ t.barriers
  · split at hp
    · split at hp <;> rename_i hl <;> cases hp
      exact h.receive hl item
    · cases hp

theorem Window.assign (h : t.Window) {data : Bytes} {env : RelayEnvelope} (hl : t.loop = .data data)
    (he : Carries (t.assigned ++ [data]) env) : { t.assign data with loop := .acquire env }.Window := by
  have hn := h.next
  have hb := h.base
  have ht := h.took (by rw [hl]; nofun)
  rw [hl] at ht
  have hmono : t.assigned <+: t.assigned ++ [data] := List.prefix_append _ _
  have hbase : (t.assign data).sendBase = t.sendBase := if_neg (by omega)
  refine ⟨?_, ?_, ?_, ?_, ?_, ?_, ?_⟩
  · simp [Xmit.assign, hn]
  · show 1 ≤ (t.assign data).sendBase ∧ (t.assign data).sendBase ≤ t.nextSeq + 1
    rw [hbase]
    omega
  · intro s d
    show (t.unacked.insert t.nextSeq data).lookup s = some d ↔ (t.assign data).sendBase ≤ s ∧ At (t.assigned ++ [data]) s d
    rw [hbase, at_snoc]
    by_cases hs : s = t.nextSeq
    · subst hs
      rw [AList.lookup_insert, Option.some_inj]
      constructor
      · rintro rfl
        exact ⟨hb.2, .inr ⟨hn, rfl⟩⟩
      · rintro ⟨_, hat | ⟨_, rfl⟩⟩
        · have := hat.le_length
          omega
        · rfl
    · rw [AList.lookup_insert_ne hs, h.unacked]
      exact and_congr_right fun _ => ⟨.inl, fun hat => hat.resolve_right fun hat => by omega⟩
  · show ∀ s, s ∈ t.acked ↔ 1 ≤ s ∧ s < (t.assign data).sendBase
    rw [hbase]
    exact h.acked
  · intro e hm
    rcases mem_carried.mp hm with hm | hm
    · rw [List.mem_singleton.mp hm]
      exact he
    · exact (h.carried e (mem_carried.mpr (.inr hm))).mono hmono
  · intro _
    show t.took = (t.assigned ++ [data]) ++ []
    rw [ht, List.append_nil]
    rfl
  · show t.assigned ++ [data] <+: t.took
    rw [ht]
    exact List.prefix_refl _

end Xmit

section

variable {c c' : RelayConnection}

theorem Xmit.Window.retransmitted (h : c.xmit.Window) : ∀ env ∈ c.retransmitFrames, Carries c.xmit.assigned env := by
  intro env he
  obtain ⟨s, _, hs⟩ := List.mem_filterMap.mp he
  obtain ⟨d, hd, rfl⟩ := Option.map_eq_some_iff.mp hs
  exact ⟨rfl, ((h.unacked s d).mp hd).2⟩

theorem XmitEffect.window {t : Xmit} (he : XmitEffect c t) (hr : c.reliable = true) (h : c.xmit.Window) : t.Window := by
  cases he with
  | still core pending mode carried =>
    refine ⟨?_, ?_, ?_, ?_, ?_, ?_, ?_⟩
    · rw [core.nextSeq, core.assigned, h.next]
    · rw [core.sendBase, core.nextSeq]
      exact h.base
    · rw [core.unacked, core.sendBase, core.assigned]
      exact h.unacked
    · rw [core.acked, core.sendBase]
      exact h.acked
    · rw [core.assigned]
      exact fun env he => (carried env he).elim (h.carried env) (h.retransmitted env)
    · rw [core.took, core.assigned, pending, mode]
      exact h.took
    · rw [core.assigned, core.took]
      exact h.prefixed
  | @ack env => exact h.handleAck _ env
  | push barriers hp =>
    have := h.push hp
    exact this.sendCh _ barriers
  | @receive item items hl => exact (h.sendCh items c.xmit.barriers).receive hl item
  | flush hl =>
    have ht := h.took (by rw [hl]; nofun)
    rw [hl] at ht
    have hw : { c.xmit with loop := .select }.Window := h.loopAt rfl fun _ => ht
    exact ⟨hw.next, hw.base, hw.unacked, hw.acked, hw.carried, hw.took, hw.prefixed⟩
  | @assign data hl =>
    exact h.assign hl ⟨rfl, at_snoc.mpr (.inr ⟨h.next, rfl⟩)⟩
  | exit => exact h.loopAt rfl fun hm => absurd rfl hm
  | plain _ hr' =>
    rw [hr] at hr'
    cases hr'

/-- The stream only grows. -/
theorem XmitEffect.assigned {t : Xmit} (he : XmitEffect c t) : c.xmit.assigned <+: t.assigned := by
  have hreceive : ∀ (u : Xmit) (item : SendItem), (u.receive item).assigned = u.assigned := by
    intro u item
    cases item <;> rfl
  cases he with
  | still core => rw [core.assigned]
  | ack =>
    unfold Xmit.handleAck
    (repeat' split) <;> exact List.prefix_refl _
  | @push item t _ hp =>
    show c.xmit.assigned <+: t.assigned
    unfold Xmit.push at hp
    (repeat' split at hp) <;> cases hp
    · exact List.prefix_refl _
    · rw [hreceive]
  | receive => rw [hreceive]
  | assign => exact List.prefix_append _ _
  | _ => exact List.prefix_refl _

/-! ## A reliable connection -/

structure Sending (c : RelayConnection) : Prop where
  reliable : c.reliable = true
  window : c.xmit.Window
  held : ∀ env ∈ c.acks.held, env.kind = .kindAck
  out : ∀ env ∈ c.out, env.kind = .kindData → At c.xmit.assigned env.seq env.payload

theorem Sending.new {config : RelayConfig} (hr : config.reliability ≠ .bestEffort) (relayID : String)
    (my remote : SessionRef) (dialed : Bool) : Sending (.new config relayID my remote dialed) := by
  refine ⟨decide_eq_true hr, ⟨rfl, ⟨Nat.le_refl 1, Nat.le_refl 1⟩, ?_, ?_, List.forall_mem_nil _, fun _ => rfl, List.prefix_refl _⟩,
    List.forall_mem_nil _, ?_⟩
  · intro s d
    refine iff_of_false nofun fun h => ?_
    have := h.2.le_length
    have := h.2.1
    simp only [RelayConnection.new, List.length_nil] at *
    omega
  · intro s
    refine iff_of_false nofun fun h => ?_
    simp only [RelayConnection.new] at h
    omega
  · intro env he hk
    rw [List.mem_singleton.mp he] at hk
    cases dialed <;> cases hk

theorem Sending.step (h : Sending c) {a : RelayConnection.Action} (hs : StepEffect c a c') : Sending c' := by
  have hmono := hs.xmit.assigned
  refine ⟨?_, hs.xmit.window h.reliable h.window, ?_, ?_⟩
  · have := h.reliable
    rwa [RelayConnection.reliable, hs.conn.config]
  · intro env he
    rcases hs.held env he with he | ⟨n, _, rfl⟩
    · exact h.held env he
    · rfl
  · intro env he hk
    obtain ⟨extra, ho, hx⟩ := hs.out
    rw [ho, List.mem_append] at he
    rcases he with he | he
    · exact (h.out env he hk).mono hmono
    · cases hx env he with
      | data hc => exact (h.window.carried env hc).2.mono hmono
      | plain hr =>
        rw [h.reliable] at hr
        cases hr
      | ack ha =>
        rw [h.held env ha] at hk
        cases hk
      | close | openAck | error => cases hk

/-- The sending side of either end of a reliable pair. -/
theorem sending {config : Side → RelayConfig} {relayID : String} {session : Side → SessionRef}
    {ok : Pair → PairAction → Prop} (hr : ∀ x, (config x).reliability ≠ .bestEffort) {p : Pair}
    (h : Reach Pair.step ok (· = Pair.new config relayID session) p) (x : Side) : Sending (p x) := by
  refine Reach.ends_keep (P := fun _ c => Sending c) ?_ ?_ h x
  · rintro p rfl x
    exact Sending.new (hr x) _ _ _ _
  · intro p x a c _ hp _ hs
    exact hp.step (step_effect hs)

/-! ## The width of the window -/

theorem uint64_le {x : Int} (h : 0 ≤ x) : (uint64 x : Int) ≤ x := by
  unfold uint64
  omega

theorem Xmit.receive_seqs (t : Xmit) (item : SendItem) :
    (t.receive item).sendBase = t.sendBase ∧ (t.receive item).nextSeq = t.nextSeq := by
  cases item <;> exact ⟨rfl, rfl⟩

theorem Xmit.push_seqs {t t' : Xmit} {cap : Nat} {item : SendItem} (h : t.push cap item = some t') :
    t'.sendBase = t.sendBase ∧ t'.nextSeq = t.nextSeq := by
  unfold Xmit.push at h
  (repeat' split at h) <;> cases h
  · exact ⟨rfl, rfl⟩
  · exact t.receive_seqs item

/-- Both ends of the window only advance, and a step that widens it found room for one more. -/
theorem XmitEffect.advances {t : Xmit} (he : XmitEffect c t) : c.xmit.sendBase ≤ t.sendBase ∧ c.xmit.nextSeq ≤ t.nextSeq ∧
    (t.nextSeq - t.sendBase ≤ c.xmit.nextSeq - c.xmit.sendBase ∨ t.nextSeq - t.sendBase ≤ uint64 c.config.windowSize) := by
  have hsame : t.sendBase = c.xmit.sendBase ∧ t.nextSeq = c.xmit.nextSeq → c.xmit.sendBase ≤ t.sendBase ∧
      c.xmit.nextSeq ≤ t.nextSeq ∧ (t.nextSeq - t.sendBase ≤ c.xmit.nextSeq - c.xmit.sendBase ∨
        t.nextSeq - t.sendBase ≤ uint64 c.config.windowSize) := by
    rintro ⟨hb, hn⟩
    omega
  cases he with
  | still core => exact hsame ⟨core.sendBase, core.nextSeq⟩
  | ack =>
    unfold Xmit.handleAck
    split
    · simp
    · split
      · dsimp only
        omega
      · simp
  | push _ hp => exact hsame ⟨(Xmit.push_seqs hp).1, (Xmit.push_seqs hp).2⟩
  | receive => exact hsame (Xmit.receive_seqs _ _)
  | assign _ _ hw =>
    simp only [Xmit.assign]
    split <;> omega
  | flush | exit | plain => exact hsame ⟨rfl, rfl⟩

/-- The sending side of a reliable connection in any surroundings. -/
theorem sending_alone {config : RelayConfig} {relayID : String} {my remote : SessionRef} {dialed : Bool}
    {ok : RelayConnection → RelayConnection.Action → Prop} (hr : config.reliability ≠ .bestEffort)
    (h : Reach RelayConnection.step ok (· = .new config relayID my remote dialed) c) :
    Sending c ∧ c.xmit.nextSeq - c.xmit.sendBase ≤ uint64 config.windowSize ∧ c.config = config := by
  refine h.keeps (P := fun c => Sending c ∧ c.xmit.nextSeq - c.xmit.sendBase ≤ uint64 config.windowSize ∧ c.config = config)
    ?_ ?_
  · intro c hc
    subst hc
    exact ⟨.new hr _ _ _ _, Nat.zero_le _, rfl⟩
  · intro c a c' _ ⟨hs, hw, hcfg⟩ _ ht
    have he := step_effect ht
    have hadv := he.xmit.advances
    rw [hcfg] at hadv
    exact ⟨hs.step he, by omega, he.conn.config.trans hcfg⟩

theorem steps_advance (h : Steps RelayConnection.step c c') :
    c.xmit.sendBase ≤ c'.xmit.sendBase ∧ c.xmit.nextSeq ≤ c'.xmit.nextSeq := by
  induction h with
  | refl => exact ⟨Nat.le_refl _, Nat.le_refl _⟩
  | tail a _ ht ih =>
    have hadv := (step_effect ht).xmit.advances
    omega

/-- Whatever `AckSeq` values arrive, and however the retry rounds interleave: `unacked` has exactly
    the numbers from `sendBase` to before `nextSeq`, at most `WindowSize` of them, each with the
    payload taken from `sendCh` under that number, which is also the payload of every DATA frame
    handed out under it; and neither end of the window ever goes back. -/
theorem send_window {config : RelayConfig} {relayID : String} {my remote : SessionRef} {dialed : Bool}
    (hr : config.reliability ≠ .bestEffort) (hw : 1 ≤ config.windowSize)
    (h : Reach RelayConnection.step free (· = .new config relayID my remote dialed) c) :
    (∀ s, s ∈ c.xmit.unacked.keys ↔ c.xmit.sendBase ≤ s ∧ s < c.xmit.nextSeq) ∧
      (c.xmit.nextSeq - c.xmit.sendBase : Int) ≤ config.windowSize ∧
      (∀ s d, c.xmit.unacked.lookup s = some d → At c.xmit.took s d) ∧
      (∀ env ∈ c.out, env.kind = .kindData → At c.xmit.took env.seq env.payload) ∧
      ∀ c', Steps RelayConnection.step c c' → c.xmit.sendBase ≤ c'.xmit.sendBase ∧ c.xmit.nextSeq ≤ c'.xmit.nextSeq := by
  obtain ⟨hs, hwidth, -⟩ := sending_alone hr h
  have hmono := hs.window.prefixed
  refine ⟨fun s => hs.window.mem_keys, ?_, fun s d hd => ?_, fun env he hk => ?_, fun c' => steps_advance⟩
  · have := uint64_le (show 0 ≤ config.windowSize by omega)
    have := hs.window.base
    omega
  · exact ((hs.window.unacked s d).mp hd).2.mono hmono
  · exact (hs.out env he hk).mono hmono

/-- Three payloads in a window of two: the third waits. An ACK of the future number 9 changes
    nothing, and one of number 1 lets it through. -/
theorem send_window_two : ∃ c : RelayConnection, c.xmit.sendBase = 2 ∧ c.xmit.nextSeq = 4 ∧ c.xmit.unacked.keys = [3, 2] ∧
    (∀ s, s ∈ c.xmit.unacked.keys ↔ c.xmit.sendBase ≤ s ∧ s < c.xmit.nextSeq) := by
  let config := { defaultRelayConfig with reliability := .reliableOrdered, windowSize := 2 }
  let start : RelayConnection := .new config "r" (sampleSession .b) (sampleSession .a) false
  let get (n : Nat) : List RelayConnection.Action := [.packet (sampleEnvelope .a .kindAck 0 n []), .reader]
  let send (i : Nat) (data : Bytes) : List RelayConnection.Action := (sends .b i data).map Prod.snd
  have h : ((exec (guarded RelayConnection.step free) start (List.flatten
      [[.loop .go], send 0 [10], send 1 [20], (send 2 [30]).take 6, get 9, get 1, [.loop .ack, .loop .go]])).any fun c =>
        c.xmit.sendBase = 2 ∧ c.xmit.nextSeq = 4 ∧ c.xmit.unacked.keys = [3, 2]) = true := by
    decide +kernel
  obtain ⟨c, hc, hw⟩ := reach_any (I := fun c => c = start) _ (.init rfl) h
  simp only [decide_eq_true_eq] at hw
  exact ⟨c, hw.1, hw.2.1, hw.2.2, (send_window (by decide) (by decide) hc).1⟩

end

/-! ## The network -/

/-- What is on its way to be handled was handed out by the other end. -/
theorem frames_sent {I : Pair → Prop} (h0 : ∀ p, I p → ∀ x, (p x).recv.frames = []) {p : Pair}
    (h : Reach Pair.step Network I p) (x : Side) : ∀ env ∈ (p x).recv.frames, env ∈ (p x.peer).out := by
  refine h.keeps (P := fun p => ∀ x, ∀ env ∈ (p x).recv.frames, env ∈ (p x.peer).out) ?_ ?_ x
  · intro p hi x
    rw [h0 p hi x]
    exact List.forall_mem_nil _
  · intro p m q _ hp hok hq y env he
    obtain ⟨hown, hother⟩ := stepAt_cases hq
    have heff := step_effect hown
    by_cases hy : y = m.1
    · subst hy
      rw [hother _ (Side.peer_ne _)]
      rcases heff.frames env he with he | hpk
      · exact hp m.1 env he
      · exact hok env hpk
    · obtain rfl := Side.eq_peer_of_ne hy
      rw [hother _ hy] at he
      have hin := hp _ env he
      rw [Side.peer_peer] at hin ⊢
      obtain ⟨extra, ho, _⟩ := heff.out
      rw [ho]
      exact List.mem_append_left _ hin

end Turntf.Relay
