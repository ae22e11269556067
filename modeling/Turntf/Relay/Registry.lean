/-
  Turntf.Relay.Registry — who owns a relay ID (`Connect`, `acceptIncoming`, `removeConnection`
  and `closeAll` in `relay.go`).

  A connection is registered in a section of its own, by `Connect` or by the handling of an
  OPEN, and taken out again by the rest of its closing: after the section that closed it, while
  packets, other connections and `closeAll` go on. `Connect` registers without looking, so what
  follows is about runs in which the ID it picks has no owner (`FreshIDs`).

  Proved (`registry_owned`):
  (1) Every connection that is not closed owns its relay ID.
  (2) An entry goes only with the closing of the connection it names (`ConnsEffect.keeps`): a
      closing that comes late finds its entry gone or its own.
  (3) The handler of `OnConnection` is started once for each accepted connection, and for no
      other (`Started`).
  (4) An OPEN for an ID that has an owner makes no connection, and is answered only when its
      user and both sessions are the owner's.
-/

import Turntf.Relay.Lifecycle

namespace Turntf.Relay

open Lts

/-- The ID that `Connect` picks has no owner. -/
def FreshIDs (r : RelayManager) : RelayAction → Prop
  | .connect _ _ relayID _ _ => r.conns.lookup relayID = none
  | _ => True

instance (r : RelayManager) : (a : RelayAction) → Decidable (FreshIDs r a)
  | .connect _ _ relayID _ _ => inferInstanceAs (Decidable (r.conns.lookup relayID = none))
  | .packet _ | .handle _ | .conn .. | .closeAll _ | .closeNext _ | .onConnection _ | .onOrphan _
  | .setIncomingConfig _ => .isTrue trivial

/-- The handlers to start for a connection that the action makes. -/
def RelayAction.handlers (r : RelayManager) : RelayAction → List Nat
  | .handle _ => r.onConn.toList
  | _ => []

/-! ## What a step does to the registry -/

inductive ConnsEffect (r : RelayManager) (a : RelayAction) (r' : RelayManager) : Prop
  | same (hconns : r'.conns = r.conns) (hlen : r'.made.length = r.made.length) (hacc : r'.accepted = r.accepted)
  | makes {m : Member} (hl : FreshIDs r a → r.conns.lookup m.conn.relayID = none)
      (hconns : r'.conns = r.conns.insert m.conn.relayID r.made.length) (hmade : r'.made = r.made ++ [m])
      (hacc : r'.accepted = r.accepted ++ (a.handlers r).map (·, r.made.length))
  | removes {k : Nat} {m : Member} {callbacks : List Nat} (ha : a = .conn k .notify) (hm : r.made[k]? = some m)
      (hn : m.conn.life.notice = .remove callbacks) (hconns : r'.conns = (r.removeConnection m.conn.relayID k).conns)
      (hlen : r'.made.length = r.made.length) (hacc : r'.accepted = r.accepted)

/-- A call that has found an owner found it in the registry. -/
def Looked (r r' : RelayManager) : Prop :=
  ∀ call ∈ r'.calls, call ∈ r.calls ∨ ∀ env k, call.pc = .duplicate env k → r.conns.lookup env.relayID = some k

section

variable {r r' : RelayManager} {a : RelayAction} {i k : Nat} {m : Member} {id : String} {pc : PacketPc}

theorem mem_goto {call : PacketCall} (h : call ∈ (r.goto i pc).calls) : call ∈ r.calls ∨ call.pc = pc := by
  cases hi : r.calls[i]? with
  | none =>
    have hsame : (r.goto i pc).calls = r.calls :=
      List.modify_eq_self (List.getElem?_eq_none_iff.mp hi)
    exact .inl (hsame ▸ h)
  | some old => exact (mem_modify hi h).imp_right fun h => by rw [h]

/-- The call goes on, in a manager with the same registry. -/
theorem Looked.goto {r₁ : RelayManager} (hcalls : r₁.calls = r.calls)
    (hd : ∀ env k, pc = .duplicate env k → r.conns.lookup env.relayID = some k) : Looked r (r₁.goto i pc) := by
  intro call hc
  rcases mem_goto hc with hc | hc
  · exact .inl (hcalls ▸ hc)
  · exact .inr (hc ▸ hd)

theorem onMember_registry {f : RelayConnection → Option RelayConnection} (h : r.onMember k f = some r') :
    r'.conns = r.conns ∧ r'.made.length = r.made.length ∧ r'.accepted = r.accepted ∧ r'.calls = r.calls := by
  obtain ⟨m, c', _, _, rfl⟩ := onMember_cases h
  exact ⟨rfl, List.length_set, rfl, rfl⟩

theorem releases_some {c : RelayConnection} {action : RelayConnection.Action}
    (h : RelayManager.releases c action = some id) :
    action = .notify ∧ id = c.relayID ∧ ∃ callbacks, c.life.notice = .remove callbacks := by
  unfold RelayManager.releases at h
  split at h
  · cases h
    exact ⟨rfl, rfl, _, ‹_›⟩
  · cases h

/-- A step of `handlePacket` that touches at most one connection. -/
theorem goto_registry {f : RelayConnection → Option RelayConnection} (h : (r.onMember k f).map (·.goto i pc) = some r')
    (hd : ∀ env k, pc ≠ .duplicate env k) : ConnsEffect r a r' ∧ Looked r r' := by
  obtain ⟨r₁, h₁, rfl⟩ := Option.map_eq_some_iff.mp h
  obtain ⟨hconns, hlen, hacc, hcalls⟩ := onMember_registry h₁
  exact ⟨.same hconns hlen hacc, .goto hcalls fun env k hpc => absurd hpc (hd env k)⟩

theorem acceptIncoming_registry {sender : UserRef} {env : RelayEnvelope} {cfg : RelayConfig} :
    ConnsEffect r (.handle i) (r.acceptIncoming i sender env cfg) ∧ Looked r (r.acceptIncoming i sender env cfg) := by
  unfold RelayManager.acceptIncoming
  cases hl : r.conns.lookup env.relayID with
  | some k =>
    refine ⟨.same rfl rfl rfl, .goto rfl fun env' k' hpc => ?_⟩
    cases hpc
    exact hl
  | none => exact ⟨.makes (fun _ => hl) rfl rfl rfl, .goto rfl fun _ _ => PacketPc.noConfusion⟩

theorem handleStep_registry (h : r.handleStep i = some r') : ConnsEffect r (.handle i) r' ∧ Looked r r' := by
  have hgoto {r₁ : RelayManager} {pc : PacketPc} (hconns : r₁.conns = r.conns) (hmade : r₁.made = r.made)
      (hacc : r₁.accepted = r.accepted) (hcalls : r₁.calls = r.calls) (hd : ∀ env k, pc ≠ .duplicate env k) :
      ConnsEffect r (.handle i) (r₁.goto i pc) ∧ Looked r (r₁.goto i pc) :=
    ⟨.same hconns (congrArg List.length hmade) hacc, .goto hcalls fun env k hpc => absurd hpc (hd env k)⟩
  unfold RelayManager.handleStep at h
  split at h
  · cases h
  rename_i p pc hcall
  cases pc with
  | start =>
    cases h
    unfold RelayManager.handlePacket
    split
    · exact hgoto rfl rfl rfl rfl fun _ _ => PacketPc.noConfusion
    split
    · exact hgoto rfl rfl rfl rfl fun _ _ => PacketPc.noConfusion
    split
    · exact hgoto rfl rfl rfl rfl fun _ _ => PacketPc.noConfusion
    split
    · exact hgoto rfl rfl rfl rfl fun _ _ => PacketPc.noConfusion
    · exact hgoto rfl rfl rfl rfl fun _ _ => PacketPc.noConfusion
  | accept env =>
    cases h
    exact hgoto rfl rfl rfl rfl fun _ _ => PacketPc.noConfusion
  | register env cfg =>
    cases h
    exact acceptIncoming_registry
  | duplicate env k =>
    simp only [RelayManager.answerDuplicate] at h
    split at h
    · cases h
    split at h
    · exact goto_registry h fun _ _ => PacketPc.noConfusion
    · cases h
      exact hgoto rfl rfl rfl rfl fun _ _ => PacketPc.noConfusion
  | enqueue env k => exact goto_registry h fun _ _ => PacketPc.noConfusion
  | enqueuing k =>
    obtain ⟨r₁, h₁, rfl⟩ := Option.map_eq_some_iff.mp h
    obtain ⟨hconns, hlen, hacc, hcalls⟩ := onMember_registry h₁
    unfold RelayManager.afterReader
    split <;> exact ⟨.same hconns hlen hacc, .goto hcalls fun _ _ => PacketPc.noConfusion⟩
  | returned handled => cases h

theorem connStep_registry {action : RelayConnection.Action} (h : r.connStep k action = some r') :
    ConnsEffect r (.conn k action) r' ∧ r'.calls = r.calls := by
  unfold RelayManager.connStep at h
  split at h
  · cases h
  obtain ⟨r₁, h₁, rfl⟩ := Option.map_eq_some_iff.mp h
  obtain ⟨hconns, hlen, hacc, hcalls⟩ := onMember_registry h₁
  split
  · rename_i relayID hrel
    obtain ⟨m, hm, hrel⟩ := Option.bind_eq_some_iff.mp hrel
    obtain ⟨rfl, rfl, callbacks, hn⟩ := releases_some hrel
    unfold RelayManager.removeConnection
    split
    · rename_i hk
      refine ⟨.removes rfl hm hn ?_ hlen hacc, hcalls⟩
      rw [hconns] at hk
      rw [RelayManager.removeConnection, if_pos hk, ← hconns]
    · exact ⟨.same hconns hlen hacc, hcalls⟩
  · exact ⟨.same hconns hlen hacc, hcalls⟩

theorem step_registry (h : r.step a = some r') : ConnsEffect r a r' ∧ Looked r r' := by
  cases a with
  | handle i => exact handleStep_registry h
  | packet p =>
    cases h
    refine ⟨.same rfl rfl rfl, fun call hc => ?_⟩
    rcases List.mem_append.mp hc with hc | hc
    · exact .inl hc
    · rw [List.mem_singleton.mp hc]
      exact .inr fun _ _ => PacketPc.noConfusion
  | connect target config relayID mySession targetSession =>
    cases h
    refine ⟨.makes (m := ⟨target, .new config relayID mySession targetSession true⟩) ?_ rfl rfl
      (List.append_nil _).symm, fun _ hc => .inl hc⟩
    exact fun hl => hl
  | conn k action =>
    obtain ⟨heff, hcalls⟩ := connStep_registry h
    exact ⟨heff, fun _ hc => .inl (hcalls ▸ hc)⟩
  | closeNext j =>
    simp only [RelayManager.step, RelayManager.closeNext] at h
    split at h
    · obtain ⟨r₁, h₁, rfl⟩ := Option.map_eq_some_iff.mp h
      obtain ⟨hconns, hlen, hacc, hcalls⟩ := onMember_registry h₁
      exact ⟨.same hconns hlen hacc, fun _ hc => .inl (hcalls ▸ hc)⟩
    · cases h
  | closeAll | onConnection | onOrphan | setIncomingConfig =>
    cases h
    exact ⟨.same rfl rfl rfl, fun _ hc => .inl hc⟩

/-! ## Entries -/

/-- An entry stays until the closing of the connection it names takes it out. -/
theorem ConnsEffect.keeps (h : ConnsEffect r a r') (hok : FreshIDs r a) (hl : r.conns.lookup id = some k) :
    r'.conns.lookup id = some k ∨ a = .conn k .notify ∧
      ∃ m callbacks, r.made[k]? = some m ∧ m.conn.relayID = id ∧ m.conn.life.notice = .remove callbacks := by
  cases h with
  | same hconns => exact .inl (hconns ▸ hl)
  | makes hnone hconns =>
    refine .inl ?_
    rw [hconns, AList.lookup_insert_ne, hl]
    rintro rfl
    cases (hnone hok).symm.trans hl
  | @removes k' m callbacks ha hm hn hconns =>
    rw [hconns, RelayManager.removeConnection]
    split
    · rename_i hown
      by_cases hid : id = m.conn.relayID
      · rw [hid] at hl
        cases hl.symm.trans hown
        exact .inr ⟨ha, m, callbacks, hm, hid.symm, hn⟩
      · exact .inl (by rw [AList.lookup_erase_ne hid, hl])
    · exact .inl hl

/-- A new entry names the connection that was made. -/
theorem ConnsEffect.source (h : ConnsEffect r a r') (hl : r'.conns.lookup id = some k) :
    r.conns.lookup id = some k ∨ ∃ m, r'.made[k]? = some m ∧ m.conn.relayID = id := by
  cases h with
  | same hconns => exact .inl (hconns ▸ hl)
  | @makes m _ hconns hmade =>
    rw [hconns] at hl
    by_cases hid : id = m.conn.relayID
    · rw [hid, AList.lookup_insert, Option.some.injEq] at hl
      exact .inr ⟨m, by rw [hmade, ← hl, List.getElem?_concat_length], hid.symm⟩
    · rw [AList.lookup_insert_ne hid] at hl
      exact .inl hl
  | @removes _ m _ _ _ _ hconns =>
    rw [hconns, RelayManager.removeConnection] at hl
    split at hl
    · by_cases hid : id = m.conn.relayID
      · rw [hid, AList.lookup_erase] at hl
        cases hl
      · rw [AList.lookup_erase_ne hid] at hl
        exact .inl hl
    · exact .inl hl

/-! ## Owners -/

theorem Moves.onward {made made' : List Member} {own : Nat → Prop} (h : Moves made own made')
    (hm : made[k]? = some m) :
    ∃ m', made'[k]? = some m' ∧ m'.conn.relayID = m.conn.relayID ∧ Onward m.conn.life m'.conn.life := by
  cases h with
  | none => exact ⟨m, hm, rfl, .refl _⟩
  | makes new _ => exact ⟨m, Slots.snoc_get hm, rfl, .refl _⟩
  | @moves k' old c' act hk hc _ =>
    rcases Slots.set_get k' { old with conn := c' } hm with ⟨rfl, hm'⟩ | ⟨-, hm'⟩
    · cases hk.symm.trans hm
      have heff := step_effect hc
      exact ⟨_, hm', heff.conn.relayID, heff.life.onward⟩
    · exact ⟨m, hm', rfl, .refl _⟩

structure Owned (r : RelayManager) : Prop where
  owns : ∀ k m, r.made[k]? = some m → m.conn.life.closed = false → r.conns.lookup m.conn.relayID = some k
  named : ∀ id k, r.conns.lookup id = some k → ∃ m, r.made[k]? = some m ∧ m.conn.relayID = id
  calls : ∀ call ∈ r.calls, ∀ env k, call.pc = .duplicate env k →
    ∃ m, r.made[k]? = some m ∧ m.conn.relayID = env.relayID

/-- A connection keeps its place and its relay ID. -/
theorem Moves.named {made made' : List Member} {own : Nat → Prop} (hmoves : Moves made own made')
    (hm : ∃ m, made[k]? = some m ∧ m.conn.relayID = id) : ∃ m, made'[k]? = some m ∧ m.conn.relayID = id := by
  obtain ⟨m, hm, hid⟩ := hm
  obtain ⟨m', hm', hid', _⟩ := hmoves.onward hm
  exact ⟨m', hm', hid'.trans hid⟩

/-- A connection that was there before and is not closed still owns its relay ID: only a closed
    one has its entry taken out. -/
theorem Owned.owns_step (h : Owned r) (hmoves : Moves r.made (fun _ => True) r'.made) (heff : ConnsEffect r a r')
    (hok : FreshIDs r a)
    (hclosed : ∀ m ∈ r.made, ∀ callbacks, m.conn.life.notice = .remove callbacks → m.conn.life.closed = true)
    (hk : r.made[k]? = some m) {m' : Member} (hk' : r'.made[k]? = some m') (ho : m'.conn.life.closed = false) :
    r'.conns.lookup m'.conn.relayID = some k := by
  obtain ⟨m₁, hm₁, hid, hon⟩ := hmoves.onward hk
  cases hk'.symm.trans hm₁
  have hopen : m.conn.life.closed = false := by
    by_contra hc
    have hc : m.conn.life.closed = true := by simpa using hc
    cases ho.symm.trans ((hon.closed hc).closed_eq.trans hc)
  rw [hid]
  rcases heff.keeps hok (h.owns k m hk hopen) with hl | ⟨_, m₂, callbacks, hm₂, _, hn⟩
  · exact hl
  · cases hk.symm.trans hm₂
    cases hopen.symm.trans (hclosed m (List.mem_of_getElem? hk) callbacks hn)

theorem Owned.step (h : Owned r) (hmoves : Moves r.made (fun _ => True) r'.made) (hok : FreshIDs r a)
    (hclosed : ∀ m ∈ r.made, ∀ callbacks, m.conn.life.notice = .remove callbacks → m.conn.life.closed = true)
    (hs : r.step a = some r') : Owned r' := by
  obtain ⟨heff, hlook⟩ := step_registry hs
  refine ⟨fun k m' hk' ho => ?_, fun id k hl => ?_, fun call hcall env k hpc => ?_⟩
  · by_cases hlt : k < r.made.length
    · exact h.owns_step hmoves heff hok hclosed (List.getElem?_eq_getElem hlt) hk' ho
    · -- the connection was made in this step
      obtain ⟨hlt', _⟩ := List.getElem?_eq_some_iff.mp hk'
      cases heff with
      | same _ hlen | removes _ _ _ _ hlen => omega
      | @makes m _ hconns hmade =>
        rw [hmade, List.length_append, List.length_singleton] at hlt'
        obtain rfl : k = r.made.length := by omega
        rw [hmade, List.getElem?_concat_length, Option.some.injEq] at hk'
        rw [hconns, ← hk', AList.lookup_insert]
  · rcases heff.source hl with hl | hm
    · exact hmoves.named (h.named id k hl)
    · exact hm
  · rcases hlook call hcall with hcall | hlook
    · exact hmoves.named (h.calls call hcall env k hpc)
    · exact hmoves.named (h.named _ k (hlook env k hpc))

theorem member_closed {ok : RelayManager → RelayAction → Prop}
    (h : Reach RelayManager.step ok RelayManager.Initial r) : ∀ m ∈ r.made, ∀ callbacks,
      m.conn.life.notice = .remove callbacks → m.conn.life.closed = true := by
  intro m hm callbacks hn
  obtain ⟨tr, htr⟩ := (member_reach h hm).trace
  exact (notifies htr).closed (by simp [hn])

theorem owned (h : Reach RelayManager.step FreshIDs RelayManager.Initial r) : Owned r := by
  refine h.keeps ?_ ?_
  · rintro r ⟨_, rfl⟩
    exact ⟨fun k m hk => absurd hk nofun, fun id k hl => absurd hl nofun, fun _ hc => absurd hc List.not_mem_nil⟩
  · intro r a r' hr ih hok hs
    exact ih.step (step_moves (manager_sound hr) hs) hok (member_closed hr) hs

/-! ## Handlers -/

/-- The handlers started so far: for each step that made a connection, those it had to start. -/
structure Started (tr : List (RelayManager × RelayAction)) (r : RelayManager) : Prop where
  bound : ∀ started ∈ r.accepted, started.2 < r.made.length
  once : ∀ st ∈ tr, ∀ s', st.1.step st.2 = some s' → st.1.made.length < s'.made.length →
    st.1.made.length < r.made.length ∧
    r.accepted.filter (·.2 = st.1.made.length) = (st.2.handlers st.1).map (·, st.1.made.length)

theorem Started.step {tr : List (RelayManager × RelayAction)} (h : Started tr r) (hs : r.step a = some r') :
    Started (tr ++ [(r, a)]) r' := by
  have hold : ∀ n, n < r.made.length → ∀ l : List Nat,
      (r.accepted ++ l.map (·, r.made.length)).filter (·.2 = n) = r.accepted.filter (·.2 = n) := by
    intro n hn l
    have : (l.map (·, r.made.length)).filter (·.2 = n) = [] := by
      simp only [List.filter_eq_nil_iff, List.mem_map, decide_eq_true_eq]
      rintro _ ⟨_, _, rfl⟩ he
      omega
    rw [List.filter_append, this, List.append_nil]
  cases (step_registry hs).1 with
  | same _ hlen hacc | removes _ _ _ _ hlen hacc =>
    refine ⟨by rw [hacc, hlen]; exact h.bound, fun st hst s' hs' hgrow => ?_⟩
    rw [hacc, hlen]
    rcases List.mem_append.mp hst with hst | hst
    · exact h.once st hst s' hs' hgrow
    · cases List.mem_singleton.mp hst
      cases hs.symm.trans hs'
      exact absurd hgrow (hlen ▸ Nat.lt_irrefl _)
  | makes _ _ hmade hacc =>
    have hlen : r'.made.length = r.made.length + 1 := by simp [hmade]
    refine ⟨fun started hst => ?_, fun st hst s' hs' hgrow => ?_⟩
    · rw [hacc] at hst
      rcases List.mem_append.mp hst with hst | hst
      · have := h.bound started hst
        omega
      · obtain ⟨_, _, rfl⟩ := List.mem_map.mp hst
        exact hlen ▸ Nat.lt_succ_self _
    rcases List.mem_append.mp hst with hst | hst
    · obtain ⟨hlt, hf⟩ := h.once st hst s' hs' hgrow
      exact ⟨by omega, by rw [hacc, hold _ hlt, hf]⟩
    · cases List.mem_singleton.mp hst
      refine ⟨hlen ▸ Nat.lt_succ_self _, ?_⟩
      -- nothing was started for a connection that was not made yet
      have hnone : r.accepted.filter (·.2 = r.made.length) = [] := by
        simp only [List.filter_eq_nil_iff, decide_eq_true_eq]
        intro started hst he
        have := h.bound started hst
        omega
      have hall : ∀ l : List Nat, (l.map (·, r.made.length)).filter (·.2 = r.made.length) = l.map (·, r.made.length) := by
        intro l
        simp [List.filter_eq_self]
      rw [hacc, List.filter_append, hnone, List.nil_append, hall]

theorem started {ok : RelayManager → RelayAction → Prop} {tr : List (RelayManager × RelayAction)}
    (h : Trace RelayManager.step ok RelayManager.Initial tr r) : Started tr r := by
  refine h.keeps ?_ fun tr s a t _ ih _ hs => ih.step hs
  rintro r ⟨_, rfl⟩
  exact ⟨fun _ hc => absurd hc List.not_mem_nil, fun _ hst => absurd hst List.not_mem_nil⟩

/-! ## An OPEN for an ID that has an owner -/

theorem open_owned {call : PacketCall} {env : RelayEnvelope} {cfg : RelayConfig} (hcall : r.calls[i]? = some call)
    (hpc : call.pc = .register env cfg) (hl : r.conns.lookup env.relayID = some k)
    (hs : r.step (.handle i) = some r') : r' = r.goto i (.duplicate env k) := by
  obtain ⟨p, pc⟩ := call
  obtain rfl : pc = .register env cfg := hpc
  simp only [RelayManager.step, RelayManager.handleStep, RelayManager.acceptIncoming, hcall, hl,
    Option.some.injEq] at hs
  exact hs.symm

theorem duplicate_answered {call : PacketCall} {env : RelayEnvelope} (hcall : r.calls[i]? = some call)
    (hpc : call.pc = .duplicate env k) (hm : r.made[k]? = some m) (hs : r.step (.handle i) = some r') :
    r'.made = r.made ∨
      m.remotePeer = call.packet.sender ∧ m.conn.life.remoteSession = env.senderSession ∧
      m.conn.mySession = env.targetSession ∧
      r'.made = r.made.set k { m with conn := m.conn.emit (m.conn.envelope .kindOpenAck) } := by
  obtain ⟨p, pc⟩ := call
  obtain rfl : pc = .duplicate env k := hpc
  simp only [RelayManager.step, RelayManager.handleStep, RelayManager.answerDuplicate, RelayManager.onMember, hcall,
    hm] at hs
  split at hs
  · rename_i hsame
    cases hs
    exact .inr ⟨hsame.1, hsame.2.1, hsame.2.2, rfl⟩
  · cases hs
    exact .inl rfl

/-- In every run in which `Connect` picks IDs that have no owner: a connection that is not closed
    owns its relay ID, and so no two of them share one; the entry of a connection is taken out
    by its own closing only; the handlers started for a connection are the one that was set when
    it was accepted, and none if it was not accepted; an OPEN for an ID that has an owner makes no
    connection and is answered with OPEN_ACK only if user and sessions are the owner's. -/
theorem registry_owned {tr : List (RelayManager × RelayAction)}
    (h : Trace RelayManager.step FreshIDs RelayManager.Initial tr r) :
    (∀ k m, r.made[k]? = some m → m.conn.life.state ≠ .stateClosed → r.conns.lookup m.conn.relayID = some k) ∧
    (∀ (k k' : Nat) (m m' : Member), r.made[k]? = some m → r.made[k']? = some m' →
      m.conn.life.state ≠ .stateClosed → m'.conn.life.state ≠ .stateClosed → m.conn.relayID = m'.conn.relayID →
      k = k') ∧
    (∀ a r' id k, FreshIDs r a → r.step a = some r' → r.conns.lookup id = some k → r'.conns.lookup id = some k ∨
      a = .conn k .notify ∧ ∃ m, r.made[k]? = some m ∧ m.conn.relayID = id ∧ m.conn.life.state = .stateClosed) ∧
    (∀ st ∈ tr, ∀ s', st.1.step st.2 = some s' → st.1.made.length < s'.made.length →
      r.accepted.filter (·.2 = st.1.made.length) = (st.2.handlers st.1).map (·, st.1.made.length)) ∧
    (∀ i call env cfg k r', r.calls[i]? = some call → call.pc = .register env cfg →
      r.conns.lookup env.relayID = some k → r.step (.handle i) = some r' → r' = r.goto i (.duplicate env k)) ∧
    ∀ i call env k r', r.calls[i]? = some call → call.pc = .duplicate env k → r.step (.handle i) = some r' →
      ∃ m, r.made[k]? = some m ∧ m.conn.relayID = env.relayID ∧ (r'.made = r.made ∨
        m.remotePeer = call.packet.sender ∧ m.conn.life.remoteSession = env.senderSession ∧
        m.conn.mySession = env.targetSession ∧
        r'.made = r.made.set k { m with conn := m.conn.emit (m.conn.envelope .kindOpenAck) }) := by
  have hown := owned h.reach
  have howns : ∀ k m, r.made[k]? = some m → m.conn.life.state ≠ .stateClosed →
      r.conns.lookup m.conn.relayID = some k :=
    fun k m hk ho => hown.owns k m hk (by simpa [Life.closed] using ho)
  refine ⟨howns, fun k k' m m' hk hk' ho ho' hid => ?_, fun a r' id k hok hs hl => ?_, fun st hst s' hs hgrow => ?_,
    fun i call env cfg k r' hcall hpc hl hs => open_owned hcall hpc hl hs, fun i call env k r' hcall hpc hs => ?_⟩
  · have hl := howns k m hk ho
    rw [hid, howns k' m' hk' ho', Option.some.injEq] at hl
    exact hl.symm
  · rcases (step_registry hs).1.keeps hok hl with hl | ⟨ha, m, callbacks, hm, hid, hn⟩
    · exact .inl hl
    · have hc := member_closed h.reach m (List.mem_of_getElem? hm) callbacks hn
      exact .inr ⟨ha, m, hm, hid, Life.closed_iff.mp hc⟩
  · exact ((started h).once st hst s' hs hgrow).2
  · obtain ⟨m, hm, hid⟩ := hown.calls call (List.mem_of_getElem? hcall) env k hpc
    exact ⟨m, hm, hid, duplicate_answered hcall hpc hm hs⟩

end

/-- The peer opens a connection and a stranger tries to; `closeAll` closes it, and the peer's next
    OPEN is not accepted before it is taken out of the registry. -/
def reopened : List RelayAction := List.flatten
  [[.onConnection 7], handles 0 samplePeer (sampleEnvelope .b .kindOpen 0 0 []) 3,
    handles 1 sampleStranger (sampleEnvelope .b .kindOpen 0 0 []) 4,
    [.closeAll .clientClosed, .closeNext 0], handles 2 samplePeer (sampleEnvelope .b .kindOpen 0 0 []) 4,
    [.conn 0 .notify], handles 3 samplePeer (sampleEnvelope .b .kindOpen 0 0 []) 3]

theorem registry_owned_reopened : ∃ tr r, Trace RelayManager.step FreshIDs RelayManager.Initial tr r ∧
    r.made.length = 2 ∧ r.accepted = [(7, 0), (7, 1)] ∧
    ∃ m, r.made[1]? = some m ∧ m.conn.life.state = .stateOpen ∧ r.conns.lookup m.conn.relayID = some 1 := by
  have h : (record (guarded RelayManager.step FreshIDs) [] (.new false) reopened).any (fun x =>
      x.2.made.length = 2 ∧ x.2.accepted = [(7, 0), (7, 1)] ∧
      x.2.made[1]?.any (fun m => m.conn.life.state = .stateOpen) = true) = true := by
    decide +kernel
  obtain ⟨tr, r, htr, hw⟩ := trace_any (I := RelayManager.Initial) _ ⟨false, rfl⟩ h
  simp only [Option.any_eq_true, decide_eq_true_eq] at hw
  obtain ⟨hlen, hacc, m, hm, ho⟩ := hw
  exact ⟨tr, r, htr, hlen, hacc, m, hm, ho, (registry_owned htr).1 1 m hm (by rw [ho]; nofun)⟩

end Turntf.Relay
