/-
  Turntf.Client.Pending — no RPC outlives its transport (`registerPending`,
  `rpcOnTransport`, `resolvePending`, `failAllPending` of `client.go`).

  An RPC is in `pending` before it captures a transport, and a transport that is torn down is
  cleared before `failAllPending` runs. So whoever handed a frame to it, or is about to, was
  in the table then, or had left it (`Pendings.settled`). A result goes to the channel that
  the table has under the request ID of the response (`Pendings.got`).

  - `rpc_settled`: the three parts together, in every reachable state.
-/

import Turntf.Client.Generations

namespace Turntf.Client

open Lts

/-- An RPC of this request ID that has registered and not unregistered. -/
def Call.Waits (id : Nat) (call : Call) : Prop := call.requestID = id ∧ call.isRpc ∧ call.pc.listed call.kind

/-- An RPC that was on a transport whose `failAllPending` has finished has a result, or has
    left the table. -/
def Settled (c : Client) (call : Call) : Prop :=
  call.isRpc → ∀ g, call.conn = some g → g ∈ c.failed → call.got ≠ [] ∨ c.pending.lookup call.requestID = none

/-- What was put into the channel of a call. -/
structure Call.Answered (call : Call) : Prop where
  got : ∀ r ∈ call.got, (∃ res, r = .response call.requestID res) ∨ ∃ err, r = .failure err
  fresh : call.pc = .nextID → call.got = []
  full : call.resultCh ≠ none → call.got ≠ []

structure Pendings (c : Client) : Prop where
  table : ∀ id ch, c.pending.lookup id = some ch → At c.calls ch (·.Waits id)
  delivers : ∀ ch r, c.run.delivers = some (ch, r) →
    At c.calls ch fun call => call.pc ≠ .nextID ∧ ∃ res, r = .response call.requestID res
  answered : ∀ call ∈ c.calls, call.Answered
  settled : ∀ call ∈ c.calls, Settled c call
  handed : ∀ i g, (i, g) ∈ c.handed → At c.calls i (·.conn = some g)

section

variable {c c' : Client} {i : Nat} {call call' : Call} {r : RequestResult}

/-! ## Offers -/

theorem offer_got_ne_nil (h : call.got ≠ []) : (call.offer r).got ≠ [] := by
  rcases offer_cases call r with he | ⟨_, he⟩
  · rwa [he]
  · simp [he]

theorem Call.Answered.offer (h : call.Answered) (hpc : call.pc ≠ .nextID)
    (hr : (∃ res, r = .response call.requestID res) ∨ ∃ err, r = .failure err) : (call.offer r).Answered := by
  rcases offer_cases call r with he | ⟨_, he⟩
  · rwa [he]
  · rw [he]
    refine ⟨fun r' hr' => ?_, fun hp => absurd hp hpc, fun _ => by simp⟩
    rcases List.mem_append.mp hr' with hr' | hr'
    · exact h.got r' hr'
    · rwa [List.mem_singleton.mp hr']

/-- Every call in the table has a result when `failAllPending` is done. -/
theorem offerAll_got {calls : List Call} {ch : Nat} (entries : List (Sigma fun _ : Nat => Nat))
    (hcall : At calls ch fun call => call.resultCh ≠ none → call.got ≠ []) (hmem : ∃ e ∈ entries, e.2 = ch) :
    At (offerAll entries r calls) ch (·.got ≠ []) := by
  induction entries generalizing calls with
  | nil => simp at hmem
  | cons e entries ih =>
    have hfull : At (calls.modify e.2 (·.offer r)) ch fun call => call.resultCh ≠ none → call.got ≠ [] := by
      refine hcall.modify fun call hc hne => ?_
      rcases offer_cases call r with he | ⟨_, he⟩
      · rw [he] at hne ⊢
        exact hc hne
      · simp [he]
    by_cases he : e.2 = ch
    · refine At.offerAll ?_ (fun _ => offer_got_ne_nil) entries
      obtain ⟨call, hcall, hfull⟩ := hcall
      refine ⟨call.offer r, by simp [he, hcall], ?_⟩
      unfold Call.offer
      split
      · simp
      · rename_i hch
        exact hfull (by simp [hch])
    · refine ih hfull ?_
      obtain ⟨e', he', hch⟩ := hmem
      rcases List.mem_cons.mp he' with rfl | he'
      · exact absurd hch he
      · exact ⟨e', he', hch⟩

theorem answered_offerAll {err : Err} {calls : List Call} (entries : List (Sigma fun _ : Nat => Nat))
    (hpc : ∀ e ∈ entries, At calls e.2 (·.pc ≠ .nextID)) (h : ∀ call ∈ calls, call.Answered) :
    ∀ call ∈ offerAll entries (.failure err) calls, call.Answered := by
  unfold offerAll
  induction entries generalizing calls with
  | nil => exact h
  | cons e entries ih =>
    apply ih
    · intro e' he'
      exact (hpc e' (List.mem_cons_of_mem _ he')).modify fun call hc => by rwa [offer_pc]
    · apply forall_modify h
      intro call hcall hans
      obtain ⟨x, hx, hne⟩ := hpc e List.mem_cons_self
      cases hcall.symm.trans hx
      exact hans.offer hne (.inr ⟨err, rfl⟩)

/-- After `failAllPending` each call has a result or is not in the table. -/
theorem failAll_settles (hs : Sound c) (hp : Pendings c) :
    ∀ call ∈ offerAll c.pending.entries r c.calls, call.got ≠ [] ∨ c.pending.lookup call.requestID = none := by
  intro call hc
  cases hl : c.pending.lookup call.requestID with
  | none => exact .inr rfl
  | some ch =>
    obtain ⟨old, hold, hid, hrpc, hlisted⟩ := hp.table _ _ hl
    have hmem : ∃ e ∈ c.pending.entries, e.2 = ch := ⟨⟨call.requestID, ch⟩, AList.mem_lookup_iff.mp hl, rfl⟩
    obtain ⟨new, hnew, hgot⟩ := offerAll_got (r := r) c.pending.entries
      ⟨old, hold, (hp.answered old (List.mem_of_getElem? hold)).full⟩ hmem
    -- the call that was offered to is this one, by its request ID
    obtain ⟨j, hj⟩ := List.mem_iff_getElem?.mp hc
    have hids : (offerAll c.pending.entries r c.calls).map (·.requestID) = c.ids := map_offerAll (fun _ _ => offer_requestID) _
    have hjid : c.ids[j]? = some call.requestID := by rw [← hids, List.getElem?_map, hj]; rfl
    have hchid : c.ids[ch]? = some call.requestID := by rw [ids, List.getElem?_map, hold, Option.map_some, hid]
    have hpos : 0 < call.requestID := hid ▸ (hs.calls old (List.mem_of_getElem? hold)).listed hlisted
    have hsame := hs.unique j ch _ hjid hchid hpos
    rw [hsame] at hj
    cases hj.symm.trans hnew
    exact .inl hgot

/-! ## Steps of the calls -/

theorem isRpc_iff : call.isRpc ↔ ∃ ping, call.kind = .rpc ping := by
  unfold Call.isRpc
  cases call.kind <;> simp

/-- The call at `i` goes on, the tables and `run` as they are. -/
theorem Pendings.set (hp : Pendings c) (hcalls : c'.calls = c.calls.set i call') (hcall : c.calls[i]? = some call)
    (hpending : c'.pending = c.pending) (hrun : c'.run = c.run) (hfailed : c'.failed = c.failed)
    (hid : call'.requestID = call.requestID) (hkind : call'.kind = call.kind) (hgot : call'.got = call.got)
    (hch : call'.resultCh = call.resultCh ∨ call'.resultCh = none)
    (hlisted : call.isRpc → call.pc.listed call.kind → call'.pc.listed call.kind)
    (hfresh : call'.pc = .nextID → call.pc = .nextID) (hconn : Settled c call')
    (hhanded : ∀ j g, (j, g) ∈ c'.handed → At c'.calls j (·.conn = some g)) : Pendings c' := by
  have hans := hp.answered call (List.mem_of_getElem? hcall)
  have hrpc : call'.isRpc = call.isRpc := by simp only [Call.isRpc, hkind]
  refine ⟨?_, ?_, ?_, ?_, hhanded⟩
  · rw [hpending, hcalls]
    intro id ch hl
    refine (hp.table id ch hl).set hcall fun hw => ⟨hid.trans hw.1, hrpc.trans hw.2.1, ?_⟩
    rw [hkind]
    exact hlisted hw.2.1 hw.2.2
  · rw [hrun, hcalls]
    intro ch r hd
    refine (hp.delivers ch r hd).set hcall ?_
    rintro ⟨hpc, hr⟩
    exact ⟨fun h => hpc (hfresh h), hid.symm ▸ hr⟩
  · rw [hcalls]
    refine forall_set hp.answered ⟨?_, ?_, ?_⟩
    · rw [hgot, hid]
      exact hans.got
    · rw [hgot]
      exact fun h => hans.fresh (hfresh h)
    · rw [hgot]
      rcases hch with hch | hch
      · rw [hch]
        exact hans.full
      · exact fun h => absurd hch h
  · have hsame : ∀ call, Settled c call → Settled c' call := by
      unfold Settled
      rw [hfailed, hpending]
      exact fun _ h => h
    rw [hcalls]
    exact forall_set (fun x hx => hsame x (hp.settled x hx)) (hsame call' hconn)

theorem Settled.of_eq (h : Settled c call) (hkind : call'.kind = call.kind) (hid : call'.requestID = call.requestID)
    (hconn : call'.conn = call.conn) (hgot : call'.got = call.got) : Settled c call' := by
  unfold Settled Call.isRpc at *
  rw [hkind, hid, hconn, hgot]
  exact h

/-- Leaving the table settles no less. -/
theorem Settled.erase (h : Settled c call) (id : Nat) : Settled { c with pending := c.pending.erase id } call := by
  intro hrpc g hg hfailed
  refine (h hrpc g hg hfailed).imp_right fun hnone => ?_
  by_cases hid : call.requestID = id
  · rw [hid]
    exact AList.lookup_erase _ _
  · exact (AList.lookup_erase_ne hid).trans hnone

theorem CallEffect.pendings (hs : Sound c) (hp : Pendings c) (hcall : c.calls[i]? = some call)
    (h : CallEffect c i call c') : Pendings c' := by
  have hmem := List.mem_of_getElem? hcall
  have hold := hs.calls call hmem
  have hsettled := hp.settled call hmem
  have hhanded (call' : Call) (hconn : call'.conn = call.conn) (j g : Nat) (hj : (j, g) ∈ c.handed) :
      At (c.calls.set i call') j (·.conn = some g) := (hp.handed j g hj).set hcall fun h => hconn.trans h
  cases h with
  | moves pc' ctx' ch hgoes hch =>
    exact hp.set rfl hcall rfl rfl rfl rfl rfl rfl hch (fun _ hl => hgoes.listed.trans hl) hgoes.fresh
      (hsettled.of_eq rfl rfl rfl rfl) (hhanded _ rfl)
  | numbers pc' hpc hl hplaced hf hsends =>
    have hgot := (hp.answered call hmem).fresh hpc
    have hconn : call.conn = none := hold.early (by rw [hpc]; rfl)
    refine ⟨fun id ch hid => ?_, fun ch r hd => ?_, ?_, ?_, hhanded _ rfl⟩
    · refine (hp.table id ch hid).set hcall fun hw => ?_
      exact absurd hw.2.2 (by rw [hpc]; cases call.kind <;> simp [CallPc.listed])
    · exact (hp.delivers ch r hd).set hcall fun h => absurd hpc h.1
    · refine forall_set hp.answered ⟨?_, fun h => absurd h hf, (hp.answered call hmem).full⟩
      rw [hgot]
      simp
    · refine forall_set hp.settled fun _ g hg => ?_
      rw [hconn] at hg
      cases hg
  | registersRpc ping hk hpc =>
    have hlt := (List.getElem?_eq_some_iff.mp hcall).1
    have hconn : call.conn = none := hold.early (by rw [hpc]; rfl)
    have hpos : 0 < call.requestID := hold.numbered (by simp [hk]) (by rw [hpc]; rfl)
    refine ⟨fun id ch hl => ?_, fun ch r hd => ?_, ?_, ?_, hhanded _ rfl⟩
    · have hl : (c.pending.insert call.requestID i).lookup id = some ch := hl
      by_cases hid : id = call.requestID
      · rw [hid, AList.lookup_insert, Option.some.injEq] at hl
        subst hl
        exact ⟨_, List.getElem?_set_self hlt, hid.symm, by simp [Call.isRpc, hk], by rw [hk]; rfl⟩
      · rw [AList.lookup_insert_ne hid] at hl
        exact (hp.table id ch hl).set hcall fun hw => absurd hw.1.symm hid
    · exact (hp.delivers ch r hd).set hcall fun h => ⟨CallPc.noConfusion, h.2⟩
    · have hans := hp.answered call hmem
      exact forall_set hp.answered ⟨hans.got, CallPc.noConfusion, hans.full⟩
    · refine forall_set (fun x hx hrpc g hg hfailed => ?_) fun _ g hg => ?_
      · -- another call has another request ID
        have hne : x.requestID ≠ call.requestID := by
          intro hid
          obtain ⟨j, hj⟩ := List.mem_iff_getElem?.mp hx
          have hji := hs.same hcall hj hid.symm hpos
          subst hji
          cases hcall.symm.trans hj
          rw [hconn] at hg
          cases hg
        have hlook : (c.pending.insert call.requestID i).lookup x.requestID = c.pending.lookup x.requestID :=
          AList.lookup_insert_ne hne
        exact (hp.settled x hx hrpc g hg hfailed).imp_right hlook.trans
      · have hg : call.conn = some g := hg
        rw [hconn] at hg
        cases hg
  | registersTracked metadata hk hpc hlimit =>
    refine hp.set rfl hcall rfl rfl rfl rfl rfl rfl (.inl rfl) ?_ CallPc.noConfusion (hsettled.of_eq rfl rfl rfl rfl) (hhanded _ rfl)
    simp [Call.isRpc, hk]
  | captures g hpc hconn =>
    refine hp.set rfl hcall rfl rfl rfl rfl rfl rfl (.inl rfl) ?_ CallPc.noConfusion ?_ ?_
    · intro hrpc _
      obtain ⟨ping, hk⟩ := isRpc_iff.mp hrpc
      rw [hk]
      rfl
    · intro _ g' hg' hfailed
      cases hg'
      exact absurd hfailed (hs.generations.captured hconn).1
    · intro j g' hj
      refine (hp.handed j g' hj).set hcall fun h => ?_
      rw [hold.early (by rw [hpc]; rfl)] at h
      cases h
  | hands hpc =>
    refine hp.set rfl hcall rfl rfl rfl rfl rfl rfl (.inl rfl) ?_ CallPc.noConfusion (hsettled.of_eq rfl rfl rfl rfl) ?_
    · intro hrpc _
      obtain ⟨ping, hk⟩ := isRpc_iff.mp hrpc
      rw [hk]
      rfl
    · intro j g hj
      rcases List.mem_append.mp hj with hj | hj
      · exact hhanded { call with pc := .write } rfl j g hj
      · obtain ⟨g', hg', he⟩ := List.mem_map.mp hj
        cases he
        exact ⟨_, List.getElem?_set_self (List.getElem?_eq_some_iff.mp hcall).1, Option.mem_toList.mp hg'⟩
  | invalidates g pc' hgoes =>
    apply invalidateTransport_cases (P := fun d => Pendings (d.setCall i { call with pc := pc' }))
    · exact hp.set rfl hcall rfl rfl rfl rfl rfl rfl (.inl rfl) (fun _ hl => hgoes.listed.trans hl) hgoes.fresh
        (hsettled.of_eq rfl rfl rfl rfl) (hhanded _ rfl)
    · exact hp.set rfl hcall rfl rfl rfl rfl rfl rfl (.inl rfl) (fun _ hl => hgoes.listed.trans hl) hgoes.fresh
        (hsettled.of_eq rfl rfl rfl rfl) (hhanded _ rfl)
  | takesBack metadata err hk hpc =>
    refine hp.set rfl hcall rfl rfl rfl rfl rfl rfl (.inl rfl) ?_ CallPc.noConfusion (hsettled.of_eq rfl rfl rfl rfl) (hhanded _ rfl)
    simp [Call.isRpc, hk]
  | unregisters ping res pc' hk hpc hl he hsends =>
    have hans := hp.answered call hmem
    have hpc' : pc' ≠ .nextID := fun h => by simp [h, CallPc.early] at he
    refine ⟨fun id ch hlook => ?_, fun ch r hd => ?_, ?_, ?_, hhanded _ rfl⟩
    · have hlook : (c.pending.erase call.requestID).lookup id = some ch := hlook
      by_cases hid : id = call.requestID
      · rw [hid, AList.lookup_erase] at hlook
        cases hlook
      · rw [AList.lookup_erase_ne hid] at hlook
        exact (hp.table id ch hlook).set hcall fun hw => absurd hw.1.symm hid
    · exact (hp.delivers ch r hd).set hcall fun h => ⟨hpc', h.2⟩
    · exact forall_set hp.answered ⟨hans.got, fun h => absurd h hpc', hans.full⟩
    · exact forall_set (fun x hx => (hp.settled x hx).erase _) ((hsettled.of_eq rfl rfl rfl rfl).erase _)

/-! ## Steps of `run` -/

/-- `run` goes on and puts nothing into a channel. -/
theorem Pendings.goes (hp : Pendings c) (hcalls : c'.calls = c.calls) (hpending : c'.pending = c.pending)
    (hfailed : c'.failed = c.failed) (hhanded : c'.handed = c.handed)
    (hd : ∀ ch r, c'.run.delivers = some (ch, r) →
      At c.calls ch fun call => call.pc ≠ .nextID ∧ ∃ res, r = .response call.requestID res) : Pendings c' := by
  refine ⟨?_, ?_, ?_, ?_, ?_⟩
  · rw [hpending, hcalls]
    exact hp.table
  · rw [hcalls]
    exact hd
  · rw [hcalls]
    exact hp.answered
  · unfold Settled
    rw [hcalls, hfailed, hpending]
    exact hp.settled
  · rw [hhanded, hcalls]
    exact hp.handed

/-- The results of `failAllPending` are in the channels. -/
theorem Pendings.failAll {err : Err} (hs : Sound c) (hp : Pendings c)
    (hcalls : c'.calls = offerAll c.pending.entries (.failure err) c.calls) (hpending : c'.pending = c.pending)
    (hhanded : c'.handed = c.handed) (hd : c'.run.delivers = none) : Pendings c' := by
  refine ⟨?_, ?_, ?_, ?_, ?_⟩
  · rw [hpending, hcalls]
    intro id ch hl
    refine (hp.table id ch hl).offerAll (fun call hw => ⟨?_, ?_, ?_⟩) _
    · simpa using hw.1
    · simpa [Call.isRpc] using hw.2.1
    · simpa using hw.2.2
  · rw [hd]
    nofun
  · rw [hcalls]
    -- the calls in the table are past `nextID`
    refine answered_offerAll _ (fun e he => ?_) hp.answered
    refine (hp.table e.1 e.2 (AList.mem_lookup_iff.mpr he)).imp fun call _ hw hpc => ?_
    have hnumbered := (CallPc.listed_numbered hw.2.2).2
    rw [hpc] at hnumbered
    cases hnumbered
  · intro call hc _ _ _ _
    rw [hcalls] at hc
    rw [hpending]
    exact failAll_settles hs hp call hc
  · rw [hhanded, hcalls]
    intro i g h
    exact (hp.handed i g h).offerAll (fun call hc => by simpa using hc) _

theorem RunEffect.pendings (hs : Sound c) (hp : Pendings c) (h : RunEffect c c') : Pendings c' := by
  -- the positions that deliver nothing
  have hnone {pc' : RunPc} (hd : pc'.delivers = none) (ch : Nat) (r : RequestResult) (h : pc'.delivers = some (ch, r)) :
      At c.calls ch fun call => call.pc ≠ .nextID ∧ ∃ res, r = .response call.requestID res :=
    absurd (hd.symm.trans h) nofun
  cases h with
  | idles pc' stop first delay slept hserves ht ht' hq hq' hd => exact hp.goes rfl rfl rfl rfl (hnone hd)
  | logsIn info hpc => exact hp.goes rfl rfl rfl rfl (hnone rfl)
  | resolves g requestID ch res orElse hpc hl =>
    refine hp.goes rfl rfl rfl rfl fun ch' r hd => ?_
    cases hd
    refine (hp.table requestID ch hl).imp fun call _ hw => ⟨fun hpc => ?_, res, by rw [hw.1]⟩
    have hnumbered := (CallPc.listed_numbered hw.2.2).2
    rw [hpc] at hnumbered
    cases hnumbered
  | delivers g ch r hpc =>
    have hto := hp.delivers ch r (by rw [hpc]; rfl)
    refine ⟨fun id ch' hl => ?_, nofun, ?_, ?_, fun i g' h => ?_⟩
    · refine (hp.table id ch' hl).modify fun call hw => ⟨?_, ?_, ?_⟩
      · simpa using hw.1
      · simpa [Call.isRpc] using hw.2.1
      · simpa using hw.2.2
    · apply forall_modify hp.answered
      intro call hcall hans
      obtain ⟨x, hx, hne, hr⟩ := hto
      cases hcall.symm.trans hx
      exact hans.offer hne (.inl hr)
    · apply forall_modify hp.settled
      intro call _ hset hrpc g' hg' hfailed
      rw [offer_conn] at hg'
      rw [offer_requestID]
      exact (hset (by simpa [Call.isRpc] using hrpc) g' hg' hfailed).imp_left offer_got_ne_nil
    · exact (hp.handed i g' h).modify fun call hc => by simpa using hc
  | completes g requestID metadata err hpc hl => exact hp.goes rfl rfl rfl rfl (hnone rfl)
  | reports result pc' hserves ht hq hd =>
    unfold notifyStreamSend
    split
    · exact hp.goes rfl rfl rfl rfl (hnone hd)
    · exact hp.goes rfl rfl rfl rfl (hnone hd)
  | clears g err hpc => exact hp.goes rfl rfl rfl rfl (hnone rfl)
  | failsPending g err hpc => exact hp.failAll hs rfl rfl rfl rfl
  | failsStreams g err hpc => exact hp.goes rfl rfl rfl rfl (hnone rfl)
  | tornDown g err hpc => exact hp.goes rfl rfl rfl rfl (hnone rfl)
  | failsLast err hpc => exact hp.failAll hs rfl rfl rfl rfl

/-! ## Every step -/

theorem StepEffect.pendings {a : Action} (hs : Sound c) (hp : Pendings c) (h : StepEffect c a c') : Pendings c' := by
  cases h with
  | call i how call hcall heff => exact heff.pendings hs hp hcall
  | leaves i deadline call err hcall => exact (leaves_effect hs.placed hcall err).pendings hs hp hcall
  | starts request kind pc hplaced hl hn hsends =>
    refine ⟨fun id ch h => (hp.table id ch h).append, fun ch r h => (hp.delivers ch r h).append, ?_, ?_,
      fun i g h => (hp.handed i g h).append⟩
    · exact forall_append hp.answered ⟨fun r hr => absurd hr List.not_mem_nil, fun _ => rfl, fun h => absurd rfl h⟩
    · exact forall_append hp.settled fun _ g hg => by cases hg
  | cleans i call hcall =>
    refine ⟨fun id ch h => ?_, hp.delivers, hp.answered, fun x hx => (hp.settled x hx).erase _, hp.handed⟩
    have h : (c.pending.erase call.requestID).lookup id = some ch := h
    by_cases hid : id = call.requestID
    · rw [hid, AList.lookup_erase] at h
      cases h
    · rw [AList.lookup_erase_ne hid] at h
      exact hp.table id ch h
  | connects hpc heff => exact heff.pendings hs hp
  | run how heff => exact heff.pendings hs hp
  | closer j closer hj heff =>
    cases heff with
    | idles | closes | takes => exact hp.goes rfl rfl rfl rfl hp.delivers
    | reports result results hpc =>
      unfold notifyStreamSend
      split
      · exact hp.goes rfl rfl rfl rfl hp.delivers
      · exact hp.goes rfl rfl rfl rfl hp.delivers
  | connected => exact hp
  | startsClose => exact hp.goes rfl rfl rfl rfl hp.delivers

end

section

variable {ok : Client → Action → Prop} {c : Client}

theorem new_pendings (cfg : Config) : Pendings (.new cfg) :=
  ⟨nofun, nofun, fun _ h => absurd h List.not_mem_nil, fun _ h => absurd h List.not_mem_nil,
    fun _ _ h => absurd h List.not_mem_nil⟩

theorem pendings (h : Reach step ok Initial c) : Pendings c := by
  refine h.keeps ?_ fun c a c' hr hp _ h => (step_effect (sound hr).placed h).pendings (sound hr) hp
  rintro c ⟨cfg, rfl⟩
  exact new_pendings cfg

/-- Once `failAllPending` of a transport has finished, every RPC whose frame was handed to it
    has a result or has left the table; a channel gets responses of its own request ID and
    failures only; and the table is empty when every RPC has returned. -/
theorem rpc_settled (h : Reach step free Initial c) :
    (∀ i g call, (i, g) ∈ c.handed → g ∈ c.failed → c.calls[i]? = some call → call.isRpc →
      call.got ≠ [] ∨ c.pending.lookup call.requestID = none) ∧
    (∀ call ∈ c.calls, ∀ r ∈ call.got, (∃ res, r = .response call.requestID res) ∨ ∃ err, r = .failure err) ∧
    ((∀ call ∈ c.calls, call.isRpc → ∃ res, call.pc = .returned res) → c.pending = ∅) := by
  have hp := pendings h
  refine ⟨?_, fun call hc => (hp.answered call hc).got, fun hret => ?_⟩
  · intro i g call hhanded hfailed hcall hrpc
    obtain ⟨x, hx, hconn⟩ := hp.handed i g hhanded
    cases hcall.symm.trans hx
    exact hp.settled call (List.mem_of_getElem? hcall) hrpc g hconn hfailed
  · apply AList.ext
    cases hentries : c.pending.entries with
    | nil => rfl
    | cons e entries =>
      have hl : c.pending.lookup e.1 = some e.2 := AList.mem_lookup_iff.mpr (by rw [hentries]; exact List.mem_cons_self)
      obtain ⟨call, hcall, _, hrpc, hlisted⟩ := hp.table e.1 e.2 hl
      obtain ⟨res, hpc⟩ := hret call (List.mem_of_getElem? hcall) hrpc
      obtain ⟨ping, hk⟩ := isRpc_iff.mp hrpc
      rw [hpc, hk] at hlisted
      cases hlisted

end

/-- An RPC that waits for its response when the transport is lost. -/
theorem rpc_settled_lost : ∃ (c : Client) (call : Call), (0, 0) ∈ c.handed ∧ 0 ∈ c.failed ∧ c.calls[0]? = some call ∧
    call.isRpc ∧ (call.got ≠ [] ∨ c.pending.lookup call.requestID = none) := by
  have h : ((exec (guarded step free) (.new sampleConfig) (List.flatten [[.connect], logsIn, [.call (.rpc false)], runs 0 7,
      [.step 0 (.result none)], disconnects 2])).any fun c =>
        c.calls[0]?.any fun call => (0, 0) ∈ c.handed ∧ 0 ∈ c.failed ∧ call.isRpc) = true := by
    decide +kernel
  obtain ⟨c, hr, hw⟩ := reach_any (I := Initial) _ (.init ⟨sampleConfig, rfl⟩) h
  simp only [Option.any_eq_true, decide_eq_true_eq] at hw
  obtain ⟨call, hcall, hhanded, hfailed, hrpc⟩ := hw
  exact ⟨c, call, hhanded, hfailed, hcall, hrpc, (rpc_settled hr).1 0 0 call hhanded hfailed hcall hrpc⟩

end Turntf.Client
