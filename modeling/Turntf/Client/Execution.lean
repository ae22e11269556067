/-
  Turntf.Client.Execution — an RPC is executed at most once, and one that succeeds exactly once.

  A client that reconnects goes on with the calls it has, and a server may execute a request whose
  response is lost with the transport. `Service` is a client with such a server: the server executes
  a frame that was handed to a transport once, if it gets it, and answers with the request ID of the
  frame and the result of the execution, as often and as late as it likes.

  A call hands its frame over on its way from `context` to `write`, and no step takes it back there:
  a lost transport fails the call, it is never sent again. Responses find their call by its request
  ID, which no other call of the client has on any transport.

  - `Advances`: what a step of a call does to its frame and its result.
  - `rpc_executed_once`: no call is executed twice, and an RPC that returned a response was executed,
    with this result.
-/

import Turntf.Client.Pending

namespace Turntf.Client

open Lts

/-! ## The system -/

/-- The request ID and the result, of an envelope that answers an RPC. -/
def ServerEnvelope.answer? : ServerEnvelope → Option (Nat × Except Err Bytes)
  | .response requestID res => some (requestID, res)
  | .error code message requestID =>
    if requestID = 0 then none else some (requestID, .error (.server code message requestID))
  | .streamFrameResult _ | .other => none

structure Service where
  client : Client
  /-- The frames that the server has executed, by their place in `handed`, and the results. -/
  executed : List (Nat × Except Err Bytes)

inductive ServiceAction where
  | client (a : Action)
  | execute (k : Nat) (res : Except Err Bytes)

def ServiceAction.answer? : ServiceAction → Option (Nat × Except Err Bytes)
  | .client (.serve (.receive env)) => env.answer?
  | _ => none

namespace Service

def step (s : Service) : ServiceAction → Option Service
  | .client a => (s.client.step a).map fun c => { s with client := c }
  | .execute k res =>
    if k < s.client.handed.length ∧ k ∉ s.executed.map Prod.fst then some { s with executed := s.executed ++ [(k, res)] }
    else none

/-- A frame of this request ID was executed with this result. -/
def Executed (s : Service) (id : Nat) (res : Except Err Bytes) : Prop :=
  ∃ e ∈ s.executed, e.2 = res ∧ ∃ h ∈ s.client.handed[e.1]?, ∃ call ∈ s.client.calls[h.1]?, call.requestID = id

instance (s : Service) (id : Nat) (res : Except Err Bytes) : Decidable (s.Executed id res) :=
  inferInstanceAs (Decidable (∃ e ∈ s.executed, e.2 = res ∧ ∃ h ∈ s.client.handed[e.1]?, ∃ call ∈ s.client.calls[h.1]?,
    call.requestID = id))

/-- Answers are those of executions. -/
def Answering (s : Service) (a : ServiceAction) : Prop := ∀ p ∈ a.answer?, s.Executed p.1 p.2

instance (s : Service) (a : ServiceAction) : Decidable (s.Answering a) :=
  inferInstanceAs (Decidable (∀ p ∈ a.answer?, s.Executed p.1 p.2))

/-- The results of the executions of a call. -/
def executions (s : Service) (i : Nat) : List (Except Err Bytes) :=
  s.executed.filterMap fun e => if (s.client.handed[e.1]?).map Prod.fst = some i then some e.2 else none

def Initial (s : Service) : Prop := Client.Initial s.client ∧ s.executed = []

end Service

/-! ## Steps of the calls -/

/-- The call has yet to hand its frame to a transport. -/
def CallPc.unsent : CallPc → Bool
  | .nextID | .isClosed | .register | .capture | .lock | .check | .context => true
  | _ => false

/-- What the call returns, once that is settled. -/
def CallPc.result : CallPc → Option (Except Err Bytes)
  | .unregister res | .returned res => some res
  | _ => none

structure Advances (c : Client) (i : Nat) (call : Call) (c' : Client) (call' : Call) : Prop where
  calls : c'.calls = c.calls.set i call'
  run : c'.run = c.run
  kind : call'.kind = call.kind
  requestID : call'.requestID = call.requestID ∨ call.pc = .nextID
  got : call'.got = call.got
  resultCh : call'.resultCh = call.resultCh ∨ call'.resultCh = none
  unsent : call'.pc.unsent → call.pc.unsent
  handed : c'.handed = c.handed ∨ call.pc.unsent ∧ call'.pc.unsent = false ∧ ∃ g, c'.handed = c.handed ++ [(i, g)]
  result : call.isRpc → ∀ b, call'.pc.result = some (.ok b) →
    call.pc.result = some (.ok b) ∨ ∃ r, call.resultCh = some r ∧ r.res = .ok b

section

variable {c c' : Client} {i : Nat} {call : Call} {how : Choice}

theorem Advances.handed_grows {call' : Call} (ha : Advances c i call c' call') : c.handed <+: c'.handed := by
  rcases ha.handed with he | ⟨_, _, g, he⟩
  · exact ⟨[], by rw [List.append_nil, he]⟩
  · rw [he]
    exact List.prefix_append _ _

/-- The call goes on to another position. -/
theorem goes_on {pc' : CallPc} (hcalls : c'.calls = c.calls.set i { call with pc := pc' }) (hrun : c'.run = c.run)
    (hhanded : c'.handed = c.handed) (hu : pc'.unsent → call.pc.unsent)
    (hr : call.isRpc → ∀ b, pc'.result = some (.ok b) → call.pc.result = some (.ok b)) :
    ∃ call', Advances c i call c' call' :=
  ⟨_, hcalls, hrun, rfl, .inl rfl, rfl, .inl rfl, hu, .inl hhanded, fun hrpc b hb => .inl (hr hrpc b hb)⟩

/-- It goes on to hand its frame over. -/
theorem goes_to_send {pc' : CallPc} (hcalls : c'.calls = c.calls.set i { call with pc := pc' }) (hrun : c'.run = c.run)
    (hhanded : c'.handed = c.handed) (hu : call.pc.unsent) (hr : pc'.result = none) :
    ∃ call', Advances c i call c' call' :=
  goes_on hcalls hrun hhanded (fun _ => hu) fun _ b hb => by rw [hr] at hb; cases hb

/-- It fails: it has no result, or an error. -/
theorem goes_to_fail {pc' : CallPc} (hcalls : c'.calls = c.calls.set i { call with pc := pc' }) (hrun : c'.run = c.run)
    (hhanded : c'.handed = c.handed) (hu : pc'.unsent = false)
    (hr : pc'.result = none ∨ ∃ err, pc'.result = some (.error err)) : ∃ call', Advances c i call c' call' := by
  refine goes_on hcalls hrun hhanded (fun h => absurd (hu.symm.trans h) Bool.noConfusion) fun _ b hb => ?_
  rcases hr with hr | ⟨err, hr⟩ <;> cases hr.symm.trans hb

theorem invalidateTransport_trail (g : Nat) : (c.invalidateTransport g).calls = c.calls ∧
    (c.invalidateTransport g).run = c.run ∧ (c.invalidateTransport g).handed = c.handed := by
  unfold invalidateTransport
  split <;> exact ⟨rfl, rfl, rfl⟩

/-- It fails with the transport. -/
theorem goes_to_fail_on {d : Client} {pc' : CallPc} (hd : d.calls = c.calls ∧ d.run = c.run ∧ d.handed = c.handed)
    (hu : pc'.unsent = false) (hr : pc'.result = none ∨ ∃ err, pc'.result = some (.error err)) :
    ∃ call', Advances c i call (d.setCall i { call with pc := pc' }) call' :=
  goes_to_fail (by rw [setCall, hd.1]) hd.2.1 hd.2.2 hu hr

theorem registerStep_advances (hpc : call.pc = .register) : ∃ call', Advances c i call (c.registerStep i call) call' := by
  have hu : call.pc.unsent := by rw [hpc]; rfl
  unfold registerStep
  split
  · exact goes_to_send rfl rfl rfl hu rfl
  · split
    · exact goes_to_fail rfl rfl rfl rfl (.inr ⟨_, rfl⟩)
    · split
      · exact goes_to_fail rfl rfl rfl rfl (.inr ⟨_, rfl⟩)
      · exact goes_to_send rfl rfl rfl hu rfl
  · exact goes_to_send rfl rfl rfl hu rfl

theorem captureStep_advances (hpc : call.pc = .capture) : ∃ call', Advances c i call (c.captureStep i call) call' := by
  have hu : call.pc.unsent := by rw [hpc]; rfl
  unfold captureStep
  split
  · exact goes_to_fail rfl rfl rfl rfl (.inl rfl)
  · split
    · exact goes_to_fail rfl rfl rfl rfl (.inl rfl)
    · exact ⟨_, rfl, rfl, rfl, .inl rfl, rfl, .inl rfl, fun _ => hu, .inl rfl, fun _ b hb => by cases hb⟩

theorem checkStep_advances (hpc : call.pc = .check) : ∃ call', Advances c i call (c.checkStep i call) call' := by
  have hu : call.pc.unsent := by rw [hpc]; rfl
  unfold checkStep
  split
  · exact goes_to_fail rfl rfl rfl rfl (.inl rfl)
  · split
    · exact goes_to_send rfl rfl rfl hu rfl
    · exact goes_to_fail rfl rfl rfl rfl (.inl rfl)

theorem contextStep_advances (hpc : call.pc = .context) : ∃ call', Advances c i call (c.contextStep i call) call' := by
  have hu : call.pc.unsent := by rw [hpc]; rfl
  unfold contextStep
  split
  · exact goes_to_fail rfl rfl rfl rfl (.inl rfl)
  · refine ⟨_, rfl, rfl, rfl, .inl rfl, rfl, .inl rfl, fun _ => hu, ?_, fun _ b hb => by cases hb⟩
    cases hconn : call.conn with
    | none => exact .inl (by simp [setCall])
    | some g => exact .inr ⟨hu, rfl, g, by simp [setCall]⟩

theorem writtenStep_advances : ∃ call', Advances c i call (c.writtenStep i call) call' := by
  unfold writtenStep
  split
  · exact goes_to_fail rfl rfl rfl rfl (.inl rfl)
  all_goals
    rename_i hk
    exact goes_on rfl rfl rfl (by simp [CallPc.unsent]) (by simp [Call.isRpc, hk])

theorem failedStep_advances {err : Err} : ∃ call', Advances c i call (c.failedStep i call err) call' := by
  unfold failedStep
  split <;> exact goes_to_fail rfl rfl rfl rfl (.inr ⟨_, rfl⟩)

theorem unregisterStep_advances {res : Except Err Bytes} (hpc : call.pc = .unregister res) :
    ∃ call', Advances c i call (c.unregisterStep i call res) call' := by
  unfold unregisterStep
  refine goes_on rfl rfl rfl ?_ ?_
  · split <;> simp [CallPc.unsent]
  · rw [hpc]
    split <;> simp [CallPc.result]

theorem callStep_advances (hcall : c.calls[i]? = some call) (h : c.callStep i how = some c') :
    ∃ call', Advances c i call c' call' := by
  unfold callStep at h
  simp only [hcall] at h
  split at h
  case h_1 hpc =>
    cases h
    refine ⟨_, rfl, rfl, rfl, .inr hpc, rfl, .inl rfl, fun _ => by rw [hpc]; rfl, .inl rfl, ?_⟩
    split <;> simp [CallPc.result]
  case h_2 hpc =>
    cases h
    refine goes_on rfl rfl rfl (fun _ => by rw [hpc]; rfl) ?_
    split <;> simp [CallPc.result]
  case h_3 hpc => cases h; exact registerStep_advances hpc
  case h_4 hpc => cases h; exact captureStep_advances hpc
  case h_5 hpc =>
    split at h
    · cases h
    · cases h
      exact goes_to_send rfl rfl rfl (by rw [hpc]; rfl) rfl
  case h_6 hpc => cases h; exact goes_to_fail rfl rfl rfl rfl (.inl rfl)
  case h_7 hpc => cases h; exact checkStep_advances hpc
  case h_8 hpc => cases h; exact contextStep_advances hpc
  case h_9 hpc => cases h; exact writtenStep_advances
  case h_10 hpc => cases h; exact goes_to_fail rfl rfl rfl rfl (.inl rfl)
  case h_11 err hpc =>
    cases h
    refine goes_to_fail_on ?_ rfl (.inl rfl)
    split
    · exact invalidateTransport_trail _
    · exact ⟨rfl, rfl, rfl⟩
  case h_12 hpc => cases h; exact failedStep_advances
  case h_13 hpc =>
    -- the result that waits in the channel
    obtain ⟨r, hr, rfl⟩ := Option.map_eq_some_iff.mp h
    refine ⟨_, rfl, rfl, rfl, .inl rfl, rfl, .inr rfl, by simp [CallPc.unsent], .inl rfl, fun _ b hb => .inr ⟨r, hr, ?_⟩⟩
    simpa [CallPc.result] using hb
  case h_14 hpc =>
    obtain ⟨err, _, rfl⟩ := Option.map_eq_some_iff.mp h
    exact goes_to_fail rfl rfl rfl rfl (.inr ⟨_, rfl⟩)
  case h_15 hpc => cases h; exact unregisterStep_advances hpc
  case h_16 err hpc =>
    cases h
    refine goes_to_fail_on ?_ rfl (.inr ⟨_, rfl⟩)
    unfold invalidatePingTransport
    split
    all_goals first
      | exact invalidateTransport_trail _
      | exact ⟨rfl, rfl, rfl⟩
  case h_17 => cases h

/-! ## Steps of `run` -/

/-- The answer that `run` has read and not delivered. -/
def RunPc.answer? : RunPc → Option (Nat × Except Err Bytes)
  | .resolve _ requestID res _ | .deliver _ _ (.response requestID res) => some (requestID, res)
  | _ => none

theorem handleServerEnvelope_answer {g : Nat} (env : ServerEnvelope) :
    (c.handleServerEnvelope g env).run.answer? = env.answer? := by
  cases env with
  | response requestID res => rfl
  | streamFrameResult requestID => rfl
  | error code message requestID =>
    simp only [handleServerEnvelope, ServerEnvelope.answer?]
    split <;> rfl
  | other => rfl

/-- An answer is one that was just read, or the one before it. -/
theorem serveStep_answer {how : Serve} {p : Nat × Except Err Bytes} (h : c.serveStep how = some c')
    (hp : c'.run.answer? = some p) : c.run.answer? = some p ∨ ∃ env, how = .receive env ∧ env.answer? = some p := by
  have hnone {pc : RunPc} (hpc : pc.answer? = none) (h : pc.answer? = some p) : c.run.answer? = some p := by
    rw [hpc] at h
    cases h
  unfold serveStep at h
  split at h
  case h_1 => cases h; exact .inl (hnone (by split <;> rfl) hp)
  case h_2 outcome hpc =>
    cases h
    refine .inl (hnone ?_ hp)
    cases outcome with
    | failed err => rfl
    | refused code message requestID => rfl
    | unexpected => rfl
    | response info =>
      simp only [loginStep]
      split <;> rfl
  case h_3 => cases h; cases hp
  case h_4 => cases h; cases hp
  case h_5 g env hpc =>
    cases h
    rw [handleServerEnvelope_answer] at hp
    exact .inr ⟨env, rfl, hp⟩
  case h_6 => cases h; cases hp
  case h_7 g requestID res orElse hpc =>
    cases h
    refine .inl ?_
    unfold resolveStep at hp
    split at hp
    · rw [hpc]
      exact hp
    · cases hp
    · cases hp
  case h_8 => cases h; cases hp
  case h_9 =>
    cases h
    refine .inl (hnone ?_ hp)
    unfold completeStep
    split <;> rfl
  case h_10 => cases h; cases hp
  case h_11 => cases h; cases hp
  case h_12 => cases h; cases hp
  case h_13 => cases h; cases hp
  case h_14 results hpc =>
    cases h
    cases results <;> cases hp
  case h_15 err hpc =>
    cases h
    refine .inl (hnone ?_ hp)
    cases err with
    | none =>
      simp only [decideStep, runAt]
      split <;> rfl
    | some err =>
      simp only [decideStep, runAt]
      split <;> rfl
  case h_16 => cases h; cases hp
  case h_17 => cases h; cases hp
  case h_18 => cases h; cases hp
  case h_19 =>
    split at h
    · cases h
      cases hp
    · cases h
  case h_20 => cases h

/-- No frame is handed over, and the calls get failures or the answer at most. -/
theorem RunEffect.trail (h : RunEffect c c') : c'.handed = c.handed ∧ (c'.calls = c.calls ∨
    (∃ ch r, c.run.delivers = some (ch, r) ∧ c'.calls = c.calls.modify ch (·.offer r)) ∨
    ∃ err, c'.calls = offerAll c.pending.entries (.failure err) c.calls) := by
  cases h with
  | idles | logsIn | resolves | completes | clears | failsStreams | tornDown => exact ⟨rfl, .inl rfl⟩
  | delivers g ch r hpc => exact ⟨rfl, .inr (.inl ⟨ch, r, by rw [hpc]; rfl, rfl⟩)⟩
  | reports result pc' =>
    unfold notifyStreamSend
    split <;> exact ⟨rfl, .inl rfl⟩
  | failsPending g err hpc => exact ⟨rfl, .inr (.inr ⟨.disconnected, rfl⟩)⟩
  | failsLast err hpc => exact ⟨rfl, .inr (.inr ⟨err, rfl⟩)⟩

end

/-! ## What a run of the system keeps -/

namespace Service

structure CallSound (s : Service) (call : Call) : Prop where
  got : ∀ id res, .response id res ∈ call.got → s.Executed id res
  kept : ∀ r, call.resultCh = some r → r ∈ call.got
  result : call.isRpc → ∀ b, call.pc.result = some (.ok b) → ∃ id, .response id (.ok b) ∈ call.got

structure Sound (s : Service) : Prop where
  once : (s.client.handed.map Prod.fst).Nodup
  sent : ∀ h ∈ s.client.handed, At s.client.calls h.1 (·.pc.unsent = false)
  distinct : (s.executed.map Prod.fst).Nodup
  answer : ∀ p, s.client.run.answer? = some p → s.Executed p.1 p.2
  calls : ∀ call ∈ s.client.calls, s.CallSound call

variable {s s' : Service} {call call' : Call} {i : Nat} {r : RequestResult}

/-- An execution stays one: frames stay in their places, and calls that have sent keep their IDs. -/
theorem Executed.mono {id : Nat} {res : Except Err Bytes} (h : s.Executed id res)
    (hexecuted : ∀ e ∈ s.executed, e ∈ s'.executed) (hhanded : s.client.handed <+: s'.client.handed)
    (hcalls : ∀ h ∈ s.client.handed, ∀ id, At s.client.calls h.1 (·.requestID = id) → At s'.client.calls h.1 (·.requestID = id)) :
    s'.Executed id res := by
  obtain ⟨e, he, hres, h, hh, call, hcall, hid⟩ := h
  obtain ⟨call', hcall', hid'⟩ := hcalls h (List.mem_of_getElem? hh) id ⟨call, hcall, hid⟩
  obtain ⟨t, ht⟩ := hhanded
  refine ⟨e, hexecuted e he, hres, h, ?_, call', hcall', hid'⟩
  rw [← ht, List.getElem?_append_left (List.getElem?_eq_some_iff.mp hh).1]
  exact hh

theorem CallSound.mono (h : s.CallSound call) (hmono : ∀ id res, s.Executed id res → s'.Executed id res) :
    s'.CallSound call :=
  ⟨fun id res hr => hmono id res (h.got id res hr), h.kept, h.result⟩

theorem CallSound.offer (h : s.CallSound call) (hr : ∀ id res, r = .response id res → s.Executed id res) :
    s.CallSound (call.offer r) := by
  rcases offer_cases call r with he | ⟨_, he⟩
  · rwa [he]
  · rw [he]
    refine ⟨fun id res hmem => ?_, fun r' hr' => ?_, fun hrpc b hb => ?_⟩
    · rcases List.mem_append.mp hmem with hmem | hmem
      · exact h.got id res hmem
      · exact hr id res (List.mem_singleton.mp hmem).symm
    · cases hr'
      exact List.mem_append_right _ List.mem_cons_self
    · obtain ⟨id, hmem⟩ := h.result hrpc b hb
      exact ⟨id, List.mem_append_left _ hmem⟩

/-- A step that changes neither the calls nor the frames. -/
theorem Sound.same (h : s.Sound) (hexecuted : s'.executed = s.executed) (hhanded : s'.client.handed = s.client.handed)
    (hcalls : s'.client.calls = s.client.calls)
    (hanswer : ∀ p, s'.client.run.answer? = some p → s.Executed p.1 p.2) : s'.Sound := by
  have hmono : ∀ id res, s.Executed id res → s'.Executed id res := fun id res hex =>
    hex.mono (by rw [hexecuted]; exact fun _ he => he) (hhanded ▸ List.prefix_rfl) (by rw [hcalls]; exact fun _ _ _ h => h)
  refine ⟨by rw [hhanded]; exact h.once, by rw [hhanded, hcalls]; exact h.sent, by rw [hexecuted]; exact h.distinct,
    fun p hp => hmono _ _ (hanswer p hp), ?_⟩
  rw [hcalls]
  exact fun call hc => (h.calls call hc).mono hmono

/-- A call that is yet to send has handed nothing over. -/
theorem Sound.not_handed (h : s.Sound) (hcall : s.client.calls[i]? = some call) (hu : call.pc.unsent) :
    ∀ p ∈ s.client.handed, p.1 ≠ i := by
  rintro p hp rfl
  obtain ⟨x, hx, hsent⟩ := h.sent p hp
  cases hcall.symm.trans hx
  exact absurd (hsent.symm.trans hu) Bool.noConfusion

theorem Sound.executed_advances {c' : Client} (h : s.Sound) (hcall : s.client.calls[i]? = some call)
    (ha : Advances s.client i call c' call') {id : Nat} {res : Except Err Bytes} (hex : s.Executed id res) :
    Executed { s with client := c' } id res := by
  refine hex.mono (fun _ he => he) ha.handed_grows fun p hp id' hat => ?_
  show At c'.calls _ _
  rw [ha.calls]
  by_cases hpi : p.1 = i
  · refine hat.set hcall fun hid => ?_
    rcases ha.requestID with he | hpc
    · exact he.trans hid
    · exact absurd hpi (h.not_handed hcall (by rw [hpc]; rfl) p hp)
  · obtain ⟨x, hx, hid⟩ := hat
    exact ⟨x, by rw [List.getElem?_set_ne (Ne.symm hpi)]; exact hx, hid⟩

theorem CallSound.advances {c c' : Client} (h : s.CallSound call) (ha : Advances c i call c' call')
    (hmono : ∀ id res, s.Executed id res → s'.Executed id res) : s'.CallSound call' := by
  refine ⟨?_, ?_, ?_⟩
  · rw [ha.got]
    exact fun id res hmem => hmono _ _ (h.got id res hmem)
  · rw [ha.got]
    rcases ha.resultCh with he | he
    · rw [he]
      exact h.kept
    · rw [he]
      exact fun r hr => by cases hr
  · intro hrpc b hb
    have hrpc' : call.isRpc := by
      unfold Call.isRpc at hrpc ⊢
      rwa [ha.kind] at hrpc
    rw [ha.got]
    rcases ha.result hrpc' b hb with hb | ⟨r, hr, hres⟩
    · exact h.result hrpc' b hb
    · have hmem := h.kept r hr
      cases r with
      | response id res =>
        cases hres
        exact ⟨id, hmem⟩
      | failure err => cases hres

theorem Sound.advances {c' : Client} (h : s.Sound) (hcall : s.client.calls[i]? = some call)
    (ha : Advances s.client i call c' call') : ({ s with client := c' } : Service).Sound := by
  have hmono : ∀ id res, s.Executed id res → Executed { s with client := c' } id res :=
    fun id res hex => h.executed_advances hcall ha hex
  have hsent : ∀ p ∈ s.client.handed, At c'.calls p.1 (·.pc.unsent = false) := by
    intro p hp
    rw [ha.calls]
    refine (h.sent p hp).set hcall fun hu => ?_
    rw [Bool.eq_false_iff] at hu ⊢
    exact fun hu' => hu (ha.unsent hu')
  refine ⟨?_, ?_, h.distinct, ?_, ?_⟩
  · show (c'.handed.map _).Nodup
    rcases ha.handed with he | ⟨hu, _, g, he⟩
    · rw [he]
      exact h.once
    · rw [he, List.map_append, List.nodup_append]
      refine ⟨h.once, List.nodup_singleton _, fun a ha b hb => ?_⟩
      obtain ⟨p, hp, rfl⟩ := List.mem_map.mp ha
      rw [List.mem_singleton.mp hb]
      exact h.not_handed hcall hu p hp
  · show ∀ p ∈ c'.handed, _
    rcases ha.handed with he | ⟨_, hu, g, he⟩
    · rw [he]
      exact hsent
    · rw [he]
      intro p hp
      rcases List.mem_append.mp hp with hp | hp
      · exact hsent p hp
      · rw [List.mem_singleton.mp hp]
        exact ⟨call', by rw [ha.calls]; exact List.getElem?_set_self (List.getElem?_eq_some_iff.mp hcall).1, hu⟩
  · show ∀ p, c'.run.answer? = some p → _
    rw [ha.run]
    exact fun p hp => hmono _ _ (h.answer p hp)
  · show ∀ x ∈ c'.calls, _
    rw [ha.calls]
    exact forall_set (fun x hx => (h.calls x hx).mono hmono) ((h.calls call (List.mem_of_getElem? hcall)).advances ha hmono)

/-- A step of `run` that offers `r` to some calls. -/
theorem Sound.offers {c' : Client} (h : s.Sound) (hhanded : c'.handed = s.client.handed)
    (hanswer : ∀ p, c'.run.answer? = some p → s.Executed p.1 p.2)
    (hat : ∀ ch (P : Call → Prop), (∀ call, P call → P (call.offer r)) → At s.client.calls ch P → At c'.calls ch P)
    (hall : ∀ P : Call → Prop, (∀ call, P call → P (call.offer r)) → (∀ call ∈ s.client.calls, P call) → ∀ call ∈ c'.calls, P call)
    (hr : ∀ id res, r = .response id res → s.Executed id res) : ({ s with client := c' } : Service).Sound := by
  have hmono : ∀ id res, s.Executed id res → Executed { s with client := c' } id res := by
    refine fun id res hex => hex.mono (fun _ he => he) (hhanded ▸ List.prefix_rfl) fun p _ id' hid => ?_
    exact hat p.1 _ (fun call hc => by rwa [offer_requestID]) hid
  refine ⟨?_, ?_, h.distinct, fun p hp => hmono _ _ (hanswer p hp), ?_⟩
  · show (c'.handed.map _).Nodup
    rw [hhanded]
    exact h.once
  · show ∀ p ∈ c'.handed, _
    rw [hhanded]
    exact fun p hp => hat p.1 _ (fun call hc => by rwa [offer_pc]) (h.sent p hp)
  · exact fun x hx => (hall s.CallSound (fun call hc => hc.offer hr) h.calls x hx).mono hmono

theorem Sound.run {c' : Client} (h : s.Sound) (heff : RunEffect s.client c')
    (hanswer : ∀ p, c'.run.answer? = some p → s.Executed p.1 p.2) : ({ s with client := c' } : Service).Sound := by
  obtain ⟨hhanded, hcalls | ⟨ch, r, hd, hcalls⟩ | ⟨err, hcalls⟩⟩ := heff.trail
  · exact h.same rfl hhanded hcalls hanswer
  · refine h.offers (r := r) hhanded hanswer ?_ ?_ ?_
    · rw [hcalls]
      exact fun _ _ hP hx => hx.modify hP
    · rw [hcalls]
      exact fun _ hP hx => forall_modify hx fun call _ => hP call
    · -- what is delivered is the answer that was read
      rintro id res rfl
      refine h.answer (id, res) ?_
      unfold RunPc.delivers at hd
      split at hd
      · rename_i hpc
        cases hd
        rw [hpc]
        rfl
      · cases hd
  · refine h.offers (r := .failure err) hhanded hanswer ?_ ?_ fun _ _ hr => by cases hr
    · rw [hcalls]
      exact fun _ _ hP hx => hx.offerAll hP _
    · rw [hcalls]
      exact fun _ hP hx => forall_offerAll hx hP _

theorem Sound.starts {c' : Client} {call : Call} (h : s.Sound) (hcalls : c'.calls = s.client.calls ++ [call])
    (hhanded : c'.handed = s.client.handed) (hrun : c'.run = s.client.run) (hgot : call.got = []) (hch : call.resultCh = none)
    (hres : ∀ b, call.pc.result ≠ some (.ok b)) : ({ s with client := c' } : Service).Sound := by
  have hmono : ∀ id res, s.Executed id res → Executed { s with client := c' } id res := by
    refine fun id res hex => hex.mono (fun _ he => he) (hhanded ▸ List.prefix_rfl) fun p _ id' hid => ?_
    show At c'.calls _ _
    rw [hcalls]
    exact hid.append
  refine ⟨?_, ?_, h.distinct, ?_, ?_⟩
  · show (c'.handed.map _).Nodup
    rw [hhanded]
    exact h.once
  · show ∀ p ∈ c'.handed, At c'.calls _ _
    rw [hhanded, hcalls]
    exact fun p hp => (h.sent p hp).append
  · show ∀ p, c'.run.answer? = some p → _
    rw [hrun]
    exact fun p hp => hmono _ _ (h.answer p hp)
  · show ∀ x ∈ c'.calls, _
    rw [hcalls]
    refine forall_append (fun x hx => (h.calls x hx).mono hmono) ⟨?_, ?_, fun _ b hb => absurd hb (hres b)⟩
    · rw [hgot]
      exact fun _ _ hmem => absurd hmem List.not_mem_nil
    · rw [hch]
      exact fun _ hr => by cases hr

theorem Sound.execute {k : Nat} {res : Except Err Bytes} (h : s.Sound) (hk : k ∉ s.executed.map Prod.fst) :
    ({ s with executed := s.executed ++ [(k, res)] } : Service).Sound := by
  have hmono : ∀ id r, s.Executed id r → Executed { s with executed := s.executed ++ [(k, res)] } id r := fun id r hex =>
    hex.mono (fun _ he => List.mem_append_left _ he) List.prefix_rfl fun _ _ _ hid => hid
  refine ⟨h.once, h.sent, ?_, fun p hp => hmono _ _ (h.answer p hp), fun x hx => (h.calls x hx).mono hmono⟩
  show ((s.executed ++ [(k, res)]).map _).Nodup
  rw [List.map_append, List.nodup_append]
  refine ⟨h.distinct, List.nodup_singleton _, fun a ha b hb => ?_⟩
  rw [List.mem_singleton.mp hb]
  rintro rfl
  exact hk ha

theorem Sound.startCall (h : s.Sound) (request : Request) : ({ s with client := s.client.startCall request } : Service).Sound := by
  cases request with
  | rpc ping => exact h.starts rfl rfl rfl rfl rfl (by simp [newCall, CallPc.result])
  | tracked target targetSession frame =>
    refine h.starts rfl rfl rfl rfl rfl fun b => ?_
    simp only [newCall]
    split <;> simp [CallPc.result]
  | frame => exact h.starts rfl rfl rfl rfl rfl (by simp [newCall, CallPc.result])

theorem Sound.clientStep {a : Action} {c' : Client} (h : s.Sound) (hok : s.Answering (.client a))
    (hs : s.client.step a = some c') : ({ s with client := c' } : Service).Sound := by
  cases a with
  | connect =>
    cases hs
    refine h.same rfl ?_ ?_ ?_
    · show s.client.connect.handed = _
      unfold connect
      split <;> rfl
    · show s.client.connect.calls = _
      unfold connect
      split <;> rfl
    · show ∀ p, s.client.connect.run.answer? = some p → _
      unfold connect
      split
      · exact fun p hp => by cases hp
      · exact h.answer
  | call request =>
    cases hs
    exact h.startCall request
  | step i how =>
    cases hcall : s.client.calls[i]? with
    | none => simp [Client.step, callStep, hcall] at hs
    | some call =>
      obtain ⟨call', ha⟩ := callStep_advances hcall hs
      exact h.advances hcall ha
  | done i deadline =>
    cases contextDone_effect hs with
    | leaves i deadline call err hcall =>
      exact h.advances hcall ⟨rfl, rfl, rfl, .inl rfl, rfl, .inl rfl, fun hu => hu, .inl rfl, fun _ b hb => .inl hb⟩
  | cleanup i =>
    cases cleanup_effect hs with
    | cleans i call hcall => exact h.same rfl rfl rfl h.answer
  | serve how =>
    refine h.run (serveStep_effect hs) fun p hp => ?_
    rcases serveStep_answer hs hp with hp | ⟨env, rfl, hp⟩
    · exact h.answer p hp
    · exact hok p hp
  | close =>
    cases hs
    exact h.same rfl rfl rfl h.answer
  | closeStep j =>
    cases hj : s.client.closers[j]? with
    | none => simp [Client.step, closeStep, hj] at hs
    | some closer =>
      cases closeStep_effect hj hs with
      | idles | closes | takes => exact h.same rfl rfl rfl h.answer
      | reports result results hpc =>
        unfold notifyStreamSend
        split <;> exact h.same rfl rfl rfl h.answer

theorem Sound.step {a : ServiceAction} (h : s.Sound) (hok : s.Answering a) (hs : s.step a = some s') : s'.Sound := by
  cases a with
  | client a =>
    obtain ⟨c', hc, rfl⟩ := Option.map_eq_some_iff.mp hs
    exact h.clientStep hok hc
  | execute k res =>
    simp only [Service.step] at hs
    split at hs <;> cases hs
    rename_i hk
    exact h.execute hk.2

theorem sound (h : Reach step Answering Initial s) : s.Sound := by
  refine h.keeps ?_ fun s a s' _ hsound hok hs => hsound.step hok hs
  rintro s ⟨⟨cfg, hc⟩, he⟩
  obtain ⟨c, executed⟩ := s
  cases hc
  cases he
  exact ⟨List.nodup_nil, fun _ hp => absurd hp List.not_mem_nil, List.nodup_nil, fun _ hp => (by cases hp),
    fun _ hc => absurd hc List.not_mem_nil⟩

/-- A run of the system is a run of the client. -/
theorem client_reach (h : Reach step Answering Initial s) : Reach Client.step free Client.Initial s.client := by
  induction h with
  | init hi => exact .init hi.1
  | step a _ _ hs ih =>
    cases a with
    | client a =>
      obtain ⟨c', hc, rfl⟩ := Option.map_eq_some_iff.mp hs
      exact .step a ih trivial hc
    | execute k res =>
      simp only [Service.step] at hs
      split at hs <;> cases hs
      exact ih

/-! ## The theorem -/

/-- The executions of a call, by the frames. -/
theorem mem_executions {res : Except Err Bytes} :
    res ∈ s.executions i ↔ ∃ e ∈ s.executed, (s.client.handed[e.1]?).map Prod.fst = some i ∧ e.2 = res := by
  unfold executions
  rw [List.mem_filterMap]
  refine exists_congr fun e => and_congr_right fun _ => ?_
  split
  · rename_i hi
    rw [Option.some_inj]
    exact ⟨fun h => ⟨hi, h⟩, fun h => h.2⟩
  · rename_i hi
    exact ⟨fun h => (by cases h), fun h => absurd h.1 hi⟩

theorem Sound.executions_le_one (h : s.Sound) (i : Nat) : (s.executions i).length ≤ 1 := by
  -- a call has one frame, and a frame is executed once
  have hframe : ∀ k k' : Nat, (s.client.handed[k]?).map Prod.fst = some i → (s.client.handed[k']?).map Prod.fst = some i →
      k = k' := by
    intro k k' hk hk'
    rw [← List.getElem?_map] at hk hk'
    exact (List.getElem?_inj (List.getElem?_eq_some_iff.mp hk).1 h.once).mp (hk.trans hk'.symm)
  have hdistinct := h.distinct
  unfold executions
  generalize s.executed = executed at hdistinct ⊢
  induction executed with
  | nil => exact Nat.zero_le _
  | cons e rest ih =>
    rw [List.map_cons, List.nodup_cons] at hdistinct
    rw [List.filterMap_cons]
    split
    · exact ih hdistinct.2
    · rename_i heq
      split at heq
      · rename_i hi
        cases heq
        have hnone : rest.filterMap (fun e => if (s.client.handed[e.1]?).map Prod.fst = some i then some e.2 else none) = [] := by
          rw [List.filterMap_eq_nil_iff]
          intro e' he'
          refine if_neg fun hi' => hdistinct.1 ?_
          rw [hframe e.1 e'.1 hi hi']
          exact List.mem_map_of_mem he'
        rw [hnone]
        exact Nat.le_refl 1
      · cases heq

/-- No call is executed twice, whatever happens to the transports, and an RPC that returned a
    response was executed, with the result that it returned. -/
theorem rpc_executed_once (h : Reach step Answering Initial s) :
    (∀ i, (s.executions i).length ≤ 1) ∧
    ∀ i call b, s.client.calls[i]? = some call → call.isRpc → call.pc = .returned (.ok b) → s.executions i = [.ok b] := by
  have hs := sound h
  have hclient := client_reach h
  refine ⟨hs.executions_le_one, fun i call b hcall hrpc hpc => ?_⟩
  have hmem := List.mem_of_getElem? hcall
  obtain ⟨id, hgot⟩ := (hs.calls call hmem).result hrpc b (by rw [hpc]; rfl)
  -- the response has the request ID of the call
  have hid : id = call.requestID := by
    rcases ((pendings hclient).answered call hmem).got _ hgot with ⟨res, hr⟩ | ⟨err, hr⟩
    · cases hr
      rfl
    · cases hr
  have hpos : 0 < call.requestID := by
    refine ((Client.sound hclient).calls call hmem).numbered ?_ (by rw [hpc]; rfl)
    obtain ⟨ping, hk⟩ := isRpc_iff.mp hrpc
    rw [hk]
    exact CallKind.noConfusion
  obtain ⟨e, he, hres, p, hp, call', hcall', hid'⟩ := (hs.calls call hmem).got id _ hgot
  -- so it was the frame of this call that was executed
  have hsame : i = p.1 := (Client.sound hclient).same hcall hcall' (by rw [hid', hid]) hpos
  have hex : .ok b ∈ s.executions i := mem_executions.mpr ⟨e, he, by rw [hp, hsame]; rfl, hres⟩
  have hone := hs.executions_le_one i
  obtain ⟨l₁, l₂, hl⟩ := List.append_of_mem hex
  rw [hl, List.length_append, List.length_cons] at hone
  have h₁ : l₁ = [] := List.eq_nil_of_length_eq_zero (by omega)
  have h₂ : l₂ = [] := List.eq_nil_of_length_eq_zero (by omega)
  rw [hl, h₁, h₂, List.nil_append]

/-- The first RPC is executed and its response is lost with the transport; the second one is answered. -/
def lostThenAnswered : List ServiceAction :=
  (List.flatten [[.connect], logsIn, [.call (.rpc false)], runs 0 7, [.step 0 (.result none)]]).map .client ++
    [.execute 0 (.ok [1])] ++
    (List.flatten [disconnects 6, runs 0 2, logsIn, [.call (.rpc false)], runs 1 7, [.step 1 (.result none)]]).map .client ++
    [.execute 1 (.ok [2])] ++
    (List.flatten [[.serve (.receive (.response 2 (.ok [2]))), .serve .go, .serve .go], runs 1 2]).map .client

/-- The response that the call returned. -/
def reply? : CallPc → Option Bytes
  | .returned (.ok b) => some b
  | _ => none

theorem rpc_executed_once_lost : ∃ s call, Reach step Answering Initial s ∧ s.client.calls[1]? = some call ∧ call.isRpc ∧
    call.pc = .returned (.ok [2]) ∧ (s.executions 0).length ≤ 1 ∧ s.executions 1 = [.ok [2]] := by
  have hrun : ((exec (guarded step Answering) ⟨.new sampleConfig, []⟩ lostThenAnswered).any fun s =>
      s.client.calls[1]?.any fun call => call.isRpc && decide (reply? call.pc = some [2])) = true := by
    decide +kernel
  obtain ⟨s, hr, hw⟩ := reach_any (I := Initial) _ (.init ⟨⟨sampleConfig, rfl⟩, rfl⟩) hrun
  simp only [Option.any_eq_true, Bool.and_eq_true, decide_eq_true_eq] at hw
  obtain ⟨call, hcall, hrpc, hpc⟩ := hw
  unfold reply? at hpc
  split at hpc
  · rename_i b hreturned
    cases hpc
    have hone := rpc_executed_once hr
    exact ⟨s, call, hr, hcall, hrpc, hreturned, hone.1 0, hone.2 1 call [2] hcall hrpc hreturned⟩
  · cases hpc

end Service

end Turntf.Client
