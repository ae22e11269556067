/-
  Turntf.Client.Isolation — transport generations stay apart (`sendEnvelopeOnTransport`,
  `writeProtoOnTransport`, `invalidateTransport`, `connectAndServe`, `Close` of `client.go`).

  A call captures a transport, waits for `writeMu`, and looks again before it writes. The two
  looks are steps of its run (`Looked`), and a frame was handed to a transport only if both
  saw that very transport current (`Sent.handed`). What is current changes by a login, by
  `Close`, and by a failure of the current transport itself (`Causes`): no step of a call or
  of the teardown that belongs to another transport touches it.

  - `generations_isolated`: all of it, in every run.
-/

import Turntf.Client.Pending

namespace Turntf.Client

open Lts

/-- The transport is current and the client is not closed. -/
def Live (c : Client) (g : Nat) : Prop := c.conn = some g ∧ c.authenticated ∧ c.closed = false

/-- How far a call has come in `sendEnvelopeOnTransport`. -/
inductive Stage where
  | early
  | captured
  | checked
  | over
  deriving DecidableEq

def CallPc.stage : CallPc → Stage
  | .nextID | .isClosed | .register | .capture => .early
  | .lock | .check => .captured
  | .context => .checked
  | _ => .over

/-- At the section that captures the transport. -/
def CallPc.capturing : CallPc → Bool
  | .capture => true
  | _ => false

/-- At the section of the staleness check. -/
def CallPc.checking : CallPc → Bool
  | .check => true
  | _ => false

theorem CallPc.over_looks {pc : CallPc} (h : pc.stage = .over) : pc.capturing = false ∧ pc.checking = false := by
  cases pc with
  | capture | check => cases h
  | _ => exact ⟨rfl, rfl⟩

theorem CallPc.stage_of_not_sends {pc : CallPc} {kind : CallKind} (h : pc.sends kind = false) :
    pc.stage ≠ .captured ∧ pc.stage ≠ .checked := by
  cases pc with
  | lock | check | context => cases h
  | _ => exact ⟨Stage.noConfusion, Stage.noConfusion⟩

/-- A write or a ping has failed on the transport of the call. -/
def CallPc.fails : CallPc → Bool
  | .invalidate _ | .ping _ => true
  | _ => false

/-! ## What a step of a call sees and hands over -/

inductive Sends (c : Client) (i : Nat) (call : Call) : Client → Prop
  | captures (g : Nat) (hpc : call.pc = .capture) (hlive : Live c g) :
      Sends c i call (c.setCall i { call with pc := .lock, conn := some g })
  | passes (g : Nat) (hpc : call.pc = .check) (hconn : call.conn = some g) (hlive : Live c g) :
      Sends c i call (c.setCall i { call with pc := .context })
  | hands (hpc : call.pc = .context) :
      Sends c i call ({ c with handed := c.handed ++ call.conn.toList.map fun g => (i, g) }.setCall i
        { call with pc := .write })
  | waits {c' : Client} (call' : Call) (hcalls : c'.calls = c.calls.set i call') (hconn : call'.conn = call.conn)
      (hhanded : c'.handed = c.handed)
      (hstage : call'.pc.stage = .over ∨
        call'.pc.stage = call.pc.stage ∧ call.pc.capturing = false ∧ call.pc.checking = false)
      (hcurrent : c'.current = c.current ∨ ∃ g, c.conn = some g ∧ call.conn = some g ∧ call.pc.fails) :
      Sends c i call c'

section

variable {c c' : Client} {i : Nat} {call : Call} {how : Choice} {a : Action}

/-- The call only goes on. -/
theorem Sends.goto (pc' : CallPc) (hstage : pc'.stage = .over ∨
    pc'.stage = call.pc.stage ∧ call.pc.capturing = false ∧ call.pc.checking = false) :
    Sends c i call (c.setCall i { call with pc := pc' }) :=
  .waits _ rfl rfl rfl hstage (.inl rfl)

theorem captureStep_sends (hpc : call.pc = .capture) : Sends c i call (c.captureStep i call) := by
  unfold captureStep
  by_cases hclosed : c.closed
  · rw [if_pos hclosed]
    exact .goto _ (.inl rfl)
  by_cases hconn : c.conn = none ∨ c.authenticated = false
  · rw [if_neg hclosed, if_pos hconn]
    exact .goto _ (.inl rfl)
  rw [if_neg hclosed, if_neg hconn]
  obtain ⟨hne, hauth⟩ := not_or.mp hconn
  obtain ⟨g, hg⟩ := Option.ne_none_iff_exists'.mp hne
  rw [hg]
  exact .captures g hpc ⟨hg, Bool.not_eq_false _ ▸ hauth, Bool.not_eq_true _ ▸ hclosed⟩

theorem checkStep_sends (hpc : call.pc = .check) (hne : call.conn ≠ none) : Sends c i call (c.checkStep i call) := by
  unfold checkStep
  by_cases hclosed : c.closed
  · rw [if_pos hclosed]
    exact .goto _ (.inl rfl)
  by_cases hcur : c.conn = call.conn ∧ c.authenticated
  · rw [if_neg hclosed, if_pos hcur]
    obtain ⟨g, hg⟩ := Option.ne_none_iff_exists'.mp hne
    exact .passes g hpc hg ⟨hcur.1.trans hg, hcur.2, Bool.not_eq_true _ ▸ hclosed⟩
  · rw [if_neg hclosed, if_neg hcur]
    exact .goto _ (.inl rfl)

/-- `invalidateTransport` of the transport a call has captured. -/
theorem invalidate_sends {g : Nat} (pc' : CallPc) (hconn : call.conn = some g) (hfails : call.pc.fails)
    (hover : pc'.stage = .over) : Sends c i call ((c.invalidateTransport g).setCall i { call with pc := pc' }) := by
  unfold invalidateTransport
  split
  · rename_i hcur
    exact .waits _ rfl rfl rfl (.inl hover) (.inr ⟨g, hcur, hconn, hfails⟩)
  · exact .goto _ (.inl hover)

theorem invalidateStep_sends {err : Err} (hpc : call.pc = .invalidate err) :
    Sends c i call ((match call.conn with
      | some g => c.invalidateTransport g
      | none => c).setCall i { call with pc := .failed err }) := by
  obtain ⟨kind, requestID, pc, conn, ctx, resultCh, got⟩ := call
  cases hpc
  cases conn with
  | none => exact .goto (.failed err) (.inl rfl)
  | some g => exact invalidate_sends (.failed err) rfl rfl rfl

theorem registerStep_sends (hpc : call.pc = .register) : Sends c i call (c.registerStep i call) := by
  have hstage : CallPc.capture.stage = call.pc.stage ∧ call.pc.capturing = false ∧ call.pc.checking = false := by
    rw [hpc]
    exact ⟨rfl, rfl, rfl⟩
  unfold registerStep
  split
  · exact .waits { call with pc := .capture } rfl rfl rfl (.inr hstage) (.inl rfl)
  · split
    · exact .goto _ (.inl rfl)
    · split
      · exact .goto _ (.inl rfl)
      · exact .waits { call with pc := .capture } rfl rfl rfl (.inr hstage) (.inl rfl)
  · exact .goto .capture (.inr hstage)

theorem pingStep_sends {err : Err} (hpc : call.pc = .ping err) :
    Sends c i call ((c.invalidatePingTransport call.conn err).setCall i { call with pc := .returned (.error err) }) := by
  obtain ⟨kind, requestID, pc, conn, ctx, resultCh, got⟩ := call
  cases hpc
  cases conn with
  | none => exact .goto (.returned (.error err)) (.inl rfl)
  | some g =>
    cases err with
    | server | closed | notConnected | canceled => exact .goto (.returned (.error _)) (.inl rfl)
    | disconnected | streamSendPendingFull | deadline | text =>
      exact invalidate_sends (.returned (.error _)) rfl rfl rfl

theorem callStep_sends (hs : Sound c) (hcall : c.calls[i]? = some call) (h : c.callStep i how = some c') :
    Sends c i call c' := by
  have hold := hs.calls call (List.mem_of_getElem? hcall)
  unfold callStep at h
  simp only [hcall] at h
  split at h
  case h_1 hpc =>
    cases h
    refine .waits _ rfl rfl rfl (.inr ?_) (.inl rfl)
    rw [hpc]
    exact ⟨by dsimp only; split <;> rfl, rfl, rfl⟩
  case h_2 hpc =>
    cases h
    refine .goto _ ?_
    rw [hpc]
    split
    · exact .inl rfl
    · exact .inr ⟨rfl, rfl, rfl⟩
  case h_3 hpc =>
    cases h
    exact registerStep_sends hpc
  case h_4 hpc => cases h; exact captureStep_sends hpc
  case h_5 hpc =>
    split at h
    · cases h
    · cases h
      exact .goto _ (.inr (by rw [hpc]; exact ⟨rfl, rfl, rfl⟩))
  case h_6 hpc => cases h; exact .goto _ (.inl rfl)
  case h_7 hpc => cases h; exact checkStep_sends hpc (hold.sends (by rw [hpc]; rfl))
  case h_8 hpc =>
    cases h
    unfold contextStep
    split
    · exact .goto _ (.inl rfl)
    · exact .hands hpc
  case h_9 hpc =>
    cases h
    unfold writtenStep
    split <;> exact .goto _ (.inl rfl)
  case h_10 hpc => cases h; exact .goto _ (.inl rfl)
  case h_11 hpc =>
    cases h
    exact invalidateStep_sends hpc
  case h_12 hpc =>
    cases h
    unfold failedStep
    split
    · exact .goto _ (.inl rfl)
    · exact .waits _ rfl rfl rfl (.inl rfl) (.inl rfl)
    · exact .goto _ (.inl rfl)
  case h_13 hpc =>
    obtain ⟨r, _, rfl⟩ := Option.map_eq_some_iff.mp h
    exact .waits _ rfl rfl rfl (.inl rfl) (.inl rfl)
  case h_14 hpc =>
    obtain ⟨err, _, rfl⟩ := Option.map_eq_some_iff.mp h
    exact .goto _ (.inl rfl)
  case h_15 hpc =>
    cases h
    refine .waits _ rfl rfl rfl (.inl ?_) (.inl rfl)
    dsimp only
    split <;> rfl
  case h_16 hpc => cases h; exact pingStep_sends hpc
  case h_17 => cases h

/-! ## What is current -/

/-- The steps that change what is current: the section of a login that finds none, the clearing
    of the current transport when reading it has failed, the failure of a frame or a ping on the
    current transport, and the first section of `Close`. -/
def Causes (c : Client) : Action → Prop
  | .serve _ => (∃ info, c.run = .login info) ∧ c.conn = none ∨ ∃ g err, c.run = .clear g err ∧ c.conn = some g
  | .step i _ => ∃ g, c.conn = some g ∧ At c.calls i fun call => call.conn = some g ∧ call.pc.fails
  | .closeStep j => ∃ started, c.closers[j]? = some ⟨started, .start⟩
  | _ => False

theorem RunEffect.current (hg : Generations c) (h : RunEffect c c') : c'.current = c.current ∨
    (∃ info, c.run = .login info) ∧ c.conn = none ∨ ∃ g err, c.run = .clear g err ∧ c.conn = some g := by
  cases h with
  | logsIn info hpc =>
    refine .inr (.inl ⟨⟨info, hpc⟩, ?_⟩)
    cases hconn : c.conn with
    | none => rfl
    | some g =>
      have := hg.served g hconn
      rw [hpc] at this
      cases this
  | clears g err hpc =>
    cases hconn : c.conn with
    | none =>
      -- nothing was current: Close or a failed write has cleared it
      have hauth : c.authenticated = false := by rw [hg.authenticated, hconn]; rfl
      refine .inl ?_
      simp [Client.current, hconn, hauth, hg.loginInfo hauth]
    | some g' =>
      have hserved := hg.served g' hconn
      rw [hpc] at hserved
      cases hserved
      exact .inr (.inr ⟨g, err, hpc, rfl⟩)
  | reports result =>
    unfold notifyStreamSend
    split <;> exact .inl rfl
  | _ => exact .inl rfl

theorem current_changes (hs : Sound c) (h : c.step a = some c') : c'.current = c.current ∨ Causes c a := by
  cases step_effect hs.placed h with
  | call i how call hcall _ =>
    cases callStep_sends hs hcall h with
    | captures | passes | hands => exact .inl rfl
    | waits call' hcalls hconn hhanded hstage hcurrent =>
      exact hcurrent.imp_right fun ⟨g, hcur, hg, hfails⟩ => ⟨g, hcur, call, hcall, hg, hfails⟩
  | connects hpc heff =>
    rcases heff.current hs.generations with hsame | ⟨⟨info, hpc'⟩, _⟩ | ⟨g, err, hpc', _⟩
    · exact .inl hsame
    · cases hpc.symm.trans hpc'
    · cases hpc.symm.trans hpc'
  | run how heff => exact heff.current hs.generations
  | closer j closer hj heff =>
    cases heff with
    | closes hpc =>
      obtain ⟨started, pc⟩ := closer
      cases hpc
      exact .inr ⟨started, hj⟩
    | reports result =>
      unfold notifyStreamSend
      split <;> exact .inl rfl
    | idles | takes => exact .inl rfl
  | _ => exact .inl rfl

/-! ## The looks of a call -/

/-- In a step of the run, call `i` was at a section and took it in state `s`. -/
def Looked (tr : List (Client × Action)) (i : Nat) (p : CallPc → Bool) (s : Client) : Prop :=
  (∃ how, (s, .step i how) ∈ tr) ∧ At s.calls i fun call => p call.pc

/-- The call took the section, and always with this transport current. -/
def Saw (tr : List (Client × Action)) (i : Nat) (p : CallPc → Bool) (g : Nat) : Prop :=
  (∃ s, Looked tr i p s) ∧ ∀ s, Looked tr i p s → Live s g

variable {tr : List (Client × Action)} {p : CallPc → Bool} {s : Client} {g : Nat}

theorem looked_append : Looked (tr ++ [(c, a)]) i p s ↔
    Looked tr i p s ∨ (∃ how, a = .step i how) ∧ s = c ∧ At c.calls i fun call => p call.pc := by
  unfold Looked
  constructor
  · rintro ⟨⟨how, hmem⟩, hat⟩
    rcases List.mem_append.mp hmem with hmem | hmem
    · exact .inl ⟨⟨how, hmem⟩, hat⟩
    · cases List.mem_singleton.mp hmem
      exact .inr ⟨⟨how, rfl⟩, rfl, hat⟩
  · rintro (⟨⟨how, hmem⟩, hat⟩ | ⟨⟨how, rfl⟩, rfl, hat⟩)
    · exact ⟨⟨how, List.mem_append_left _ hmem⟩, hat⟩
    · exact ⟨⟨how, List.mem_append_right _ (List.mem_singleton_self _)⟩, hat⟩

/-- A step that is not one of call `i` at the section. -/
theorem looked_other (h : ∀ how, a = .step i how → ¬ At c.calls i fun call => p call.pc) (s : Client) :
    Looked (tr ++ [(c, a)]) i p s ↔ Looked tr i p s := by
  rw [looked_append, or_iff_left]
  rintro ⟨⟨how, ha⟩, -, hat⟩
  exact h how ha hat

theorem Saw.congr {tr' : List (Client × Action)} (h : Saw tr i p g) (hl : ∀ s, Looked tr' i p s ↔ Looked tr i p s) :
    Saw tr' i p g := by
  obtain ⟨⟨s, hs⟩, hall⟩ := h
  exact ⟨⟨s, (hl s).mpr hs⟩, fun s hs => hall s ((hl s).mp hs)⟩

/-- The first look of the call. -/
theorem Saw.first (hnone : ∀ s, ¬ Looked tr i p s) (hat : At c.calls i fun call => p call.pc) (hlive : Live c g) :
    Saw (tr ++ [(c, .step i how)]) i p g := by
  refine ⟨⟨c, looked_append.mpr (.inr ⟨⟨how, rfl⟩, rfl, hat⟩)⟩, fun s hs => ?_⟩
  rcases looked_append.mp hs with hs | ⟨-, rfl, -⟩
  · exact absurd hs (hnone s)
  · exact hlive

structure Sent (tr : List (Client × Action)) (c : Client) (i : Nat) (call : Call) : Prop where
  uncaptured : call.pc.stage = .early → ∀ s, ¬ Looked tr i CallPc.capturing s
  unchecked : call.pc.stage = .early ∨ call.pc.stage = .captured → ∀ s, ¬ Looked tr i CallPc.checking s
  captured : call.pc.stage = .captured ∨ call.pc.stage = .checked →
    ∃ g, call.conn = some g ∧ Saw tr i CallPc.capturing g
  checked : call.pc.stage = .checked → ∃ g, call.conn = some g ∧ Saw tr i CallPc.checking g
  unhanded : call.pc.stage ≠ .over → ∀ g, (i, g) ∉ c.handed
  handed : ∀ g, (i, g) ∈ c.handed → Saw tr i CallPc.capturing g ∧ Saw tr i CallPc.checking g

/-- The call is where it was, and was not looking. -/
theorem Sent.same {tr' : List (Client × Action)} {call' : Call} (h : Sent tr c i call)
    (hcap : ∀ s, Looked tr' i CallPc.capturing s ↔ Looked tr i CallPc.capturing s)
    (hcheck : ∀ s, Looked tr' i CallPc.checking s ↔ Looked tr i CallPc.checking s)
    (hstage : call'.pc.stage = call.pc.stage) (hconn : call'.conn = call.conn)
    (hhanded : ∀ g, (i, g) ∈ c'.handed → (i, g) ∈ c.handed) : Sent tr' c' i call' := by
  refine ⟨?_, ?_, ?_, ?_, ?_, ?_⟩
  · rw [hstage]
    exact fun hs s hl => h.uncaptured hs s ((hcap s).mp hl)
  · rw [hstage]
    exact fun hs s hl => h.unchecked hs s ((hcheck s).mp hl)
  · rw [hstage, hconn]
    intro hs
    obtain ⟨g, hg, hsaw⟩ := h.captured hs
    exact ⟨g, hg, hsaw.congr hcap⟩
  · rw [hstage, hconn]
    intro hs
    obtain ⟨g, hg, hsaw⟩ := h.checked hs
    exact ⟨g, hg, hsaw.congr hcheck⟩
  · rw [hstage]
    exact fun hs g hg => h.unhanded hs g (hhanded g hg)
  · intro g hg
    obtain ⟨h₁, h₂⟩ := h.handed g (hhanded g hg)
    exact ⟨h₁.congr hcap, h₂.congr hcheck⟩

/-- A call whose sending is over, and whose frame was not handed over. -/
theorem Sent.over (hstage : call.pc.stage = .over) (hhanded : ∀ g, (i, g) ∉ c.handed) : Sent tr c i call := by
  refine ⟨?_, ?_, ?_, ?_, fun h => absurd hstage h, fun g hg => absurd hg (hhanded g)⟩ <;> rw [hstage] <;> nofun

theorem not_at (hcall : c.calls[i]? = some call) (hp : p call.pc = false) : ¬ At c.calls i fun call => p call.pc := by
  rintro ⟨x, hx, hpx⟩
  cases hcall.symm.trans hx
  rw [hp] at hpx
  cases hpx

theorem Sends.sent (how : Choice) (h : Sends c i call c') (hcall : c.calls[i]? = some call) (hsent : Sent tr c i call) :
    ∃ call', c'.calls = c.calls.set i call' ∧ Sent (tr ++ [(c, .step i how)]) c' i call' ∧
      ∀ j, j ≠ i → ∀ g, (j, g) ∈ c'.handed → (j, g) ∈ c.handed := by
  -- the step is no look of this kind
  have hsame {p : CallPc → Bool} (hp : p call.pc = false) (s : Client) :
      Looked (tr ++ [(c, .step i how)]) i p s ↔ Looked tr i p s := looked_other (fun _ _ => not_at hcall hp) s
  cases h with
  | captures g hpc hlive =>
    have hearly : call.pc.stage = .early := by rw [hpc]; rfl
    refine ⟨_, rfl, ⟨nofun, fun _ s hs => ?_, fun _ => ⟨g, rfl, ?_⟩, nofun, ?_, ?_⟩, fun _ _ _ h => h⟩
    · exact hsent.unchecked (.inl hearly) s ((hsame (by rw [hpc]; rfl) s).mp hs)
    · exact Saw.first (hsent.uncaptured hearly) ⟨call, hcall, by simp only [hpc]; rfl⟩ hlive
    · exact fun _ => hsent.unhanded (by rw [hearly]; nofun)
    · exact fun g hg => absurd hg (hsent.unhanded (by rw [hearly]; nofun) g)
  | passes g hpc hconn hlive =>
    have hcaptured : call.pc.stage = .captured := by rw [hpc]; rfl
    refine ⟨_, rfl, ⟨nofun, nofun, fun _ => ?_, fun _ => ⟨g, hconn, ?_⟩, ?_, ?_⟩, fun _ _ _ h => h⟩
    · obtain ⟨g', hg', hsaw⟩ := hsent.captured (.inl hcaptured)
      exact ⟨g', hg', hsaw.congr (hsame (by rw [hpc]; rfl))⟩
    · exact Saw.first (hsent.unchecked (.inr hcaptured)) ⟨call, hcall, by simp only [hpc]; rfl⟩ hlive
    · exact fun _ => hsent.unhanded (by rw [hcaptured]; nofun)
    · exact fun g hg => absurd hg (hsent.unhanded (by rw [hcaptured]; nofun) g)
  | hands hpc =>
    have hchecked : call.pc.stage = .checked := by rw [hpc]; rfl
    obtain ⟨g, hg, hcap⟩ := hsent.captured (.inr hchecked)
    obtain ⟨g', hg', hcheck⟩ := hsent.checked hchecked
    cases hg.symm.trans hg'
    have hhanded : c.handed ++ call.conn.toList.map (fun g => (i, g)) = c.handed ++ [(i, g)] := by rw [hg]; rfl
    refine ⟨_, rfl, ⟨nofun, nofun, nofun, nofun, fun h => absurd rfl h, fun x hx => ?_⟩, fun j hj x hx => ?_⟩
    · rcases List.mem_append.mp (hhanded ▸ hx) with hx | hx
      · exact absurd hx (hsent.unhanded (by rw [hchecked]; nofun) x)
      · cases List.mem_singleton.mp hx
        exact ⟨hcap.congr (hsame (by rw [hpc]; rfl)), hcheck.congr (hsame (by rw [hpc]; rfl))⟩
    · rcases List.mem_append.mp (hhanded ▸ hx) with hx | hx
      · exact hx
      · cases List.mem_singleton.mp hx
        exact absurd rfl hj
  | waits call' hcalls hconn hhanded hstage hcurrent =>
    refine ⟨call', hcalls, ?_, fun _ _ _ h => hhanded ▸ h⟩
    by_cases hover : call.pc.stage = .over
    · obtain ⟨hcap, hcheck⟩ := CallPc.over_looks hover
      refine hsent.same (hsame hcap) (hsame hcheck) ?_ hconn fun g h => hhanded ▸ h
      rcases hstage with h | h
      · rw [h, hover]
      · exact h.1
    · rcases hstage with h | ⟨h, hcap, hcheck⟩
      · exact Sent.over h (hhanded ▸ hsent.unhanded hover)
      · exact hsent.same (hsame hcap) (hsame hcheck) h hconn fun g h => hhanded ▸ h

/-! ## Runs -/

structure Isolated (tr : List (Client × Action)) (c : Client) : Prop where
  grown : ∀ s a, (s, a) ∈ tr → s.calls.length ≤ c.calls.length
  sent : ∀ i call, c.calls[i]? = some call → Sent tr c i call

/-- Whatever is no step of a call hands over nothing, and leaves the calls or adds one. -/
theorem StepEffect.idle (h : StepEffect c a c') (ha : ∀ i how, a ≠ .step i how) : c'.handed = c.handed ∧
    (c'.views = c.views ∨ ∃ call : Call, c'.views = c.views ++ [call.view] ∧ call.pc.sends call.kind = false) := by
  have hrun {c' : Client} (h : RunEffect c c') : c'.handed = c.handed := by
    cases h with
    | reports result =>
      unfold notifyStreamSend
      split <;> rfl
    | _ => rfl
  cases h with
  | call i how => exact absurd rfl (ha i how)
  | starts request kind pc hp hl hn hsends =>
    refine ⟨rfl, .inr ⟨newCall kind pc, ?_, hsends⟩⟩
    simp [views]
  | leaves i deadline call err hcall =>
    refine ⟨rfl, .inl ?_⟩
    simp only [views, setCall, List.map_set]
    show c.views.set i call.view = c.views
    obtain ⟨hlt, hview⟩ := List.getElem?_eq_some_iff.mp (views_get hcall)
    rw [← hview]
    exact List.set_getElem_self hlt
  | connects hpc heff => exact ⟨hrun heff, .inl heff.views⟩
  | run how heff => exact ⟨hrun heff, .inl heff.views⟩
  | closer j closer hj heff =>
    cases heff with
    | reports result =>
      unfold notifyStreamSend
      split <;> exact ⟨rfl, .inl rfl⟩
    | _ => exact ⟨rfl, .inl rfl⟩
  | _ => exact ⟨rfl, .inl rfl⟩

theorem view_same {call call' : Call} (h : call'.view = call.view) : call'.pc = call.pc ∧ call'.conn = call.conn := by
  simp only [Call.view, Call.mk.injEq] at h
  exact ⟨h.2.2.1, h.2.2.2.1⟩

/-- A call that a step leaves alone. -/
theorem Isolated.idle (hp : Pendings c) (hi : Isolated tr c) (h : StepEffect c a c') (ha : ∀ i how, a ≠ .step i how) :
    Isolated (tr ++ [(c, a)]) c' := by
  obtain ⟨hhanded, hviews⟩ := h.idle ha
  have hlen : c'.views.length = c'.calls.length ∧ c.views.length = c.calls.length := by simp [views]
  have hle : c.calls.length ≤ c'.calls.length := by
    rcases hviews with hviews | ⟨new, hviews, -⟩
    · rw [← hlen.1, ← hlen.2, hviews]
    · rw [← hlen.1, ← hlen.2, hviews, List.length_append]
      omega
  refine ⟨fun s b hmem => ?_, fun i call' hcall' => ?_⟩
  · rcases List.mem_append.mp hmem with hmem | hmem
    · exact Nat.le_trans (hi.grown s b hmem) hle
    · cases List.mem_singleton.mp hmem
      exact hle
  have hlooked (p : CallPc → Bool) (s : Client) : Looked (tr ++ [(c, a)]) i p s ↔ Looked tr i p s :=
    looked_other (fun how he => absurd he (ha i how)) s
  have hview := views_get hcall'
  cases hcall : c.calls[i]? with
  | some call =>
    have hold : c'.views[i]? = some call.view := by
      rcases hviews with hviews | ⟨new, hviews, -⟩
      · rw [hviews]
        exact views_get hcall
      · rw [hviews, List.getElem?_append_left (List.getElem?_eq_some_iff.mp (views_get hcall)).1]
        exact views_get hcall
    obtain ⟨hpc, hconn⟩ := view_same (Option.some.inj (hview.symm.trans hold))
    exact (hi.sent i call hcall).same (hlooked _) (hlooked _) (congrArg CallPc.stage hpc) hconn fun g h => hhanded ▸ h
  | none =>
    -- a new call has not looked and not handed over anything
    have hout := List.getElem?_eq_none_iff.mp hcall
    have hnone (p : CallPc → Bool) (s : Client) : ¬ Looked (tr ++ [(c, a)]) i p s := by
      rw [hlooked p s]
      rintro ⟨⟨how, hmem⟩, call, hcall, -⟩
      have := (List.getElem?_eq_some_iff.mp hcall).1
      have := hi.grown s _ hmem
      omega
    have hunhanded (g : Nat) : (i, g) ∉ c'.handed := by
      rw [hhanded]
      intro hmem
      obtain ⟨call, hx, -⟩ := hp.handed i g hmem
      cases hcall.symm.trans hx
    rcases hviews with hviews | ⟨new, hviews, hsends⟩
    · rw [hviews, List.getElem?_eq_none_iff.mpr (by rw [hlen.2]; exact hout)] at hview
      cases hview
    · rw [hviews, List.getElem?_append_right (by rw [hlen.2]; exact hout)] at hview
      have hnew : new.view = call'.view := by
        cases hidx : i - c.views.length with
        | zero => rw [hidx] at hview; exact Option.some.inj hview
        | succ n => rw [hidx] at hview; cases hview
      have hstage : call'.pc.stage ≠ .captured ∧ call'.pc.stage ≠ .checked := by
        rw [(view_same hnew).1] at hsends
        exact CallPc.stage_of_not_sends hsends
      exact ⟨fun _ => hnone _, fun _ => hnone _, fun h => absurd h (not_or.mpr hstage), fun h => absurd h hstage.2,
        fun _ => hunhanded, fun g h => absurd h (hunhanded g)⟩

theorem Isolated.callStep (hs : Sound c) (hi : Isolated tr c) (hcall : c.calls[i]? = some call)
    (h : c.callStep i how = some c') : Isolated (tr ++ [(c, .step i how)]) c' := by
  obtain ⟨call', hcalls, hsent, hothers⟩ := (callStep_sends hs hcall h).sent how hcall (hi.sent i call hcall)
  refine ⟨fun s b hmem => ?_, fun j x hx => ?_⟩
  · rw [hcalls, List.length_set]
    rcases List.mem_append.mp hmem with hmem | hmem
    · exact hi.grown s b hmem
    · cases List.mem_singleton.mp hmem
      exact Nat.le_refl _
  · rw [hcalls] at hx
    rcases Slots.get_set hx with ⟨rfl, rfl⟩ | ⟨hij, hx⟩
    · exact hsent
    · have hlooked (p : CallPc → Bool) (s : Client) : Looked (tr ++ [(c, .step i how)]) j p s ↔ Looked tr j p s := by
        refine looked_other (fun how' he => ?_) s
        cases he
        exact absurd rfl hij
      exact (hi.sent j x hx).same (hlooked _) (hlooked _) rfl rfl (hothers j hij)

theorem Isolated.step (hs : Sound c) (hp : Pendings c) (hi : Isolated tr c) (h : c.step a = some c') :
    Isolated (tr ++ [(c, a)]) c' := by
  have heff := step_effect hs.placed h
  cases a with
  | step i how =>
    cases heff with
    | call _ _ call hcall _ => exact hi.callStep hs hcall h
  | _ => exact hi.idle hp heff nofun

/-- In every run: a client is authenticated exactly when it has a transport, and keeps no
    login info without one; a frame was handed to a transport only by a call that found it
    current when it captured it and when it looked again; and what is current changes only by a
    login, by `Close` and by a failure of the current transport. -/
theorem generations_isolated (h : Trace step free Initial tr c) :
    c.authenticated = c.conn.isSome ∧ (c.authenticated = false → c.loginInfo = .zero) ∧
    (∀ i g, (i, g) ∈ c.handed → Saw tr i CallPc.capturing g ∧ Saw tr i CallPc.checking g) ∧
    ∀ a c', c.step a = some c' → c'.current = c.current ∨ Causes c a := by
  have hs := sound h.reach
  have hi : Isolated tr c := by
    refine h.keeps ?_ fun tr c a c' htr hi _ h => hi.step (sound htr.reach) (pendings htr.reach) h
    rintro c ⟨cfg, rfl⟩
    refine ⟨fun _ _ h => absurd h List.not_mem_nil, fun i call hcall => ?_⟩
    simp [new] at hcall
  refine ⟨hs.generations.authenticated, hs.generations.loginInfo, fun i g hmem => ?_, fun a c' => current_changes hs⟩
  obtain ⟨call, hcall, -⟩ := (pendings h.reach).handed i g hmem
  exact (hi.sent i call hcall).handed g hmem

end

/-- A frame that waits while its transport is replaced is not written; one of the new transport
    is. -/
theorem generations_isolated_replaced : ∃ (tr : List (Client × Action)) (c : Client),
    Trace step free Initial tr c ∧ c.handed = [(1, 1)] ∧ c.conn = some 1 ∧
    Saw tr 1 CallPc.capturing 1 ∧ Saw tr 1 CallPc.checking 1 := by
  have h : ((record (guarded step free) [] (.new sampleConfig) (List.flatten [[.connect], logsIn, [.call .frame], runs 0 1,
      disconnects 6, logsIn, [.call .frame], runs 0 3, runs 1 4])).any fun r =>
        r.2.handed = [(1, 1)] ∧ r.2.conn = some 1) = true := by
    decide +kernel
  obtain ⟨tr, c, htr, hw⟩ := trace_any (I := Initial) _ ⟨sampleConfig, rfl⟩ h
  simp only [decide_eq_true_eq] at hw
  obtain ⟨hhanded, hconn⟩ := hw
  have hsaw := (generations_isolated htr).2.2.1 1 1 (by rw [hhanded]; exact List.mem_singleton_self _)
  exact ⟨tr, c, htr, hhanded, hconn, hsaw.1, hsaw.2⟩

end Turntf.Client
