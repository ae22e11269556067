/-
  Turntf.Client.Reconnect — the loop of `run`: who hears of the first connection, and how long
  the client waits before the next one (`run`, `connectAndServe`, `signalFirstConnect` of
  `client.go`).

  `RunPc.phase` is where `run` is in its loop, and `Turns` what a step of the client means to
  it. An outcome of `connectAndServe` is a failure before login or a session that is over;
  `connectAndServe` never returns nil, so the branch that resets the delay is never taken.

  - `slept_doubles`: so the delay doubles from wait to wait, whatever the outcomes were.
  - `connect_answered`: if every `Close` that `run` sees while it waits comes after a login,
    `run` has answered `Connect` when it returns. `connect_unanswered`: it has not if `Close`
    comes in the wait after a first connection that failed.
  - `backoff_delays`: the delays are those of consecutive failures as long as no session comes
    before a wait other than the first, or the two bounds are the same.
    `backoff_not_reset`: they are not after a failure and a session.
-/

import Mathlib.Algebra.Order.Ring.Int
import Mathlib.Data.List.TakeWhile
import Mathlib.Tactic.Positivity
import Turntf.Client.Generations

namespace Turntf.Client

open Lts

/-! ## The loop -/

inductive Phase where
  | off
  | connecting
  | signalling
  | serving
  | reset
  | deciding
  | waiting
  | refusing
  | failing
  | exited
  deriving DecidableEq

def RunPc.phase : RunPc → Phase
  | .off => .off
  | .start | .connect | .login _ => .connecting
  | .signal _ => .signalling
  | .decide none => .reset
  | .decide (some _) => .deciding
  | .backoff => .waiting
  | .signalLast _ => .refusing
  | .failLast _ => .failing
  | .exited => .exited
  | _ => .serving

/-- How a `connectAndServe` ended: before login, or after a session. -/
inductive Outcome where
  | failure
  | session
  deriving DecidableEq

/-- The outcome with which `run` leaves `connectAndServe`. -/
def ended : Phase → Phase → Option Outcome
  | .connecting, .deciding => some .failure
  | .serving, .deciding => some .session
  | _, _ => none

/-- What a step of a run ended. -/
def outcome (e : Client × Action) : Option Outcome :=
  (e.1.step e.2).bind fun c' => ended e.1.run.phase c'.run.phase

/-- What the loop reads and writes. -/
def loop (c : Client) : Config × Option (Option Err) × Int × List Int × Nat :=
  (c.cfg, c.firstConnect, c.delay, c.slept, c.logins)

/-- A step of the client as a turn of the loop. -/
inductive Turns (c : Client) (a : Action) (c' : Client) : Prop
  | goes (hphase : c'.run.phase = c.run.phase) (hloop : c'.loop = c.loop)
  | starts (hphase : c.run.phase = .off) (hphase' : c'.run.phase = .connecting) (hloop : c'.loop = c.loop)
  | fails (hphase : c.run.phase = .connecting) (hphase' : c'.run.phase = .deciding) (hloop : c'.loop = c.loop)
  | logsIn (hphase : c.run.phase = .connecting) (hphase' : c'.run.phase = .signalling)
      (hloop : c'.loop = { c with logins := c.logins + 1 }.loop)
  | signals (hphase : c.run.phase = .signalling) (hphase' : c'.run.phase = .serving)
      (hloop : c'.loop = (c.signalFirstConnect none).loop)
  | loses (hphase : c.run.phase = .serving) (hphase' : c'.run.phase = .deciding) (hloop : c'.loop = c.loop)
  | decides (hphase : c.run.phase = .deciding) (hphase' : c'.run.phase = .waiting ∨ c'.run.phase = .refusing)
      (hloop : c'.loop = c.loop)
  | sleeps (ha : a = .serve .go) (hphase : c.run.phase = .waiting) (hphase' : c'.run.phase = .connecting)
      (hloop : c'.loop = c.backoffStep.loop)
  | cancels (ha : a = .serve .closed) (hphase : c.run.phase = .waiting) (hphase' : c'.run.phase = .failing)
      (hloop : c'.loop = c.loop)
  | refuses (err : Err) (hphase : c.run.phase = .refusing) (hphase' : c'.run.phase = .failing)
      (hloop : c'.loop = (c.signalFirstConnect (some err)).loop)
  | exits (hphase : c.run.phase = .failing) (hphase' : c'.run.phase = .exited) (hloop : c'.loop = c.loop)
  | resets (hphase : c.run.phase = .reset)

section

variable {c c' : Client} {a : Action} {how : Serve}

/-- A step of the read loop or of the teardown. -/
theorem Turns.serves (hphase : c.run.phase = .serving) (hphase' : c'.run.phase = .serving) (hloop : c'.loop = c.loop) :
    Turns c a c' :=
  .goes (hphase'.trans hphase.symm) hloop

theorem notifyStreamSend_loop (c : Client) (result : StreamSendResult) : (c.notifyStreamSend result).loop = c.loop := by
  unfold notifyStreamSend
  split <;> rfl

theorem signalFirstConnect_run (c : Client) (err : Option Err) (pc : RunPc) :
    ((c.signalFirstConnect err).runAt pc).loop = (c.signalFirstConnect err).loop := by
  unfold signalFirstConnect
  split <;> rfl

theorem serveStep_turns (h : c.serveStep how = some c') : Turns c (.serve how) c' := by
  unfold serveStep at h
  split at h
  case h_1 hpc =>
    cases h
    by_cases hclosed : c.closed
    · rw [if_pos hclosed]
      exact .fails (by rw [hpc]; rfl) rfl rfl
    · rw [if_neg hclosed]
      exact .goes (by rw [hpc]; rfl) rfl
  case h_2 outcome hpc =>
    cases h
    have hphase : c.run.phase = .connecting := by rw [hpc]; rfl
    cases outcome with
    | failed | refused | unexpected => exact .fails hphase rfl rfl
    | response info =>
      simp only [loginStep]
      split
      · exact .fails hphase rfl rfl
      · exact .goes hphase.symm rfl
  case h_3 hpc => cases h; exact .logsIn (by rw [hpc]; rfl) rfl rfl
  case h_4 hpc => cases h; exact .signals (by rw [hpc]; rfl) rfl (signalFirstConnect_run c none _)
  case h_5 env hpc =>
    cases h
    have hphase : c.run.phase = .serving := by rw [hpc]; rfl
    cases env with
    | response | streamFrameResult | other => exact .serves hphase rfl rfl
    | error code message requestID =>
      simp only [handleServerEnvelope]
      split <;> exact .serves hphase rfl rfl
  case h_6 hpc => cases h; exact .serves (by rw [hpc]; rfl) rfl rfl
  case h_7 hpc =>
    cases h
    unfold resolveStep
    split <;> exact .serves (by rw [hpc]; rfl) rfl rfl
  case h_8 hpc => cases h; exact .serves (by rw [hpc]; rfl) rfl rfl
  case h_9 hpc =>
    cases h
    unfold completeStep
    split <;> exact .serves (by rw [hpc]; rfl) rfl rfl
  case h_10 g result hpc => cases h; exact .serves (by rw [hpc]; rfl) rfl (notifyStreamSend_loop c result)
  case h_11 hpc => cases h; exact .serves (by rw [hpc]; rfl) rfl rfl
  case h_12 hpc => cases h; exact .serves (by rw [hpc]; rfl) rfl rfl
  case h_13 hpc => cases h; exact .serves (by rw [hpc]; rfl) rfl rfl
  case h_14 g err results hpc =>
    cases h
    cases results with
    | nil => exact .loses (by rw [hpc]; rfl) rfl rfl
    | cons result results => exact .serves (by rw [hpc]; rfl) rfl (notifyStreamSend_loop c result)
  case h_15 err hpc =>
    cases h
    cases err with
    | none => exact .resets (by rw [hpc]; rfl)
    | some err =>
      refine .decides (by rw [hpc]; rfl) ?_ rfl
      simp only [decideStep, runAt]
      split
      · exact .inr rfl
      · exact .inl rfl
  case h_16 err hpc => cases h; exact .refuses err (by rw [hpc]; rfl) rfl (signalFirstConnect_run c _ _)
  case h_17 hpc => cases h; exact .exits (by rw [hpc]; rfl) rfl rfl
  case h_18 hpc => cases h; exact .sleeps rfl (by rw [hpc]; rfl) rfl rfl
  case h_19 hpc =>
    split at h
    · cases h
      exact .cancels rfl (by rw [hpc]; rfl) rfl rfl
    · cases h
  case h_20 => cases h

theorem step_turns (hs : Sound c) (h : c.step a = some c') : Turns c a c' := by
  cases step_effect hs.placed h with
  | call i how call hcall heff =>
    cases heff with
    | invalidates g pc' =>
      unfold invalidateTransport
      split <;> exact .goes rfl rfl
    | _ => exact .goes rfl rfl
  | connects hpc heff =>
    have hconnect : c' = c.runAt .start := by
      simp only [step, connect, hpc, Option.some.injEq] at h
      exact h.symm
    subst hconnect
    exact .starts (by rw [hpc]; rfl) rfl rfl
  | run how heff => exact serveStep_turns h
  | closer j closer hj heff =>
    cases heff with
    | reports result =>
      unfold notifyStreamSend
      split <;> exact .goes rfl rfl
    | _ => exact .goes rfl rfl
  | _ => exact .goes rfl rfl

theorem loop_eq {d : Client} (h : c'.loop = d.loop) : c'.cfg = d.cfg ∧ c'.firstConnect = d.firstConnect ∧
    c'.delay = d.delay ∧ c'.slept = d.slept ∧ c'.logins = d.logins := by
  simpa only [loop, Prod.mk.injEq] using h

/-- `signalFirstConnect` puts a value in, or finds one. -/
theorem signalFirstConnect_ne_none (c : Client) (err : Option Err) : (c.signalFirstConnect err).firstConnect ≠ none := by
  unfold signalFirstConnect
  split
  · nofun
  · rename_i h
    rw [h]
    nofun

theorem signalFirstConnect_loop (c : Client) (err : Option Err) : (c.signalFirstConnect err).cfg = c.cfg ∧
    (c.signalFirstConnect err).delay = c.delay ∧ (c.signalFirstConnect err).slept = c.slept ∧
    (c.signalFirstConnect err).logins = c.logins := by
  unfold signalFirstConnect
  split <;> exact ⟨rfl, rfl, rfl, rfl⟩

end

section

variable {ok : Client → Action → Prop} {c c' : Client} {a : Action} {tr : List (Client × Action)}

/-- `connectAndServe` never returns nil. -/
theorem never_reset (h : Reach step ok Initial c) : c.run.phase ≠ .reset := by
  refine h.keeps (P := fun c => c.run.phase ≠ .reset) ?_ fun c a c' hr hp _ h => ?_
  · rintro c ⟨cfg, rfl⟩
    nofun
  · cases step_turns (sound hr) h with
    | goes hphase hloop => rwa [hphase]
    | resets hphase => exact absurd hphase hp
    | decides hphase hphase' hloop => rcases hphase' with h | h <;> rw [h] <;> nofun
    | starts _ hphase' | fails _ hphase' | logsIn _ hphase' | signals _ hphase' | loses _ hphase' | sleeps _ _ hphase'
    | cancels _ _ hphase' | refuses _ _ hphase' | exits _ hphase' => rw [hphase']; nofun

/-! ## The first connection -/

/-- `run` sees the cancelled context in a wait only when some transport has logged in. -/
def Heard (c : Client) : Action → Prop
  | .serve .closed => 0 < c.logins
  | _ => True

instance (c : Client) : (a : Action) → Decidable (Heard c a)
  | .serve .closed => inferInstanceAs (Decidable (0 < c.logins))
  | .serve .go | .serve (.login _) | .serve (.receive _) | .serve (.fail _) => .isTrue trivial
  | .connect | .call _ | .step _ _ | .done _ _ | .cleanup _ | .close | .closeStep _ => .isTrue trivial

structure Told (c : Client) : Prop where
  served : 0 < c.logins → c.run.phase ≠ .signalling → c.firstConnect ≠ none
  last : c.run.phase = .failing ∨ c.run.phase = .exited → c.firstConnect ≠ none

theorem told (h : Reach step Heard Initial c) : Told c := by
  refine h.keeps ?_ fun c a c' hr ht hok h => ?_
  · rintro c ⟨cfg, rfl⟩
    exact ⟨nofun, by rintro (h | h) <;> cases h⟩
  -- a step that signals nothing, from any phase but the one that is about to
  have hkeep (hloop : c'.loop = c.loop) (hphase : c.run.phase ≠ .signalling)
      (hlast : c'.run.phase = .failing ∨ c'.run.phase = .exited → c.firstConnect ≠ none) : Told c' := by
    obtain ⟨_, hfirst, _, _, hlogins⟩ := loop_eq hloop
    refine ⟨?_, ?_⟩
    · rw [hfirst, hlogins]
      exact fun hpos _ => ht.served hpos hphase
    · rwa [hfirst]
  have hsignal (err : Option Err) (hloop : c'.loop = (c.signalFirstConnect err).loop) : Told c' := by
    have hfirst : c'.firstConnect ≠ none := (loop_eq hloop).2.1 ▸ signalFirstConnect_ne_none c err
    exact ⟨fun _ _ => hfirst, fun _ => hfirst⟩
  cases step_turns (sound hr) h with
  | goes hphase hloop =>
    obtain ⟨_, hfirst, _, _, hlogins⟩ := loop_eq hloop
    exact ⟨by rw [hfirst, hlogins, hphase]; exact ht.served, by rw [hfirst, hphase]; exact ht.last⟩
  | starts hphase hphase' hloop | fails hphase hphase' hloop | loses hphase hphase' hloop =>
    exact hkeep hloop (by rw [hphase]; nofun) (by rw [hphase']; rintro (h | h) <;> cases h)
  | logsIn hphase hphase' hloop =>
    exact ⟨fun _ hne => absurd hphase' hne, by rw [hphase']; rintro (h | h) <;> cases h⟩
  | signals hphase hphase' hloop => exact hsignal none hloop
  | refuses err hphase hphase' hloop => exact hsignal (some err) hloop
  | decides hphase hphase' hloop =>
    refine hkeep hloop (by rw [hphase]; nofun) ?_
    rcases hphase' with h | h <;> rw [h] <;> rintro (h | h) <;> cases h
  | sleeps ha hphase hphase' hloop =>
    obtain ⟨_, hfirst, _, _, hlogins⟩ := loop_eq hloop
    refine ⟨?_, by rw [hphase']; rintro (h | h) <;> cases h⟩
    rw [hfirst, hlogins]
    exact fun hpos _ => ht.served hpos (by rw [hphase]; nofun)
  | cancels ha hphase hphase' hloop =>
    subst ha
    exact hkeep hloop (by rw [hphase]; nofun) fun _ => ht.served hok (by rw [hphase]; nofun)
  | exits hphase hphase' hloop => exact hkeep hloop (by rw [hphase]; nofun) fun _ => ht.last (.inl hphase)
  | resets hphase => exact absurd hphase (never_reset hr)

end

/-- The outcomes of a run, the first one first. -/
def outcomes (tr : List (Client × Action)) : List Outcome := tr.filterMap outcome

/-- The consecutive failures right before the latest outcome, none if that is a session. The
    latest comes first. -/
def streak : List Outcome → Nat
  | .failure :: before => (before.takeWhile (· = .failure)).length
  | _ => 0

/-- The delay after so many doublings. -/
def Config.delayAfter (cfg : Config) (n : Nat) : Int := min (cfg.initialReconnectDelay * 2 ^ n) cfg.maxReconnectDelay

section

variable {ok : Client → Action → Prop} {c c' : Client} {a : Action} {tr : List (Client × Action)}

theorem Config.delayAfter_succ {cfg : Config} {delay : Int} {n : Nat} (hpos : 0 < cfg.initialReconnectDelay)
    (hle : cfg.initialReconnectDelay ≤ cfg.maxReconnectDelay) (h : delay = cfg.delayAfter n) :
    (if delay * 2 > cfg.maxReconnectDelay then cfg.maxReconnectDelay else delay * 2) = cfg.delayAfter (n + 1) := by
  have hpow : cfg.initialReconnectDelay * 2 ^ (n + 1) = cfg.initialReconnectDelay * 2 ^ n * 2 := by
    rw [pow_succ, mul_assoc]
  have hx : 0 < cfg.initialReconnectDelay * 2 ^ n := by positivity
  unfold Config.delayAfter at h ⊢
  rw [hpow]
  split <;> omega

/-- All delays are the same when the bounds are. -/
theorem Config.delayAfter_const {cfg : Config} (hpos : 0 < cfg.initialReconnectDelay)
    (heq : cfg.initialReconnectDelay = cfg.maxReconnectDelay) (n : Nat) : cfg.delayAfter n = cfg.maxReconnectDelay := by
  have hpow : (1 : Int) ≤ 2 ^ n := one_le_pow₀ (by decide)
  unfold Config.delayAfter
  rw [← heq]
  exact min_eq_right (le_mul_of_one_le_right hpos.le hpow)

/-- Only a wait changes the delay. -/
theorem Turns.waits (h : Turns c a c') (hne : c.run.phase ≠ .reset) : c'.cfg = c.cfg ∧
    (c'.delay = c.delay ∧ c'.slept = c.slept ∨ a = .serve .go ∧ c.run.phase = .waiting ∧ c'.run.phase = .connecting ∧
      c'.delay = c.backoffStep.delay ∧ c'.slept = c.slept ++ [c.delay]) := by
  have hsignal (err : Option Err) (hloop : c'.loop = (c.signalFirstConnect err).loop) :
      c'.cfg = c.cfg ∧ c'.delay = c.delay ∧ c'.slept = c.slept := by
    obtain ⟨hcfg, _, hdelay, hslept, _⟩ := loop_eq hloop
    obtain ⟨hcfg', hdelay', hslept', _⟩ := signalFirstConnect_loop c err
    exact ⟨hcfg.trans hcfg', hdelay.trans hdelay', hslept.trans hslept'⟩
  cases h with
  | goes _ hloop | starts _ _ hloop | fails _ _ hloop | loses _ _ hloop | decides _ _ hloop | cancels _ _ _ hloop
  | exits _ _ hloop | logsIn _ _ hloop =>
    obtain ⟨hcfg, _, hdelay, hslept, _⟩ := loop_eq hloop
    exact ⟨hcfg, .inl ⟨hdelay, hslept⟩⟩
  | signals _ _ hloop => exact (hsignal none hloop).imp_right .inl
  | refuses err _ _ hloop => exact (hsignal (some err) hloop).imp_right .inl
  | sleeps ha hphase hphase' hloop =>
    obtain ⟨hcfg, _, hdelay, hslept, _⟩ := loop_eq hloop
    exact ⟨hcfg, .inr ⟨ha, hphase, hphase', hdelay, hslept⟩⟩
  | resets hphase => exact absurd hphase hne

structure Doubles (c : Client) : Prop where
  positive : 0 < c.cfg.initialReconnectDelay
  delay : c.delay = c.cfg.delayAfter c.slept.length
  slept : ∀ k d, c.slept[k]? = some d → d = c.cfg.delayAfter k

theorem Doubles.same (h : Doubles c) (hcfg : c'.cfg = c.cfg) (hdelay : c'.delay = c.delay) (hslept : c'.slept = c.slept) :
    Doubles c' :=
  ⟨by rw [hcfg]; exact h.positive, by rw [hdelay, hcfg, hslept]; exact h.delay, by rw [hslept, hcfg]; exact h.slept⟩

/-- Whatever the outcomes were, the delay doubles from wait to wait. -/
theorem slept_doubles (h : Reach step ok Initial c) (hle : c.cfg.initialReconnectDelay ≤ c.cfg.maxReconnectDelay) :
    Doubles c := by
  revert hle
  refine h.keeps (P := fun c => c.cfg.initialReconnectDelay ≤ c.cfg.maxReconnectDelay → Doubles c) ?_
    fun c a c' hr hd _ h hle => ?_
  · rintro c ⟨cfg, rfl⟩ hle
    have hpos : 0 < cfg.normalized.initialReconnectDelay := by
      simp only [Config.normalized]
      split <;> omega
    refine ⟨hpos, ?_, nofun⟩
    simp only [new, Config.delayAfter, List.length_nil, pow_zero, mul_one] at hle ⊢
    omega
  obtain ⟨hcfg, hwaits⟩ := (step_turns (sound hr) h).waits (never_reset hr)
  have hd := hd (hcfg ▸ hle)
  rcases hwaits with ⟨hdelay, hslept⟩ | ⟨-, -, -, hdelay, hslept⟩
  · exact hd.same hcfg hdelay hslept
  · refine ⟨hcfg ▸ hd.positive, ?_, fun k d hk => ?_⟩
    · rw [hcfg, hslept, List.length_append]
      rw [hcfg] at hle
      exact hdelay.trans (Config.delayAfter_succ hd.positive hle hd.delay)
    · rw [hcfg]
      rw [hslept] at hk
      rcases Slots.get_snoc hk with hk | ⟨rfl, rfl⟩
      · exact hd.slept k d hk
      · exact hd.delay

/-! ## Delays and outcomes -/

/-- At a wait, no transport has logged in yet, or it is the first wait, or all delays are the
    same. -/
def Level (c : Client) : Action → Prop
  | .serve .go => c.run.phase = .waiting →
      c.logins = 0 ∨ c.slept = [] ∨ c.cfg.initialReconnectDelay = c.cfg.maxReconnectDelay
  | _ => True

instance (c : Client) : (a : Action) → Decidable (Level c a)
  | .serve .go => inferInstanceAs (Decidable (c.run.phase = .waiting →
      c.logins = 0 ∨ c.slept = [] ∨ c.cfg.initialReconnectDelay = c.cfg.maxReconnectDelay))
  | .serve .closed | .serve (.login _) | .serve (.receive _) | .serve (.fail _) => .isTrue trivial
  | .connect | .call _ | .step _ _ | .done _ _ | .cleanup _ | .close | .closeStep _ => .isTrue trivial

/-- From an outcome to the next connection, or to the end. -/
def Phase.after : Phase → Bool
  | .deciding | .waiting | .refusing | .failing | .exited => true
  | _ => false

/-- A transport has logged in and its session is not over. -/
def Phase.session : Phase → Bool
  | .signalling | .serving => true
  | _ => false

/-- The outcomes of a run: one for each wait, and one that `run` has yet to wait after. -/
structure Counted (tr : List (Client × Action)) (c : Client) : Prop where
  count : (outcomes tr).length = c.slept.length + if c.run.phase.after then 1 else 0
  session : c.run.phase.session → 0 < c.logins
  failures : c.logins = 0 → ∀ o ∈ outcomes tr, o = .failure

theorem outcomes_append (h : c.step a = some c') :
    outcomes (tr ++ [(c, a)]) = outcomes tr ++ (ended c.run.phase c'.run.phase).toList := by
  have hout : outcome (c, a) = ended c.run.phase c'.run.phase := by simp [outcome, h]
  rw [outcomes, List.filterMap_append, outcomes]
  cases ho : ended c.run.phase c'.run.phase <;> simp [hout, ho]

/-- A step that ends no `connectAndServe`. -/
theorem Counted.quiet (hc : Counted tr c) (h : c.step a = some c') (p p' : Phase) (hphase : c.run.phase = p)
    (hphase' : c'.run.phase = p') (hended : ended p p' = none) (hafter : p'.after = p.after) (hslept : c'.slept = c.slept)
    (hlogins : c.logins ≤ c'.logins) (hsession : p'.session → p.session ∨ 0 < c'.logins) :
    Counted (tr ++ [(c, a)]) c' := by
  subst hphase hphase'
  have hout : outcomes (tr ++ [(c, a)]) = outcomes tr := by
    rw [outcomes_append h, hended]
    exact List.append_nil _
  refine ⟨?_, fun hs => ?_, fun hzero => ?_⟩
  · rw [hout, hslept, hafter]
    exact hc.count
  · rcases hsession hs with hs | hs
    · exact Nat.lt_of_lt_of_le (hc.session hs) hlogins
    · exact hs
  · rw [hout]
    exact hc.failures (by omega)

theorem Counted.ends (hc : Counted tr c) (h : c.step a = some c') {o : Outcome} (p : Phase) (hphase : c.run.phase = p)
    (hphase' : c'.run.phase = .deciding) (hended : ended p .deciding = some o) (hafter : p.after = false)
    (hloop : c'.loop = c.loop) (ho : c.logins = 0 → o = .failure) : Counted (tr ++ [(c, a)]) c' := by
  subst hphase
  obtain ⟨_, _, _, hslept, hlogins⟩ := loop_eq hloop
  have hout : outcomes (tr ++ [(c, a)]) = outcomes tr ++ [o] := by
    rw [outcomes_append h, hphase', hended]
    rfl
  refine ⟨?_, by rw [hphase']; nofun, fun hzero => ?_⟩
  · have hcount := hc.count
    rw [hafter] at hcount
    rw [hout, hslept, hphase', List.length_append, hcount]
    rfl
  · rw [hlogins] at hzero
    rw [hout]
    intro x hx
    rcases List.mem_append.mp hx with hx | hx
    · exact hc.failures hzero x hx
    · rw [List.mem_singleton.mp hx]
      exact ho hzero

theorem counted (h : Trace step ok Initial tr c) : Counted tr c := by
  refine h.keeps ?_ fun tr c a c' htr hc _ h => ?_
  · rintro c ⟨cfg, rfl⟩
    exact ⟨rfl, nofun, fun _ _ h => absurd h List.not_mem_nil⟩
  cases step_turns (sound htr.reach) h with
  | goes hphase hloop =>
    obtain ⟨_, _, _, hslept, hlogins⟩ := loop_eq hloop
    refine hc.quiet h c.run.phase c.run.phase rfl hphase ?_ rfl hslept (Nat.le_of_eq hlogins.symm) .inl
    cases c.run.phase <;> rfl
  | starts hphase hphase' hloop =>
    obtain ⟨_, _, _, hslept, hlogins⟩ := loop_eq hloop
    exact hc.quiet h .off .connecting hphase hphase' rfl rfl hslept (Nat.le_of_eq hlogins.symm) nofun
  | fails hphase hphase' hloop => exact hc.ends h .connecting hphase hphase' rfl rfl hloop fun _ => rfl
  | logsIn hphase hphase' hloop =>
    obtain ⟨_, _, _, hslept, hlogins⟩ := loop_eq hloop
    have hlogins : c'.logins = c.logins + 1 := hlogins
    exact hc.quiet h .connecting .signalling hphase hphase' rfl rfl hslept (by omega) fun _ => .inr (by omega)
  | signals hphase hphase' hloop =>
    obtain ⟨_, _, _, hslept, hlogins⟩ := loop_eq hloop
    obtain ⟨_, _, hslept', hlogins'⟩ := signalFirstConnect_loop c none
    exact hc.quiet h .signalling .serving hphase hphase' rfl rfl (hslept.trans hslept')
      (Nat.le_of_eq (hlogins.trans hlogins').symm) fun _ => .inl rfl
  | loses hphase hphase' hloop =>
    refine hc.ends h .serving hphase hphase' rfl rfl hloop fun hzero => ?_
    have := hc.session (by rw [hphase]; rfl)
    omega
  | decides hphase hphase' hloop =>
    obtain ⟨_, _, _, hslept, hlogins⟩ := loop_eq hloop
    rcases hphase' with hphase' | hphase'
    · exact hc.quiet h .deciding .waiting hphase hphase' rfl rfl hslept (Nat.le_of_eq hlogins.symm) nofun
    · exact hc.quiet h .deciding .refusing hphase hphase' rfl rfl hslept (Nat.le_of_eq hlogins.symm) nofun
  | sleeps ha hphase hphase' hloop =>
    obtain ⟨_, _, _, hslept, hlogins⟩ := loop_eq hloop
    have hslept : c'.slept = c.slept ++ [c.delay] := hslept
    have hlogins : c'.logins = c.logins := hlogins
    have hout : outcomes (tr ++ [(c, a)]) = outcomes tr := by
      rw [outcomes_append h, hphase, hphase']
      exact List.append_nil _
    have hcount := hc.count
    rw [hphase] at hcount
    refine ⟨?_, by rw [hphase']; nofun, ?_⟩
    · rw [hout, hphase', hslept, List.length_append]
      exact hcount
    · rw [hout, hlogins]
      exact hc.failures
  | cancels ha hphase hphase' hloop =>
    obtain ⟨_, _, _, hslept, hlogins⟩ := loop_eq hloop
    exact hc.quiet h .waiting .failing hphase hphase' rfl rfl hslept (Nat.le_of_eq hlogins.symm) nofun
  | refuses err hphase hphase' hloop =>
    obtain ⟨_, _, _, hslept, hlogins⟩ := loop_eq hloop
    obtain ⟨_, _, hslept', hlogins'⟩ := signalFirstConnect_loop c (some err)
    exact hc.quiet h .refusing .failing hphase hphase' rfl rfl (hslept.trans hslept')
      (Nat.le_of_eq (hlogins.trans hlogins').symm) nofun
  | exits hphase hphase' hloop =>
    obtain ⟨_, _, _, hslept, hlogins⟩ := loop_eq hloop
    exact hc.quiet h .failing .exited hphase hphase' rfl rfl hslept (Nat.le_of_eq hlogins.symm) nofun
  | resets hphase => exact absurd hphase (never_reset htr.reach)

theorem streak_failures {os : List Outcome} (h : ∀ o ∈ os, o = .failure) : streak os = os.length - 1 := by
  cases os with
  | nil => rfl
  | cons o before =>
    rw [h o List.mem_cons_self]
    have hbefore : before.takeWhile (· = .failure) = before :=
      List.takeWhile_eq_self_iff.mpr fun o ho => decide_eq_true (h o (List.mem_cons_of_mem _ ho))
    simp [streak, hbefore]

theorem streak_singleton (o : Outcome) : streak [o] = 0 := by
  cases o <;> rfl

/-- At a wait the delay is that of the failures so far. -/
theorem level_delay (hd : Doubles c) (hc : Counted tr c) (hphase : c.run.phase = .waiting)
    (hlevel : c.logins = 0 ∨ c.slept = [] ∨ c.cfg.initialReconnectDelay = c.cfg.maxReconnectDelay) :
    c.delay = c.cfg.delayAfter (streak (outcomes tr).reverse) := by
  have hcount := hc.count
  rw [hphase] at hcount
  have hcount : (outcomes tr).length = c.slept.length + 1 := hcount
  rw [hd.delay]
  rcases hlevel with hzero | hnil | heq
  · have hfail : ∀ o ∈ (outcomes tr).reverse, o = .failure := fun o ho =>
      hc.failures hzero o (List.mem_reverse.mp ho)
    rw [streak_failures hfail, List.length_reverse, hcount]
    rfl
  · rw [hnil] at hcount ⊢
    obtain ⟨o, ho⟩ := List.length_eq_one_iff.mp hcount
    rw [ho, List.reverse_singleton, streak_singleton]
    rfl
  · rw [Config.delayAfter_const hd.positive heq, Config.delayAfter_const hd.positive heq]

/-- In a run where at each wait no transport has logged in yet, or it is the first one, or the
    two bounds are the same: the delay after the outcome `k` is that of the consecutive failures
    right before it, and a wait comes after each outcome. -/
theorem backoff_delays (h : Trace step Level Initial tr c)
    (hle : c.cfg.initialReconnectDelay ≤ c.cfg.maxReconnectDelay) :
    (∀ k d, c.slept[k]? = some d → d = c.cfg.delayAfter (streak ((outcomes tr).take (k + 1)).reverse)) ∧
    (c.run = .backoff → (outcomes tr).length = c.slept.length + 1) := by
  refine ⟨?_, fun hpc => by simpa [hpc, RunPc.phase, Phase.after] using (counted h).count⟩
  revert hle
  refine h.keeps (P := fun tr c => c.cfg.initialReconnectDelay ≤ c.cfg.maxReconnectDelay → ∀ k d, c.slept[k]? = some d →
    d = c.cfg.delayAfter (streak ((outcomes tr).take (k + 1)).reverse)) ?_ fun tr c a c' htr ih hok h hle k d hk => ?_
  · rintro c ⟨cfg, rfl⟩ _ k d hk
    simp [new] at hk
  have hc := counted htr
  obtain ⟨hcfg, hwaits⟩ := (step_turns (sound htr.reach) h).waits (never_reset htr.reach)
  -- a wait that is over keeps its outcome
  have hkeep (hk : c.slept[k]? = some d) :
      d = c'.cfg.delayAfter (streak ((outcomes (tr ++ [(c, a)])).take (k + 1)).reverse) := by
    have hlt := (List.getElem?_eq_some_iff.mp hk).1
    have hcount := hc.count
    rw [outcomes_append h, List.take_append_of_le_length (by omega), hcfg]
    exact ih (hcfg ▸ hle) k d hk
  rcases hwaits with ⟨-, hslept⟩ | ⟨rfl, hphase, hphase', -, hslept⟩
  · exact hkeep (hslept ▸ hk)
  · rw [hslept] at hk
    rcases Slots.get_snoc hk with hk | ⟨rfl, rfl⟩
    · exact hkeep hk
    · have hd := slept_doubles htr.reach (hcfg ▸ hle)
      have hcount := hc.count
      rw [hphase] at hcount
      have hcount : (outcomes tr).length = c.slept.length + 1 := hcount
      rw [outcomes_append h, hphase, hphase', hcfg, List.take_append_of_le_length (by omega),
        List.take_of_length_le (by omega)]
      exact level_delay hd hc hphase (hok hphase)

end

/-- From `start`, a connection that fails, and the wait after it. -/
def failsOnce : List Action := [.serve .go, .serve (.login (.failed (.text "dial"))), .serve .go, .serve .go]

/-- Two failures, one after the other. -/
theorem backoff_delays_failures : ∃ (tr : List (Client × Action)) (c : Client), Trace step Level Initial tr c ∧
    c.slept = [1, 2] ∧ 2 = c.cfg.delayAfter (streak ((outcomes tr).take 2).reverse) := by
  have h : ((record (guarded step Level) [] (.new sampleConfig) (List.flatten [[.connect], failsOnce, failsOnce])).any fun r =>
      r.2.slept = [1, 2] ∧ r.2.cfg.initialReconnectDelay ≤ r.2.cfg.maxReconnectDelay) = true := by
    decide +kernel
  obtain ⟨tr, c, htr, hw⟩ := trace_any (I := Initial) _ ⟨sampleConfig, rfl⟩ h
  simp only [decide_eq_true_eq] at hw
  exact ⟨tr, c, htr, hw.1, (backoff_delays htr hw.2).1 1 2 (by rw [hw.1]; rfl)⟩

/-- A failure, and then a session: the wait after the session is twice the initial delay. -/
theorem backoff_not_reset : ∃ (tr : List (Client × Action)) (c : Client), Trace step free Initial tr c ∧
    outcomes tr = [.failure, .session] ∧ c.cfg.initialReconnectDelay = 1 ∧ c.cfg.maxReconnectDelay = 8 ∧
    c.slept = [1, 2] ∧ c.cfg.delayAfter (streak (outcomes tr).reverse) = 1 := by
  have h : ((record (guarded step free) [] (.new sampleConfig) (List.flatten [[.connect], failsOnce, logsIn,
      disconnects 6])).any fun r => outcomes r.1 = [.failure, .session] ∧ r.2.cfg.initialReconnectDelay = 1 ∧
        r.2.cfg.maxReconnectDelay = 8 ∧ r.2.slept = [1, 2] ∧
        r.2.cfg.delayAfter (streak (outcomes r.1).reverse) = 1) = true := by
    decide +kernel
  obtain ⟨tr, c, htr, hw⟩ := trace_any (I := Initial) _ ⟨sampleConfig, rfl⟩ h
  simp only [decide_eq_true_eq] at hw
  exact ⟨tr, c, htr, hw⟩

end Turntf.Client
