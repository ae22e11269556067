/-
  Turntf.Demo.Steps — what a step of a running scenario can do.

  - `act_move`: one turn of a goroutine is one of the moves of `Move`.
  - `Task.All`: something that holds of every goroutine of the tree. `step_all` is its rule for a
    step: it is enough to look at the goroutine that moves, at those it starts, and at the one whose
    branch it is.
  - `reachable_scripts`: only steps of the scenario are executed.
-/

import Turntf.Demo.Runtime

namespace Turntf.Demo

open Checked

variable {V : Type}

/-! ## Moves -/

def Pc.isReady : Pc → Bool
  | .ready => true
  | _ => false

/-- The steps that are executed: those of the script, and those in branches of parallel ones. -/
inductive Scenario.HasStep (s : Scenario V) : Step V → Prop
  | script {u : Step V} (h : u ∈ s.script) : HasStep s u
  | branch {u t : Step V} {b : Branch V} (h : HasStep s u) (hk : u.kind = .parallel) (hb : b ∈ u.branches)
      (ht : t ∈ b.script) : HasStep s t

theorem Scenario.HasStep.validated {s : Scenario V} {u : Step V} (hv : s.validate = .ok ()) (h : s.HasStep u) :
    s.Validated u := by
  induction h with
  | script h => exact s.validate_script hv _ h
  | branch _ hk hb ht ih => exact (ih.parallel hk).1 _ hb _ ht

/-- The sessions are those that there were. -/
def Sessions.SameNames (sessions sessions' : Sessions) : Prop := ∀ n, (sessions' n).isSome = (sessions n).isSome

theorem Sessions.sameNames_set {sessions : Sessions} {name : String} {session : SessionRuntime}
    (h : sessions name = some session) (after : SessionRuntime) : sessions.SameNames (sessions.set name after) := by
  intro n
  unfold Sessions.set
  by_cases hn : n = name
  · subst hn
    rw [if_pos rfl, h]
    rfl
  · rw [if_neg hn]

/-- One turn of a goroutine. -/
inductive Move (sessions : Sessions) : Option Shared → Task V → Config V → Prop
  | fork {scope : Option Shared} {script : List (Step V)} {j : Nat} {cs : List (Task V)} {u : Step V}
      (hu : script[j]? = some u) (hk : u.kind = .parallel) :
      Move sessions scope (.mk script j .ready cs)
        ⟨sessions, scope, .mk script j (.parallel { barriers := newBarrierSet u.branches.length })
          (u.branches.map fun b => .start b.script)⟩
  | hit {shared : Shared} {script : List (Step V)} {j : Nat} {cs : List (Task V)} {u : Step V}
      (hu : script[j]? = some u) (hk : u.kind = .barrier) :
      Move sessions (some shared) (.mk script j .ready cs)
        ⟨sessions, some { shared with barriers := shared.barriers.hit u.spec.name }, .mk script j .waiting []⟩
  | outside {script : List (Step V)} {j : Nat} {cs : List (Task V)} (e : Error) :
      Move sessions none (.mk script j .ready cs) ⟨sessions, none, .mk script j (.failed e) []⟩
  | lock {scope : Option Shared} {script : List (Step V)} {j : Nat} {cs : List (Task V)} {u : Step V} {sessions' : Sessions}
      (hu : script[j]? = some u) (hk : u.kind ≠ .barrier) (hs : sessions.SameNames sessions') :
      Move sessions scope (.mk script j .ready cs) ⟨sessions', scope, .mk script j .locked []⟩
  | leave {shared : Shared} {script : List (Step V)} {j : Nat} {cs : List (Task V)} {u : Step V}
      (hu : script[j]? = some u) (hfull : shared.barriers.total ≤ shared.barriers.hits u.spec.name) :
      Move sessions (some shared) (.mk script j .waiting cs) ⟨sessions, some shared, .mk script (j + 1) .ready []⟩
  | unlock {scope : Option Shared} {script : List (Step V)} {j : Nat} {cs : List (Task V)} {sessions' : Sessions}
      (hs : sessions.SameNames sessions') :
      Move sessions scope (.mk script j .locked cs) ⟨sessions', scope, .mk script (j + 1) .ready []⟩
  | join {scope : Option Shared} {shared : Shared} {script : List (Step V)} {j : Nat} {cs : List (Task V)}
      (hall : cs.all Task.finished = true) :
      Move sessions scope (.mk script j (.parallel shared) cs) ⟨sessions, scope, .mk script (j + 1) .ready []⟩
  | fail {scope : Option Shared} {script : List (Step V)} {j : Nat} {pc : Pc} {cs : List (Task V)} {sessions' : Sessions}
      (hpc : pc.isReady = false) (hs : sessions.SameNames sessions') (e : Error) :
      Move sessions scope (.mk script j pc cs) ⟨sessions', scope, .mk script j (.failed e) []⟩
  | send {shared : Shared} {script : List (Step V)} {j : Nat} {cs : List (Task V)} (e : Error) :
      Move sessions (some shared) (.mk script j (.failed e) cs)
        ⟨sessions, some { shared with err := shared.err <|> some e }, .mk script j .sent cs⟩
  | stop {shared : Shared} {script : List (Step V)} {j : Nat} {cs : List (Task V)} :
      Move sessions (some shared) (.mk script j .sent cs)
        ⟨sessions, some { shared with canceled := true }, .mk script j .stopped cs⟩

section

variable {s : Scenario V} {reply : Reply} {pre name path label : String} {canceled : Bool} {sessions : Sessions}
  {scope : Option Shared} {script : List (Step V)} {j : Nat} {u : Step V} {t : Task V} {cs : List (Task V)} {out : Config V}

theorem beginStep_move (hu : script[j]? = some u) (h : beginStep path sessions scope script j u = some (.ok out)) :
    Move sessions scope (.mk script j .ready cs) out := by
  unfold beginStep at h
  split at h
  · rename_i hk
    cases h
    exact .fork hu hk
  · rename_i hk
    split at h
    · cases h
      exact .outside _
    · cases h
      exact .hit hu hk
  · rename_i hk hk'
    split at h
    · cases h
    · rename_i session hs
      split at h
      · cases h
      · cases h
        exact .lock hu hk' (Sessions.sameNames_set hs _)

theorem finishStep_move (h : finishStep s reply label canceled sessions scope script j u = some (.ok out)) :
    Move sessions scope (.mk script j .locked cs) out := by
  unfold finishStep at h
  split at h
  · cases h
  · rename_i session hs
    simp only at h
    split at h
    · cases h
      exact .unlock (Sessions.sameNames_set hs _)
    · cases h
      exact .fail rfl (Sessions.sameNames_set hs _) _
    · cases h

theorem leaveBarrier_move (hu : script[j]? = some u) (h : leaveBarrier canceled sessions scope script j u = some (.ok out)) :
    Move sessions scope (.mk script j .waiting cs) out := by
  unfold leaveBarrier at h
  split at h
  · cases h
  · split at h
    · rename_i hfull
      cases h
      exact .leave hu hfull
    · split at h
      · cases h
        exact .fail rfl (fun _ => rfl) _
      · cases h

theorem joinBranches_move {shared : Shared} (h : joinBranches sessions scope script j shared cs = some (.ok out)) :
    Move sessions scope (.mk script j (.parallel shared) cs) out := by
  unfold joinBranches at h
  split at h
  · rename_i hall
    split at h
    · cases h
      exact .join hall
    · cases h
      exact .fail rfl (fun _ => rfl) _
  · cases h

theorem act_move (h : t.act s reply canceled sessions scope pre name = some (.ok out)) : Move sessions scope t out := by
  obtain ⟨script, j, pc, cs⟩ := t
  unfold Task.act at h
  simp only at h
  split at h
  · rename_i hu
    exact beginStep_move hu h
  · rename_i hu
    exact leaveBarrier_move hu h
  · exact finishStep_move h
  · exact joinBranches_move h
  · cases scope with
    | none => cases h
    | some shared =>
      cases h
      exact .send _
  · cases scope with
    | none => cases h
    | some shared =>
      cases h
      exact .stop
  · cases h

theorem Move.scope_isSome (h : Move sessions scope t out) : out.scope.isSome = scope.isSome := by
  cases h <;> rfl

end

/-! ## The tree -/

namespace Task

/-- Every goroutine of the tree has `P`. -/
inductive All (P : Task V → Prop) : Task V → Prop
  | mk {t : Task V} (h : P t) (hc : ∀ c ∈ t.children, All P c) : All P t

variable {P : Task V → Prop} {t t' : Task V}

theorem All.here (h : t.All P) : P t := by
  cases h with
  | mk h _ => exact h

theorem All.child (h : t.All P) : ∀ c ∈ t.children, c.All P := by
  cases h with
  | mk _ hc => exact hc

theorem All.subtree {addr : List Nat} (h : t.All P) (hat : t.at? addr = some t') : t'.All P := by
  induction addr generalizing t with
  | nil =>
    cases hat
    exact h
  | cons i addr ih =>
    obtain ⟨c, hc, hat⟩ := Option.bind_eq_some_iff.mp hat
    exact ih (h.child c (List.mem_of_getElem? hc)) hat

/-- A goroutine that has started no branches. -/
theorem All.leaf {script : List (Step V)} {j : Nat} {pc : Pc} (h : P (.mk script j pc [])) : (Task.mk script j pc []).All P :=
  .mk h fun _ hc => absurd hc List.not_mem_nil

end Task

/-- `P` is kept in the whole tree, where `R` says how a goroutine and what it shares with the other branches go on. -/
structure Kept (P : Task V → Prop) (R : Shared → Shared → Task V → Task V → Prop) : Prop where
  move : ∀ {sessions : Sessions} {scope : Option Shared} {t : Task V} {out : Config V},
    t.All P → Move sessions scope t out → out.task.All P
  effect : ∀ {sessions : Sessions} {shared : Shared} {t : Task V} {out : Config V},
    P t → Move sessions (some shared) t out → ∃ shared', out.scope = some shared' ∧ R shared shared' t out.task
  /-- A branch went on. -/
  node : ∀ {script : List (Step V)} {j i : Nat} {shared shared' : Shared} {cs : List (Task V)} {c c' : Task V},
    P (.mk script j (.parallel shared) cs) → cs[i]? = some c → R shared shared' c c' →
      P (.mk script j (.parallel shared') (cs.set i c'))
  /-- For the goroutine above nothing happened. -/
  above : ∀ {script : List (Step V)} {j : Nat} {outer shared shared' : Shared} {cs cs' : List (Task V)},
    P (.mk script j (.parallel shared) cs) → R outer outer (.mk script j (.parallel shared) cs) (.mk script j (.parallel shared') cs')

section

variable {s : Scenario V} {reply : Reply} {pre name : String} {canceled : Bool} {sessions : Sessions}
  {scope : Option Shared} {t : Task V} {out : Config V}

/-- A step below the root is a step of a branch. -/
theorem step_cons {i : Nat} {addr : List Nat}
    (h : t.step s reply (i :: addr) pre name canceled sessions scope = some (.ok out)) :
    ∃ script j shared cs c pre' name' canceled' out', t = .mk script j (.parallel shared) cs ∧ cs[i]? = some c ∧
      c.step s reply addr pre' name' canceled' sessions (some shared) = some (.ok out') ∧
      out = ⟨out'.sessions, scope, .mk script j (.parallel (out'.scope.getD shared)) (cs.set i out'.task)⟩ := by
  obtain ⟨script, j, pc, cs⟩ := t
  cases pc with
  | parallel shared =>
    rw [Task.step] at h
    split at h
    · rename_i c branch hc _
      split at h
      · cases h
      · cases h
      · rename_i out' hstep
        cases h
        exact ⟨script, j, shared, cs, c, _, _, _, out', rfl, hc, hstep, rfl⟩
    · cases h
  | _ => simp [Task.step] at h

theorem Kept.step {P : Task V → Prop} {R : Shared → Shared → Task V → Task V → Prop} (hk : Kept P R) {addr : List Nat}
    (ht : t.All P) (h : t.step s reply addr pre name canceled sessions scope = some (.ok out)) :
    out.task.All P ∧ ∀ shared, scope = some shared → ∃ shared', out.scope = some shared' ∧ R shared shared' t out.task := by
  induction addr generalizing t pre name canceled scope out with
  | nil =>
    have hmove := act_move h
    refine ⟨hk.move ht hmove, ?_⟩
    rintro shared rfl
    exact hk.effect ht.here hmove
  | cons i addr ih =>
    obtain ⟨script, j, shared, cs, c, _, _, _, out', rfl, hc, hstep, rfl⟩ := step_cons h
    obtain ⟨hall, heffect⟩ := ih (ht.child c (List.mem_of_getElem? hc)) hstep
    obtain ⟨shared', hscope, hR⟩ := heffect shared rfl
    rw [hscope]
    refine ⟨.mk (hk.node ht.here hc hR) fun d hd => ?_, ?_⟩
    · rcases List.mem_or_eq_of_mem_set hd with hd | rfl
      · exact ht.child d hd
      · exact hall
    · rintro outer rfl
      exact ⟨outer, rfl, hk.above ht.here⟩

/-! ## Runs -/

theorem Reachable.validate {st : State V} (h : Reachable s st) : s.validate = .ok () := by
  refine Lts.Reach.keeps (P := fun _ => s.validate = .ok ()) ?_ (fun _ _ _ _ hv _ _ => hv) h
  intro st hst
  obtain ⟨_, hv, -⟩ := bind_ok.mp hst
  exact hv

/-- What every step keeps of a running scenario. -/
theorem Reachable.keeps {Q : Sessions → Task V → Prop} {st : State V} (h : Reachable s st)
    (h0 : Q s.newSessions (.start s.script))
    (hstep : ∀ {canceled sessions t reply addr out}, Q sessions t →
      t.step s reply addr "" "" canceled sessions none = some (.ok out) → Q out.sessions out.task)
    {canceled : Bool} {sessions : Sessions} {t : Task V} (hst : st = .running canceled sessions t) : Q sessions t := by
  revert hst
  refine Lts.Reach.keeps (P := fun st => ∀ {canceled sessions t}, st = .running canceled sessions t → Q sessions t) ?_ ?_ h
  · intro st hinit canceled sessions t hst
    obtain ⟨_, -, hinit⟩ := bind_ok.mp hinit
    cases hinit
    cases hst
    exact h0
  · intro st a st' _ ih _ hs canceled sessions t hst
    subst hst
    cases st with
    | running c sessions' t' =>
      cases a with
      | cancel =>
        cases hs
        exact ih rfl
      | go addr reply =>
        simp only [Turntf.Demo.step] at hs
        split at hs
        · cases hs
        · cases hs
        · rename_i out hout
          cases hs
          exact hstep (ih rfl) hout
      | finish =>
        simp only [Turntf.Demo.step, finish] at hs
        split at hs
        · cases hs
        · split at hs <;> cases hs
        · cases hs
    | crashed p => cases hs
    | returned err sessions' => cases hs

theorem Reachable.all {P : Task V → Prop} {R : Shared → Shared → Task V → Task V → Prop} (hk : Kept P R)
    (h0 : (Task.start s.script).All P) (h : Reachable s (.running canceled sessions t)) : t.All P :=
  h.keeps (Q := fun _ t => t.All P) h0 (fun ht hstep => (hk.step ht hstep).1) rfl

/-- Only steps of the scenario are executed. -/
theorem Reachable.scripts (h : Reachable s (.running canceled sessions t)) : t.All fun t => ∀ u ∈ t.script, s.HasStep u := by
  refine h.all (R := fun _ _ _ _ => True) ⟨?_, ?_, fun h _ _ => h, fun _ => trivial⟩ (.leaf fun u hu => .script hu)
  · intro sessions scope t out ht hmove
    cases hmove with
    | fork hu hk =>
      refine .mk ht.here fun c hc => ?_
      obtain ⟨b, hb, rfl⟩ := List.mem_map.mp hc
      exact .leaf fun v hv => .branch (ht.here _ (List.mem_of_getElem? hu)) hk hb hv
    | send | stop => exact .mk ht.here ht.child
    | _ => exact .leaf ht.here
  · intro sessions shared t out _ hmove
    obtain ⟨shared', h⟩ := Option.isSome_iff_exists.mp hmove.scope_isSome
    exact ⟨shared', h, trivial⟩

end

/-- A scenario with one session, as it is decoded, without the defaults. -/
def demoScenario (script : List (Step Unit)) : Scenario Unit where
  version := "v1alpha1"
  name := "demo"
  nodes := { entries := [("node", { baseURL := "http://node" })] }
  sessions := { entries := [("session",
    { node := "node", user := { nodeID := 1, userID := 2, password := { source := .hashed, encoded := "hash" } } })] }
  script := script

end Turntf.Demo
