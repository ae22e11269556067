/-
  Turntf.Demo.Schema — scenarios of the demo runner and their validation.

  A scenario names nodes and sessions and has a script. A step of kind `parallel` has branches with
  scripts of their own, in which steps of kind `barrier` may stand. `Validate` goes through the
  script and through the scripts of the branches; `validateParallelBarriers` looks at the barriers
  of one parallel step and asks that every branch has each of them once.

  Values of type `any` are of some type `V`. The entries of a map are listed in the order in which
  the source's loops meet them; which of several errors is reported depends on it, whether there
  is one does not.

  - `Validated.branch`: with a parallel step the steps of its branches are valid.
  - `Validated.session`, `Validated.login`: what a valid step of each kind has.
  - `Validated.barriers`: no branch repeats a barrier, and all branches have the same ones. In
    which order is not looked at.
-/

import Mathlib.Data.List.Basic
import Mathlib.Data.List.Nodup
import Turntf.Lib.Barrier
import Turntf.Lib.Checked
import Turntf.Lib.Space

namespace Turntf.Demo

open Checked

/-! ## Scenarios -/

inductive Error where
  /-- `fmt.Errorf`: the format and what it is applied to -/
  | errorf (format : String) (args : List String)
  /-- with `%w` -/
  | wrap (format : String) (args : List String) (cause : Error)
  /-- `ctx.Err()` -/
  | canceled
  /-- from outside the demo -/
  | other (text : String)
  deriving DecidableEq

structure GoMap (α : Type) where
  entries : List (String × α)
  nodup : (entries.map Prod.fst).Nodup := by decide

def GoMap.get? {α : Type} (m : GoMap α) (key : String) : Option α := m.entries.lookup key

def GoMap.empty {α : Type} : GoMap α := { entries := [], nodup := List.nodup_nil }

structure Defaults where
  timeout : Int := 0
  idleTimeout : Int := 0
  autoAckMessages : Option Bool := none

structure NodeConfig where
  baseURL : String

inductive PasswordSource where
  | plain
  | hashed
  | other (text : String) (h : text ∉ ["plain", "hashed"])
  deriving DecidableEq

def PasswordSource.text : PasswordSource → String
  | .plain => "plain"
  | .hashed => "hashed"
  | .other text _ => text

structure PasswordInput where
  source : PasswordSource
  encoded : String

structure UserCredential where
  nodeID : Int := 0
  userID : Int := 0
  loginName : String := ""
  password : PasswordInput

structure CursorRef where
  nodeID : Int
  seq : Int

structure SessionSpec where
  node : String
  user : UserCredential
  seenMessages : List CursorRef := []

def stepKinds : List String := ["connect", "request", "expect_event", "sleep", "close", "parallel", "barrier"]

inductive StepKind where
  | connect
  | request
  | expectEvent
  | sleep
  | close
  | parallel
  | barrier
  | other (text : String) (h : text ∉ stepKinds)
  deriving DecidableEq

structure ErrorExpectation where
  code : String := ""
  message : String := ""

structure Expectation (V : Type) where
  login : GoMap V := .empty
  ok : GoMap V := .empty
  error : Option ErrorExpectation := none

/-- The fields of a step but its branches. -/
structure StepSpec (V : Type) where
  step : StepKind
  name : String := ""
  session : String := ""
  action : String := ""
  request : Option (GoMap V) := none
  expect : Option (Expectation V) := none
  event : String := ""
  match_ : GoMap V := .empty
  save : GoMap String := .empty
  timeout : Int := 0
  duration : Int := 0

mutual

inductive Step (V : Type) where
  | mk (spec : StepSpec V) (branches : List (Branch V))

inductive Branch (V : Type) where
  | mk (name : String) (script : List (Step V))

end

structure Scenario (V : Type) where
  version : String
  name : String
  defaults : Defaults := {}
  vars : Option (GoMap V) := none
  nodes : GoMap NodeConfig
  sessions : GoMap SessionSpec
  script : List (Step V)

variable {V : Type}

def Step.spec : Step V → StepSpec V
  | .mk spec _ => spec

def Step.branches : Step V → List (Branch V)
  | .mk _ branches => branches

def Step.kind (u : Step V) : StepKind := u.spec.step

def Branch.name : Branch V → String
  | .mk name _ => name

def Branch.script : Branch V → List (Step V)
  | .mk _ script => script

def validActions : List String :=
  ["send_message", "send_packet", "ping", "create_user", "get_user", "update_user", "delete_user", "list_messages",
    "subscribe_channel", "unsubscribe_channel", "list_subscriptions", "block_user", "unblock_user", "list_blocked_users",
    "list_events", "operations_status", "metrics", "list_cluster_nodes", "list_node_logged_in_users",
    "resolve_user_sessions"]

def validEvents : List String := ["message_pushed", "packet_pushed", "error", "disconnect"]

/-! ## Validation -/

def failIf (bad : Prop) [Decidable bad] (e : Error) : Except Error Unit := if bad then .error e else .ok ()

/-- `strings.TrimSpace(text) == ""` -/
def blank (text : String) : Bool := text.toList.all Space.whiteSpace.contains

/-- `^[A-Za-z_][A-Za-z0-9_]*$` -/
def validVarName (name : String) : Bool :=
  match name.toList with
  | [] => false
  | c :: cs => (c.isAlpha || c == '_') && cs.all fun c => c.isAlphanum || c == '_'

def PasswordInput.validate (p : PasswordInput) : Except Error Unit := do
  failIf (p.source ≠ .plain ∧ p.source ≠ .hashed) (.errorf "invalid password source %q" [p.source.text])
  failIf (p.encoded = "") (.errorf "password is required" [])

def bump (counts : List (String × Nat)) (name : String) : List (String × Nat) :=
  match counts with
  | [] => [(name, 1)]
  | (key, count) :: counts => if key = name then (key, count + 1) :: counts else (key, count) :: bump counts name

/-- The loop over the script of a branch. -/
def countBarriers (path branch : String) :
    (script : List (Step V)) → (seen : List String) → (required : List (String × Nat)) → Except Error (List (String × Nat))
  | [], _, required => .ok required
  | step :: script, seen, required =>
    if step.kind = .barrier then
      if step.spec.name ∈ seen then .error (.errorf "%s branch %q repeats barrier %q" [path, branch, step.spec.name])
      else countBarriers path branch script (step.spec.name :: seen) (bump required step.spec.name)
    else countBarriers path branch script seen required

def countBranches (path : String) : List (Branch V) → List (String × Nat) → Except Error (List (String × Nat))
  | [], required => .ok required
  | branch :: branches, required => do
    let required ← countBarriers path branch.name branch.script [] required
    countBranches path branches required

def validateParallelBarriers (path : String) (branches : List (Branch V)) : Except Error Unit := do
  let required ← countBranches path branches []
  required.forM fun entry =>
    failIf (entry.2 ≠ branches.length) (.errorf "%s barrier %q is not present in every branch" [path, entry.1])

def validateSave (path : String) (save : GoMap String) : Except Error Unit :=
  save.entries.forM fun entry => do
    failIf (validVarName entry.1 = false) (.errorf "%s.save contains invalid variable name %q" [path, entry.1])
    failIf (blank entry.2) (.errorf "%s.save.%s is required" [path, entry.1])

namespace Scenario

def requireSession (s : Scenario V) (path session : String) : Except Error Unit := do
  failIf (blank session) (.errorf "%s.session is required" [path])
  failIf (s.sessions.get? session).isNone (.errorf "%s.session references unknown session %q" [path, session])

mutual

def validateStep (s : Scenario V) (path : String) (inParallel : Bool) : Step V → Except Error Unit
  | .mk step branches => do
    (match step.step with
      | .connect => do
        s.requireSession path step.session
        failIf (step.expect.all fun e => e.login.entries.isEmpty) (.errorf "%s.expect.login is required" [path])
      | .request => do
        s.requireSession path step.session
        failIf (step.action ∉ validActions) (.errorf "%s.action must be one of %v" (path :: validActions))
        failIf step.request.isNone (.errorf "%s.request is required" [path])
        failIf step.expect.isNone (.errorf "%s.expect is required" [path])
        failIf (step.expect.all fun e => (!e.ok.entries.isEmpty) == e.error.isSome)
          (.errorf "%s.expect must contain exactly one of ok or error" [path])
      | .expectEvent => do
        s.requireSession path step.session
        failIf (step.event ∉ validEvents) (.errorf "%s.event must be one of %v" (path :: validEvents))
        failIf step.match_.entries.isEmpty (.errorf "%s.match is required" [path])
      | .sleep => failIf (step.duration ≤ 0) (.errorf "%s.duration must be > 0" [path])
      | .close => s.requireSession path step.session
      | .parallel => do
        failIf (branches.length < 2) (.errorf "%s.branches must contain at least 2 branches" [path])
        validateBranches s path 0 [] branches
        validateParallelBarriers path branches
      | .barrier => do
        failIf (inParallel = false) (.errorf "%s.barrier can only be used inside parallel branches" [path])
        failIf (blank step.name) (.errorf "%s.name is required" [path])
      | .other text _ => .error (.errorf "%s.step %q is unsupported" [path, text]))
    validateSave path step.save

def validateBranches (s : Scenario V) (path : String) (i : Nat) (seen : List String) :
    List (Branch V) → Except Error Unit
  | [] => .ok ()
  | .mk name script :: branches => do
    failIf (blank name) (.errorf "%s.branches[%d].name is required" [path, toString i])
    failIf (name ∈ seen) (.errorf "%s.branches contains duplicate name %q" [path, name])
    failIf script.isEmpty (.errorf "%s.branches[%d].script is required" [path, toString i])
    validateScript s s!"{path}.branches[{i}]." 0 true script
    validateBranches s path (i + 1) (name :: seen) branches

/-- The steps of a script, `pre` is what stands before `script` in their paths. -/
def validateScript (s : Scenario V) (pre : String) (j : Nat) (inParallel : Bool) : List (Step V) → Except Error Unit
  | [] => .ok ()
  | step :: script => do
    validateStep s s!"{pre}script[{j}]" inParallel step
    validateScript s pre (j + 1) inParallel script

end

def validateSession (s : Scenario V) (name : String) (session : SessionSpec) : Except Error Unit := do
  failIf (blank name) (.errorf "sessions contains an empty key" [])
  failIf (s.nodes.get? session.node).isNone
    (.errorf "sessions.%s.node references unknown node %q" [name, session.node])
  let hasIDSelector := session.user.nodeID ≠ 0 || session.user.userID ≠ 0
  let hasLoginNameSelector := !blank session.user.loginName
  failIf (hasIDSelector = hasLoginNameSelector)
    (.errorf "sessions.%s.user requires exactly one of (node_id,user_id) or login_name, plus password" [name])
  failIf (hasIDSelector ∧ (session.user.nodeID = 0 ∨ session.user.userID = 0))
    (.errorf "sessions.%s.user requires both node_id and user_id when using ID login" [name])
  match session.user.password.validate with
  | .error e => .error (.wrap "sessions.%s.user.password: %w" [name] e)
  | .ok () =>
    session.seenMessages.zipIdx.forM fun entry =>
      failIf (entry.1.nodeID = 0 ∨ entry.1.seq = 0)
        (.errorf "sessions.%s.seen_messages[%d] requires node_id and seq" [name, toString entry.2])

def validate (s : Scenario V) : Except Error Unit := do
  failIf (s.version ≠ "v1alpha1") (.errorf "version must be %q" ["v1alpha1"])
  failIf (blank s.name) (.errorf "name is required" [])
  failIf s.nodes.entries.isEmpty (.errorf "nodes is required" [])
  s.nodes.entries.forM fun entry => do
    failIf (blank entry.1) (.errorf "nodes contains an empty key" [])
    failIf (blank entry.2.baseURL) (.errorf "nodes.%s.base_url is required" [entry.1])
  failIf s.sessions.entries.isEmpty (.errorf "sessions is required" [])
  s.sessions.entries.forM fun entry => s.validateSession entry.1 entry.2
  failIf s.script.isEmpty (.errorf "script is required" [])
  s.validateScript "" 0 false s.script

def applyDefaults (s : Scenario V) : Scenario V :=
  { s with
    defaults :=
      { timeout := if s.defaults.timeout ≤ 0 then 5000000000 else s.defaults.timeout
        idleTimeout := if s.defaults.idleTimeout ≤ 0 then 500000000 else s.defaults.idleTimeout
        autoAckMessages := some (s.defaults.autoAckMessages.getD true) }
    vars := some (s.vars.getD .empty) }

/-- `Parse` after the text was decoded. -/
def parse (decoded : Scenario V) : Except Error (Scenario V) := do
  let s := decoded.applyDefaults
  s.validate
  .ok s

end Scenario

/-! ## What was checked -/

theorem failIf_ok {bad : Prop} [Decidable bad] {e : Error} : failIf bad e = .ok () ↔ ¬ bad := by
  unfold failIf
  split <;> simp [*]

/-- A step that `validateStep` accepts in some place. -/
def Scenario.Validated (s : Scenario V) (u : Step V) : Prop := ∃ path inParallel, s.validateStep path inParallel u = .ok ()

section

variable {s : Scenario V} {u t : Step V} {b : Branch V}

theorem Scenario.requireSession_ok {path session : String} (h : s.requireSession path session = .ok ()) :
    (s.sessions.get? session).isSome := by
  obtain ⟨_, -, h⟩ := bind_ok.mp h
  simpa [Option.isSome_iff_ne_none] using failIf_ok.mp h

theorem Scenario.validateScript_ok {pre : String} {j : Nat} {inParallel : Bool} {script : List (Step V)}
    (h : s.validateScript pre j inParallel script = .ok ()) : ∀ u ∈ script, s.Validated u := by
  induction script generalizing j with
  | nil => exact fun u hu => absurd hu List.not_mem_nil
  | cons t script ih =>
    obtain ⟨_, ht, h⟩ := bind_ok.mp h
    exact List.forall_mem_cons.mpr ⟨⟨_, _, ht⟩, ih h⟩

theorem Scenario.validateBranches_ok {path : String} {i : Nat} {seen : List String} {branches : List (Branch V)}
    (h : s.validateBranches path i seen branches = .ok ()) : ∀ b ∈ branches, ∀ u ∈ b.script, s.Validated u := by
  induction branches generalizing i seen with
  | nil => exact fun b hb => absurd hb List.not_mem_nil
  | cons b branches ih =>
    obtain ⟨name, script⟩ := b
    obtain ⟨_, -, h⟩ := bind_ok.mp h
    obtain ⟨_, -, h⟩ := bind_ok.mp h
    obtain ⟨_, -, h⟩ := bind_ok.mp h
    obtain ⟨_, hscript, h⟩ := bind_ok.mp h
    exact List.forall_mem_cons.mpr ⟨Scenario.validateScript_ok hscript, ih h⟩

theorem Scenario.Validated.session (h : s.Validated u) (hk : u.kind ∈ [.connect, .request, .expectEvent, .close]) :
    (s.sessions.get? u.spec.session).isSome := by
  obtain ⟨path, inParallel, h⟩ := h
  obtain ⟨spec, branches⟩ := u
  obtain ⟨_, h, -⟩ := bind_ok.mp h
  simp only [Step.kind, Step.spec, List.mem_cons, List.not_mem_nil, or_false] at hk
  rcases hk with hk | hk | hk | hk <;> rw [hk] at h
  · obtain ⟨_, h, -⟩ := bind_ok.mp h
    exact Scenario.requireSession_ok h
  · obtain ⟨_, h, -⟩ := bind_ok.mp h
    exact Scenario.requireSession_ok h
  · obtain ⟨_, h, -⟩ := bind_ok.mp h
    exact Scenario.requireSession_ok h
  · exact Scenario.requireSession_ok h

theorem Scenario.Validated.login (h : s.Validated u) (hk : u.kind = .connect) : ∃ e, u.spec.expect = some e := by
  obtain ⟨path, inParallel, h⟩ := h
  obtain ⟨spec, branches⟩ := u
  obtain ⟨_, h, -⟩ := bind_ok.mp h
  simp only [Step.kind, Step.spec] at hk
  rw [hk] at h
  obtain ⟨_, -, h⟩ := bind_ok.mp h
  cases he : spec.expect with
  | none => exact absurd (by rw [he]; rfl) (failIf_ok.mp h)
  | some e => exact ⟨e, he⟩

theorem Scenario.Validated.parallel (h : s.Validated u) (hk : u.kind = .parallel) :
    (∀ b ∈ u.branches, ∀ t ∈ b.script, s.Validated t) ∧ ∃ path, validateParallelBarriers path u.branches = .ok () := by
  obtain ⟨path, inParallel, h⟩ := h
  obtain ⟨spec, branches⟩ := u
  obtain ⟨_, h, -⟩ := bind_ok.mp h
  simp only [Step.kind, Step.spec] at hk
  rw [hk] at h
  obtain ⟨_, -, h⟩ := bind_ok.mp h
  obtain ⟨_, hb, h⟩ := bind_ok.mp h
  exact ⟨Scenario.validateBranches_ok hb, path, h⟩

theorem Scenario.validate_script (h : s.validate = .ok ()) : ∀ u ∈ s.script, s.Validated u := by
  unfold Scenario.validate at h
  obtain ⟨_, -, h⟩ := bind_ok.mp h
  obtain ⟨_, -, h⟩ := bind_ok.mp h
  obtain ⟨_, -, h⟩ := bind_ok.mp h
  obtain ⟨_, -, h⟩ := bind_ok.mp h
  obtain ⟨_, -, h⟩ := bind_ok.mp h
  obtain ⟨_, -, h⟩ := bind_ok.mp h
  obtain ⟨_, -, h⟩ := bind_ok.mp h
  exact Scenario.validateScript_ok h

end

/-! ## Barriers -/

def Step.barrier? (u : Step V) : Option String := if u.kind = .barrier then some u.spec.name else none

/-- The barriers of a branch, in order. -/
def Branch.order (b : Branch V) : List String := b.script.filterMap Step.barrier?

/-- A branch that has been everywhere, as a party. -/
def Branch.visitor (b : Branch V) : Barrier.Party String := ⟨b.order, [], false⟩

def countOf (counts : List (String × Nat)) (n : String) : Nat :=
  match counts with
  | [] => 0
  | (key, count) :: counts => if key = n then count else countOf counts n

section

variable {path : String} {required required' : List (String × Nat)} {branches : List (Branch V)}

theorem countOf_bump (counts : List (String × Nat)) (name n : String) :
    countOf (bump counts name) n = countOf counts n + [name].count n := by
  rw [List.count_singleton]
  induction counts with
  | nil => simp [bump, countOf]
  | cons entry counts ih =>
    obtain ⟨key, count⟩ := entry
    by_cases hname : key = name
    · by_cases hn : key = n <;> simp_all [bump, countOf]
    · by_cases hn : key = n <;> simp_all [bump, countOf]
      exact fun h => hname h.symm

theorem countOf_mem {n : String} (h : 0 < countOf required n) : (n, countOf required n) ∈ required := by
  induction required with
  | nil => exact absurd h (Nat.lt_irrefl 0)
  | cons entry required ih =>
    obtain ⟨key, count⟩ := entry
    by_cases hn : key = n
    · simp [countOf, hn]
    · rw [countOf, if_neg hn] at h ⊢
      exact List.mem_cons_of_mem _ (ih h)

theorem countBarriers_ok {branch : String} {script : List (Step V)} {seen : List String}
    (h : countBarriers path branch script seen required = .ok required') :
    (script.filterMap Step.barrier?).Nodup ∧ (∀ n ∈ seen, n ∉ script.filterMap Step.barrier?) ∧
      ∀ n, countOf required' n = countOf required n + (script.filterMap Step.barrier?).count n := by
  induction script generalizing seen required with
  | nil =>
    cases h
    exact ⟨List.nodup_nil, fun n _ => List.not_mem_nil, fun n => rfl⟩
  | cons u script ih =>
    rw [countBarriers] at h
    split at h
    · rename_i hk
      have hb : u.barrier? = some u.spec.name := if_pos hk
      split at h
      · cases h
      · rename_i hseen
        obtain ⟨hnd, hnew, hcount⟩ := ih h
        rw [List.filterMap_cons_some hb]
        refine ⟨List.nodup_cons.mpr ⟨hnew _ List.mem_cons_self, hnd⟩, fun n hn => ?_, fun n => ?_⟩
        · rw [List.mem_cons, not_or]
          refine ⟨?_, hnew n (List.mem_cons_of_mem _ hn)⟩
          rintro rfl
          exact hseen hn
        · rw [hcount n, countOf_bump, List.count_singleton, List.count_cons]
          omega
    · rename_i hk
      have hb : u.barrier? = none := if_neg hk
      rw [List.filterMap_cons_none hb]
      exact ih h

theorem countBranches_ok (h : countBranches path branches required = .ok required') :
    (∀ b ∈ branches, b.order.Nodup) ∧
      ∀ n, countOf required' n = countOf required n + Barrier.hits (branches.map Branch.visitor) n := by
  induction branches generalizing required with
  | nil =>
    cases h
    exact ⟨fun b hb => absurd hb List.not_mem_nil, fun n => rfl⟩
  | cons b branches ih =>
    obtain ⟨counted, hb, h⟩ := bind_ok.mp h
    obtain ⟨hnd, -, hcount⟩ := countBarriers_ok hb
    obtain ⟨hnds, hcounts⟩ := ih h
    refine ⟨List.forall_mem_cons.mpr ⟨hnd, hnds⟩, fun n => ?_⟩
    rw [hcounts n, hcount n, List.map_cons, Barrier.hits, ← Nat.add_assoc]
    rfl

/-- No branch repeats a barrier, and the branches have the same ones. -/
theorem validateParallelBarriers_ok (h : validateParallelBarriers path branches = .ok ()) :
    (∀ b ∈ branches, b.order.Nodup) ∧ ∀ b ∈ branches, ∀ b' ∈ branches, ∀ n ∈ b.order, n ∈ b'.order := by
  obtain ⟨required, hcount, h⟩ := bind_ok.mp h
  obtain ⟨hnd, hsum⟩ := countBranches_ok hcount
  refine ⟨hnd, fun b hb b' hb' n hn => ?_⟩
  have hhits : countOf required n = Barrier.hits (branches.map Branch.visitor) n := by rw [hsum n, countOf, Nat.zero_add]
  have hpos : 0 < countOf required n := by
    rw [hhits]
    exact Barrier.hits_pos (List.mem_map_of_mem hb) hn
  have hfull : (branches.map Branch.visitor).length ≤ Barrier.hits (branches.map Branch.visitor) n := by
    have hlen := not_not.mp (failIf_ok.mp (forM_ok.mp h _ (countOf_mem hpos)))
    rw [← hhits, List.length_map]
    exact Nat.le_of_eq hlen.symm
  have hnds : ∀ p ∈ branches.map Branch.visitor, p.reached.Nodup := by
    intro p hp
    obtain ⟨c, hc, rfl⟩ := List.mem_map.mp hp
    exact hnd c hc
  exact (Barrier.forall_of_full hnds hfull).2 _ (List.mem_map_of_mem hb')

end

theorem Scenario.Validated.barriers {s : Scenario V} {u : Step V} (h : s.Validated u) (hk : u.kind = .parallel) :
    (∀ b ∈ u.branches, b.order.Nodup) ∧ ∀ b ∈ u.branches, ∀ b' ∈ u.branches, ∀ n ∈ b.order, n ∈ b'.order := by
  obtain ⟨-, path, h⟩ := h.parallel hk
  exact validateParallelBarriers_ok h

end Turntf.Demo
