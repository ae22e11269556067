/-
  Turntf.Demo.Runtime — running a scenario.

  `RunScenario` executes the steps of the script one after the other. A step on a session takes the
  session's mutex and holds it until it is over. A parallel step starts a goroutine for each branch
  and waits for all of them; they share the barriers, the channel of errors and a context that the
  first branch that fails cancels. Branches may hold parallel steps in their turn, so the goroutines
  form a tree: the children of a goroutine are the branches of the parallel step it executes.

  An action names the goroutine that goes on by its address in the tree, and what the client, the
  server and the clock answer (`Reply`). What is compared with an expectation and what is saved
  comes with the answer; log output and saved variables are left out. `barrierSet.Wait` counts and
  then waits in a loop: the broadcasts make it look again after every count and after a
  cancellation, so it goes on when the count is full and ends when the context is canceled.

  A nil pointer that is dereferenced ends the program (`State.crashed`).
-/

import Turntf.Demo.Schema
import Turntf.Lib.Lts

namespace Turntf.Demo

/-! ## Steps on a session -/

/-- The nil pointers that can be dereferenced. -/
inductive Panic where
  | session (name : String)
  | expect
  | autoAckMessages
  deriving DecidableEq

inductive Fault where
  | error (e : Error)
  | panic (p : Panic)
  deriving DecidableEq

structure SessionRuntime where
  name : String
  node : NodeConfig
  /-- not nil -/
  client : Bool := false
  /-- not nil -/
  handler : Bool := false
  connected : Bool := false
  closed : Bool := false
  /-- `mu` is held. -/
  locked : Bool := false

/-- Code that holds the mutex of a session. What it has stored stays when it fails. -/
abbrev SessionM := ExceptT Fault (StateM SessionRuntime)

inductive CallError where
  | server (code message : String)
  | other (e : Error)

def CallError.error : CallError → Error
  | .server code message => .errorf "turntf server error: %s (%s)" [code, message]
  | .other e => e

structure Reply where
  newClient : Option Error := none
  connect : Option Error := none
  /-- `currentLogin() != nil` -/
  login : Bool := true
  action : Except CallError Unit := .ok ()
  event : Option Error := none
  close : Option Error := none
  /-- what `matchSubset` returns -/
  assertion : Option Error := none
  /-- what `lookupPath` finds -/
  found : String → Bool := fun _ => true
  /-- A sleep in a canceled context ends by `ctx.Done()`. -/
  done : Bool := false

def failWhen (bad : Bool) (e : Error) : SessionM Unit := if bad then throw (.error e) else pure ()

/-- `if err != nil { return … }` -/
def check (err : Option Error) (wrap : Error → Error) : SessionM Unit :=
  match err with
  | some e => throw (.error (wrap e))
  | none => pure ()

def deref {α : Type} (p : Panic) : Option α → SessionM α
  | some a => pure a
  | none => throw (.panic p)

section

variable {V : Type} (s : Scenario V) (reply : Reply) (step : StepSpec V) (label : String)

def saveVars : SessionM Unit :=
  step.save.entries.forM fun entry =>
    failWhen (!reply.found entry.2) (.errorf "%s: save path %q not found" [label, entry.2])

def executeConnect : SessionM Unit := do
  let session ← get
  failWhen session.connected (.errorf "%s: session %q is already connected" [label, session.name])
  let _ackMessages ← deref .autoAckMessages s.defaults.autoAckMessages
  check reply.newClient (.wrap "%s: create client: %w" [label])
  check reply.connect (.wrap "%s: connect session %q via %s: %w" [label, session.name, session.node.baseURL])
  failWhen (!reply.login) (.errorf "%s: missing login info for session %q" [label, session.name])
  let _expect ← deref .expect step.expect
  check reply.assertion (.wrap "%s: login assertion failed: %w" [label])
  modify fun session => { session with client := true, handler := true, connected := true }
  saveVars reply step label

def executeClose : SessionM Unit := do
  let session ← get
  failWhen (!session.connected || !session.client) (.errorf "%s: session %q is not connected" [label, session.name])
  failWhen session.closed (.errorf "%s: session %q already closed" [label, session.name])
  modify fun session => { session with closed := true, connected := false }
  check reply.close (.wrap "%s: close session %q: %w" [label, session.name])

def callAction : Except CallError Unit :=
  if step.action ∈ validActions then reply.action else .error (.other (.errorf "unsupported action %q" [step.action]))

/-- An error that the step may expect. -/
def executeFailed (err : CallError) : SessionM Unit :=
  match step.expect.bind Expectation.error, err with
  | some _, .server _ _ => do
    check reply.assertion (.wrap "%s: error assertion failed: %w" [label])
    saveVars reply step label
  | _, _ => throw (.error (.wrap "%s: request %s failed: %w" [label, step.action] err.error))

def executeRequest : SessionM Unit := do
  let session ← get
  failWhen (!session.connected || !session.client) (.errorf "%s: session %q is not connected" [label, session.name])
  match callAction reply step with
  | .error err => executeFailed reply step label err
  | .ok () =>
    failWhen (step.expect.all fun e => e.ok.entries.isEmpty)
      (.errorf "%s: missing success expectation for action %s" [label, step.action])
    check reply.assertion (.wrap "%s: request assertion failed: %w" [label])
    saveVars reply step label

def executeExpectEvent : SessionM Unit := do
  let session ← get
  failWhen (!session.connected || !session.handler) (.errorf "%s: session %q is not connected" [label, session.name])
  check reply.event (.wrap "%s: expect %s failed: %w" [label, step.event])
  saveVars reply step label

/-- The part of `executeStep` under the mutex. -/
def executeLocked (canceled : Bool) : SessionM Unit :=
  match step.step with
  | .connect => executeConnect s reply step label
  | .request => executeRequest reply step label
  | .expectEvent => executeExpectEvent reply step label
  | .sleep => failWhen (canceled && reply.done) (.wrap "%s: %w" [label] .canceled)
  | .close => executeClose reply label
  | .parallel => throw (.error (.errorf "%s: unsupported step %q" [label, "parallel"]))
  | .barrier => throw (.error (.errorf "%s: unsupported step %q" [label, "barrier"]))
  | .other text _ => throw (.error (.errorf "%s: unsupported step %q" [label, text]))

end

/-! ## Goroutines -/

structure BarrierSet where
  total : Nat
  hits : String → Nat

def newBarrierSet (total : Nat) : BarrierSet := ⟨total, fun _ => 0⟩

def BarrierSet.hit (b : BarrierSet) (name : String) : BarrierSet :=
  { b with hits := fun n => if n = name then b.hits n + 1 else b.hits n }

/-- What the branches of a parallel step share. -/
structure Shared where
  barriers : BarrierSet
  /-- The context was canceled by a branch. -/
  canceled : Bool := false
  /-- The first error in `errCh`. -/
  err : Option Error := none

/-- Where a goroutine is in the execution of its current step. -/
inductive Pc where
  | ready
  /-- in the loop of `barrierSet.Wait` -/
  | waiting
  /-- It holds the mutex of the session. -/
  | locked
  /-- in `executeParallel` -/
  | parallel (shared : Shared)
  /-- `executeStep` returned an error, -/
  | failed (e : Error)
  /-- which was sent to `errCh`. -/
  | sent
  /-- It returned after an error. -/
  | stopped

/-- A goroutine: a script, the index of its current step, and the branches of that step. -/
inductive Task (V : Type) where
  | mk (script : List (Step V)) (j : Nat) (pc : Pc) (children : List (Task V))

abbrev Sessions := String → Option SessionRuntime

def Sessions.set (sessions : Sessions) (name : String) (session : SessionRuntime) : Sessions :=
  fun n => if n = name then some session else sessions n

section

variable {V : Type}

namespace Task

def start (script : List (Step V)) : Task V := .mk script 0 .ready []

def script : Task V → List (Step V)
  | .mk script _ _ _ => script

def pc : Task V → Pc
  | .mk _ _ pc _ => pc

def children : Task V → List (Task V)
  | .mk _ _ _ children => children

/-- The step it is at. -/
def step? : Task V → Option (Step V)
  | .mk script j _ _ => script[j]?

/-- Its goroutine has returned. -/
def finished : Task V → Bool
  | .mk script j .ready _ => script.length ≤ j
  | .mk _ _ .stopped _ => true
  | _ => false

def at? : Task V → List Nat → Option (Task V)
  | t, [] => some t
  | t, i :: addr => t.children[i]?.bind fun child => child.at? addr

end Task

/-- A goroutine and what it can change: the sessions, and what the branches of its parallel step share. -/
structure Config (V : Type) where
  sessions : Sessions
  scope : Option Shared
  task : Task V

variable (s : Scenario V) (reply : Reply) (path label : String) (canceled : Bool) (sessions : Sessions) (scope : Option Shared)
  (script : List (Step V)) (j : Nat) (u : Step V)

/-- `executeStep` until it waits or has the mutex. -/
def beginStep : Option (Except Panic (Config V)) :=
  match u.kind with
  | .parallel =>
    some (.ok ⟨sessions, scope, .mk script j (.parallel { barriers := newBarrierSet u.branches.length })
      (u.branches.map fun b => .start b.script)⟩)
  | .barrier =>
    match scope with
    | none => some (.ok ⟨sessions, none, .mk script j (.failed (.errorf "%s barrier used outside parallel scope" [path])) []⟩)
    | some shared =>
      some (.ok ⟨sessions, some { shared with barriers := shared.barriers.hit u.spec.name }, .mk script j .waiting []⟩)
  | _ =>
    match sessions u.spec.session with
    | none => some (.error (.session u.spec.session))
    | some session =>
      if session.locked then none
      else some (.ok ⟨sessions.set u.spec.session { session with locked := true }, scope, .mk script j .locked []⟩)

/-- The part under the mutex, which is released at the end. -/
def finishStep : Option (Except Panic (Config V)) :=
  match sessions u.spec.session with
  | none => none
  | some session =>
    let ran := (executeLocked s reply u.spec label canceled).run session
    let sessions := sessions.set u.spec.session { ran.2 with locked := false }
    match ran.1 with
    | .ok () => some (.ok ⟨sessions, scope, .mk script (j + 1) .ready []⟩)
    | .error (.error e) => some (.ok ⟨sessions, scope, .mk script j (.failed e) []⟩)
    | .error (.panic p) => some (.error p)

/-- One turn of the loop in `Wait`. -/
def leaveBarrier : Option (Except Panic (Config V)) :=
  match scope with
  | none => none
  | some shared =>
    if shared.barriers.total ≤ shared.barriers.hits u.spec.name then
      some (.ok ⟨sessions, scope, .mk script (j + 1) .ready []⟩)
    else if canceled then some (.ok ⟨sessions, scope, .mk script j (.failed .canceled) []⟩)
    else none

/-- `wg.Wait()` and what follows. -/
def joinBranches (shared : Shared) (children : List (Task V)) : Option (Except Panic (Config V)) :=
  if children.all Task.finished then
    match shared.err with
    | none => some (.ok ⟨sessions, scope, .mk script (j + 1) .ready []⟩)
    | some e => some (.ok ⟨sessions, scope, .mk script j (.failed e) []⟩)
  else none

/-- A goroutine goes on. `pre` stands before `script` in the paths of its steps, `name` is the name of its branch. -/
def Task.act (pre name : String) : Task V → Option (Except Panic (Config V))
  | .mk script j pc children =>
    let path := s!"{pre}script[{j}]"
    match pc, script[j]? with
    | .ready, some u => beginStep path sessions scope script j u
    | .waiting, some u => leaveBarrier canceled sessions scope script j u
    | .locked, some u =>
      finishStep s reply (if name = "" then path else s!"{name} {path}") canceled sessions scope script j u
    | .parallel shared, some _ => joinBranches sessions scope script j shared children
    | .failed e, some _ =>
      scope.map fun shared => .ok ⟨sessions, some { shared with err := shared.err <|> some e }, .mk script j .sent children⟩
    | .sent, some _ =>
      scope.map fun shared => .ok ⟨sessions, some { shared with canceled := true }, .mk script j .stopped children⟩
    | _, _ => none

/-- The goroutine at an address goes on. -/
def Task.step : (addr : List Nat) → (pre name : String) → (canceled : Bool) → Sessions → Option Shared → Task V →
    Option (Except Panic (Config V))
  | [], pre, name, canceled, sessions, scope, t => t.act s reply canceled sessions scope pre name
  | i :: addr, pre, _, canceled, sessions, scope, .mk script j (.parallel shared) children =>
    match children[i]?, (script[j]?.bind fun u => u.branches[i]?) with
    | some child, some branch =>
      match Task.step addr s!"{pre}script[{j}].branches[{i}]." branch.name (canceled || shared.canceled) sessions
          (some shared) child with
      | none => none
      | some (.error p) => some (.error p)
      | some (.ok out) => some (.ok
        ⟨out.sessions, scope, .mk script j (.parallel (out.scope.getD shared)) (children.set i out.task)⟩)
    | _, _ => none
  | _, _, _, _, _, _, _ => none

end

/-! ## Runs -/

inductive State (V : Type) where
  | running (canceled : Bool) (sessions : Sessions) (task : Task V)
  | crashed (p : Panic)
  | returned (err : Option Error) (sessions : Sessions)

inductive Action where
  /-- The caller cancels its context. -/
  | cancel
  | go (addr : List Nat) (reply : Reply)
  /-- `RunScenario` returns. -/
  | finish

section

variable {V : Type}

def Scenario.newSessions (s : Scenario V) : Sessions := fun name =>
  (s.sessions.get? name).map fun spec => { name := name, node := (s.nodes.get? spec.node).getD { baseURL := "" } }

/-- The state in which `RunScenario` enters its loop. -/
def Scenario.start (s : Scenario V) : State V := .running false s.newSessions (.start s.script)

def runScenario : Option (Scenario V) → Except Error (State V)
  | none => .error (.errorf "scenario is required" [])
  | some s => do
    s.validate
    .ok s.start

def closeAll (sessions : Sessions) : Sessions := fun name =>
  (sessions name).map fun session => { session with closed := true, connected := false }

def finish (sessions : Sessions) (t : Task V) : Option (State V) :=
  match t.pc with
  | .failed e => some (.returned (some e) (closeAll sessions))
  | .ready => if t.finished then some (.returned none (closeAll sessions)) else none
  | _ => none

def step (s : Scenario V) : State V → Action → Option (State V)
  | .running _ sessions task, .cancel => some (.running true sessions task)
  | .running canceled sessions task, .go addr reply =>
    match task.step s reply addr "" "" canceled sessions none with
    | none => none
    | some (.error p) => some (.crashed p)
    | some (.ok out) => some (.running canceled out.sessions out.task)
  | .running _ sessions task, .finish => finish sessions task
  | _, _ => none

/-- The states of the executions of the script. -/
def Reachable (s : Scenario V) (st : State V) : Prop := Lts.Reach (step s) Lts.free (fun st => runScenario (some s) = .ok st) st

end

end Turntf.Demo
