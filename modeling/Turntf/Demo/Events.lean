/-
  Turntf.Demo.Events — the events of a session and the calls that wait for them.

  The client calls the handler of a session (`OnMessage`, `OnPacket`, `OnError`, `OnDisconnect`), which
  appends an event to its list and wakes every call of `waitForEvent`. Such a call goes through the
  list under the mutex for the first event of its kind that matches what it expects. If there is
  one it removes it and returns it; if its context has ended it returns that error; else it sleeps
  on the condition variable. A goroutine of the call wakes everyone once when the context ends.

  Actors: the client's callbacks, any number of calls, each with its context and its goroutine. What
  an actor does under the mutex is one step. `cond.Wait` gives the mutex up and sleeps in one step.

  - `events_taken`: the handler is a mailbox. Every event goes to one call at most, a call that
    returns an event is the one that took it, and the list holds the events nobody took.
  - `waiting_returns`: no wakeup is lost. When the list has an event that a waiting call wants, or
    its context has ended, the call returns by steps of its own and of its goroutine.
-/

import Turntf.Demo.Match
import Turntf.Lib.Lts
import Turntf.Lib.Mailbox

namespace Turntf.Demo

open Document Lts Mailbox

/-! ## The handler -/

structure SessionEvent where
  kind : String
  payload : Data

/-- What the client tells the handler. -/
inductive Callback where
  | onLogin (info : GoValue)
  | onMessage (msg : GoValue)
  | onPacket (packet : GoValue)
  /-- with the code, the message and the request ID of the `ServerError` in it, if there is one -/
  | onError (serverErr : Option (Bytes × Bytes × Nat))
  | onDisconnect (message : Bytes)

/-- The event that the callback pushes. -/
def Callback.event? : Callback → Option SessionEvent
  | .onLogin _ => none
  | .onMessage msg => some ⟨"message_pushed", (Outcome.messagePushed msg).payload⟩
  | .onPacket packet => some ⟨"packet_pushed", (Outcome.packetPushed packet).payload⟩
  | .onError (some (code, message, 0)) => some ⟨"error", (Outcome.error code message).payload⟩
  | .onError _ => none
  | .onDisconnect message => some ⟨"disconnect", (Outcome.disconnect message).payload⟩

/-- The arguments of a call of `waitForEvent`. -/
structure EventRequest where
  kind : String
  expected : GoValue

inductive WaitPc where
  /-- not called yet -/
  | idle
  /-- about to get the mutex, at the start or after `cond.Wait` -/
  | running
  /-- in `cond.Wait` -/
  | asleep
  /-- With `none`, the error of its context. -/
  | returned (result : Option SessionEvent)

structure WaitCall where
  pc : WaitPc := .idle
  /-- `ctx.Err() != nil` -/
  ended : Bool := false
  /-- its goroutine is in the `select` -/
  watching : Bool := false

structure SessionHandler (ι : Type) where
  login : Option GoValue := none
  events : List SessionEvent := []
  calls : ι → WaitCall := fun _ => {}

inductive HandlerAction (ι : Type) where
  | callback (c : Callback)
  /-- `waitForEvent` is called: it starts its goroutine and goes for the mutex. -/
  | call (i : ι)
  /-- The context of the call ends. -/
  | endContext (i : ι)
  /-- One turn of the loop, from getting the mutex to `cond.Wait` or the return. -/
  | turn (i : ι)
  /-- The goroutine sees that the context has ended. -/
  | wake (i : ι)
  /-- The goroutine sees that the call is done. -/
  | leave (i : ι)

def WaitCall.broadcast (c : WaitCall) : WaitCall :=
  match c.pc with
  | .asleep => { c with pc := .running }
  | _ => c

namespace SessionHandler

variable {ι : Type}

def broadcast (h : SessionHandler ι) : SessionHandler ι := { h with calls := fun i => (h.calls i).broadcast }

def push (h : SessionHandler ι) (event : SessionEvent) : SessionHandler ι :=
  { h with events := h.events ++ [event] }.broadcast

def callback (h : SessionHandler ι) (c : Callback) : SessionHandler ι :=
  match c with
  | .onLogin info => { h with login := some info }.broadcast
  | c =>
    match c.event? with
    | some event => h.push event
    | none => h

variable [DecidableEq ι]

def setCall (h : SessionHandler ι) (i : ι) (c : WaitCall) : SessionHandler ι :=
  { h with calls := fun j => if j = i then c else h.calls j }

end SessionHandler

section

variable {ι : Type} [DecidableEq ι] (marshal : Data → Option Bytes) (request : ι → EventRequest)

/-- The test of the loop over the events. -/
def EventRequest.wants (r : EventRequest) (event : SessionEvent) : Bool :=
  event.kind == r.kind && (matchSubset marshal r.expected (dataValue event.payload)).isOk

/-- One turn of the loop of `waitForEvent`. -/
def waitTurn (h : SessionHandler ι) (i : ι) : SessionHandler ι :=
  match h.events.find? ((request i).wants marshal) with
  | some event =>
    { h with events := h.events.eraseP ((request i).wants marshal) }.setCall i
      { h.calls i with pc := .returned (some event) }
  | none =>
    if (h.calls i).ended then h.setCall i { h.calls i with pc := .returned none }
    else h.setCall i { h.calls i with pc := .asleep }

def handlerStep (h : SessionHandler ι) : HandlerAction ι → Option (SessionHandler ι)
  | .callback c => some (h.callback c)
  | .call i =>
    match (h.calls i).pc with
    | .idle => some (h.setCall i { h.calls i with pc := .running, watching := true })
    | _ => none
  | .endContext i => some (h.setCall i { h.calls i with ended := true })
  | .turn i =>
    match (h.calls i).pc with
    | .running => some (waitTurn marshal request h i)
    | _ => none
  | .wake i =>
    if (h.calls i).watching && (h.calls i).ended then
      some (h.setCall i { h.calls i with watching := false }).broadcast
    else none
  | .leave i =>
    match (h.calls i).watching, (h.calls i).pc with
    | true, .returned _ => some (h.setCall i { h.calls i with watching := false })
    | _, _ => none

/-- What a step puts into the mailbox or takes out of it. -/
def seen (h : SessionHandler ι) (a : HandlerAction ι) : List (Mailbox.Event SessionEvent ι) :=
  match a with
  | .callback c => c.event?.toList.map .put
  | .turn i => if (h.events.find? ((request i).wants marshal)).isSome then [.take i] else []
  | _ => []

/-! ## Waking and updating calls -/

/-- The event that the call returned. -/
def WaitCall.taken (c : WaitCall) : Option SessionEvent :=
  match c.pc with
  | .returned result => result
  | _ => none

variable {marshal request} {h h' : SessionHandler ι} {i j : ι} {c : WaitCall}

@[simp] theorem WaitCall.broadcast_ended (c : WaitCall) : c.broadcast.ended = c.ended := by
  unfold broadcast
  split <;> rfl

@[simp] theorem WaitCall.broadcast_watching (c : WaitCall) : c.broadcast.watching = c.watching := by
  unfold broadcast
  split <;> rfl

theorem WaitCall.broadcast_awake (c : WaitCall) : c.broadcast.pc ≠ .asleep := by
  unfold broadcast
  split
  · exact fun h => WaitPc.noConfusion h
  · assumption

@[simp] theorem WaitCall.broadcast_taken (c : WaitCall) : c.broadcast.taken = c.taken := by
  unfold broadcast
  split
  · rename_i hpc
    simp [taken, hpc]
  · rfl

/-- It was called and has not returned. -/
def WaitCall.waiting (c : WaitCall) : Bool :=
  match c.pc with
  | .running | .asleep => true
  | _ => false

@[simp] theorem WaitCall.broadcast_waiting (c : WaitCall) : c.broadcast.waiting = c.waiting := by
  unfold broadcast
  split
  · rename_i hpc
    simp [waiting, hpc]
  · rfl

@[simp] theorem setCall_events (h : SessionHandler ι) (i : ι) (c : WaitCall) : (h.setCall i c).events = h.events := rfl

@[simp] theorem setCall_same (h : SessionHandler ι) (i : ι) (c : WaitCall) : (h.setCall i c).calls i = c := if_pos rfl

theorem setCall_of_ne (h : SessionHandler ι) (hj : j ≠ i) (c : WaitCall) : (h.setCall i c).calls j = h.calls j := if_neg hj

omit [DecidableEq ι] in
@[simp] theorem broadcast_events (h : SessionHandler ι) : h.broadcast.events = h.events := rfl

omit [DecidableEq ι] in
@[simp] theorem broadcast_calls (h : SessionHandler ι) (i : ι) : h.broadcast.calls i = (h.calls i).broadcast := rfl

/-- A property of every call that the new value of one call has. -/
theorem setCall_keeps {P : ι → WaitCall → Prop} (hc : P i c) (hall : ∀ j, P j (h.calls j)) (j : ι) : P j ((h.setCall i c).calls j) := by
  by_cases hj : j = i
  · subst hj
    rwa [setCall_same]
  · rw [setCall_of_ne _ hj]
    exact hall j

/-! ## The handler is a mailbox -/

structure Logged (log : Log SessionEvent ι) (h : SessionHandler ι) : Prop where
  events : waiting log = h.events
  taken : ∀ i, takenBy i log = (h.calls i).taken.toList

/-- Waking calls or changing one that has not returned leaves the log as it is. -/
theorem Logged.update {log : Log SessionEvent ι} (hl : Logged log h) (hc : c.taken = (h.calls i).taken) :
    Logged log (h.setCall i c) :=
  ⟨hl.events, setCall_keeps (P := fun j c => takenBy j log = c.taken.toList) (hc ▸ hl.taken i) hl.taken⟩

theorem Logged.broadcast {log : Log SessionEvent ι} (hl : Logged log h) : Logged log h.broadcast :=
  ⟨hl.events, fun i => by rw [broadcast_calls, WaitCall.broadcast_taken]; exact hl.taken i⟩

theorem Logged.put {log : Log SessionEvent ι} (hl : Logged log h) (event : SessionEvent) :
    Logged (log ++ [(event, none)]) (h.push event) := by
  refine Logged.broadcast ⟨?_, fun i => ?_⟩
  · rw [waiting_put, hl.events]
  · rw [takenBy_put]
    exact hl.taken i

theorem Logged.callback {log : Log SessionEvent ι} (hl : Logged log h) (cb : Callback) :
    ∃ log', exec (Mailbox.step fun i => (request i).wants marshal) log (cb.event?.toList.map .put) = some log' ∧
      Logged log' (h.callback cb) := by
  unfold SessionHandler.callback
  split
  · exact ⟨log, rfl, Logged.broadcast ⟨hl.events, hl.taken⟩⟩
  · split
    · rename_i event hev
      rw [hev]
      exact ⟨_, rfl, hl.put event⟩
    · rename_i hev
      rw [hev]
      exact ⟨log, rfl, hl⟩

theorem Logged.turn {log : Log SessionEvent ι} (hl : Logged log h) (hpc : (h.calls i).pc = .running) :
    ∃ log', exec (Mailbox.step fun i => (request i).wants marshal) log (seen marshal request h (.turn i)) = some log' ∧
      Logged log' (waitTurn marshal request h i) := by
  have hfree : (h.calls i).taken = none := by rw [WaitCall.taken, hpc]
  unfold waitTurn
  split
  · rename_i event hfind
    refine ⟨give ((request i).wants marshal) i log, ?_, ?_, fun j => ?_⟩
    · simp [seen, exec, Mailbox.step, hfind, hl.events]
    · rw [waiting_give, hl.events]
      rfl
    · by_cases hj : j = i
      · subst hj
        rw [setCall_same]
        exact takenBy_give (by rw [hl.events, hfind]) (by rw [hl.taken, hfree]; rfl)
      · rw [setCall_of_ne _ hj, takenBy_give_of_ne (Ne.symm hj)]
        exact hl.taken j
  · rename_i hfind
    refine ⟨log, by simp [seen, exec, hfind], ?_⟩
    split <;> exact hl.update hfree.symm

theorem step_logged {log : Log SessionEvent ι} {a : HandlerAction ι} (hl : Logged log h)
    (hs : handlerStep marshal request h a = some h') :
    ∃ log', exec (Mailbox.step fun i => (request i).wants marshal) log (seen marshal request h a) = some log' ∧
      Logged log' h' := by
  cases a with
  | callback cb =>
    cases hs
    exact hl.callback cb
  | call i =>
    simp only [handlerStep] at hs
    split at hs <;> cases hs
    rename_i hpc
    exact ⟨log, rfl, hl.update (by simp [WaitCall.taken, hpc])⟩
  | endContext i =>
    cases hs
    exact ⟨log, rfl, hl.update rfl⟩
  | turn i =>
    simp only [handlerStep] at hs
    split at hs <;> cases hs
    rename_i hpc
    exact hl.turn hpc
  | wake i =>
    simp only [handlerStep] at hs
    split at hs <;> cases hs
    have hl' : Logged log (h.setCall i { h.calls i with watching := false }) := hl.update rfl
    exact ⟨log, rfl, hl'.broadcast⟩
  | leave i =>
    simp only [handlerStep] at hs
    split at hs <;> cases hs
    exact ⟨log, rfl, hl.update rfl⟩

/-- Every event that a callback pushes goes to at most one call, the first in the list that the
    call wants, and the call returns it; the list is what no call took, in the order it came. -/
theorem events_taken {tr : List (SessionHandler ι × HandlerAction ι)}
    (ht : Trace (handlerStep marshal request) free (· = {}) tr h) :
    ∃ log, exec (Mailbox.step fun i => (request i).wants marshal) [] (tr.flatMap fun e => seen marshal request e.1 e.2) = some log ∧
      waiting log = h.events ∧ ∀ i, takenBy i log = (h.calls i).taken.toList := by
  have hlog : ∃ log, exec (Mailbox.step fun i => (request i).wants marshal) []
      (tr.flatMap fun e => seen marshal request e.1 e.2) = some log ∧ Logged log h := by
    refine ht.keeps (P := fun tr h => ∃ log, exec (Mailbox.step fun i => (request i).wants marshal) []
      (tr.flatMap fun e => seen marshal request e.1 e.2) = some log ∧ Logged log h) ?_ ?_
    · rintro h rfl
      exact ⟨[], rfl, rfl, fun i => rfl⟩
    · intro tr s a t _ ih _ hst
      obtain ⟨log, hrun, hl⟩ := ih
      obtain ⟨log', hrun', hl'⟩ := step_logged hl hst
      refine ⟨log', ?_, hl'⟩
      rw [List.flatMap_append, exec_append, hrun]
      simpa using hrun'
  obtain ⟨log, hrun, hl⟩ := hlog
  exact ⟨log, hrun, hl.events, hl.taken⟩

/-- Two calls, for errors with different codes. -/
def errorRequest (denied : Bool) : EventRequest :=
  ⟨"error", dataValue (.object [("code", str (utf8 (if denied then "denied" else "busy")))])⟩

def secondRun : List (HandlerAction Bool) :=
  [.call false, .turn false, .callback (.onError (some (utf8 "denied", [], 0))), .turn false,
    .callback (.onError (some (utf8 "busy", [], 0))), .turn false]

/-- A call passes over the error that it does not want and takes the next one. -/
theorem events_taken_second : ∃ tr h, Trace (handlerStep (fun _ => none) errorRequest) free (· = {}) tr h ∧
    (h.events.length = 1 ∧ (h.calls false).taken.isSome) ∧
    ∃ log, exec (Mailbox.step fun i => (errorRequest i).wants fun _ => none) []
        (tr.flatMap fun e => seen (fun _ => none) errorRequest e.1 e.2) = some log ∧
      waiting log = h.events ∧ ∀ i, takenBy i log = (h.calls i).taken.toList := by
  have hrun : ∃ tr h, Trace (handlerStep (fun _ => none) errorRequest) free (· = {}) tr h ∧
      decide (h.events.length = 1 ∧ (h.calls false).taken.isSome = true) = true :=
    trace_any (I := (· = {})) (p := fun r : _ × SessionHandler Bool =>
      decide (r.2.events.length = 1 ∧ (r.2.calls false).taken.isSome = true)) secondRun rfl (by decide)
  obtain ⟨tr, h, ht, hend⟩ := hrun
  exact ⟨tr, h, ht, of_decide_eq_true hend, events_taken ht⟩

/-! ## No lost wakeup -/

variable (marshal) in
/-- A sleeping call wants none of the events, and its goroutine is there to wake it. -/
structure Attended (events : List SessionEvent) (r : EventRequest) (c : WaitCall) : Prop where
  unwanted : c.pc = .asleep → events.find? (r.wants marshal) = none
  watched : c.pc = .asleep → c.watching = true
  waited : c.waiting = true → c.watching = true ∨ c.ended = true

theorem Attended.awake {events : List SessionEvent} {r : EventRequest} (hpc : c.pc ≠ .asleep)
    (hw : c.waiting = true → c.watching = true ∨ c.ended = true) : Attended marshal events r c :=
  ⟨fun h => absurd h hpc, fun h => absurd h hpc, hw⟩

theorem Attended.broadcast {events events' : List SessionEvent} {r : EventRequest} (h : Attended marshal events r c) :
    Attended marshal events' r c.broadcast :=
  .awake c.broadcast_awake (by simpa using h.waited)

/-- What is gone from the list was not wanted by a call that slept then. -/
theorem Attended.erase {events : List SessionEvent} {r : EventRequest} {p : SessionEvent → Bool}
    (h : Attended marshal events r c) : Attended marshal (events.eraseP p) r c := by
  refine ⟨fun hpc => ?_, h.watched, h.waited⟩
  have hnone := h.unwanted hpc
  rw [List.find?_eq_none] at hnone ⊢
  exact fun e he => hnone e (List.mem_of_mem_eraseP he)

theorem turn_attended (hall : ∀ j, Attended marshal h.events (request j) (h.calls j)) (hpc : (h.calls i).pc = .running) (j : ι) :
    Attended marshal (waitTurn marshal request h i).events (request j) ((waitTurn marshal request h i).calls j) := by
  unfold waitTurn
  split
  · refine setCall_keeps (P := fun j c => Attended marshal (h.events.eraseP _) (request j) c) ?_ (fun j => (hall j).erase) j
    exact .awake (fun h => WaitPc.noConfusion h) Bool.noConfusion
  · rename_i hfind
    split
    · refine setCall_keeps (P := fun j c => Attended marshal h.events (request j) c) ?_ hall j
      exact .awake (fun h => WaitPc.noConfusion h) Bool.noConfusion
    · rename_i hended
      have hwatch : (h.calls i).watching = true :=
        ((hall i).waited (by rw [WaitCall.waiting, hpc])).resolve_right hended
      refine setCall_keeps (P := fun j c => Attended marshal h.events (request j) c) ?_ hall j
      exact ⟨fun _ => hfind, fun _ => hwatch, fun _ => .inl hwatch⟩

omit [DecidableEq ι] in
theorem callback_attended (hall : ∀ j, Attended marshal h.events (request j) (h.calls j)) (cb : Callback) (j : ι) :
    Attended marshal (h.callback cb).events (request j) ((h.callback cb).calls j) := by
  unfold SessionHandler.callback
  split
  · exact (hall j).broadcast
  · split
    · exact (hall j).broadcast
    · exact hall j

theorem step_attended {a : HandlerAction ι} (hall : ∀ j, Attended marshal h.events (request j) (h.calls j))
    (hs : handlerStep marshal request h a = some h') (j : ι) : Attended marshal h'.events (request j) (h'.calls j) := by
  cases a with
  | callback cb =>
    cases hs
    exact callback_attended hall cb j
  | call i =>
    simp only [handlerStep] at hs
    split at hs <;> cases hs
    refine setCall_keeps (P := fun j c => Attended marshal h.events (request j) c) ?_ hall j
    exact .awake (fun h => WaitPc.noConfusion h) fun _ => .inl rfl
  | endContext i =>
    cases hs
    refine setCall_keeps (P := fun j c => Attended marshal h.events (request j) c) ?_ hall j
    exact ⟨(hall i).unwanted, (hall i).watched, fun _ => .inr rfl⟩
  | turn i =>
    simp only [handlerStep] at hs
    split at hs <;> cases hs
    rename_i hpc
    exact turn_attended hall hpc j
  | wake i =>
    simp only [handlerStep] at hs
    split at hs <;> cases hs
    rename_i hready
    rw [Bool.and_eq_true] at hready
    -- the goroutine is gone, but it has woken its call, whose context has ended
    rw [broadcast_calls]
    by_cases hj : j = i
    · subst hj
      rw [setCall_same]
      exact .awake (WaitCall.broadcast_awake _) fun _ => .inr (by simpa using hready.2)
    · rw [setCall_of_ne _ hj]
      exact (hall j).broadcast
  | leave i =>
    simp only [handlerStep] at hs
    split at hs <;> cases hs
    rename_i hpc
    refine setCall_keeps (P := fun j c => Attended marshal h.events (request j) c) ?_ hall j
    refine .awake (fun h => ?_) fun h => ?_
    · rw [hpc] at h
      cases h
    · rw [WaitCall.waiting, hpc] at h
      cases h

theorem waitTurn_returns (hready : (h.events.find? ((request i).wants marshal)).isSome ∨ (h.calls i).ended = true) :
    ((waitTurn marshal request h i).calls i).pc = .returned (h.events.find? ((request i).wants marshal)) := by
  unfold waitTurn
  split
  · rename_i hfind
    rw [hfind, setCall_same]
  · rename_i hfind
    rw [hfind] at hready ⊢
    rw [if_pos (hready.resolve_left Bool.noConfusion), setCall_same]

/-- A call for which there is an event, or whose context has ended, is not left asleep: it returns
    the first event it wants, or else the error of its context, after steps of its own and of its
    goroutine. -/
theorem waiting_returns (hr : Reach (handlerStep marshal request) free (· = {}) h) (hw : (h.calls i).waiting = true)
    (hready : (h.events.find? ((request i).wants marshal)).isSome ∨ (h.calls i).ended = true) :
    ∃ as, (∀ a ∈ as, a = .turn i ∨ a = .wake i) ∧ ∃ h', exec (handlerStep marshal request) h as = some h' ∧
      (h'.calls i).pc = .returned (h.events.find? ((request i).wants marshal)) := by
  have hall : ∀ j, Attended marshal h.events (request j) (h.calls j) := by
    refine hr.keeps (P := fun h => ∀ j, Attended marshal h.events (request j) (h.calls j)) ?_ ?_
    · rintro h rfl j
      exact .awake (fun h => WaitPc.noConfusion h) Bool.noConfusion
    · exact fun s a t _ hall _ hst => step_attended hall hst
  cases hpc : (h.calls i).pc with
  | running =>
    refine ⟨[.turn i], by simp, waitTurn marshal request h i, ?_, waitTurn_returns hready⟩
    simp [exec, handlerStep, hpc]
  | asleep =>
    -- it has seen all events, so its context has ended, and its goroutine is still there
    have hnone := (hall i).unwanted hpc
    have hended : (h.calls i).ended = true := hready.resolve_left (by rw [hnone]; exact Bool.noConfusion)
    have hwatch := (hall i).watched hpc
    let woken : SessionHandler ι := (h.setCall i { h.calls i with watching := false }).broadcast
    have hrunning : (woken.calls i).pc = .running := by
      simp [woken, WaitCall.broadcast, hpc]
    refine ⟨[.wake i, .turn i], by simp, waitTurn marshal request woken i, ?_, ?_⟩
    · have hwake : handlerStep marshal request h (.wake i) = some woken := by
        simp [handlerStep, hended, hwatch, woken]
      have hturn : handlerStep marshal request woken (.turn i) = some (waitTurn marshal request woken i) := by
        simp [handlerStep, hrunning]
      simp [exec, hwake, hturn]
    · exact waitTurn_returns (h := woken) (.inr (by simp [woken, hended]))
  | idle =>
    rw [WaitCall.waiting, hpc] at hw
    cases hw
  | returned result =>
    rw [WaitCall.waiting, hpc] at hw
    cases hw

def endedRun : List (HandlerAction Bool) := [.call true, .turn true, .endContext true]

/-- A call falls asleep and its context ends. -/
theorem waiting_returns_ended : ∃ h, Reach (handlerStep (fun _ => none) errorRequest) free (· = {}) h ∧
    (h.calls true).waiting = true ∧ (h.calls true).ended = true ∧
    ∃ as, (∀ a ∈ as, a = .turn true ∨ a = .wake true) ∧
      ∃ h', exec (handlerStep (fun _ => none) errorRequest) h as = some h' ∧
        (h'.calls true).pc = .returned (h.events.find? ((errorRequest true).wants fun _ => none)) := by
  have hrun : ∃ h, Reach (handlerStep (fun _ => none) errorRequest) free (· = {}) h ∧
      ((h.calls true).waiting && (h.calls true).ended) = true :=
    reach_any (p := fun h : SessionHandler Bool => (h.calls true).waiting && (h.calls true).ended) endedRun (.init rfl)
      (by decide)
  obtain ⟨h, hr, hend⟩ := hrun
  rw [Bool.and_eq_true] at hend
  exact ⟨h, hr, hend.1, hend.2, waiting_returns hr hend.1 (.inr hend.2)⟩

end

end Turntf.Demo
