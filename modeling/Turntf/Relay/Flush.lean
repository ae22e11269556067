/-
  Turntf.Relay.Flush — what a `Flush` that returns nil has waited for (`relay_flush.go`).

  A `Flush` takes `enqueueMu`, puts a barrier in line and waits for its target: the next number,
  noted by `sendLoop` when it has come to the barrier and no acceptance RPC is running. Then it waits
  until no smaller number is in `unacked`, looking before each count whether the connection is closed.
  The stages of a call are kept with the steps that led to it: the one that took `enqueueMu` and the
  one that answered the barrier.

  - `flush_barrier`: a `Flush` returns nil only when the payloads sent before it were pushed at the
    other end, and no RPC that had started when its barrier was answered has failed.
-/

import Turntf.Relay.Closing

namespace Turntf.Relay

open Lts Ends Numbered

/-- The steps of a connection. -/
abbrev ConnRun := List (RelayConnection × RelayConnection.Action)

/-! ## A barrier in line -/

/-- The barrier is in line, behind `n` payloads. -/
def Placed (c : RelayConnection) (id n : Nat) : Prop :=
  ∃ l r, c.xmit.line.items = l ++ .barrier id :: r ∧ c.xmit.took.length + (payloads l).length = n

section

variable {c c' : RelayConnection} {a : RelayConnection.Action} {id n : Nat}

theorem mem_barrierIds {items : List SendItem} : id ∈ barrierIds items ↔ .barrier id ∈ items := by
  unfold barrierIds
  rw [List.mem_filterMap]
  constructor
  · rintro ⟨item, hm, he⟩
    cases item <;> cases he
    exact hm
  · intro hm
    exact ⟨_, hm, rfl⟩

/-- The loop comes to a barrier when the payloads before it have their numbers. -/
theorem Placed.answered (h : Placed c id n) (hq : Queued c) (hs : Sending c) (hl : c.xmit.loop = .barrier id) :
    c.xmit.nextSeq = n + 1 := by
  obtain ⟨l, r, hi, hn⟩ := h
  -- the barrier is in line only once, so nothing is before it
  have hhead : c.xmit.line.items = .barrier id :: c.xmit.sendCh := by simp only [Xmit.line, hl]; rfl
  have hnil : l = [] := by
    cases l with
    | nil => rfl
    | cons x l =>
      have honce := (List.nodup_append.mp hq.line.once).1
      rw [hi] at hhead
      have hx : x = .barrier id := (List.cons.inj hhead).1
      rw [hi, hx] at honce
      simp at honce
  subst hnil
  have htook := hs.window.took (by simp [hl, LoopPc.mode])
  rw [hl, show (LoopPc.barrier id).pending = [] from rfl, List.append_nil] at htook
  rw [hs.window.next, ← htook, ← hn]
  rfl

theorem Placed.step (h : Placed c id n) (hl : LineEffect c a c') :
    Placed c' id n ∨ a = .loop .go ∧ c.xmit.loop = .barrier id ∧ c.xmit.settled = true ∧
      (id, c.xmit.nextSeq) ∈ c'.xmit.targets := by
  obtain ⟨l, r, hi, hn⟩ := h
  -- the line without its first item, which is not this barrier
  have htail : ∀ {item : SendItem} {items : List SendItem}, c.xmit.line.items = item :: items → item ≠ .barrier id →
      ∃ l', l = item :: l' ∧ items = l' ++ .barrier id :: r := by
    intro item items hit hne
    rw [hi] at hit
    cases l with
    | nil => exact absurd (List.cons.inj hit).1.symm hne
    | cons x l => exact ⟨l, by rw [(List.cons.inj hit).1], (List.cons.inj hit).2.symm⟩
  have hpush : ∀ {item : SendItem} {b : Nat}, c'.xmit.line = { c.xmit.line.push item with barriers := b } →
      Placed c' id n := by
    intro item b h
    have ht : c'.xmit.took = c.xmit.took := (congrArg Line.took h).trans rfl
    refine ⟨l, r ++ [item], ?_, by rw [ht]; exact hn⟩
    rw [h]
    simp [Line.push, hi]
  cases hl with
  | same h =>
    have ht : c'.xmit.took = c.xmit.took := congrArg Line.took h
    exact .inl ⟨l, r, by rw [h, hi], by rw [ht]; exact hn⟩
  | send _ h | barrier _ h | marker _ h => exact .inl (hpush h)
  | hand _ he =>
    rw [hi] at he
    cases l <;> cases he
  | receive _ hit h =>
    obtain ⟨l', rfl, hitems⟩ := htail hit SendItem.noConfusion
    have ht : c'.xmit.took = c.xmit.took ++ [_] := (congrArg Line.took h).trans rfl
    refine .inl ⟨l', r, by rw [h]; exact hitems, ?_⟩
    rw [ht, List.length_append, ← hn, payloads_data]
    simp only [List.length_cons, List.length_nil]
    omega
  | @answer id' items ha hloop hset hit h =>
    by_cases hid : id' = id
    · subst hid
      have ht : c'.xmit.targets = c.xmit.targets ++ [_] := (congrArg Line.targets h).trans rfl
      exact .inr ⟨ha, hloop, hset, by rw [ht]; exact List.mem_append_right _ List.mem_cons_self⟩
    · obtain ⟨l', rfl, hitems⟩ := htail hit fun he => hid (SendItem.barrier.inj he)
      have ht : c'.xmit.took = c.xmit.took := (congrArg Line.took h).trans rfl
      exact .inl ⟨l', r, by rw [h]; exact hitems, by rw [ht]; exact hn⟩
  | flush _ _ hit h =>
    obtain ⟨l', rfl, hitems⟩ := htail hit SendItem.noConfusion
    have ht : c'.xmit.took = c.xmit.took := (congrArg Line.took h).trans rfl
    exact .inl ⟨l', r, by rw [h]; exact hitems, by rw [ht]; exact hn⟩

end

/-! ## The stages of a `Flush` -/

/-- The next step of the `Flush` call `i` takes `enqueueMu`. -/
def Enters (i : Nat) (c : RelayConnection) : Prop := c.calls[i]? = some (.flush .lock) ∧ c.locked = false

/-- The acceptance RPCs that have finished in a run did so without an error, or with a temporary one. -/
def Clean (tr : ConnRun) : Prop :=
  ∀ q i err task, (q, RelayConnection.Action.task i err) ∈ tr → q.xmit.tasks[i]? = some task → task.returned = false →
    err = none ∨ err = some (.server "service_unavailable")

/-- After `before` the barrier of the `Flush` call `i` was answered with its target. -/
def FlushPassed (i : Nat) (tr : ConnRun) (target : Nat) (before : ConnRun) : Prop :=
  ∃ tr₁ q₁ tr₂ q₂ tr₃ id, before = tr₁ ++ (q₁, .run i .go) :: tr₂ ∧ tr = before ++ (q₂, .loop .go) :: tr₃ ∧
    Enters i q₁ ∧ q₂.xmit.loop = .barrier id ∧ q₂.calls[i]? = some (.flush (.barrier id)) ∧ q₂.xmit.settled = true ∧
    target = (queuedPayloads q₁.returns).length + 1 ∧ target = q₂.xmit.nextSeq

def FlushStage (i : Nat) (tr : ConnRun) (c : RelayConnection) : FlushPc → Prop
  | .lock | .error => True
  | .state | .push => ∃ tr₁ q tr₂, tr = tr₁ ++ (q, .run i .go) :: tr₂ ∧ Enters i q ∧
      queuedPayloads q.returns = queuedPayloads c.returns
  | .barrier id =>
    (∃ tr₁ q tr₂, tr = tr₁ ++ (q, .run i .go) :: tr₂ ∧ Enters i q ∧ Placed c id (queuedPayloads q.returns).length) ∨
      ∃ target before, (id, target) ∈ c.xmit.targets ∧ FlushPassed i tr target before
  | .poll target | .tick target => ∃ before, FlushPassed i tr target before
  | .count target => ∃ before, FlushPassed i tr target before ∧ Clean before

structure Flushing (tr : ConnRun) (c : RelayConnection) : Prop where
  stage : ∀ (i : Nat) (pc : FlushPc), c.calls[i]? = some (.flush pc) → FlushStage i tr c pc
  clean : c.life.closed = false → Clean tr
  queued : ∀ e ∈ tr, queuedPayloads e.1.returns <+: queuedPayloads c.returns
  next : ∀ e ∈ tr, e.1.xmit.nextSeq ≤ c.xmit.nextSeq

section

variable {c c' : RelayConnection} {a : RelayConnection.Action} {i : Nat} {tr : ConnRun}

theorem FlushPassed.mono {target : Nat} {before : ConnRun} (h : FlushPassed i tr target before) (e : ConnRun) :
    FlushPassed i (tr ++ e) target before := by
  obtain ⟨tr₁, q₁, tr₂, q₂, tr₃, id, hb, rfl, rest⟩ := h
  exact ⟨tr₁, q₁, tr₂, q₂, tr₃ ++ e, id, hb, by simp, rest⟩

theorem FlushPassed.clean {target : Nat} {before : ConnRun} (h : FlushPassed i tr target before) (hc : Clean tr) :
    Clean before := by
  obtain ⟨_, _, _, _, _, _, _, rfl, _⟩ := h
  exact fun q j err task hm => hc q j err task (List.mem_append_left _ hm)

/-- A call that has not moved is at its stage. -/
theorem FlushStage.stay {pc : FlushPc} (h : FlushStage i tr c pc) (hpc : c.calls[i]? = some (.flush pc)) (hq : Queued c)
    (hs : Sending c) (hl : LineEffect c a c') : FlushStage i (tr ++ [(c, a)]) c' pc := by
  have hlocked : (CallPc.flush pc).holds = true → queuedPayloads c'.returns = queuedPayloads c.returns := by
    intro hh
    have hclash : ∀ {j : Nat} {data : Bytes}, c.calls[j]? = some (.send data .select) → False := by
      intro j data hj
      obtain rfl := hq.alone hpc hj hh rfl
      rw [hpc] at hj
      cases hj
    cases hl with
    | same _ h => exact h
    | send hj | hand hj => exact (hclash hj).elim
    | barrier _ _ _ hr | marker _ _ _ hr | receive _ _ _ hr | answer _ _ _ _ _ hr | flush _ _ _ _ hr => rw [hr]
  have htargets : ∀ e ∈ c.xmit.targets, e ∈ c'.xmit.targets := by
    intro e he
    cases hl with
    | answer _ _ _ _ h =>
      have : c'.xmit.targets = c.xmit.targets ++ [_] := (congrArg Line.targets h).trans rfl
      rw [this]
      exact List.mem_append_left _ he
    | same h | send _ h | hand _ _ h | barrier _ h | marker _ h | receive _ _ h | flush _ _ _ h =>
      have : c'.xmit.targets = c.xmit.targets := (congrArg Line.targets h).trans rfl
      rwa [this]
  have hsame : (CallPc.flush pc).holds = true →
      (∃ tr₁ q tr₂, tr = tr₁ ++ (q, .run i .go) :: tr₂ ∧ Enters i q ∧
        queuedPayloads q.returns = queuedPayloads c.returns) →
      ∃ tr₁ q tr₂, tr ++ [(c, a)] = tr₁ ++ (q, .run i .go) :: tr₂ ∧ Enters i q ∧
        queuedPayloads q.returns = queuedPayloads c'.returns := by
    rintro hh ⟨tr₁, q, tr₂, rfl, he, hn⟩
    exact ⟨tr₁, q, tr₂ ++ [(c, a)], by simp, he, hn.trans (hlocked hh).symm⟩
  cases pc with
  | lock | error => trivial
  | state | push => exact hsame rfl h
  | barrier id =>
    rcases h with ⟨tr₁, q, tr₂, rfl, he, hp⟩ | ⟨target, before, ht, hp⟩
    · rcases hp.step hl with hp' | ⟨ha, hloop, hset, ht⟩
      · exact .inl ⟨tr₁, q, tr₂ ++ [(c, a)], by simp, he, hp'⟩
      · refine .inr ⟨_, tr₁ ++ (q, .run i .go) :: tr₂, ht, tr₁, q, tr₂, c, [], id, rfl, by rw [ha], he, hloop, hpc, hset,
          hp.answered hq hs hloop, rfl⟩
    · exact .inr ⟨target, before, htargets _ ht, hp.mono _⟩
  | poll target | tick target =>
    obtain ⟨before, hp⟩ := h
    exact ⟨before, hp.mono _⟩
  | count target =>
    obtain ⟨before, hp, hc⟩ := h
    exact ⟨before, hp.mono _, hc⟩

/-- `enqueueMu` is taken in a step of the call itself. -/
theorem enters_step (h : c.step a = some c') (hpc : c.calls[i]? = some (.flush .lock))
    (hpc' : c'.calls[i]? = some (.flush .state)) : a = .run i .go := by
  rcases (step_effect h).calls with hs | ⟨call, _, rfl⟩ | ⟨j, how, pc, rfl, hj, he⟩
  · rw [hs, hpc] at hpc'
    cases hpc'
  · obtain ⟨pc, hcalls⟩ := startCall_calls c call
    rw [hcalls, List.getElem?_append_left (List.getElem?_eq_some_iff.mp hpc).1, hpc] at hpc'
    cases hpc'
  · obtain ⟨pc', hcalls⟩ := he.calls
    by_cases hne : j = i
    · subst hne
      cases how with
      | go => rfl
      | cancel =>
        simp only [RelayConnection.step, RelayConnection.callStep, hpc, RelayConnection.flushStep,
          Option.some.injEq] at h
        subst h
        have hlt := (List.getElem?_eq_some_iff.mp hpc).1
        simp [RelayConnection.ret, RelayConnection.callAt, List.getElem?_set_self hlt] at hpc'
      | _ =>
        simp only [RelayConnection.step, RelayConnection.callStep, hpc, RelayConnection.flushStep] at h
        cases h
    · rw [hcalls, List.getElem?_set_ne hne, hpc] at hpc'
      cases hpc'

/-- A call that goes on comes to its next stage. -/
theorem Flushing.next_stage (h : Flushing tr c) (hq : Queued c) (hstep : c.step a = some c')
    {pc : CallPc} {pc' : FlushPc} (hpc : c.calls[i]? = some pc) (hpc' : c'.calls[i]? = some (.flush pc'))
    (hn : CallNext c c' pc (.flush pc')) : FlushStage i (tr ++ [(c, a)]) c' pc' := by
  have heff := step_effect hstep
  have hl := step_line hq.cap hstep
  generalize hp : CallPc.flush pc' = next at hn
  cases hn with
  | @barrier t hpush hx hr =>
    cases hp
    obtain ⟨tr₁, q, tr₂, rfl, he, hqueued⟩ := h.stage i .push hpc
    rcases push_line hq.cap hpush with hline | ⟨_, he, _⟩
    · refine .inl ⟨tr₁, q, tr₂ ++ [(c, a)], by simp, he, c.xmit.line.items, [], ?_, ?_⟩
      · rw [hx]
        exact congrArg Line.items hline
      · rw [hx, hqueued, hq.line.order, List.length_append]
        exact congrArg (fun l => l.took.length + (payloads c.xmit.line.items).length) hline
    · cases he
  | move hm hx hr => cases hm with
    | flushLock hfree =>
      cases hp
      exact ⟨tr, c, [], by rw [enters_step hstep hpc hpc'], ⟨hpc, hfree⟩, by rw [hr]⟩
    | flushOpen =>
      cases hp
      obtain ⟨tr₁, q, tr₂, rfl, he, hqueued⟩ := h.stage i .state hpc
      exact ⟨tr₁, q, tr₂ ++ [(c, a)], by simp, he, by rw [hr, hqueued]⟩
    | flushNotOpen | flushClosed =>
      cases hp
      trivial
    | @flushBarrier id target hlookup =>
      cases hp
      obtain ⟨l₁, l₂, htargets, _⟩ := List.lookup_eq_some_iff.mp hlookup
      have hin : (id, target) ∈ c.xmit.targets := by rw [htargets]; exact List.mem_append_right _ List.mem_cons_self
      obtain ⟨_, hkeys, hdisjoint⟩ := List.nodup_append.mp hq.line.once
      rcases h.stage i (.barrier id) hpc with ⟨_, _, _, _, _, l, r, hitems, _⟩ | ⟨target', before, ht, hp⟩
      · -- an answered barrier is not in line any more
        have hid : id ∈ barrierIds c.xmit.line.items := by
          rw [hitems, mem_barrierIds]
          exact List.mem_append_right _ List.mem_cons_self
        exact absurd rfl (hdisjoint id hid id (List.mem_map_of_mem hin))
      · have hsame := List.inj_on_of_nodup_map hkeys hin ht rfl
        exact ⟨before, (Prod.mk.inj hsame).2 ▸ hp.mono _⟩
    | @flushPoll target hc =>
      cases hp
      obtain ⟨before, hp⟩ := h.stage i (.poll target) hpc
      exact ⟨before, hp.mono _, hp.clean (h.clean hc)⟩
    | @flushCount target =>
      cases hp
      obtain ⟨before, hp, _⟩ := h.stage i (.count target) hpc
      exact ⟨before, hp.mono _⟩
    | @flushTick target =>
      cases hp
      obtain ⟨before, hp⟩ := h.stage i (.tick target) hpc
      exact ⟨before, hp.mono _⟩
    | _ => cases hp
  | _ => cases hp

/-- An RPC that fails for good closes the connection when it returns. -/
theorem taskStep_clean {j : Nat} {err : Option Err} {task : Task} (h : c.taskStep j err = some c')
    (ht : c.xmit.tasks[j]? = some task) (hr : task.returned = false) (hc : c'.life.closed = false) :
    err = none ∨ err = some (.server "service_unavailable") := by
  simp only [RelayConnection.taskStep, ht, hr, Bool.false_eq_true, if_false, Option.some.injEq] at h
  subst h
  cases hres : ({ c with xmit.tasks := c.xmit.tasks.set j { task with returned := true } } : RelayConnection).sendResult
      task.env err with
  | none =>
    unfold RelayConnection.sendResult at hres
    split at hres
    · rename_i hretry
      simp only [Bool.and_eq_true, RelayConnection.retryableSendError, decide_eq_true_eq] at hretry
      exact .inr hretry.2.2
    · exact .inl hres
  | some e =>
    simp only [RelayConnection.sentData, hres] at hc
    rw [Life.closeConnection, closeWithSource_closed] at hc
    cases hc

theorem Flushing.clean_step (h : Flushing tr c) (hstep : c.step a = some c') (hc : c'.life.closed = false) :
    Clean (tr ++ [(c, a)]) := by
  have hopen : c.life.closed = false := by
    cases ho : c.life.closed with
    | false => rfl
    | true =>
      rw [(step_effect hstep).closed_stays ho] at hc
      cases hc
  intro q j err task hm ht hr
  rcases List.mem_append.mp hm with hm | hm
  · exact h.clean hopen q j err task hm ht hr
  · cases List.mem_singleton.mp hm
    exact taskStep_clean hstep ht hr hc

theorem Flushing.step (h : Flushing tr c) (hq : Queued c) (hs : Sending c) (hs' : Sending c')
    (hstep : c.step a = some c') : Flushing (tr ++ [(c, a)]) c' := by
  have heff := step_effect hstep
  have hl := step_line hq.cap hstep
  have hgrows := heff.xmit.assigned.length_le
  have hnext := hs.window.next
  have hnext' := hs'.window.next
  refine ⟨fun i pc hpc' => ?_, h.clean_step hstep, fun e he => ?_, fun e he => ?_⟩
  · rcases heff.call_cases hpc' with hold | hnew | ⟨pc₀, hpc, hn⟩
    · exact (h.stage i pc hold).stay hold hq hs hl
    · cases pc with
      | lock => trivial
      | _ => cases hnew
    · exact h.next_stage hq hstep hpc hpc' hn
  · rcases List.mem_append.mp he with he | he
    · exact (h.queued e he).trans hl.queued_grows
    · rw [List.mem_singleton.mp he]
      exact hl.queued_grows
  · rcases List.mem_append.mp he with he | he
    · have := h.next e he
      omega
    · rw [List.mem_singleton.mp he]
      dsimp only
      omega

theorem flushing {config : RelayConfig} {relayID : String} {my remote : SessionRef} {dialed : Bool}
    (hr : config.reliability ≠ .bestEffort)
    (h : Trace RelayConnection.step free (· = .new config relayID my remote dialed) tr c) :
    Sending c ∧ Queued c ∧ Flushing tr c := by
  refine h.keeps (P := fun tr c => Sending c ∧ Queued c ∧ Flushing tr c) ?_ ?_
  · rintro _ rfl
    exact ⟨.new hr _ _ _ _, .new _ _ _ _ _, nofun, fun _ _ _ _ _ hm => absurd hm List.not_mem_nil,
      fun _ hm => absurd hm List.not_mem_nil, fun _ hm => absurd hm List.not_mem_nil⟩
  · rintro tr c a c' _ ⟨hs, hq, hf⟩ _ hstep
    have hs' := hs.step (step_effect hstep)
    exact ⟨hs', hq.step hstep, hf.step hq hs hs' hstep⟩

/-- `Flush` returns nil from its count, with no smaller number in `unacked`. -/
theorem flush_returns {how : Choice} (h : c.step (.run i how) = some c')
    (hr : c'.returns = c.returns ++ [.flush none]) : ∃ target : Nat,
    c.calls[i]? = some (.flush (.count target)) ∧ c.xmit.unacked.keys.any (· < target) = false := by
  obtain ⟨pc, hpc, he⟩ := callStep_effect h
  have hlast : ∀ {r : Return}, c.returns ++ [r] = c.returns ++ [.flush none] → r = .flush none :=
    fun he => (List.cons.inj (List.append_cancel_left he)).1
  have hnone : c.returns = c.returns ++ [.flush none] → False := by
    intro he
    have := congrArg List.length he
    simp at this
  cases he with
  | ret hret =>
    cases hlast hr
    cases hret with
    | flushed hp => exact ⟨_, hpc, hp⟩
  | send => cases hlast hr
  | receive => cases hlast hr
  | _ => exact (hnone hr).elim

end

/-- A `Flush` of the end `x` returns nil. In the run so far it took `enqueueMu`, at a moment when no
    `Send` was between lock and unlock, and later `sendLoop` answered its barrier, with no acceptance
    RPC running. The payloads whose `Send` had returned nil by the first of these moments were pushed
    at the other end, and no RPC that finished before the second has failed for good. -/
theorem flush_barrier {config : Side → RelayConfig} {relayID : String} {session : Side → SessionRef}
    (ho : ∀ x, (config x).reliability = .reliableOrdered) {tr : List (Pair × PairAction)} {p p' : Pair}
    (h : Trace Pair.step Network (· = Pair.new config relayID session) tr p) {x : Side} {i : Nat} {how : Choice}
    (hstep : p.step (x, .run i how) = some p') (hnil : (p' x).returns = (p x).returns ++ [.flush none]) :
    ∃ tr₁ q₁ tr₂ q₂ tr₃ id,
      atEnd x tr = tr₁ ++ (q₁, .run i .go) :: (tr₂ ++ (q₂, .loop .go) :: tr₃) ∧
      (q₁.calls[i]? = some (.flush .lock) ∧ q₁.locked = false) ∧
      (q₂.calls[i]? = some (.flush (.barrier id)) ∧ q₂.xmit.loop = .barrier id ∧ q₂.xmit.tasks = []) ∧
      queuedPayloads q₁.returns <+: (p x.peer).recv.pushed.map Prod.snd ∧
      ∀ q j err task, (q, .task j err) ∈ tr₁ ++ (q₁, .run i .go) :: tr₂ → q.xmit.tasks[j]? = some task →
        task.returned = false → err = none ∨ err = some (.server "service_unavailable") := by
  have hr : ∀ x, (config x).reliability ≠ .bestEffort := fun x => by rw [ho x]; nofun
  have hend := Trace.atEnd (x := x) (J := fun c => c = .new (config x) relayID (session x) (session x.peer) (x = .a))
    (by rintro _ rfl; rfl) h
  obtain ⟨hs, hq, hf⟩ := flushing (hr x) hend
  obtain ⟨target, hcall, hdone⟩ := flush_returns (stepAt_cases hstep).1 hnil
  obtain ⟨before, ⟨tr₁, q₁, tr₂, q₂, tr₃, id, rfl, htr, henters, hloop, hpc, hset, htarget, hnext⟩, hclean⟩ :=
    hf.stage i (.count target) hcall
  refine ⟨tr₁, q₁, tr₂, q₂, tr₃, id, by rw [htr]; simp, henters, ⟨hpc, hloop, ?_⟩, ?_, hclean⟩
  · simp only [Xmit.settled, Bool.and_eq_true, List.isEmpty_iff] at hset
    exact hset.1
  · -- the payloads before the barrier are those below `sendBase`
    have hmem₁ : (q₁, RelayConnection.Action.run i .go) ∈ atEnd x tr := by rw [htr]; simp
    have hmem₂ : (q₂, RelayConnection.Action.loop .go) ∈ atEnd x tr := by rw [htr]; simp
    have hle : q₂.xmit.nextSeq ≤ (p x).xmit.nextSeq := hf.next _ hmem₂
    have hbase : target ≤ (p x).xmit.sendBase := by
      by_cases hlt : target ≤ (p x).xmit.sendBase
      · exact hlt
      · have hkey := (hs.window.mem_keys (s := (p x).xmit.sendBase)).mpr ⟨Nat.le_refl _, by omega⟩
        have := List.any_eq_false.mp hdone _ hkey
        simp only [decide_eq_true_eq] at this
        omega
    have hqueued : queuedPayloads q₁.returns <+: queuedPayloads (p x).returns := hf.queued _ hmem₁
    have hstream : (p x).xmit.assigned <+: queuedPayloads (p x).returns := by
      rw [hq.line.order]
      exact hs.window.prefixed.trans (List.prefix_append _ _)
    have hlast := hs.window.base
    have hlen := hs.window.next
    have hassigned := List.prefix_of_prefix_length_le hqueued hstream (by omega)
    exact (List.prefix_take_iff.mpr ⟨hassigned, by omega⟩).trans (acked_pushed ho h.reach x)

/-- A payload is sent, then `Flush`; its barrier is answered when the RPC has finished, and it
    returns nil when the acknowledgement has arrived. -/
theorem flush_barrier_one : ∃ p p' : Pair, p.step (.a, .run 1 .go) = some p' ∧
    (p' .a).returns = (p .a).returns ++ [.flush none] ∧
    ∃ q : RelayConnection, q.calls[1]? = some (.flush .lock) ∧
      queuedPayloads q.returns <+: (p .b).recv.pushed.map Prod.snd := by
  have h : ((record (guarded Pair.step Network) [] (samplePair .reliableOrdered 8) (List.flatten
      [opened, sends .a 0 [10], [(.a, .call .flush)], List.replicate 3 (.a, .run 1 .go), [(.a, .loop .go)],
        [(.a, .task 0 none), (.a, .task 0 none)], [(.a, .loop .go), (.a, .run 1 .go)],
        gets .b (sampleEnvelope .a .kindData 1 0 [10]) 4 9, acks .b, gets .a (sampleEnvelope .b .kindAck 0 1 []) 1 0,
        [(.a, .run 1 .go)]])).any fun r =>
      (r.2.step (.a, .run 1 .go)).any fun p' => (p' .a).returns = (r.2 .a).returns ++ [.flush none]) = true := by
    decide +kernel
  obtain ⟨tr, p, hp, hw⟩ := trace_any (I := fun p => p = samplePair .reliableOrdered 8) _ rfl h
  simp only [Option.any_eq_true, decide_eq_true_eq] at hw
  obtain ⟨p', hstep, hnil⟩ := hw
  obtain ⟨_, q, _, _, _, _, _, henters, _, hsent, _⟩ := flush_barrier (fun _ => rfl) hp hstep hnil
  exact ⟨p, p', hstep, hnil, q, henters.1, hsent⟩

end Turntf.Relay
