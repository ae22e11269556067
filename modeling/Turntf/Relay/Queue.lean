/-
  Turntf.Relay.Queue — the items in front of `sendLoop` (`relay.go`, `relay_flush.go`).

  `Send`, `Flush` and `Close` send on `sendCh` behind `enqueueMu`, and `sendLoop` takes from it.
  The line is what the loop has not done with: the barrier or marker it waits at, and `sendCh`
  behind it. A payload leaves the line when the loop takes it.

  - `LineEffect`: all that a step can do to the line; `step_line` says that the list is complete.
  - `Queued`: the payloads whose `Send` returned nil are the ones taken and the ones in line, in
    this order; one call at a time is between the lock and the unlock of `enqueueMu`; every
    barrier is in line once or has its target.
-/

import Turntf.Lib.Locks
import Turntf.Relay.Steps

namespace Turntf.Relay

open Locks

/-! ## The line -/

/-- The item the loop is waiting at. -/
def LoopPc.item : LoopPc → List SendItem
  | .barrier id => [.barrier id]
  | .marker => [.marker]
  | _ => []

structure Line where
  took : List Bytes
  items : List SendItem
  targets : List (Nat × Nat)
  flushCh : Bool
  barriers : Nat

def Line.push (l : Line) (item : SendItem) : Line := { l with items := l.items ++ [item] }

def Xmit.line (t : Xmit) : Line where
  took := t.took
  items := t.loop.item ++ t.sendCh
  targets := t.targets
  flushCh := t.flushCh
  barriers := t.barriers

def SendItem.payload? : SendItem → Option Bytes
  | .data d => some d
  | _ => none

def SendItem.barrier? : SendItem → Option Nat
  | .barrier id => some id
  | _ => none

def payloads (items : List SendItem) : List Bytes := items.filterMap SendItem.payload?

def barrierIds (items : List SendItem) : List Nat := items.filterMap SendItem.barrier?

@[simp] theorem payloads_append (l r : List SendItem) : payloads (l ++ r) = payloads l ++ payloads r :=
  List.filterMap_append

@[simp] theorem barrierIds_append (l r : List SendItem) : barrierIds (l ++ r) = barrierIds l ++ barrierIds r :=
  List.filterMap_append

@[simp] theorem payloads_nil : payloads [] = [] := rfl

@[simp] theorem barrierIds_nil : barrierIds [] = [] := rfl

@[simp] theorem payloads_data (d : Bytes) (l : List SendItem) : payloads (.data d :: l) = d :: payloads l := rfl

@[simp] theorem payloads_barrier (id : Nat) (l : List SendItem) : payloads (.barrier id :: l) = payloads l := rfl

@[simp] theorem payloads_marker (l : List SendItem) : payloads (.marker :: l) = payloads l := rfl

@[simp] theorem barrierIds_data (d : Bytes) (l : List SendItem) : barrierIds (.data d :: l) = barrierIds l := rfl

@[simp] theorem barrierIds_barrier (id : Nat) (l : List SendItem) : barrierIds (.barrier id :: l) = id :: barrierIds l := rfl

@[simp] theorem barrierIds_marker (l : List SendItem) : barrierIds (.marker :: l) = barrierIds l := rfl

/-- What the action `a` does to the line, and to the payloads whose `Send` returned nil. -/
inductive LineEffect (c : RelayConnection) (a : RelayConnection.Action) (c' : RelayConnection) : Prop
  | same (h : c'.xmit.line = c.xmit.line) (hq : queuedPayloads c'.returns = queuedPayloads c.returns)
  | send {i : Nat} {data : Bytes} (hpc : c.calls[i]? = some (.send data .select))
      (h : c'.xmit.line = c.xmit.line.push (.data data)) (hr : c'.returns = c.returns ++ [.send data none])
  /-- Where `sendCh` has no buffer, the loop takes the payload from the hands of `Send`. -/
  | hand {i : Nat} {data : Bytes} (hpc : c.calls[i]? = some (.send data .select)) (hi : c.xmit.line.items = [])
      (h : c'.xmit.line = { c.xmit.line with took := c.xmit.took ++ [data] })
      (hr : c'.returns = c.returns ++ [.send data none])
  | barrier {i : Nat} (hpc : c.calls[i]? = some (.flush .push))
      (h : c'.xmit.line = { c.xmit.line.push (.barrier c.xmit.barriers) with barriers := c.xmit.barriers + 1 })
      (hcalls : c'.calls = c.calls.set i (.flush (.barrier c.xmit.barriers))) (hr : c'.returns = c.returns)
  | marker {i before : Nat} (hpc : c.calls[i]? = some (.close before .push))
      (h : c'.xmit.line = c.xmit.line.push .marker) (hcalls : c'.calls = c.calls.set i (.close before .flush))
      (hr : c'.returns = c.returns)
  | receive {data : Bytes} {items : List SendItem} (hl : c.xmit.loop = .select)
      (hi : c.xmit.line.items = .data data :: items)
      (h : c'.xmit.line = { c.xmit.line with took := c.xmit.took ++ [data], items := items })
      (hr : c'.returns = c.returns)
  | answer {id : Nat} {items : List SendItem} (ha : a = .loop .go) (hl : c.xmit.loop = .barrier id) (hs : c.xmit.settled = true)
      (hi : c.xmit.line.items = .barrier id :: items)
      (h : c'.xmit.line = { c.xmit.line with items := items, targets := c.xmit.targets ++ [(id, c.xmit.nextSeq)] })
      (hr : c'.returns = c.returns)
  | flush {items : List SendItem} (hl : c.xmit.loop = .marker) (hs : c.xmit.settled = true)
      (hi : c.xmit.line.items = .marker :: items)
      (h : c'.xmit.line = { c.xmit.line with items := items, flushCh := true }) (hr : c'.returns = c.returns)

section

variable {c c' : RelayConnection} {a : RelayConnection.Action} {i : Nat} {how : Choice}

theorem LineEffect.still (h : c'.xmit.line = c.xmit.line) (hr : c'.returns = c.returns) : LineEffect c a c' :=
  .same h (by rw [hr])

theorem handleAck_line (t : Xmit) (reliability : Reliability) (env : RelayEnvelope) :
    (t.handleAck reliability env).line = t.line := by
  unfold Xmit.handleAck
  (repeat' split) <;> rfl

theorem push_line {t t' : Xmit} {cap : Nat} {item : SendItem} (hcap : cap = 0 → t.sendCh = [])
    (h : t.push cap item = some t') :
    t'.line = t.line.push item ∨
      ∃ data, item = .data data ∧ t.line.items = [] ∧ t'.line = { t.line with took := t.took ++ [data] } := by
  unfold Xmit.push at h
  split at h
  · cases h
    refine .inl ?_
    simp only [Xmit.line, Line.push, List.append_assoc]
  · split at h
    · rename_i h0
      split at h <;> rename_i hl <;> cases h
      have hs := hcap h0
      cases item with
      | data data => exact .inr ⟨data, rfl, by simp only [Xmit.line, hl, hs]; rfl, by simp only [Xmit.line, hl]; rfl⟩
      | _ => exact .inl (by simp only [Xmit.line, Xmit.receive, Line.push, hl, hs]; rfl)
    · cases h

theorem retryStep_line {pc pc' : RetryPc} (h : c.retryStep pc how = some (c', pc')) : c'.xmit.line = c.xmit.line := by
  unfold RelayConnection.retryStep at h
  (repeat' split at h) <;> cases h <;> rfl

/-- The loop moves without an item in its hands. -/
theorem loopAt_line {t t' : Xmit} (hitem : t.loop.item = t'.loop.item) (took : t'.took = t.took)
    (sendCh : t'.sendCh = t.sendCh) (targets : t'.targets = t.targets) (flushCh : t'.flushCh = t.flushCh)
    (barriers : t'.barriers = t.barriers) : t'.line = t.line := by
  simp only [Xmit.line, hitem, took, sendCh, targets, flushCh, barriers]

@[simp] theorem loopBack_item (back : Option Bytes) : (RelayConnection.loopBack back).item = [] := by
  cases back <;> rfl

theorem startRetry_line {back : Option Bytes} (hl : c.xmit.loop.item = []) :
    (c.startRetry back).xmit.line = c.xmit.line := by
  unfold RelayConnection.startRetry
  (repeat' split) <;> refine loopAt_line (hl.trans ?_) rfl rfl rfl rfl rfl
  · exact (loopBack_item back).symm
  · exact (loopBack_item back).symm
  · rfl

theorem finishRetry_line {back : Option Bytes} (hl : c.xmit.loop.item = []) (h : c.finishRetry back = some c') :
    c'.xmit.line = c.xmit.line := by
  unfold RelayConnection.finishRetry at h
  split at h <;> cases h
  exact loopAt_line (hl.trans (loopBack_item back).symm) rfl rfl rfl rfl rfl

theorem loopStep_line (h : c.loopStep how = some c') : LineEffect c (.loop how) c' := by
  have hr := (loopStep_rest h).returns
  have hstill : c'.xmit.line = c.xmit.line → LineEffect c (.loop how) c' := fun hl => .still hl hr
  unfold RelayConnection.loopStep at h
  split at h <;> rename_i hloop
  · cases h
    exact hstill (loopAt_line (by rw [hloop]; rfl) rfl rfl rfl rfl rfl)
  · split at h <;> cases h
    rename_i item items hs
    cases item with
    | data data =>
      have hi : c.xmit.line.items = .data data :: items := by simp only [Xmit.line, hloop, hs]; rfl
      exact .receive hloop hi rfl rfl
    | _ =>
      refine hstill ?_
      simp only [Xmit.line, hloop, hs, Xmit.receive]
      rfl
  · split at h <;> cases h
    exact hstill (startRetry_line (by rw [hloop]; rfl))
  · exact hstill (finishRetry_line (by rw [hloop]; rfl) h)
  · split at h <;> cases h
    exact hstill (loopAt_line (by rw [hloop]; rfl) rfl rfl rfl rfl rfl)
  · split at h <;> cases h
    rename_i hs
    exact .answer rfl hloop hs (by simp only [Xmit.line, hloop]; rfl) rfl rfl
  · split at h <;> cases h
    rename_i hs
    exact .flush hloop hs (by simp only [Xmit.line, hloop]; rfl) rfl rfl
  · (repeat' split at h) <;> cases h <;> exact hstill (loopAt_line (by rw [hloop]; rfl) rfl rfl rfl rfl rfl)
  · split at h <;> cases h
    exact hstill (loopAt_line (by rw [hloop]; rfl) rfl rfl rfl rfl rfl)
  · cases h
    exact hstill (startRetry_line (by rw [hloop]; rfl))
  · exact hstill (finishRetry_line (by rw [hloop]; rfl) h)
  · split at h <;> cases h
    exact hstill (loopAt_line (by rw [hloop]; rfl) rfl rfl rfl rfl rfl)
  · split at h <;> cases h
    exact hstill (loopAt_line (by rw [hloop]; rfl) rfl rfl rfl rfl rfl)
  · split at h <;> cases h
    exact hstill (loopAt_line (by rw [hloop]; rfl) rfl rfl rfl rfl rfl)
  · cases h
    exact hstill (loopAt_line (by rw [hloop]; rfl) rfl rfl rfl rfl rfl)
  · cases h
    exact hstill (loopAt_line (by rw [hloop]; exact (loopBack_item _).symm) rfl rfl rfl rfl rfl)
  · rename_i hl
    obtain ⟨⟨c₁, pc'⟩, hs, rfl⟩ := Option.map_eq_some_iff.mp h
    refine hstill (Eq.trans ?_ (retryStep_line hs))
    exact loopAt_line (by rw [(retryStep_frame hs).loop, hl]; rfl) rfl rfl rfl rfl rfl
  · split at h <;> cases h
    exact hstill (loopAt_line (by rw [hloop]; rfl) rfl rfl rfl rfl rfl)
  · cases h

theorem CallEffect.line {pc : CallPc} (hcap : c.sendCap = 0 → c.xmit.sendCh = []) (hpc : c.calls[i]? = some pc)
    (h : CallEffect c i pc c') : LineEffect c a c' := by
  cases h with
  | ret hr =>
    refine .same rfl ?_
    cases hr <;> simp [RelayConnection.ret, queuedPayloads, sentPayloads]
  | send hp =>
    rcases push_line hcap hp with hl | ⟨data, he, hi, hl⟩
    · exact .send hpc hl rfl
    · cases he
      exact .hand hpc hi hl rfl
  | @barrier t hp =>
    rcases push_line hcap hp with hl | ⟨data, he, _⟩
    · refine .barrier hpc ?_ rfl rfl
      show ({ t.line with barriers := t.line.barriers + 1 } : Line) = _
      rw [hl]
      rfl
    · cases he
  | marker hp =>
    rcases push_line hcap hp with hl | ⟨data, he, _⟩
    · exact .marker hpc hl rfl rfl
    · cases he
  | receive =>
    refine .same rfl ?_
    simp [RelayConnection.ret, RelayConnection.take, queuedPayloads, sentPayloads]
  | _ => exact .still rfl rfl

/-- The list of what a step does to the line is complete. -/
theorem step_line (hcap : c.sendCap = 0 → c.xmit.sendCh = []) (h : c.step a = some c') :
    LineEffect c a c' := by
  cases a with
  | packet env =>
    simp only [RelayConnection.step, RelayConnection.handlePacket, RelayConnection.enqueueEnvelope] at h
    (repeat' split at h) <;> cases h <;> exact .still rfl rfl
  | reader =>
    refine .still ?_ (readerStep_out h).2.2.1
    cases readerStep_effect h with
    | ack => exact handleAck_line _ _ _
    | _ => rfl
  | dispatcher how => cases dispatchStep_effect h with
    | ack => exact .still (handleAck_line _ _ _) rfl
    | _ => exact .still rfl rfl
  | ackWorker how => exact .still (congrArg Xmit.line (ackStep_frame h).xmit) (ackStep_frame h).returns
  | loop how => exact loopStep_line h
  | round how =>
    simp only [RelayConnection.step, RelayConnection.roundStep] at h
    split at h
    · obtain ⟨⟨c₁, pc'⟩, hs, rfl⟩ := Option.map_eq_some_iff.mp h
      have hline : c₁.xmit.line = c.xmit.line := retryStep_line hs
      exact .still hline (retryStep_frame hs).returns
    · cases h
  | task i err =>
    refine .still ?_ (taskStep_rest h).1.returns
    simp only [RelayConnection.step, RelayConnection.taskStep] at h
    (repeat' split at h) <;> cases h <;> rfl
  | call call =>
    cases h
    cases call with
    | send data => cases data with
      | nil => exact .same rfl (by simp [RelayConnection.startCall, queuedPayloads, sentPayloads])
      | cons => exact .still rfl rfl
    | _ => exact .still rfl rfl
  | run i how =>
    obtain ⟨pc, hpc, he⟩ := callStep_effect h
    exact he.line hcap hpc
  | onClose callback =>
    cases h
    unfold RelayConnection.registerOnClose
    split <;> exact .still rfl rfl
  | _ =>
    simp only [RelayConnection.step, RelayConnection.notifyStep] at h
    (repeat' split at h) <;> cases h <;> exact .still rfl rfl

/-! ## `enqueueMu` -/

/-- `enqueueMu`, if the call holds it. -/
def CallPc.locks (pc : CallPc) : List Unit := if pc.holds then [()] else []

theorem CallPc.mem_locks {pc : CallPc} {u : Unit} : u ∈ pc.locks ↔ pc.holds = true := by
  unfold CallPc.locks
  split <;> simp [*]

theorem locked_false (h : c.locked = false) (u : Unit) : u ∉ c.calls.flatMap CallPc.locks := by
  intro hm
  obtain ⟨pc, hpc, hu⟩ := List.mem_flatMap.mp hm
  have := List.any_eq_false.mp h pc hpc
  exact this (CallPc.mem_locks.mp hu)

/-- A call that goes on takes `enqueueMu` only when no call holds it. -/
theorem CallMove.locks {pc pc' : CallPc} (h : CallMove c pc pc') : ∃ w : Option Unit,
    (∀ u, w = some u → u ∉ c.calls.flatMap CallPc.locks) ∧ ∀ u, pc'.locks.count u ≤ (w.toList ++ pc.locks).count u := by
  have hlock : c.locked = false → ∀ u, some () = some u → u ∉ c.calls.flatMap CallPc.locks :=
    fun hl u _ => locked_false hl u
  have hfree : pc'.locks = [] → ∃ w : Option Unit, (∀ u, w = some u → u ∉ c.calls.flatMap CallPc.locks) ∧
      ∀ u, pc'.locks.count u ≤ (w.toList ++ pc.locks).count u := by
    intro hn
    refine ⟨none, nofun, fun u => ?_⟩
    rw [hn]
    exact Nat.zero_le _
  cases h with
  | sendLock hl | flushLock hl | closeLock hl => exact ⟨some (), hlock hl, fun _ => Nat.le_refl _⟩
  | sendOpen | flushOpen => exact ⟨none, nofun, fun _ => Nat.le_refl _⟩
  | closeFlushed => exact hfree (by split <;> rfl)
  | _ => exact hfree rfl

theorem CallEffect.exclusive {pc : CallPc} (h : CallEffect c i pc c') (hpc : c.calls[i]? = some pc)
    (hx : Exclusive CallPc.locks c.calls) : Exclusive CallPc.locks c'.calls := by
  have hfree : ∀ {pc' : CallPc}, pc'.locks = [] → Exclusive CallPc.locks (c.calls.set i pc') := by
    intro pc' hn
    refine hx.set hpc none nofun fun u => ?_
    rw [hn]
    exact Nat.zero_le _
  cases h with
  | move h =>
    obtain ⟨w, hw, hn⟩ := h.locks
    exact hx.set hpc w hw hn
  | closing => exact hx.set hpc none nofun fun _ => Nat.le_refl _
  | _ => exact hfree rfl

theorem StepEffect.exclusive {a : RelayConnection.Action} (h : StepEffect c a c')
    (hx : Exclusive CallPc.locks c.calls) : Exclusive CallPc.locks c'.calls := by
  rcases h.calls with hs | ⟨call, _, rfl⟩ | ⟨i, how, pc, _, hpc, he⟩
  · rwa [hs]
  · cases call with
    | send data => cases data <;> exact hx.add rfl
    | _ => exact hx.add rfl
  · exact he.exclusive hpc hx

/-! ## First in, first out -/

/-- The line of the payloads `queued`: each was taken or is in line, in order, and each barrier
    made is in line or has its target, but not both. -/
structure Line.Sound (l : Line) (queued : List Bytes) : Prop where
  order : queued = l.took ++ payloads l.items
  once : (barrierIds l.items ++ l.targets.map Prod.fst).Nodup
  made : ∀ id ∈ barrierIds l.items ++ l.targets.map Prod.fst, id < l.barriers

structure Queued (c : RelayConnection) : Prop where
  cap : c.sendCap = 0 → c.xmit.sendCh = []
  sends : ∀ data pc, .send data pc ∈ c.calls → data ≠ []
  exclusive : Exclusive CallPc.locks c.calls
  line : c.xmit.line.Sound (queuedPayloads c.returns)

theorem Queued.new (config : RelayConfig) (relayID : String) (my remote : SessionRef) (dialed : Bool) :
    Queued (.new config relayID my remote dialed) :=
  ⟨fun _ => rfl, nofun, fun _ => Nat.zero_le _, rfl, .nil, nofun⟩

/-- Two calls that hold `enqueueMu` are one. -/
theorem Queued.alone (h : Queued c) {j : Nat} {x y : CallPc} (hx : c.calls[i]? = some x) (hy : c.calls[j]? = some y)
    (hhx : x.holds = true) (hhy : y.holds = true) : j = i := by
  by_cases hne : j = i
  · exact hne
  · exact absurd (CallPc.mem_locks.mpr hhy) (h.exclusive.apart hx hy hne (k := ()) (CallPc.mem_locks.mpr hhx))

theorem XmitEffect.sendCh {t : Xmit} (h : XmitEffect c t) (hc : c.sendCap = 0 → c.xmit.sendCh = []) :
    c.sendCap = 0 → t.sendCh = [] := by
  intro h0
  have hs := hc h0
  cases h with
  | still core => rw [core.sendCh, hs]
  | ack =>
    unfold Xmit.handleAck
    (repeat' split) <;> exact hs
  | @push item t _ hp =>
    show t.sendCh = []
    rw [h0] at hp
    unfold Xmit.push at hp
    split at hp
    · omega
    · (repeat' split at hp) <;> cases hp
      cases item <;> exact hs
  | receive _ hq =>
    rw [hs] at hq
    cases hq
  | _ => exact hs

theorem StepEffect.sends {a : RelayConnection.Action} (h : StepEffect c a c')
    (hs : ∀ data pc, .send data pc ∈ c.calls → data ≠ []) : ∀ data pc, .send data pc ∈ c'.calls → data ≠ [] := by
  rcases h.calls with hc | ⟨call, _, rfl⟩ | ⟨i, how, pc₀, _, hpc, he⟩
  · rwa [hc]
  · intro data pc hm
    cases call with
    | send d => cases d with
      | nil =>
        rcases List.mem_append.mp hm with hm | hm
        · exact hs data pc hm
        · cases List.mem_singleton.mp hm
      | cons =>
        rcases List.mem_append.mp hm with hm | hm
        · exact hs data pc hm
        · cases List.mem_singleton.mp hm
          nofun
    | _ =>
      rcases List.mem_append.mp hm with hm | hm
      · exact hs data pc hm
      · cases List.mem_singleton.mp hm
  · have hin := List.mem_of_getElem? hpc
    have hset : ∀ {pc' : CallPc}, (∀ data pc, pc' = .send data pc → data ≠ []) →
        ∀ data pc, .send data pc ∈ c.calls.set i pc' → data ≠ [] := by
      intro pc' hn data pc hm
      rcases List.mem_or_eq_of_mem_set hm with hm | hm
      · exact hs data pc hm
      · exact hn data pc hm.symm
    cases he with
    | move hm =>
      refine hset fun data pc he => ?_
      subst he
      cases hm <;> exact hs _ _ hin
    | _ => exact hset nofun

theorem queuedPayloads_snoc (returns : List Return) {data : Bytes} (hd : data ≠ []) :
    queuedPayloads (returns ++ [.send data none]) = queuedPayloads returns ++ [data] := by
  simp [queuedPayloads, sentPayloads, hd]

/-- What was queued stays queued. -/
theorem LineEffect.queued_grows (h : LineEffect c a c') : queuedPayloads c.returns <+: queuedPayloads c'.returns := by
  have hsnoc : ∀ data, queuedPayloads c.returns <+: queuedPayloads (c.returns ++ [.send data none]) := by
    intro data
    simp [queuedPayloads, sentPayloads]
  cases h with
  | same _ hq => rw [hq]
  | send _ _ hr => rw [hr]; exact hsnoc _
  | hand _ _ _ hr => rw [hr]; exact hsnoc _
  | barrier _ _ _ hr | marker _ _ _ hr | receive _ _ _ hr | answer _ _ _ _ _ hr | flush _ _ _ _ hr => rw [hr]

theorem LineEffect.sound (h : LineEffect c a c') (hd : ∀ data pc, .send data pc ∈ c.calls → data ≠ [])
    (hs : c.xmit.line.Sound (queuedPayloads c.returns)) : c'.xmit.line.Sound (queuedPayloads c'.returns) := by
  obtain ⟨horder, honce, hmade⟩ := hs
  cases h with
  | same h hq =>
    rw [h, hq]
    exact ⟨horder, honce, hmade⟩
  | send hpc h hr =>
    rw [h, hr, queuedPayloads_snoc _ (hd _ _ (List.mem_of_getElem? hpc))]
    exact ⟨by simp [Line.push, horder], by simpa [Line.push] using honce, by simpa [Line.push] using hmade⟩
  | hand hpc hi h hr =>
    rw [h, hr, queuedPayloads_snoc _ (hd _ _ (List.mem_of_getElem? hpc))]
    refine ⟨?_, honce, hmade⟩
    rw [horder, hi]
    simp [Xmit.line]
  | barrier hpc h hcalls hr =>
    rw [h, hr]
    have hnew : c.xmit.barriers ∉ barrierIds c.xmit.line.items ++ c.xmit.line.targets.map Prod.fst :=
      fun hm => Nat.lt_irrefl _ (hmade _ hm)
    refine ⟨by simpa [Line.push] using horder, ?_, fun id hid => ?_⟩
    · simp only [Line.push, barrierIds_append, barrierIds_barrier, barrierIds_nil, List.append_assoc, List.singleton_append]
      exact List.nodup_middle.mpr (List.nodup_cons.mpr ⟨hnew, honce⟩)
    · simp only [Line.push, barrierIds_append, barrierIds_barrier, barrierIds_nil, List.append_assoc, List.singleton_append,
        List.mem_append, List.mem_cons] at hid
      have := hmade id
      rw [List.mem_append] at this
      show id < c.xmit.barriers + 1
      have hb : c.xmit.line.barriers = c.xmit.barriers := rfl
      rcases hid with hid | rfl | hid
      · have := this (.inl hid)
        omega
      · omega
      · have := this (.inr hid)
        omega
  | marker hpc h hcalls hr =>
    rw [h, hr]
    exact ⟨by simpa [Line.push] using horder, by simpa [Line.push] using honce, by simpa [Line.push] using hmade⟩
  | receive hl hi h hr =>
    rw [h, hr]
    rw [hi] at horder honce hmade
    exact ⟨by simpa [Xmit.line] using horder, honce, hmade⟩
  | @answer id items _ hl hset hi h hr =>
    rw [h, hr]
    rw [hi] at horder honce hmade
    have hperm : (barrierIds items ++ (c.xmit.targets ++ [(id, c.xmit.nextSeq)]).map Prod.fst).Perm
        (barrierIds (.barrier id :: items) ++ c.xmit.line.targets.map Prod.fst) := by
      rw [List.map_append, ← List.append_assoc, barrierIds_barrier]
      exact List.perm_append_singleton id _
    exact ⟨horder, hperm.nodup_iff.mpr honce, fun j hj => hmade j (hperm.mem_iff.mp hj)⟩
  | flush hl hset hi h hr =>
    rw [h, hr]
    rw [hi] at horder honce hmade
    exact ⟨horder, honce, hmade⟩

theorem Queued.step (h : Queued c) {a : RelayConnection.Action} (hs : c.step a = some c') : Queued c' := by
  have heff := step_effect hs
  refine ⟨?_, heff.sends h.sends, heff.exclusive h.exclusive, (step_line h.cap hs).sound h.sends h.line⟩
  rw [RelayConnection.sendCap, heff.conn.config]
  exact heff.xmit.sendCh h.cap

end

end Turntf.Relay
