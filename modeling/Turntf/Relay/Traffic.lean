/-
  Turntf.Relay.Traffic — how much a connection sends (`sendLoop` and `retransmit` of `relay.go`).

  A DATA frame is handed to the network once by `sendLoop`, and again by every retry round that
  finds it in `unacked`. A round counts itself in `retransCnt`, which only an ACK that advances
  the window sets back. A sending waits for its slot of `inflight`, first sendings and repeated
  ones alike; a round hands its slot on to the goroutine it starts.

  `spent` is what was sent of a frame and what is still to be sent of it by those who have it
  in hand. `Spends` says what each step adds to that.

  - `Moderate`: the window can advance at most `WindowSize` times before a frame itself is
    acknowledged, and between two advances there are at most `MaxRetransmits` rounds.
  - `traffic_bounded`: so whatever arrives, a frame is sent at most `1 + MaxRetransmits * WindowSize`
    times, and at no time wait more than 64 sendings, or `WindowSize` if that is less, for their
    acceptance. The first bound is reached (`traffic_bounded_reached`).
-/

import Turntf.Relay.Window

namespace Turntf.Relay

open Lts Numbered

/-! ## What is sent and what is to be sent -/

/-- DATA frame number `s`. -/
def RelayEnvelope.isFrame (s : Nat) (env : RelayEnvelope) : Bool := env.isData && env.seq == s

/-- How often frame `s` was handed to the network. -/
def RelayConnection.sendings (c : RelayConnection) (s : Nat) : Nat := c.out.countP (RelayEnvelope.isFrame s)

/-- The frames a round has yet to send. -/
def RetryPc.todo : RetryPc → List RelayEnvelope
  | .next frames | .sending _ frames | .sent frames => frames
  | .acquire env frames | .recheck env frames => env :: frames
  | .start | .tooMany | .wait | .done => []

def RetryPc.slots : RetryPc → Nat
  | .recheck _ _ | .sending _ _ | .sent _ => 1
  | _ => 0

def LoopPc.todo : LoopPc → List RelayEnvelope
  | .retry pc _ => pc.todo
  | _ => []

/-- The frame that waits for its first sending. -/
def LoopPc.first : LoopPc → List RelayEnvelope
  | .acquire env => [env]
  | _ => []

def LoopPc.slots : LoopPc → Nat
  | .retry pc _ => pc.slots
  | _ => 0

def Xmit.todo (t : Xmit) : List RelayEnvelope := t.loop.todo ++ (t.retry.map RetryPc.todo).getD []

/-- What was sent of frame `s`, and what will be unless the connection closes. A round drops what
    is no longer in `unacked`. -/
def RelayConnection.spent (c : RelayConnection) (s : Nat) : Nat :=
  c.sendings s + c.xmit.loop.first.countP (RelayEnvelope.isFrame s) +
    if c.xmit.sendBase ≤ s then c.xmit.todo.countP (RelayEnvelope.isFrame s) else 0

theorem Xmit.inflight_eq (t : Xmit) :
    t.inflight = t.tasks.length + (t.retry.map RetryPc.slots).getD 0 + t.loop.slots := rfl

/-- What a step adds to the sendings. -/
inductive Spends (c c' : RelayConnection) : Prop
  | quiet (base : c'.xmit.sendBase = c.xmit.sendBase) (next : c'.xmit.nextSeq = c.xmit.nextSeq)
      (count : c.xmit.retransCnt ≤ c'.xmit.retransCnt) (spent : ∀ s, c'.spent s ≤ c.spent s)
  | round (base : c'.xmit.sendBase = c.xmit.sendBase) (next : c'.xmit.nextSeq = c.xmit.nextSeq)
      (count : c'.xmit.retransCnt = c.xmit.retransCnt + 1) (most : c'.xmit.retransCnt ≤ c.config.maxRetransmits)
      (spent : ∀ s, c'.spent s ≤ c.spent s + if c.xmit.sendBase ≤ s ∧ s < c.xmit.nextSeq then 1 else 0)
  | assign (base : c'.xmit.sendBase = c.xmit.sendBase) (next : c'.xmit.nextSeq = c.xmit.nextSeq + 1)
      (count : c'.xmit.retransCnt = c.xmit.retransCnt)
      (spent : ∀ s, c'.spent s ≤ c.spent s + if s = c.xmit.nextSeq then 1 else 0)
  | ack (base : c.xmit.sendBase < c'.xmit.sendBase) (next : c'.xmit.nextSeq = c.xmit.nextSeq)
      (count : c'.xmit.retransCnt = 0) (spent : ∀ s, c'.spent s ≤ c.spent s)

/-- A step takes a slot only if there is one. -/
def TakesFree (c c' : RelayConnection) : Prop :=
  c'.xmit.inflight ≤ c.xmit.inflight ∨ c'.xmit.inflight ≤ inflightLimit c.config.windowSize

/-- A step of `retransmit`, whoever runs it. -/
inductive RetryTraffic (c : RelayConnection) (pc : RetryPc) (c' : RelayConnection) (pc' : RetryPc) : Prop
  | quiet (out : c'.out = c.out) (count : c.xmit.retransCnt ≤ c'.xmit.retransCnt) (todo : pc'.todo.Sublist pc.todo)
      (tasks : c'.xmit.tasks = c.xmit.tasks)
      (slots : pc'.slots ≤ pc.slots ∨ c.slotFree = true ∧ pc'.slots ≤ pc.slots + 1)
  | round (out : c'.out = c.out) (count : c'.xmit.retransCnt = c.xmit.retransCnt + 1)
      (most : c'.xmit.retransCnt ≤ c.config.maxRetransmits) (todo : pc'.todo = c.retransmitFrames) (tasks : c'.xmit.tasks = c.xmit.tasks)
      (slots : pc'.slots ≤ pc.slots)
  | emit {env : RelayEnvelope} (pending : c.xmit.retryStillPending c.life.closed env.seq = true)
      (out : c'.out = c.out ++ [env]) (count : c'.xmit.retransCnt = c.xmit.retransCnt) (todo : pc.todo = env :: pc'.todo)
      (slots : c'.xmit.tasks.length + pc'.slots = c.xmit.tasks.length + pc.slots)

section

variable {c c' : RelayConnection} {how : Choice}

theorem retryStep_traffic {pc pc' : RetryPc} (h : c.retryStep pc how = some (c', pc')) : RetryTraffic c pc c' pc' := by
  simp only [RelayConnection.retryStep] at h
  split at h
  · split at h
    · cases h
      exact .quiet rfl (Int.le_refl _) .slnil rfl (.inl (Nat.le_refl _))
    · split at h <;> cases h
      · exact .quiet rfl (by dsimp only; omega) .slnil rfl (.inl (Nat.le_refl _))
      · exact .round rfl rfl (by dsimp only; omega) rfl rfl (Nat.le_refl _)
  · cases h
    exact .quiet rfl (Int.le_refl _) .slnil rfl (.inl (Nat.le_refl _))
  · cases h
    exact .quiet rfl (Int.le_refl _) .slnil rfl (.inl (Nat.le_refl _))
  · split at h <;> cases h
    · exact .quiet rfl (Int.le_refl _) (.refl _) rfl (.inl (Nat.le_refl _))
    · exact .quiet rfl (Int.le_refl _) (List.sublist_cons_self _ _) rfl (.inl (Nat.le_refl _))
  · split at h <;> cases h
    rename_i hfree
    exact .quiet rfl (Int.le_refl _) (.refl _) rfl (.inr ⟨hfree, Nat.le_refl _⟩)
  · split at h <;> cases h
    exact .quiet rfl (Int.le_refl _) (List.nil_sublist _) rfl (.inl (Nat.le_refl _))
  · split at h
    · rename_i hpending
      split at h <;> cases h
      · refine .emit hpending rfl rfl rfl ?_
        simp [RelayConnection.spawn, RelayConnection.emit, RetryPc.slots]
      · exact .emit hpending rfl rfl rfl rfl
    · cases h
      exact .quiet rfl (Int.le_refl _) (List.sublist_cons_self _ _) rfl (.inl (Nat.zero_le _))
  · cases h
    exact .quiet rfl (Int.le_refl _) (.refl _) rfl (.inl (Nat.le_refl _))
  · cases h
    exact .quiet rfl (Int.le_refl _) (.refl _) rfl (.inl (Nat.zero_le _))
  · split at h <;> cases h
    exact .quiet rfl (Int.le_refl _) .slnil rfl (.inl (Nat.le_refl _))
  · cases h

/-- Each frame of the window is collected once. -/
theorem retransmitFrames_count (c : RelayConnection) (s : Nat) : c.retransmitFrames.countP (RelayEnvelope.isFrame s) ≤
    if c.xmit.sendBase ≤ s ∧ s < c.xmit.nextSeq then 1 else 0 := by
  let numbers := List.range' c.xmit.sendBase (c.xmit.nextSeq - c.xmit.sendBase)
  have hle : c.retransmitFrames.countP (RelayEnvelope.isFrame s) ≤ numbers.count s := by
    unfold RelayConnection.retransmitFrames
    rw [List.countP_filterMap]
    refine List.countP_mono_left fun n _ hn => ?_
    cases hd : c.xmit.unacked.lookup n with
    | none =>
      rw [hd] at hn
      cases hn
    | some data =>
      rw [hd] at hn
      have hframe : RelayEnvelope.isFrame s (c.dataEnvelope n data) = true := hn
      exact (Bool.and_eq_true_iff.mp hframe).2
  have hmem : s ∈ numbers ↔ c.xmit.sendBase ≤ s ∧ s < c.xmit.nextSeq := by
    rw [List.mem_range'_1]
    omega
  split
  · exact hle.trans (List.nodup_iff_count_le_one.mp List.nodup_range' s)
  · rename_i hs
    rwa [List.count_eq_zero_of_not_mem (mt hmem.mp hs)] at hle

/-- Nothing is sent, and nothing comes to be sent. -/
theorem Spends.still (base : c'.xmit.sendBase = c.xmit.sendBase) (next : c'.xmit.nextSeq = c.xmit.nextSeq)
    (count : c'.xmit.retransCnt = c.xmit.retransCnt)
    (out : ∀ s, c'.sendings s + c'.xmit.loop.first.countP (RelayEnvelope.isFrame s) ≤
      c.sendings s + c.xmit.loop.first.countP (RelayEnvelope.isFrame s))
    (todo : c'.xmit.todo.Sublist c.xmit.todo) : Spends c c' := by
  refine .quiet base next (Int.le_of_eq count.symm) fun s => ?_
  have h₁ := out s
  have h₂ := todo.countP_le (p := RelayEnvelope.isFrame s)
  simp only [RelayConnection.spent, base]
  split <;> omega

/-- A step of `retransmit` by one who has `pc` in hand, beside `others`. -/
theorem RetryTraffic.spends {pc pc' : RetryPc} {c₁ : RelayConnection}
    (ht : RetryTraffic c pc c₁ pc') (others : List RelayEnvelope) (hf : RetryFrame c pc c₁ pc') (hw : c.xmit.Window) (out : c'.out = c₁.out)
    (base : c'.xmit.sendBase = c₁.xmit.sendBase) (next : c'.xmit.nextSeq = c₁.xmit.nextSeq)
    (count : c'.xmit.retransCnt = c₁.xmit.retransCnt) (first : c'.xmit.loop.first = c.xmit.loop.first)
    (before : c.xmit.todo.Perm (pc.todo ++ others)) (after : c'.xmit.todo.Perm (pc'.todo ++ others)) : Spends c c' := by
  have hbase := base.trans hf.core.sendBase
  have hnext := next.trans hf.core.nextSeq
  have hbefore : ∀ s, c.xmit.todo.countP (RelayEnvelope.isFrame s) =
      pc.todo.countP (RelayEnvelope.isFrame s) + others.countP (RelayEnvelope.isFrame s) := fun s => by
    rw [before.countP_eq, List.countP_append]
  have hafter : ∀ s, c'.xmit.todo.countP (RelayEnvelope.isFrame s) =
      pc'.todo.countP (RelayEnvelope.isFrame s) + others.countP (RelayEnvelope.isFrame s) := fun s => by
    rw [after.countP_eq, List.countP_append]
  cases ht with
  | quiet hout hcount htodo =>
    refine .quiet hbase hnext (count ▸ hcount) fun s => ?_
    have := htodo.countP_le (p := RelayEnvelope.isFrame s)
    simp only [RelayConnection.spent, RelayConnection.sendings, hbase, first, out, hout, hbefore, hafter]
    split <;> omega
  | round hout hcount hmost htodo =>
    refine .round hbase hnext (count.trans hcount) (count ▸ hmost) fun s => ?_
    have := retransmitFrames_count c s
    simp only [RelayConnection.spent, RelayConnection.sendings, hbase, first, out, hout, hbefore, hafter, htodo]
    split at this <;> rename_i hs
    · rw [if_pos hs]
      split <;> omega
    · rw [if_neg hs]
      split <;> omega
  | @emit env hpending hout hcount htodo =>
    refine .quiet hbase hnext (by rw [count, hcount]) fun s => ?_
    -- what is still pending lies in the window
    have hin : RelayEnvelope.isFrame s env = true → c.xmit.sendBase ≤ s := by
      intro hs
      obtain ⟨data, hdata⟩ := Option.isSome_iff_exists.mp (Bool.and_eq_true_iff.mp hpending).1
      rw [← eq_of_beq (Bool.and_eq_true_iff.mp hs).2]
      exact ((hw.unacked _ _).mp hdata).1
    simp only [RelayConnection.spent, RelayConnection.sendings, hbase, first, out, hout, hbefore, hafter, htodo,
      List.countP_append, List.countP_cons, List.countP_nil]
    by_cases hs : RelayEnvelope.isFrame s env = true
    · rw [if_pos (hin hs), if_pos (hin hs), if_pos hs]
      omega
    · rw [if_neg hs]
      split <;> omega

theorem RetryTraffic.takesFree {pc pc' : RetryPc} {c₁ : RelayConnection} {n : Nat} (ht : RetryTraffic c pc c₁ pc')
    (before : c.xmit.inflight = c.xmit.tasks.length + pc.slots + n)
    (after : c'.xmit.inflight = c₁.xmit.tasks.length + pc'.slots + n) : TakesFree c c' := by
  unfold TakesFree
  cases ht with
  | quiet _ _ _ htasks hslots =>
    rw [htasks] at after
    rcases hslots with hslots | ⟨hfree, hslots⟩
    · exact .inl (by omega)
    · have := of_decide_eq_true hfree
      exact .inr (by omega)
  | round _ _ _ _ htasks hslots =>
    rw [htasks] at after
    exact .inl (by omega)
  | emit _ _ _ _ hslots => exact .inl (by omega)

/-- The loop moves on with no frame in hand; a round may begin or end. -/
structure LoopMove (c c' : RelayConnection) : Prop where
  out : c'.out = c.out
  base : c'.xmit.sendBase = c.xmit.sendBase
  next : c'.xmit.nextSeq = c.xmit.nextSeq
  count : c'.xmit.retransCnt = c.xmit.retransCnt
  tasks : c'.xmit.tasks = c.xmit.tasks
  first : c'.xmit.loop.first = []
  todo : c'.xmit.loop.todo = []
  slots : c'.xmit.loop.slots = 0
  retry : c'.xmit.retry = c.xmit.retry ∨ c'.xmit.retry = none ∨ c'.xmit.retry = some .start

theorem LoopMove.traffic (h : LoopMove c c') : Spends c c' ∧ TakesFree c c' := by
  constructor
  · refine .still h.base h.next h.count (fun s => ?_) ?_
    · simp only [RelayConnection.sendings, h.out, h.first, List.countP_nil]
      omega
    · rw [Xmit.todo, Xmit.todo, h.todo, List.nil_append]
      rcases h.retry with hr | hr | hr <;> rw [hr]
      · exact List.sublist_append_right _ _
      · exact List.nil_sublist _
      · exact List.nil_sublist _
  · refine .inl ?_
    rw [Xmit.inflight_eq, Xmit.inflight_eq, h.tasks, h.slots]
    rcases h.retry with hr | hr | hr <;> rw [hr]
    · omega
    · simp only [Option.map_none, Option.getD_none]
      omega
    · simp only [Option.map_some, Option.getD_some, RetryPc.slots]
      omega

theorem loopBack_idle (back : Option Bytes) : (RelayConnection.loopBack back).first = [] ∧
    (RelayConnection.loopBack back).todo = [] ∧ (RelayConnection.loopBack back).slots = 0 := by
  cases back <;> exact ⟨rfl, rfl, rfl⟩

theorem receive_idle (t : Xmit) (item : SendItem) : (t.receive item).loop.first = [] ∧ (t.receive item).loop.todo = [] ∧
    (t.receive item).loop.slots = 0 := by
  cases item <;> exact ⟨rfl, rfl, rfl⟩

theorem startRetry_move (back : Option Bytes) : LoopMove c (c.startRetry back) := by
  obtain ⟨hfirst, htodo, hslots⟩ := loopBack_idle back
  unfold RelayConnection.startRetry
  split
  · exact ⟨rfl, rfl, rfl, rfl, rfl, hfirst, htodo, hslots, .inl rfl⟩
  · split
    · exact ⟨rfl, rfl, rfl, rfl, rfl, hfirst, htodo, hslots, .inr (.inr rfl)⟩
    · exact ⟨rfl, rfl, rfl, rfl, rfl, rfl, rfl, rfl, .inl rfl⟩

theorem finishRetry_move {back : Option Bytes} (h : c.finishRetry back = some c') : LoopMove c c' := by
  obtain ⟨hfirst, htodo, hslots⟩ := loopBack_idle back
  unfold RelayConnection.finishRetry at h
  split at h <;> cases h
  exact ⟨rfl, rfl, rfl, rfl, rfl, hfirst, htodo, hslots, .inr (.inl rfl)⟩

/-- The loop moves on and nothing else does. -/
theorem LoopMove.at {pc : LoopPc} (hfirst : pc.first = []) (htodo : pc.todo = []) (hslots : pc.slots = 0) :
    LoopMove c (c.loopAt pc) :=
  ⟨rfl, rfl, rfl, rfl, rfl, hfirst, htodo, hslots, .inl rfl⟩

/-- A frame gets its number and is in the loop's hands. -/
theorem assign_traffic {data : Bytes} (hs : Sending c) (hloop : c.xmit.loop = .data data)
    (hc : c' = { c with xmit := c.xmit.assign data }.loopAt (.acquire (c.dataEnvelope c.xmit.nextSeq data))) :
    Spends c c' ∧ TakesFree c c' := by
  subst hc
  have hbase : (c.xmit.assign data).sendBase = c.xmit.sendBase := by
    have := hs.window.base
    exact if_neg (by omega)
  refine ⟨.assign hbase rfl rfl fun s => ?_, .inl ?_⟩
  · have hnew : [c.dataEnvelope c.xmit.nextSeq data].countP (RelayEnvelope.isFrame s) ≤
        if s = c.xmit.nextSeq then 1 else 0 := by
      split
      · exact List.countP_le_length
      · rename_i hne
        have : ((c.dataEnvelope c.xmit.nextSeq data).seq == s) = false := beq_false_of_ne (Ne.symm hne)
        simp [RelayEnvelope.isFrame, this]
    have hfirst : c.xmit.loop.first = [] := by
      rw [hloop]
      rfl
    have htodo : c.xmit.todo = (c.xmit.retry.map RetryPc.todo).getD [] := by
      rw [Xmit.todo, hloop]
      rfl
    simp only [RelayConnection.spent, hfirst, htodo, List.countP_nil]
    show c.sendings s + [c.dataEnvelope c.xmit.nextSeq data].countP _ +
      (if (c.xmit.assign data).sendBase ≤ s then ((c.xmit.retry.map RetryPc.todo).getD []).countP _ else 0) ≤ _
    rw [hbase]
    omega
  · rw [Xmit.inflight_eq, Xmit.inflight_eq, hloop]
    exact Nat.le_refl _

/-- The frame in the loop's hands is handed to a task, which takes a free slot. -/
theorem spawn_traffic {env : RelayEnvelope} (hloop : c.xmit.loop = .acquire env) (hfree : c.slotFree = true)
    (hc : c' = (c.loopAt .select).spawn env false) : Spends c c' ∧ TakesFree c c' := by
  subst hc
  refine ⟨.still rfl rfl rfl (fun s => ?_) ?_, .inr ?_⟩
  · simp [RelayConnection.sendings, RelayConnection.spawn, RelayConnection.emit, RelayConnection.loopAt, LoopPc.first, hloop]
  · simp [Xmit.todo, RelayConnection.spawn, RelayConnection.emit, RelayConnection.loopAt, LoopPc.todo, hloop]
  · have hroom := of_decide_eq_true hfree
    rw [Xmit.inflight_eq, hloop] at hroom
    simp only [Xmit.inflight_eq, RelayConnection.spawn, RelayConnection.emit, RelayConnection.loopAt, LoopPc.slots,
      List.length_append, List.length_singleton] at hroom ⊢
    omega

/-- A round that the loop runs itself. -/
theorem loopRetry_traffic {pc pc' : RetryPc} {back : Option Bytes} {c₁ : RelayConnection} (hs : Sending c)
    (hloop : c.xmit.loop = .retry pc back) (hr : c.retryStep pc how = some (c₁, pc')) (hc : c' = c₁.loopAt (.retry pc' back)) :
    Spends c c' ∧ TakesFree c c' := by
  subst hc
  have hf := retryStep_frame hr
  have ht := retryStep_traffic hr
  have hretry : (c₁.loopAt (.retry pc' back)).xmit.retry = c.xmit.retry := hf.retry
  refine ⟨ht.spends ((c.xmit.retry.map RetryPc.todo).getD []) hf hs.window rfl rfl rfl rfl ?_ ?_ ?_,
    ht.takesFree (n := (c.xmit.retry.map RetryPc.slots).getD 0) ?_ ?_⟩
  · rw [hloop]
    rfl
  · rw [Xmit.todo, hloop]
    exact .refl _
  · rw [Xmit.todo, hretry]
    exact .refl _
  · rw [Xmit.inflight_eq, hloop]
    simp only [LoopPc.slots]
    omega
  · rw [Xmit.inflight_eq, hretry]
    simp only [RelayConnection.loopAt, LoopPc.slots]
    omega

theorem loopStep_traffic (hs : Sending c) (h : c.loopStep how = some c') : Spends c c' ∧ TakesFree c c' := by
  unfold RelayConnection.loopStep at h
  split at h <;> rename_i hloop
  · cases h
    exact LoopMove.traffic ⟨rfl, rfl, rfl, rfl, rfl, rfl, rfl, rfl, .inl rfl⟩
  · split at h <;> cases h
    rename_i item items hch
    obtain ⟨hfirst, htodo, hslots⟩ := receive_idle { c.xmit with sendCh := items } item
    cases item <;> exact LoopMove.traffic ⟨rfl, rfl, rfl, rfl, rfl, hfirst, htodo, hslots, .inl rfl⟩
  · split at h <;> cases h
    exact (startRetry_move none).traffic
  · exact (finishRetry_move h).traffic
  · split at h <;> cases h
    exact (LoopMove.at rfl rfl rfl).traffic
  · split at h <;> cases h
    exact LoopMove.traffic ⟨rfl, rfl, rfl, rfl, rfl, rfl, rfl, rfl, .inl rfl⟩
  · split at h <;> cases h
    exact LoopMove.traffic ⟨rfl, rfl, rfl, rfl, rfl, rfl, rfl, rfl, .inl rfl⟩
  · rw [if_pos hs.reliable] at h
    split at h <;> cases h
    · exact (LoopMove.at rfl rfl rfl).traffic
    · exact assign_traffic hs hloop rfl
  · split at h <;> cases h
    exact LoopMove.traffic ⟨rfl, rfl, rfl, rfl, rfl, rfl, rfl, rfl, .inl rfl⟩
  · cases h
    exact (startRetry_move _).traffic
  · exact (finishRetry_move h).traffic
  · split at h <;> cases h
    exact (LoopMove.at rfl rfl rfl).traffic
  · split at h <;> cases h
    rename_i hfree
    exact spawn_traffic hloop hfree rfl
  · split at h <;> cases h
    exact (LoopMove.at rfl rfl rfl).traffic
  · cases h
    exact LoopMove.traffic ⟨rfl, rfl, rfl, rfl, rfl, rfl, rfl, rfl, .inl rfl⟩
  · rename_i back
    cases h
    obtain ⟨hfirst, htodo, hslots⟩ := loopBack_idle back
    exact (LoopMove.at hfirst htodo hslots).traffic
  · rename_i hl
    obtain ⟨⟨c₁, pc'⟩, hr, hc⟩ := Option.map_eq_some_iff.mp h
    exact loopRetry_traffic hs hl hr hc.symm
  · split at h <;> cases h
    exact (LoopMove.at rfl rfl rfl).traffic
  · cases h

theorem roundStep_traffic (hs : Sending c) (h : c.roundStep how = some c') : Spends c c' ∧ TakesFree c c' := by
  unfold RelayConnection.roundStep at h
  split at h
  · rename_i pc hpc
    obtain ⟨⟨c₁, pc'⟩, hr, rfl⟩ := Option.map_eq_some_iff.mp h
    have hf := retryStep_frame hr
    have ht := retryStep_traffic hr
    refine ⟨ht.spends c.xmit.loop.todo hf hs.window rfl rfl rfl rfl (congrArg LoopPc.first hf.loop) ?_ ?_,
      ht.takesFree (n := c.xmit.loop.slots) ?_ ?_⟩
    · rw [Xmit.todo, hpc]
      exact List.perm_append_comm
    · rw [Xmit.todo, show c₁.xmit.loop = c.xmit.loop from hf.loop]
      exact List.perm_append_comm
    · rw [Xmit.inflight_eq, hpc]
      rfl
    · rw [Xmit.inflight_eq, show c₁.xmit.loop = c.xmit.loop from hf.loop]
      rfl
  · cases h

theorem taskStep_traffic {i : Nat} {err : Option Err} (h : c.taskStep i err = some c') : Spends c c' ∧ TakesFree c c' := by
  have htasks : ∀ {tasks : List Task} {l : Life}, tasks.length ≤ c.xmit.tasks.length →
      Spends c { c with life := l, xmit.tasks := tasks } ∧ TakesFree c { c with life := l, xmit.tasks := tasks } := by
    intro tasks l hlen
    refine ⟨.still rfl rfl rfl (fun s => Nat.le_refl _) (.refl _), .inl ?_⟩
    rw [Xmit.inflight_eq, Xmit.inflight_eq]
    dsimp only
    omega
  unfold RelayConnection.taskStep at h
  split at h
  · cases h
  · split at h <;> cases h
    · exact htasks (List.length_eraseIdx_le _ _)
    · exact htasks (Nat.le_of_eq (List.length_set ..))

/-! ## Every step -/

/-- The sending side stays as it is, and what is handed out is no DATA. -/
theorem traffic_rest {extra : List RelayEnvelope} (hx : c'.xmit = c.xmit) (ho : c'.out = c.out ++ extra)
    (hk : ∀ env ∈ extra, env.kind ≠ .kindData) : Spends c c' ∧ TakesFree c c' := by
  have hextra : ∀ s, extra.countP (RelayEnvelope.isFrame s) = 0 := by
    intro s
    rw [List.countP_eq_zero]
    intro env he hs
    exact hk env he (of_decide_eq_true (Bool.and_eq_true_iff.mp hs).1)
  refine ⟨.still (by rw [hx]) (by rw [hx]) (by rw [hx]) (fun s => ?_) (by rw [hx]), .inl (by rw [hx])⟩
  rw [RelayConnection.sendings, ho, List.countP_append, hextra, hx]
  exact Nat.le_refl _

theorem traffic_same (hx : c'.xmit = c.xmit) (ho : c'.out = c.out) : Spends c c' ∧ TakesFree c c' :=
  traffic_rest hx (by rw [ho, List.append_nil]) (List.forall_mem_nil _)

theorem handleAck_traffic {env : RelayEnvelope} (hx : c'.xmit = c.xmit.handleAck c.config.reliability env)
    (ho : c'.out = c.out) : Spends c c' ∧ TakesFree c c' := by
  unfold Xmit.handleAck at hx
  split at hx
  · exact traffic_same hx ho
  · split at hx
    · rename_i hack
      have hbase : c.xmit.sendBase < c'.xmit.sendBase := by
        rw [hx]
        exact Nat.lt_succ_of_le hack.1
      refine ⟨.ack hbase (by rw [hx]) (by rw [hx]) fun s => ?_, .inl ?_⟩
      · have hsend : c'.sendings s = c.sendings s := by rw [RelayConnection.sendings, ho, RelayConnection.sendings]
        have hfirst : c'.xmit.loop.first = c.xmit.loop.first := by rw [hx]
        have htodo : c'.xmit.todo = c.xmit.todo := by rw [hx]; rfl
        simp only [RelayConnection.spent, hsend, hfirst, htodo]
        split <;> split <;> omega
      · rw [hx]
        exact Nat.le_refl _
    · exact traffic_same hx ho

theorem push_traffic {item : SendItem} {t : Xmit} (barriers : Nat) (hp : c.xmit.push c.sendCap item = some t)
    (hx : c'.xmit = { t with barriers := barriers }) (ho : c'.out = c.out) : Spends c c' ∧ TakesFree c c' := by
  unfold Xmit.push at hp
  split at hp
  · cases hp
    refine ⟨.still (by rw [hx]) (by rw [hx]) (by rw [hx]) (fun s => ?_) (by rw [hx]; exact .refl _), .inl (by rw [hx]; exact Nat.le_refl _)⟩
    rw [RelayConnection.sendings, ho, hx]
    exact Nat.le_refl _
  · split at hp
    · split at hp <;> cases hp
      obtain ⟨hfirst, htodo, hslots⟩ := receive_idle c.xmit item
      refine LoopMove.traffic ⟨ho, ?_, ?_, ?_, ?_, ?_, ?_, ?_, .inl ?_⟩ <;> rw [hx] <;> try assumption
      all_goals cases item <;> rfl
    · cases hp

theorem CallEffect.traffic {i : Nat} {pc : CallPc} (h : CallEffect c i pc c') : Spends c c' ∧ TakesFree c c' := by
  cases h with
  | @send _ t h => exact push_traffic t.barriers h rfl rfl
  | barrier h => exact push_traffic _ h rfl rfl
  | @marker _ t h => exact push_traffic t.barriers h rfl rfl
  | close =>
    refine traffic_rest rfl rfl (List.forall_mem_singleton.mpr ?_)
    exact RelayKind.noConfusion
  | _ => exact traffic_same rfl rfl

theorem DispatchEffect.traffic (h : DispatchEffect c c') : Spends c c' ∧ TakesFree c c' := by
  cases h with
  | ack => exact handleAck_traffic rfl rfl
  | ping =>
    refine traffic_rest rfl rfl (List.forall_mem_singleton.mpr ?_)
    exact RelayKind.noConfusion
  | _ => exact traffic_same rfl rfl

theorem step_traffic {a : RelayConnection.Action} (hs : Sending c) (h : c.step a = some c') :
    Spends c c' ∧ TakesFree c c' := by
  cases a with
  | packet env =>
    simp only [RelayConnection.step, RelayConnection.handlePacket, RelayConnection.enqueueEnvelope] at h
    split at h
    · cases h
    · split at h <;> cases h
      · refine traffic_rest rfl rfl (List.forall_mem_singleton.mpr ?_)
        exact RelayKind.noConfusion
      · exact traffic_same rfl rfl
    · split at h <;> cases h
      exact traffic_same rfl rfl
  | reader =>
    cases readerStep_effect h with
    | ack => exact handleAck_traffic rfl rfl
    | _ => exact traffic_same rfl rfl
  | dispatcher how => exact (dispatchStep_effect h).traffic
  | ackWorker how =>
    have hf := ackStep_frame h
    obtain ⟨extra, ho, hx⟩ := hf.out
    refine traffic_rest hf.xmit ho fun env he => ?_
    rw [hs.held env (hx env he)]
    exact RelayKind.noConfusion
  | loop how => exact loopStep_traffic hs h
  | round how => exact roundStep_traffic hs h
  | task i err => exact taskStep_traffic h
  | call call =>
    cases h
    cases call with
    | send data => cases data <;> exact traffic_same rfl rfl
    | _ => exact traffic_same rfl rfl
  | run i how =>
    obtain ⟨pc, _, he⟩ := callStep_effect h
    exact he.traffic
  | deadline i =>
    simp only [RelayConnection.step] at h
    split at h <;> cases h
    exact traffic_same rfl rfl
  | receive =>
    simp only [RelayConnection.step] at h
    split at h <;> cases h
    exact traffic_same rfl rfl
  | abort | fail => cases h; exact traffic_same rfl rfl
  | onClose callback =>
    cases h
    unfold RelayConnection.registerOnClose
    split <;> exact traffic_same rfl rfl
  | notify =>
    simp only [RelayConnection.step, RelayConnection.notifyStep] at h
    split at h <;> cases h <;> exact traffic_same rfl rfl

/-! ## The bounds -/

/-- `MaxRetransmits`, none if it is negative. -/
def RelayConfig.rounds (config : RelayConfig) : Nat := config.maxRetransmits.toNat

/-- The window advanced `sendBase + WindowSize - (s + 1)` times at most since frame `s` got its
    number; the rounds of each advance are spent, and those counted now. -/
structure Moderate (c : RelayConnection) : Prop where
  count : 0 ≤ c.xmit.retransCnt
  later : ∀ s, c.xmit.nextSeq ≤ s → c.spent s = 0
  inside : ∀ s, c.xmit.sendBase ≤ s → s < c.xmit.nextSeq → c.spent s ≤
    1 + c.config.rounds * (c.xmit.sendBase + uint64 c.config.windowSize - (s + 1)) +
      min c.xmit.retransCnt.toNat c.config.rounds
  before : ∀ s, s < c.xmit.sendBase → c.spent s ≤ 1 + c.config.rounds * uint64 c.config.windowSize

/-- One more advance pays for the rounds counted so far. -/
theorem rounds_next (rounds k : Nat) {m n : Nat} (h : m < n) : rounds * m + min k rounds ≤ rounds * n :=
  calc rounds * m + min k rounds ≤ rounds * m + rounds := Nat.add_le_add_left (Nat.min_le_right _ _) _
    _ = rounds * (m + 1) := (Nat.mul_succ _ _).symm
    _ ≤ rounds * n := Nat.mul_le_mul_left _ h

/-- A frame of the window has cost no more than one that has left it. -/
theorem Moderate.inside_le (h : Moderate c) (hw : c.xmit.nextSeq ≤ c.xmit.sendBase + uint64 c.config.windowSize) {s : Nat}
    (hb : c.xmit.sendBase ≤ s) (hn : s < c.xmit.nextSeq) :
    c.spent s ≤ 1 + c.config.rounds * uint64 c.config.windowSize := by
  have hspent := h.inside s hb hn
  have := rounds_next c.config.rounds c.xmit.retransCnt.toNat
    (show c.xmit.sendBase + uint64 c.config.windowSize - (s + 1) < uint64 c.config.windowSize by omega)
  omega

theorem Moderate.step (h : Moderate c) (hcfg : c'.config = c.config) (hwin : c.xmit.Window) (hwin' : c'.xmit.Window)
    (hw : c.xmit.nextSeq ≤ c.xmit.sendBase + uint64 c.config.windowSize) (hs : Spends c c') : Moderate c' := by
  have hbase := hwin.base
  cases hs with
  | quiet base next count spent =>
    have hcnt := h.count
    refine ⟨by omega, fun s hn => ?_, fun s hb hn => ?_, fun s hb => ?_⟩
    · rw [next] at hn
      exact Nat.le_zero.mp (h.later s hn ▸ spent s)
    · rw [base] at hb ⊢
      rw [next] at hn
      rw [hcfg]
      have := h.inside s hb hn
      have := spent s
      omega
    · rw [base] at hb
      rw [hcfg]
      exact (spent s).trans (h.before s hb)
  | round base next count most spent =>
    have hcnt := h.count
    refine ⟨by omega, fun s hn => ?_, fun s hb hn => ?_, fun s hb => ?_⟩
    · have hle := spent s
      rw [next] at hn
      rw [if_neg (by omega), h.later s hn] at hle
      exact Nat.le_zero.mp hle
    · have hle := spent s
      rw [base] at hb ⊢
      rw [next] at hn
      rw [if_pos ⟨hb, hn⟩] at hle
      have hins := h.inside s hb hn
      have hround : min c'.xmit.retransCnt.toNat c.config.rounds = min c.xmit.retransCnt.toNat c.config.rounds + 1 := by
        unfold RelayConfig.rounds
        omega
      rw [hcfg, hround]
      omega
    · have hle := spent s
      rw [base] at hb
      rw [if_neg (by omega)] at hle
      rw [hcfg]
      exact hle.trans (h.before s hb)
  | assign base next count spent =>
    refine ⟨count ▸ h.count, fun s hn => ?_, fun s hb hn => ?_, fun s hb => ?_⟩
    · have hle := spent s
      rw [next] at hn
      rw [if_neg (by omega), h.later s (by omega)] at hle
      exact Nat.le_zero.mp hle
    · have hle := spent s
      rw [base] at hb ⊢
      rw [next] at hn
      rw [hcfg, count]
      by_cases hseq : s = c.xmit.nextSeq
      · rw [if_pos hseq, h.later s (Nat.le_of_eq hseq.symm)] at hle
        omega
      · rw [if_neg hseq] at hle
        have := h.inside s hb (by omega)
        omega
    · have hle := spent s
      rw [base] at hb
      rw [if_neg (by omega)] at hle
      rw [hcfg]
      exact hle.trans (h.before s hb)
  | ack base next count spent =>
    have hbase' := hwin'.base
    refine ⟨by omega, fun s hn => ?_, fun s hb hn => ?_, fun s hb => ?_⟩
    · rw [next] at hn
      exact Nat.le_zero.mp (h.later s hn ▸ spent s)
    · rw [next] at hn
      have hins := h.inside s (by omega) hn
      have hle := spent s
      have := rounds_next c.config.rounds c.xmit.retransCnt.toNat
        (show c.xmit.sendBase + uint64 c.config.windowSize - (s + 1) <
          c'.xmit.sendBase + uint64 c.config.windowSize - (s + 1) by omega)
      rw [hcfg]
      omega
    · rw [hcfg]
      refine (spent s).trans ?_
      by_cases hs : s < c.xmit.sendBase
      · exact h.before s hs
      · exact h.inside_le hw (by omega) (by omega)

theorem Moderate.new (config : RelayConfig) (relayID : String) (my remote : SessionRef) (dialed : Bool) :
    Moderate (.new config relayID my remote dialed) := by
  have hspent : ∀ s, (RelayConnection.new config relayID my remote dialed).spent s = 0 := by
    intro s
    cases dialed <;> simp [RelayConnection.new, RelayConnection.spent, RelayConnection.sendings, LoopPc.first, Xmit.todo,
      LoopPc.todo, RelayEnvelope.isFrame, RelayEnvelope.isData]
  exact ⟨Int.le_refl 0, fun s _ => hspent s, fun s _ _ => by rw [hspent]; exact Nat.zero_le _,
    fun s _ => by rw [hspent]; exact Nat.zero_le _⟩

/-- Whatever arrives, and however the goroutines interleave: no DATA frame is handed to the network
    more than `1 + MaxRetransmits * WindowSize` times, and never more than 64 of them, nor more
    than `WindowSize`, wait for the server's acceptance. -/
theorem traffic_bounded {config : RelayConfig} {relayID : String} {my remote : SessionRef} {dialed : Bool}
    (hr : config.reliability ≠ .bestEffort)
    (h : Reach RelayConnection.step free (· = .new config relayID my remote dialed) c) :
    (∀ s, c.sendings s ≤ 1 + config.maxRetransmits.toNat * uint64 config.windowSize) ∧
      (c.xmit.inflight : Int) ≤ max config.windowSize 1 ∧ c.xmit.inflight ≤ 64 := by
  have hinv : Moderate c ∧ c.xmit.inflight ≤ inflightLimit config.windowSize := by
    refine h.keeps (P := fun c => Moderate c ∧ c.xmit.inflight ≤ inflightLimit config.windowSize) ?_ ?_
    · intro c hc
      subst hc
      exact ⟨.new _ _ _ _ _, Nat.zero_le _⟩
    · intro c a c' hreach ⟨hmod, hfly⟩ _ ht
      obtain ⟨hs, hw, hcfg⟩ := sending_alone hr hreach
      obtain ⟨hspends, hfree⟩ := step_traffic hs ht
      have heff := step_effect ht
      have hbase := hs.window.base
      rw [TakesFree, hcfg] at hfree
      refine ⟨hmod.step heff.conn.config hs.window (hs.step heff).window ?_ hspends, by omega⟩
      rw [hcfg]
      omega
  obtain ⟨hmod, hfly⟩ := hinv
  obtain ⟨hs, hw, hcfg⟩ := sending_alone hr h
  have hbase := hs.window.base
  refine ⟨fun s => ?_, ?_⟩
  · have hspent : c.sendings s ≤ c.spent s := by
      unfold RelayConnection.spent
      omega
    have hrounds : c.config.rounds = config.maxRetransmits.toNat := by rw [hcfg]; rfl
    rw [← hrounds, ← hcfg]
    refine hspent.trans ?_
    by_cases hb : s < c.xmit.sendBase
    · exact hmod.before s hb
    · by_cases hn : s < c.xmit.nextSeq
      · exact hmod.inside_le (by rw [hcfg]; omega) (by omega) hn
      · rw [hmod.later s (by omega)]
        exact Nat.zero_le _
  · unfold inflightLimit at hfly
    omega

/-- The bound is reached with a window of two and one round: frame 2 is sent, repeated together with
    frame 1, and repeated again once frame 1 was acknowledged. -/
theorem traffic_bounded_reached : ∃ c : RelayConnection, c.sendings 2 = 3 ∧ c.sendings 2 ≤ 1 + 1 * 2 := by
  let config := { defaultRelayConfig with reliability := .reliableOrdered, windowSize := 2, maxRetransmits := 1 }
  let start : RelayConnection := .new config "r" (sampleSession .b) (sampleSession .a) false
  let send (i : Nat) (data : Bytes) : List RelayConnection.Action := (sends .b i data).map Prod.snd
  let accepted : List RelayConnection.Action := List.replicate 2 (.task 0 none)
  let resend : List RelayConnection.Action := List.replicate 3 (.round .go)
  have h : ((exec (guarded RelayConnection.step free) start (List.flatten
      [[.loop .go], send 0 [10], send 1 [20], accepted, accepted, [.loop .timer, .round .go], resend, accepted, resend,
        accepted, [.round .go, .round .go, .loop .retryDone], [.packet (sampleEnvelope .a .kindAck 0 1 []), .reader],
        [.loop .timer, .round .go], resend])).any fun c => c.sendings 2 = 3) = true := by
    decide +kernel
  obtain ⟨c, hc, hw⟩ := reach_any (I := fun c => c = start) _ (.init rfl) h
  simp only [decide_eq_true_eq] at hw
  exact ⟨c, hw, (traffic_bounded (by decide) hc).1 2⟩

end

end Turntf.Relay
