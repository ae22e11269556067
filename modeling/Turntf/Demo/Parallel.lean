/-
  Turntf.Demo.Parallel — the barriers of a parallel step.

  The branches of a running parallel step are parties in the sense of `Turntf.Lib.Barrier`: what a
  branch has reached are the barriers of the steps it has started. `Task.Sound` says so of every
  parallel step in the tree, and that `hits` counts what the parties have reached.

  - `parallel_no_deadlock`: as long as no branch fails, the unfinished branches of a parallel step
    do not all wait for barriers that are not full, if no two branches have two barriers in opposite
    orders. `Validate` sees to it that the branches have the same barriers.
  - `crossed_unfinished`: with opposite orders the step does not end without an error.
  - `crossed_deadlocks`: such a scenario is valid, and both branches wait forever.
-/

import Turntf.Demo.Steps

namespace Turntf.Demo

open Checked

variable {V : Type}

/-! ## Branches as parties -/

namespace Task

/-- How many steps it has started. -/
def started : Task V → Nat
  | .mk _ j pc _ => if pc.isReady then j else j + 1

/-- The step it has started and not finished is a barrier. -/
def atBarrier : Task V → Bool
  | .mk script j pc _ => !pc.isReady && (script[j]?.bind Step.barrier?).isSome

def party (t : Task V) : Barrier.Party String :=
  ⟨(t.script.take t.started).filterMap Step.barrier?, (t.script.drop t.started).filterMap Step.barrier?, t.atBarrier⟩

/-- A branch of it returned an error, or will. -/
def Failed (t : Task V) : Prop :=
  match t.pc with
  | .failed _ | .sent | .stopped => True
  | _ => False

/-- It waits for a barrier that was reached less than `n` times. -/
def Blocked (barriers : BarrierSet) (n : Nat) (t : Task V) : Prop :=
  t.pc = .waiting ∧ ∀ u, t.step? = some u → barriers.hits u.spec.name < n

end Task

section

variable {script : List (Step V)} {j : Nat} {u : Step V} {pc pc' : Pc} {cs cs' : List (Task V)} {n : String}

theorem party_start (script : List (Step V)) : (Task.start script).party = .start (script.filterMap Step.barrier?) := rfl

theorem party_ready (script : List (Step V)) (j : Nat) (cs : List (Task V)) : (Task.mk script j .ready cs).party =
    ⟨(script.take j).filterMap Step.barrier?, (script.drop j).filterMap Step.barrier?, false⟩ := rfl

theorem party_busy (hpc : pc.isReady = false) : (Task.mk script j pc cs).party =
    ⟨(script.take (j + 1)).filterMap Step.barrier?, (script.drop (j + 1)).filterMap Step.barrier?,
      (script[j]?.bind Step.barrier?).isSome⟩ := by
  simp [Task.party, Task.started, Task.atBarrier, Task.script, hpc]

/-- A step that is no barrier is nothing to a party, -/
theorem party_begin (hu : script[j]? = some u) (hb : u.barrier? = none) (hpc : pc.isReady = false) :
    (Task.mk script j pc cs).party = (Task.mk script j .ready cs').party := by
  obtain ⟨hlt, hget⟩ := List.getElem?_eq_some_iff.mp hu
  rw [party_busy hpc, party_ready, List.take_add_one, List.drop_eq_getElem_cons hlt, hu, hget]
  simp [hb]

/-- and neither is its end. -/
theorem party_next (hu : script[j]? = some u) (hb : u.barrier? = none) (hpc : pc.isReady = false) :
    (Task.mk script (j + 1) .ready cs').party = (Task.mk script j pc cs).party := by
  rw [party_busy hpc, party_ready, hu]
  simp [hb]

theorem party_keep (hpc : pc.isReady = false) (hpc' : pc'.isReady = false) :
    (Task.mk script j pc' cs').party = (Task.mk script j pc cs).party := by
  rw [party_busy hpc, party_busy hpc']

/-- A barrier is ahead, then it is reached, then it is left. -/
theorem party_barrier (hu : script[j]? = some u) (hb : u.barrier? = some n) :
    ∃ l rest, (∀ cs, (Task.mk script j .ready cs).party = ⟨l, n :: rest, false⟩) ∧
      (∀ pc cs, pc.isReady = false → (Task.mk script j pc cs).party = ⟨l ++ [n], rest, true⟩) ∧
      ∀ cs, (Task.mk script (j + 1) .ready cs).party = ⟨l ++ [n], rest, false⟩ := by
  obtain ⟨hlt, hget⟩ := List.getElem?_eq_some_iff.mp hu
  refine ⟨(script.take j).filterMap Step.barrier?, (script.drop (j + 1)).filterMap Step.barrier?, ?_, ?_, ?_⟩
  · intro cs
    rw [party_ready, List.drop_eq_getElem_cons hlt, hget, List.filterMap_cons_some hb]
  · intro pc cs hpc
    rw [party_busy hpc, List.take_add_one, hu]
    simp [hb]
  · intro cs
    rw [party_ready, List.take_add_one, hu]
    simp [hb]

end

/-! ## Every parallel step is a run of its parties -/

/-- The branches of a parallel step that is executed. -/
structure Branching (u : Step V) (shared : Shared) (children : List (Task V)) : Prop where
  scripts : children.map Task.script = u.branches.map Branch.script
  total : shared.barriers.total = children.length
  hits : ∀ n, shared.barriers.hits n = Barrier.hits (children.map Task.party) n
  reach : Barrier.Reach (u.branches.map Branch.order) (children.map Task.party)

structure Task.Sound (t : Task V) : Prop where
  waiting : t.pc = .waiting → ∃ u, t.step? = some u ∧ u.kind = .barrier
  locked : t.pc = .locked → ∃ u, t.step? = some u ∧ u.kind ≠ .barrier
  parallel : ∀ shared, t.pc = .parallel shared → ∃ u, t.step? = some u ∧ u.kind = .parallel ∧ Branching u shared t.children

/-- What a branch does to the barriers, as a party. -/
structure Effect (shared shared' : Shared) (t t' : Task V) : Prop where
  script : t'.script = t.script
  total : shared'.barriers.total = shared.barriers.total
  hits : ∀ n, shared'.barriers.hits n + t.party.reached.count n = shared.barriers.hits n + t'.party.reached.count n
  party : t'.party = t.party ∨ t.party.Step (fun n => shared.barriers.total ≤ shared.barriers.hits n) t'.party

section

variable {u : Step V} {shared shared' : Shared} {t t' c c' : Task V} {cs : List (Task V)} {i : Nat} {n : String}

/-- Nothing. -/
theorem Effect.none (hs : t'.script = t.script) (hb : shared'.barriers = shared.barriers) (hp : t'.party = t.party) :
    Effect shared shared' t t' :=
  ⟨hs, by rw [hb], fun n => by rw [hb, hp], .inl hp⟩

theorem Step.barrier?_of_ne (hk : u.kind ≠ .barrier) : u.barrier? = none := if_neg hk

theorem Step.barrier?_of_eq (hk : u.kind = .barrier) : u.barrier? = some u.spec.name := if_pos hk

theorem Step.barrier?_parallel (hk : u.kind = .parallel) : u.barrier? = none :=
  Step.barrier?_of_ne (by rw [hk]; exact StepKind.noConfusion)

theorem Branching.start (u : Step V) : Branching u { barriers := newBarrierSet u.branches.length }
    (u.branches.map fun b => .start b.script) := by
  have hparty : (u.branches.map fun b => Task.start b.script).map Task.party = (u.branches.map Branch.order).map .start := by
    simp [Function.comp_def, party_start, Branch.order]
  refine ⟨by simp [Function.comp_def, Task.start, Task.script], by simp [newBarrierSet], fun n => ?_, ?_⟩
  · rw [hparty, Barrier.hits_start]
    rfl
  · rw [hparty]
    exact .start

theorem Branching.step (h : Branching u shared cs) (hi : cs[i]? = some c) (he : Effect shared shared' c c') :
    Branching u shared' (cs.set i c') := by
  have hip : (cs.map Task.party)[i]? = some c.party := by rw [List.getElem?_map, hi]; rfl
  refine ⟨?_, ?_, fun n => ?_, ?_⟩
  · rw [Slots.map_set hi he.script]
    exact h.scripts
  · rw [he.total, h.total, List.length_set]
  · have hset := Barrier.hits_set hip c'.party n
    have hn := he.hits n
    rw [h.hits n] at hn
    rw [List.map_set]
    omega
  · rcases he.party with hp | hp
    · rw [Slots.map_set hi hp]
      exact h.reach
    · rw [List.map_set]
      refine .step h.reach (.mk hip ?_)
      have hfull : (fun n => shared.barriers.total ≤ shared.barriers.hits n) =
          fun n => (cs.map Task.party).length ≤ Barrier.hits (cs.map Task.party) n := by
        funext n
        rw [h.total, h.hits n, List.length_map]
      rwa [hfull] at hp

theorem Move.sound {sessions : Sessions} {scope : Option Shared} {out : Config V} (ht : t.All Task.Sound)
    (h : Move sessions scope t out) : out.task.All Task.Sound := by
  cases h with
  | @fork _ script j cs u hu hk =>
    refine .mk ⟨Pc.noConfusion, Pc.noConfusion, fun shared h => ?_⟩ fun c hc => ?_
    · cases h
      exact ⟨u, hu, hk, .start u⟩
    · obtain ⟨b, -, rfl⟩ := List.mem_map.mp hc
      exact .leaf ⟨Pc.noConfusion, Pc.noConfusion, fun _ => Pc.noConfusion⟩
  | hit hu hk => exact .leaf ⟨fun _ => ⟨_, hu, hk⟩, Pc.noConfusion, fun _ => Pc.noConfusion⟩
  | lock hu hk => exact .leaf ⟨Pc.noConfusion, fun _ => ⟨_, hu, hk⟩, fun _ => Pc.noConfusion⟩
  | send | stop => exact .mk ⟨Pc.noConfusion, Pc.noConfusion, fun _ => Pc.noConfusion⟩ ht.child
  | _ => exact .leaf ⟨Pc.noConfusion, Pc.noConfusion, fun _ => Pc.noConfusion⟩

theorem Move.effect {sessions : Sessions} {out : Config V} (ht : t.Sound) (h : Move sessions (some shared) t out) :
    ∃ shared', out.scope = some shared' ∧ Effect shared shared' t out.task := by
  cases h with
  | fork hu hk => exact ⟨shared, rfl, .none rfl rfl (party_begin hu (Step.barrier?_parallel hk) rfl)⟩
  | @hit _ script j cs u hu hk =>
    obtain ⟨l, rest, hready, hbusy, -⟩ := party_barrier hu (Step.barrier?_of_eq hk)
    refine ⟨_, rfl, rfl, rfl, fun n => ?_, .inr ?_⟩
    · rw [hready, hbusy .waiting [] rfl, List.count_append, List.count_singleton]
      by_cases hn : n = u.spec.name
      · subst hn
        simp only [BarrierSet.hit, if_pos, beq_self_eq_true]
        omega
      · simp only [BarrierSet.hit, if_neg hn, beq_iff_eq, if_neg (Ne.symm hn)]
        omega
    · rw [hready, hbusy .waiting [] rfl]
      exact .reach
  | lock hu hk => exact ⟨shared, rfl, .none rfl rfl (party_begin hu (Step.barrier?_of_ne hk) rfl)⟩
  | leave hu hfull =>
    obtain ⟨v, hv, hk⟩ := ht.waiting rfl
    obtain rfl := Option.some.inj (hu.symm.trans hv)
    obtain ⟨l, rest, -, hbusy, hnext⟩ := party_barrier hu (Step.barrier?_of_eq hk)
    refine ⟨shared, rfl, rfl, rfl, fun n => ?_, .inr ?_⟩
    · rw [hnext, hbusy .waiting _ rfl]
    · rw [hnext, hbusy .waiting _ rfl]
      exact .leave hfull
  | unlock =>
    obtain ⟨u, hu, hk⟩ := ht.locked rfl
    exact ⟨shared, rfl, .none rfl rfl (party_next hu (Step.barrier?_of_ne hk) rfl)⟩
  | join =>
    obtain ⟨u, hu, hk, -⟩ := ht.parallel _ rfl
    exact ⟨shared, rfl, .none rfl rfl (party_next hu (Step.barrier?_parallel hk) rfl)⟩
  | fail hpc => exact ⟨shared, rfl, .none rfl rfl (party_keep hpc rfl)⟩
  | send => exact ⟨_, rfl, .none rfl rfl (party_keep rfl rfl)⟩
  | stop => exact ⟨_, rfl, .none rfl rfl (party_keep rfl rfl)⟩

theorem kept_sound : Kept (V := V) Task.Sound Effect where
  move := fun ht h => h.sound ht
  effect := fun ht h => h.effect ht
  node := by
    intro script j i shared shared' cs c c' h hi he
    obtain ⟨u, hu, hk, hb⟩ := h.parallel shared rfl
    refine ⟨Pc.noConfusion, Pc.noConfusion, fun _ hpc => ?_⟩
    cases hpc
    exact ⟨u, hu, hk, hb.step hi he⟩
  above := fun _ => .none rfl rfl (party_keep rfl rfl)

end

/-! ## Two branches -/

def barrierStep (name : String) : Step Unit := .mk { step := .barrier, name := name } []

/-- One parallel step of two branches with nothing but barriers. -/
def twoBranches (left right : List String) : Scenario Unit :=
  demoScenario [.mk { step := .parallel } [.mk "left" (left.map barrierStep), .mk "right" (right.map barrierStep)]]

/-- Both branches have reached their first barriers. -/
def twoWaiting (left right : List String) : Task Unit :=
  .mk (twoBranches left right).script 0
    (.parallel { barriers := ((newBarrierSet 2).hit (left.headD "")).hit (right.headD "") })
    [.mk (left.map barrierStep) 0 .waiting [], .mk (right.map barrierStep) 0 .waiting []]

theorem twoWaiting_reachable (left right : List String) (hv : (twoBranches left right).validate = .ok ()) (hl : left ≠ [])
    (hr : right ≠ []) :
    Reachable (twoBranches left right) (.running false (twoBranches left right).newSessions (twoWaiting left right)) := by
  obtain ⟨a, left, rfl⟩ := List.exists_cons_of_ne_nil hl
  obtain ⟨b, right, rfl⟩ := List.exists_cons_of_ne_nil hr
  have hstart : Reachable (twoBranches (a :: left) (b :: right)) (twoBranches (a :: left) (b :: right)).start :=
    .init (bind_ok.mpr ⟨(), hv, rfl⟩)
  exact Lts.reach_exec [.go [] {}, .go [0] {}, .go [1] {}] hstart rfl

theorem twoWaiting_ok (left right : List String) : ∀ c ∈ (twoWaiting left right).children, ¬ c.Failed := by
  simp [twoWaiting, Task.children, Task.Failed, Task.pc]

theorem order_barriers (name : String) (l : List String) : (Branch.mk name (l.map barrierStep)).order = l := by
  rw [Branch.order, Branch.script, List.filterMap_map]
  exact List.filterMap_some

/-! ## Deadlock -/

/-- No two branches have two barriers in opposite orders. -/
def Step.Uncrossed (u : Step V) : Prop :=
  ∀ b ∈ u.branches, ∀ b' ∈ u.branches, ∀ x y, [x, y].Sublist b.order → ¬ [y, x].Sublist b'.order

section

variable {s : Scenario V} {canceled : Bool} {sessions : Sessions} {root t c : Task V} {addr : List Nat} {shared : Shared} {u : Step V}

theorem Reachable.sound (hr : Reachable s (.running canceled sessions root)) : root.All Task.Sound :=
  hr.all kept_sound (.leaf ⟨Pc.noConfusion, Pc.noConfusion, fun _ => Pc.noConfusion⟩)

/-- A parallel step that is executed is one of the scenario. -/
theorem Reachable.branching (hr : Reachable s (.running canceled sessions root)) (hat : root.at? addr = some t)
    (hpc : t.pc = .parallel shared) : ∃ u, t.step? = some u ∧ s.HasStep u ∧ u.kind = .parallel ∧ Branching u shared t.children := by
  obtain ⟨u, hu, hk, hb⟩ := (hr.sound.subtree hat).here.parallel shared hpc
  obtain ⟨script, j, pc, cs⟩ := t
  exact ⟨u, hu, (hr.scripts.subtree hat).here u (List.mem_of_getElem? hu), hk, hb⟩

/-- Branches with the same barriers have them in the same order, unless they have them in opposite orders. -/
theorem Step.Uncrossed.order_eq (hun : u.Uncrossed) (hv : s.Validated u) (hk : u.kind = .parallel) {b b' : Branch V}
    (hb : b ∈ u.branches) (hb' : b' ∈ u.branches) : b.order = b'.order := by
  obtain ⟨hnd, hmem⟩ := hv.barriers hk
  exact Barrier.eq_of_uncrossed (hnd b hb) (hnd b' hb') (fun n => ⟨hmem b hb b' hb' n, hmem b' hb' b hb n⟩)
    (hun b hb b' hb')

theorem Task.party_finished (hc : ¬ c.Failed) (hf : c.finished = true) : c.party.Finished := by
  obtain ⟨script, j, pc, cs⟩ := c
  cases pc with
  | ready =>
    rw [Task.finished, decide_eq_true_eq] at hf
    rw [party_ready, List.drop_eq_nil_of_le hf]
    exact ⟨rfl, rfl⟩
  | stopped => exact absurd trivial hc
  | _ => cases hf

theorem Task.party_blocked {n : Nat} (hs : c.Sound) (hb : c.Blocked shared.barriers n) :
    c.party.waiting = true ∧ ∀ name, c.party.reached.getLast? = some name → shared.barriers.hits name < n := by
  obtain ⟨script, j, pc, cs⟩ := c
  obtain ⟨rfl, hlow⟩ := hb
  obtain ⟨u, hu, hk⟩ := hs.waiting rfl
  obtain ⟨l, rest, -, hbusy, -⟩ := party_barrier hu (Step.barrier?_of_eq hk)
  rw [hbusy .waiting cs rfl]
  refine ⟨rfl, fun name hname => ?_⟩
  rw [List.getLast?_concat, Option.some.injEq] at hname
  subst hname
  exact hlow u hu

/-- As long as no branch fails, some unfinished branch does not wait or can leave its barrier. -/
theorem parallel_no_deadlock (hr : Reachable s (.running canceled sessions root))
    (hun : ∀ u, s.HasStep u → u.kind = .parallel → u.Uncrossed) (hat : root.at? addr = some t)
    (hpc : t.pc = .parallel shared) (hok : ∀ c ∈ t.children, ¬ c.Failed) :
    ¬ ((∃ c ∈ t.children, c.finished = false) ∧
      ∀ c ∈ t.children, c.finished = false → c.Blocked shared.barriers t.children.length) := by
  rintro ⟨⟨c, hc, hnot⟩, hblocked⟩
  obtain ⟨u, -, hu, hk, hb⟩ := hr.branching hat hpc
  have hsound : ∀ c ∈ t.children, c.Sound := fun c hc => (hr.sound.subtree hat).child c hc |>.here
  obtain ⟨b, hbu⟩ : ∃ b, b ∈ u.branches := by
    obtain ⟨b, hbu, -⟩ := List.mem_map.mp (hb.scripts ▸ List.mem_map_of_mem hc)
    exact ⟨b, hbu⟩
  have hsame : ∀ l ∈ u.branches.map Branch.order, l = b.order := by
    intro l hl
    obtain ⟨b', hb', rfl⟩ := List.mem_map.mp hl
    exact (hun u hu hk).order_eq (hu.validated hr.validate) hk hb' hbu
  have hparty : ∀ c ∈ t.children, c.finished = false → c.party.Blocked (t.children.map Task.party) := by
    intro c hc hf
    obtain ⟨hw, hlow⟩ := Task.party_blocked (hsound c hc) (hblocked c hc hf)
    refine ⟨hw, fun n hn => ?_⟩
    rw [← hb.hits n, List.length_map]
    exact hlow n hn
  have hall := Barrier.not_blocked hb.reach hsame ?_ c.party (List.mem_map_of_mem hc)
  · have hw := hall.2
    rw [(hparty c hc hnot).1] at hw
    cases hw
  · intro p hp
    obtain ⟨c, hc, rfl⟩ := List.mem_map.mp hp
    cases hf : c.finished with
    | true => exact .inl (Task.party_finished (hok c hc) hf)
    | false => exact .inr (hparty c hc hf)

theorem twoBranches_uncrossed {l : List String} (hl : l.Nodup) :
    ∀ u, (twoBranches l l).HasStep u → u.kind = .parallel → u.Uncrossed := by
  have hbranch : ∀ u ∈ (twoBranches l l).script, ∀ b ∈ u.branches, ∃ name, b = .mk name (l.map barrierStep) := by
    simp [twoBranches, demoScenario, Step.branches]
  have hsteps : ∀ u, (twoBranches l l).HasStep u → u ∈ (twoBranches l l).script ∨ ∃ n, u = barrierStep n := by
    intro u hu
    induction hu with
    | script h => exact .inl h
    | branch _ hk hb ht ih =>
      rcases ih with h | ⟨n, rfl⟩
      · obtain ⟨name, rfl⟩ := hbranch _ h _ hb
        obtain ⟨n, -, rfl⟩ := List.mem_map.mp ht
        exact .inr ⟨n, rfl⟩
      · cases hk
  intro u hu hk
  rcases hsteps u hu with h | ⟨n, rfl⟩
  · intro b hb b' hb' x y hxy
    obtain ⟨name, rfl⟩ := hbranch u h b hb
    obtain ⟨name', rfl⟩ := hbranch u h b' hb'
    rw [order_barriers] at hxy ⊢
    exact Barrier.not_both_orders hl hxy
  · cases hk

/-- Both branches wait for the same barrier and can leave it. -/
theorem parallel_no_deadlock_two :
    let s := twoBranches ["a", "b"] ["a", "b"]
    Reachable s (.running false s.newSessions (twoWaiting ["a", "b"] ["a", "b"])) ∧
      ¬ ((∃ c ∈ (twoWaiting ["a", "b"] ["a", "b"]).children, c.finished = false) ∧
        ∀ c ∈ (twoWaiting ["a", "b"] ["a", "b"]).children, c.finished = false →
          c.Blocked (((newBarrierSet 2).hit "a").hit "a") 2) := by
  intro s
  have hr := twoWaiting_reachable ["a", "b"] ["a", "b"] (by decide +kernel) (by decide) (by decide)
  have hat : (twoWaiting ["a", "b"] ["a", "b"]).at? [] = some (twoWaiting ["a", "b"] ["a", "b"]) := rfl
  exact ⟨hr, parallel_no_deadlock hr (twoBranches_uncrossed (by decide)) hat rfl (twoWaiting_ok _ _)⟩

/-- With opposite orders not all branches come to their end. -/
theorem crossed_unfinished (hr : Reachable s (.running canceled sessions root)) (hat : root.at? addr = some t)
    (hpc : t.pc = .parallel shared) (hu : t.step? = some u) (hcross : ¬ u.Uncrossed) (hok : ∀ c ∈ t.children, ¬ c.Failed) :
    ∃ c ∈ t.children, c.finished = false := by
  by_contra hall
  obtain ⟨v, hv, hs, hk, hb⟩ := hr.branching hat hpc
  obtain rfl := Option.some.inj (hu.symm.trans hv)
  refine hcross fun b hbu b' hbu' x y hxy hyx => ?_
  have hdone : ∀ p ∈ t.children.map Task.party, p.Finished := by
    intro p hp
    obtain ⟨c, hc, rfl⟩ := List.mem_map.mp hp
    refine Task.party_finished (hok c hc) ?_
    by_contra hf
    exact hall ⟨c, hc, Bool.eq_false_iff.mpr hf⟩
  have hnd : ∀ l ∈ u.branches.map Branch.order, l.Nodup := by
    intro l hl
    obtain ⟨b, hbu, rfl⟩ := List.mem_map.mp hl
    exact ((hs.validated hr.validate).barriers hk).1 b hbu
  -- the parties of the two branches
  have hparty : ∀ b ∈ u.branches, ∃ (p : Barrier.Party String) (i : Nat), (t.children.map Task.party)[i]? = some p ∧ p.order = b.order := by
    intro b hbu
    obtain ⟨p, hp, hpb⟩ := List.mem_map.mp (hb.reach.orders_eq ▸ List.mem_map_of_mem hbu)
    obtain ⟨i, hi⟩ := List.mem_iff_getElem?.mp hp
    exact ⟨p, i, hi, hpb⟩
  obtain ⟨p, i, hi, hp⟩ := hparty b hbu
  obtain ⟨q, j, hj, hq⟩ := hparty b' hbu'
  refine (Barrier.crossed hb.reach hnd hi hj (hp ▸ hxy) (hq ▸ hyx)).1 ?_
  have hy : y ∈ p.order := hp ▸ hxy.subset (List.mem_cons_of_mem _ List.mem_cons_self)
  rwa [Barrier.Party.order, (hdone p (List.mem_of_getElem? hi)).1, List.append_nil] at hy

end

/-- A valid scenario with opposite orders: each branch waits for the barrier that the other one has second. -/
theorem crossed_deadlocks :
    let s := twoBranches ["a", "b"] ["b", "a"]
    s.validate = .ok () ∧ ∃ root t shared, Reachable s (.running false s.newSessions root) ∧ root.at? [] = some t ∧
      t.pc = .parallel shared ∧ (∀ c ∈ t.children, ¬ c.Failed) ∧ (∃ c ∈ t.children, c.finished = false) ∧
      ∀ c ∈ t.children, c.finished = false → c.Blocked shared.barriers t.children.length := by
  intro s
  have hv : s.validate = .ok () := by decide +kernel
  refine ⟨hv, twoWaiting ["a", "b"] ["b", "a"], _, _, twoWaiting_reachable _ _ hv (by decide) (by decide), rfl, rfl,
    ?_, ?_, ?_⟩
  · exact twoWaiting_ok _ _
  · exact ⟨_, List.mem_cons_self, rfl⟩
  · refine List.forall_mem_cons.mpr ⟨fun _ => ⟨rfl, ?_⟩, List.forall_mem_singleton.mpr fun _ => ⟨rfl, ?_⟩⟩
    · rintro u ⟨⟩
      decide
    · rintro u ⟨⟩
      decide

end Turntf.Demo
