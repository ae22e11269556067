/-
  Turntf.Stream.Steps — what one step of the two connections of a stream can do.

  - `step_cases`: a step starts a call, or takes one call at one end to its next position;
    every other call stays where it is and the other end is untouched.
  - `actStep_cases`: that call goes on, returns, or gives a frame to the transport.
  - `exclusive`: in every reachable state no mutex is held by two calls.
-/

import Turntf.Lib.Locks
import Turntf.Stream.Calls

namespace Turntf.Stream

open Lts Locks Ends

/-- The call `x` on top of thread `i` makes a step: it becomes `new`, its end `e`. The calls
    of all threads before and after it are `L` and `R`. -/
structure Moves (s s' : Sys) (i : Nat) (how : Choice) where
  x : Act
  rest : List Act
  sent : Option StreamError
  e : StreamEnd
  new : List Act
  sent' : Option StreamError
  L : List Act
  R : List Act
  thread : s.threads[i]? = some ⟨x :: rest, sent⟩
  threads : s'.threads = s.threads.set i ⟨new ++ rest, sent'⟩
  acts : s.acts = L ++ x :: R
  acts' : s'.acts = L ++ new ++ R
  free : ∀ l, x.wants = some l → l ∉ s.held
  step : s.actStep sent how x = some (e, new, sent')
  own : s'.ends x.side = e
  other : s'.ends x.side.peer = s.ends x.side.peer

theorem Moves.mem_self {s s' : Sys} {i : Nat} {how : Choice} (mv : Moves s s' i how) : mv.x ∈ s.acts := by
  rw [mv.acts]
  exact List.mem_append_right _ List.mem_cons_self

theorem Moves.mem_others {s s' : Sys} {i : Nat} {how : Choice} (mv : Moves s s' i how) {y : Act}
    (h : y ∈ mv.L ++ mv.R) : y ∈ s.acts := by
  rw [mv.acts]
  rcases List.mem_append.mp h with h | h
  · exact List.mem_append_left _ h
  · exact List.mem_append_right _ (List.mem_cons_of_mem _ h)

theorem Moves.mem_others' {s s' : Sys} {i : Nat} {how : Choice} (mv : Moves s s' i how) {y : Act}
    (h : y ∈ mv.L ++ mv.R) : y ∈ s'.acts := by
  rw [mv.acts']
  rcases List.mem_append.mp h with h | h
  · exact List.mem_append_left _ (List.mem_append_left _ h)
  · exact List.mem_append_right _ h

theorem Moves.mem_or {s s' : Sys} {i : Nat} {how : Choice} (mv : Moves s s' i how) {y : Act} (h : y ∈ s.acts) :
    y = mv.x ∨ y ∈ mv.L ++ mv.R := by
  rw [mv.acts] at h
  rcases List.mem_append.mp h with h | h
  · exact .inr (List.mem_append_left _ h)
  · exact (List.mem_cons.mp h).imp_right (List.mem_append_right _)

theorem Moves.mem_cases {s s' : Sys} {i : Nat} {how : Choice} (mv : Moves s s' i how) {y : Act} (h : y ∈ s'.acts) :
    y ∈ mv.L ++ mv.R ∨ y ∈ mv.new := by
  rw [mv.acts'] at h
  rcases List.mem_append.mp h with h | h
  · rcases List.mem_append.mp h with h | h
    · exact .inl (List.mem_append_left _ h)
    · exact .inr h
  · exact .inl (List.mem_append_right _ h)

/-- A call of `c` at `x` starts. -/
structure Calls (s s' : Sys) (x : Side) (c : Call) : Prop where
  threads : s'.threads = s.threads ++ [⟨(c.start.map fun pc => (⟨x, pc⟩ : Act)).toList, none⟩]
  acts' : s'.acts = s.acts ++ (c.start.map fun pc => (⟨x, pc⟩ : Act)).toList
  own : s'.ends x = Sys.noteCall (s.ends x) c
  other : s'.ends x.peer = s.ends x.peer

theorem step_cases {s s' : Sys} {m : Move} (h : s.step m = some s') :
    (∃ x c, m = .call x c ∧ Calls s s' x c) ∨ (∃ i how, m = .run i how ∧ Nonempty (Moves s s' i how)) := by
  cases m with
  | call x c =>
    cases h
    exact .inl ⟨x, c, rfl, rfl, by simp [Sys.acts], by simp [Sys.setEnd], by simp [Sys.setEnd]⟩
  | run i how =>
    simp only [Sys.step] at h
    split at h
    · rename_i x rest sent ht
      split at h
      · cases h
      · rename_i hb
        obtain ⟨⟨e, new, sent'⟩, ha, rfl⟩ := Option.map_eq_some_iff.mp h
        obtain ⟨hs, hset⟩ := split_at ht
        refine .inr ⟨i, how, rfl, ⟨x, rest, sent, e, new, sent', (s.threads.take i).flatMap (·.stack),
          rest ++ (s.threads.drop (i + 1)).flatMap (·.stack), ht, rfl, ?_, ?_, ?_, ha, ?_, ?_⟩⟩
        · rw [Sys.acts]
          conv => lhs; rw [hs]
          simp
        · simp [Sys.acts, hset]
        · intro l hl hm
          simp [Sys.blocked, hl, hm] at hb
        · simp [Sys.setEnd]
        · simp [Sys.setEnd]
    · cases h

theorem actStep_cases {s : Sys} {sent sent' : Option StreamError} {how : Choice} {x : Act} {e : StreamEnd}
    {new : List Act} (h : s.actStep sent how x = some (e, new, sent')) :
    (∃ pc, pcStep (s.ends x.side) sent how x.pc = some (e, .goto pc) ∧ new = [⟨x.side, pc⟩] ∧ sent' = sent) ∨
    (∃ err, pcStep (s.ends x.side) sent how x.pc = some (e, .ret err) ∧ new = [] ∧ sent' = err) ∨
    (∃ e₀ f pc, pcStep (s.ends x.side) sent how x.pc = some (e₀, .send f pc) ∧ e = { e₀ with out := e₀.out ++ [f] } ∧
      (new = [⟨x.side, pc⟩] ∨ how = .sync ∧ new = [⟨x.side.peer, .handle (.enter f)⟩, ⟨x.side, pc⟩])) := by
  simp only [Sys.actStep] at h
  split at h
  · cases h
  · rename_i e' pc hp
    cases h
    exact .inl ⟨pc, hp, rfl, rfl⟩
  · rename_i e' err hp
    cases h
    exact .inr (.inl ⟨_, hp, rfl, rfl⟩)
  · rename_i e' f pc hp
    obtain ⟨⟨new', sent₁⟩, hn, he⟩ := Option.map_eq_some_iff.mp h
    cases he
    refine .inr (.inr ⟨e', f, pc, hp, rfl, ?_⟩)
    cases how with
    | sync => cases hn; exact .inr ⟨rfl, rfl⟩
    | taken => cases hn; exact .inl rfl
    | refused err => cases hn; exact .inl rfl
    | go => cases hn
    | done => cases hn
    | cancelled => cases hn

/-! ## Mutual exclusion -/

/-- Where the call goes on, if it does. -/
def Next.pc? {P : Type} : Next P → Option P
  | .goto pc => some pc
  | .send _ pc => some pc
  | .ret _ => none

theorem Next.pc?_map {P Q : Type} {f : P → Q} {n : Next P} {q : Q} (h : (n.map f).pc? = some q) :
    ∃ p, n.pc? = some p ∧ q = f p := by
  cases n <;> cases h <;> exact ⟨_, rfl, rfl⟩

/-- What `pc'` holds, `pc` held or was about to take. -/
def TakesAtMost (holds : List Mutex) (wants : Option Mutex) (holds' : List Mutex) : Prop :=
  ∀ l, holds'.count l ≤ (wants.toList ++ holds).count l

section

variable {e e' : StreamEnd} {sent : Option StreamError} {how : Choice}

theorem readStep_locks {pc pc' : ReadPc} {n : Next ReadPc} (h : readStep e sent pc = some (e', n))
    (hn : n.pc? = some pc') : TakesAtMost pc.holds pc.wants pc'.holds := by
  intro l
  cases pc <;> simp only [readStep] at h <;> (repeat' split at h) <;> cases h <;> cases hn <;>
    cases l <;> exact Nat.le_of_ble_eq_true rfl

theorem writeStep_locks {pc pc' : WritePc} {n : Next WritePc} (h : writeStep e sent pc = some (e', n))
    (hn : n.pc? = some pc') : TakesAtMost pc.holds pc.wants pc'.holds := by
  intro l
  cases pc <;> simp only [writeStep] at h <;> (repeat' split at h) <;> cases h <;> cases hn <;>
    cases l <;> exact Nat.le_of_ble_eq_true rfl

theorem resumeStep_locks {pc pc' : ResumePc} {n : Next ResumePc} (h : resumeStep e sent how pc = some (e', n))
    (hn : n.pc? = some pc') : TakesAtMost pc.holds pc.wants pc'.holds := by
  intro l
  cases pc <;> simp only [resumeStep] at h <;> (repeat' split at h) <;> cases h <;> cases hn <;>
    cases l <;> exact Nat.le_of_ble_eq_true rfl

theorem terminateStep_locks {err : StreamError} {pc pc' : TerminatePc}
    (h : terminateStep e err pc = some (e', some pc')) : TakesAtMost pc.holds pc.wants pc'.holds := by
  intro l
  cases pc <;> simp only [terminateStep] at h <;> (repeat' split at h) <;> cases h <;>
    cases l <;> exact Nat.le_of_ble_eq_true rfl

/-- `terminate` inside a call that holds `held` across it. -/
theorem terminate_locks (held : List Mutex) {err : StreamError} {pc pc' : TerminatePc}
    (h : terminateStep e err pc = some (e', some pc')) :
    TakesAtMost (held ++ pc.holds) pc.wants (held ++ pc'.holds) := by
  intro l
  have := terminateStep_locks h l
  simp only [List.count_append] at this ⊢
  omega

theorem closeStep_locks {pc pc' : ClosePc} {n : Next ClosePc} (h : closeStep e sent pc = some (e', n))
    (hn : n.pc? = some pc') : TakesAtMost pc.holds pc.wants pc'.holds := by
  cases pc with
  | terminate epoch pc =>
    obtain ⟨⟨e₁, _ | pc₁⟩, ht, he⟩ := Option.map_eq_some_iff.mp h
    · cases he; cases hn
      intro l
      exact Nat.zero_le _
    · cases he; cases hn
      exact terminateStep_locks ht
  | _ =>
    intro l
    simp only [closeStep] at h
    cases h
    (try split at hn) <;> cases hn <;> cases l <;> exact Nat.le_of_ble_eq_true rfl

theorem handleStep_locks {pc pc' : HandlePc} {n : Next HandlePc} (h : handleStep e sent pc = some (e', n))
    (hn : n.pc? = some pc') : TakesAtMost pc.holds pc.wants pc'.holds := by
  cases pc with
  | terminate pc =>
    obtain ⟨⟨e₁, _ | pc₁⟩, ht, he⟩ := Option.map_eq_some_iff.mp h
    · cases he; cases hn
      intro l
      show List.count l [.handleMu] ≤ List.count l (pc.wants.toList ++ ([.handleMu] ++ pc.holds))
      simp only [List.count_append]
      omega
    · cases he; cases hn
      exact terminate_locks [.handleMu] ht
  | _ =>
    intro l
    simp only [handleStep, enterStep, dispatchStep, acknowledgeStep] at h
    (repeat' split at h) <;> cases h <;> cases hn <;> cases l <;> exact Nat.le_of_ble_eq_true rfl

theorem pcStep_locks {pc pc' : Pc} {n : Next Pc} (h : pcStep e sent how pc = some (e', n))
    (hn : n.pc? = some pc') : TakesAtMost pc.holds pc.wants pc'.holds := by
  cases pc <;> obtain ⟨⟨e₁, n₁⟩, hs, he⟩ := Option.map_eq_some_iff.mp h <;> cases he <;> cases n₁ <;> cases hn
  all_goals first
    | exact readStep_locks hs rfl
    | exact writeStep_locks hs rfl
    | exact resumeStep_locks hs rfl
    | exact closeStep_locks hs rfl
    | exact handleStep_locks hs rfl

end

/-- A call's locks, and the lock it is about to take, belong to its own end. -/
theorem takesAtMost_map {K : Type} [DecidableEq K] {f : Mutex → K} (hf : Function.Injective f) {holds holds' : List Mutex}
    {wants : Option Mutex} (h : TakesAtMost holds wants holds') (k : K) :
    (holds'.map f).count k ≤ ((wants.map f).toList ++ holds.map f).count k := by
  by_cases hk : k ∈ holds'.map f
  · obtain ⟨l, _, rfl⟩ := List.mem_map.mp hk
    have hmap : (wants.map f).toList = wants.toList.map f := by cases wants <;> rfl
    rw [hmap, ← List.map_append, List.count_map_of_injective _ _ hf, List.count_map_of_injective _ _ hf]
    exact h l
  · rw [List.count_eq_zero.mpr hk]
    exact Nat.zero_le _

theorem lock_injective (x : Side) : Function.Injective (Lock.mk x) := fun _ _ h => (Lock.mk.inj h).2

/-- A call that moves takes at most the lock it was about to take; a callee has none. -/
theorem Moves.takes {s s' : Sys} {i : Nat} {how : Choice} (mv : Moves s s' i how) (l : Lock) :
    (mv.new.flatMap Act.holds).count l ≤ (mv.x.wants.toList ++ mv.x.holds).count l := by
  rcases actStep_cases mv.step with ⟨pc, hp, hn, _⟩ | ⟨err, _, hn, _⟩ | ⟨e₀, f, pc, hp, _, hn | ⟨_, hn⟩⟩
  · rw [hn, List.flatMap_singleton]
    exact takesAtMost_map (lock_injective _) (pcStep_locks hp rfl) l
  · rw [hn]
    exact Nat.zero_le _
  · rw [hn, List.flatMap_singleton]
    exact takesAtMost_map (lock_injective _) (pcStep_locks hp rfl) l
  · have hnew : mv.new.flatMap Act.holds = (⟨mv.x.side, pc⟩ : Act).holds := by
      rw [hn]
      simp [Act.holds, Pc.holds, HandlePc.holds]
    rw [hnew]
    exact takesAtMost_map (lock_injective _) (pcStep_locks hp rfl) l

/-- Of the calls after a step, only the one that moved can be about to lock something. -/
theorem Moves.new_wants {s s' : Sys} {i : Nat} {how : Choice} (mv : Moves s s' i how) {w : Act} (hw : w ∈ mv.new)
    (hne : w.pc.wants ≠ none) :
    ∃ n pc, pcStep (s.ends mv.x.side) mv.sent how mv.x.pc = some n ∧ n.2.pc? = some pc ∧ w = ⟨mv.x.side, pc⟩ := by
  rcases actStep_cases mv.step with ⟨pc, hp, hn, _⟩ | ⟨err, _, hn, _⟩ | ⟨e₀, f, pc, hp, _, hn | ⟨_, hn⟩⟩
  · rw [hn] at hw
    exact ⟨_, pc, hp, rfl, List.mem_singleton.mp hw⟩
  · rw [hn] at hw
    cases hw
  · rw [hn] at hw
    exact ⟨_, pc, hp, rfl, List.mem_singleton.mp hw⟩
  · rw [hn] at hw
    rcases List.mem_cons.mp hw with rfl | hw
    · exact absurd rfl hne
    · exact ⟨_, pc, hp, rfl, List.mem_singleton.mp hw⟩

/-- Two calls of one end do not hold the same mutex. -/
theorem Moves.alone {s s' : Sys} {i : Nat} {how : Choice} (mv : Moves s s' i how) (h : Exclusive Act.holds s.acts)
    {y : Act} (hy : y ∈ mv.L ++ mv.R) (hside : y.side = mv.x.side) {m : Mutex} (hm : m ∈ mv.x.pc.holds) :
    m ∉ y.pc.holds := by
  intro hm'
  rw [mv.acts] at h
  exact h.elsewhere (List.mem_map.mpr ⟨m, hm, rfl⟩) hy (List.mem_map.mpr ⟨m, hm', by rw [hside]⟩)

theorem step_exclusive {s s' : Sys} {m : Move} (h : Exclusive Act.holds s.acts) (hs : s.step m = some s') :
    Exclusive Act.holds s'.acts := by
  rcases step_cases hs with ⟨x, c, _, hc⟩ | ⟨i, how, _, ⟨mv⟩⟩
  · rw [hc.acts']
    refine h.add ?_
    cases c <;> simp only [Call.start] <;> (try split) <;> rfl
  · rw [mv.acts']
    rw [mv.acts] at h
    refine h.replace mv.x.wants ?_ mv.takes
    intro l hl
    have := mv.free l hl
    rwa [Sys.held, mv.acts] at this

theorem exclusive {ok : Sys → Move → Prop} {I : Sys → Prop} (hI : ∀ s, I s → s.threads = []) {s : Sys}
    (h : Reach Sys.step ok I s) : Exclusive Act.holds s.acts := by
  refine h.keeps ?_ fun _ _ _ _ hp _ hs => step_exclusive hp hs
  intro s hi k
  simp [Sys.acts, hI s hi]

end Turntf.Stream
