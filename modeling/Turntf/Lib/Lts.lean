/-
  Turntf.Lib.Lts — runs of a transition system whose steps are picked by actions.

  `step s a` is the state after action `a`, or `none` when `a` is not enabled in `s`.
  `Reach step ok I` is the set of states reached from a state of `I` by steps that all
  meet `ok`: with `ok` always true these are the reachable states, with a narrower `ok`
  the states of the runs that keep to a condition on the state before each step.

  - `Reach.keeps`: what the initial states have and every step keeps, every reachable
    state has; the step may use that its source state is reachable.
  - `Reach.weaken`: a run that keeps to a condition keeps to every weaker one.
  - `Steps`: a run from any state, for what holds between two states of one run.
  - `reach_exec`, `reach_guarded`: the end of an executed list of actions is reachable.
  - `Trace`: a run with its steps, for what a state owes to an earlier step of its run;
    `Trace.keeps` is its induction rule, `Reach.trace` finds the run of a reachable state,
    `trace_any` records an executed run.
-/

namespace Lts

variable {S A : Type} (step : S → A → Option S)

inductive Reach (ok : S → A → Prop) (I : S → Prop) : S → Prop
  | init {s : S} : I s → Reach ok I s
  | step {s t : S} (a : A) : Reach ok I s → ok s a → step s a = some t → Reach ok I t

/-- Any step may be taken. -/
def free (_ : S) (_ : A) : Prop := True

instance (s : S) (a : A) : Decidable (free s a) := .isTrue trivial

/-- `t` is reached from `s` by any number of steps. -/
inductive Steps : S → S → Prop
  | refl (s : S) : Steps s s
  | tail {s t u : S} (a : A) : Steps s t → step t a = some u → Steps s u

/-- The state after a list of actions, if each is enabled in its turn. -/
def exec : S → List A → Option S
  | s, [] => some s
  | s, a :: as => (step s a).bind fun t => exec t as

variable {step} {ok ok' : S → A → Prop} {I P : S → Prop}

theorem Reach.keeps (h0 : ∀ s, I s → P s)
    (hs : ∀ s a t, Reach step ok I s → P s → ok s a → step s a = some t → P t) {s : S}
    (h : Reach step ok I s) : P s := by
  induction h with
  | init hi => exact h0 _ hi
  | step a hr hok ht ih => exact hs _ a _ hr ih hok ht

theorem Reach.weaken (hw : ∀ s a, ok s a → ok' s a) {s : S} (h : Reach step ok I s) :
    Reach step ok' I s := by
  induction h with
  | init hi => exact .init hi
  | step a _ hok ht ih => exact .step a ih (hw _ _ hok) ht

theorem Reach.steps {s t : S} (h : Reach step free I s) (hr : Steps step s t) : Reach step free I t := by
  induction hr with
  | refl => exact h
  | tail a _ ht ih => exact .step a ih trivial ht

theorem reach_exec {s t : S} (as : List A) (h : Reach step free I s) (he : exec step s as = some t) :
    Reach step free I t := by
  induction as generalizing s with
  | nil => cases he; exact h
  | cons a as ih =>
    obtain ⟨u, hu, hr⟩ := Option.bind_eq_some_iff.mp he
    exact ih (.step a h trivial hu) hr

theorem exec_append (s : S) (as bs : List A) : exec step s (as ++ bs) = (exec step s as).bind fun t => exec step t bs := by
  induction as generalizing s with
  | nil => rfl
  | cons a as ih =>
    show (step s a).bind _ = ((step s a).bind _).bind _
    rw [Option.bind_assoc]
    exact congrArg _ (funext fun t => ih t)

/-- Only the steps that meet `ok`. -/
def guarded (step : S → A → Option S) (ok : S → A → Prop) [∀ s a, Decidable (ok s a)] (s : S) (a : A) : Option S :=
  if ok s a then step s a else none

theorem reach_guarded [∀ s a, Decidable (ok s a)] {s t : S} (as : List A) (h : Reach step ok I s)
    (he : exec (guarded step ok) s as = some t) : Reach step ok I t := by
  induction as generalizing s with
  | nil => cases he; exact h
  | cons a as ih =>
    obtain ⟨u, hu, hr⟩ := Option.bind_eq_some_iff.mp he
    unfold guarded at hu
    split at hu
    · rename_i hok
      exact ih (.step a h hok hu) hr
    · cases hu

/-- An executed run whose last state is checked to have `P`. -/
theorem reach_any [∀ s a, Decidable (ok s a)] {p : S → Bool} {s : S} (as : List A) (h : Reach step ok I s)
    (he : (exec (guarded step ok) s as).any p = true) : ∃ t, Reach step ok I t ∧ p t = true := by
  cases hx : exec (guarded step ok) s as with
  | none => rw [hx] at he; cases he
  | some t =>
    rw [hx] at he
    exact ⟨t, reach_guarded as h hx, he⟩

/-! ## Runs with their steps -/

/-- A run that ends in a state, with each of its steps: the state before it and the action. -/
inductive Trace (step : S → A → Option S) (ok : S → A → Prop) (I : S → Prop) : List (S × A) → S → Prop
  | init {s : S} : I s → Trace step ok I [] s
  | step {tr : List (S × A)} {s t : S} (a : A) : Trace step ok I tr s → ok s a → step s a = some t →
      Trace step ok I (tr ++ [(s, a)]) t

theorem Trace.reach {tr : List (S × A)} {s : S} (h : Trace step ok I tr s) : Reach step ok I s := by
  induction h with
  | init hi => exact .init hi
  | step a _ hok ht ih => exact .step a ih hok ht

theorem Reach.trace {s : S} (h : Reach step ok I s) : ∃ tr, Trace step ok I tr s := by
  induction h with
  | init hi => exact ⟨[], .init hi⟩
  | step a _ hok ht ih =>
    obtain ⟨tr, htr⟩ := ih
    exact ⟨_, .step a htr hok ht⟩

theorem Trace.keeps {P : List (S × A) → S → Prop} (h0 : ∀ s, I s → P [] s)
    (hs : ∀ tr s a t, Trace step ok I tr s → P tr s → ok s a → step s a = some t → P (tr ++ [(s, a)]) t)
    {tr : List (S × A)} {s : S} (h : Trace step ok I tr s) : P tr s := by
  induction h with
  | init hi => exact h0 _ hi
  | step a htr hok ht ih => exact hs _ _ a _ htr ih hok ht

/-- The steps of a list of actions and the state after them, if each is enabled in its turn. -/
def record (step : S → A → Option S) : List (S × A) → S → List A → Option (List (S × A) × S)
  | tr, s, [] => some (tr, s)
  | tr, s, a :: as => (step s a).bind fun t => record step (tr ++ [(s, a)]) t as

theorem trace_record [∀ s a, Decidable (ok s a)] {tr tr' : List (S × A)} {s t : S} (as : List A)
    (h : Trace step ok I tr s) (he : record (guarded step ok) tr s as = some (tr', t)) : Trace step ok I tr' t := by
  induction as generalizing tr s with
  | nil => cases he; exact h
  | cons a as ih =>
    obtain ⟨u, hu, hr⟩ := Option.bind_eq_some_iff.mp he
    unfold guarded at hu
    split at hu
    · rename_i hok
      exact ih (.step a h hok hu) hr
    · cases hu

/-- A recorded run that is checked to have `p`. -/
theorem trace_any [∀ s a, Decidable (ok s a)] {p : List (S × A) × S → Bool} {s : S} (as : List A) (h : I s)
    (he : (record (guarded step ok) [] s as).any p = true) : ∃ tr t, Trace step ok I tr t ∧ p (tr, t) = true := by
  cases hx : record (guarded step ok) [] s as with
  | none => rw [hx] at he; cases he
  | some r =>
    rw [hx] at he
    exact ⟨r.1, r.2, trace_record as (.init h) hx, he⟩

end Lts
