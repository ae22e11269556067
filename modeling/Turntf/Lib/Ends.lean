/-
  Turntf.Lib.Ends — two ends, and a transition system at each of them.

  `stepAt step` is the system of two copies of `step`, each action at one end. What one end
  does never changes the other: whatever relates the two does so through what an end may take
  in, the `ok` of `Lts.Reach`.

  - `Reach.ends_keep`: an invariant of one copy holds at both ends.
  - `Trace.atEnd`: the steps of one end are a run of one copy.
-/

import Turntf.Lib.Lts

namespace Ends

inductive Side where
  | a
  | b
  deriving DecidableEq

def Side.peer : Side → Side
  | .a => .b
  | .b => .a

@[simp] theorem Side.peer_peer (x : Side) : x.peer.peer = x := by cases x <;> rfl

@[simp] theorem Side.peer_ne (x : Side) : x.peer ≠ x := by cases x <;> decide

@[simp] theorem Side.ne_peer (x : Side) : x ≠ x.peer := by cases x <;> decide

theorem Side.eq_peer_of_ne {x y : Side} (h : y ≠ x) : y = x.peer := by
  cases x <;> cases y <;> first | rfl | exact absurd rfl h

variable {S A : Type}

/-- The action `m.2` at the end `m.1`. -/
def stepAt (step : S → A → Option S) (p : Side → S) (m : Side × A) : Option (Side → S) :=
  (step (p m.1) m.2).map fun s x => if x = m.1 then s else p x

theorem stepAt_cases {step : S → A → Option S} {p q : Side → S} {m : Side × A} (h : stepAt step p m = some q) :
    step (p m.1) m.2 = some (q m.1) ∧ ∀ x, x ≠ m.1 → q x = p x := by
  obtain ⟨s, hs, rfl⟩ := Option.map_eq_some_iff.mp h
  exact ⟨by simpa using hs, fun x hx => if_neg hx⟩

theorem Reach.ends_keep {step : S → A → Option S} {ok : (Side → S) → Side × A → Prop} {I : (Side → S) → Prop}
    {P : Side → S → Prop} (h0 : ∀ p, I p → ∀ x, P x (p x))
    (hs : ∀ p x a s, Lts.Reach (stepAt step) ok I p → P x (p x) → ok p (x, a) → step (p x) a = some s → P x s)
    {p : Side → S} (h : Lts.Reach (stepAt step) ok I p) (x : Side) : P x (p x) := by
  refine h.keeps (P := fun p => ∀ x, P x (p x)) h0 ?_ x
  intro p m q hr hp hok hq y
  obtain ⟨hown, hother⟩ := stepAt_cases hq
  by_cases e : y = m.1
  · rw [e]
    exact hs p m.1 m.2 _ hr (hp m.1) hok hown
  · rw [hother y e]
    exact hp y

/-- The steps of the end `x` in a run of both. -/
def atEnd (x : Side) (tr : List ((Side → S) × (Side × A))) : List (S × A) :=
  tr.filterMap fun e => if e.2.1 = x then some (e.1 x, e.2.2) else none

/-- What one end does in a run of both is a run of that end. -/
theorem Trace.atEnd {step : S → A → Option S} {ok : (Side → S) → Side × A → Prop} {I : (Side → S) → Prop} {J : S → Prop}
    {x : Side} (h0 : ∀ p, I p → J (p x)) {tr : List ((Side → S) × (Side × A))} {p : Side → S}
    (h : Lts.Trace (stepAt step) ok I tr p) : Lts.Trace step Lts.free J (atEnd x tr) (p x) := by
  refine h.keeps (P := fun tr p => Lts.Trace step Lts.free J (Ends.atEnd x tr) (p x)) (fun p hi => .init (h0 p hi)) ?_
  intro tr p m q _ hp _ hq
  obtain ⟨hown, hother⟩ := stepAt_cases hq
  rw [Ends.atEnd, List.filterMap_append]
  by_cases hx : m.1 = x
  · subst hx
    have := Lts.Trace.step m.2 hp trivial hown
    simpa [Ends.atEnd] using this
  · rw [hother x (Ne.symm hx)]
    simpa [Ends.atEnd, hx] using hp

end Ends
