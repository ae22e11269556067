/-
  Turntf.Lib.Reorder — a reorder buffer behind a queue.

  A receiver that takes numbers in order keeps the next number it waits for and the later ones
  it already has. Numbers reach it through a queue, and when one of them comes to its turn it
  must be less than `width` above the next one. Whether it will be is decided when it is put
  into the queue, when the numbers ahead of it have yet to be taken.

  `Fits width next has q`: each number of the queue `q` is less than `width` above some number
  up to which nothing is missing, counting what the receiver has and what is ahead in `q`.

  - `Fits.head`: the number whose turn it is, is in the window of the receiver.
  - `Fits.tail`: taking it keeps the rest of the queue right.
  - `Fits.snoc`: the test with which a number may be put into the queue.
-/

namespace Reorder

/-- Nothing is missing from `next` up to `front`: it is there already or on its way. -/
def Filled (next : Nat) (has : Nat → Prop) (ahead : List Nat) (front : Nat) : Prop :=
  ∀ n, next ≤ n → n < front → has n ∨ n ∈ ahead

def Fits (width next : Nat) (has : Nat → Prop) (q : List Nat) : Prop :=
  ∀ ahead s behind, q = ahead ++ s :: behind → ∃ front, Filled next has ahead front ∧ s < front + width

variable {width next next' : Nat} {has has' : Nat → Prop} {s : Nat} {q : List Nat}

theorem Fits.nil : Fits width next has [] := by
  intro ahead s behind h
  simp at h

/-- The number whose turn it is, is in the window: with nothing ahead of it, nothing is missing only
    up to the number the receiver waits for. -/
theorem Fits.head (h : Fits width next has (s :: q)) (hgap : ¬ has next) : s < next + width := by
  obtain ⟨front, hfilled, hs⟩ := h [] s q rfl
  by_cases hf : next < front
  · rcases hfilled next (Nat.le_refl _) hf with hn | hn
    · exact absurd hn hgap
    · cases hn
  · omega

/-- The receiver takes the number whose turn it is: it has it then, or needs it no more. -/
theorem Fits.tail (h : Fits width next has (s :: q)) (hle : next ≤ next')
    (hhas : ∀ n, next' ≤ n → has n ∨ n = s → has' n) : Fits width next' has' q := by
  intro ahead t behind hq
  obtain ⟨front, hfilled, ht⟩ := h (s :: ahead) t behind (by rw [hq]; rfl)
  refine ⟨front, fun n hn hf => ?_, ht⟩
  rcases hfilled n (by omega) hf with h | h
  · exact .inl (hhas n hn (.inl h))
  · rcases List.mem_cons.mp h with h | h
    · exact .inl (hhas n hn (.inr h))
    · exact .inr h

/-- A number may be put into the queue when it is less than `width` above a number up to which
    nothing is missing. -/
theorem Fits.snoc (h : Fits width next has q) {front : Nat} (hfilled : Filled next has q front) (hs : s < front + width) :
    Fits width next has (q ++ [s]) := by
  intro ahead t behind hq
  rcases List.append_eq_append_iff.mp hq with ⟨r, rfl, hr⟩ | ⟨r, rfl, hr⟩
  · -- the new number itself, with all of `q` ahead of it
    rcases r with _ | ⟨x, r⟩
    · cases hr
      exact ⟨front, by simpa using hfilled, hs⟩
    · simp at hr
  · rcases r with _ | ⟨x, r⟩
    · cases hr
      exact ⟨front, by simpa using hfilled, hs⟩
    · cases hr
      exact h ahead t r rfl

end Reorder
