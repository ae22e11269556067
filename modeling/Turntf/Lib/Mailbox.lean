/-
  Turntf.Lib.Mailbox — a mailbox from which each receiver takes the first item it wants.

  `step` is the mailbox as a machine of its own. Its state is the `Log` of all items put in, in
  the order they came, each with the receiver that took it. An item is taken once, and a receiver
  that takes one takes the first it wants of those nobody has taken.

  - `waiting`: the items nobody has taken, in the order they came; `takenBy`: those of a receiver.
  - `waiting_give`, `takenBy_give`, `takenBy_give_of_ne`: what taking an item does to them.
-/

namespace Mailbox

variable {ε ι : Type}

abbrev Log (ε ι : Type) := List (ε × Option ι)

def waiting (log : Log ε ι) : List ε := log.filterMap fun p => if p.2.isNone then some p.1 else none

/-- The first item that is wanted and not taken yet goes to `i`. -/
def give (want : ε → Bool) (i : ι) : Log ε ι → Log ε ι
  | [] => []
  | (e, none) :: log => if want e then (e, some i) :: log else (e, none) :: give want i log
  | (e, some j) :: log => (e, some j) :: give want i log

inductive Event (ε ι : Type) where
  | put (e : ε)
  | take (i : ι)

def step (want : ι → ε → Bool) (log : Log ε ι) : Event ε ι → Option (Log ε ι)
  | .put e => some (log ++ [(e, none)])
  | .take i => if ((waiting log).find? (want i)).isSome then some (give (want i) i log) else none

@[simp] theorem waiting_nil : waiting ([] : Log ε ι) = [] := rfl

@[simp] theorem waiting_free (e : ε) (log : Log ε ι) : waiting ((e, none) :: log) = e :: waiting log := rfl

@[simp] theorem waiting_taken (e : ε) (i : ι) (log : Log ε ι) : waiting ((e, some i) :: log) = waiting log := rfl

theorem waiting_put (e : ε) (log : Log ε ι) : waiting (log ++ [(e, none)]) = waiting log ++ [e] := by
  simp [waiting]

theorem waiting_give (want : ε → Bool) (i : ι) (log : Log ε ι) :
    waiting (give want i log) = (waiting log).eraseP want := by
  induction log with
  | nil => rfl
  | cons p log ih =>
    obtain ⟨e, owner⟩ := p
    cases owner with
    | none =>
      rw [give, waiting_free]
      by_cases he : want e = true
      · simp [he]
      · simp [he, ih]
    | some j => exact ih

section

variable [DecidableEq ι]

def takenBy (i : ι) (log : Log ε ι) : List ε := log.filterMap fun p => if p.2 = some i then some p.1 else none

@[simp] theorem takenBy_free (i : ι) (e : ε) (log : Log ε ι) : takenBy i ((e, none) :: log) = takenBy i log := rfl

theorem takenBy_own (i : ι) (e : ε) (log : Log ε ι) : takenBy i ((e, some i) :: log) = e :: takenBy i log := by
  simp [takenBy]

theorem takenBy_other {i j : ι} (h : j ≠ i) (e : ε) (log : Log ε ι) : takenBy i ((e, some j) :: log) = takenBy i log := by
  simp [takenBy, h]

theorem takenBy_put (i : ι) (e : ε) (log : Log ε ι) : takenBy i (log ++ [(e, none)]) = takenBy i log := by
  simp [takenBy]

theorem takenBy_give {want : ε → Bool} {i : ι} {log : Log ε ι} {e : ε} (he : (waiting log).find? want = some e)
    (hnone : takenBy i log = []) : takenBy i (give want i log) = [e] := by
  induction log with
  | nil => cases he
  | cons p log ih =>
    obtain ⟨d, owner⟩ := p
    cases owner with
    | none =>
      rw [takenBy_free] at hnone
      rw [waiting_free, List.find?_cons] at he
      rw [give]
      by_cases hd : want d = true
      · rw [hd] at he
        cases he
        rw [if_pos hd, takenBy_own, hnone]
      · rw [Bool.not_eq_true] at hd
        rw [hd] at he
        rw [if_neg (by simp [hd]), takenBy_free]
        exact ih he hnone
    | some j =>
      by_cases hj : j = i
      · subst hj
        rw [takenBy_own] at hnone
        cases hnone
      · rw [takenBy_other hj] at hnone
        rw [give, takenBy_other hj]
        exact ih he hnone

theorem takenBy_give_of_ne {i j : ι} (hij : i ≠ j) (want : ε → Bool) (log : Log ε ι) :
    takenBy j (give want i log) = takenBy j log := by
  induction log with
  | nil => rfl
  | cons p log ih =>
    obtain ⟨e, owner⟩ := p
    cases owner with
    | none =>
      rw [give, takenBy_free]
      split
      · rw [takenBy_other hij]
      · rw [takenBy_free, ih]
    | some k =>
      rw [give]
      by_cases hk : k = j
      · subst hk
        rw [takenBy_own, takenBy_own, ih]
      · rw [takenBy_other hk, takenBy_other hk, ih]

end

end Mailbox
