/-
  Turntf.Lib.Segment — pieces of a growing sequence.

  `At w i xs`: the piece `xs` is what stands in `w` from position `i` on. A reader that
  holds the first `n` elements of `w` and gets a piece starting at or before `n` extends
  its copy by the part past `n` (`take_extend`), however much the two overlap.

  `Chain w lo hi ps`: the pieces `ps` (position and elements) are non-empty, follow each
  other without a gap from `lo` to `hi`, and each stands in `w`. Chains grow at the end
  (`Chain.snoc`), lose the pieces that end at or before a position (`Chain.dropUpTo`) and
  can be cut there (`Chain.trim`).
-/

import Mathlib.Data.List.Chain

namespace Segment

variable {α : Type}

def At (w : List α) (i : Nat) (xs : List α) : Prop := i ≤ w.length ∧ xs <+: w.drop i

theorem At.le_length {w : List α} {i : Nat} {xs : List α} (h : At w i xs) : i + xs.length ≤ w.length := by
  have := h.2.length_le
  rw [List.length_drop] at this
  have := h.1
  omega

theorem At.grow {w : List α} {i : Nat} {xs : List α} (h : At w i xs) (v : List α) : At (w ++ v) i xs := by
  refine ⟨by rw [List.length_append]; have := h.1; omega, ?_⟩
  rw [List.drop_append_of_le_length h.1]
  exact h.2.trans (List.prefix_append _ _)

theorem at_end (w xs : List α) : At (w ++ xs) w.length xs := by
  refine ⟨by simp, ?_⟩
  simp only [List.drop_left, List.prefix_refl]

theorem At.drop {w : List α} {i : Nat} {xs : List α} (h : At w i xs) {k : Nat} (hk : k ≤ xs.length) :
    At w (i + k) (xs.drop k) := by
  have hl := h.le_length
  refine ⟨by omega, ?_⟩
  obtain ⟨r, hr⟩ := h.2
  rw [← List.drop_drop, ← hr, List.drop_append_of_le_length hk]
  exact List.prefix_append _ _

theorem At.take_append {w : List α} {i : Nat} {xs : List α} (h : At w i xs) :
    w.take i ++ xs = w.take (i + xs.length) := by
  obtain ⟨r, hr⟩ := h.2
  rw [List.take_add, ← hr, List.take_left]

/-- A reader with the first `n` elements gets a piece that starts at or before `n`. -/
theorem At.take_extend {w : List α} {i n : Nat} {xs : List α} (h : At w i xs) (hi : i ≤ n) (hn : n ≤ i + xs.length) :
    w.take n ++ xs.drop (n - i) = w.take (i + xs.length) := by
  have hd := h.drop (k := n - i) (by omega)
  have he : i + (n - i) = n := by omega
  rw [he] at hd
  rw [hd.take_append, List.length_drop]
  congr 1
  omega

/-- The pieces `ps`, each with its position, run without a gap from `lo` to `hi`. -/
def Chain (w : List α) : Nat → Nat → List (Nat × List α) → Prop
  | lo, hi, [] => lo = hi
  | lo, hi, p :: ps => p.1 = lo ∧ p.2 ≠ [] ∧ At w lo p.2 ∧ Chain w (lo + p.2.length) hi ps

theorem Chain.le {w : List α} {hi : Nat} : ∀ {ps : List (Nat × List α)} {lo : Nat}, Chain w lo hi ps → lo ≤ hi := by
  intro ps
  induction ps with
  | nil => intro lo h; exact Nat.le_of_eq h
  | cons p ps ih => intro lo h; have := ih h.2.2.2; omega

theorem Chain.mem_at {w : List α} {hi : Nat} : ∀ {ps : List (Nat × List α)} {lo : Nat}, Chain w lo hi ps →
    ∀ p ∈ ps, lo ≤ p.1 ∧ p.1 + p.2.length ≤ hi ∧ p.2 ≠ [] ∧ At w p.1 p.2 := by
  intro ps
  induction ps with
  | nil => intro _ _ p hp; cases hp
  | cons q ps ih =>
    intro lo h p hp
    obtain ⟨h1, h2, h3, h4⟩ := h
    rcases List.mem_cons.mp hp with rfl | hp
    · have := Chain.le h4
      exact ⟨by omega, by omega, h2, h1 ▸ h3⟩
    · obtain ⟨a, b, c, d⟩ := ih h4 p hp
      exact ⟨by omega, b, c, d⟩

theorem Chain.grow {w : List α} (v : List α) {hi : Nat} : ∀ {ps : List (Nat × List α)} {lo : Nat}, Chain w lo hi ps →
    Chain (w ++ v) lo hi ps := by
  intro ps
  induction ps with
  | nil => intro lo h; exact h
  | cons p ps ih => intro lo h; exact ⟨h.1, h.2.1, h.2.2.1.grow v, ih h.2.2.2⟩

theorem Chain.snoc {w : List α} {hi : Nat} {xs : List α} (hx : xs ≠ []) (ha : At w hi xs) :
    ∀ {ps : List (Nat × List α)} {lo : Nat}, Chain w lo hi ps → Chain w lo (hi + xs.length) (ps ++ [(hi, xs)]) := by
  intro ps
  induction ps with
  | nil => intro lo h; cases h; exact ⟨rfl, hx, ha, rfl⟩
  | cons p ps ih => intro lo h; exact ⟨h.1, h.2.1, h.2.2.1, ih h.2.2.2⟩

/-- Only the pieces that reach past `a` are kept; the first of them may start before it. -/
theorem Chain.dropUpTo {w : List α} {hi a : Nat} : ∀ {ps : List (Nat × List α)} {lo : Nat}, Chain w lo hi ps →
    lo ≤ a → a ≤ hi → ∃ lo', lo' ≤ a ∧ Chain w lo' hi (ps.filter fun p => a < p.1 + p.2.length) := by
  intro ps
  induction ps with
  | nil => intro lo h hlo _; exact ⟨lo, hlo, h⟩
  | cons p ps ih =>
    intro lo h hlo hhi
    obtain ⟨h1, h2, h3, h4⟩ := h
    by_cases e : a < p.1 + p.2.length
    · -- the first piece reaches past `a`, and so does every later one
      refine ⟨lo, hlo, ?_⟩
      have hall : (p :: ps).filter (fun p => a < p.1 + p.2.length) = p :: ps := by
        refine List.filter_eq_self.mpr fun q hq => ?_
        rcases List.mem_cons.mp hq with rfl | hq
        · simpa using e
        · have := Chain.mem_at h4 q hq
          simp only [decide_eq_true_eq]
          omega
      rw [hall]
      exact ⟨h1, h2, h3, h4⟩
    · rw [List.filter_cons, if_neg (by simpa using e)]
      exact ih h4 (by omega) hhi

/-- The piece cut at `a`: nothing if it ends there, its part past `a` otherwise. -/
def cut (a : Nat) (p : Nat × List α) : Option (Nat × List α) :=
  if p.1 + p.2.length ≤ a then none else some (max a p.1, p.2.drop (max a p.1 - p.1))

theorem cut_id {a : Nat} {p : Nat × List α} (ha : a ≤ p.1) (hp : p.2 ≠ []) : cut a p = some p := by
  have : 0 < p.2.length := List.length_pos_iff.mpr hp
  unfold cut
  rw [if_neg (by omega), Nat.max_eq_right ha, Nat.sub_self, List.drop_zero]

theorem Chain.cut_id {w : List α} {hi a : Nat} : ∀ {ps : List (Nat × List α)} {lo : Nat}, Chain w lo hi ps →
    a ≤ lo → ps.filterMap (cut a) = ps := by
  intro ps
  induction ps with
  | nil => intro _ _ _; rfl
  | cons p ps ih =>
    intro lo h hlo
    rw [List.filterMap_cons, Segment.cut_id (by rw [h.1]; exact hlo) h.2.1, ih h.2.2.2 (by omega)]

/-- Cut at `a`, a chain from `lo ≤ a` is a chain from `a`. -/
theorem Chain.trim {w : List α} {hi a : Nat} : ∀ {ps : List (Nat × List α)} {lo : Nat}, Chain w lo hi ps →
    lo ≤ a → a ≤ hi → Chain w a hi (ps.filterMap (cut a)) := by
  intro ps
  induction ps with
  | nil => intro lo h _ _; simp only [Chain] at h ⊢; show a = hi; omega
  | cons p ps ih =>
    intro lo h hlo hhi
    obtain ⟨h1, h2, h3, h4⟩ := h
    rw [List.filterMap_cons]
    by_cases e : p.1 + p.2.length ≤ a
    · rw [cut, if_pos e]
      exact ih h4 (by omega) hhi
    · have hm : max a p.1 = a := by omega
      rw [cut, if_neg e, hm, h1]
      have hat := h3.drop (k := a - lo) (by omega)
      have hpos : lo + (a - lo) = a := by omega
      rw [hpos] at hat
      refine ⟨rfl, ?_, hat, ?_⟩
      · intro hnil
        have := congrArg List.length hnil
        simp only [List.length_drop, List.length_nil] at this
        omega
      · rw [List.length_drop, Chain.cut_id h4 (by omega)]
        have : a + (p.2.length - (a - lo)) = lo + p.2.length := by omega
        rw [this]
        exact h4

/-- The pieces of a chain put together are the stretch of `w` it covers. -/
theorem Chain.flatten {w : List α} {hi : Nat} : ∀ {ps : List (Nat × List α)} {lo : Nat}, Chain w lo hi ps →
    w.take lo ++ (ps.map (·.2)).flatten = w.take hi := by
  intro ps
  induction ps with
  | nil => intro lo h; cases h; simp
  | cons p ps ih =>
    intro lo h
    rw [List.map_cons, List.flatten_cons, ← List.append_assoc, h.2.2.1.take_append]
    exact ih h.2.2.2

theorem Chain.head {w : List α} {lo hi : Nat} {ps : List (Nat × List α)} (h : Chain w lo hi ps) :
    ∀ p ∈ ps.head?, p.1 = lo := by
  intro p hp
  cases ps with
  | nil => cases hp
  | cons q ps =>
    cases hp
    exact h.1

theorem Chain.last {w : List α} {hi : Nat} : ∀ {ps : List (Nat × List α)} {lo : Nat}, Chain w lo hi ps →
    ∀ p ∈ ps.getLast?, p.1 + p.2.length = hi := by
  intro ps
  induction ps with
  | nil => intro _ _ p hp; cases hp
  | cons q ps ih =>
    intro lo h p hp
    obtain ⟨h1, _, _, h4⟩ := h
    cases ps with
    | nil =>
      obtain rfl : q = p := Option.some.inj hp
      rw [h1]
      exact h4
    | cons r rs => exact ih h4 p (by rwa [List.getLast?_cons_cons] at hp)

/-- Each piece starts where the one before it ends. -/
theorem Chain.isChain {w : List α} {hi : Nat} : ∀ {ps : List (Nat × List α)} {lo : Nat}, Chain w lo hi ps →
    ps.IsChain fun p q => q.1 = p.1 + p.2.length := by
  intro ps
  induction ps with
  | nil => intro _ _; exact .nil
  | cons p ps ih =>
    intro lo h
    obtain ⟨h1, _, _, h4⟩ := h
    cases ps with
    | nil => exact .singleton p
    | cons q qs => exact .cons_cons (by rw [h4.1, h1]) (ih h4)

end Segment
