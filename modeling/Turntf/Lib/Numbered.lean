/-
  Turntf.Lib.Numbered — the messages of a growing stream, numbered from 1.

  `At w s d`: message number `s` of the stream `w` is `d`. A message keeps its number as the
  stream grows (`At.mono`).

  `Run n l`: the numbers in `l` are `n`, `n + 1`, … without a gap. A list of messages of `w`
  that is a run from 1 is the beginning of `w` (`Run.take_eq`), whatever way it was put
  together (`run_append`).
-/

namespace Numbered

variable {α : Type}

/-! ## Numbers in a stream -/

def At (w : List α) (s : Nat) (d : α) : Prop := 1 ≤ s ∧ w[s - 1]? = some d

theorem At.le_length {w : List α} {s : Nat} {d : α} (h : At w s d) : s ≤ w.length := by
  have := (List.getElem?_eq_some_iff.mp h.2).1
  have := h.1
  omega

theorem At.mono {w v : List α} {s : Nat} {d : α} (h : At w s d) (hp : w <+: v) : At v s d := by
  obtain ⟨r, rfl⟩ := hp
  have := h.le_length
  have := h.1
  exact ⟨h.1, by rw [List.getElem?_append_left (by omega)]; exact h.2⟩

theorem at_snoc {w : List α} {s : Nat} {d e : α} : At (w ++ [e]) s d ↔ At w s d ∨ s = w.length + 1 ∧ d = e := by
  constructor
  · intro h
    have hle := h.le_length
    rw [List.length_append, List.length_singleton] at hle
    by_cases hs : s = w.length + 1
    · have h2 := h.2
      rw [hs, Nat.add_sub_cancel, List.getElem?_concat_length] at h2
      exact .inr ⟨hs, (Option.some.inj h2).symm⟩
    · have h1 := h.1
      exact .inl ⟨h1, by rw [← h.2, List.getElem?_append_left (by omega)]⟩
  · rintro (h | ⟨rfl, rfl⟩)
    · exact h.mono (List.prefix_append _ _)
    · exact ⟨by omega, by simp⟩

theorem exists_at {w : List α} {s : Nat} (h1 : 1 ≤ s) (h : s ≤ w.length) : ∃ d, At w s d :=
  ⟨_, h1, List.getElem?_eq_getElem (by omega)⟩

/-! ## Runs of numbers -/

/-- The numbers in `l` follow each other from `n` on. -/
def Run : Nat → List (Nat × α) → Prop
  | _, [] => True
  | n, p :: l => p.1 = n ∧ Run (n + 1) l

theorem run_append {l r : List (Nat × α)} {n : Nat} : Run n (l ++ r) ↔ Run n l ∧ Run (n + l.length) r := by
  induction l generalizing n with
  | nil => simp [Run]
  | cons p l ih =>
    have he : n + 1 + l.length = n + (l.length + 1) := by omega
    simp only [List.cons_append, Run, ih, List.length_cons, and_assoc, he]

theorem Run.mem {l : List (Nat × α)} {n s : Nat} (h : Run n l) (hn : n ≤ s) (hs : s < n + l.length) :
    ∃ d, (s, d) ∈ l := by
  induction l generalizing n with
  | nil =>
    rw [List.length_nil] at hs
    omega
  | cons p l ih =>
    by_cases e : s = n
    · exact ⟨p.2, by rw [e, ← h.1]; exact List.mem_cons_self⟩
    · rw [List.length_cons] at hs
      obtain ⟨d, hd⟩ := ih h.2 (by omega) (by omega)
      exact ⟨d, List.mem_cons_of_mem _ hd⟩

theorem Run.lt {l : List (Nat × α)} {n : Nat} (h : Run n l) : ∀ p ∈ l, n ≤ p.1 ∧ p.1 < n + l.length := by
  induction l generalizing n with
  | nil => nofun
  | cons q l ih =>
    intro p hp
    rw [List.length_cons]
    rcases List.mem_cons.mp hp with rfl | hp
    · have := h.1
      omega
    · have := ih h.2 p hp
      omega

theorem Run.drop_eq {w : List α} {l : List (Nat × α)} {n : Nat} (h : Run n l) (hw : ∀ p ∈ l, At w p.1 p.2) :
    l.map Prod.snd = (w.drop (n - 1)).take l.length := by
  induction l generalizing n with
  | nil => simp
  | cons p l ih =>
    obtain ⟨h1, h2⟩ := hw p List.mem_cons_self
    rw [h.1] at h1 h2
    obtain ⟨hlt, hget⟩ := List.getElem?_eq_some_iff.mp h2
    have htail := ih h.2 fun q hq => hw q (List.mem_cons_of_mem _ hq)
    have hn : n + 1 - 1 = n - 1 + 1 := by omega
    rw [List.map_cons, htail, List.drop_eq_getElem_cons hlt, List.length_cons, List.take_succ_cons, hget, hn]

/-- Messages of a stream, numbered from 1 without a gap, are its beginning. -/
theorem Run.take_eq {w : List α} {l : List (Nat × α)} (h : Run 1 l) (hw : ∀ p ∈ l, At w p.1 p.2) :
    l.map Prod.snd = w.take l.length := h.drop_eq hw

end Numbered
