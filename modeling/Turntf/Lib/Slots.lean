/-
  Turntf.Lib.Slots — a list of parties that are known by their positions: calls, connections,
  threads.

  A step replaces the party at one position or adds one at the end. `get_set` and `get_snoc` say
  where the party at a position after it comes from, `set_get` and `snoc_get` what has become of
  the one that stood there; `map_set` is for what the two have in common.
-/

namespace Slots

variable {α : Type} {xs : List α} {i j : Nat} {x y : α}

theorem get_set (h : (xs.set i x)[j]? = some y) : j = i ∧ y = x ∨ j ≠ i ∧ xs[j]? = some y := by
  by_cases he : i = j
  · subst he
    have hlt := (List.getElem?_eq_some_iff.mp h).1
    rw [List.getElem?_set_self (by simpa using hlt), Option.some.injEq] at h
    exact .inl ⟨rfl, h.symm⟩
  · rw [List.getElem?_set_ne he] at h
    exact .inr ⟨Ne.symm he, h⟩

theorem get_snoc (h : (xs ++ [x])[j]? = some y) : xs[j]? = some y ∨ j = xs.length ∧ y = x := by
  by_cases hlt : j < xs.length
  · exact .inl (by rwa [List.getElem?_append_left hlt] at h)
  · have hle := (List.getElem?_eq_some_iff.mp h).1
    rw [List.length_append, List.length_singleton] at hle
    obtain rfl : j = xs.length := by omega
    rw [List.getElem?_concat_length, Option.some.injEq] at h
    exact .inr ⟨rfl, h.symm⟩

theorem set_get (i : Nat) (x : α) (h : xs[j]? = some y) :
    j = i ∧ (xs.set i x)[j]? = some x ∨ j ≠ i ∧ (xs.set i x)[j]? = some y := by
  by_cases he : i = j
  · subst he
    exact .inl ⟨rfl, List.getElem?_set_self (List.getElem?_eq_some_iff.mp h).1⟩
  · exact .inr ⟨Ne.symm he, by rw [List.getElem?_set_ne he, h]⟩

theorem snoc_get (h : xs[j]? = some y) : (xs ++ [x])[j]? = some y := by
  rw [List.getElem?_append_left (List.getElem?_eq_some_iff.mp h).1, h]

/-- What the new party has in common with the old one is as it was. -/
theorem map_set {β : Type} {f : α → β} (h : xs[i]? = some x) (hf : f y = f x) : (xs.set i y).map f = xs.map f := by
  obtain ⟨hlt, hx⟩ := List.getElem?_eq_some_iff.mp h
  rw [List.map_set, hf, ← hx, ← List.getElem_map f (h := by rwa [List.length_map])]
  exact List.set_getElem_self _

end Slots
