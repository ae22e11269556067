/-
  Turntf.Lib.Locks — mutual exclusion and waiting among the holders of locks.

  A holder is anything that holds a list of locks at a moment, such as a call at a
  position of its code. `Exclusive holds xs`: no lock is held twice among `xs`.

  - `Exclusive.replace`: a holder that goes on, taking at most one lock that was free and
    dropping any, keeps the exclusion.
  - `Exclusive.elsewhere`, `Exclusive.once`: what one holder holds, no other does, and the
    holder itself only once.
  - `Exclusive.set`, `Exclusive.apart`: the same for the holder at an index.
  - `Guarded`: locks whose state is kept beside the holders. `Guarded.set`: a holder that goes
    on keeps the guard if it enters only what is not busy.
  - `no_circular_wait`: where every waiting thread waits for a lock above all the locks it
    holds, no set of threads waits only for one another.
-/

import Mathlib.Data.List.Count
import Mathlib.Data.Finset.Max
import Mathlib.Data.Finset.Image
import Turntf.Lib.Slots

namespace Locks

section Exclusion

variable {X K : Type} [DecidableEq K] (holds : X → List K)

def Exclusive (xs : List X) : Prop := ∀ k, (xs.flatMap holds).count k ≤ 1

variable {holds} {L R new : List X} {x y : X} {k : K}

/-- A holder goes on as `new`, having taken at most the lock `w`, which was free. -/
theorem Exclusive.replace (w : Option K) (h : Exclusive holds (L ++ x :: R))
    (hw : ∀ k, w = some k → k ∉ (L ++ x :: R).flatMap holds)
    (hn : ∀ k, (new.flatMap holds).count k ≤ (w.toList ++ holds x).count k) : Exclusive holds (L ++ new ++ R) := by
  intro k
  have hk := h k
  have hnk := hn k
  simp only [List.flatMap_append, List.flatMap_cons, List.count_append] at hk hnk ⊢
  by_cases e : w = some k
  · have hfree := List.count_eq_zero.mpr (hw k e)
    have hw1 : w.toList.count k = 1 := by simp [e]
    simp only [List.flatMap_append, List.flatMap_cons, List.count_append] at hfree
    omega
  · have hw0 : w.toList.count k = 0 := List.count_eq_zero.mpr (by simp [e])
    omega

/-- Holders that come with nothing in hand. -/
theorem Exclusive.add (h : Exclusive holds L) (hn : new.flatMap holds = []) : Exclusive holds (L ++ new) := by
  intro k
  rw [List.flatMap_append, hn, List.append_nil]
  exact h k

theorem Exclusive.elsewhere (h : Exclusive holds (L ++ x :: R)) (hk : k ∈ holds x) (hy : y ∈ L ++ R) :
    k ∉ holds y := by
  intro hky
  have hc := h k
  have hx : 1 ≤ (holds x).count k := List.one_le_count_iff.mpr hk
  have hy' : 1 ≤ ((L ++ R).flatMap holds).count k :=
    List.one_le_count_iff.mpr (List.mem_flatMap.mpr ⟨y, hy, hky⟩)
  simp only [List.flatMap_append, List.flatMap_cons, List.count_append] at hc hy'
  omega

/-- A list around the element at an index. -/
theorem split_at {xs : List X} {i : Nat} (h : xs[i]? = some x) :
    xs = xs.take i ++ x :: xs.drop (i + 1) ∧ ∀ y, xs.set i y = xs.take i ++ y :: xs.drop (i + 1) := by
  obtain ⟨hi, rfl⟩ := List.getElem?_eq_some_iff.mp h
  refine ⟨?_, fun y => ?_⟩
  · rw [← List.drop_eq_getElem_cons hi, List.take_append_drop]
  · rw [List.set_eq_take_append_cons_drop, if_pos hi]

theorem Exclusive.set {xs : List X} {i : Nat} (h : Exclusive holds xs) (hx : xs[i]? = some x) (w : Option K)
    (hw : ∀ k, w = some k → k ∉ xs.flatMap holds) (hn : ∀ k, (holds y).count k ≤ (w.toList ++ holds x).count k) :
    Exclusive holds (xs.set i y) := by
  obtain ⟨hs, hset⟩ := split_at hx
  rw [hs] at h hw
  rw [hset]
  have hy : ∀ k, ([y].flatMap holds).count k ≤ (w.toList ++ holds x).count k := by
    intro k
    rw [List.flatMap_singleton]
    exact hn k
  have := h.replace w hw hy
  rwa [List.append_assoc] at this

theorem Exclusive.apart {xs : List X} {i j : Nat} (h : Exclusive holds xs) (hx : xs[i]? = some x) (hy : xs[j]? = some y)
    (hne : j ≠ i) (hk : k ∈ holds x) : k ∉ holds y := by
  obtain ⟨hs, hset⟩ := split_at hx
  rw [hs] at h
  refine h.elsewhere hk ?_
  have hj : (xs.set i x)[j]? = some y := by rw [List.getElem?_set_ne (Ne.symm hne), hy]
  rw [hset] at hj
  by_cases hlt : j < i
  · have hi : i < xs.length := (List.getElem?_eq_some_iff.mp hx).1
    rw [List.getElem?_append_left (by rw [List.length_take]; omega)] at hj
    exact List.mem_append_left _ (List.mem_of_getElem? hj)
  · have hi : i < xs.length := (List.getElem?_eq_some_iff.mp hx).1
    have hlen : (xs.take i).length = i := by rw [List.length_take]; omega
    rw [List.getElem?_append_right (by omega), hlen, show j - i = (j - i - 1) + 1 by omega, List.getElem?_cons_succ] at hj
    exact List.mem_append_right _ (List.mem_of_getElem? hj)

/-- No holder holds a lock twice. -/
theorem Exclusive.once {xs : List X} {ks : List K} (h : Exclusive holds xs) (hx : x ∈ xs) (hk : holds x = k :: ks) :
    k ∉ ks := by
  intro hmem
  obtain ⟨L, R, rfl⟩ := List.append_of_mem hx
  have hone := h k
  have htwo : 1 ≤ ks.count k := List.one_le_count_iff.mpr hmem
  simp only [List.flatMap_append, List.flatMap_cons, List.count_append, hk, List.count_cons_self] at hone
  omega

/-- A lock is busy as long as a holder is inside. -/
structure Guarded (inside : X → List K) (busy : K → Prop) (xs : List X) : Prop where
  exclusive : Exclusive inside xs
  held : ∀ x ∈ xs, ∀ k ∈ inside x, busy k

variable {busy busy' : K → Prop}

/-- The holder at `i` goes on, having entered at most `w`, which was not busy. Of what was busy,
    only that stops being so in which this holder was. -/
theorem Guarded.set {xs : List X} {i : Nat} (h : Guarded holds busy xs) (hx : xs[i]? = some x) (w : Option K)
    (hw : ∀ k, w = some k → ¬ busy k) (hn : (holds y).Sublist (w.toList ++ holds x)) (hy : ∀ k ∈ holds y, busy' k)
    (hb : ∀ k, busy k → k ∉ holds x → busy' k) : Guarded holds busy' (xs.set i y) := by
  refine ⟨h.exclusive.set hx w (fun k hk hmem => ?_) fun k => hn.count_le k, fun z hz k hk => ?_⟩
  · obtain ⟨x', hx', hk'⟩ := List.mem_flatMap.mp hmem
    exact hw k hk (h.held x' hx' k hk')
  · obtain ⟨j, hj⟩ := List.mem_iff_getElem?.mp hz
    rcases Slots.get_set hj with ⟨-, rfl⟩ | ⟨hne, hj⟩
    · exact hy k hk
    · refine hb k (h.held z (List.mem_of_getElem? hj) k hk) fun hxk => ?_
      exact h.exclusive.apart hx hj hne hxk hk

theorem Guarded.add {xs : List X} (h : Guarded holds busy xs) (hn : holds y = []) : Guarded holds busy (xs ++ [y]) := by
  refine ⟨h.exclusive.add (by simp [hn]), fun z hz k hk => ?_⟩
  rcases List.mem_append.mp hz with hz | hz
  · exact h.held z hz k hk
  · rw [List.mem_singleton.mp hz, hn] at hk
    cases hk

end Exclusion

section Waiting

variable {T K : Type}

/-- Each thread of a set waits for a lock that another thread of the set holds. -/
def CircularWait (waits holds : T → K → Prop) (ts : Finset T) : Prop :=
  ts.Nonempty ∧ ∀ t ∈ ts, ∃ k, waits t k ∧ ∃ u ∈ ts, u ≠ t ∧ holds u k

/-- With the locks ranked so that a thread waits only above what it holds, the thread that
    waits for the highest lock would wait for one that waits higher still. -/
theorem no_circular_wait {waits holds : T → K → Prop} {ts : Finset T} (rank : K → Nat)
    (hrank : ∀ t ∈ ts, ∀ k k', waits t k → holds t k' → rank k' < rank k) : ¬ CircularWait waits holds ts := by
  rintro ⟨hne, hall⟩
  have : Nonempty K := let ⟨t, ht⟩ := hne; let ⟨k, _⟩ := hall t ht; ⟨k⟩
  choose! lock hlock using hall
  obtain ⟨t, ht, hmax⟩ := ts.exists_max_image (fun t => rank (lock t)) hne
  obtain ⟨hwait, u, hu, _, hheld⟩ := hlock t ht
  have hlt := hrank u hu (lock u) (lock t) (hlock u hu).1 hheld
  have hle := hmax u hu
  omega

end Waiting

end Locks
