/-
  Turntf.Lib.Barrier — named barriers that all parties must reach.

  Each party goes through its own list of barriers: it reaches one, waits there, and leaves it
  when the barrier has been reached as many times as there are parties. A barrier that was
  reached stays reached.

  - `not_blocked`: parties with the same list never block each other. A party that waits and has
    come least far waits at a barrier that everyone has reached.
  - `crossed`: two parties that have two barriers in opposite orders never both get past them. Each
    would have to reach the second barrier before the other one leaves its first.
  - `eq_of_uncrossed`: lists of the same barriers without opposite orders are the same list.
-/

import Mathlib.Data.List.Basic
import Mathlib.Data.List.Nodup
import Turntf.Lib.Slots

namespace Barrier

variable {ν : Type}

structure Party (ν : Type) where
  /-- The barriers it has reached, in order. -/
  reached : List ν
  ahead : List ν
  /-- It waits at the barrier it reached last. -/
  waiting : Bool
  deriving DecidableEq

namespace Party

variable {p q : Party ν} {full full' : ν → Prop}

def start (order : List ν) : Party ν := ⟨[], order, false⟩

def order (p : Party ν) : List ν := p.reached ++ p.ahead

def Finished (p : Party ν) : Prop := p.ahead = [] ∧ p.waiting = false

/-- It reaches its next barrier, or it leaves one. -/
inductive Step (full : ν → Prop) : Party ν → Party ν → Prop
  | reach {l rest : List ν} {n : ν} : Step full ⟨l, n :: rest, false⟩ ⟨l ++ [n], rest, true⟩
  | leave {l rest : List ν} {n : ν} (h : full n) : Step full ⟨l ++ [n], rest, true⟩ ⟨l ++ [n], rest, false⟩

theorem Step.order_eq (h : p.Step full q) : q.order = p.order := by
  cases h with
  | reach => simp [order]
  | leave => rfl

theorem Step.reached_prefix (h : p.Step full q) : p.reached <+: q.reached := by
  cases h with
  | reach => exact List.prefix_append _ _
  | leave => exact List.prefix_rfl

/-- The barriers it has left were full, and if it waits it waits somewhere. -/
structure Left (full : ν → Prop) (p : Party ν) : Prop where
  left : ∀ n ∈ p.reached.dropLast, full n
  last : p.waiting = false → ∀ n ∈ p.reached, full n
  waits : p.waiting = true → p.reached ≠ []

theorem Left.mono (h : p.Left full) (hf : ∀ n, full n → full' n) : p.Left full' :=
  ⟨fun n hn => hf n (h.left n hn), fun hw n hn => hf n (h.last hw n hn), h.waits⟩

theorem Step.left (h : p.Step full q) (hp : p.Left full) : q.Left full := by
  cases h with
  | @reach l rest n =>
    refine ⟨fun m hm => ?_, Bool.noConfusion, fun _ => List.append_ne_nil_of_right_ne_nil _ (List.cons_ne_nil _ _)⟩
    rw [List.dropLast_concat] at hm
    exact hp.last rfl m hm
  | @leave l rest n hn =>
    refine ⟨hp.left, fun _ m hm => ?_, Bool.noConfusion⟩
    rcases List.mem_append.mp hm with hm | hm
    · exact hp.left m (by rw [List.dropLast_concat]; exact hm)
    · rw [List.mem_singleton.mp hm]
      exact hn

end Party

variable [DecidableEq ν] {orders : List (List ν)} {ps qs : List (Party ν)} {p q : Party ν} {i j : Nat} {n a b : ν}

/-- How many times a barrier was reached. -/
def hits (ps : List (Party ν)) (n : ν) : Nat :=
  match ps with
  | [] => 0
  | p :: ps => p.reached.count n + hits ps n

inductive Step : List (Party ν) → List (Party ν) → Prop
  | mk {ps : List (Party ν)} {i : Nat} {p q : Party ν} (hi : ps[i]? = some p)
      (h : p.Step (fun n => ps.length ≤ hits ps n) q) : Step ps (ps.set i q)

inductive Reach (orders : List (List ν)) : List (Party ν) → Prop
  | start : Reach orders (orders.map Party.start)
  | step {ps qs : List (Party ν)} : Reach orders ps → Step ps qs → Reach orders qs

/-! ## What a run keeps -/

theorem hits_start (orders : List (List ν)) (n : ν) : hits (orders.map Party.start) n = 0 := by
  induction orders with
  | nil => rfl
  | cons order orders ih => simpa [hits, Party.start] using ih

theorem hits_set (hi : ps[i]? = some p) (q : Party ν) (n : ν) :
    hits (ps.set i q) n + p.reached.count n = hits ps n + q.reached.count n := by
  induction ps generalizing i with
  | nil => simp at hi
  | cons r ps ih =>
    cases i with
    | zero =>
      cases hi
      simp only [hits, List.set_cons_zero]
      omega
    | succ i =>
      have := ih (i := i) (by simpa using hi)
      simp only [hits, List.set_cons_succ] at this ⊢
      omega

theorem hits_pos (hp : p ∈ ps) (hn : n ∈ p.reached) : 0 < hits ps n := by
  induction ps with
  | nil => exact absurd hp List.not_mem_nil
  | cons q ps ih =>
    rw [hits]
    rcases List.mem_cons.mp hp with rfl | hp
    · exact Nat.add_pos_left (List.count_pos_iff.mpr hn) _
    · exact Nat.add_pos_right _ (ih hp)

/-- A barrier that was reached stays reached. -/
theorem Step.hits_le (h : Step ps qs) (n : ν) : hits ps n ≤ hits qs n := by
  cases h with
  | @mk i p q hi hmove =>
    have hset := hits_set hi q n
    have hle := hmove.reached_prefix.sublist.count_le n
    omega

theorem Step.length_eq (h : Step ps qs) : qs.length = ps.length := by
  cases h with
  | mk hi hmove => exact List.length_set

theorem Reach.orders_eq (h : Reach orders ps) : ps.map Party.order = orders := by
  induction h with
  | start => simp [Function.comp_def, Party.order, Party.start]
  | step _ hs ih =>
    cases hs with
    | mk hi hmove => rw [← ih, Slots.map_set hi hmove.order_eq]

theorem Reach.left (h : Reach orders ps) : ∀ p ∈ ps, p.Left fun n => ps.length ≤ hits ps n := by
  induction h with
  | start =>
    intro p hp
    obtain ⟨l, -, rfl⟩ := List.mem_map.mp hp
    exact ⟨fun n hn => absurd hn List.not_mem_nil, fun _ n hn => absurd hn List.not_mem_nil, Bool.noConfusion⟩
  | @step ps qs _ hs ih =>
    intro p hp
    have hmono : ∀ n, ps.length ≤ hits ps n → qs.length ≤ hits qs n := by
      intro n hn
      rw [hs.length_eq]
      exact Nat.le_trans hn (hs.hits_le n)
    cases hs with
    | mk hi hmove =>
      rcases List.mem_or_eq_of_mem_set hp with hp | rfl
      · exact (ih p hp).mono hmono
      · exact (hmove.left (ih _ (List.mem_of_getElem? hi))).mono hmono

/-! ## The same order -/

/-- It waits at a barrier that is not full. -/
def Party.Blocked (ps : List (Party ν)) (p : Party ν) : Prop :=
  p.waiting = true ∧ ∀ n, p.reached.getLast? = some n → hits ps n < ps.length

/-- A barrier that everyone has reached is full. -/
theorem full_of_forall (h : ∀ p ∈ ps, n ∈ p.reached) : ps.length ≤ hits ps n := by
  induction ps with
  | nil => exact Nat.zero_le _
  | cons p ps ih =>
    obtain ⟨hp, hps⟩ := List.forall_mem_cons.mp h
    have hrest := ih hps
    have hcount := List.count_pos_iff.mpr hp
    simp only [hits, List.length_cons] at hrest ⊢
    omega

/-- Parties with the same list do not all block. -/
theorem not_blocked {order : List ν} (hr : Reach orders ps) (hsame : ∀ l ∈ orders, l = order)
    (hall : ∀ p ∈ ps, p.Finished ∨ p.Blocked ps) : ∀ p ∈ ps, p.Finished := by
  have hmem : ∀ p ∈ ps, p.order = order := by
    intro p hp
    refine hsame _ ?_
    rw [← hr.orders_eq]
    exact List.mem_map_of_mem hp
  have hfront : ∀ p ∈ ps, p.reached <+: order := by
    intro p hp
    rw [← hmem p hp]
    exact List.prefix_append _ _
  intro p hp
  -- by induction on how far `p` has come: those that are less far are not blocked
  induction hk : p.reached.length using Nat.strongRecOn generalizing p with
  | ind k ih =>
    by_contra hnot
    obtain ⟨hw, hlow⟩ := (hall p hp).resolve_left hnot
    have hne := (hr.left p hp).waits hw
    refine absurd (hlow _ (List.getLast?_eq_some_getLast hne)) (Nat.not_lt.mpr (full_of_forall fun q hq => ?_))
    have hfar : p.reached.length ≤ q.reached.length := by
      by_contra hlt
      have hf := ih q.reached.length (by omega) q hq rfl
      have hdone : q.reached = order := by rw [← hmem q hq, Party.order, hf.1, List.append_nil]
      have := (hfront p hp).length_le
      rw [hdone] at hlt
      omega
    exact (List.prefix_of_prefix_length_le (hfront p hp) (hfront q hq) hfar).subset (List.getLast_mem hne)

/-! ## Opposite orders -/

section

omit [DecidableEq ν]

variable {l l' : List ν}

theorem pair_sublist_cons : [a, b].Sublist (n :: l) ↔ [a, b].Sublist l ∨ a = n ∧ b ∈ l := by
  rw [List.cons_sublist_cons', List.singleton_sublist]

theorem not_both_orders (hl : l.Nodup) (hab : [a, b].Sublist l) : ¬ [b, a].Sublist l := by
  induction l with
  | nil => simp at hab
  | cons n l ih =>
    obtain ⟨hn, hl⟩ := List.nodup_cons.mp hl
    intro hba
    rcases pair_sublist_cons.mp hab with h | ⟨rfl, h⟩ <;> rcases pair_sublist_cons.mp hba with h' | ⟨rfl, h'⟩
    · exact ih hl h h'
    · exact hn (h.subset (List.mem_cons_of_mem _ List.mem_cons_self))
    · exact hn (h'.subset (List.mem_cons_of_mem _ List.mem_cons_self))
    · exact hn h

/-- What stands before a barrier that was reached is not the last that was reached. -/
theorem mem_dropLast_of_before (hl : (l ++ l').Nodup) (hab : [a, b].Sublist (l ++ l')) (hb : b ∈ l) : a ∈ l.dropLast := by
  induction l with
  | nil => exact absurd hb List.not_mem_nil
  | cons n l ih =>
    obtain ⟨hn, hl⟩ := List.nodup_cons.mp hl
    rcases List.mem_cons.mp hb with rfl | hb
    · rcases pair_sublist_cons.mp hab with h | ⟨rfl, h⟩
      · exact absurd (h.subset (List.mem_cons_of_mem _ List.mem_cons_self)) hn
      · exact absurd h hn
    · have hne : l ≠ [] := List.ne_nil_of_mem hb
      rw [List.dropLast_cons_of_ne_nil hne]
      rcases pair_sublist_cons.mp hab with h | ⟨rfl, -⟩
      · exact List.mem_cons_of_mem _ (ih hl h hb)
      · exact List.mem_cons_self

theorem eq_of_uncrossed (hl : l.Nodup) (hl' : l'.Nodup) (hmem : ∀ n, n ∈ l ↔ n ∈ l')
    (hun : ∀ a b, [a, b].Sublist l → ¬ [b, a].Sublist l') : l = l' := by
  induction l generalizing l' with
  | nil =>
    cases l' with
    | nil => rfl
    | cons n l' => exact absurd ((hmem n).mpr List.mem_cons_self) List.not_mem_nil
  | cons a l ih =>
    cases l' with
    | nil => exact absurd ((hmem a).mp List.mem_cons_self) List.not_mem_nil
    | cons b l' =>
      obtain ⟨ha, htl⟩ := List.nodup_cons.mp hl
      obtain ⟨hb, htl'⟩ := List.nodup_cons.mp hl'
      have hab : a = b := by
        by_contra hne
        have hbl : b ∈ l := ((List.mem_cons.mp ((hmem b).mpr List.mem_cons_self)).resolve_left (Ne.symm hne))
        have hal : a ∈ l' := ((List.mem_cons.mp ((hmem a).mp List.mem_cons_self)).resolve_left hne)
        exact hun a b (pair_sublist_cons.mpr (.inr ⟨rfl, hbl⟩)) (pair_sublist_cons.mpr (.inr ⟨rfl, hal⟩))
      subst hab
      refine congrArg (a :: ·) (ih htl htl' ?_ fun x y h h' => hun x y (h.cons a) (h'.cons a))
      intro n
      constructor
      · intro h
        refine (List.mem_cons.mp ((hmem n).mp (List.mem_cons_of_mem _ h))).resolve_left ?_
        rintro rfl
        exact ha h
      · intro h
        refine (List.mem_cons.mp ((hmem n).mpr (List.mem_cons_of_mem _ h))).resolve_left ?_
        rintro rfl
        exact hb h

end

/-- A full barrier was reached by everyone, if nobody reaches it twice. -/
theorem forall_of_full (hnd : ∀ p ∈ ps, p.reached.Nodup) (h : ps.length ≤ hits ps n) :
    hits ps n = ps.length ∧ ∀ p ∈ ps, n ∈ p.reached := by
  have hle : ∀ {ps : List (Party ν)}, (∀ p ∈ ps, p.reached.Nodup) → hits ps n ≤ ps.length := by
    intro ps hnd
    induction ps with
    | nil => exact Nat.le_refl _
    | cons p ps ih =>
      obtain ⟨hp, hps⟩ := List.forall_mem_cons.mp hnd
      have hrest := ih hps
      have hcount := List.nodup_iff_count_le_one.mp hp n
      simp only [hits, List.length_cons] at hrest ⊢
      omega
  refine ⟨Nat.le_antisymm (hle hnd) h, ?_⟩
  induction ps with
  | nil => exact fun p hp => absurd hp List.not_mem_nil
  | cons p ps ih =>
    obtain ⟨hp, hps⟩ := List.forall_mem_cons.mp hnd
    have hrest := hle hps
    have hcount := List.nodup_iff_count_le_one.mp hp n
    simp only [hits, List.length_cons] at h hrest
    exact List.forall_mem_cons.mpr ⟨List.count_pos_iff.mp (by omega), ih hps (by omega)⟩

/-- Neither party reaches the barrier that it has second. -/
theorem crossed (hr : Reach orders ps) (hnd : ∀ l ∈ orders, l.Nodup) (hi : ps[i]? = some p) (hj : ps[j]? = some q)
    (hp : [a, b].Sublist p.order) (hq : [b, a].Sublist q.order) : b ∉ p.reached ∧ a ∉ q.reached := by
  induction hr generalizing p q with
  | start =>
    obtain ⟨l, -, rfl⟩ := List.mem_map.mp (List.mem_of_getElem? hi)
    obtain ⟨l', -, rfl⟩ := List.mem_map.mp (List.mem_of_getElem? hj)
    exact ⟨List.not_mem_nil, List.not_mem_nil⟩
  | @step ps qs hr hs ih =>
    have hr' : Reach orders qs := .step hr hs
    have horder : ∀ r ∈ qs, r.order.Nodup := fun r hr => hnd _ (by rw [← hr'.orders_eq]; exact List.mem_map_of_mem hr)
    have hreached : ∀ r ∈ qs, r.reached.Nodup := fun r hr => (horder r hr).of_append_left
    have hpq := List.mem_of_getElem? hi
    have hqq := List.mem_of_getElem? hj
    -- who reached its second barrier left its first one, which then was full
    have hboth : b ∈ p.reached ↔ a ∈ q.reached := by
      constructor
      · intro h
        have hfull := (hr'.left p hpq).left a (mem_dropLast_of_before (horder p hpq) hp h)
        exact (forall_of_full hreached hfull).2 q hqq
      · intro h
        have hfull := (hr'.left q hqq).left b (mem_dropLast_of_before (horder q hqq) hq h)
        exact (forall_of_full hreached hfull).2 p hpq
    have hne : i ≠ j := by
      rintro rfl
      rw [hi] at hj
      cases hj
      exact not_both_orders (horder p hpq) hp hq
    cases hs with
    | @mk k r r' hk hmove =>
      -- one of the two did not move
      by_cases hki : k = i
      · subst hki
        rw [List.getElem?_set_ne hne] at hj
        rw [List.getElem?_set_self (List.getElem?_eq_some_iff.mp hk).1, Option.some.injEq] at hi
        subst hi
        have hold := ih hk hj (hmove.order_eq ▸ hp) hq
        exact ⟨fun h => hold.2 (hboth.mp h), hold.2⟩
      · rw [List.getElem?_set_ne hki] at hi
        rcases Slots.get_set hj with ⟨rfl, rfl⟩ | ⟨-, hj⟩
        · have hold := ih hi hk hp (hmove.order_eq ▸ hq)
          exact ⟨hold.1, fun h => hold.1 (hboth.mpr h)⟩
        · exact ih hi hj hp hq

end Barrier
