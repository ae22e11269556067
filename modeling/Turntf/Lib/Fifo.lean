/-
  Turntf.Lib.Fifo — a duplex channel: two first-in first-out queues, one to each end.

  `step` is the channel as a machine of its own: an end puts items in, behind what is already
  on its way, and takes items out, which have to be the first that are. It has no other state,
  loses nothing and orders everything.

  A system of two ends implements the channel when what its ends have put in and taken out so
  far, its `History`, makes a run of that machine:

  - `visible` reads the events off a run of the system, from how the histories grow;
  - `refines`: where histories only grow and every end has taken a first part of what the other
    put in, the events of every run are a run of the channel, and the channel then holds what
    is put in and not yet taken.
-/

import Turntf.Lib.Ends

namespace Fifo

open Lts Ends

inductive Event (α : Type) where
  | put (x : Side) (items : List α)
  | got (x : Side) (items : List α)
  deriving DecidableEq

/-- At `x`, what is on its way to the end `x`. -/
abbrev Queues (α : Type) := Side → List α

variable {α : Type} [DecidableEq α]

def step (q : Queues α) : Event α → Option (Queues α)
  | .put x items => some fun y => if y = x.peer then q y ++ items else q y
  | .got x items => if items <+: q x then some fun y => if y = x then (q y).drop items.length else q y else none

/-- What one end put in and took out so far. -/
structure History (α : Type) where
  put : List α
  got : List α

def onTheWay (h : Side → History α) : Queues α := fun x => (h x.peer).put.drop (h x).got.length

/-- Every end took a first part of what the other put in. -/
def Sound (h : Side → History α) : Prop := ∀ x, (h x).got <+: (h x.peer).put

structure Grows (h h' : Side → History α) : Prop where
  put : ∀ x, (h x).put <+: (h' x).put
  got : ∀ x, (h x).got <+: (h' x).got

/-! ## One step of the system -/

def Event.items : Event α → List α
  | .put _ items => items
  | .got _ items => items

/-- What happened between two histories, the items put in before those taken out. -/
def news (h h' : Side → History α) : List (Event α) :=
  ([.a, .b].map (fun x => Event.put x ((h' x).put.drop (h x).put.length)) ++
    [.a, .b].map (fun x => Event.got x ((h' x).got.drop (h x).got.length))).filter fun e => !e.items.isEmpty

/-- An event without items leaves the channel as it is. -/
theorem step_empty (q : Queues α) {e : Event α} (h : e.items = []) : step q e = some q := by
  cases e with
  | put x items =>
    replace h : items = [] := h
    subst h
    refine congrArg some (funext fun y => ?_)
    split
    · exact List.append_nil _
    · rfl
  | got x items =>
    replace h : items = [] := h
    subst h
    rw [step, if_pos List.nil_prefix]
    refine congrArg some (funext fun y => ?_)
    split <;> rfl

theorem exec_filter (q : Queues α) (es : List (Event α)) :
    exec step q (es.filter fun e => !e.items.isEmpty) = exec step q es := by
  induction es generalizing q with
  | nil => rfl
  | cons e es ih =>
    by_cases he : e.items = []
    · rw [List.filter_cons_of_neg (by simp [he]), ih]
      show _ = (step q e).bind _
      rw [step_empty q he]
      rfl
    · rw [List.filter_cons_of_pos (by simp [he])]
      show (step q e).bind _ = (step q e).bind _
      exact congrArg _ (funext fun q' => ih q')

def setPut (h : Side → History α) (x : Side) (l : List α) : Side → History α :=
  fun y => if y = x then { h y with put := l } else h y

def setGot (h : Side → History α) (x : Side) (l : List α) : Side → History α :=
  fun y => if y = x then { h y with got := l } else h y

theorem step_put {h : Side → History α} (hs : Sound h) (x : Side) {l : List α} (hl : (h x).put <+: l) :
    step (onTheWay h) (.put x (l.drop (h x).put.length)) = some (onTheWay (setPut h x l)) := by
  refine congrArg some (funext fun y => ?_)
  by_cases hy : y = x.peer
  · subst hy
    have hlen := (hs x.peer).length_le
    rw [Side.peer_peer] at hlen
    obtain ⟨t, rfl⟩ := hl
    simp [onTheWay, setPut, List.drop_append_of_le_length hlen]
  · have hyx : y = x := by simpa using Side.eq_peer_of_ne hy
    subst hyx
    simp [onTheWay, setPut]

theorem step_got {h : Side → History α} (x : Side) {l : List α} (hl : (h x).got <+: l) (hp : l <+: (h x.peer).put) :
    step (onTheWay h) (.got x (l.drop (h x).got.length)) = some (onTheWay (setGot h x l)) := by
  obtain ⟨new, rfl⟩ := hl
  obtain ⟨rest, hrest⟩ := hp
  rw [List.drop_left]
  have hfirst : new <+: onTheWay h x := by
    rw [onTheWay, ← hrest, List.append_assoc, List.drop_left]
    exact List.prefix_append _ _
  refine (if_pos hfirst).trans (congrArg some (funext fun y => ?_))
  by_cases hy : y = x
  · subst hy
    simp [onTheWay, setGot, List.drop_drop]
  · have hyx : y = x.peer := Side.eq_peer_of_ne hy
    subst hyx
    simp [onTheWay, setGot]

/-- The events of one step take the channel from what was on its way before it to what is after. -/
theorem exec_news {h h' : Side → History α} (hs : Sound h) (hs' : Sound h') (hg : Grows h h') :
    exec step (onTheWay h) (news h h') = some (onTheWay h') := by
  let h₁ := setPut h .a (h' .a).put
  let h₂ := setPut h₁ .b (h' .b).put
  let h₃ := setGot h₂ .a (h' .a).got
  have hend : setGot h₃ .b (h' .b).got = h' := by
    funext y
    cases y <;> rfl
  -- what is put in first keeps every end within what the other put in
  have hs₁ : Sound h₁ := fun x => by
    cases x with
    | a => exact hs .a
    | b => exact (hs .b).trans (hg.put .a)
  have e₁ : step (onTheWay h) (.put .a ((h' .a).put.drop (h .a).put.length)) = some (onTheWay h₁) :=
    step_put hs .a (hg.put .a)
  have e₂ : step (onTheWay h₁) (.put .b ((h' .b).put.drop (h .b).put.length)) = some (onTheWay h₂) :=
    step_put hs₁ .b (hg.put .b)
  have e₃ : step (onTheWay h₂) (.got .a ((h' .a).got.drop (h .a).got.length)) = some (onTheWay h₃) :=
    step_got .a (hg.got .a) (hs' .a)
  have e₄ : step (onTheWay h₃) (.got .b ((h' .b).got.drop (h .b).got.length)) = some (onTheWay h') := by
    have := step_got (h := h₃) .b (hg.got .b) (hs' .b)
    rwa [hend] at this
  rw [news, exec_filter]
  simp only [List.map_cons, List.map_nil, List.cons_append, List.nil_append, exec, e₁, e₂, e₃, e₄, Option.bind_some]

/-! ## Whole runs -/

section

variable {S A : Type}

/-- The events of a run that ends in `t`. -/
def visible (hist : S → Side → History α) : List (S × A) → S → List (Event α)
  | [], _ => []
  | [e], t => news (hist e.1) (hist t)
  | e :: e' :: tr, t => news (hist e.1) (hist e'.1) ++ visible hist (e' :: tr) t

omit [DecidableEq α] in
theorem visible_snoc (hist : S → Side → History α) (tr : List (S × A)) (e : S × A) (t : S) :
    visible hist (tr ++ [e]) t = visible hist tr e.1 ++ news (hist e.1) (hist t) := by
  induction tr with
  | nil => rfl
  | cons d tr ih =>
    cases tr with
    | nil => rfl
    | cons d' tr =>
      show news _ _ ++ visible hist (d' :: tr ++ [e]) t = (news _ _ ++ visible hist (d' :: tr) e.1) ++ _
      rw [ih, List.append_assoc]

/-- A system of two ends whose histories start empty, only grow and stay sound implements the
    channel. `G` is a bound on the runs spoken of, which an earlier state meets too. -/
theorem refines {next : S → A → Option S} {ok : S → A → Prop} {I G : S → Prop} {hist : S → Side → History α}
    (h0 : ∀ s, I s → ∀ x, hist s x = ⟨[], []⟩)
    (grows : ∀ s a t, Reach next ok I s → next s a = some t → Grows (hist s) (hist t))
    (back : ∀ s a t, next s a = some t → G t → G s)
    (sound : ∀ s, Reach next ok I s → G s → Sound (hist s))
    {tr : List (S × A)} {s : S} (h : Trace next ok I tr s) (hG : G s) :
    exec step (fun _ => []) (visible hist tr s) = some (onTheWay (hist s)) := by
  refine h.keeps (P := fun tr s => G s → exec step (fun _ => []) (visible hist tr s) = some (onTheWay (hist s)))
    ?_ ?_ hG
  · intro s hi _
    refine congrArg some (funext fun x => ?_)
    rw [onTheWay, h0 s hi, h0 s hi]
    rfl
  · intro tr s a t htr ih hok hst ht
    have hs := back s a t hst ht
    rw [visible_snoc, exec_append, ih hs]
    exact exec_news (sound s htr.reach hs) (sound t (.step a htr.reach hok hst) ht) (grows s a t htr.reach hst)

end

end Fifo
