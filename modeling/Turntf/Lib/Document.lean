/-
  Turntf.Lib.Document — trees of lists and of objects with keys.

  The leaves and the keys are of any type. An object lists its fields in some order; `put` stores a
  field and replaces the one that has the key, as a map does.

  `Within R e d`: `e` is what is left of `d` when fields of its objects are dropped and each leaf
  is replaced by one that `R` relates to it. `Changed C e e'`: one leaf of `e` is replaced, the rest
  stays.

  - `put_keys`, `all_put`: storing a field keeps the keys distinct and what holds of the leaves.
  - `follow`, `nest`: going down along keys.
  - `Within.ind`: induction over a part and the whole together.
  - `Within.and_all`: what holds of all leaves of `d` holds of those that were kept.
  - `Changed.leaf_of_within`: if a part and its change are both within `d`, the two leaves are
    related to one leaf of `d`.
-/

import Mathlib.Data.List.Forall2
import Mathlib.Data.List.Nodup

inductive Document (κ α : Type) where
  | leaf (a : α)
  | list (items : List (Document κ α))
  | object (fields : List (κ × Document κ α))

namespace Document

variable {κ α β : Type}

/-- Induction over the items of lists and the fields of objects. -/
@[elab_as_elim]
theorem induct {P : Document κ α → Prop} (leaf : ∀ a, P (.leaf a)) (list : ∀ items, (∀ d ∈ items, P d) → P (.list items))
    (object : ∀ fields, (∀ p ∈ fields, P p.2) → P (.object fields)) (d : Document κ α) : P d := by
  refine @Document.rec κ α P (fun items => ∀ d ∈ items, P d) (fun fields => ∀ p ∈ fields, P p.2) (fun p => P p.2)
    leaf list object ?_ ?_ ?_ ?_ ?_ d
  · exact fun d hd => absurd hd List.not_mem_nil
  · exact fun d items hd hitems => List.forall_mem_cons.mpr ⟨hd, hitems⟩
  · exact fun p hp => absurd hp List.not_mem_nil
  · exact fun p fields hp hfields => List.forall_mem_cons.mpr ⟨hp, hfields⟩
  · exact fun k d hd => hd

/-! ## Fields -/

section

variable [DecidableEq κ]

/-- Stores under a key. -/
def put (fields : List (κ × β)) (key : κ) (b : β) : List (κ × β) :=
  match fields with
  | [] => [(key, b)]
  | (k, a) :: fields => if k = key then (k, b) :: fields else (k, a) :: put fields key b

theorem put_cons (p : κ × β) (fields : List (κ × β)) (key : κ) (b : β) :
    put (p :: fields) key b = if p.1 = key then (p.1, b) :: fields else p :: put fields key b := rfl

theorem put_of_not_mem {fields : List (κ × β)} {key : κ} (b : β) (h : key ∉ fields.map Prod.fst) :
    put fields key b = fields ++ [(key, b)] := by
  induction fields with
  | nil => rfl
  | cons p fields ih =>
    rw [List.map_cons, List.mem_cons, not_or] at h
    rw [put_cons, if_neg (Ne.symm h.1), ih h.2, List.cons_append]

theorem mem_put {fields : List (κ × β)} {key : κ} {b : β} {p : κ × β} (h : p ∈ put fields key b) :
    p ∈ fields ∨ p = (key, b) := by
  induction fields with
  | nil => exact Or.inr (List.mem_singleton.mp h)
  | cons q fields ih =>
    rw [put_cons] at h
    split at h
    · rename_i hk
      rcases List.mem_cons.mp h with h | h
      · rw [h, hk]
        exact Or.inr rfl
      · exact Or.inl (List.mem_cons_of_mem _ h)
    · rcases List.mem_cons.mp h with h | h
      · exact Or.inl (List.mem_cons.mpr (Or.inl h))
      · exact (ih h).imp_left (List.mem_cons_of_mem _)

theorem put_keys {fields : List (κ × β)} (key : κ) (b : β) (h : (fields.map Prod.fst).Nodup) :
    ((put fields key b).map Prod.fst).Nodup := by
  by_cases hk : key ∈ fields.map Prod.fst
  · suffices heq : (put fields key b).map Prod.fst = fields.map Prod.fst by rwa [heq]
    clear h
    induction fields with
    | nil => exact absurd hk List.not_mem_nil
    | cons q fields ih =>
      rw [put_cons]
      split
      · rfl
      · rename_i hne
        rw [List.map_cons, List.map_cons, ih ((List.mem_cons.mp hk).resolve_left (Ne.symm hne))]
  · rw [put_of_not_mem b hk, List.map_append, List.nodup_append_comm]
    exact List.nodup_cons.mpr ⟨hk, h⟩

theorem lookup_cons_if [BEq κ] [LawfulBEq κ] (key : κ) (b : β) (fields : List (κ × β)) (k : κ) :
    List.lookup k ((key, b) :: fields) = if k = key then some b else fields.lookup k := by
  by_cases h : k = key
  · rw [if_pos h, h, List.lookup_cons_self]
  · rw [if_neg h, List.lookup_cons, beq_false_of_ne h]

theorem lookup_put [BEq κ] [LawfulBEq κ] (fields : List (κ × β)) (key : κ) (b : β) (k : κ) :
    (put fields key b).lookup k = if k = key then some b else fields.lookup k := by
  induction fields with
  | nil => exact lookup_cons_if key b [] k
  | cons p fields ih =>
    rw [put_cons]
    by_cases hp : p.1 = key
    · rw [if_pos hp, lookup_cons_if, lookup_cons_if, hp]
      split <;> rfl
    · rw [if_neg hp, lookup_cons_if, lookup_cons_if, ih]
      by_cases h : k = p.1
      · rw [if_pos h, if_pos h, if_neg (h ▸ hp)]
      · rw [if_neg h, if_neg h]

theorem lookup_of_mem {fields : List (κ × β)} (hkeys : (fields.map Prod.fst).Nodup) {p : κ × β} (h : p ∈ fields) :
    fields.lookup p.1 = some p.2 := by
  induction fields with
  | nil => exact absurd h List.not_mem_nil
  | cons q fields ih =>
    rw [List.map_cons, List.nodup_cons] at hkeys
    rcases List.mem_cons.mp h with rfl | h
    · exact List.lookup_cons_self
    · have hne : p.1 ≠ q.1 := fun he => hkeys.1 (he ▸ List.mem_map_of_mem h)
      rw [lookup_cons_if, if_neg hne]
      exact ih hkeys.2 h

end

/-! ## What holds of the leaves -/

mutual

/-- No object has a key twice, and the leaves have the property. -/
def All (P : α → Prop) : Document κ α → Prop
  | .leaf a => P a
  | .list items => AllItems P items
  | .object fields => (fields.map Prod.fst).Nodup ∧ AllFields P fields

def AllItems (P : α → Prop) : List (Document κ α) → Prop
  | [] => True
  | d :: items => d.All P ∧ AllItems P items

def AllFields (P : α → Prop) : List (κ × Document κ α) → Prop
  | [] => True
  | (_, d) :: fields => d.All P ∧ AllFields P fields

end

variable {P : α → Prop} {R S : α → β → Prop} {C : α → α → Prop}

@[simp] theorem all_leaf {a : α} : (leaf a : Document κ α).All P ↔ P a := Iff.rfl

@[simp] theorem all_list {items : List (Document κ α)} : (list items).All P ↔ ∀ d ∈ items, d.All P := by
  show AllItems P items ↔ _
  induction items with
  | nil => exact iff_of_true trivial fun d hd => absurd hd List.not_mem_nil
  | cons d items ih =>
    show d.All P ∧ AllItems P items ↔ _
    rw [ih, List.forall_mem_cons]

@[simp] theorem all_object {fields : List (κ × Document κ α)} :
    (object fields).All P ↔ (fields.map Prod.fst).Nodup ∧ ∀ p ∈ fields, p.2.All P := by
  have hfields : AllFields P fields ↔ ∀ p ∈ fields, p.2.All P := by
    induction fields with
    | nil => exact iff_of_true trivial fun p hp => absurd hp List.not_mem_nil
    | cons p fields ih =>
      show p.2.All P ∧ AllFields P fields ↔ _
      rw [ih, List.forall_mem_cons]
  show _ ∧ AllFields P fields ↔ _
  rw [hfields]

theorem all_put [DecidableEq κ] {fields : List (κ × Document κ α)} {key : κ} {d : Document κ α}
    (h : (object fields).All P) (hd : d.All P) : (object (put fields key d)).All P := by
  rw [all_object] at h ⊢
  refine ⟨put_keys key d h.1, fun p hp => ?_⟩
  rcases mem_put hp with hp | rfl
  · exact h.2 p hp
  · exact hd

/-! ## Parts -/

section

variable [DecidableEq κ]

mutual

def Within (R : α → β → Prop) : Document κ α → Document κ β → Prop
  | .leaf a, .leaf b => R a b
  | .list es, .list ds => ItemsWithin R es ds
  | .object es, .object ds => (es.map Prod.fst).Nodup ∧ FieldsWithin R es ds
  | _, _ => False

def ItemsWithin (R : α → β → Prop) : List (Document κ α) → List (Document κ β) → Prop
  | [], [] => True
  | e :: es, d :: ds => Within R e d ∧ ItemsWithin R es ds
  | _, _ => False

def FieldsWithin (R : α → β → Prop) : List (κ × Document κ α) → List (κ × Document κ β) → Prop
  | [], _ => True
  | (key, e) :: es, ds => (∃ d, ds.lookup key = some d ∧ Within R e d) ∧ FieldsWithin R es ds

end

theorem within_leaf {a : α} {d : Document κ β} : (leaf a).Within R d ↔ ∃ b, d = .leaf b ∧ R a b := by
  constructor
  · intro h
    cases d with
    | leaf b => exact ⟨b, rfl, h⟩
    | list ds => exact False.elim h
    | object ds => exact False.elim h
  · intro ⟨b, hd, h⟩
    subst hd
    exact h

theorem itemsWithin_iff {es : List (Document κ α)} {ds : List (Document κ β)} :
    ItemsWithin R es ds ↔ List.Forall₂ (Within R) es ds := by
  induction es generalizing ds with
  | nil =>
    cases ds with
    | nil => exact iff_of_true trivial .nil
    | cons d ds => exact iff_of_false (fun h => h) fun h => by cases h
  | cons e es ih =>
    cases ds with
    | nil => exact iff_of_false (fun h => h) fun h => by cases h
    | cons d ds =>
      show Within R e d ∧ ItemsWithin R es ds ↔ _
      rw [ih, List.forall₂_cons]

theorem within_list {es : List (Document κ α)} {d : Document κ β} :
    (list es).Within R d ↔ ∃ ds, d = .list ds ∧ List.Forall₂ (Within R) es ds := by
  constructor
  · intro h
    cases d with
    | leaf b => exact False.elim h
    | list ds => exact ⟨ds, rfl, itemsWithin_iff.mp h⟩
    | object ds => exact False.elim h
  · intro ⟨ds, hd, h⟩
    subst hd
    exact itemsWithin_iff.mpr h

theorem fieldsWithin_iff {es : List (κ × Document κ α)} {ds : List (κ × Document κ β)} :
    FieldsWithin R es ds ↔ ∀ p ∈ es, ∃ d, ds.lookup p.1 = some d ∧ p.2.Within R d := by
  induction es with
  | nil => exact iff_of_true trivial fun p hp => absurd hp List.not_mem_nil
  | cons p es ih =>
    show (∃ d, ds.lookup p.1 = some d ∧ p.2.Within R d) ∧ FieldsWithin R es ds ↔ _
    rw [ih, List.forall_mem_cons]

theorem within_object {es : List (κ × Document κ α)} {d : Document κ β} :
    (object es).Within R d ↔
      ∃ ds, d = .object ds ∧ (es.map Prod.fst).Nodup ∧ ∀ p ∈ es, ∃ d, ds.lookup p.1 = some d ∧ p.2.Within R d := by
  constructor
  · intro h
    cases d with
    | leaf b => exact False.elim h
    | list ds => exact False.elim h
    | object ds => exact ⟨ds, rfl, h.1, fieldsWithin_iff.mp h.2⟩
  · intro ⟨ds, hd, hkeys, h⟩
    subst hd
    exact ⟨hkeys, fieldsWithin_iff.mpr h⟩

/-- Induction over a part and the whole together. -/
theorem Within.ind {P : Document κ α → Document κ β → Prop} (leaf : ∀ a b, R a b → P (.leaf a) (.leaf b))
    (list : ∀ es ds, List.Forall₂ P es ds → P (.list es) (.list ds))
    (object : ∀ es ds, (es.map Prod.fst).Nodup → (∀ p ∈ es, ∃ d, ds.lookup p.1 = some d ∧ P p.2 d) →
      P (.object es) (.object ds))
    {e : Document κ α} {d : Document κ β} (h : e.Within R d) : P e d := by
  induction e using Document.induct generalizing d with
  | leaf a =>
    obtain ⟨b, rfl, hab⟩ := within_leaf.mp h
    exact leaf a b hab
  | list es ih =>
    obtain ⟨ds, rfl, hes⟩ := within_list.mp h
    refine list es ds ?_
    exact ((List.forall₂_and_left es ds).mpr ⟨ih, hes⟩).imp fun e d hd => hd.1 hd.2
  | object es ih =>
    obtain ⟨ds, rfl, hkeys, hes⟩ := within_object.mp h
    refine object es ds hkeys fun p hp => ?_
    obtain ⟨d, hlookup, hd⟩ := hes p hp
    exact ⟨d, hlookup, ih p hp hd⟩

theorem mem_of_lookup {fields : List (κ × β)} {key : κ} {b : β} (h : fields.lookup key = some b) : (key, b) ∈ fields := by
  obtain ⟨front, back, rfl, _⟩ := List.lookup_eq_some_iff.mp h
  exact List.mem_append_right _ List.mem_cons_self

theorem Within.imp {e : Document κ α} {d : Document κ β} (h : e.Within R d) (hRS : ∀ a b, R a b → S a b) : e.Within S d := by
  refine h.ind ?_ ?_ ?_
  · exact fun a b hab => within_leaf.mpr ⟨b, rfl, hRS a b hab⟩
  · exact fun es ds hes => within_list.mpr ⟨ds, rfl, hes⟩
  · exact fun es ds hkeys hes => within_object.mpr ⟨ds, rfl, hkeys, hes⟩

theorem Within.and {e : Document κ α} {d : Document κ β} (h : e.Within R d) (h' : e.Within S d) :
    e.Within (fun a b => R a b ∧ S a b) d := by
  revert h'
  refine Within.ind (P := fun e d => e.Within S d → e.Within (fun a b => R a b ∧ S a b) d) ?_ ?_ ?_ h
  · intro a b hab h'
    obtain ⟨b', hb', hab'⟩ := within_leaf.mp h'
    cases hb'
    exact within_leaf.mpr ⟨b, rfl, hab, hab'⟩
  · intro es ds hes h'
    obtain ⟨ds', hds', hes'⟩ := within_list.mp h'
    cases hds'
    exact within_list.mpr ⟨ds, rfl, hes.mp (fun _ _ he hed => he hed) hes'⟩
  · intro es ds hkeys hes h'
    obtain ⟨ds', hds', -, hes'⟩ := within_object.mp h'
    cases hds'
    refine within_object.mpr ⟨ds, rfl, hkeys, fun p hp => ?_⟩
    obtain ⟨d, hlookup, hd⟩ := hes p hp
    obtain ⟨d', hlookup', hd'⟩ := hes' p hp
    cases hlookup.symm.trans hlookup'
    exact ⟨d, hlookup, hd hd'⟩

/-- The keys of a part are distinct. -/
theorem Within.all {e : Document κ α} {d : Document κ β} (h : e.Within R d) : e.All fun _ => True := by
  refine Within.ind (P := fun e _ => e.All fun _ => True) ?_ ?_ ?_ h
  · exact fun a b _ => all_leaf.mpr trivial
  · intro es ds hes
    have hes' : List.Forall₂ (fun (e : Document κ α) _ => (e.All fun _ => True) ∧ True) es ds :=
      hes.imp fun _ _ he => ⟨he, trivial⟩
    exact all_list.mpr ((List.forall₂_and_left es ds).mp hes').1
  · intro es ds hkeys hes
    refine all_object.mpr ⟨hkeys, fun p hp => ?_⟩
    obtain ⟨d, -, hd⟩ := hes p hp
    exact hd

theorem Within.and_all {Q : β → Prop} {e : Document κ α} {d : Document κ β} (h : e.Within R d) (hd : d.All Q) :
    e.Within (fun a b => R a b ∧ Q b) d := by
  revert hd
  refine Within.ind (P := fun e d => d.All Q → e.Within (fun a b => R a b ∧ Q b) d) ?_ ?_ ?_ h
  · exact fun a b hab hb => within_leaf.mpr ⟨b, rfl, hab, all_leaf.mp hb⟩
  · intro es ds hes hds
    refine within_list.mpr ⟨ds, rfl, ?_⟩
    rw [all_list] at hds
    induction hes with
    | nil => exact .nil
    | cons hd _ ih =>
      rw [List.forall_mem_cons] at hds
      exact .cons (hd hds.1) (ih hds.2)
  · intro es ds hkeys hes hds
    refine within_object.mpr ⟨ds, rfl, hkeys, fun p hp => ?_⟩
    obtain ⟨d, hlookup, hd⟩ := hes p hp
    exact ⟨d, hlookup, hd ((all_object.mp hds).2 _ (mem_of_lookup hlookup))⟩

/-- A document is a part of itself. -/
theorem within_self {R : α → α → Prop} {d : Document κ α} (h : d.All P) (hR : ∀ a, P a → R a a) : d.Within R d := by
  induction d using Document.induct with
  | leaf a => exact within_leaf.mpr ⟨a, rfl, hR a (all_leaf.mp h)⟩
  | list items ih =>
    refine within_list.mpr ⟨items, rfl, List.forall₂_same.mpr fun d hd => ?_⟩
    exact ih d hd (all_list.mp h d hd)
  | object fields ih =>
    obtain ⟨hkeys, hfields⟩ := all_object.mp h
    exact within_object.mpr ⟨fields, rfl, hkeys, fun p hp => ⟨p.2, lookup_of_mem hkeys hp, ih p hp (hfields p hp)⟩⟩

/-! ## Keys below keys -/

/-- What is found below the keys, one after the other. -/
def follow : List κ → Document κ α → Option (Document κ α)
  | [], d => some d
  | key :: keys, .object fields => (fields.lookup key).bind (follow keys)
  | _ :: _, _ => none

/-- An object that has nothing but the document, below the keys. -/
def nest (keys : List κ) (d : Document κ α) : Document κ α := keys.foldr (fun key d => .object [(key, d)]) d

theorem follow_all {keys : List κ} {d d' : Document κ α} (h : d.All P) (hf : follow keys d = some d') : d'.All P := by
  induction keys generalizing d with
  | nil =>
    cases hf
    exact h
  | cons key keys ih =>
    cases d with
    | leaf a => cases hf
    | list items => cases hf
    | object fields =>
      obtain ⟨e, he, hf⟩ := Option.bind_eq_some_iff.mp hf
      exact ih ((all_object.mp h).2 _ (mem_of_lookup he)) hf

omit [DecidableEq κ] in
theorem nest_all {d : Document κ α} (h : d.All P) (keys : List κ) : (nest keys d).All P := by
  induction keys with
  | nil => exact h
  | cons key keys ih => exact all_object.mpr ⟨List.nodup_singleton key, List.forall_mem_singleton.mpr ih⟩

/-! ## Changes -/

/-- One leaf is another. -/
inductive Changed (C : α → α → Prop) : Document κ α → Document κ α → Prop
  | leaf {a a' : α} (h : C a a') : Changed C (.leaf a) (.leaf a')
  | item {e e' : Document κ α} (front back : List (Document κ α)) (h : Changed C e e') :
    Changed C (.list (front ++ e :: back)) (.list (front ++ e' :: back))
  | field {e e' : Document κ α} (key : κ) (front back : List (κ × Document κ α)) (h : Changed C e e') :
    Changed C (.object (front ++ (key, e) :: back)) (.object (front ++ (key, e') :: back))

theorem forall₂_at {T : α → β → Prop} {front back : List α} {a : α} {l : List β}
    (h : List.Forall₂ T (front ++ a :: back) l) : ∃ b, l[front.length]? = some b ∧ T a b := by
  induction front generalizing l with
  | nil =>
    obtain ⟨b, l, hab, -, rfl⟩ := List.forall₂_cons_left_iff.mp h
    exact ⟨b, rfl, hab⟩
  | cons c front ih =>
    obtain ⟨b, l, -, hl, rfl⟩ := List.forall₂_cons_left_iff.mp h
    exact ih hl

theorem forall₂_replace {T : α → β → Prop} {front back : List α} {a a' : α} {l : List β}
    (h : List.Forall₂ T (front ++ a :: back) l) (ha : ∀ b, T a b → T a' b) : List.Forall₂ T (front ++ a' :: back) l := by
  induction front generalizing l with
  | nil =>
    obtain ⟨b, l, hab, hl, rfl⟩ := List.forall₂_cons_left_iff.mp h
    exact .cons (ha b hab) hl
  | cons c front ih =>
    obtain ⟨b, l, hcb, hl, rfl⟩ := List.forall₂_cons_left_iff.mp h
    exact .cons hcb (ih hl)

/-- A change of a leaf to one that is related to all that the leaf was related to. -/
theorem Within.changed {e e' : Document κ α} {d : Document κ β} (h : e.Within R d) (hc : Changed C e e')
    (hC : ∀ a a' b, C a a' → R a b → R a' b) : e'.Within R d := by
  induction hc generalizing d with
  | leaf ha =>
    obtain ⟨b, rfl, hab⟩ := within_leaf.mp h
    exact within_leaf.mpr ⟨b, rfl, hC _ _ b ha hab⟩
  | item front back _ ih =>
    obtain ⟨ds, rfl, hes⟩ := within_list.mp h
    exact within_list.mpr ⟨ds, rfl, forall₂_replace hes fun d hd => ih hd⟩
  | @field e e' key front back _ ih =>
    obtain ⟨ds, rfl, hkeys, hes⟩ := within_object.mp h
    refine within_object.mpr ⟨ds, rfl, by simpa using hkeys, fun p hp => ?_⟩
    rw [List.mem_append, List.mem_cons] at hp
    rcases hp with hp | rfl | hp
    · exact hes p (List.mem_append_left _ hp)
    · obtain ⟨d, hlookup, hd⟩ := hes (key, e) (List.mem_append_right _ List.mem_cons_self)
      exact ⟨d, hlookup, ih hd⟩
    · exact hes p (List.mem_append_right _ (List.mem_cons_of_mem _ hp))

/-- The changed leaf and the leaf it was are related to one leaf of the whole. -/
theorem Changed.leaf_of_within {e e' : Document κ α} {d : Document κ β} (hc : Changed C e e') (h : e.Within R d)
    (h' : e'.Within S d) : ∃ a a' b, C a a' ∧ R a b ∧ S a' b := by
  induction hc generalizing d with
  | @leaf a a' ha =>
    obtain ⟨b, rfl, hab⟩ := within_leaf.mp h
    obtain ⟨b', hb', hab'⟩ := within_leaf.mp h'
    cases hb'
    exact ⟨a, a', b, ha, hab, hab'⟩
  | item front back _ ih =>
    obtain ⟨ds, rfl, hes⟩ := within_list.mp h
    obtain ⟨ds', hds', hes'⟩ := within_list.mp h'
    cases hds'
    obtain ⟨d, hat, hd⟩ := forall₂_at hes
    obtain ⟨d', hat', hd'⟩ := forall₂_at hes'
    cases hat.symm.trans hat'
    exact ih hd hd'
  | @field e e' key front back _ ih =>
    obtain ⟨ds, rfl, -, hes⟩ := within_object.mp h
    obtain ⟨ds', hds', -, hes'⟩ := within_object.mp h'
    cases hds'
    obtain ⟨d, hlookup, hd⟩ := hes (key, e) (List.mem_append_right _ List.mem_cons_self)
    obtain ⟨d', hlookup', hd'⟩ := hes' (key, e') (List.mem_append_right _ List.mem_cons_self)
    cases hlookup.symm.trans hlookup'
    exact ih hd hd'

end

end Document
