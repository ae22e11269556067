/-
  Turntf.Lib.Json.Tree — JSON texts.

  A `Tree` is what a text says with its literals as they are written, so that `Tree.render` is the
  text without insignificant space. `parse` reads a text as `encoding/json` does: space between
  tokens is skipped, and arrays and objects are nested at most `maxDepth` deep. `value` reads the
  value in front of a text, for a decoder that goes on after it, and `objectMembers` splits an
  object into its keys and the texts of its values.

  `Tree.denote` is the value of a tree, with the texts of its strings.

  - `next_fuel`: the reader has fuel for every text.
  - `parse_render`, `objectMembers_render`: what was rendered is read back.
  - `Tree.escapeHTML_spec`: escaping HTML in the strings does not change the value.
-/

import Turntf.Lib.Json.Strings

namespace Json

/-! ## Trees -/

inductive Tree where
  | null
  | bool (b : Bool)
  | num (n : NumLit)
  | str (s : StrLit)
  | arr (items : List Tree)
  | obj (members : List (StrLit × Tree))

/-- Induction over the values in arrays and objects. -/
@[elab_as_elim]
theorem Tree.induct {P : Tree → Prop} (null : P .null) (bool : ∀ b, P (.bool b)) (num : ∀ n, P (.num n))
    (str : ∀ s, P (.str s)) (arr : ∀ items, (∀ v ∈ items, P v) → P (.arr items))
    (obj : ∀ members, (∀ m ∈ members, P m.2) → P (.obj members)) (v : Tree) : P v := by
  refine @Tree.rec P (fun items => ∀ v ∈ items, P v) (fun members => ∀ m ∈ members, P m.2) (fun m => P m.2)
    null bool num str arr obj ?_ ?_ ?_ ?_ ?_ v
  · exact fun v hv => absurd hv List.not_mem_nil
  · exact fun v items hv hitems => List.forall_mem_cons.mpr ⟨hv, hitems⟩
  · exact fun m hm => absurd hm List.not_mem_nil
  · exact fun m members hm hmembers => List.forall_mem_cons.mpr ⟨hm, hmembers⟩
  · exact fun k v hv => hv

def keyword (word : String) : Bytes := word.toList.map ch

def quoted (s : StrLit) : Bytes := ch '"' :: (StrLit.text s ++ [ch '"'])

mutual

/-- The compact text of a tree. -/
def Tree.render : Tree → Bytes
  | .null => keyword "null"
  | .bool true => keyword "true"
  | .bool false => keyword "false"
  | .num n => n.text
  | .str s => quoted s
  | .arr [] => [ch '[', ch ']']
  | .arr (v :: vs) => ch '[' :: (v.render ++ renderItems vs)
  | .obj [] => [ch '{', ch '}']
  | .obj ((k, v) :: ms) => ch '{' :: (quoted k ++ ch ':' :: (v.render ++ renderMembers ms))

def renderItems : List Tree → Bytes
  | [] => [ch ']']
  | v :: vs => ch ',' :: (v.render ++ renderItems vs)

def renderMembers : List (StrLit × Tree) → Bytes
  | [] => [ch '}']
  | (k, v) :: ms => ch ',' :: (quoted k ++ ch ':' :: (v.render ++ renderMembers ms))

end

theorem renderItems_cons (v : Tree) (vs : List Tree) : renderItems (v :: vs) = ch ',' :: (v.render ++ renderItems vs) := rfl

theorem renderMembers_cons (m : StrLit × Tree) (ms : List (StrLit × Tree)) :
    renderMembers (m :: ms) = ch ',' :: (quoted m.1 ++ ch ':' :: (m.2.render ++ renderMembers ms)) := rfl

theorem Tree.render_arr (v : Tree) (vs : List Tree) : (Tree.arr (v :: vs)).render = ch '[' :: (v.render ++ renderItems vs) := rfl

theorem Tree.render_obj (m : StrLit × Tree) (ms : List (StrLit × Tree)) :
    (Tree.obj (m :: ms)).render = ch '{' :: (quoted m.1 ++ ch ':' :: (m.2.render ++ renderMembers ms)) := rfl

mutual

/-- How deep arrays and objects are nested. -/
def Tree.depth : Tree → Nat
  | .arr vs => 1 + depthItems vs
  | .obj ms => 1 + depthMembers ms
  | _ => 0

def depthItems : List Tree → Nat
  | [] => 0
  | v :: vs => max v.depth (depthItems vs)

def depthMembers : List (StrLit × Tree) → Nat
  | [] => 0
  | (_, v) :: ms => max v.depth (depthMembers ms)

end

theorem depthItems_cons (v : Tree) (vs : List Tree) : depthItems (v :: vs) = max v.depth (depthItems vs) := rfl

theorem depthMembers_cons (m : StrLit × Tree) (ms : List (StrLit × Tree)) :
    depthMembers (m :: ms) = max m.2.depth (depthMembers ms) := rfl

theorem Tree.depth_arr (vs : List Tree) : (Tree.arr vs).depth = 1 + depthItems vs := rfl

theorem Tree.depth_obj (ms : List (StrLit × Tree)) : (Tree.obj ms).depth = 1 + depthMembers ms := rfl

mutual

/-- The calls it takes to read a tree. -/
def Tree.size : Tree → Nat
  | .arr [] | .obj [] => 2
  | .arr (v :: vs) => 2 + v.size + sizeItems vs
  | .obj ((_, v) :: ms) => 3 + v.size + sizeMembers ms
  | _ => 1

def sizeItems : List Tree → Nat
  | [] => 1
  | v :: vs => 1 + v.size + sizeItems vs

def sizeMembers : List (StrLit × Tree) → Nat
  | [] => 1
  | (_, v) :: ms => 2 + v.size + sizeMembers ms

end

theorem sizeItems_cons (v : Tree) (vs : List Tree) : sizeItems (v :: vs) = 1 + v.size + sizeItems vs := rfl

theorem sizeMembers_cons (m : StrLit × Tree) (ms : List (StrLit × Tree)) :
    sizeMembers (m :: ms) = 2 + m.2.size + sizeMembers ms := rfl

theorem Tree.size_arr (v : Tree) (vs : List Tree) : (Tree.arr (v :: vs)).size = 2 + v.size + sizeItems vs := rfl

theorem Tree.size_obj (m : StrLit × Tree) (ms : List (StrLit × Tree)) :
    (Tree.obj (m :: ms)).size = 3 + m.2.size + sizeMembers ms := rfl

/-! ## Reading -/

def isSpace (b : UInt8) : Bool := b == ch ' ' || b == ch '\t' || b == ch '\r' || b == ch '\n'

def skipSpace (t : Bytes) : Bytes := t.dropWhile isSpace

/-- What follows the byte `c`, which is next. -/
def expect (c : UInt8) (t : Bytes) : Option Bytes :=
  match skipSpace t with
  | [] => none
  | b :: t => if b = c then some t else none

/-- What follows a word. -/
def readWord : (word t : Bytes) → Option Bytes
  | [], t => some t
  | _ :: _, [] => none
  | a :: word, b :: t => if a = b then readWord word t else none

def readNumber (t : Bytes) : Option (Tree × Bytes) :=
  match NumState.start.scan t with
  | some (text, rest) => if h : isNumber text = true then some (.num ⟨text, h⟩, rest) else none
  | none => none

/-- A member of an object, with the text of its value. -/
structure Member where
  key : StrLit
  text : Bytes
  value : Tree

def maxDepth : Nat := 10000

mutual

/-- The value in front of a text, and what follows it. -/
def value : (fuel depth : Nat) → Bytes → Option (Tree × Bytes)
  | 0, _, _ => none
  | fuel + 1, depth, t =>
    match skipSpace t with
    | [] => none
    | b :: t =>
      if b = ch '{' then
        if depth = 0 then none
        else (members fuel (depth - 1) t).map fun p => (.obj (p.1.map fun m => (m.key, m.value)), p.2)
      else if b = ch '[' then
        if depth = 0 then none else (items fuel (depth - 1) t).map fun p => (.arr p.1, p.2)
      else if b = ch '"' then (scanString t).map fun p => (.str p.1, p.2)
      else if b = ch 'n' then (readWord (keyword "ull") t).map fun t => (.null, t)
      else if b = ch 't' then (readWord (keyword "rue") t).map fun t => (.bool true, t)
      else if b = ch 'f' then (readWord (keyword "alse") t).map fun t => (.bool false, t)
      else readNumber (b :: t)

/-- After the opening bracket. -/
def items : (fuel depth : Nat) → Bytes → Option (List Tree × Bytes)
  | 0, _, _ => none
  | fuel + 1, depth, t =>
    match expect (ch ']') t with
    | some t => some ([], t)
    | none => do
      let (v, t) ← value fuel depth t
      let (vs, t) ← moreItems fuel depth t
      some (v :: vs, t)

/-- After an item. -/
def moreItems : (fuel depth : Nat) → Bytes → Option (List Tree × Bytes)
  | 0, _, _ => none
  | fuel + 1, depth, t =>
    match expect (ch ']') t with
    | some t => some ([], t)
    | none => do
      let t ← expect (ch ',') t
      let (v, t) ← value fuel depth t
      let (vs, t) ← moreItems fuel depth t
      some (v :: vs, t)

/-- After the opening brace. -/
def members : (fuel depth : Nat) → Bytes → Option (List Member × Bytes)
  | 0, _, _ => none
  | fuel + 1, depth, t =>
    match expect (ch '}') t with
    | some t => some ([], t)
    | none => do
      let (m, t) ← member fuel depth t
      let (ms, t) ← moreMembers fuel depth t
      some (m :: ms, t)

/-- After a member. -/
def moreMembers : (fuel depth : Nat) → Bytes → Option (List Member × Bytes)
  | 0, _, _ => none
  | fuel + 1, depth, t =>
    match expect (ch '}') t with
    | some t => some ([], t)
    | none => do
      let t ← expect (ch ',') t
      let (m, t) ← member fuel depth t
      let (ms, t) ← moreMembers fuel depth t
      some (m :: ms, t)

def member : (fuel depth : Nat) → Bytes → Option (Member × Bytes)
  | 0, _, _ => none
  | fuel + 1, depth, t => do
    let t ← expect (ch '"') t
    let (key, t) ← scanString t
    let t ← expect (ch ':') t
    let (v, rest) ← value fuel depth t
    some (⟨key, (skipSpace t).take ((skipSpace t).length - rest.length), v⟩, rest)

end

/-- Enough for every text of that length: a byte is read at least at every third call. -/
def fuelFor (t : Bytes) : Nat := 3 * t.length + 3

/-- The next value of a stream. -/
def next (t : Bytes) : Option (Tree × Bytes) := value (fuelFor t) maxDepth t

/-- The value that is the whole text. -/
def parse (t : Bytes) : Option Tree :=
  match next t with
  | some (v, rest) => if skipSpace rest = [] then some v else none
  | none => none

/-- The members of an object. -/
def objectMembers (t : Bytes) : Option (List Member) := do
  let rest ← expect (ch '{') t
  let (ms, _) ← members (fuelFor t) maxDepth rest
  some ms

/-! ## What was read -/

theorem readWord_sound {word t rest : Bytes} (h : readWord word t = some rest) : t = word ++ rest := by
  induction word generalizing t with
  | nil =>
    cases h
    rfl
  | cons a word ih =>
    cases t with
    | nil => cases h
    | cons b t =>
      rw [readWord] at h
      by_cases hab : a = b
      · rw [if_pos hab] at h
        rw [ih h, hab]
        rfl
      · rw [if_neg hab] at h
        cases h

theorem readNumber_sound {t rest : Bytes} {v : Tree} (h : readNumber t = some (v, rest)) :
    ∃ n, v = .num n ∧ t = n.text ++ rest := by
  unfold readNumber at h
  cases hs : NumState.start.scan t with
  | none => simp [hs] at h
  | some p =>
    obtain ⟨text, r⟩ := p
    rw [hs] at h
    by_cases hn : isNumber text = true
    · simp only [dif_pos hn] at h
      cases h
      exact ⟨⟨text, hn⟩, rfl, (scan_sound hs).1⟩
    · simp only [dif_neg hn] at h
      cases h

/-- A value that is no array and no object stands in the text as it is rendered. -/
theorem value_leaf {fuel depth : Nat} {t rest : Bytes} {v : Tree} (h : value fuel depth t = some (v, rest))
    (hv : v.depth = 0) : skipSpace t = v.render ++ rest := by
  cases fuel with
  | zero => simp [value] at h
  | succ fuel =>
    rw [value] at h
    cases hs : skipSpace t with
    | nil => simp [hs] at h
    | cons b t =>
      simp only [hs] at h
      split at h
      · split at h
        · cases h
        · obtain ⟨p, -, he⟩ := Option.map_eq_some_iff.mp h
          cases he
          rw [Tree.depth_obj] at hv
          omega
      split at h
      · split at h
        · cases h
        · obtain ⟨p, -, he⟩ := Option.map_eq_some_iff.mp h
          cases he
          rw [Tree.depth_arr] at hv
          omega
      split at h
      · rename_i hb
        obtain ⟨p, hp, he⟩ := Option.map_eq_some_iff.mp h
        cases he
        show _ = quoted _ ++ _
        rw [scanString_sound hp, hb]
        simp [quoted]
      split at h
      · rename_i hb
        obtain ⟨p, hp, he⟩ := Option.map_eq_some_iff.mp h
        cases he
        rw [readWord_sound hp, hb]
        rfl
      split at h
      · rename_i hb
        obtain ⟨p, hp, he⟩ := Option.map_eq_some_iff.mp h
        cases he
        rw [readWord_sound hp, hb]
        rfl
      split at h
      · rename_i hb
        obtain ⟨p, hp, he⟩ := Option.map_eq_some_iff.mp h
        cases he
        rw [readWord_sound hp, hb]
        rfl
      · obtain ⟨n, rfl, ht⟩ := readNumber_sound h
        exact ht

/-! ## Enough fuel -/

theorem skipSpace_length (t : Bytes) : (skipSpace t).length ≤ t.length := (List.dropWhile_sublist _).length_le

theorem expect_length {c : UInt8} {t rest : Bytes} (h : expect c t = some rest) : rest.length < t.length := by
  have hle := skipSpace_length t
  unfold expect at h
  split at h
  · cases h
  · rename_i b r hs
    rw [hs, List.length_cons] at hle
    split at h
    · cases h
      omega
    · cases h

theorem readNumber_length {t rest : Bytes} {v : Tree} (h : readNumber t = some (v, rest)) : rest.length < t.length := by
  obtain ⟨n, -, rfl⟩ := readNumber_sound h
  have hne : n.text ≠ [] := by
    intro h0
    have := n.valid
    rw [h0] at this
    cases this
  have := List.length_pos_iff.mpr hne
  rw [List.length_append]
  omega

/-- What is read is taken off the text. -/
structure Shorter (fuel : Nat) : Prop where
  value : ∀ {depth t p}, Json.value fuel depth t = some p → p.2.length < t.length
  items : ∀ {depth t p}, Json.items fuel depth t = some p → p.2.length < t.length
  moreItems : ∀ {depth t p}, Json.moreItems fuel depth t = some p → p.2.length < t.length
  members : ∀ {depth t p}, Json.members fuel depth t = some p → p.2.length < t.length
  moreMembers : ∀ {depth t p}, Json.moreMembers fuel depth t = some p → p.2.length < t.length
  member : ∀ {depth t p}, Json.member fuel depth t = some p → p.2.length < t.length

theorem shorter (fuel : Nat) : Shorter fuel := by
  induction fuel with
  | zero => constructor <;> intro depth t p h <;> simp [value, items, moreItems, members, moreMembers, member] at h
  | succ fuel ih =>
    constructor
    · intro depth t p h
      have hle := skipSpace_length t
      rw [value] at h
      cases hs : skipSpace t with
      | nil => simp [hs] at h
      | cons b r =>
        rw [hs, List.length_cons] at hle
        simp only [hs] at h
        split at h
        · split at h
          · cases h
          · obtain ⟨q, hq, rfl⟩ := Option.map_eq_some_iff.mp h
            exact Nat.lt_trans (ih.members hq) (by omega)
        split at h
        · split at h
          · cases h
          · obtain ⟨q, hq, rfl⟩ := Option.map_eq_some_iff.mp h
            exact Nat.lt_trans (ih.items hq) (by omega)
        split at h
        · obtain ⟨q, hq, rfl⟩ := Option.map_eq_some_iff.mp h
          rw [scanString_sound hq, List.length_append, List.length_cons] at hle
          show q.2.length < t.length
          omega
        split at h
        · obtain ⟨q, hq, rfl⟩ := Option.map_eq_some_iff.mp h
          rw [readWord_sound hq, List.length_append] at hle
          show q.length < t.length
          omega
        split at h
        · obtain ⟨q, hq, rfl⟩ := Option.map_eq_some_iff.mp h
          rw [readWord_sound hq, List.length_append] at hle
          show q.length < t.length
          omega
        split at h
        · obtain ⟨q, hq, rfl⟩ := Option.map_eq_some_iff.mp h
          rw [readWord_sound hq, List.length_append] at hle
          show q.length < t.length
          omega
        · have := readNumber_length h
          rw [List.length_cons] at this
          omega
    · intro depth t p h
      rw [items] at h
      split at h
      · rename_i r hr
        cases h
        exact expect_length hr
      · obtain ⟨q, hq, h⟩ := Option.bind_eq_some_iff.mp h
        obtain ⟨q', hq', h⟩ := Option.bind_eq_some_iff.mp h
        cases h
        have := ih.value hq
        have := ih.moreItems hq'
        show q'.2.length < t.length
        omega
    · intro depth t p h
      rw [moreItems] at h
      split at h
      · rename_i r hr
        cases h
        exact expect_length hr
      · obtain ⟨r, hr, h⟩ := Option.bind_eq_some_iff.mp h
        obtain ⟨q, hq, h⟩ := Option.bind_eq_some_iff.mp h
        obtain ⟨q', hq', h⟩ := Option.bind_eq_some_iff.mp h
        cases h
        have := expect_length hr
        have := ih.value hq
        have := ih.moreItems hq'
        show q'.2.length < t.length
        omega
    · intro depth t p h
      rw [members] at h
      split at h
      · rename_i r hr
        cases h
        exact expect_length hr
      · obtain ⟨q, hq, h⟩ := Option.bind_eq_some_iff.mp h
        obtain ⟨q', hq', h⟩ := Option.bind_eq_some_iff.mp h
        cases h
        have := ih.member hq
        have := ih.moreMembers hq'
        show q'.2.length < t.length
        omega
    · intro depth t p h
      rw [moreMembers] at h
      split at h
      · rename_i r hr
        cases h
        exact expect_length hr
      · obtain ⟨r, hr, h⟩ := Option.bind_eq_some_iff.mp h
        obtain ⟨q, hq, h⟩ := Option.bind_eq_some_iff.mp h
        obtain ⟨q', hq', h⟩ := Option.bind_eq_some_iff.mp h
        cases h
        have := expect_length hr
        have := ih.member hq
        have := ih.moreMembers hq'
        show q'.2.length < t.length
        omega
    · intro depth t p h
      rw [member] at h
      obtain ⟨r, hr, h⟩ := Option.bind_eq_some_iff.mp h
      obtain ⟨q, hq, h⟩ := Option.bind_eq_some_iff.mp h
      obtain ⟨r', hr', h⟩ := Option.bind_eq_some_iff.mp h
      obtain ⟨q', hq', h⟩ := Option.bind_eq_some_iff.mp h
      cases h
      have h1 := expect_length hr
      have h2 := expect_length hr'
      have h3 := ih.value hq'
      have h4 : q.2.length ≤ r.length := by
        rw [scanString_sound hq]
        simp only [List.length_append, List.length_cons]
        omega
      show q'.2.length < t.length
      omega

/-- More fuel than the text needs makes no difference. -/
structure Stable (fuel : Nat) : Prop where
  value : ∀ {depth t}, 3 * t.length + 1 ≤ fuel → Json.value (fuel + 1) depth t = Json.value fuel depth t
  items : ∀ {depth t}, 3 * t.length + 2 ≤ fuel → Json.items (fuel + 1) depth t = Json.items fuel depth t
  moreItems : ∀ {depth t}, 3 * t.length + 1 ≤ fuel → Json.moreItems (fuel + 1) depth t = Json.moreItems fuel depth t
  members : ∀ {depth t}, 3 * t.length + 2 ≤ fuel → Json.members (fuel + 1) depth t = Json.members fuel depth t
  moreMembers : ∀ {depth t}, 3 * t.length + 1 ≤ fuel → Json.moreMembers (fuel + 1) depth t = Json.moreMembers fuel depth t
  member : ∀ {depth t}, 3 * t.length + 1 ≤ fuel → Json.member (fuel + 1) depth t = Json.member fuel depth t

theorem stable (fuel : Nat) : Stable fuel := by
  induction fuel with
  | zero => constructor <;> intro depth t h <;> omega
  | succ fuel ih =>
    constructor
    · intro depth t hf
      have hle := skipSpace_length t
      rw [value, value]
      cases hs : skipSpace t with
      | nil => rfl
      | cons b r =>
        rw [hs, List.length_cons] at hle
        simp only [ih.members (by omega : 3 * r.length + 2 ≤ fuel), ih.items (by omega : 3 * r.length + 2 ≤ fuel)]
    · intro depth t hf
      rw [items, items, ih.value (by omega)]
      cases expect (ch ']') t with
      | some r => rfl
      | none =>
        refine Option.bind_congr fun q hq => ?_
        have := (shorter _).value hq
        simp only [ih.moreItems (by omega : 3 * q.2.length + 1 ≤ fuel)]
    · intro depth t hf
      rw [moreItems, moreItems]
      cases expect (ch ']') t with
      | some r => rfl
      | none =>
        refine Option.bind_congr fun r hr => ?_
        have := expect_length hr
        rw [ih.value (by omega)]
        refine Option.bind_congr fun q hq => ?_
        have := (shorter _).value hq
        simp only [ih.moreItems (by omega : 3 * q.2.length + 1 ≤ fuel)]
    · intro depth t hf
      rw [members, members, ih.member (by omega)]
      cases expect (ch '}') t with
      | some r => rfl
      | none =>
        refine Option.bind_congr fun q hq => ?_
        have := (shorter _).member hq
        simp only [ih.moreMembers (by omega : 3 * q.2.length + 1 ≤ fuel)]
    · intro depth t hf
      rw [moreMembers, moreMembers]
      cases expect (ch '}') t with
      | some r => rfl
      | none =>
        refine Option.bind_congr fun r hr => ?_
        have := expect_length hr
        rw [ih.member (by omega)]
        refine Option.bind_congr fun q hq => ?_
        have := (shorter _).member hq
        simp only [ih.moreMembers (by omega : 3 * q.2.length + 1 ≤ fuel)]
    · intro depth t hf
      rw [member, member]
      refine Option.bind_congr fun r hr => ?_
      refine Option.bind_congr fun q hq => ?_
      refine Option.bind_congr fun r' hr' => ?_
      have h1 := expect_length hr
      have h2 := expect_length hr'
      have h4 : q.2.length ≤ r.length := by
        rw [scanString_sound hq]
        simp only [List.length_append, List.length_cons]
        omega
      rw [ih.value (by omega)]

/-- No text is refused for want of fuel. -/
theorem next_fuel {fuel : Nat} {t : Bytes} (h : fuelFor t ≤ fuel) : value fuel maxDepth t = next t := by
  obtain ⟨k, rfl⟩ := Nat.exists_eq_add_of_le h
  induction k with
  | zero => rfl
  | succ k ih =>
    have hf : 3 * t.length + 1 ≤ fuelFor t + k := by
      rw [fuelFor]
      omega
    rw [← Nat.add_assoc, (stable _).value hf, ih (Nat.le_add_right _ _)]

/-! ## Reading back what was rendered -/

section

variable {b c : UInt8} {t rest : Bytes} {fuel depth : Nat}

theorem skipSpace_cons (h : isSpace b = false) : skipSpace (b :: t) = b :: t := by
  simp [skipSpace, h]

theorem expect_hit (h : isSpace c = false) : expect c (c :: t) = some t := by
  simp [expect, skipSpace_cons h]

theorem expect_miss (h : isSpace b = false) (hb : b ≠ c) : expect c (b :: t) = none := by
  simp [expect, skipSpace_cons h, hb]

theorem readWord_append (word t : Bytes) : readWord word (word ++ t) = some t := by
  induction word with
  | nil => rfl
  | cons a word ih => simp [readWord, ih]

theorem NumLit.head (n : NumLit) : ∃ b t, n.text = b :: t ∧ (b = ch '-' ∨ isDigit b = true) := by
  have h := n.valid
  cases ht : n.text with
  | nil =>
    rw [ht] at h
    cases h
  | cons b t =>
    refine ⟨b, t, rfl, ?_⟩
    by_cases hm : b = ch '-'
    · exact .inl hm
    by_cases hd : isDigit b = true
    · exact .inr hd
    have h0 : b ≠ ch '0' := by
      intro h0
      rw [h0] at hd
      exact hd (by decide)
    simp [ht, isNumber, NumState.run, NumState.step, NumState.firstDigit, hm, hd, h0] at h

theorem NumLit.readNumber (n : NumLit) (h : NumEnd rest) : readNumber (n.text ++ rest) = some (.num n, rest) := by
  obtain ⟨s, hr, ha⟩ := (isNumber_iff.mp n.valid).run
  rw [Json.readNumber, scan_complete hr ha h]
  exact dif_pos n.valid

theorem isDigit_ne_of (h : isDigit b = true) (hc : isDigit c = false) : b ≠ c := by
  intro hb
  rw [hb, hc] at h
  cases h

theorem isSpace_of_ne (h1 : b ≠ ch ' ') (h2 : b ≠ ch '\t') (h3 : b ≠ ch '\r') (h4 : b ≠ ch '\n') : isSpace b = false := by
  simp [isSpace, h1, h2, h3, h4]

/-- The first byte of a number literal opens nothing else. -/
theorem NumLit.head_ne {n : NumLit} (h : n.text = b :: t) (hc : isDigit c = false) (hm : c ≠ ch '-') : b ≠ c := by
  obtain ⟨b', t', ht, hb⟩ := n.head
  rw [h] at ht
  cases ht
  rcases hb with rfl | hb
  · exact hm.symm
  · exact isDigit_ne_of hb hc

theorem NumLit.head_space {n : NumLit} (h : n.text = b :: t) : isSpace b = false :=
  isSpace_of_ne (n.head_ne h (by decide) (by decide)) (n.head_ne h (by decide) (by decide))
    (n.head_ne h (by decide) (by decide)) (n.head_ne h (by decide) (by decide))

/-- A value starts with neither a space nor a closing bracket. -/
theorem Tree.render_head (v : Tree) :
    ∃ b t, v.render = b :: t ∧ isSpace b = false ∧ b ≠ ch ']' ∧ b ≠ ch '}' := by
  cases v with
  | null => exact ⟨_, _, rfl, by decide, by decide, by decide⟩
  | bool b => cases b <;> exact ⟨_, _, rfl, by decide, by decide, by decide⟩
  | num n =>
    obtain ⟨b, t, ht, -⟩ := n.head
    exact ⟨b, t, ht, n.head_space ht, n.head_ne ht (by decide) (by decide), n.head_ne ht (by decide) (by decide)⟩
  | str s => exact ⟨_, _, rfl, by decide, by decide, by decide⟩
  | arr vs => cases vs <;> exact ⟨_, _, rfl, by decide, by decide, by decide⟩
  | obj ms => cases ms <;> exact ⟨_, _, rfl, by decide, by decide, by decide⟩

/-! ### Leaves -/

theorem value_num (n : NumLit) (h : NumEnd rest) : value (fuel + 1) depth (n.text ++ rest) = some (.num n, rest) := by
  obtain ⟨b, t, ht, -⟩ := n.head
  have hread := n.readNumber h
  have hne : ∀ c, isDigit c = false → c ≠ ch '-' → b ≠ c := fun c hc hm => n.head_ne ht hc hm
  rw [ht, List.cons_append] at hread ⊢
  simp only [value, skipSpace_cons (n.head_space ht), if_neg (hne (ch '{') (by decide) (by decide)),
    if_neg (hne (ch '[') (by decide) (by decide)), if_neg (hne (ch '"') (by decide) (by decide)),
    if_neg (hne (ch 'n') (by decide) (by decide)), if_neg (hne (ch 't') (by decide) (by decide)),
    if_neg (hne (ch 'f') (by decide) (by decide))]
  exact hread

theorem value_str (s : StrLit) : value (fuel + 1) depth (quoted s ++ rest) = some (.str s, rest) := by
  have hq : quoted s ++ rest = ch '"' :: (StrLit.text s ++ ch '"' :: rest) := by simp [quoted]
  rw [hq]
  simp only [value, skipSpace_cons (by decide : isSpace (ch '"') = false), if_neg (by decide : ¬ ch '"' = ch '{'),
    if_neg (by decide : ¬ ch '"' = ch '['), if_true, scanString_text]
  rfl

theorem value_null : value (fuel + 1) depth (keyword "null" ++ rest) = some (.null, rest) := by
  rw [show keyword "null" = ch 'n' :: keyword "ull" by decide, List.cons_append]
  simp only [value, skipSpace_cons (by decide : isSpace (ch 'n') = false), if_neg (by decide : ¬ ch 'n' = ch '{'),
    if_neg (by decide : ¬ ch 'n' = ch '['), if_neg (by decide : ¬ ch 'n' = ch '"'), if_true, readWord_append]
  rfl

theorem value_bool (x : Bool) : value (fuel + 1) depth ((Tree.bool x).render ++ rest) = some (.bool x, rest) := by
  cases x with
  | true =>
    rw [show (Tree.bool true).render = ch 't' :: keyword "rue" by decide, List.cons_append]
    simp only [value, skipSpace_cons (by decide : isSpace (ch 't') = false), if_neg (by decide : ¬ ch 't' = ch '{'),
      if_neg (by decide : ¬ ch 't' = ch '['), if_neg (by decide : ¬ ch 't' = ch '"'), if_neg (by decide : ¬ ch 't' = ch 'n'),
      if_true, readWord_append]
    rfl
  | false =>
    rw [show (Tree.bool false).render = ch 'f' :: keyword "alse" by decide, List.cons_append]
    simp only [value, skipSpace_cons (by decide : isSpace (ch 'f') = false), if_neg (by decide : ¬ ch 'f' = ch '{'),
      if_neg (by decide : ¬ ch 'f' = ch '['), if_neg (by decide : ¬ ch 'f' = ch '"'), if_neg (by decide : ¬ ch 'f' = ch 'n'),
      if_neg (by decide : ¬ ch 'f' = ch 't'), if_true, readWord_append]
    rfl

/-! ### Arrays and objects -/

theorem value_arr {vs : List Tree} (hd : depth ≠ 0) (h : items fuel (depth - 1) t = some (vs, rest)) :
    value (fuel + 1) depth (ch '[' :: t) = some (.arr vs, rest) := by
  simp only [value, skipSpace_cons (by decide : isSpace (ch '[') = false), if_neg (by decide : ¬ ch '[' = ch '{'), if_true,
    if_neg hd, h]
  rfl

theorem value_obj {ms : List Member} (hd : depth ≠ 0) (h : members fuel (depth - 1) t = some (ms, rest)) :
    value (fuel + 1) depth (ch '{' :: t) = some (.obj (ms.map fun m => (m.key, m.value)), rest) := by
  simp only [value, skipSpace_cons (by decide : isSpace (ch '{') = false), if_true, if_neg hd, h]
  rfl

theorem Tree.expect_render (v : Tree) (hc : c = ch ']' ∨ c = ch '}') : expect c (v.render ++ t) = none := by
  obtain ⟨b, r, hr, hs, h1, h2⟩ := v.render_head
  rw [hr, List.cons_append]
  refine expect_miss hs ?_
  rcases hc with rfl | rfl
  · exact h1
  · exact h2

theorem NumEnd.of_cons (h : isNumByte b = false) : NumEnd (b :: t) := by
  intro x hx
  cases hx
  exact h

theorem numEnd_items (vs : List Tree) : NumEnd (renderItems vs ++ rest) := by
  cases vs <;> exact .of_cons (by decide)

theorem numEnd_members (ms : List (StrLit × Tree)) : NumEnd (renderMembers ms ++ rest) := by
  cases ms <;> exact .of_cons (by decide)

/-- The member that was rendered. -/
def memberOf (m : StrLit × Tree) : Member := ⟨m.1, m.2.render, m.2⟩

theorem member_render {k : StrLit} {v : Tree} (h : value fuel depth (v.render ++ rest) = some (v, rest)) :
    member (fuel + 1) depth (quoted k ++ ch ':' :: (v.render ++ rest)) = some (memberOf (k, v), rest) := by
  obtain ⟨b, r, hr, hs, -⟩ := v.render_head
  have hskip : skipSpace (v.render ++ rest) = v.render ++ rest := by
    rw [hr, List.cons_append, skipSpace_cons hs]
  have hq : quoted k ++ ch ':' :: (v.render ++ rest) =
      ch '"' :: (StrLit.text k ++ ch '"' :: (ch ':' :: (v.render ++ rest))) := by simp [quoted]
  rw [hq, member, expect_hit (by decide)]
  simp only [Option.bind_eq_bind, Option.bind_some, scanString_text, expect_hit (by decide : isSpace (ch ':') = false), h, hskip,
    List.length_append, Nat.add_sub_cancel, List.take_left]
  rfl

theorem Tree.size_pos (v : Tree) : 1 ≤ v.size := by
  cases v with
  | arr vs =>
    cases vs with
    | nil => exact Nat.le_add_left 1 1
    | cons v vs => rw [size_arr]; omega
  | obj ms =>
    cases ms with
    | nil => exact Nat.le_add_left 1 1
    | cons m ms => rw [size_obj]; omega
  | _ => exact Nat.le_refl 1

/-- Read back, given the calls it takes and the depth it has. -/
def Tree.Reads (v : Tree) : Prop :=
  ∀ fuel depth rest, v.size ≤ fuel → v.depth ≤ depth → NumEnd rest → value fuel depth (v.render ++ rest) = some (v, rest)

theorem moreItems_render (vs : List Tree) (hvs : ∀ v ∈ vs, v.Reads) (hf : sizeItems vs ≤ fuel) (hd : depthItems vs ≤ depth)
    (rest : Bytes) : moreItems fuel depth (renderItems vs ++ rest) = some (vs, rest) := by
  induction vs generalizing fuel with
  | nil =>
    obtain ⟨fuel, rfl⟩ : ∃ n, fuel = n + 1 := ⟨fuel - 1, (Nat.sub_add_cancel hf).symm⟩
    show moreItems (fuel + 1) depth (ch ']' :: rest) = _
    rw [moreItems, expect_hit (by decide)]
  | cons v vs ih =>
    simp only [sizeItems_cons, depthItems_cons] at hf hd
    obtain ⟨fuel, rfl⟩ : ∃ n, fuel = n + 1 := ⟨fuel - 1, by omega⟩
    have hv := hvs v List.mem_cons_self fuel depth (renderItems vs ++ rest) (by omega) (by omega) (numEnd_items vs)
    have hm := ih (fun w hw => hvs w (List.mem_cons_of_mem _ hw)) (by omega : sizeItems vs ≤ fuel) (by omega)
    rw [renderItems_cons, List.cons_append, List.append_assoc, moreItems, expect_miss (by decide) (by decide)]
    simp [expect_hit (by decide : isSpace (ch ',') = false), hv, hm]

theorem items_render (vs : List Tree) (hvs : ∀ v ∈ vs, v.Reads) (hf : (Tree.arr vs).size ≤ fuel + 1)
    (hd : depthItems vs ≤ depth) (rest : Bytes) :
    ∃ t, (Tree.arr vs).render = ch '[' :: t ∧ items fuel depth (t ++ rest) = some (vs, rest) := by
  cases vs with
  | nil =>
    obtain ⟨fuel, rfl⟩ : ∃ n, fuel = n + 1 := ⟨fuel - 1, (Nat.sub_add_cancel (Nat.le_of_succ_le_succ hf)).symm⟩
    refine ⟨[ch ']'], rfl, ?_⟩
    rw [List.singleton_append, items, expect_hit (by decide)]
  | cons v vs =>
    simp only [Tree.size_arr, depthItems_cons] at hf hd
    obtain ⟨fuel, rfl⟩ : ∃ n, fuel = n + 1 := ⟨fuel - 1, by omega⟩
    have hv := hvs v List.mem_cons_self fuel depth (renderItems vs ++ rest) (by omega) (by omega) (numEnd_items vs)
    have hm := moreItems_render vs (fun w hw => hvs w (List.mem_cons_of_mem _ hw)) (by omega : sizeItems vs ≤ fuel)
      (by omega : depthItems vs ≤ depth) rest
    refine ⟨v.render ++ renderItems vs, v.render_arr vs, ?_⟩
    rw [List.append_assoc, items, v.expect_render (.inl rfl)]
    simp [hv, hm]

theorem moreMembers_render (ms : List (StrLit × Tree)) (hms : ∀ m ∈ ms, m.2.Reads) (hf : sizeMembers ms ≤ fuel)
    (hd : depthMembers ms ≤ depth) (rest : Bytes) :
    moreMembers fuel depth (renderMembers ms ++ rest) = some (ms.map memberOf, rest) := by
  induction ms generalizing fuel with
  | nil =>
    obtain ⟨fuel, rfl⟩ : ∃ n, fuel = n + 1 := ⟨fuel - 1, (Nat.sub_add_cancel hf).symm⟩
    show moreMembers (fuel + 1) depth (ch '}' :: rest) = _
    rw [moreMembers, expect_hit (by decide)]
    rfl
  | cons m ms ih =>
    obtain ⟨k, v⟩ := m
    simp only [sizeMembers_cons, depthMembers_cons] at hf hd
    obtain ⟨fuel, rfl⟩ : ∃ n, fuel = n + 2 := ⟨fuel - 2, by omega⟩
    have hreads : v.Reads := hms (k, v) List.mem_cons_self
    have hv := hreads fuel depth (renderMembers ms ++ rest) (by omega) (by omega) (numEnd_members ms)
    have hm := ih (fun w hw => hms w (List.mem_cons_of_mem _ hw)) (by omega : sizeMembers ms ≤ fuel + 1) (by omega)
    rw [renderMembers_cons, List.cons_append, List.append_assoc, List.cons_append, List.append_assoc, moreMembers,
      expect_miss (by decide) (by decide)]
    simp [expect_hit (by decide : isSpace (ch ',') = false), member_render hv, hm]

theorem members_render (ms : List (StrLit × Tree)) (hms : ∀ m ∈ ms, m.2.Reads) (hf : (Tree.obj ms).size ≤ fuel + 1)
    (hd : depthMembers ms ≤ depth) (rest : Bytes) :
    ∃ t, (Tree.obj ms).render = ch '{' :: t ∧ members fuel depth (t ++ rest) = some (ms.map memberOf, rest) := by
  cases ms with
  | nil =>
    obtain ⟨fuel, rfl⟩ : ∃ n, fuel = n + 1 := ⟨fuel - 1, (Nat.sub_add_cancel (Nat.le_of_succ_le_succ hf)).symm⟩
    refine ⟨[ch '}'], rfl, ?_⟩
    rw [List.singleton_append, members, expect_hit (by decide)]
    rfl
  | cons m ms =>
    obtain ⟨k, v⟩ := m
    simp only [Tree.size_obj, depthMembers_cons] at hf hd
    obtain ⟨fuel, rfl⟩ : ∃ n, fuel = n + 2 := ⟨fuel - 2, by have := v.size_pos; omega⟩
    have hreads : v.Reads := hms (k, v) List.mem_cons_self
    have hv := hreads fuel depth (renderMembers ms ++ rest) (by omega) (by omega) (numEnd_members ms)
    have hm := moreMembers_render ms (fun w hw => hms w (List.mem_cons_of_mem _ hw)) (by omega : sizeMembers ms ≤ fuel + 1)
      (by omega : depthMembers ms ≤ depth) rest
    refine ⟨quoted k ++ ch ':' :: (v.render ++ renderMembers ms), Tree.render_obj (k, v) ms, ?_⟩
    have hmiss : expect (ch '}') (quoted k ++ ch ':' :: (v.render ++ (renderMembers ms ++ rest))) = none :=
      expect_miss (by decide) (by decide)
    rw [List.append_assoc, List.cons_append, List.append_assoc, members, hmiss]
    simp [member_render hv, hm]

theorem value_render (v : Tree) : v.Reads := by
  induction v using Tree.induct with
  | null =>
    intro fuel depth rest hf _ _
    obtain ⟨fuel, rfl⟩ : ∃ n, fuel = n + 1 := ⟨fuel - 1, (Nat.sub_add_cancel hf).symm⟩
    exact value_null
  | bool x =>
    intro fuel depth rest hf _ _
    obtain ⟨fuel, rfl⟩ : ∃ n, fuel = n + 1 := ⟨fuel - 1, (Nat.sub_add_cancel hf).symm⟩
    exact value_bool x
  | num n =>
    intro fuel depth rest hf _ hr
    obtain ⟨fuel, rfl⟩ : ∃ n, fuel = n + 1 := ⟨fuel - 1, (Nat.sub_add_cancel hf).symm⟩
    exact value_num n hr
  | str s =>
    intro fuel depth rest hf _ _
    obtain ⟨fuel, rfl⟩ : ∃ n, fuel = n + 1 := ⟨fuel - 1, (Nat.sub_add_cancel hf).symm⟩
    exact value_str s
  | arr vs ih =>
    intro fuel depth rest hf hd _
    obtain ⟨fuel, rfl⟩ : ∃ n, fuel = n + 1 := ⟨fuel - 1, by have := (Tree.arr vs).size_pos; omega⟩
    rw [Tree.depth_arr] at hd
    obtain ⟨t, ht, hi⟩ := items_render vs ih hf (by omega : depthItems vs ≤ depth - 1) rest
    rw [ht]
    exact value_arr (by omega) hi
  | obj ms ih =>
    intro fuel depth rest hf hd _
    obtain ⟨fuel, rfl⟩ : ∃ n, fuel = n + 1 := ⟨fuel - 1, by have := (Tree.obj ms).size_pos; omega⟩
    rw [Tree.depth_obj] at hd
    obtain ⟨t, ht, hm⟩ := members_render ms ih hf (by omega : depthMembers ms ≤ depth - 1) rest
    rw [ht]
    have hback : (ms.map memberOf).map (fun m => (m.key, m.value)) = ms := by
      rw [List.map_map]
      exact List.map_id ms
    have := value_obj (by omega : depth ≠ 0) hm
    rwa [hback] at this

theorem sizeItems_le (vs : List Tree) (h : ∀ v ∈ vs, v.size ≤ 3 * v.render.length) :
    sizeItems vs ≤ 3 * (renderItems vs).length := by
  induction vs with
  | nil => exact Nat.le_add_left 1 2
  | cons v vs ih =>
    have hv := h v List.mem_cons_self
    have hvs := ih fun w hw => h w (List.mem_cons_of_mem _ hw)
    rw [sizeItems_cons, renderItems_cons, List.length_cons, List.length_append]
    omega

theorem sizeMembers_le (ms : List (StrLit × Tree)) (h : ∀ m ∈ ms, m.2.size ≤ 3 * m.2.render.length) :
    sizeMembers ms ≤ 3 * (renderMembers ms).length := by
  induction ms with
  | nil => exact Nat.le_add_left 1 2
  | cons m ms ih =>
    have hv := h m List.mem_cons_self
    have hms := ih fun w hw => h w (List.mem_cons_of_mem _ hw)
    rw [sizeMembers_cons, renderMembers_cons]
    simp only [List.length_cons, List.length_append]
    omega

/-- The fuel is enough for the text. -/
theorem Tree.size_le (v : Tree) : v.size ≤ 3 * v.render.length := by
  have hleaf : ∀ w : Tree, w.size = 1 → w.size ≤ 3 * w.render.length := by
    intro w hw
    obtain ⟨b, t, ht, -⟩ := w.render_head
    rw [hw, ht, List.length_cons]
    omega
  induction v using Tree.induct with
  | null => exact hleaf _ rfl
  | bool b => exact hleaf _ rfl
  | num n => exact hleaf _ rfl
  | str s => exact hleaf _ rfl
  | arr vs ih =>
    cases vs with
    | nil => exact Nat.le_add_left 2 4
    | cons v vs =>
      have hv := ih v List.mem_cons_self
      have hvs := sizeItems_le vs fun w hw => ih w (List.mem_cons_of_mem _ hw)
      rw [Tree.size_arr, Tree.render_arr, List.length_cons, List.length_append]
      omega
  | obj ms ih =>
    cases ms with
    | nil => exact Nat.le_add_left 2 4
    | cons m ms =>
      have hv := ih m List.mem_cons_self
      have hms := sizeMembers_le ms fun w hw => ih w (List.mem_cons_of_mem _ hw)
      rw [Tree.size_obj, Tree.render_obj]
      simp only [List.length_cons, List.length_append]
      omega

theorem next_render (v : Tree) (hd : v.depth ≤ maxDepth) (h : NumEnd rest) : next (v.render ++ rest) = some (v, rest) := by
  have := v.size_le
  refine value_render v _ _ rest ?_ hd h
  rw [fuelFor, List.length_append]
  omega

theorem NumEnd.nil : NumEnd [] := fun _ hb => absurd hb (Option.not_mem_none _)

/-- The tree that was rendered. -/
theorem parse_render (v : Tree) (hd : v.depth ≤ maxDepth) : parse v.render = some v := by
  have h := next_render v hd .nil
  rw [List.append_nil] at h
  rw [parse, h]
  rfl

end

/-! ## What a tree says -/

inductive Value where
  | null
  | bool (b : Bool)
  | num (text : Bytes)
  | str (text : String)
  | arr (items : List Value)
  | obj (members : List (String × Value))

mutual

/-- The value of a tree. A number is known by its digits. -/
def Tree.denote : Tree → Value
  | .null => .null
  | .bool b => .bool b
  | .num n => .num n.text
  | .str s => .str (unquote s)
  | .arr vs => .arr (denoteItems vs)
  | .obj ms => .obj (denoteMembers ms)

def denoteItems : List Tree → List Value
  | [] => []
  | v :: vs => v.denote :: denoteItems vs

def denoteMembers : List (StrLit × Tree) → List (String × Value)
  | [] => []
  | (k, v) :: ms => (unquote k, v.denote) :: denoteMembers ms

end

mutual

/-- HTML escaped in every string. -/
def Tree.escapeHTML : Tree → Tree
  | .str s => .str (Json.escapeHTML s)
  | .arr vs => .arr (escapeItems vs)
  | .obj ms => .obj (escapeMembers ms)
  | v => v

def escapeItems : List Tree → List Tree
  | [] => []
  | v :: vs => v.escapeHTML :: escapeItems vs

def escapeMembers : List (StrLit × Tree) → List (StrLit × Tree)
  | [] => []
  | (k, v) :: ms => (Json.escapeHTML k, v.escapeHTML) :: escapeMembers ms

end

/-- Escaping changes neither the value nor the depth. -/
theorem Tree.escapeHTML_spec (v : Tree) : v.escapeHTML.denote = v.denote ∧ v.escapeHTML.depth = v.depth := by
  induction v using Tree.induct with
  | null => exact ⟨rfl, rfl⟩
  | bool b => exact ⟨rfl, rfl⟩
  | num n => exact ⟨rfl, rfl⟩
  | str s => exact ⟨by simp only [Tree.escapeHTML, Tree.denote, unquote_escapeHTML], rfl⟩
  | arr vs ih =>
    have h : denoteItems (escapeItems vs) = denoteItems vs ∧ depthItems (escapeItems vs) = depthItems vs := by
      induction vs with
      | nil => exact ⟨rfl, rfl⟩
      | cons v vs ihs =>
        obtain ⟨h1, h2⟩ := ih v List.mem_cons_self
        obtain ⟨h3, h4⟩ := ihs fun w hw => ih w (List.mem_cons_of_mem _ hw)
        simp only [escapeItems, denoteItems, depthItems, h1, h2, h3, h4, and_self]
    simp only [Tree.escapeHTML, Tree.denote, Tree.depth, h.1, h.2, and_self]
  | obj ms ih =>
    have h : denoteMembers (escapeMembers ms) = denoteMembers ms ∧ depthMembers (escapeMembers ms) = depthMembers ms := by
      induction ms with
      | nil => exact ⟨rfl, rfl⟩
      | cons m ms ihs =>
        obtain ⟨h1, h2⟩ := ih m List.mem_cons_self
        obtain ⟨h3, h4⟩ := ihs fun w hw => ih w (List.mem_cons_of_mem _ hw)
        simp only [escapeMembers, denoteMembers, depthMembers, unquote_escapeHTML, h1, h2, h3, h4, and_self]
    simp only [Tree.escapeHTML, Tree.denote, Tree.depth, h.1, h.2, and_self]

end Json
