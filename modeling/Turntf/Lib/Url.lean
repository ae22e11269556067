/-
  Turntf.Lib.Url — request targets: a path of escaped segments and a query of escaped pairs.

  An `Escaping` says which bytes of a component are written as they are; the others become a
  percent sign and two hexadecimal digits, a space possibly a plus sign. Writing joins components
  by the separators, reading splits at them first and undoes the escapes then, so a separator
  inside a component has to be escaped.

  - `unescape_escape`: what is escaped is read back.
  - `parseQuery_encode`: so are the pairs of a query, and `lookup_set` says what a key stands for.
  - `parseTarget_target`: so are a path and a query that make a target.
  - `locate_target`: and by a reader that cleans paths, if the segments are not empty and not dots;
    `..` takes the segment before it away (`locate_parent`).
-/

import Mathlib.Data.List.Induction
import Turntf.Lib.Document
import Turntf.Lib.Json.Strings

namespace Url

open Json (hexValue)

def space : UInt8 := 32
def percent : UInt8 := 37
def ampersand : UInt8 := 38
def plus : UInt8 := 43
def dot : UInt8 := 46
def slash : UInt8 := 47
def equals : UInt8 := 61
def question : UInt8 := 63

/-! ## Escapes -/

structure Escaping where
  /-- The bytes that are written as they are. -/
  keep : UInt8 → Bool
  /-- A space is written as a plus sign. -/
  spacePlus : Bool
  keep_percent : keep percent = false
  keep_plus : spacePlus = true → keep plus = false

def hexDigit (n : Nat) : UInt8 := if n < 10 then UInt8.ofNat (48 + n) else UInt8.ofNat (55 + n)

def isHexDigit (b : UInt8) : Bool := (48 ≤ b && b ≤ 57) || (65 ≤ b && b ≤ 70)

theorem hexDigit_spec : ∀ n < 16, hexValue (hexDigit n) = some n ∧ isHexDigit (hexDigit n) = true := by decide

namespace Escaping

variable (e : Escaping)

def escapeByte (b : UInt8) : List UInt8 :=
  if e.spacePlus = true ∧ b = space then [plus]
  else if e.keep b then [b]
  else [percent, hexDigit (b.toNat / 16), hexDigit (b.toNat % 16)]

def escape (s : List UInt8) : List UInt8 := s.flatMap e.escapeByte

def unescape : List UInt8 → Option (List UInt8)
  | [] => some []
  | b :: t =>
    if b = percent then
      match t with
      | hi :: lo :: rest =>
        (hexValue hi).bind fun h => (hexValue lo).bind fun l => (unescape rest).map (UInt8.ofNat (16 * h + l) :: ·)
      | _ => none
    else (unescape t).map ((if e.spacePlus = true ∧ b = plus then space else b) :: ·)

/-- The bytes that an escaped component is made of. -/
def writes (b : UInt8) : Bool := e.keep b || (e.spacePlus && b == plus) || b == percent || isHexDigit b

theorem unescape_cons {b : UInt8} (hb : b ≠ percent) (t : List UInt8) :
    e.unescape (b :: t) = (e.unescape t).map ((if e.spacePlus = true ∧ b = plus then space else b) :: ·) := by
  rw [unescape.eq_def]
  exact if_neg hb

theorem unescape_plain {b : UInt8} (hb : e.keep b = true) (t : List UInt8) :
    e.unescape (b :: t) = (e.unescape t).map (b :: ·) := by
  have hpercent : b ≠ percent := by
    rintro rfl
    rw [e.keep_percent] at hb
    cases hb
  have hplus : ¬ (e.spacePlus = true ∧ b = plus) := by
    rintro ⟨hs, rfl⟩
    rw [e.keep_plus hs] at hb
    cases hb
  rw [e.unescape_cons hpercent, if_neg hplus]

/-- The two digits of a byte. -/
theorem digits_lt (b : UInt8) : b.toNat / 16 < 16 ∧ b.toNat % 16 < 16 := by
  have hlt := b.toNat_lt
  omega

theorem unescape_escapeByte (b : UInt8) (t : List UInt8) :
    e.unescape (e.escapeByte b ++ t) = (e.unescape t).map (b :: ·) := by
  rw [escapeByte]
  split
  · rename_i h
    rw [List.singleton_append, e.unescape_cons (by decide), if_pos ⟨h.1, rfl⟩, h.2]
  · split
    · rename_i hb
      exact e.unescape_plain hb t
    · show e.unescape (percent :: _ :: _ :: t) = _
      have hb : UInt8.ofNat (16 * (b.toNat / 16) + b.toNat % 16) = b := by rw [Nat.div_add_mod, UInt8.ofNat_toNat]
      rw [unescape, if_pos rfl, (hexDigit_spec _ (digits_lt b).1).1, (hexDigit_spec _ (digits_lt b).2).1, Option.bind_some,
        Option.bind_some, hb]

theorem unescape_escape (s : List UInt8) : e.unescape (e.escape s) = some s := by
  induction s with
  | nil => rfl
  | cons b s ih =>
    show e.unescape (e.escapeByte b ++ e.escape s) = _
    rw [unescape_escapeByte, ih]
    rfl

theorem unescape_self {s : List UInt8} (h : ∀ b ∈ s, e.keep b = true) : e.unescape s = some s := by
  induction s with
  | nil => rfl
  | cons b s ih =>
    rw [e.unescape_plain (h b List.mem_cons_self), ih fun c hc => h c (List.mem_cons_of_mem _ hc)]
    rfl

theorem writes_escape {s : List UInt8} {b : UInt8} (h : b ∈ e.escape s) : e.writes b = true := by
  obtain ⟨c, -, hb⟩ := List.mem_flatMap.mp h
  rw [escapeByte] at hb
  split at hb
  · rename_i hs
    simp [writes, List.mem_singleton.mp hb, hs.1]
  · split at hb
    · rename_i hk
      simp [writes, List.mem_singleton.mp hb, hk]
    · simp only [List.mem_cons, List.not_mem_nil, or_false] at hb
      rcases hb with rfl | rfl | rfl
      · simp [writes]
      · simp [writes, (hexDigit_spec _ (digits_lt c).1).2]
      · simp [writes, (hexDigit_spec _ (digits_lt c).2).2]

theorem not_mem_escape {b : UInt8} (h : e.writes b = false) (s : List UInt8) : b ∉ e.escape s := by
  intro hb
  rw [e.writes_escape hb] at h
  cases h

end Escaping

def isLetterOrDigit (b : UInt8) : Bool := (48 ≤ b && b ≤ 57) || (65 ≤ b && b ≤ 90) || (97 ≤ b && b ≤ 122)

/-- Letters, digits and `-`, `.`, `_`, `~`. -/
def isUnreserved (b : UInt8) : Bool := isLetterOrDigit b || b == 45 || b == 46 || b == 95 || b == 126

/-- A segment of a path also keeps `$`, `&`, `+`, `:`, `=` and `@`. -/
def pathSegment : Escaping where
  keep b := isUnreserved b || b == 36 || b == 38 || b == 43 || b == 58 || b == 61 || b == 64
  spacePlus := false
  keep_percent := by decide
  keep_plus h := Bool.noConfusion h

def queryComponent : Escaping where
  keep := isUnreserved
  spacePlus := true
  keep_percent := by decide
  keep_plus _ := by decide

/-! ## Queries -/

/-- Keys and their values, in the order of the keys. -/
abbrev Values := List (List UInt8 × List UInt8)

def Values.set (k v : List UInt8) : Values → Values
  | [] => [(k, v)]
  | p :: vs => if k = p.1 then (k, v) :: vs else if k < p.1 then (k, v) :: p :: vs else p :: Values.set k v vs

def Values.setIf (c : Prop) [Decidable c] (k v : List UInt8) (vs : Values) : Values := if c then vs.set k v else vs

def pair (p : List UInt8 × List UInt8) : List UInt8 :=
  queryComponent.escape p.1 ++ equals :: queryComponent.escape p.2

def encode (vs : Values) : List UInt8 := [ampersand].intercalate (vs.map pair)

/-- What stands before the first `sep`, and what follows it. -/
def cut (sep : UInt8) (t : List UInt8) : List UInt8 × List UInt8 :=
  (t.takeWhile (· ≠ sep), (t.dropWhile (· ≠ sep)).drop 1)

def parsePair (t : List UInt8) : Option (List UInt8 × List UInt8) :=
  (queryComponent.unescape (cut equals t).1).bind fun k => (queryComponent.unescape (cut equals t).2).map fun v => (k, v)

def parseQuery (t : List UInt8) : Option Values := ((t.splitOn ampersand).filter (· ≠ [])).mapM parsePair

theorem lookup_set (k v : List UInt8) (vs : Values) (k' : List UInt8) :
    (vs.set k v).lookup k' = if k' = k then some v else vs.lookup k' := by
  induction vs with
  | nil => exact Document.lookup_cons_if k v [] k'
  | cons p vs ih =>
    rw [Values.set]
    by_cases hk : k = p.1
    · rw [if_pos hk, Document.lookup_cons_if, Document.lookup_cons_if, hk]
      split <;> rfl
    · rw [if_neg hk]
      by_cases hlt : k < p.1
      · rw [if_pos hlt, Document.lookup_cons_if]
      · rw [if_neg hlt, Document.lookup_cons_if, Document.lookup_cons_if, ih]
        by_cases h : k' = p.1
        · rw [if_pos h, if_pos h, if_neg (h ▸ Ne.symm hk)]
        · rw [if_neg h, if_neg h]

theorem lookup_setIf (c : Prop) [Decidable c] (k v : List UInt8) (vs : Values) (k' : List UInt8) :
    (vs.setIf c k v).lookup k' = if c ∧ k' = k then some v else vs.lookup k' := by
  rw [Values.setIf]
  by_cases h : c
  · rw [if_pos h, lookup_set]
    simp [h]
  · rw [if_neg h, if_neg fun hc => h hc.1]

section

variable {sep : UInt8} {a b : List UInt8}

theorem cut_append (h : sep ∉ a) : cut sep (a ++ sep :: b) = (a, b) := by
  have ha : ∀ c ∈ a, decide (c ≠ sep) = true := fun c hc => decide_eq_true fun he => h (he ▸ hc)
  rw [cut, List.takeWhile_append_of_pos ha, List.dropWhile_append_of_pos ha]
  simp

theorem cut_self (h : sep ∉ a) : cut sep a = (a, []) := by
  have ha : ∀ c ∈ a, decide (c ≠ sep) = true := fun c hc => decide_eq_true fun he => h (he ▸ hc)
  have htake : (a ++ []).takeWhile (· ≠ sep) = a ++ [] := List.takeWhile_append_of_pos ha
  have hdrop : (a ++ []).dropWhile (· ≠ sep) = [] := List.dropWhile_append_of_pos ha
  rw [List.append_nil] at htake hdrop
  rw [cut, htake, hdrop]
  rfl

end

theorem parsePair_pair (p : List UInt8 × List UInt8) : parsePair (pair p) = some p := by
  have h : equals ∉ queryComponent.escape p.1 := queryComponent.not_mem_escape (by decide) _
  rw [parsePair, pair, cut_append h]
  simp only [Escaping.unescape_escape, Option.bind_some, Option.map_some]

theorem not_mem_pair {b : UInt8} (hb : queryComponent.writes b = false) (he : b ≠ equals) (p : List UInt8 × List UInt8) :
    b ∉ pair p := by
  intro h
  rcases List.mem_append.mp h with h | h
  · exact queryComponent.not_mem_escape hb _ h
  · rcases List.mem_cons.mp h with h | h
    · exact he h
    · exact queryComponent.not_mem_escape hb _ h

theorem mapM_pairs (vs : Values) : (vs.map pair).mapM parsePair = some vs := by
  induction vs with
  | nil => rfl
  | cons p vs ih => simp [List.mapM_cons, parsePair_pair, ih]

theorem parseQuery_encode (vs : Values) : parseQuery (encode vs) = some vs := by
  by_cases hvs : vs = []
  · subst hvs
    rfl
  · have hsep : ∀ t ∈ vs.map pair, ampersand ∉ t := by
      intro t ht
      obtain ⟨p, -, rfl⟩ := List.mem_map.mp ht
      exact not_mem_pair (by decide) (by decide) p
    have hne : ∀ t ∈ vs.map pair, decide (t ≠ []) = true := by
      intro t ht
      obtain ⟨p, -, rfl⟩ := List.mem_map.mp ht
      exact decide_eq_true (List.append_ne_nil_of_right_ne_nil _ (List.cons_ne_nil _ _))
    rw [parseQuery, encode, List.splitOn_intercalate ampersand hsep (by simpa using hvs), List.filter_eq_self.mpr hne]
    exact mapM_pairs vs

/-! ## Targets -/

/-- The path of some segments, each as it is written. -/
def path (segs : List (List UInt8)) : List UInt8 := segs.flatMap (slash :: ·)

def target (segs : List (List UInt8)) (vs : Values) : List UInt8 :=
  if encode vs = [] then path segs else path segs ++ question :: encode vs

def parsePath (t : List UInt8) : Option (List (List UInt8)) :=
  match t.splitOn slash with
  | [] :: segs => segs.mapM pathSegment.unescape
  | _ => none

def parseTarget (t : List UInt8) : Option (List (List UInt8) × Values) :=
  (parsePath (cut question t).1).bind fun segs => (parseQuery (cut question t).2).map fun vs => (segs, vs)

/-- Left out by a reader that cleans the path are empty segments and `.`, and `..` with the segment
    before it. -/
def clean (segs : List (List UInt8)) : List (List UInt8) :=
  segs.foldl (fun acc s => if s = [] ∨ s = [dot] then acc else if s = [dot, dot] then acc.dropLast else acc ++ [s]) []

def locate (t : List UInt8) : Option (List (List UInt8) × Values) := (parseTarget t).map fun p => (clean p.1, p.2)

/-- A segment that cleaning keeps. -/
def Ordinary (s : List UInt8) : Prop := s ≠ [] ∧ s ≠ [dot] ∧ s ≠ [dot, dot]

instance (s : List UInt8) : Decidable (Ordinary s) := inferInstanceAs (Decidable (_ ∧ _))

theorem Ordinary.of_no_dot {s : List UInt8} (hne : s ≠ []) (h : dot ∉ s) : Ordinary s := by
  refine ⟨hne, ?_, ?_⟩
  · rintro rfl
    exact h List.mem_cons_self
  · rintro rfl
    exact h List.mem_cons_self

/-- The segment `s` is written `raw`. -/
structure Segment (raw s : List UInt8) : Prop where
  noSlash : slash ∉ raw
  noQuestion : question ∉ raw
  reads : pathSegment.unescape raw = some s

theorem Segment.escaped (s : List UInt8) : Segment (pathSegment.escape s) s where
  noSlash := pathSegment.not_mem_escape (by decide) s
  noQuestion := pathSegment.not_mem_escape (by decide) s
  reads := pathSegment.unescape_escape s

theorem Segment.plain {s : List UInt8} (h : ∀ b ∈ s, pathSegment.keep b = true) : Segment s s where
  noSlash hs := absurd (h _ hs) (by decide)
  noQuestion hs := absurd (h _ hs) (by decide)
  reads := pathSegment.unescape_self h

variable {raws segs : List (List UInt8)}

theorem intercalate_path (raws : List (List UInt8)) : [slash].intercalate ([] :: raws) = path raws := by
  have hcons : ∀ (raws : List (List UInt8)) (r : List UInt8), [slash].intercalate (r :: raws) = r ++ path raws := by
    intro raws
    induction raws with
    | nil => intro r; simp [path]
    | cons r' raws ih =>
      intro r
      rw [List.intercalate_cons_cons, ih r', List.append_assoc]
      rfl
  exact hcons raws []

theorem mapM_unescape (h : List.Forall₂ Segment raws segs) : raws.mapM pathSegment.unescape = some segs := by
  induction h with
  | nil => rfl
  | cons hs _ ih => simp [List.mapM_cons, hs.reads, ih]

theorem forall_raw {P : List UInt8 → Prop} (hP : ∀ raw s, Segment raw s → P raw) (h : List.Forall₂ Segment raws segs) :
    ∀ raw ∈ raws, P raw := by
  induction h with
  | nil => simp
  | cons hs _ ih =>
    intro raw hr
    rcases List.mem_cons.mp hr with rfl | hr
    · exact hP _ _ hs
    · exact ih raw hr

theorem parsePath_path (h : List.Forall₂ Segment raws segs) : parsePath (path raws) = some segs := by
  have hsep : ∀ t ∈ [] :: raws, slash ∉ t := by
    intro t ht
    rcases List.mem_cons.mp ht with rfl | ht
    · exact List.not_mem_nil
    · exact forall_raw (P := fun raw => slash ∉ raw) (fun _ _ hs => hs.noSlash) h t ht
  rw [parsePath, ← intercalate_path, List.splitOn_intercalate slash hsep (List.cons_ne_nil _ _)]
  exact mapM_unescape h

theorem question_not_mem_path (h : List.Forall₂ Segment raws segs) : question ∉ path raws := by
  intro hq
  obtain ⟨raw, hr, hq⟩ := List.mem_flatMap.mp hq
  rcases List.mem_cons.mp hq with hq | hq
  · exact absurd hq (by decide)
  · exact forall_raw (P := fun raw => question ∉ raw) (fun _ _ hs => hs.noQuestion) h raw hr hq

theorem parseTarget_target (h : List.Forall₂ Segment raws segs) (vs : Values) :
    parseTarget (target raws vs) = some (segs, vs) := by
  have hq := question_not_mem_path h
  have hcut : cut question (target raws vs) = (path raws, encode vs) := by
    rw [target]
    split
    · rename_i hnil
      rw [cut_self hq, hnil]
    · exact cut_append hq
  rw [parseTarget, hcut, parsePath_path h, parseQuery_encode]
  rfl

theorem clean_snoc (segs : List (List UInt8)) (s : List UInt8) : clean (segs ++ [s]) =
    if s = [] ∨ s = [dot] then clean segs else if s = [dot, dot] then (clean segs).dropLast else clean segs ++ [s] := by
  rw [clean, List.foldl_append]
  rfl

theorem clean_self (h : ∀ s ∈ segs, Ordinary s) : clean segs = segs := by
  induction segs using List.reverseRecOn with
  | nil => rfl
  | append_singleton segs s ih =>
    obtain ⟨h₁, h₂, h₃⟩ := h s (by simp)
    rw [clean_snoc, if_neg (by simp [h₁, h₂]), if_neg h₃, ih fun s' hs' => h s' (List.mem_append_left _ hs')]

/-- `..` takes the segment before it away. -/
theorem clean_parent {s : List UInt8} (h : ∀ s ∈ segs, Ordinary s) (hs : Ordinary s) :
    clean (segs ++ [s] ++ [[dot, dot]]) = segs := by
  have hself : clean (segs ++ [s]) = segs ++ [s] := by
    refine clean_self fun s' hs' => ?_
    rcases List.mem_append.mp hs' with hs' | hs'
    · exact h s' hs'
    · rwa [List.mem_singleton.mp hs']
  rw [clean_snoc, if_neg (by decide), if_pos rfl, hself, List.dropLast_concat]

/-- The segment `s`, written `raw`, that cleaning keeps. -/
def Named (raw s : List UInt8) : Prop := Segment raw s ∧ Ordinary s

theorem Named.plain {s : List UInt8} (h : ∀ b ∈ s, pathSegment.keep b = true) (ho : Ordinary s) : Named s s := ⟨.plain h, ho⟩

theorem Named.escaped {s : List UInt8} (ho : Ordinary s) : Named (pathSegment.escape s) s := ⟨.escaped s, ho⟩

theorem forall_ordinary (h : List.Forall₂ Named raws segs) : ∀ s ∈ segs, Ordinary s := by
  induction h with
  | nil => exact fun _ hs => absurd hs List.not_mem_nil
  | cons hn _ ih =>
    intro s hs
    rcases List.mem_cons.mp hs with rfl | hs
    · exact hn.2
    · exact ih s hs

theorem locate_target (h : List.Forall₂ Named raws segs) (vs : Values) : locate (target raws vs) = some (segs, vs) := by
  rw [locate, parseTarget_target (h.imp fun _ _ hn => hn.1), Option.map_some, clean_self (forall_ordinary h)]

theorem locate_parent {raw s : List UInt8} (h : List.Forall₂ Named raws segs) (hs : Named raw s) (vs : Values) :
    locate (target (raws ++ [raw] ++ [pathSegment.escape [dot, dot]]) vs) = some (segs, vs) := by
  have hseg : List.Forall₂ Segment (raws ++ [raw] ++ [pathSegment.escape [dot, dot]]) (segs ++ [s] ++ [[dot, dot]]) := by
    rw [List.append_assoc, List.append_assoc]
    exact List.rel_append (h.imp fun _ _ hn => hn.1) (.cons hs.1 (.cons (.escaped _) .nil))
  rw [locate, parseTarget_target hseg, Option.map_some, clean_parent (forall_ordinary h) hs.2]

theorem target_nil (raws : List (List UInt8)) : target raws [] = path raws := if_pos rfl

end Url
