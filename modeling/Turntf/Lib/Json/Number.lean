/-
  Turntf.Lib.Json.Number — JSON number literals.

  `IsNumber` is the grammar of RFC 8259: an optional minus, an integer without leading zeros, an
  optional fraction and an optional exponent. `NumState.step` is the machine that reads such a
  literal byte by byte; a byte that does not continue the literal ends it, or is an error if no
  literal may end there.

  - `isNumber_iff`: the machine accepts exactly the grammar. One step keeps what has been read in
    the shape of its state (`Read.step`); the pieces of a literal take the machine from state to
    state (`IsNumber.run`).
  - `scan_sound`, `scan_complete`: what `scan` takes off a text is the literal in front of it.
-/

import Mathlib.Data.List.Basic

namespace Json

abbrev Bytes := List UInt8

/-- The byte of an ASCII character. -/
def ch (c : Char) : UInt8 := c.toNat.toUInt8

def isDigit (b : UInt8) : Bool := ch '0' ≤ b && b ≤ ch '9'

/-! ## The grammar -/

def IsDigits (t : Bytes) : Prop := t ≠ [] ∧ ∀ b ∈ t, isDigit b = true

def IsMinus (t : Bytes) : Prop := t = [] ∨ t = [ch '-']

def IsInt (t : Bytes) : Prop :=
  t = [ch '0'] ∨ ∃ d ds, t = d :: ds ∧ isDigit d = true ∧ d ≠ ch '0' ∧ ∀ b ∈ ds, isDigit b = true

def IsFrac (t : Bytes) : Prop := t = [] ∨ ∃ ds, t = ch '.' :: ds ∧ IsDigits ds

def IsSign (t : Bytes) : Prop := t = [] ∨ t = [ch '+'] ∨ t = [ch '-']

def IsExp (t : Bytes) : Prop :=
  t = [] ∨ ∃ e sign ds, t = e :: (sign ++ ds) ∧ (e = ch 'e' ∨ e = ch 'E') ∧ IsSign sign ∧ IsDigits ds

/-- A number literal. -/
def IsNumber (t : Bytes) : Prop :=
  ∃ minus int frac exp, t = minus ++ int ++ frac ++ exp ∧ IsMinus minus ∧ IsInt int ∧ IsFrac frac ∧ IsExp exp

/-! ## The machine -/

inductive NumState where
  | start
  | neg
  | zero
  | int
  | dot
  | frac
  | e
  | sign
  | exp
  deriving DecidableEq

namespace NumState

/-- The literal may end here. -/
def accepts : NumState → Bool
  | .zero | .int | .frac | .exp => true
  | _ => false

/-- After the digits of the fraction, and where there is none. -/
def afterFrac (b : UInt8) : Option NumState := if b = ch 'e' ∨ b = ch 'E' then some .e else none

/-- After the integer. -/
def afterInt (b : UInt8) : Option NumState := if b = ch '.' then some .dot else afterFrac b

def firstDigit (b : UInt8) : Option NumState :=
  if b = ch '0' then some .zero else if isDigit b then some .int else none

/-- The state after one more byte of the literal. -/
def step : NumState → UInt8 → Option NumState
  | .start, b => if b = ch '-' then some .neg else firstDigit b
  | .neg, b => firstDigit b
  | .zero, b => afterInt b
  | .int, b => if isDigit b then some .int else afterInt b
  | .dot, b => if isDigit b then some .frac else none
  | .frac, b => if isDigit b then some .frac else afterFrac b
  | .e, b => if b = ch '+' ∨ b = ch '-' then some .sign else if isDigit b then some .exp else none
  | .sign, b | .exp, b => if isDigit b then some .exp else none

def run : NumState → Bytes → Option NumState
  | s, [] => some s
  | s, b :: t => (s.step b).bind fun s' => run s' t

/-- The rest of the literal at the front of a text, and what follows it. -/
def scan : NumState → Bytes → Option (Bytes × Bytes)
  | s, [] => if s.accepts then some ([], []) else none
  | s, b :: t => match s.step b with
    | some s' => (scan s' t).map fun p => (b :: p.1, p.2)
    | none => if s.accepts then some ([], b :: t) else none

end NumState

/-- The machine accepts the text. -/
def isNumber (t : Bytes) : Bool := (NumState.start.run t).any NumState.accepts

/-- A number literal, kept as it is written. -/
structure NumLit where
  text : Bytes
  valid : isNumber text = true

/-! ## The machine accepts only the grammar -/

/-- What has been read when the machine is in a state. -/
inductive Read : NumState → Bytes → Prop
  | start : Read .start []
  | neg : Read .neg [ch '-']
  | zero {minus : Bytes} (hm : IsMinus minus) : Read .zero (minus ++ [ch '0'])
  | int {minus int : Bytes} (hm : IsMinus minus) (hi : ∃ d ds, int = d :: ds ∧ isDigit d = true ∧ d ≠ ch '0' ∧
      ∀ b ∈ ds, isDigit b = true) : Read .int (minus ++ int)
  | dot {minus int : Bytes} (hm : IsMinus minus) (hi : IsInt int) : Read .dot (minus ++ int ++ [ch '.'])
  | frac {minus int ds : Bytes} (hm : IsMinus minus) (hi : IsInt int) (hd : IsDigits ds) :
      Read .frac (minus ++ int ++ ch '.' :: ds)
  | e {minus int frac : Bytes} {e : UInt8} (hm : IsMinus minus) (hi : IsInt int) (hf : IsFrac frac)
      (he : e = ch 'e' ∨ e = ch 'E') : Read .e (minus ++ int ++ frac ++ [e])
  | sign {minus int frac sign : Bytes} {e : UInt8} (hm : IsMinus minus) (hi : IsInt int) (hf : IsFrac frac)
      (he : e = ch 'e' ∨ e = ch 'E') (hs : IsSign sign) : Read .sign (minus ++ int ++ frac ++ e :: sign)
  | exp {minus int frac sign ds : Bytes} {e : UInt8} (hm : IsMinus minus) (hi : IsInt int) (hf : IsFrac frac)
      (he : e = ch 'e' ∨ e = ch 'E') (hs : IsSign sign) (hd : IsDigits ds) :
      Read .exp (minus ++ int ++ frac ++ e :: (sign ++ ds))

section

variable {s s' : NumState} {t t' : Bytes} {b : UInt8}

theorem IsDigits.one (h : isDigit b = true) : IsDigits [b] := by
  refine ⟨List.cons_ne_nil _ _, fun x hx => ?_⟩
  rw [List.mem_singleton.mp hx]
  exact h

theorem all_snoc {P : UInt8 → Prop} (h : ∀ x ∈ t, P x) (hb : P b) : ∀ x ∈ t ++ [b], P x := by
  intro x hx
  rcases List.mem_append.mp hx with hx | hx
  · exact h x hx
  · rw [List.mem_singleton.mp hx]
    exact hb

theorem IsDigits.snoc (h : IsDigits t) (hb : isDigit b = true) : IsDigits (t ++ [b]) :=
  ⟨by simp, all_snoc h.2 hb⟩

theorem Read.afterFrac {minus int frac : Bytes} (hm : IsMinus minus) (hi : IsInt int) (hf : IsFrac frac)
    (h : NumState.afterFrac b = some s) : Read s (minus ++ int ++ frac ++ [b]) := by
  unfold NumState.afterFrac at h
  by_cases he : b = ch 'e' ∨ b = ch 'E'
  · rw [if_pos he] at h
    cases h
    exact .e hm hi hf he
  · rw [if_neg he] at h
    cases h

theorem Read.afterInt {minus int : Bytes} (hm : IsMinus minus) (hi : IsInt int) (h : NumState.afterInt b = some s) :
    Read s (minus ++ int ++ [b]) := by
  unfold NumState.afterInt at h
  by_cases hd : b = ch '.'
  · rw [if_pos hd] at h
    cases h
    subst hd
    exact .dot hm hi
  · rw [if_neg hd] at h
    have := Read.afterFrac hm hi (.inl rfl) h
    rwa [List.append_nil] at this

theorem Read.firstDigit {minus : Bytes} (hm : IsMinus minus) (h : NumState.firstDigit b = some s) : Read s (minus ++ [b]) := by
  unfold NumState.firstDigit at h
  by_cases h0 : b = ch '0'
  · rw [if_pos h0] at h
    cases h
    subst h0
    exact .zero hm
  · rw [if_neg h0] at h
    by_cases hd : isDigit b = true
    · rw [if_pos hd] at h
      cases h
      exact .int hm ⟨b, [], rfl, hd, h0, fun x hx => absurd hx List.not_mem_nil⟩
    · rw [if_neg hd] at h
      cases h

theorem Read.step (h : Read s t) (hs : s.step b = some s') : Read s' (t ++ [b]) := by
  cases h with
  | start =>
    simp only [NumState.step] at hs
    by_cases hm : b = ch '-'
    · rw [if_pos hm] at hs
      cases hs
      subst hm
      exact .neg
    · rw [if_neg hm] at hs
      exact .firstDigit (.inl rfl) hs
  | neg => exact .firstDigit (.inr rfl) hs
  | zero hm => exact .afterInt hm (.inl rfl) hs
  | int hm hi =>
    simp only [NumState.step] at hs
    by_cases hd : isDigit b = true
    · rw [if_pos hd] at hs
      cases hs
      obtain ⟨d, ds, rfl, h1, h2, h3⟩ := hi
      rw [List.append_assoc]
      exact .int hm ⟨d, ds ++ [b], rfl, h1, h2, all_snoc h3 hd⟩
    · rw [if_neg hd] at hs
      exact .afterInt hm (.inr hi) hs
  | dot hm hi =>
    simp only [NumState.step] at hs
    by_cases hd : isDigit b = true
    · rw [if_pos hd] at hs
      cases hs
      rw [List.append_assoc]
      exact .frac hm hi (.one hd)
    · rw [if_neg hd] at hs
      cases hs
  | @frac minus int ds hm hi hds =>
    simp only [NumState.step] at hs
    by_cases hd : isDigit b = true
    · rw [if_pos hd] at hs
      cases hs
      rw [List.append_assoc, List.cons_append]
      exact .frac hm hi (hds.snoc hd)
    · rw [if_neg hd] at hs
      exact .afterFrac hm hi (.inr ⟨ds, rfl, hds⟩) hs
  | @e minus int frac e hm hi hf he =>
    simp only [NumState.step] at hs
    rw [List.append_assoc, List.singleton_append]
    by_cases hb : b = ch '+' ∨ b = ch '-'
    · rw [if_pos hb] at hs
      cases hs
      refine .sign hm hi hf he (.inr ?_)
      rcases hb with rfl | rfl
      · exact .inl rfl
      · exact .inr rfl
    · rw [if_neg hb] at hs
      by_cases hd : isDigit b = true
      · rw [if_pos hd] at hs
        cases hs
        exact .exp hm hi hf he (.inl rfl) (.one hd)
      · rw [if_neg hd] at hs
        cases hs
  | sign hm hi hf he hsg =>
    simp only [NumState.step] at hs
    by_cases hd : isDigit b = true
    · rw [if_pos hd] at hs
      cases hs
      rw [List.append_assoc, List.cons_append]
      exact .exp hm hi hf he hsg (.one hd)
    · rw [if_neg hd] at hs
      cases hs
  | @exp minus int frac sign ds e hm hi hf he hsg hds =>
    simp only [NumState.step] at hs
    by_cases hd : isDigit b = true
    · rw [if_pos hd] at hs
      cases hs
      rw [List.append_assoc, List.cons_append, List.append_assoc sign]
      exact .exp hm hi hf he hsg (hds.snoc hd)
    · rw [if_neg hd] at hs
      cases hs

theorem Read.run (h : Read s t) (hr : s.run t' = some s') : Read s' (t ++ t') := by
  induction t' generalizing s t with
  | nil =>
    cases hr
    rw [List.append_nil]
    exact h
  | cons b t' ih =>
    obtain ⟨u, hu, hr⟩ := Option.bind_eq_some_iff.mp hr
    have := ih (h.step hu) hr
    rwa [List.append_assoc] at this

/-- Where the machine accepts, a literal has been read. -/
theorem Read.number (h : Read s t) (ha : s.accepts = true) : IsNumber t := by
  cases h with
  | @zero minus hm => exact ⟨minus, [ch '0'], [], [], by simp, hm, .inl rfl, .inl rfl, .inl rfl⟩
  | @int minus int hm hi => exact ⟨minus, int, [], [], by simp, hm, .inr hi, .inl rfl, .inl rfl⟩
  | @frac minus int ds hm hi hd =>
    exact ⟨minus, int, ch '.' :: ds, [], by simp, hm, hi, .inr ⟨ds, rfl, hd⟩, .inl rfl⟩
  | @exp minus int frac sign ds e hm hi hf he hs hd =>
    exact ⟨minus, int, frac, e :: (sign ++ ds), rfl, hm, hi, hf, .inr ⟨e, sign, ds, rfl, he, hs, hd⟩⟩
  | _ => cases ha

/-! ## The machine accepts the whole grammar -/

theorem run_append (s : NumState) (t t' : Bytes) : s.run (t ++ t') = (s.run t).bind fun s' => s'.run t' := by
  induction t generalizing s with
  | nil => rfl
  | cons b t ih =>
    simp only [List.cons_append, NumState.run, Option.bind_assoc]
    congr 1
    funext s'
    exact ih s'

/-- A state that stays where it is over digits. -/
theorem run_digits (hs : ∀ b, isDigit b = true → s.step b = some s) (h : ∀ b ∈ t, isDigit b = true) : s.run t = some s := by
  induction t with
  | nil => rfl
  | cons b t ih =>
    rw [NumState.run, hs b (h b List.mem_cons_self)]
    exact ih fun x hx => h x (List.mem_cons_of_mem _ hx)

theorem IsDigits.run (h : IsDigits t) (hfirst : ∀ b, isDigit b = true → s.step b = some s')
    (hs : ∀ b, isDigit b = true → s'.step b = some s') : s.run t = some s' := by
  cases t with
  | nil => exact absurd rfl h.1
  | cons b t =>
    rw [NumState.run, hfirst b (h.2 b List.mem_cons_self)]
    exact run_digits hs fun x hx => h.2 x (List.mem_cons_of_mem _ hx)

theorem isDigit_ne (h : isDigit b = true) :
    b ≠ ch '-' ∧ b ≠ ch '+' ∧ b ≠ ch '.' ∧ b ≠ ch 'e' ∧ b ≠ ch 'E' := by
  refine ⟨?_, ?_, ?_, ?_, ?_⟩ <;> intro hb <;> rw [hb] at h <;> exact absurd h (by decide)

theorem IsMinus.run (h : IsMinus t) : NumState.start.run t = some .start ∨ NumState.start.run t = some .neg := by
  rcases h with rfl | rfl
  · exact .inl rfl
  · exact .inr rfl

theorem IsInt.run (h : IsInt t) (hs : s = .start ∨ s = .neg) : s.run t = some .zero ∨ s.run t = some .int := by
  have hfirst : ∀ b, b ≠ ch '-' → s.step b = NumState.firstDigit b := by
    intro b hb
    rcases hs with rfl | rfl
    · exact if_neg hb
    · rfl
  rcases h with rfl | ⟨d, ds, rfl, hd, h0, hds⟩
  · left
    rw [NumState.run, hfirst _ (by decide)]
    rfl
  · right
    rw [NumState.run, hfirst d (isDigit_ne hd).1, NumState.firstDigit, if_neg h0, if_pos hd]
    exact run_digits (fun b hb => if_pos hb) hds

theorem IsFrac.run (h : IsFrac t) (hs : s = .zero ∨ s = .int) : s.run t = some s ∨ s.run t = some .frac := by
  rcases h with rfl | ⟨ds, rfl, hd⟩
  · exact .inl rfl
  · right
    have hdot : s.step (ch '.') = some .dot := by rcases hs with rfl | rfl <;> rfl
    rw [NumState.run, hdot]
    exact hd.run (fun b hb => if_pos hb) fun b hb => if_pos hb

theorem IsExp.run (h : IsExp t) (hs : s = .zero ∨ s = .int ∨ s = .frac) : s.run t = some s ∨ s.run t = some .exp := by
  rcases h with rfl | ⟨e, sign, ds, rfl, he, hsg, hd⟩
  · exact .inl rfl
  · right
    have hse : s.step e = some .e := by
      rcases hs with rfl | rfl | rfl <;> rcases he with rfl | rfl <;> rfl
    rw [NumState.run, hse, Option.bind_some, run_append]
    have hexp : ∀ b, isDigit b = true → NumState.exp.step b = some .exp := fun b hb => if_pos hb
    rcases hsg with rfl | rfl | rfl
    · refine hd.run (fun b hb => ?_) hexp
      obtain ⟨h1, h2, -⟩ := isDigit_ne hb
      simp only [NumState.step]
      rw [if_neg (not_or.mpr ⟨h2, h1⟩), if_pos hb]
    · exact IsDigits.run (s := .sign) hd (fun b hb => if_pos hb) hexp
    · exact IsDigits.run (s := .sign) hd (fun b hb => if_pos hb) hexp

theorem IsNumber.run (h : IsNumber t) : ∃ s, NumState.start.run t = some s ∧ s.accepts = true := by
  obtain ⟨minus, int, frac, exp, rfl, hm, hi, hf, he⟩ := h
  obtain ⟨s₁, h1, hs₁⟩ : ∃ s, NumState.start.run minus = some s ∧ (s = .start ∨ s = .neg) := by
    rcases hm.run with h | h
    · exact ⟨_, h, .inl rfl⟩
    · exact ⟨_, h, .inr rfl⟩
  obtain ⟨s₂, h2, hs₂⟩ : ∃ s, s₁.run int = some s ∧ (s = .zero ∨ s = .int) := by
    rcases hi.run hs₁ with h | h
    · exact ⟨_, h, .inl rfl⟩
    · exact ⟨_, h, .inr rfl⟩
  obtain ⟨s₃, h3, hs₃⟩ : ∃ s, s₂.run frac = some s ∧ (s = .zero ∨ s = .int ∨ s = .frac) := by
    rcases hf.run hs₂ with h | h
    · exact ⟨_, h, hs₂.imp_right .inl⟩
    · exact ⟨_, h, .inr (.inr rfl)⟩
  have hrun : NumState.start.run (minus ++ int ++ frac ++ exp) = s₃.run exp := by
    rw [run_append, run_append, run_append, h1, Option.bind_some, h2, Option.bind_some, h3, Option.bind_some]
  rw [hrun]
  rcases he.run hs₃ with h | h
  · refine ⟨_, h, ?_⟩
    rcases hs₃ with rfl | rfl | rfl <;> rfl
  · exact ⟨_, h, rfl⟩

theorem isNumber_iff : isNumber t = true ↔ IsNumber t := by
  constructor
  · intro h
    cases hr : NumState.start.run t with
    | none => simp [isNumber, hr] at h
    | some s =>
      rw [isNumber, hr] at h
      exact (Read.run .start hr).number h
  · intro h
    obtain ⟨s, hr, ha⟩ := h.run
    rw [isNumber, hr]
    exact ha

/-! ## The literal in front of a text -/

/-- The bytes a number literal is made of. -/
def isNumByte (b : UInt8) : Bool :=
  isDigit b || b == ch '-' || b == ch '+' || b == ch '.' || b == ch 'e' || b == ch 'E'

/-- No number literal goes on into this text. -/
def NumEnd (t : Bytes) : Prop := ∀ b ∈ t.head?, isNumByte b = false

theorem step_numByte (h : isNumByte b = false) (s : NumState) : s.step b = none := by
  have h0 : b ≠ ch '0' := by
    intro hb
    rw [hb] at h
    exact absurd h (by decide)
  simp only [isNumByte, Bool.or_eq_false_iff, beq_eq_false_iff_ne] at h
  obtain ⟨⟨⟨⟨⟨hd, h1⟩, h2⟩, h3⟩, h4⟩, h5⟩ := h
  cases s <;> simp [NumState.step, NumState.firstDigit, NumState.afterInt, NumState.afterFrac, h0, hd, h1, h2, h3, h4, h5]

theorem scan_sound {rest : Bytes} (h : s.scan t = some (t', rest)) :
    t = t' ++ rest ∧ ∃ s', s.run t' = some s' ∧ s'.accepts = true := by
  induction t generalizing s t' with
  | nil =>
    rw [NumState.scan] at h
    by_cases ha : s.accepts = true
    · rw [if_pos ha] at h
      cases h
      exact ⟨rfl, s, rfl, ha⟩
    · rw [if_neg ha] at h
      cases h
  | cons b t ih =>
    rw [NumState.scan] at h
    cases hs : s.step b with
    | some u =>
      rw [hs] at h
      obtain ⟨p, hp, he⟩ := Option.map_eq_some_iff.mp h
      cases he
      obtain ⟨ht, s', hr, ha⟩ := ih hp
      refine ⟨by rw [ht]; rfl, s', ?_, ha⟩
      rw [NumState.run, hs]
      exact hr
    | none =>
      rw [hs] at h
      by_cases ha : s.accepts = true
      · simp only [if_pos ha] at h
        cases h
        exact ⟨rfl, s, rfl, ha⟩
      · simp only [if_neg ha] at h
        cases h

theorem scan_complete {rest : Bytes} (hr : s.run t = some s') (ha : s'.accepts = true) (hrest : NumEnd rest) :
    s.scan (t ++ rest) = some (t, rest) := by
  induction t generalizing s with
  | nil =>
    cases hr
    cases rest with
    | nil => simp [NumState.scan, ha]
    | cons b rest => simp [NumState.scan, step_numByte (hrest b rfl), ha]
  | cons b t ih =>
    obtain ⟨u, hu, hr⟩ := Option.bind_eq_some_iff.mp hr
    rw [List.cons_append, NumState.scan, hu]
    simp [ih hr]

end

end Json
