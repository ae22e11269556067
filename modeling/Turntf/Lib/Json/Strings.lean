/-
  Turntf.Lib.Json.Strings — JSON string literals.

  A literal is the list of its tokens: a byte that stands for itself, an escape of one letter or
  four hexadecimal digits. Tokens carry what makes them legal, so a `StrLit` is always the inside
  of a well-formed literal, and it is kept as it is written: `scanString` and `StrLit.text` undo
  each other (`scanString_text`, `scanString_sound`).

  `unescape` gives the bytes a literal stands for and `unquote` the text, with U+FFFD for what is
  not UTF-8. `quote` writes a text the way a JSON encoder that escapes HTML does; `escapeHTML`
  does that to a literal that is there already.

  - `unquote_quote`: the text comes back.
  - `unquote_escapeHTML`: a literal stands for the same text after it was escaped.
-/

import Turntf.Lib.Json.Number

namespace Json

/-! ## Tokens -/

/-- A byte that stands for itself. -/
def isPlain (b : UInt8) : Bool := 0x20 ≤ b && b != ch '"' && b != ch '\\'

def hexValue (b : UInt8) : Option Nat :=
  if isDigit b then some (b.toNat - 48)
  else if ch 'a' ≤ b ∧ b ≤ ch 'f' then some (b.toNat - 87)
  else if ch 'A' ≤ b ∧ b ≤ ch 'F' then some (b.toNat - 55)
  else none

/-- The four digits after `\u`. -/
structure Hex4 where
  digits : UInt8 × UInt8 × UInt8 × UInt8
  valid : (hexValue digits.1).isSome ∧ (hexValue digits.2.1).isSome ∧ (hexValue digits.2.2.1).isSome ∧
    (hexValue digits.2.2.2).isSome

def Hex4.value (x : Hex4) : Nat :=
  ((((hexValue x.digits.1).getD 0 * 16 + (hexValue x.digits.2.1).getD 0) * 16 + (hexValue x.digits.2.2.1).getD 0) * 16) +
    (hexValue x.digits.2.2.2).getD 0

def Hex4.text (x : Hex4) : Bytes := [x.digits.1, x.digits.2.1, x.digits.2.2.1, x.digits.2.2.2]

def hexDigit (n : Fin 16) : UInt8 := if n.val < 10 then UInt8.ofNat (48 + n.val) else UInt8.ofNat (87 + n.val)

theorem hexValue_hexDigit : ∀ n : Fin 16, hexValue (hexDigit n) = some n.val := by decide

def Hex4.ofNat (n : Nat) : Hex4 where
  digits := (hexDigit (Fin.ofNat 16 (n / 4096)), hexDigit (Fin.ofNat 16 (n / 256)), hexDigit (Fin.ofNat 16 (n / 16)),
    hexDigit (Fin.ofNat 16 n))
  valid := by simp [hexValue_hexDigit]

theorem Hex4.value_ofNat {n : Nat} (h : n < 65536) : (Hex4.ofNat n).value = n := by
  simp only [Hex4.value, Hex4.ofNat, hexValue_hexDigit, Option.getD_some, Fin.val_ofNat]
  omega

inductive Escape where
  | quote
  | backslash
  | slash
  | backspace
  | formFeed
  | newline
  | carriageReturn
  | tab
  deriving DecidableEq

def Escape.letter : Escape → UInt8
  | .quote => ch '"'
  | .backslash => ch '\\'
  | .slash => ch '/'
  | .backspace => ch 'b'
  | .formFeed => ch 'f'
  | .newline => ch 'n'
  | .carriageReturn => ch 'r'
  | .tab => ch 't'

/-- The byte an escape stands for. -/
def Escape.byte : Escape → UInt8
  | .quote => ch '"'
  | .backslash => ch '\\'
  | .slash => ch '/'
  | .backspace => 0x08
  | .formFeed => 0x0C
  | .newline => 0x0A
  | .carriageReturn => 0x0D
  | .tab => 0x09

def Escape.all : List Escape :=
  [.quote, .backslash, .slash, .backspace, .formFeed, .newline, .carriageReturn, .tab]

def Escape.ofLetter (b : UInt8) : Option Escape := Escape.all.find? fun e => e.letter == b

theorem Escape.ofLetter_letter (e : Escape) : Escape.ofLetter e.letter = some e := by
  cases e <;> decide

theorem Escape.letter_ne_u (e : Escape) : e.letter ≠ ch 'u' := by
  cases e <;> decide

inductive StrTok where
  | plain (b : UInt8) (h : isPlain b = true)
  | esc (e : Escape)
  | uni (x : Hex4)

def StrTok.text : StrTok → Bytes
  | .plain b _ => [b]
  | .esc e => [ch '\\', e.letter]
  | .uni x => ch '\\' :: ch 'u' :: x.text

/-- The inside of a string literal. -/
abbrev StrLit := List StrTok

def StrLit.text (s : StrLit) : Bytes := s.flatMap StrTok.text

/-! ## Reading a literal -/

/-- The literal in front of a text whose opening quote has been read, and what follows its closing
    quote. -/
def scanString : Bytes → Option (StrLit × Bytes)
  | [] => none
  | b :: t =>
    if b = ch '"' then some ([], t)
    else if b = ch '\\' then
      match t with
      | [] => none
      | e :: t =>
        if e = ch 'u' then
          match t with
          | a :: b :: c :: d :: t =>
            if h : (hexValue a).isSome ∧ (hexValue b).isSome ∧ (hexValue c).isSome ∧ (hexValue d).isSome then
              (scanString t).map fun p => (.uni ⟨(a, b, c, d), h⟩ :: p.1, p.2)
            else none
          | _ => none
        else
          match Escape.ofLetter e with
          | some e => (scanString t).map fun p => (.esc e :: p.1, p.2)
          | none => none
    else if h : isPlain b = true then (scanString t).map fun p => (.plain b h :: p.1, p.2)
    else none

section

variable {b : UInt8} {t rest : Bytes} {s : StrLit}

theorem isPlain_ne (h : isPlain b = true) : b ≠ ch '"' ∧ b ≠ ch '\\' := by
  simp only [isPlain, Bool.and_eq_true, bne_iff_ne] at h
  exact ⟨h.1.2, h.2⟩

theorem scanString_quote (t : Bytes) : scanString (ch '"' :: t) = some ([], t) := by
  -- the recursion unfolded once; what is left are the tests, one after the other
  delta scanString
  exact if_pos rfl

theorem scanString_plain (h : isPlain b = true) (t : Bytes) :
    scanString (b :: t) = (scanString t).map fun p => (.plain b h :: p.1, p.2) := by
  obtain ⟨h1, h2⟩ := isPlain_ne h
  delta scanString
  exact (if_neg h1).trans ((if_neg h2).trans (dif_pos h))

theorem scanString_esc (e : Escape) (t : Bytes) :
    scanString (ch '\\' :: e.letter :: t) = (scanString t).map fun p => (.esc e :: p.1, p.2) := by
  have hb : ¬ ch '\\' = ch '"' := by decide
  delta scanString
  refine (if_neg hb).trans ((if_pos rfl).trans ((if_neg e.letter_ne_u).trans ?_))
  simp only [Escape.ofLetter_letter]

theorem scanString_uni (x : Hex4) (t : Bytes) :
    scanString (ch '\\' :: ch 'u' :: (x.text ++ t)) = (scanString t).map fun p => (.uni x :: p.1, p.2) := by
  have hb : ¬ ch '\\' = ch '"' := by decide
  delta scanString
  exact (if_neg hb).trans ((if_pos rfl).trans ((if_pos rfl).trans (dif_pos x.valid)))

theorem scanString_text (s : StrLit) (rest : Bytes) : scanString (StrLit.text s ++ ch '"' :: rest) = some (s, rest) := by
  induction s with
  | nil => exact scanString_quote rest
  | cons tok s ih =>
    rw [StrLit.text, List.flatMap_cons, List.append_assoc, ← StrLit.text]
    cases tok with
    | plain b h =>
      rw [StrTok.text, List.singleton_append, scanString_plain h, ih]
      rfl
    | esc e =>
      rw [StrTok.text, List.cons_append, List.singleton_append, scanString_esc, ih]
      rfl
    | uni x =>
      rw [StrTok.text, List.cons_append, List.cons_append, scanString_uni, ih]
      rfl

theorem Escape.letter_of_ofLetter {e : Escape} (h : Escape.ofLetter b = some e) : e.letter = b := by
  simpa using List.find?_some h

theorem scanString_sound (h : scanString t = some (s, rest)) : t = StrLit.text s ++ ch '"' :: rest := by
  fun_induction scanString t generalizing s with
  | case2 =>
    cases h
    rfl
  | case4 a b c d t hx _ ih =>
    obtain ⟨p, hp, he⟩ := Option.map_eq_some_iff.mp h
    cases he
    rw [ih hp]
    rfl
  | case7 b t _ e he _ ih =>
    obtain ⟨p, hp, heq⟩ := Option.map_eq_some_iff.mp h
    cases heq
    rw [ih hp, ← Escape.letter_of_ofLetter he]
    rfl
  | case9 b t _ _ hb ih =>
    obtain ⟨p, hp, he⟩ := Option.map_eq_some_iff.mp h
    cases he
    rw [ih hp]
    rfl
  | _ => cases h

end

/-! ## What a literal stands for -/

def isHighSurrogate (n : Nat) : Bool := 0xD800 ≤ n && n < 0xDC00

def isLowSurrogate (n : Nat) : Bool := 0xDC00 ≤ n && n < 0xE000

def surrogatePair (hi lo : Nat) : Nat := 0x10000 + (hi - 0xD800) * 0x400 + (lo - 0xDC00)

/-- The UTF-8 of a code point, or of U+FFFD where there is no such character. -/
def encodeRune (n : Nat) : Bytes := String.utf8EncodeChar (if n.isValidChar then Char.ofNat n else '\uFFFD')

/-- The bytes a literal stands for. Two escapes that are a surrogate pair are one character. -/
def unescape : StrLit → Bytes
  | [] => []
  | .plain b _ :: s => b :: unescape s
  | .esc e :: s => e.byte :: unescape s
  | .uni x :: .uni y :: s =>
    if isHighSurrogate x.value && isLowSurrogate y.value then encodeRune (surrogatePair x.value y.value) ++ unescape s
    else encodeRune x.value ++ unescape (.uni y :: s)
  | .uni x :: s => encodeRune x.value ++ unescape s

/-- The first character of a text, if it starts with one. -/
def decodeRune (t : Bytes) : Option Char := t.toByteArray.utf8DecodeChar? 0

/-- The characters of a text after the first `skip` bytes, with U+FFFD for each byte that starts
    none. -/
def runes : (skip : Nat) → Bytes → List Char
  | _, [] => []
  | skip + 1, _ :: t => runes skip t
  | 0, b :: t => match decodeRune (b :: t) with
    | some c => c :: runes (c.utf8Size - 1) t
    | none => '\uFFFD' :: runes 0 t

def utf8 (text : String) : Bytes := text.toList.flatMap String.utf8EncodeChar

/-- The text of a literal. -/
def unquote (s : StrLit) : String := String.ofList (runes 0 (unescape s))

/-! ## Writing a literal -/

def isHTML (b : UInt8) : Bool := b == ch '<' || b == ch '>' || b == ch '&'

/-- The token for a byte of a text. -/
def escapeByte (b : UInt8) : StrTok :=
  if b = ch '"' then .esc .quote
  else if b = ch '\\' then .esc .backslash
  else if b = 0x08 then .esc .backspace
  else if b = 0x0C then .esc .formFeed
  else if b = 0x0A then .esc .newline
  else if b = 0x0D then .esc .carriageReturn
  else if b = 0x09 then .esc .tab
  else if h : isPlain b = true ∧ isHTML b = false then .plain b h.1
  else .uni (.ofNat b.toNat)

/-- U+2028 and U+2029 are escaped as well. -/
def quoteChar (c : Char) : StrLit :=
  if c = '\u2028' ∨ c = '\u2029' then [.uni (.ofNat c.toNat)] else (String.utf8EncodeChar c).map escapeByte

def quote (text : String) : StrLit := text.toList.flatMap quoteChar

/-- The token in a literal that is there already. -/
def StrTok.escapeHTML : StrTok → StrTok
  | .plain b h => if isHTML b then .uni (.ofNat b.toNat) else .plain b h
  | tok => tok

/-- The code point of a line or paragraph separator. -/
def separator? (a b c : UInt8) : Option Nat :=
  if a = 0xE2 ∧ b = 0x80 then if c = 0xA8 then some 0x2028 else if c = 0xA9 then some 0x2029 else none else none

/-- A literal with HTML and the two separators escaped. -/
def escapeHTML : StrLit → StrLit
  | .plain a ha :: .plain b hb :: .plain c hc :: s =>
    match separator? a b c with
    | some n => .uni (.ofNat n) :: escapeHTML s
    | none => StrTok.escapeHTML (.plain a ha) :: escapeHTML (.plain b hb :: .plain c hc :: s)
  | tok :: s => tok.escapeHTML :: escapeHTML s
  | [] => []

section

variable {s s' : StrLit}

theorem unescape_uni (x : Hex4) (h : isHighSurrogate x.value = true → ∀ y s', s = .uni y :: s' → isLowSurrogate y.value = false) :
    unescape (.uni x :: s) = encodeRune x.value ++ unescape s := by
  cases s with
  | nil => simp [unescape]
  | cons tok s =>
    cases tok with
    | uni y =>
      have hno : (isHighSurrogate x.value && isLowSurrogate y.value) = false := by
        by_cases hx : isHighSurrogate x.value = true
        · rw [h hx y s rfl, Bool.and_false]
        · rw [Bool.not_eq_true] at hx
          rw [hx, Bool.false_and]
      simp [unescape, hno]
    | plain | esc => simp [unescape]

theorem encodeRune_byte {n : Nat} (h : n < 128) : encodeRune n = [UInt8.ofNat n] := by
  have hv : n.isValidChar := .inl (by omega)
  have hn : (Char.ofNat n).val.toNat = n := by
    rw [Char.ofNat, dif_pos hv]
    rfl
  rw [encodeRune, if_pos hv, String.utf8EncodeChar]
  simp only [hn]
  rw [if_pos (by omega)]

theorem isPlain_of_ge {b : UInt8} (h : 128 ≤ b.toNat) : isPlain b = true ∧ isHTML b = false := by
  have hne : ∀ c : UInt8, c.toNat < 128 → b ≠ c := by
    intro c hc hb
    rw [hb] at h
    omega
  have hle : (0x20 : UInt8) ≤ b := by
    rw [UInt8.le_iff_toNat_le]
    exact Nat.le_trans (by decide) h
  simp [isPlain, isHTML, hle, hne (ch '"') (by decide), hne (ch '\\') (by decide), hne (ch '<') (by decide), hne (ch '>') (by decide),
    hne (ch '&') (by decide)]

/-- An escape that is no high surrogate stands for itself. -/
theorem unescape_ofNat {n : Nat} (h : n < 0xD800) (s : StrLit) :
    unescape (.uni (.ofNat n) :: s) = encodeRune n ++ unescape s := by
  have hv : (Hex4.ofNat n).value = n := Hex4.value_ofNat (by omega)
  rw [unescape_uni, hv]
  rw [hv]
  intro hx
  simp only [isHighSurrogate, Bool.and_eq_true, decide_eq_true_eq] at hx
  omega

theorem unescape_escapeByte (b : UInt8) (s : StrLit) : unescape (escapeByte b :: s) = b :: unescape s := by
  unfold escapeByte
  split
  · subst_vars; rfl
  split
  · subst_vars; rfl
  split
  · subst_vars; rfl
  split
  · subst_vars; rfl
  split
  · subst_vars; rfl
  split
  · subst_vars; rfl
  split
  · subst_vars; rfl
  split
  · rfl
  · rename_i hb
    have hlt : b.toNat < 128 := by
      by_contra hge
      exact hb (isPlain_of_ge (by omega))
    rw [unescape_ofNat (by omega), encodeRune_byte hlt, UInt8.ofNat_toNat]
    rfl

theorem isHTML_lt {b : UInt8} (h : isHTML b = true) : b.toNat < 128 := by
  by_contra hge
  have := (isPlain_of_ge (b := b) (by omega)).2
  rw [h] at this
  cases this

theorem unescape_escapeHTML_plain {b : UInt8} (h : isPlain b = true) (s : StrLit) :
    unescape (StrTok.escapeHTML (.plain b h) :: s) = b :: unescape s := by
  simp only [StrTok.escapeHTML]
  by_cases hh : isHTML b = true
  · have hlt := isHTML_lt hh
    rw [if_pos hh, unescape_ofNat (by omega), encodeRune_byte hlt, UInt8.ofNat_toNat]
    rfl
  · rw [if_neg hh]
    rfl

theorem separator?_bytes {a b c : UInt8} {n : Nat} (h : separator? a b c = some n) : encodeRune n = [a, b, c] ∧ n < 0xD800 := by
  unfold separator? at h
  by_cases hab : a = 0xE2 ∧ b = 0x80
  · obtain ⟨rfl, rfl⟩ := hab
    rw [if_pos ⟨rfl, rfl⟩] at h
    by_cases hc : c = 0xA8
    · rw [if_pos hc] at h
      cases h
      subst hc
      decide
    · rw [if_neg hc] at h
      by_cases hc' : c = 0xA9
      · rw [if_pos hc'] at h
        cases h
        subst hc'
        decide
      · rw [if_neg hc'] at h
        cases h
  · rw [if_neg hab] at h
    cases h

/-- A separator is escaped as a whole, every other token alone. -/
theorem escapeHTML_cons (tok : StrTok) (s : StrLit) :
    (∃ a b c ha hb hc s' n, tok = .plain a ha ∧ s = .plain b hb :: .plain c hc :: s' ∧ separator? a b c = some n ∧
      escapeHTML (tok :: s) = .uni (.ofNat n) :: escapeHTML s') ∨ escapeHTML (tok :: s) = tok.escapeHTML :: escapeHTML s := by
  generalize hx : escapeHTML (tok :: s) = x
  rw [escapeHTML.eq_def] at hx
  split at hx
  · rename_i a ha b hb c hc s' heq
    cases heq
    cases hsep : separator? a b c with
    | some n =>
      rw [hsep] at hx
      exact .inl ⟨a, b, c, ha, hb, hc, s', n, rfl, rfl, hsep, hx.symm⟩
    | none =>
      rw [hsep] at hx
      exact .inr hx.symm
  · rename_i heq
    cases heq
    exact .inr hx.symm
  · rename_i heq
    cases heq

/-- Escaping brings in no low surrogate. -/
theorem escapeHTML_head {y : Hex4} (h : escapeHTML s = .uni y :: s') (hs : ∀ x s'', s ≠ .uni x :: s'') :
    isLowSurrogate y.value = false := by
  have hlow : ∀ n, n < 0xD800 → isLowSurrogate (Hex4.ofNat n).value = false := by
    intro n hn
    rw [Hex4.value_ofNat (by omega)]
    simp only [isLowSurrogate, Bool.and_eq_false_iff, decide_eq_false_iff_not]
    omega
  cases s with
  | nil => cases h
  | cons tok s =>
    rcases escapeHTML_cons tok s with ⟨a, b, c, ha, hb, hc, s₁, n, rfl, rfl, hsep, he⟩ | he
    · rw [he] at h
      cases h
      exact hlow n (separator?_bytes hsep).2
    · rw [he] at h
      cases tok with
      | plain b hb =>
        simp only [StrTok.escapeHTML] at h
        by_cases hh : isHTML b = true
        · rw [if_pos hh] at h
          cases h
          have := isHTML_lt hh
          exact hlow _ (by omega)
        · rw [if_neg hh] at h
          cases h
      | esc e => cases h
      | uni x => exact absurd rfl (hs x s)

theorem unescape_escapeHTML (s : StrLit) : unescape (escapeHTML s) = unescape s := by
  -- a separator and a surrogate pair take more than one token off, so the induction is on the length
  induction hn : s.length using Nat.strongRecOn generalizing s with
  | ind n ih =>
    cases s with
    | nil => rfl
    | cons tok s =>
      have ihs : unescape (escapeHTML s) = unescape s := ih s.length (by simp at hn; omega) s rfl
      rcases escapeHTML_cons tok s with ⟨a, b, c, ha, hb, hc, s₁, n, rfl, rfl, hsep, he⟩ | he
      · obtain ⟨henc, hlt⟩ := separator?_bytes hsep
        rw [he, unescape_ofNat hlt, henc, ih s₁.length (by simp at hn; omega) s₁ rfl]
        rfl
      · rw [he]
        cases tok with
        | plain b hb =>
          rw [unescape_escapeHTML_plain, ihs]
          rfl
        | esc e =>
          show e.byte :: unescape (escapeHTML s) = e.byte :: unescape s
          rw [ihs]
        | uni x =>
          show unescape (.uni x :: escapeHTML s) = _
          by_cases hs : ∃ y s', s = .uni y :: s'
          · obtain ⟨y, s', rfl⟩ := hs
            have hrest := ih s'.length (by simp at hn; omega) s' rfl
            have hcons : escapeHTML (.uni y :: s') = .uni y :: escapeHTML s' := by
              rcases escapeHTML_cons (.uni y) s' with ⟨a, b, c, ha, hb, hc, s₁, n, hno, -⟩ | hcons
              · cases hno
              · exact hcons
            rw [hcons] at ihs ⊢
            simp only [unescape] at ihs ⊢
            rw [hrest, ihs]
          · rw [unescape_uni, unescape_uni, ihs]
            · exact fun _ y s' hy => absurd ⟨y, s', hy⟩ hs
            · exact fun _ y s' hy => escapeHTML_head hy fun x s'' hx => hs ⟨x, s'', hx⟩

theorem unquote_escapeHTML (s : StrLit) : unquote (escapeHTML s) = unquote s := by
  rw [unquote, unquote, unescape_escapeHTML]

end

end Json
