/-
  Turntf.Metadata.Typed — typed metadata values and their validation.

  `normalizeMetadataNumberJSON` trims the raw text, decodes it into a `json.Number` with a streaming
  decoder and lets it decode once more to see that nothing follows. The decoder stores the literal
  of a number. It also takes a string that holds a number, and for null it leaves the number empty;
  neither is an error.

  - `normalize_ok_iff`: what is accepted, and what comes out.
  - `number_exact`: apart from null and from numbers in quotes, the accepted texts are the number
    literals of RFC 8259 and come out unchanged, and so `validate` accepts them and no others.
-/

import Mathlib.Data.List.TakeWhile
import Turntf.Lib.Checked
import Turntf.Lib.Json.Tree
import Turntf.Lib.Space
import Turntf.Types

namespace Turntf.Metadata

open Checked Json Space

/-! ## Typed values -/

inductive MetadataError where
  /-- `fmt.Errorf` of a fixed text. -/
  | text (message : String)
  /-- "unsupported typed_value.kind %q" -/
  | unsupportedKind (kind : String)
  /-- A `SyntaxError` of `encoding/json`, also inside a `MarshalerError`. -/
  | invalidJSON
  | unmarshalType
  | corruptBase64
  deriving DecidableEq

def kindTexts : List String := ["bytes", "bool", "string", "number", "json"]

/-- The kinds, and any other text. -/
inductive MetadataTypedValueKind where
  | bytes
  | bool
  | string
  | number
  | json
  | other (text : String) (h : text ∉ kindTexts)
  deriving DecidableEq

namespace MetadataTypedValueKind

def text : MetadataTypedValueKind → String
  | .bytes => "bytes"
  | .bool => "bool"
  | .string => "string"
  | .number => "number"
  | .json => "json"
  | .other text _ => text

def ofText (t : String) : MetadataTypedValueKind :=
  if h : t ∈ kindTexts then
    if t = "bytes" then .bytes else if t = "bool" then .bool else if t = "string" then .string
    else if t = "number" then .number else .json
  else .other t h

theorem ofText_text (k : MetadataTypedValueKind) : ofText k.text = k := by
  cases k with
  | other t h => simp [ofText, text, h]
  | _ => decide

end MetadataTypedValueKind

/-- A slice may be nil, and a pointer to it as well. -/
structure MetadataTypedValue where
  kind : MetadataTypedValueKind
  bytesValue : Option (Option Bytes) := none
  boolValue : Option Bool := none
  stringValue : Option String := none
  numberValue : Option (Option Bytes) := none
  jsonValue : Option (Option Bytes) := none
  deriving DecidableEq

def newMetadataTypedBytes (value : Option Bytes) : MetadataTypedValue :=
  { kind := .bytes, bytesValue := some (some (value.getD [])) }

def newMetadataTypedBool (value : Bool) : MetadataTypedValue := { kind := .bool, boolValue := some value }

def newMetadataTypedString (value : String) : MetadataTypedValue := { kind := .string, stringValue := some value }

def newMetadataTypedNumber (raw : Option Bytes) : MetadataTypedValue :=
  { kind := .number, numberValue := some (some (raw.getD [])) }

/-- What decoding a value into an empty `json.Number` leaves in it. -/
def decodeNumber : Tree → Option Bytes
  | .num n => some n.text
  | .str s => if isNumber (utf8 (unquote s)) then some (utf8 (unquote s)) else none
  | .null => some []
  | _ => none

/-- Nothing but space follows: the second `Decode` returns `io.EOF`. -/
def ensureMetadataJSONEOF (rest : Bytes) : Except MetadataError Unit :=
  if skipSpace rest = [] then .ok () else .error (.text "typed JSON value must contain a single JSON value")

def normalizeMetadataNumberJSON (raw : Bytes) : Except MetadataError Bytes :=
  let trimmed := trimSpace raw
  if trimmed = [] then .error (.text "typed_value.number_value cannot be empty")
  else match next trimmed with
    | none => .error (.text "typed_value.number_value must be a JSON number")
    | some (v, rest) => match decodeNumber v with
      | none => .error (.text "typed_value.number_value must be a JSON number")
      | some number => do
        ensureMetadataJSONEOF rest
        .ok number

def compactMetadataJSON (raw : Bytes) : Except MetadataError Bytes :=
  let trimmed := trimSpace raw
  if trimmed = [] then .error (.text "typed_value.json_value cannot be empty")
  else match parse trimmed with
    | none => .error (.text "typed_value.json_value must be valid JSON")
    | some v => .ok v.render

/-- `validate` of a value that is there. -/
def MetadataTypedValue.validate (v : MetadataTypedValue) : Except MetadataError Unit :=
  match v.kind with
  | .bytes => if v.bytesValue.isNone then .error (.text "typed_value.bytes_value is required") else .ok ()
  | .bool => if v.boolValue.isNone then .error (.text "typed_value.bool_value is required") else .ok ()
  | .string => if v.stringValue.isNone then .error (.text "typed_value.string_value is required") else .ok ()
  | .number => match v.numberValue with
    | none => .error (.text "typed_value.number_value is required")
    | some raw => (normalizeMetadataNumberJSON (raw.getD [])).map fun _ => ()
  | .json => match v.jsonValue with
    | none => .error (.text "typed_value.json_value is required")
    | some raw => (compactMetadataJSON (raw.getD [])).map fun _ => ()
  | .other text _ => .error (.unsupportedKind text)

/-! ## Trimmed texts -/

section

variable {raw t rest : Bytes} {v : Tree}

theorem mem_spaces {b : UInt8} (h : isSpace b = true) : [b] ∈ spaces := by
  simp only [isSpace, Bool.or_eq_true, beq_iff_eq] at h
  rcases h with ((rfl | rfl) | rfl) | rfl <;> decide

theorem skipSpace_trimSpace (raw : Bytes) : skipSpace (trimSpace raw) = trimSpace raw := by
  obtain ⟨-, hno⟩ := trimSpace_spec raw
  cases ht : trimSpace raw with
  | nil => rfl
  | cons b t =>
    refine skipSpace_cons ?_
    by_contra hb
    rw [Bool.not_eq_false] at hb
    exact (hno [b] (mem_spaces hb)).1 (by rw [ht]; exact ⟨t, rfl⟩)

theorem all_space (h : skipSpace t = []) : ∀ b ∈ t, isSpace b = true :=
  List.dropWhile_eq_nil_iff.mp h

/-- No space is left behind a trimmed text. -/
theorem rest_nil (ht : trimSpace raw = t ++ rest) (h : skipSpace rest = []) : rest = [] := by
  obtain ⟨-, hno⟩ := trimSpace_spec raw
  cases hl : rest.getLast? with
  | none => exact List.getLast?_eq_none_iff.mp hl
  | some b =>
    obtain ⟨r, rfl⟩ := List.getLast?_eq_some_iff.mp hl
    have hb := all_space h b (by simp)
    refine absurd ?_ (hno [b] (mem_spaces hb)).2
    rw [ht]
    exact ⟨t ++ r, by simp⟩

/-- A leaf that is decoded from a trimmed text with nothing behind it is the whole text. -/
theorem next_trimmed (h : next (trimSpace raw) = some (v, rest)) (hv : v.depth = 0) (hrest : skipSpace rest = []) :
    trimSpace raw = v.render := by
  have ht := value_leaf h hv
  rw [skipSpace_trimSpace] at ht
  rw [ht, rest_nil ht hrest, List.append_nil]

theorem decodeNumber_leaf {number : Bytes} (h : decodeNumber v = some number) : v.depth = 0 := by
  cases v <;> first | rfl | cases h

/-! ## What is accepted -/

theorem normalize_iff {out : Bytes} : normalizeMetadataNumberJSON raw = .ok out ↔
    ∃ v rest, next (trimSpace raw) = some (v, rest) ∧ decodeNumber v = some out ∧ skipSpace rest = [] := by
  unfold normalizeMetadataNumberJSON
  by_cases hnil : trimSpace raw = []
  · rw [if_pos hnil]
    constructor
    · intro h
      cases h
    · rintro ⟨v, rest, hn, -⟩
      simp [hnil, next, fuelFor, value, skipSpace] at hn
  · rw [if_neg hnil]
    cases hn : next (trimSpace raw) with
    | none => simp
    | some p =>
      obtain ⟨v, rest⟩ := p
      cases hd : decodeNumber v with
      | none => simp [hd]
      | some number =>
        by_cases hr : skipSpace rest = []
        · simp [hd, hr, ensureMetadataJSONEOF, bind, Except.bind]
        · simp [hd, hr, ensureMetadataJSONEOF, bind, Except.bind]

/-- A leaf is decoded from its own text. -/
theorem next_leaf (v : Tree) (hv : v.depth = 0) : next v.render = some (v, []) := by
  have h := next_render v (by rw [hv]; exact Nat.zero_le _) NumEnd.nil
  rwa [List.append_nil] at h

theorem normalize_ok_iff {out : Bytes} : normalizeMetadataNumberJSON raw = .ok out ↔
    (IsNumber (trimSpace raw) ∧ out = trimSpace raw) ∨ (trimSpace raw = keyword "null" ∧ out = []) ∨
      ∃ s : StrLit, trimSpace raw = quoted s ∧ IsNumber (utf8 (unquote s)) ∧ out = utf8 (unquote s) := by
  rw [normalize_iff]
  constructor
  · rintro ⟨v, rest, hn, hd, hr⟩
    have ht := next_trimmed hn (decodeNumber_leaf hd) hr
    cases v with
    | num n =>
      cases hd
      rw [Tree.render] at ht
      rw [ht]
      exact .inl ⟨isNumber_iff.mp n.valid, rfl⟩
    | null =>
      cases hd
      exact .inr (.inl ⟨ht, rfl⟩)
    | str s =>
      simp only [decodeNumber] at hd
      by_cases hs : isNumber (utf8 (unquote s)) = true
      · rw [if_pos hs] at hd
        cases hd
        exact .inr (.inr ⟨s, ht, isNumber_iff.mp hs, rfl⟩)
      · rw [if_neg hs] at hd
        cases hd
    | _ => cases hd
  · rintro (⟨hn, rfl⟩ | ⟨ht, rfl⟩ | ⟨s, ht, hn, rfl⟩)
    · have h := isNumber_iff.mpr hn
      exact ⟨.num ⟨trimSpace raw, h⟩, [], next_leaf (.num ⟨trimSpace raw, h⟩) rfl, rfl, rfl⟩
    · rw [ht]
      exact ⟨.null, [], next_leaf .null rfl, rfl, rfl⟩
    · rw [ht]
      exact ⟨.str s, [], next_leaf (.str s) rfl, if_pos (isNumber_iff.mpr hn), rfl⟩

/-- Unless the trimmed text is null or a number in quotes, it is accepted if and only if it is a number
    literal, and then it comes out unchanged; and a value of kind number is valid if and only if its
    trimmed text is one. -/
theorem number_exact (raw : Bytes) (hnull : trimSpace raw ≠ keyword "null")
    (hquoted : ∀ s : StrLit, trimSpace raw = quoted s → ¬ IsNumber (utf8 (unquote s))) :
    (∀ out, normalizeMetadataNumberJSON raw = .ok out ↔ IsNumber (trimSpace raw) ∧ out = trimSpace raw) ∧
      ∀ v : MetadataTypedValue, v.kind = .number → (∃ n, v.numberValue = some n ∧ n.getD [] = raw) →
        (v.validate = .ok () ↔ IsNumber (trimSpace raw)) := by
  have hiff : ∀ out, normalizeMetadataNumberJSON raw = .ok out ↔ IsNumber (trimSpace raw) ∧ out = trimSpace raw := by
    intro out
    rw [normalize_ok_iff]
    constructor
    · rintro (h | ⟨h, -⟩ | ⟨s, h, hn, -⟩)
      · exact h
      · exact absurd h hnull
      · exact absurd hn (hquoted s h)
    · exact .inl
  refine ⟨hiff, ?_⟩
  rintro v hk ⟨n, hn, rfl⟩
  have hval : v.validate = (normalizeMetadataNumberJSON (n.getD [])).map fun _ => () := by
    simp only [MetadataTypedValue.validate, hk, hn]
  rw [hval]
  constructor
  · intro h
    obtain ⟨out, hno, -⟩ := map_ok.mp h
    exact ((hiff out).mp hno).1
  · intro h
    rw [(hiff _).mpr ⟨h, rfl⟩]
    rfl

/-- A literal in space: the space goes. -/
theorem number_exact_fraction : normalizeMetadataNumberJSON (keyword " 7.5e1\n") = .ok (keyword "7.5e1") ∧
    (newMetadataTypedNumber (some (keyword " 7.5e1\n"))).validate = .ok () := by
  have hquoted : ∀ s : StrLit, trimSpace (keyword " 7.5e1\n") = quoted s → ¬ IsNumber (utf8 (unquote s)) := by
    intro s h
    rw [show trimSpace (keyword " 7.5e1\n") = keyword "7.5e1" by decide +kernel] at h
    exact absurd (congrArg List.head? h) (by simp [keyword, quoted, ch])
  have hn : IsNumber (trimSpace (keyword " 7.5e1\n")) := isNumber_iff.mp (by decide +kernel)
  obtain ⟨hiff, hval⟩ := number_exact (keyword " 7.5e1\n") (by decide +kernel) hquoted
  exact ⟨(hiff _).mpr ⟨hn, by decide +kernel⟩, (hval _ rfl ⟨_, rfl, rfl⟩).mpr hn⟩

/-- null and a number in quotes are accepted too, and something else comes out. -/
theorem number_not_exact :
    (normalizeMetadataNumberJSON (keyword "null") = .ok [] ∧
      (newMetadataTypedNumber (some (keyword "null"))).validate = .ok () ∧ ¬ IsNumber (trimSpace (keyword "null"))) ∧
    (normalizeMetadataNumberJSON (keyword "\"12\"") = .ok (keyword "12") ∧
      (newMetadataTypedNumber (some (keyword "\"12\""))).validate = .ok () ∧ ¬ IsNumber (trimSpace (keyword "\"12\""))) := by
  have hno : ∀ t, isNumber t = false → ¬ IsNumber t := by
    intro t ht h
    rw [isNumber_iff.mpr h] at ht
    cases ht
  refine ⟨⟨?_, ?_, hno _ (by decide +kernel)⟩, ?_, ?_, hno _ (by decide +kernel)⟩ <;> decide +kernel

end

end Turntf.Metadata
