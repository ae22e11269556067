/-
  Turntf.Demo.Match — comparing a result with what a scenario expects of it.

  An expectation comes from a YAML file, so its leaves are nil and values of the types `bool`,
  `int`, `float64` and `string` (and `uint64`, for integers that are not in the range of `int`).
  `matchSubset` normalizes the expectation and the result and compares them: an object has to have
  the keys of the expected one, a list the same length, bytes the same text. Other leaves are
  compared by `sameScalar`.

  `sameScalar` converts the types `int`, `int64`, `uint64` and `float64` before it compares, and
  leaves everything else to `reflect.DeepEqual`, for which values of different types differ. So an
  integer of another width (`OnlineNodePresence.SessionCount`, the `int32` fields of
  `OperationsStatus`) is not equal to any number of a scenario, and a string of a type of its own
  (`DeliveryMode`, `AttachmentType`) not to any string.

  - `matchAt_ok_iff`: what the recursion decides, for an expectation of the shape of the value.
  - `plain_matches`: an expectation that is part of a result and keeps none of those leaves matches
    it, and does not match it any more when an integer or a string in it is changed.
  - `plain_matches_iff`: with one of those leaves it does not match; `plain_unmatched` are such
    expectations, of a delivery mode and of a number of sessions.
  - `Outcome.describable`, `ClientAction.comparable_iff`: the results that have no such leaf.

  `json.Marshal`, for bytes that are expected in the form of a JSON value, is a parameter.
-/

import Turntf.Demo.Values
import Turntf.Lib.Base64
import Turntf.Lib.Checked
import Turntf.Lib.Precision

namespace Turntf.Demo

open Document Checked

/-! ## Bytes -/

def IntKind.name : IntKind → String
  | .int => "int"
  | .int8 => "int8"
  | .int16 => "int16"
  | .int32 => "int32"
  | .int64 => "int64"
  | .uint => "uint"
  | .uint8 => "uint8"
  | .uint16 => "uint16"
  | .uint32 => "uint32"
  | .uint64 => "uint64"

def Scalar.type (s : Scalar) : String :=
  match s.typeName, s.basic with
  | some name, _ => name
  | none, .bool _ => "bool"
  | none, .integer kind _ => kind.name
  | none, .float64 _ => "float64"
  | none, .string _ => "string"

/-- What `%T` prints. -/
def typeOf : Data → String
  | .leaf .nil => "<nil>"
  | .leaf (.scalar s) => s.type
  | .leaf (.bytes _) => "[]uint8"
  | .list _ => "[]interface \x7b\x7d"
  | .object _ => "map[string]interface \x7b\x7d"

def utf8 (s : String) : Bytes := s.toList.flatMap String.utf8EncodeChar

inductive BytesError where
  /-- `%s is required` -/
  | required (key : String)
  /-- `expected string, got %T` -/
  | notString (got : String)
  /-- `%s: %w` -/
  | field (key : String) (cause : BytesError)
  /-- `unsupported bytes format %q` -/
  | format (format : Bytes)
  /-- `expected string or {format,value}, got %T` -/
  | kind (got : String)
  /-- of `json.Marshal` -/
  | json
  /-- of the decoder -/
  | base64
  deriving DecidableEq

def stringValue (value : Data) : Except BytesError Bytes :=
  match value with
  | .leaf (.scalar ⟨none, .string s⟩) => .ok s
  | _ => .error (.notString (typeOf value))

def stringField (values : List (String × Data)) (key : String) (required : Bool) : Except BytesError Bytes :=
  match values.lookup key with
  | none => if required then .error (.required key) else .ok []
  | some raw => (stringValue raw).mapError (.field key)

section

variable (marshal : Data → Option Bytes)

def decodeBytes (value : Data) : Except BytesError Bytes :=
  match value with
  | .leaf (.scalar ⟨none, .string s⟩) => .ok s
  | .leaf (.bytes b) => .ok b
  | .object fields => do
    let format ← stringField fields "format" true
    match fields.lookup "value" with
    | none => .error (.required "value")
    | some rawValue =>
      if format = utf8 "json" then
        match marshal rawValue with
        | some data => .ok data
        | none => .error .json
      else if format = utf8 "base64" then do
        let text ← stringValue rawValue
        match Base64.decode (text.map fun b => Char.ofNat b.toNat) with
        | some data => .ok data
        | none => .error .base64
      else .error (.format format)
  | _ => .error (.kind (typeOf value))

/-! ## Scalars -/

/-- The conversion of an integer to `float64`. -/
def float64 (n : Int) : Float64 := .finite (Rat.ofInt (Precision.round 53 n))

/-- `==` on floating point numbers. -/
def Float64.eq : Float64 → Float64 → Bool
  | .finite p, .finite q => p == q
  | .inf a, .inf b => a == b
  | _, _ => false

def numericEqual (expected : Float64) (actual : Data) : Bool :=
  match actual with
  | .leaf (.scalar ⟨none, .integer .int n⟩) => expected.eq (float64 n)
  | .leaf (.scalar ⟨none, .integer .int64 n⟩) => expected.eq (float64 n)
  | .leaf (.scalar ⟨none, .integer .uint64 n⟩) => expected.eq (float64 n)
  | .leaf (.scalar ⟨none, .float64 x⟩) => expected.eq x
  | _ => false

def Basic.deepEqual : Basic → Basic → Bool
  | .float64 x, .float64 y => x.eq y
  | x, y => x == y

/-- `reflect.DeepEqual` with a leaf: the types have to be the same. -/
def deepEqual (expected : Atom) (actual : Data) : Bool :=
  match expected, actual with
  | .scalar s, .leaf (.scalar t) => s.typeName == t.typeName && s.basic.deepEqual t.basic
  | a, .leaf b => a == b
  | _, _ => false

def sameScalar (expected : Atom) (actual : Data) : Bool :=
  match expected with
  | .scalar ⟨none, .integer .int n⟩ => numericEqual (float64 n) actual
  | .scalar ⟨none, .integer .int64 n⟩ => numericEqual (float64 n) actual
  | .scalar ⟨none, .integer .uint64 n⟩ => numericEqual (float64 n) actual
  | .scalar ⟨none, .float64 x⟩ => numericEqual x actual
  | _ => deepEqual expected actual

/-! ## Matching -/

inductive MatchError where
  /-- `%s: expected %q, got %q` -/
  | text (path : String) (expected actual : Bytes)
  /-- `%s: expected object, got %T` -/
  | object (path got : String)
  /-- `%s: missing key %q` -/
  | missingKey (path key : String)
  /-- `%s: expected array, got %T` -/
  | array (path got : String)
  /-- `%s: expected array length %d, got %d` -/
  | arrayLength (path : String) (expected got : Nat)
  /-- `%s: expected bytes, got %T` -/
  | bytes (path got : String)
  /-- `%s: expected %v, got %v` -/
  | scalar (path : String) (expected : Atom) (actual : Data)

def pathValue (path : String) : String := if path = "" then "value" else path

/-- Both sides as bytes, when the actual one is bytes and the expected one can be read as such. -/
def bothBytes (expected actual : Data) : Option (Bytes × Bytes) :=
  match actual with
  | .leaf (.bytes actualBytes) =>
    match decodeBytes marshal expected with
    | .ok expectedBytes => some (expectedBytes, actualBytes)
    | .error _ => none
  | _ => none

mutual

def matchAt (path : String) (expected actual : Data) : Except MatchError Unit :=
  match bothBytes marshal expected actual with
  | some (expectedBytes, actualBytes) =>
    if expectedBytes = actualBytes then .ok () else .error (.text (pathValue path) expectedBytes actualBytes)
  | none =>
    match expected with
    | .object exp =>
      match actual with
      | .object act => matchFields path exp act
      | _ => .error (.object (pathValue path) (typeOf actual))
    | .list exp =>
      match actual with
      | .list act =>
        if exp.length ≠ act.length then .error (.arrayLength (pathValue path) exp.length act.length)
        else matchItems path 0 exp act
      | _ => .error (.array (pathValue path) (typeOf actual))
    | .leaf (.bytes exp) =>
      match actual with
      | .leaf (.bytes act) => if exp = act then .ok () else .error (.text (pathValue path) exp act)
      | _ => .error (.bytes (pathValue path) (typeOf actual))
    | .leaf exp => if sameScalar exp actual then .ok () else .error (.scalar (pathValue path) exp actual)

/-- The loop over the keys of an expected object. -/
def matchFields (path : String) : (exp act : List (String × Data)) → Except MatchError Unit
  | [], _ => .ok ()
  | (key, value) :: exp, act =>
    match act.lookup key with
    | none => .error (.missingKey (pathValue path) key)
    | some actualValue => do
      matchAt (if path = "" then key else path ++ "." ++ key) value actualValue
      matchFields path exp act

/-- The loop over the items of an expected list, from the index `i`. -/
def matchItems (path : String) : (i : Nat) → (exp act : List Data) → Except MatchError Unit
  | i, e :: exp, a :: act => do
    matchAt (pathValue path ++ "[" ++ toString i ++ "]") e a
    matchItems path (i + 1) exp act
  | _, _, _ => .ok ()

end

def matchSubset (expected actual : GoValue) : Except MatchError Unit :=
  matchAt marshal "" (normalizeValue expected) (normalizeValue actual)

end

/-! ## Leaves -/

/-- A leaf as a number that is compared by its value. -/
def Atom.number : Atom → Option Float64
  | .scalar ⟨none, .integer .int n⟩ => some (float64 n)
  | .scalar ⟨none, .integer .int64 n⟩ => some (float64 n)
  | .scalar ⟨none, .integer .uint64 n⟩ => some (float64 n)
  | .scalar ⟨none, .float64 x⟩ => some x
  | _ => none

theorem numericEqual_leaf (x : Float64) (a : Atom) : numericEqual x (.leaf a) = a.number.any x.eq := by
  unfold numericEqual Atom.number
  split <;> first | rfl | (split <;> simp_all)

theorem sameScalar_eq (c : Atom) (d : Data) :
    sameScalar c d = c.number.elim (deepEqual c d) (numericEqual · d) := by
  unfold sameScalar Atom.number
  split <;> rfl

/-- How an expected leaf is compared with a leaf. -/
def agrees (c a : Atom) : Bool :=
  match c, a with
  | .scalar ⟨none, .string s⟩, .bytes b => s == b
  | .bytes s, .bytes b => s == b
  | .bytes _, _ => false
  | c, a => sameScalar c (.leaf a)

section

variable {marshal : Data → Option Bytes} {path : String}

/-- A scalar that is not read as bytes. -/
theorem matchAt_scalar {c : Atom} {d : Data} (hc : ∀ b, c ≠ .bytes b) (hnone : bothBytes marshal (.leaf c) d = none) :
    matchAt marshal path (.leaf c) d = .ok () ↔ sameScalar c d = true := by
  cases c with
  | bytes b => exact absurd rfl (hc b)
  | nil =>
    unfold matchAt
    simp [hnone]
  | scalar s =>
    unfold matchAt
    simp [hnone]

theorem decodeBytes_error {c : Atom} (hstring : ∀ s, c ≠ .scalar ⟨none, .string s⟩) (hbytes : ∀ b, c ≠ .bytes b) :
    ∃ err, decodeBytes marshal (.leaf c) = .error err := by
  unfold decodeBytes
  split
  · rename_i s h
    exact absurd (Document.leaf.inj h) (hstring s)
  · rename_i b h
    exact absurd (Document.leaf.inj h) (hbytes b)
  · rename_i h
    cases h
  · exact ⟨_, rfl⟩

theorem matchAt_leaf {c a : Atom} : matchAt marshal path (.leaf c) (.leaf a) = .ok () ↔ agrees c a = true := by
  unfold agrees
  split
  · unfold matchAt
    simp [bothBytes, decodeBytes]
  · unfold matchAt
    simp [bothBytes, decodeBytes]
  · rename_i s ha
    unfold matchAt
    cases a with
    | bytes b => exact absurd rfl (ha b)
    | nil => simp [bothBytes]
    | scalar t => simp [bothBytes]
  · -- nothing else can be read as bytes, so that bytes are compared like a scalar
    rename_i hbytes hstring _
    refine matchAt_scalar hbytes ?_
    cases a with
    | nil => rfl
    | scalar t => rfl
    | bytes b =>
      obtain ⟨err, herr⟩ := decodeBytes_error (fun s hs => hstring s b hs rfl) hbytes
      rw [bothBytes, herr]

theorem matchItems_ok {Q : Data → Data → Prop} {es ds : List Data}
    (h : List.Forall₂ (fun e d => ∀ {path}, matchAt marshal path e d = .ok () ↔ Q e d) es ds) (i : Nat) :
    matchItems marshal path i es ds = .ok () ↔ List.Forall₂ Q es ds := by
  induction h generalizing i with
  | nil => simp [matchItems]
  | cons hd _ ih =>
    rw [matchItems, bind_ok, List.forall₂_cons]
    simp [hd, ih]

theorem matchFields_ok {Q : Data → Data → Prop} {es ds : List (String × Data)}
    (h : ∀ p ∈ es, ∃ d, ds.lookup p.1 = some d ∧ ∀ {path}, matchAt marshal path p.2 d = .ok () ↔ Q p.2 d) :
    matchFields marshal path es ds = .ok () ↔ ∀ p ∈ es, ∃ d, ds.lookup p.1 = some d ∧ Q p.2 d := by
  induction es with
  | nil => simp [matchFields]
  | cons p es ih =>
    rw [List.forall_mem_cons] at h ⊢
    obtain ⟨⟨d, hlookup, hd⟩, hes⟩ := h
    rw [matchFields, hlookup]
    show (_ >>= fun _ => matchFields marshal path es ds) = _ ↔ _
    rw [bind_ok, ih hes]
    simp [hd]

/-- For an expectation of the shape of the value, what the recursion decides at the leaves. -/
theorem matchAt_ok_iff {e d : Data} (h : e.Within (fun _ _ => True) d) :
    matchAt marshal path e d = .ok () ↔ e.Within (fun c a => agrees c a = true) d := by
  revert path
  refine h.ind (P := fun e d => ∀ {path}, matchAt marshal path e d = .ok () ↔ e.Within (fun c a => agrees c a = true) d)
    ?_ ?_ ?_
  · intro c a _ path
    rw [matchAt_leaf, within_leaf]
    simp
  · intro es ds hes path
    have hnone : bothBytes marshal (.list es) (.list ds) = none := rfl
    unfold matchAt
    simp only [hnone, hes.length_eq, ne_eq, not_true_eq_false, if_false]
    rw [matchItems_ok hes, within_list]
    simp
  · intro es ds hkeys hes path
    have hnone : bothBytes marshal (.object es) (.object ds) = none := rfl
    unfold matchAt
    simp only [hnone]
    rw [matchFields_ok hes, within_object]
    simp [hkeys]

end

/-! ## Expectations -/

/-- An integer of a YAML file. -/
def yamlInt (n : Int) : Atom := .scalar ⟨none, .integer (if n ≤ IntKind.int.bounds.2 then .int else .uint64) n⟩

/-- A leaf as it is written in a YAML file and read from there. -/
def Atom.plain : Atom → Atom
  | .nil => .nil
  | .scalar ⟨_, .bool b⟩ => .scalar ⟨none, .bool b⟩
  | .scalar ⟨_, .integer _ n⟩ => yamlInt n
  | .scalar ⟨_, .float64 x⟩ => .scalar ⟨none, .float64 x⟩
  | .scalar ⟨_, .string s⟩ => .scalar ⟨none, .string s⟩
  | .bytes b => .scalar ⟨none, .string b⟩

/-- Whether the leaf and its plain form are equal for `matchAt` (`agrees_plain`): not for integers of another width, for
    values of named types and for NaN, which differs from itself. -/
def Atom.comparable : Atom → Bool
  | .nil => true
  | .scalar ⟨none, .integer kind _⟩ => kind == .int || kind == .int64 || kind == .uint64
  | .scalar ⟨none, .float64 x⟩ => x != .nan
  | .scalar ⟨none, .bool _⟩ => true
  | .scalar ⟨none, .string _⟩ => true
  | .scalar ⟨some _, _⟩ => false
  | .bytes _ => true

/-- `e` keeps some of the keys of the objects of `d` and has its leaves in plain form. -/
def Describes (e d : Data) : Prop := e.Within (fun c a => c = a.plain) d

/-- An integer or a string becomes another value. -/
inductive Altered : Atom → Atom → Prop
  | int (n : Int) (c : Atom) (hn : n.natAbs < 2 ^ 53) (hc : c.plain ≠ yamlInt n)
      (hfloat : c.plain ≠ .scalar ⟨none, .float64 (.finite (Rat.ofInt n))⟩) : Altered (yamlInt n) c
  | string (s : Bytes) (c : Atom) (hc : c.plain ≠ .scalar ⟨none, .string s⟩) : Altered (.scalar ⟨none, .string s⟩) c

theorem yamlInt_inj {m n : Int} (h : yamlInt m = yamlInt n) : m = n := by
  unfold yamlInt at h
  injection h with h
  injection h with _ h
  injection h

theorem yamlInt_ne {n : Int} {x : Basic} (hx : ∀ kind m, x ≠ .integer kind m) : yamlInt n ≠ .scalar ⟨none, x⟩ := by
  intro h
  unfold yamlInt at h
  injection h with h
  injection h with _ h
  exact hx _ _ h.symm

theorem Float64.eq_self (x : Float64) : x.eq x = (x != .nan) := by
  cases x <;> simp [Float64.eq]

theorem Float64.eq_of_eq {x y : Float64} (h : x.eq y = true) : x = y := by
  cases x <;> cases y <;> simp_all [Float64.eq]

theorem float64_exact {n : Int} (hn : n.natAbs < 2 ^ 53) : float64 n = .finite (Rat.ofInt n) := by
  rw [float64, Precision.round_exact (by decide) hn]

theorem eq_of_float64 {m n : Int} (hn : n.natAbs < 2 ^ 53) (h : float64 m = float64 n) : m = n := by
  rw [float64_exact hn] at h
  exact Precision.eq_of_round (by decide) hn (congrArg Rat.num (Float64.finite.inj h))

theorem plain_of_number {c : Atom} {x : Float64} (h : c.number = some x) :
    (∃ n, c.plain = yamlInt n ∧ x = float64 n) ∨ c.plain = .scalar ⟨none, .float64 x⟩ := by
  unfold Atom.number at h
  split at h
  case h_5 => cases h
  case h_4 =>
    cases h
    exact Or.inr rfl
  all_goals
    cases h
    exact Or.inl ⟨_, rfl, rfl⟩

theorem Basic.eq_of_deepEqual {x y : Basic} (h : x.deepEqual y = true) : x = y := by
  unfold Basic.deepEqual at h
  split at h
  · rw [Float64.eq_of_eq h]
  · exact eq_of_beq h

theorem eq_of_deepEqual {c a : Atom} (h : deepEqual c (.leaf a) = true) : c = a := by
  unfold deepEqual at h
  split at h
  · rename_i s t heq
    cases heq
    rw [Bool.and_eq_true] at h
    have hname := eq_of_beq h.1
    have hbasic := Basic.eq_of_deepEqual h.2
    cases s
    cases t
    cases hname
    cases hbasic
    rfl
  · rename_i heq
    cases heq
    exact eq_of_beq h
  · cases h

/-- Leaves that agree have the same plain form, or are numbers that are equal. -/
theorem plain_of_agrees {c a : Atom} (h : agrees c a = true) :
    c.plain = a.plain ∨ ∃ x y, c.number = some x ∧ a.number = some y ∧ x = y := by
  unfold agrees at h
  split at h
  · rw [eq_of_beq h]
    exact Or.inl rfl
  · rw [eq_of_beq h]
    exact Or.inl rfl
  · cases h
  · rw [sameScalar_eq] at h
    cases hx : c.number with
    | none =>
      rw [hx] at h
      rw [eq_of_deepEqual h]
      exact Or.inl rfl
    | some x =>
      rw [hx, Option.elim_some, numericEqual_leaf, Option.any_eq_true] at h
      obtain ⟨y, hy, hxy⟩ := h
      exact Or.inr ⟨x, y, rfl, hy, Float64.eq_of_eq hxy⟩

/-- An altered leaf does not agree with the leaf it was written for. -/
theorem not_agrees_of_altered {a c : Atom} (h : Altered a.plain c) : agrees c a ≠ true := by
  intro hc
  generalize hp : a.plain = p at h
  cases h with
  | int n c hn hne hfloat =>
    rcases plain_of_agrees hc with hplain | ⟨x, y, hx, hy, rfl⟩
    · exact hne (hplain.trans hp)
    · -- the value of `a` is `n`, so that of the altered leaf is `n` as well
      have hxn : x = float64 n := by
        rcases plain_of_number hy with ⟨m, hm, hxm⟩ | hm
        · rw [hxm, yamlInt_inj (hm.symm.trans hp)]
        · exact absurd (hp.symm.trans hm) (yamlInt_ne fun _ _ h => Basic.noConfusion h)
      rcases plain_of_number hx with ⟨m, hm, hxm⟩ | hm
      · rw [eq_of_float64 hn (hxm.symm.trans hxn)] at hm
        exact hne hm
      · rw [hxn, float64_exact hn] at hm
        exact hfloat hm
  | string s c hne =>
    rcases plain_of_agrees hc with hplain | ⟨x, y, _, hy, rfl⟩
    · exact hne (hplain.trans hp)
    · rcases plain_of_number hy with ⟨m, hm, _⟩ | hm
      · exact absurd (hm.symm.trans hp) (yamlInt_ne fun _ _ h => Basic.noConfusion h)
      · cases hp.symm.trans hm

theorem agrees_scalar (s t : Scalar) : agrees (.scalar s) (.scalar t) = sameScalar (.scalar s) (.leaf (.scalar t)) := by
  unfold agrees
  split <;> simp_all

theorem agrees_yamlInt (n : Int) (t : Scalar) : agrees (yamlInt n) (.scalar t) = (Atom.scalar t).number.any (float64 n).eq := by
  have hnumber : (yamlInt n).number = some (float64 n) := by
    unfold yamlInt
    split <;> rfl
  rw [yamlInt, agrees_scalar, ← yamlInt, sameScalar_eq, hnumber, Option.elim_some, numericEqual_leaf]

theorem agrees_plain (a : Atom) : agrees a.plain a = a.comparable := by
  cases a with
  | nil => rfl
  | bytes b => exact beq_self_eq_true b
  | scalar s =>
    obtain ⟨name, x⟩ := s
    cases x with
    | bool b =>
      rw [Atom.plain, agrees_scalar]
      cases name <;> simp [sameScalar, deepEqual, Basic.deepEqual, Atom.comparable]
    | integer kind n =>
      rw [Atom.plain, agrees_yamlInt]
      cases name with
      | some name => rfl
      | none => cases kind <;> simp [Atom.number, Float64.eq, float64, Atom.comparable]
    | float64 x =>
      rw [Atom.plain, agrees_scalar, sameScalar_eq]
      cases name <;> simp [Atom.number, numericEqual, Float64.eq_self, Atom.comparable]
    | string s =>
      rw [Atom.plain, agrees_scalar]
      cases name <;> simp [sameScalar, deepEqual, Basic.deepEqual, Atom.comparable]

/-! ## Expectations and results -/

section

variable {marshal : Data → Option Bytes} {v : GoValue} {e e' : Data}

/-- A part of a value, given as data. -/
theorem matchSubset_eq {R : Atom → Atom → Prop} (h : e.Within R (normalizeValue v)) :
    matchSubset marshal (dataValue e) v = matchAt marshal "" e (normalizeValue v) := by
  rw [matchSubset, normalizeValue_value h.all]

theorem plain_matches_iff (h : Describes e (normalizeValue v)) :
    matchSubset marshal (dataValue e) v = .ok () ↔ e.Within (fun _ a => a.comparable = true) (normalizeValue v) := by
  rw [matchSubset_eq h, matchAt_ok_iff (h.imp fun _ _ _ => trivial)]
  constructor
  · intro hagrees
    refine (h.and hagrees).imp fun c a ⟨hc, ha⟩ => ?_
    rwa [hc, agrees_plain] at ha
  · intro hkept
    refine (h.and hkept).imp fun c a ⟨hc, ha⟩ => ?_
    rwa [hc, agrees_plain]

theorem altered_unmatched (h : Describes e (normalizeValue v)) (hc : Changed Altered e e') :
    ∃ err, matchSubset marshal (dataValue e') v = .error err := by
  have hshape : e'.Within (fun _ _ => True) (normalizeValue v) :=
    Within.changed (h.imp fun _ _ _ => trivial) hc fun _ _ _ _ _ => trivial
  rw [matchSubset_eq hshape]
  cases hm : matchAt marshal "" e' (normalizeValue v) with
  | error err => exact ⟨err, rfl⟩
  | ok u =>
    obtain ⟨c, c', a, hcc, hca, hagrees⟩ := hc.leaf_of_within h ((matchAt_ok_iff hshape).mp hm)
    rw [hca] at hcc
    exact absurd hagrees (not_agrees_of_altered hcc)

theorem describes_field {key : String} {d : Data} {fields : List (String × Data)} (hlookup : fields.lookup key = some d)
    (h : Describes e d) : Describes (.object [(key, e)]) (.object fields) :=
  within_object.mpr ⟨fields, rfl, List.nodup_singleton key, fun p hp => by
    rw [List.mem_singleton.mp hp]
    exact ⟨d, hlookup, h⟩⟩

end

/-- An expectation that describes a value and keeps comparable leaves only matches it, and does not match it when one
    of its integers or strings is altered. -/
theorem plain_matches (marshal : Data → Option Bytes) (v : GoValue) (e : Data) (h : Describes e (normalizeValue v))
    (hkept : e.Within (fun _ a => a.comparable = true) (normalizeValue v)) :
    matchSubset marshal (dataValue e) v = .ok () ∧
      ∀ e', Changed Altered e e' → ∃ err, matchSubset marshal (dataValue e') v = .error err :=
  ⟨(plain_matches_iff h).mpr hkept, fun _ hc => altered_unmatched h hc⟩

/-- A struct with the given values of its fields. -/
def GoType.make (values : List GoValue) : GoType → GoValue
  | .struct types => .struct (List.zipWith (fun type v => (type.1, v)) types values)
  | _ => .nil

def goInt (kind : IntKind) (n : Int) : GoValue := .scalar ⟨none, .integer kind n⟩

def goString (s : String) : GoValue := .scalar ⟨none, .string (utf8 s)⟩

def refValue (nodeID userID : Int) : GoValue := GoType.userRef.make [goInt .int64 nodeID, goInt .int64 userID]

def sampleMessage : GoValue := GoType.message.make
  [refValue 2 5, goInt .int64 1, goInt .int64 9, refValue 1 4, .bytes (utf8 "hi"), goString "t"]

def expectedMessage (seq : Int) (body : String) : Data :=
  .object [("sender", .object [("user_id", .leaf (yamlInt 4))]), ("seq", .leaf (yamlInt seq)), ("body", str (utf8 body))]

theorem plain_matches_message :
    matchSubset (fun _ => none) (dataValue (expectedMessage 9 "hi")) sampleMessage = .ok () ∧
      (∃ err, matchSubset (fun _ => none) (dataValue (expectedMessage 10 "hi")) sampleMessage = .error err) ∧
      ∃ err, matchSubset (fun _ => none) (dataValue (expectedMessage 9 "ho")) sampleMessage = .error err := by
  have hwithin : ∀ R : Atom → Atom → Prop, R (yamlInt 4) (.scalar ⟨none, .integer .int64 4⟩) →
      R (yamlInt 9) (.scalar ⟨none, .integer .int64 9⟩) → R (.scalar ⟨none, .string (utf8 "hi")⟩) (.bytes (utf8 "hi")) →
      (expectedMessage 9 "hi").Within R (normalizeValue sampleMessage) := by
    intro R hsender hseq hbody
    refine within_object.mpr ⟨_, rfl, by decide, ?_⟩
    simp only [List.forall_mem_cons]
    refine ⟨⟨_, rfl, within_object.mpr ⟨_, rfl, by decide, ?_⟩⟩, ⟨_, rfl, within_leaf.mpr ⟨_, rfl, hseq⟩⟩,
      ⟨_, rfl, within_leaf.mpr ⟨_, rfl, hbody⟩⟩, fun p hp => absurd hp List.not_mem_nil⟩
    exact List.forall_mem_singleton.mpr ⟨_, rfl, within_leaf.mpr ⟨_, rfl, hsender⟩⟩
  have hmatches := plain_matches (fun _ => none) sampleMessage (expectedMessage 9 "hi")
    (hwithin _ rfl rfl rfl) (hwithin _ rfl rfl rfl)
  refine ⟨hmatches.1, hmatches.2 _ ?_, hmatches.2 _ ?_⟩
  · exact .field "seq" [_] [_] (.leaf (.int 9 _ (by decide) (by decide) (by decide)))
  · exact .field "body" [_, _] [] (.leaf (.string _ _ (by decide)))

/-! ## The results of the client -/

@[elab_as_elim]
theorem GoType.induct {P : GoType → Prop} (bool : P .bool) (integer : ∀ kind, P (.integer kind)) (string : P .string)
    (named : ∀ name, P (.named name)) (bytes : P .bytes) (slice : ∀ elem, P elem → P (.slice elem))
    (struct : ∀ types, (∀ p ∈ types, P p.2) → P (.struct types)) (type : GoType) : P type := by
  refine @GoType.rec P (fun types => ∀ p ∈ types, P p.2) (fun p => P p.2)
    bool integer string named bytes slice struct ?_ ?_ ?_ type
  · exact fun p hp => absurd hp List.not_mem_nil
  · exact fun p types hp htypes => List.forall_mem_cons.mpr ⟨hp, htypes⟩
  · exact fun f type htype => htype

mutual

/-- The values of the type have comparable leaves only. -/
def GoType.comparable : GoType → Bool
  | .integer kind => kind == .int || kind == .int64 || kind == .uint64
  | .named _ => false
  | .slice elem => elem.comparable
  | .struct types => comparableFields types
  | _ => true

def comparableFields : List (StructField × GoType) → Bool
  | [] => true
  | (_, type) :: types => type.comparable && comparableFields types

end

theorem comparable_of_mem {types : List (StructField × GoType)} (h : comparableFields types = true) :
    ∀ p ∈ types, p.2.comparable = true := by
  induction types with
  | nil => exact fun p hp => absurd hp List.not_mem_nil
  | cons q types ih =>
    rw [comparableFields, Bool.and_eq_true] at h
    exact List.forall_mem_cons.mpr ⟨h.1, ih h.2⟩

theorem exists_type_of_mem {types : List (StructField × GoType)} {fields : List (StructField × GoValue)}
    (h : hasFields types fields = true) : ∀ p ∈ fields, ∃ q ∈ types, q.2.has p.2 = true := by
  induction types generalizing fields with
  | nil =>
    cases fields with
    | nil => exact fun p hp => absurd hp List.not_mem_nil
    | cons p fields => cases h
  | cons q types ih =>
    cases fields with
    | nil => cases h
    | cons p fields =>
      rw [hasFields, Bool.and_eq_true, Bool.and_eq_true] at h
      refine List.forall_mem_cons.mpr ⟨⟨q, List.mem_cons_self, h.1.2⟩, fun p' hp' => ?_⟩
      obtain ⟨q', hq', hhas⟩ := ih h.2 p' hp'
      exact ⟨q', List.mem_cons_of_mem _ hq', hhas⟩

theorem comparable_all {type : GoType} {v : GoValue} (hv : type.has v = true) (h : type.comparable = true) :
    (normalizeValue v).All fun a => a.comparable = true := by
  induction type using GoType.induct generalizing v with
  | struct types ih =>
    cases v <;> try cases hv
    case struct fields =>
    rw [normalizeValue]
    refine normalizeFields_all object_nil_all fun p hp => ?_
    obtain ⟨q, hq, hhas⟩ := exists_type_of_mem hv p hp
    exact ih q hq hhas (comparable_of_mem h q hq)
  | slice elem ih =>
    cases v <;> try cases hv
    case list items =>
    rw [normalizeValue, normalizeItems_eq, all_list]
    exact List.forall_mem_map.mpr fun v hitem => ih (List.all_eq_true.mp hv v hitem) h
  | bool | integer | string | named | bytes =>
    unfold GoType.has at hv
    split at hv <;> simp_all [normalizeValue, Atom.comparable, GoType.comparable]

/-- The results of all other actions have comparable leaves only. -/
theorem ClientAction.comparable_iff (action : ClientAction) :
    action.result.comparable = true ↔
      action ≠ .sendPacket ∧ action ≠ .operationsStatus ∧ action ≠ .resolveUserSessions := by
  cases action <;> decide

example : GoType.attachment.comparable = false := by decide

/-- Every part of such a result can be described by a scenario. -/
theorem Outcome.describable {marshal : Data → Option Bytes} {o : Outcome} {e : Data}
    (htyped : ∀ r ∈ o.results, r.1.has r.2 = true) (h : ∀ r ∈ o.results, r.1.comparable = true)
    (he : Describes e o.payload) :
    matchSubset marshal (dataValue e) (dataValue o.payload) = .ok () ∧
      ∀ e', Changed Altered e e' → ∃ err, matchSubset marshal (dataValue e') (dataValue o.payload) = .error err := by
  have hkeys : o.payload.All fun _ => True :=
    payload_all (fun _ => trivial) (fun _ => trivial) fun r _ => normalizeValue_all r.2
  have hleaves : o.payload.All fun a => a.comparable = true :=
    payload_all (fun _ => rfl) (fun _ => rfl) fun r hr => comparable_all (htyped r hr) (h r hr)
  rw [← normalizeValue_value hkeys] at he hleaves
  constructor
  · exact (plain_matches_iff he).mpr ((he.and_all hleaves).imp fun _ _ ha => ha.2)
  · exact fun e' hc => altered_unmatched he hc

/-! ## Leaves that cannot be described -/

def sampleMode : Scalar := ⟨some "turntf.DeliveryMode", .string (utf8 "best_effort")⟩

def sampleAccepted : GoValue := GoType.relayAccepted.make
  [goInt .uint64 7, goInt .int64 1, goInt .int64 2, refValue 2 5, .scalar sampleMode,
    GoType.sessionRef.make [goInt .int64 2, goString "s"]]

def expectedMode : Data := .object [("transient_accepted", .object [("delivery_mode", str (utf8 "best_effort"))])]

def sampleSessions : GoValue := GoType.resolvedUserSessions.make
  [refValue 2 5, .list [GoType.onlineNodePresence.make [goInt .int64 2, goInt .int32 3, goString ""]], .list []]

def expectedCount : Data :=
  .object [("resolved_user_sessions", .object [("presence", .list [.object [("session_count", .leaf (yamlInt 3))]])])]

/-- An accepted packet whose delivery mode is the expected one, and a user who is online with the expected number of
    sessions. -/
theorem plain_unmatched :
    (GoType.relayAccepted.has sampleAccepted = true ∧
      Describes expectedMode (Outcome.ok .sendPacket sampleAccepted).payload ∧
      ∀ marshal, matchSubset marshal (dataValue expectedMode) (dataValue (Outcome.ok .sendPacket sampleAccepted).payload) =
        .error (.scalar "transient_accepted.delivery_mode" (.scalar ⟨none, .string (utf8 "best_effort")⟩)
          (.leaf (.scalar sampleMode)))) ∧
    (GoType.resolvedUserSessions.has sampleSessions = true ∧
      Describes expectedCount (Outcome.ok .resolveUserSessions sampleSessions).payload ∧
      ∀ marshal, matchSubset marshal (dataValue expectedCount)
          (dataValue (Outcome.ok .resolveUserSessions sampleSessions).payload) =
        .error (.scalar "resolved_user_sessions.presence[0].session_count" (yamlInt 3)
          (.leaf (.scalar ⟨none, .integer .int32 3⟩)))) := by
  refine ⟨⟨by rfl, ?_, fun marshal => rfl⟩, by rfl, ?_, fun marshal => rfl⟩
  · refine describes_field rfl (describes_field rfl ?_)
    exact within_leaf.mpr ⟨_, rfl, rfl⟩
  · refine describes_field rfl (describes_field rfl ?_)
    refine within_list.mpr ⟨_, rfl, .cons (describes_field rfl ?_) .nil⟩
    exact within_leaf.mpr ⟨_, rfl, rfl⟩

end Turntf.Demo
