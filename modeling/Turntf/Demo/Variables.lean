/-
  Turntf.Demo.Variables — the variables of a scenario (`resolveValue`, `saveVars`, `scopeVars` and
  `lookupPath` of `runtime.go`).

  A step of a session is compared with what the scenario expects, in which variables are replaced
  first, and then stores parts of its result in variables of the session. A string that is nothing
  but a reference stands for the value of the variable, of whatever type; a reference inside a
  longer string is replaced by what `fmt.Sprint` makes of the value, which is a parameter, and one
  to an unknown variable stays as it is. The variables of the session hide those of the scenario.

  The comparisons of `executeConnect`, `executeRequest` and `executeExpectEvent` are one kind of step
  here: what is expected, what it is compared with, and what the paths to store start from. Copies
  are the values themselves.

  - `variable_recalled`: until another step of the session stores under the name, a reference to it
    expects just what was stored, wherever in a result it stands; and a value that was stored,
    unless it has a NaN, is what it expects itself (also one that no literal of a scenario matches).
-/

import Turntf.Demo.Match

namespace Turntf.Demo

open Document Checked

/-! ## Variables -/

/-- A map from names to values. -/
structure Vars where
  entries : List (Bytes × Data)
  distinct : (entries.map Prod.fst).Nodup

namespace Vars

def empty : Vars := ⟨[], List.nodup_nil⟩

def get (vars : Vars) (name : Bytes) : Option Data := vars.entries.lookup name

def set (vars : Vars) (name : Bytes) (v : Data) : Vars := ⟨put vars.entries name v, put_keys name v vars.distinct⟩

theorem get_set (vars : Vars) (name : Bytes) (v : Data) (name' : Bytes) :
    (vars.set name v).get name' = if name' = name then some v else vars.get name' := lookup_put vars.entries name v name'

end Vars

def scopeVars (globals locals : Vars) : Vars := locals.entries.foldl (fun scope p => scope.set p.1 p.2) globals

theorem get_foldl_set (entries : List (Bytes × Data)) (hkeys : (entries.map Prod.fst).Nodup) (scope : Vars) (name : Bytes) :
    (entries.foldl (fun scope p => scope.set p.1 p.2) scope).get name = (entries.lookup name).or (scope.get name) := by
  induction entries generalizing scope with
  | nil => rfl
  | cons p entries ih =>
    rw [List.map_cons, List.nodup_cons] at hkeys
    rw [List.foldl_cons, ih hkeys.2, Vars.get_set, lookup_cons_if]
    by_cases h : name = p.1
    · -- the name is not stored again
      have hnone : entries.lookup name = none := by
        refine List.lookup_eq_none_iff.mpr fun q hq => ?_
        rw [bne_iff_ne, h]
        exact fun he => hkeys.1 (he ▸ List.mem_map_of_mem hq)
      rw [hnone, if_pos h, if_pos h]
      rfl
    · rw [if_neg h, if_neg h]

theorem get_scopeVars (globals locals : Vars) (name : Bytes) :
    (scopeVars globals locals).get name = (locals.get name).or (globals.get name) :=
  get_foldl_set locals.entries locals.distinct globals name

/-! ## References -/

def dollar : UInt8 := 36
def openBrace : UInt8 := 123
def closeBrace : UInt8 := 125

def isLetter (b : UInt8) : Bool := (65 ≤ b && b ≤ 90) || (97 ≤ b && b ≤ 122) || b == 95

def isNameByte (b : UInt8) : Bool := isLetter b || (48 ≤ b && b ≤ 57)

def isName : Bytes → Bool
  | [] => false
  | b :: t => isLetter b && t.all isNameByte

/-- A reference at the start of a text, and what follows. -/
def takeVar : Bytes → Option (Bytes × Bytes)
  | d :: o :: t =>
    if d = dollar ∧ o = openBrace then
      match t.dropWhile isNameByte with
      | c :: rest => if isName (t.takeWhile isNameByte) ∧ c = closeBrace then some (t.takeWhile isNameByte, rest) else none
      | [] => none
    else none
  | _ => none

/-- `exactVarPattern` -/
def exactVar (s : Bytes) : Option Bytes :=
  match takeVar s with
  | some (name, []) => some name
  | _ => none

def varRef (name : Bytes) : Bytes := [dollar, openBrace] ++ name ++ [closeBrace]

section

variable (sprint : Data → Bytes) (vars : Vars)

/-- What stands for a variable inside a text. -/
def varText : Data → Bytes
  | .leaf (.bytes b) => b
  | v => sprint v

/-- `ReplaceAllStringFunc` with `embeddedVarPattern`; the first `skip` bytes were replaced. -/
def replaceVars : (skip : Nat) → Bytes → Bytes
  | _, [] => []
  | skip + 1, _ :: t => replaceVars skip t
  | 0, b :: t =>
    match takeVar (b :: t) with
    | some (name, rest) =>
      -- an unknown name leaves the reference
      (vars.get name).elim (varRef name) (varText sprint) ++ replaceVars (t.length - rest.length) t
    | none => b :: replaceVars 0 t

def resolveString (s : Bytes) : Data :=
  match exactVar s with
  | some name => (vars.get name).getD (str s)
  | none => str (replaceVars sprint vars 0 s)

mutual

def resolveValue : Data → Data
  | .object fields => .object (resolveFields fields)
  | .list items => .list (resolveItems items)
  | .leaf (.scalar ⟨none, .string s⟩) => resolveString sprint vars s
  | .leaf a => .leaf a

def resolveItems : List Data → List Data
  | [] => []
  | d :: items => resolveValue d :: resolveItems items

def resolveFields : List (String × Data) → List (String × Data)
  | [] => []
  | (key, d) :: fields => (key, resolveValue d) :: resolveFields fields

end

end

/-! ## Steps -/

/-- `strings.Split(path, ".")` -/
def pathParts (path : String) : List String := (path.toList.splitOn '.').map String.ofList

def lookupPath (root : Data) (path : String) : Option Data := follow (pathParts path) root

inductive CheckError where
  /-- `… assertion failed: %w` -/
  | unmatched (err : MatchError)
  /-- `save path %q not found` -/
  | notFound (path : String)

/-- The loop over the names to store, in the order of iteration. -/
def Vars.saveVars (root : Data) : (bindings : List (Bytes × String)) → (locals : Vars) → Vars × Option CheckError
  | [], locals => (locals, none)
  | (name, path) :: bindings, locals =>
    match lookupPath root path with
    | none => (locals, some (.notFound path))
    | some value => Vars.saveVars root bindings (locals.set name value)

/-- What a step compares and stores. Results and bindings are maps. -/
structure Check where
  expect : Data
  payload : Data
  root : Data
  save : List (Bytes × String)
  keyed : root.All fun _ => True
  distinct : (save.map Prod.fst).Nodup

section

variable (marshal : Data → Option Bytes) (sprint : Data → Bytes) (globals : Vars)

def execute (locals : Vars) (c : Check) : Vars × Option CheckError :=
  let expected := resolveValue sprint (scopeVars globals locals) c.expect
  match matchSubset marshal (dataValue expected) (dataValue c.payload) with
  | .error err => (locals, some (.unmatched err))
  | .ok () => Vars.saveVars c.root c.save locals

/-- The steps of a session, up to the first that fails. -/
def executeAll : (locals : Vars) → List Check → Vars × Option CheckError
  | locals, [] => (locals, none)
  | locals, c :: cs =>
    match execute marshal sprint globals locals c with
    | (locals, none) => executeAll locals cs
    | failed => failed

end

/-! ## Storing and recalling -/

section

variable {root : Data} {bindings : List (Bytes × String)} {locals locals' : Vars} {name : Bytes} {path : String}

/-- What is not stored stays. -/
theorem saveVars_other (h : Vars.saveVars root bindings locals = (locals', none)) (hname : name ∉ bindings.map Prod.fst) :
    locals'.get name = locals.get name := by
  induction bindings generalizing locals with
  | nil =>
    cases h
    rfl
  | cons b bindings ih =>
    rw [List.map_cons, List.mem_cons, not_or] at hname
    rw [Vars.saveVars] at h
    split at h
    · cases h
    · rw [ih h hname.2, Vars.get_set, if_neg hname.1]

theorem saveVars_own (h : Vars.saveVars root bindings locals = (locals', none)) (hkeys : (bindings.map Prod.fst).Nodup)
    (hmem : (name, path) ∈ bindings) : ∃ v, lookupPath root path = some v ∧ locals'.get name = some v := by
  induction bindings generalizing locals with
  | nil => exact absurd hmem List.not_mem_nil
  | cons b bindings ih =>
    rw [List.map_cons, List.nodup_cons] at hkeys
    rw [Vars.saveVars] at h
    split at h
    · cases h
    · rename_i v hv
      rcases List.mem_cons.mp hmem with rfl | hmem
      · exact ⟨v, hv, by rw [saveVars_other h hkeys.1, Vars.get_set, if_pos rfl]⟩
      · exact ih h hkeys.2 hmem

end

section

variable {marshal : Data → Option Bytes} {sprint : Data → Bytes} {globals locals locals' : Vars} {c : Check} {name : Bytes}

theorem execute_ok (h : execute marshal sprint globals locals c = (locals', none)) :
    Vars.saveVars c.root c.save locals = (locals', none) := by
  rw [execute] at h
  split at h
  · cases h
  · exact h

theorem executeAll_other {cs : List Check} (h : executeAll marshal sprint globals locals cs = (locals', none))
    (hname : ∀ c ∈ cs, name ∉ c.save.map Prod.fst) : locals'.get name = locals.get name := by
  induction cs generalizing locals with
  | nil =>
    cases h
    rfl
  | cons c cs ih =>
    rw [List.forall_mem_cons] at hname
    rw [executeAll] at h
    split at h
    · rename_i hc
      rw [ih h hname.2, saveVars_other (execute_ok hc) hname.1]
    · rename_i hfailed
      exact absurd h (hfailed _)

end

/-! ## References in expectations -/

theorem takeWhile_name {name : Bytes} (h : name.all isNameByte = true) :
    (name ++ [closeBrace]).takeWhile isNameByte = name ∧ (name ++ [closeBrace]).dropWhile isNameByte = [closeBrace] := by
  have hall : ∀ b ∈ name, isNameByte b = true := List.all_eq_true.mp h
  constructor
  · rw [List.takeWhile_append_of_pos hall]
    simp [closeBrace, isNameByte, isLetter]
  · rw [List.dropWhile_append_of_pos hall]
    simp [closeBrace, isNameByte, isLetter]

theorem isName_bytes {name : Bytes} (h : isName name = true) : name.all isNameByte = true := by
  cases name with
  | nil => rfl
  | cons b t =>
    rw [isName, Bool.and_eq_true] at h
    rw [List.all_cons, isNameByte, h.1, h.2]
    rfl

theorem exactVar_varRef {name : Bytes} (h : isName name = true) : exactVar (varRef name) = some name := by
  obtain ⟨htake, hdrop⟩ := takeWhile_name (isName_bytes h)
  have htakeVar : takeVar (varRef name) = some (name, []) := by
    show takeVar (dollar :: openBrace :: (name ++ [closeBrace])) = _
    rw [takeVar, if_pos ⟨rfl, rfl⟩, hdrop, htake]
    simp [h]
  rw [exactVar, htakeVar]

theorem resolveValue_nest (sprint : Data → Bytes) (vars : Vars) (keys : List String) (d : Data) :
    resolveValue sprint vars (nest keys d) = nest keys (resolveValue sprint vars d) := by
  induction keys with
  | nil => rfl
  | cons key keys ih =>
    show Document.object [(key, resolveValue sprint vars (nest keys d))] = _
    rw [ih]
    rfl

theorem resolveValue_varRef (sprint : Data → Bytes) {vars : Vars} {name : Bytes} {v : Data} (hname : isName name = true)
    (h : vars.get name = some v) : resolveValue sprint vars (str (varRef name)) = v := by
  show resolveString sprint vars (varRef name) = v
  rw [resolveString, exactVar_varRef hname]
  show (vars.get name).getD _ = v
  rw [h]
  rfl

/-! ## Expectations below keys -/

section

variable {marshal : Data → Option Bytes}

theorem verdict_ok {p : Prop} [Decidable p] {err : MatchError} : (if p then .ok () else .error err) = Except.ok () ↔ p := by
  by_cases h : p <;> simp [h]

/-- The same children match, whatever the path is. -/
def PathFree (marshal : Data → Option Bytes) (e : Data) : Prop :=
  ∀ (d : Data) (path path' : String), matchAt marshal path e d = .ok () → matchAt marshal path' e d = .ok ()

theorem matchItems_path {es : List Data} (h : ∀ e ∈ es, PathFree marshal e) (path path' : String) (i : Nat) (ds : List Data)
    (hm : matchItems marshal path i es ds = .ok ()) : matchItems marshal path' i es ds = .ok () := by
  induction es generalizing i ds with
  | nil => simp [matchItems]
  | cons e es ih =>
    rw [List.forall_mem_cons] at h
    cases ds with
    | nil => simp [matchItems]
    | cons d ds =>
      rw [matchItems, bind_ok] at hm ⊢
      obtain ⟨_, he, hes⟩ := hm
      exact ⟨(), h.1 d _ _ he, ih h.2 (i + 1) ds hes⟩

theorem matchFields_path {es : List (String × Data)} (h : ∀ p ∈ es, PathFree marshal p.2) (path path' : String)
    (ds : List (String × Data)) (hm : matchFields marshal path es ds = .ok ()) : matchFields marshal path' es ds = .ok () := by
  induction es with
  | nil => simp [matchFields]
  | cons p es ih =>
    rw [List.forall_mem_cons] at h
    rw [matchFields] at hm ⊢
    cases hd : ds.lookup p.1 with
    | none =>
      rw [hd] at hm
      cases hm
    | some d =>
      rw [hd] at hm
      obtain ⟨_, he, hes⟩ := bind_ok.mp hm
      exact bind_ok.mpr ⟨(), h.1 d _ _ he, ih h.2 hes⟩

/-- The path is in the errors only. -/
theorem pathFree (e : Data) : PathFree marshal e := by
  induction e using Document.induct with
  | leaf a =>
    intro d path path' h
    unfold matchAt at h ⊢
    cases hb : bothBytes marshal (.leaf a) d with
    | some p =>
      rw [hb] at h
      exact verdict_ok.mpr (verdict_ok.mp h)
    | none =>
      rw [hb] at h
      cases a with
      | nil => exact verdict_ok.mpr (verdict_ok.mp h)
      | scalar s => exact verdict_ok.mpr (verdict_ok.mp h)
      | bytes b =>
        cases d with
        | list items => cases h
        | object fields => cases h
        | leaf a =>
          cases a with
          | nil => cases h
          | scalar s => cases h
          | bytes b' => exact verdict_ok.mpr (verdict_ok.mp h)
  | list items ih =>
    intro d path path' h
    unfold matchAt at h ⊢
    cases hb : bothBytes marshal (.list items) d with
    | some p =>
      rw [hb] at h
      exact verdict_ok.mpr (verdict_ok.mp h)
    | none =>
      rw [hb] at h
      cases d with
      | leaf a => cases h
      | object fields => cases h
      | list ds =>
        obtain ⟨hlen, hitems⟩ := check_ok.mp h
        exact check_ok.mpr ⟨hlen, matchItems_path ih path path' 0 ds hitems⟩
  | object fields ih =>
    intro d path path' h
    unfold matchAt at h ⊢
    cases hb : bothBytes marshal (.object fields) d with
    | some p =>
      rw [hb] at h
      exact verdict_ok.mpr (verdict_ok.mp h)
    | none =>
      rw [hb] at h
      cases d with
      | leaf a => cases h
      | list ds => cases h
      | object ds => exact matchFields_path ih path path' ds h

/-- Bytes are not written with one key. -/
theorem decodeBytes_field (key : String) (e : Data) : ∃ err, decodeBytes marshal (.object [(key, e)]) = .error err := by
  cases h : decodeBytes marshal (.object [(key, e)]) with
  | error err => exact ⟨err, rfl⟩
  | ok b =>
    unfold decodeBytes at h
    obtain ⟨format, hformat, h⟩ := bind_ok.mp h
    rw [stringField, lookup_cons_if] at hformat
    by_cases hkey : "format" = key
    · -- the format is there, and so no value
      rw [← hkey] at h
      cases h
    · rw [if_neg hkey] at hformat
      cases hformat

theorem bothBytes_field (key : String) (e d : Data) : bothBytes marshal (.object [(key, e)]) d = none := by
  obtain ⟨err, herr⟩ : ∃ err, decodeBytes marshal (.object [(key, e)]) = .error err := decodeBytes_field key e
  cases d with
  | list items => rfl
  | object fields => rfl
  | leaf a =>
    cases a with
    | nil => rfl
    | scalar s => rfl
    | bytes b => rw [bothBytes, herr]

theorem matchAt_field (key : String) (e d : Data) (path : String) : matchAt marshal path (.object [(key, e)]) d = .ok () ↔
    ∃ fields d', d = .object fields ∧ fields.lookup key = some d' ∧
      matchAt marshal (if path = "" then key else path ++ "." ++ key) e d' = .ok () := by
  conv_lhs => unfold matchAt
  rw [bothBytes_field]
  cases d with
  | leaf a => simp
  | list items => simp
  | object fields =>
    show matchFields marshal path [(key, e)] fields = .ok () ↔ _
    rw [matchFields]
    cases hlookup : fields.lookup key with
    | none => simp [hlookup]
    | some d' =>
      constructor
      · intro h
        obtain ⟨_, h, _⟩ := bind_ok.mp h
        exact ⟨fields, d', rfl, hlookup, h⟩
      · rintro ⟨fields', d'', hf, hlookup', h⟩
        cases hf
        cases hlookup.symm.trans hlookup'
        exact bind_ok.mpr ⟨(), h, by rw [matchFields]⟩

theorem matchAt_nest (keys : List String) (e d : Data) (path : String) :
    matchAt marshal path (nest keys e) d = .ok () ↔ ∃ d', follow keys d = some d' ∧ matchAt marshal "" e d' = .ok () := by
  induction keys generalizing d path with
  | nil =>
    constructor
    · exact fun h => ⟨d, rfl, pathFree e d path "" h⟩
    · rintro ⟨d', hd', h⟩
      cases hd'
      exact pathFree e d "" path h
  | cons key keys ih =>
    show matchAt marshal path (.object [(key, nest keys e)]) d = .ok () ↔ _
    rw [matchAt_field]
    constructor
    · rintro ⟨fields, d', rfl, hlookup, h⟩
      obtain ⟨d'', hfollow, h⟩ := (ih d' _).mp h
      exact ⟨d'', by rw [follow, hlookup, Option.bind_some, hfollow], h⟩
    · rintro ⟨d'', hfollow, h⟩
      cases d with
      | leaf a => cases hfollow
      | list items => cases hfollow
      | object fields =>
        obtain ⟨d', hlookup, hfollow⟩ := Option.bind_eq_some_iff.mp hfollow
        exact ⟨fields, d', rfl, hlookup, (ih d' _).mpr ⟨d'', hfollow, h⟩⟩

/-- A float that is not equal to itself. -/
def Atom.isNaN : Atom → Bool
  | .scalar ⟨_, .float64 x⟩ => x == .nan
  | _ => false

theorem Basic.deepEqual_self {x : Basic} (h : ∀ y, x = .float64 y → y ≠ .nan) : x.deepEqual x = true := by
  cases x with
  | float64 y =>
    show y.eq y = true
    rw [Float64.eq_self]
    exact bne_iff_ne.mpr (h y rfl)
  | _ => exact beq_self_eq_true _

theorem number_ne_nan {a : Atom} {x : Float64} (h : a.isNaN = false) (hx : a.number = some x) : x ≠ .nan := by
  unfold Atom.number at hx
  split at hx
  case h_4 =>
    cases hx
    exact ne_of_beq_false h
  case h_5 => cases hx
  all_goals
    cases hx
    exact fun hn => Float64.noConfusion hn

theorem agrees_self {a : Atom} (h : a.isNaN = false) : agrees a a = true := by
  cases a with
  | nil => rfl
  | bytes b => exact beq_self_eq_true b
  | scalar s =>
    rw [agrees_scalar, sameScalar_eq]
    cases hx : (Atom.scalar s).number with
    | some x =>
      rw [Option.elim_some, numericEqual_leaf, hx, Option.any_some, Float64.eq_self]
      exact bne_iff_ne.mpr (number_ne_nan h hx)
    | none =>
      show (s.typeName == s.typeName && s.basic.deepEqual s.basic) = true
      rw [beq_self_eq_true, Bool.true_and]
      refine Basic.deepEqual_self fun y hy => ?_
      obtain ⟨name, x⟩ := s
      cases hy
      exact ne_of_beq_false h

theorem matchAt_self {d : Data} (h : d.All fun a => a.isNaN = false) (path : String) : matchAt marshal path d d = .ok () := by
  have hself : d.Within (fun c a => agrees c a = true) d := within_self h fun _ ha => agrees_self ha
  exact (matchAt_ok_iff (hself.imp fun _ _ _ => trivial)).mpr hself

/-- Whatever else the session did since it stored the value, as long as it did not store under the name again. -/
theorem variable_recalled {sprint : Data → Bytes} {globals locals locals₁ locals₂ : Vars} {c : Check} {cs : List Check}
    {name : Bytes} {path : String} (hexec : execute marshal sprint globals locals c = (locals₁, none))
    (hsave : (name, path) ∈ c.save) (hname : isName name = true)
    (hrun : executeAll marshal sprint globals locals₁ cs = (locals₂, none))
    (hkept : ∀ c' ∈ cs, name ∉ c'.save.map Prod.fst) :
    ∃ v, lookupPath c.root path = some v ∧
      (∀ (payload : Data) (path' : String), (payload.All fun _ => True) →
        (matchSubset marshal
            (dataValue (resolveValue sprint (scopeVars globals locals₂) (nest (pathParts path') (str (varRef name)))))
            (dataValue payload) = .ok () ↔
          ∃ d, lookupPath payload path' = some d ∧ matchSubset marshal (dataValue v) (dataValue d) = .ok ())) ∧
      ((v.All fun a => a.isNaN = false) → matchSubset marshal (dataValue v) (dataValue v) = .ok ()) := by
  obtain ⟨v, hv, hget⟩ := saveVars_own (execute_ok hexec) c.distinct hsave
  have hvkeys : v.All fun _ => True := follow_all c.keyed hv
  refine ⟨v, hv, fun payload path' hpayload => ?_, fun hnan => ?_⟩
  · have hscope : (scopeVars globals locals₂).get name = some v := by
      rw [get_scopeVars, executeAll_other hrun hkept, hget]
      rfl
    rw [resolveValue_nest, resolveValue_varRef sprint hname hscope, matchSubset, normalizeValue_value (nest_all hvkeys _),
      normalizeValue_value hpayload, matchAt_nest]
    constructor
    · rintro ⟨d, hd, h⟩
      refine ⟨d, hd, ?_⟩
      rwa [matchSubset, normalizeValue_value hvkeys, normalizeValue_value (follow_all hpayload hd)]
    · rintro ⟨d, hd, h⟩
      rw [matchSubset, normalizeValue_value hvkeys, normalizeValue_value (follow_all hpayload hd)] at h
      exact ⟨d, hd, h⟩
  · rw [matchSubset, normalizeValue_value hvkeys]
    exact matchAt_self hnan ""

end

def modeRoot : Data := .object [("ok", .object [("delivery_mode", .leaf (.scalar sampleMode))])]

theorem modeRoot_all {P : Atom → Prop} (h : P (.scalar sampleMode)) : modeRoot.All P := by
  simp [modeRoot, h]

def storeMode : Check where
  expect := .object []
  payload := modeRoot
  root := modeRoot
  save := [(utf8 "mode", "ok.delivery_mode")]
  keyed := modeRoot_all trivial
  distinct := List.nodup_singleton _

/-- A delivery mode, which is not equal to any string of a scenario, is equal to itself by way of a variable. -/
theorem variable_recalled_mode :
    ∃ locals, execute (fun _ => none) (fun _ => []) .empty .empty storeMode = (locals, none) ∧
      matchSubset (fun _ => none)
        (dataValue (resolveValue (fun _ => []) (scopeVars .empty locals)
          (nest (pathParts "ok.delivery_mode") (str (varRef (utf8 "mode"))))))
        (dataValue modeRoot) = .ok () := by
  have hexec : execute (fun _ => none) (fun _ => []) .empty .empty storeMode =
      (Vars.empty.set (utf8 "mode") (.leaf (.scalar sampleMode)), none) := rfl
  have hrun : executeAll (fun _ => none) (fun _ => []) .empty (Vars.empty.set (utf8 "mode") (.leaf (.scalar sampleMode))) [] =
      (Vars.empty.set (utf8 "mode") (.leaf (.scalar sampleMode)), none) := rfl
  obtain ⟨v, hv, hiff, hself⟩ := variable_recalled hexec List.mem_cons_self (by decide +kernel) hrun (by simp)
  refine ⟨_, hexec, (hiff modeRoot "ok.delivery_mode" (modeRoot_all trivial)).mpr ⟨v, hv, hself ?_⟩⟩
  exact follow_all (modeRoot_all rfl) hv

end Turntf.Demo
