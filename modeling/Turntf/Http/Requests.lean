/-
  Turntf.Http.Requests — the requests of `HTTPClient` (`http_client.go`).

  Every method checks its arguments and makes one request: an HTTP method, a target and possibly a
  body. IDs go into the path in decimal, a metadata key escaped, an attachment type as it is;
  filters go into the query, escaped, and are left out where they are not set. Here a request is
  what `doJSON` is called with; the token is a header that goes with every one of them, and the
  body is the value before `json.Marshal`.

  `Resource` is what the API has, and `Resource.read` how a server finds in a target which one is
  meant: it splits the target, undoes the escapes and cleans the path.

  - `request_addressed`: the request of every call that is accepted is read as the resource and the
    filters that were asked for, if the metadata key is not `.` or `..` and the attachment type in
    the path has no reserved character.
  - `dots_addressed`: with the key `..`, which passes the check of keys, it is read as the user.
-/

import Turntf.Lib.Decimal
import Turntf.Lib.Url
import Turntf.Client.Transport
import Turntf.Metadata.Keys

namespace Turntf.Http

open Checked Json Metadata Space Url

inductive Method where
  | get
  | post
  | put
  | patch
  | delete
  deriving DecidableEq

/-! ## Arguments -/

def sourceTexts : List Bytes := [keyword "plain", keyword "hashed"]

inductive PasswordSource where
  | plain
  | hashed
  | other (text : Bytes) (h : text ∉ sourceTexts)
  deriving DecidableEq

structure PasswordInput where
  source : PasswordSource
  encoded : Bytes
  deriving DecidableEq

def PasswordInput.validate (p : PasswordInput) : Except RequestError Unit :=
  match p.source with
  | .other text _ => .error (.quoted "invalid password source" text)
  | _ => if p.encoded = [] then .error (.text "password is required") else .ok ()

def PasswordInput.wireValue (p : PasswordInput) : Bytes := p.encoded

def modeTexts : List Bytes := [keyword "best_effort", keyword "route_retry"]

/-- `DeliveryMode`, of which no other value is good for a packet. -/
inductive PacketMode where
  | bestEffort
  | routeRetry
  | other (text : Bytes) (h : text ∉ modeTexts)
  deriving DecidableEq

def PacketMode.text : PacketMode → Bytes
  | .bestEffort => keyword "best_effort"
  | .routeRetry => keyword "route_retry"
  | .other text _ => text

def PacketMode.validatePacketMode : PacketMode → Except RequestError Unit
  | .bestEffort => .ok ()
  | .routeRetry => .ok ()
  | .other text _ => .error (.quoted "invalid delivery_mode" text)

def attachmentTexts : List Bytes :=
  [keyword "channel_manager", keyword "channel_writer", keyword "channel_subscription", keyword "user_blacklist"]

/-- Any text is a type. -/
inductive AttachmentType where
  | channelManager
  | channelWriter
  | channelSubscription
  | userBlacklist
  | other (text : Bytes) (h : text ∉ attachmentTexts)
  deriving DecidableEq

namespace AttachmentType

def text : AttachmentType → Bytes
  | .channelManager => keyword "channel_manager"
  | .channelWriter => keyword "channel_writer"
  | .channelSubscription => keyword "channel_subscription"
  | .userBlacklist => keyword "user_blacklist"
  | .other text _ => text

def ofText (t : Bytes) : AttachmentType :=
  if h : t ∈ attachmentTexts then
    if t = keyword "channel_manager" then .channelManager else if t = keyword "channel_writer" then .channelWriter
    else if t = keyword "channel_subscription" then .channelSubscription else .userBlacklist
  else .other t h

theorem ofText_text (ty : AttachmentType) : ofText ty.text = ty := by
  cases ty with
  | other t h => simp [ofText, text, h]
  | _ => decide

end AttachmentType

structure CreateUserRequest where
  username : Bytes
  loginName : Bytes := []
  password : PasswordInput
  profileJSON : Bytes := []
  role : Bytes

/-- Nil pointers are not updated. -/
structure UpdateUserRequest where
  username : Option Bytes := none
  loginName : Option Bytes := none
  password : Option PasswordInput := none
  profileJSON : Option Bytes := none
  role : Option Bytes := none

def validateUser (what : String) (r : UserRef) : Except RequestError Unit :=
  match Client.validateUser r with
  | some err => .error (.text ("invalid " ++ what ++ ": " ++ err))
  | none => .ok ()

def normalizeLoginName (value : Bytes) : Bytes := trimSpace value

def validateLoginSelector (nodeID userID : Int) (loginName : Bytes) : Except RequestError Bytes :=
  let normalized := normalizeLoginName loginName
  let hasIDSelector := nodeID ≠ 0 ∨ userID ≠ 0
  let hasLoginNameSelector := normalized ≠ []
  if hasIDSelector ↔ hasLoginNameSelector then .error (.text "exactly one of (node_id,user_id) or login_name is required")
  else if hasIDSelector ∧ (nodeID = 0 ∨ userID = 0) then .error (.text "both node_id and user_id are required")
  else .ok normalized

/-- `ListUsersRequest.validate` -/
def validateUID (uid : UserRef) : Except RequestError Unit :=
  if uid = ⟨0, 0⟩ then .ok ()
  else if uid.nodeID ≤ 0 then .error (.text "uid.node_id must be a positive integer")
  else if uid.userID ≤ 0 then .error (.text "uid.user_id must be a positive integer")
  else .ok ()

/-! ## Requests -/

inductive Body where
  | login (nodeID userID : Int) (loginName password : Bytes)
  | createUser (username loginName password profile role : Bytes)
  | updateUser (username loginName password profile role : Option Bytes)
  | message (body deliveryKind deliveryMode : Bytes)
  /-- The copy of an empty slice is nil. -/
  | attachment (configJSON : Option Bytes)
  | metadata (req : UpsertUserMetadataRequest)

structure Request where
  method : Method
  path : Bytes
  body : Option Body := none

/-- "/nodes/%d/users/%d…" -/
def userPath (r : UserRef) (rest : List Bytes) : List Bytes :=
  [keyword "nodes", Decimal.int r.nodeID, keyword "users", Decimal.int r.userID] ++ rest

def loginWithRequest (nodeID userID : Int) (loginName : Bytes) (password : PasswordInput) : Except RequestError Request := do
  let loginName ← validateLoginSelector nodeID userID loginName
  match password.validate with
  | .error (.text message) => .error (.text ("invalid password: " ++ message))
  | .error (.quoted message value) => .error (.quoted ("invalid password: " ++ message) value)
  | .error err => .error err
  | .ok () =>
    .ok ⟨.post, path [keyword "auth", keyword "login"], some (.login nodeID userID loginName password.wireValue)⟩

def createUser (req : CreateUserRequest) : Except RequestError Request :=
  if req.username = [] then .error (.text "username is required")
  else if req.role = [] then .error (.text "role is required")
  else .ok ⟨.post, path [keyword "users"],
    some (.createUser req.username req.loginName req.password.wireValue req.profileJSON req.role)⟩

def createChannel (req : CreateUserRequest) : Except RequestError Request :=
  createUser (if req.role = [] then { req with role := keyword "channel" } else req)

def uidText (uid : UserRef) : Bytes := Decimal.int uid.nodeID ++ ch ':' :: Decimal.int uid.userID

def listUsers (name : Bytes) (uid : UserRef) : Except RequestError Request := do
  let name := trimSpace name
  validateUID uid
  let values := (Values.setIf (name ≠ []) (keyword "name") name []).setIf (uid ≠ ⟨0, 0⟩) (keyword "uid") (uidText uid)
  .ok ⟨.get, target [keyword "users"] values, none⟩

def listMessages (r : UserRef) (limit peerNodeID peerUserID : Int) : Except RequestError Request :=
  let values := ((Values.setIf (limit > 0) (keyword "limit") (Decimal.int limit) []).setIf (peerNodeID ≠ 0 ∨ peerUserID ≠ 0)
    (keyword "peer_node_id") (Decimal.int peerNodeID)).setIf (peerNodeID ≠ 0 ∨ peerUserID ≠ 0)
    (keyword "peer_user_id") (Decimal.int peerUserID)
  .ok ⟨.get, target (userPath r [keyword "messages"]) values, none⟩

def postMessage (r : UserRef) (body : Bytes) : Except RequestError Request := do
  validateUser "target" r
  if body = [] then .error (.text "body is required")
  else .ok ⟨.post, path (userPath r [keyword "messages"]), some (.message body [] [])⟩

def postPacket (targetNodeID : Int) (relayTarget : UserRef) (body : Bytes) (mode : PacketMode) : Except RequestError Request := do
  if targetNodeID = 0 then .error (.text "target node_id is required")
  else
    validateUser "relay_target" relayTarget
    if body = [] then .error (.text "body is required")
    else
      mode.validatePacketMode
      if targetNodeID ≠ relayTarget.nodeID then
        .error (.text ("target node ID " ++ toString targetNodeID ++ " does not match target user node_id " ++
          toString relayTarget.nodeID))
      else .ok ⟨.post, path (userPath relayTarget [keyword "messages"]), some (.message body (keyword "transient") mode.text)⟩

def listClusterNodes : Except RequestError Request := .ok ⟨.get, path [keyword "cluster", keyword "nodes"], none⟩

def listNodeLoggedInUsers (nodeID : Int) : Except RequestError Request :=
  if nodeID = 0 then .error (.text "node_id is required")
  else .ok ⟨.get, path [keyword "cluster", keyword "nodes", Decimal.int nodeID, keyword "logged-in-users"], none⟩

def getUser (r : UserRef) : Except RequestError Request := do
  validateUser "target" r
  .ok ⟨.get, path (userPath r []), none⟩

def updateUser (r : UserRef) (req : UpdateUserRequest) : Except RequestError Request := do
  validateUser "target" r
  if req.role = some (keyword "channel") ∧ req.loginName ≠ none ∧ req.loginName ≠ some [] then
    .error (.text "channel users cannot have a login_name")
  else .ok ⟨.patch, path (userPath r []),
    some (.updateUser req.username req.loginName (req.password.map PasswordInput.wireValue) req.profileJSON req.role)⟩

def deleteUser (r : UserRef) : Except RequestError Request := do
  validateUser "target" r
  .ok ⟨.delete, path (userPath r []), none⟩

def listEvents (after limit : Int) : Except RequestError Request :=
  let values := (Values.setIf (after > 0) (keyword "after") (Decimal.int after) []).setIf (limit > 0)
    (keyword "limit") (Decimal.int limit)
  .ok ⟨.get, target [keyword "events"] values, none⟩

def operationsStatus : Except RequestError Request := .ok ⟨.get, path [keyword "ops", keyword "status"], none⟩

def metrics : Except RequestError Request := .ok ⟨.get, path [keyword "metrics"], none⟩

def userMetadataPath (owner : UserRef) (key : Bytes) : Bytes :=
  path (userPath owner [keyword "metadata", pathSegment.escape key])

def getUserMetadata (owner : UserRef) (key : Bytes) : Except RequestError Request := do
  validateUser "owner" owner
  validateMetadataKey key
  .ok ⟨.get, userMetadataPath owner key, none⟩

def upsertUserMetadata (owner : UserRef) (key : Bytes) (req : UpsertUserMetadataRequest) : Except RequestError Request := do
  validateUser "owner" owner
  validateMetadataKey key
  validateHTTPMetadataUpsertRequest key req
  .ok ⟨.put, userMetadataPath owner key, some (.metadata req)⟩

def deleteUserMetadata (owner : UserRef) (key : Bytes) : Except RequestError Request := do
  validateUser "owner" owner
  validateMetadataKey key
  .ok ⟨.delete, userMetadataPath owner key, none⟩

def scanUserMetadata (owner : UserRef) (req : ScanUserMetadataRequest) : Except RequestError Request := do
  validateUser "owner" owner
  req.validate
  let values := ((Values.setIf (req.pre ≠ []) (keyword "prefix") req.pre []).setIf (req.after ≠ [])
    (keyword "after") req.after).setIf (req.limit > 0) (keyword "limit") (Decimal.int req.limit)
  .ok ⟨.get, target (userPath owner [keyword "metadata"]) values, none⟩

/-- "/nodes/%d/users/%d/attachments/%s/%d/%d" -/
def attachmentPath (owner subject : UserRef) (ty : AttachmentType) : Bytes :=
  path (userPath owner [keyword "attachments", ty.text, Decimal.int subject.nodeID, Decimal.int subject.userID])

def upsertAttachment (owner subject : UserRef) (ty : AttachmentType) (configJSON : Bytes) : Except RequestError Request := do
  validateUser "owner" owner
  validateUser "subject" subject
  .ok ⟨.put, attachmentPath owner subject ty, some (.attachment (if configJSON = [] then none else some configJSON))⟩

def deleteAttachment (owner subject : UserRef) (ty : AttachmentType) : Except RequestError Request := do
  validateUser "owner" owner
  validateUser "subject" subject
  .ok ⟨.delete, attachmentPath owner subject ty, none⟩

/-- The one filter is put behind the path by hand. -/
def listAttachments (owner : UserRef) (ty : AttachmentType) : Except RequestError Request := do
  validateUser "owner" owner
  let attachments := path (userPath owner [keyword "attachments"])
  if ty.text ≠ [] then
    .ok ⟨.get, attachments ++ keyword "?attachment_type=" ++ queryComponent.escape ty.text, none⟩
  else .ok ⟨.get, attachments, none⟩

/-- The methods of `HTTPClient`, with their arguments. -/
inductive Call where
  | loginWithPassword (nodeID userID : Int) (password : PasswordInput)
  | loginByLoginNameWithPassword (loginName : Bytes) (password : PasswordInput)
  | createUser (req : CreateUserRequest)
  | createChannel (req : CreateUserRequest)
  | listUsers (name : Bytes) (uid : UserRef)
  | createSubscription (user channel : UserRef)
  | listMessages (target : UserRef) (limit peerNodeID peerUserID : Int)
  | postMessage (target : UserRef) (body : Bytes)
  | postPacket (targetNodeID : Int) (relayTarget : UserRef) (body : Bytes) (mode : PacketMode)
  | listClusterNodes
  | listNodeLoggedInUsers (nodeID : Int)
  | blockUser (owner blocked : UserRef)
  | unblockUser (owner blocked : UserRef)
  | listBlockedUsers (owner : UserRef)
  | getUser (target : UserRef)
  | updateUser (target : UserRef) (req : UpdateUserRequest)
  | deleteUser (target : UserRef)
  | listEvents (after limit : Int)
  | operationsStatus
  | metrics
  | getUserMetadata (owner : UserRef) (key : Bytes)
  | upsertUserMetadata (owner : UserRef) (key : Bytes) (req : UpsertUserMetadataRequest)
  | deleteUserMetadata (owner : UserRef) (key : Bytes)
  | scanUserMetadata (owner : UserRef) (req : ScanUserMetadataRequest)
  | upsertAttachment (owner subject : UserRef) (ty : AttachmentType) (configJSON : Bytes)
  | deleteAttachment (owner subject : UserRef) (ty : AttachmentType)
  | listAttachments (owner : UserRef) (ty : AttachmentType)

def Call.request : Call → Except RequestError Request
  | .loginWithPassword nodeID userID password => loginWithRequest nodeID userID [] password
  | .loginByLoginNameWithPassword loginName password => loginWithRequest 0 0 loginName password
  | .createUser req => Http.createUser req
  | .createChannel req => Http.createChannel req
  | .listUsers name uid => Http.listUsers name uid
  | .createSubscription user channel => Http.upsertAttachment user channel .channelSubscription (keyword "\x7b\x7d")
  | .listMessages r limit peerNodeID peerUserID => Http.listMessages r limit peerNodeID peerUserID
  | .postMessage r body => Http.postMessage r body
  | .postPacket targetNodeID relayTarget body mode => Http.postPacket targetNodeID relayTarget body mode
  | .listClusterNodes => Http.listClusterNodes
  | .listNodeLoggedInUsers nodeID => Http.listNodeLoggedInUsers nodeID
  | .blockUser owner blocked => Http.upsertAttachment owner blocked .userBlacklist (keyword "\x7b\x7d")
  | .unblockUser owner blocked => Http.deleteAttachment owner blocked .userBlacklist
  | .listBlockedUsers owner => Http.listAttachments owner .userBlacklist
  | .getUser r => Http.getUser r
  | .updateUser r req => Http.updateUser r req
  | .deleteUser r => Http.deleteUser r
  | .listEvents after limit => Http.listEvents after limit
  | .operationsStatus => Http.operationsStatus
  | .metrics => Http.metrics
  | .getUserMetadata owner key => Http.getUserMetadata owner key
  | .upsertUserMetadata owner key req => Http.upsertUserMetadata owner key req
  | .deleteUserMetadata owner key => Http.deleteUserMetadata owner key
  | .scanUserMetadata owner req => Http.scanUserMetadata owner req
  | .upsertAttachment owner subject ty configJSON => Http.upsertAttachment owner subject ty configJSON
  | .deleteAttachment owner subject ty => Http.deleteAttachment owner subject ty
  | .listAttachments owner ty => Http.listAttachments owner ty

/-! ## Resources -/

/-- What the API has, with the filters of the lists. -/
inductive Resource where
  | login
  | users (name : Option Bytes) (uid : Option UserRef)
  | user (r : UserRef)
  | messages (r : UserRef) (limit : Option Int) (peer : Option UserRef)
  | clusterNodes
  | loggedInUsers (nodeID : Int)
  | events (after limit : Option Int)
  | opsStatus
  | metrics
  | metadata (owner : UserRef) (key : Bytes)
  | metadataPage (owner : UserRef) (pre after : Option Bytes) (limit : Option Int)
  | attachment (owner : UserRef) (ty : AttachmentType) (subject : UserRef)
  | attachments (owner : UserRef) (ty : Option AttachmentType)
  deriving DecidableEq

/-- The fixed segments. -/
inductive Word where
  | attachments
  | auth
  | cluster
  | events
  | loggedInUsers
  | login
  | messages
  | metadata
  | metrics
  | nodes
  | ops
  | status
  | users
  deriving DecidableEq

def Word.text : Word → Bytes
  | .attachments => keyword "attachments"
  | .auth => keyword "auth"
  | .cluster => keyword "cluster"
  | .events => keyword "events"
  | .loggedInUsers => keyword "logged-in-users"
  | .login => keyword "login"
  | .messages => keyword "messages"
  | .metadata => keyword "metadata"
  | .metrics => keyword "metrics"
  | .nodes => keyword "nodes"
  | .ops => keyword "ops"
  | .status => keyword "status"
  | .users => keyword "users"

def words : List Word :=
  [.attachments, .auth, .cluster, .events, .loggedInUsers, .login, .messages, .metadata, .metrics, .nodes, .ops, .status, .users]

def word (s : Bytes) : Option Word := words.find? fun w => w.text = s

def readUser (n u : Bytes) : Option UserRef :=
  (Decimal.parseInt n).bind fun nodeID => (Decimal.parseInt u).map fun userID => ⟨nodeID, userID⟩

/-- A filter that may be missing. -/
def filter {α : Type} (vs : Values) (k : String) (parse : Bytes → Option α) : Option (Option α) :=
  match vs.lookup (keyword k) with
  | none => some none
  | some t => (parse t).map some

def readUID (t : Bytes) : Option UserRef := readUser (cut (ch ':') t).1 (cut (ch ':') t).2

/-- Both filters of a peer, or none. -/
def peer? : Option Int → Option Int → Option (Option UserRef)
  | some nodeID, some userID => some (some ⟨nodeID, userID⟩)
  | none, none => some none
  | _, _ => none

namespace Resource

/-- The lists of a user. -/
def readList (r : UserRef) (vs : Values) : Option Word → Option Resource
  | some .messages => do
    let limit ← filter vs "limit" Decimal.parseInt
    let nodeID ← filter vs "peer_node_id" Decimal.parseInt
    let userID ← filter vs "peer_user_id" Decimal.parseInt
    let peer ← peer? nodeID userID
    return .messages r limit peer
  | some .metadata => do
    let pre ← filter vs "prefix" some
    let after ← filter vs "after" some
    let limit ← filter vs "limit" Decimal.parseInt
    return .metadataPage r pre after limit
  | some .attachments => do
    let ty ← filter vs "attachment_type" some
    return .attachments r (ty.map AttachmentType.ofText)
  | _ => none

/-- What a user has. -/
def readOfUser (r : UserRef) (vs : Values) : List Bytes → Option Resource
  | [] => some (.user r)
  | [s] => readList r vs (word s)
  | [s, key] => if word s = some .metadata then some (.metadata r key) else none
  | [s, ty, n, u] =>
    if word s = some .attachments then (readUser n u).map fun subject => .attachment r (AttachmentType.ofText ty) subject else none
  | _ => none

def readTop (vs : Values) : Option Word → Option Resource
  | some .users => do
    let name ← filter vs "name" some
    let uid ← filter vs "uid" readUID
    return .users name uid
  | some .events => do
    let after ← filter vs "after" Decimal.parseInt
    let limit ← filter vs "limit" Decimal.parseInt
    return .events after limit
  | some .metrics => some .metrics
  | _ => none

def readFixed : Option Word → Option Word → Option Resource
  | some .auth, some .login => some .login
  | some .cluster, some .nodes => some .clusterNodes
  | some .ops, some .status => some .opsStatus
  | _, _ => none

def readPath (vs : Values) : List Bytes → Option Resource
  | [s] => readTop vs (word s)
  | [s, t] => readFixed (word s) (word t)
  | s :: n :: t :: u :: rest =>
    if word s = some .nodes ∧ word t = some .users then (readUser n u).bind fun r => readOfUser r vs rest
    else if word s = some .cluster ∧ word n = some .nodes ∧ word u = some .loggedInUsers ∧ rest = [] then
      (Decimal.parseInt t).map .loggedInUsers
    else none
  | _ => none

theorem readPath_cons (vs : Values) (s n t u : Bytes) (rest : List Bytes) :
    readPath vs (s :: n :: t :: u :: rest) =
      if word s = some .nodes ∧ word t = some .users then (readUser n u).bind fun r => readOfUser r vs rest
      else if word s = some .cluster ∧ word n = some .nodes ∧ word u = some .loggedInUsers ∧ rest = [] then
        (Decimal.parseInt t).map .loggedInUsers
      else none := rfl

def read (t : Bytes) : Option Resource := (locate t).bind fun p => readPath p.2 p.1

end Resource

/-- What a call is about. -/
def Call.asks : Call → Method × Resource
  | .loginWithPassword _ _ _ => (.post, .login)
  | .loginByLoginNameWithPassword _ _ => (.post, .login)
  | .createUser _ => (.post, .users none none)
  | .createChannel _ => (.post, .users none none)
  | .listUsers name uid =>
    (.get, .users (if trimSpace name ≠ [] then some (trimSpace name) else none) (if uid ≠ ⟨0, 0⟩ then some uid else none))
  | .createSubscription user channel => (.put, .attachment user .channelSubscription channel)
  | .listMessages r limit peerNodeID peerUserID =>
    (.get, .messages r (if limit > 0 then some limit else none)
      (if peerNodeID ≠ 0 ∨ peerUserID ≠ 0 then some ⟨peerNodeID, peerUserID⟩ else none))
  | .postMessage r _ => (.post, .messages r none none)
  | .postPacket _ relayTarget _ _ => (.post, .messages relayTarget none none)
  | .listClusterNodes => (.get, .clusterNodes)
  | .listNodeLoggedInUsers nodeID => (.get, .loggedInUsers nodeID)
  | .blockUser owner blocked => (.put, .attachment owner .userBlacklist blocked)
  | .unblockUser owner blocked => (.delete, .attachment owner .userBlacklist blocked)
  | .listBlockedUsers owner => (.get, .attachments owner (some .userBlacklist))
  | .getUser r => (.get, .user r)
  | .updateUser r _ => (.patch, .user r)
  | .deleteUser r => (.delete, .user r)
  | .listEvents after limit =>
    (.get, .events (if after > 0 then some after else none) (if limit > 0 then some limit else none))
  | .operationsStatus => (.get, .opsStatus)
  | .metrics => (.get, .metrics)
  | .getUserMetadata owner key => (.get, .metadata owner key)
  | .upsertUserMetadata owner key _ => (.put, .metadata owner key)
  | .deleteUserMetadata owner key => (.delete, .metadata owner key)
  | .scanUserMetadata owner req =>
    (.get, .metadataPage owner (if req.pre ≠ [] then some req.pre else none) (if req.after ≠ [] then some req.after else none)
      (if req.limit > 0 then some req.limit else none))
  | .upsertAttachment owner subject ty _ => (.put, .attachment owner ty subject)
  | .deleteAttachment owner subject ty => (.delete, .attachment owner ty subject)
  | .listAttachments owner ty => (.get, .attachments owner (if ty.text ≠ [] then some ty else none))

/-- The texts that go into the path stay one segment: of a key only the dots are left to ask for, of
    an attachment type, which nothing checks or escapes, everything. -/
def Call.Plain : Call → Prop
  | .getUserMetadata _ key | .upsertUserMetadata _ key _ | .deleteUserMetadata _ key => key ≠ [dot] ∧ key ≠ [dot, dot]
  | .upsertAttachment _ _ ty _ | .deleteAttachment _ _ ty => Ordinary ty.text ∧ ∀ b ∈ ty.text, pathSegment.keep b = true
  | _ => True

/-! ## Reading -/

theorem mem_words (w : Word) : w ∈ words := by cases w <;> decide

/-- Each word is read as itself, and nothing of it is escaped. -/
theorem words_spec : ∀ w ∈ words, word w.text = some w ∧ w.text.all pathSegment.keep = true ∧ Ordinary w.text := by
  decide +kernel

theorem word_text (w : Word) : word w.text = some w := (words_spec w (mem_words w)).1

theorem named_word (w : Word) : Named w.text w.text :=
  .plain (List.all_eq_true.mp (words_spec w (mem_words w)).2.1) (words_spec w (mem_words w)).2.2

theorem named_int (n : Int) : Named (Decimal.int n) (Decimal.int n) := by
  have hkeep : ∀ b ∈ Decimal.int n, pathSegment.keep b = true ∧ b ≠ dot := by
    intro b hb
    rcases Decimal.int_bytes hb with hd | rfl
    · have hall : ∀ b : UInt8, Decimal.isDigit b = true → pathSegment.keep b = true ∧ b ≠ dot := by
        intro b hd
        refine ⟨?_, ?_⟩
        · simp only [Decimal.isDigit] at hd
          simp [pathSegment, isUnreserved, isLetterOrDigit, hd]
        · rintro rfl
          exact absurd hd (by decide)
      exact hall b hd
    · decide
  exact .plain (fun b hb => (hkeep b hb).1) (.of_no_dot (Decimal.int_ne_nil n) fun h => (hkeep dot h).2 rfl)

section

variable {r : UserRef} {raws segs : List Bytes} {vs : Values}

theorem named_userPath (r : UserRef) (h : List.Forall₂ Named raws segs) :
    List.Forall₂ Named (userPath r raws) (userPath r segs) :=
  .cons (named_word .nodes) (.cons (named_int _) (.cons (named_word .users) (.cons (named_int _) h)))

theorem read_target (h : List.Forall₂ Named raws segs) (vs : Values) :
    Resource.read (target raws vs) = Resource.readPath vs segs := by
  rw [Resource.read, locate_target h, Option.bind_some]

theorem readUser_int (r : UserRef) : readUser (Decimal.int r.nodeID) (Decimal.int r.userID) = some r := by
  simp [readUser, Decimal.parseInt_int]

theorem read_userPath (r : UserRef) (h : List.Forall₂ Named raws segs) (vs : Values) :
    Resource.read (target (userPath r raws) vs) = Resource.readOfUser r vs segs := by
  rw [read_target (named_userPath r h)]
  show Resource.readPath vs (Word.nodes.text :: Decimal.int r.nodeID :: Word.users.text :: Decimal.int r.userID :: segs) = _
  rw [Resource.readPath_cons, word_text, word_text, if_pos ⟨rfl, rfl⟩, readUser_int, Option.bind_some]

theorem read_list (r : UserRef) (w : Word) (vs : Values) :
    Resource.read (target (userPath r [w.text]) vs) = Resource.readList r vs (some w) := by
  rw [read_userPath r (.cons (named_word w) .nil), ← word_text w]
  rfl

theorem read_top (w : Word) (vs : Values) : Resource.read (target [w.text] vs) = Resource.readTop vs (some w) := by
  rw [read_target (.cons (named_word w) .nil), ← word_text w]
  rfl

theorem read_fixed (w w' : Word) : Resource.read (path [w.text, w'.text]) = Resource.readFixed (some w) (some w') := by
  rw [← target_nil, read_target (.cons (named_word w) (.cons (named_word w') .nil)), ← word_text w, ← word_text w']
  rfl

end

section

variable {α : Type} {parse : Bytes → Option α} {vs : Values} {k : String}

theorem filter_own {t : Bytes} {a : α} (hp : parse t = some a) (hvs : filter vs k parse = some none) (c : Prop) [Decidable c] :
    filter (vs.setIf c (keyword k) t) k parse = some (if c then some a else none) := by
  by_cases h : c
  · rw [filter, lookup_setIf, if_pos ⟨h, rfl⟩, if_pos h]
    show (parse t).map some = _
    rw [hp]
    rfl
  · rw [if_neg h, ← hvs, filter, filter, lookup_setIf, if_neg fun hc => h hc.1]

theorem filter_other {k' : String} (hk : keyword k ≠ keyword k') (t : Bytes) (c : Prop) [Decidable c] :
    filter (vs.setIf c (keyword k') t) k parse = filter vs k parse := by
  rw [filter, filter, lookup_setIf, if_neg fun hc => hk hc.2]

theorem filter_nil : filter [] k parse = some none := rfl

theorem readUID_uidText (uid : UserRef) : readUID (uidText uid) = some uid := by
  have hcolon : ch ':' ∉ Decimal.int uid.nodeID := by
    intro h
    rcases Decimal.int_bytes h with h | h
    · exact absurd h (by decide)
    · exact absurd h (by decide)
  rw [readUID, uidText, cut_append hcolon]
  exact readUser_int uid

theorem peer?_if (c : Prop) [Decidable c] (nodeID userID : Int) :
    peer? (if c then some nodeID else none) (if c then some userID else none) = some (if c then some ⟨nodeID, userID⟩ else none) := by
  by_cases h : c <;> simp [h, peer?]

end

/-! ## Every call -/

/-- The request is about what was asked for. -/
def Request.Addressed (r : Request) (asked : Method × Resource) : Prop :=
  r.method = asked.1 ∧ Resource.read r.path = some asked.2

section

variable {q : Request} {r owner subject : UserRef}

theorem addressed_user (r : UserRef) : Resource.read (path (userPath r [])) = some (.user r) := by
  rw [← target_nil, read_userPath r .nil]
  rfl

theorem addressed_messages (r : UserRef) : Resource.read (path (userPath r [keyword "messages"])) = some (.messages r none none) := by
  rw [← target_nil]
  exact read_list r .messages []

theorem addressed_key (owner : UserRef) {key : Bytes} (ho : Ordinary key) :
    Resource.read (userMetadataPath owner key) = some (.metadata owner key) := by
  rw [userMetadataPath, ← target_nil]
  show Resource.read (target (userPath owner [Word.metadata.text, pathSegment.escape key]) []) = _
  rw [read_userPath owner (.cons (named_word .metadata) (.cons (.escaped ho) .nil))]
  show (if word Word.metadata.text = some .metadata then some (Resource.metadata owner key) else none) = _
  rw [word_text, if_pos rfl]

theorem addressed_attachment (owner subject : UserRef) {ty : AttachmentType} (ho : Ordinary ty.text)
    (hkeep : ∀ b ∈ ty.text, pathSegment.keep b = true) :
    Resource.read (attachmentPath owner subject ty) = some (.attachment owner ty subject) := by
  have hnamed : List.Forall₂ Named [Word.attachments.text, ty.text, Decimal.int subject.nodeID, Decimal.int subject.userID]
      [Word.attachments.text, ty.text, Decimal.int subject.nodeID, Decimal.int subject.userID] :=
    .cons (named_word .attachments) (.cons (.plain hkeep ho) (.cons (named_int _) (.cons (named_int _) .nil)))
  rw [attachmentPath, ← target_nil]
  show Resource.read (target (userPath owner [Word.attachments.text, ty.text, Decimal.int subject.nodeID,
    Decimal.int subject.userID]) []) = _
  rw [read_userPath owner hnamed]
  show (if word Word.attachments.text = some .attachments then (readUser _ _).map _ else none) = _
  rw [word_text, if_pos rfl, readUser_int]
  show some (Resource.attachment owner (AttachmentType.ofText ty.text) subject) = _
  rw [AttachmentType.ofText_text]

theorem addressed_attachments (owner : UserRef) (vs : Values) :
    Resource.read (target (userPath owner [keyword "attachments"]) vs) =
      (filter vs "attachment_type" some).map fun ty => .attachments owner (ty.map AttachmentType.ofText) := by
  refine (read_list owner .attachments vs).trans ?_
  show (filter vs "attachment_type" some >>= _) = _
  cases filter vs "attachment_type" some <;> rfl

theorem loginWithRequest_addressed {nodeID userID : Int} {loginName : Bytes} {password : PasswordInput}
    (h : loginWithRequest nodeID userID loginName password = .ok q) : q.Addressed (.post, .login) := by
  obtain ⟨name, _, h⟩ := bind_ok.mp h
  split at h
  · cases h
  · cases h
  · cases h
  · cases h
    exact ⟨rfl, read_fixed .auth .login⟩

theorem createUser_addressed {req : CreateUserRequest} (h : createUser req = .ok q) : q.Addressed (.post, .users none none) := by
  rw [createUser, check_ok, check_ok] at h
  obtain ⟨-, -, h⟩ := h
  cases h
  refine ⟨rfl, ?_⟩
  rw [← target_nil]
  exact read_top .users []

theorem listUsers_addressed {name : Bytes} {uid : UserRef} (h : listUsers name uid = .ok q) :
    q.Addressed (Call.listUsers name uid).asks := by
  obtain ⟨_, _, h⟩ := bind_ok.mp h
  cases h
  refine ⟨rfl, ?_⟩
  have hname : keyword "name" ≠ keyword "uid" := by decide
  refine (read_top .users _).trans ?_
  show (filter _ "name" some >>= _) = _
  rw [filter_other hname, filter_own rfl filter_nil, filter_own (readUID_uidText uid) (by rw [filter_other hname.symm, filter_nil])]
  rfl

theorem listMessages_addressed {limit peerNodeID peerUserID : Int} (h : listMessages r limit peerNodeID peerUserID = .ok q) :
    q.Addressed (Call.listMessages r limit peerNodeID peerUserID).asks := by
  cases h
  refine ⟨rfl, ?_⟩
  have hlimit : keyword "limit" ≠ keyword "peer_node_id" ∧ keyword "limit" ≠ keyword "peer_user_id" := by decide
  have hpeer : keyword "peer_node_id" ≠ keyword "peer_user_id" := by decide
  refine (read_list r .messages _).trans ?_
  show (filter _ "limit" Decimal.parseInt >>= _) = _
  rw [filter_other hlimit.2, filter_other hlimit.1, filter_own (Decimal.parseInt_int limit) filter_nil, filter_other hpeer,
    filter_own (Decimal.parseInt_int peerNodeID) (by rw [filter_other hlimit.1.symm, filter_nil]),
    filter_own (Decimal.parseInt_int peerUserID) (by rw [filter_other hpeer.symm, filter_other hlimit.2.symm, filter_nil])]
  show (peer? _ _ >>= fun peer => _) = _
  rw [peer?_if]
  rfl

theorem postMessage_addressed {body : Bytes} (h : postMessage r body = .ok q) : q.Addressed (.post, .messages r none none) := by
  obtain ⟨_, _, h⟩ := bind_ok.mp h
  rw [check_ok] at h
  obtain ⟨-, h⟩ := h
  cases h
  exact ⟨rfl, addressed_messages r⟩

theorem postPacket_addressed {targetNodeID : Int} {body : Bytes} {mode : PacketMode}
    (h : postPacket targetNodeID r body mode = .ok q) : q.Addressed (.post, .messages r none none) := by
  rw [postPacket, check_ok, bind_ok] at h
  obtain ⟨-, _, _, h⟩ := h
  rw [check_ok, bind_ok] at h
  obtain ⟨-, _, _, h⟩ := h
  rw [check_ok] at h
  obtain ⟨-, h⟩ := h
  cases h
  exact ⟨rfl, addressed_messages r⟩

theorem listNodeLoggedInUsers_addressed {nodeID : Int} (h : listNodeLoggedInUsers nodeID = .ok q) :
    q.Addressed (.get, .loggedInUsers nodeID) := by
  rw [listNodeLoggedInUsers, check_ok] at h
  obtain ⟨-, h⟩ := h
  cases h
  have hnamed : List.Forall₂ Named [Word.cluster.text, Word.nodes.text, Decimal.int nodeID, Word.loggedInUsers.text]
      [Word.cluster.text, Word.nodes.text, Decimal.int nodeID, Word.loggedInUsers.text] :=
    .cons (named_word .cluster) (.cons (named_word .nodes) (.cons (named_int nodeID) (.cons (named_word .loggedInUsers) .nil)))
  have hnodes : ¬ (some Word.cluster = some .nodes ∧ word (Decimal.int nodeID) = some .users) :=
    fun h => Word.noConfusion (Option.some.inj h.1)
  refine ⟨rfl, ?_⟩
  rw [← target_nil]
  show Resource.read (target [Word.cluster.text, Word.nodes.text, Decimal.int nodeID, Word.loggedInUsers.text] []) = _
  rw [read_target hnamed, Resource.readPath_cons, word_text, word_text, word_text, if_neg hnodes, if_pos ⟨rfl, rfl, rfl, rfl⟩,
    Decimal.parseInt_int]
  rfl

theorem getUser_addressed (h : getUser r = .ok q) : q.Addressed (.get, .user r) := by
  obtain ⟨_, _, h⟩ := bind_ok.mp h
  cases h
  exact ⟨rfl, addressed_user r⟩

theorem updateUser_addressed {req : UpdateUserRequest} (h : updateUser r req = .ok q) : q.Addressed (.patch, .user r) := by
  obtain ⟨_, _, h⟩ := bind_ok.mp h
  rw [check_ok] at h
  obtain ⟨-, h⟩ := h
  cases h
  exact ⟨rfl, addressed_user r⟩

theorem deleteUser_addressed (h : deleteUser r = .ok q) : q.Addressed (.delete, .user r) := by
  obtain ⟨_, _, h⟩ := bind_ok.mp h
  cases h
  exact ⟨rfl, addressed_user r⟩

theorem listEvents_addressed {after limit : Int} (h : listEvents after limit = .ok q) :
    q.Addressed (Call.listEvents after limit).asks := by
  cases h
  refine ⟨rfl, ?_⟩
  have hafter : keyword "after" ≠ keyword "limit" := by decide
  refine (read_top .events _).trans ?_
  show (filter _ "after" Decimal.parseInt >>= _) = _
  rw [filter_other hafter, filter_own (Decimal.parseInt_int after) filter_nil,
    filter_own (Decimal.parseInt_int limit) (by rw [filter_other hafter.symm, filter_nil])]
  rfl

/-- A key that was accepted is not empty. -/
theorem key_ordinary {key : Bytes} (h : validateMetadataKey key = .ok ()) (hdot : key ≠ [dot] ∧ key ≠ [dot, dot]) : Ordinary key := by
  obtain ⟨hne, -⟩ := fragment_ok_iff.mp (key_ok_iff.mp h).1
  exact ⟨fun hnil => Bool.noConfusion (hne hnil), hdot⟩

theorem getUserMetadata_addressed {key : Bytes} (h : getUserMetadata owner key = .ok q) (hdot : key ≠ [dot] ∧ key ≠ [dot, dot]) :
    q.Addressed (.get, .metadata owner key) := by
  obtain ⟨_, _, h⟩ := bind_ok.mp h
  obtain ⟨_, hkey, h⟩ := bind_ok.mp h
  cases h
  exact ⟨rfl, addressed_key owner (key_ordinary hkey hdot)⟩

theorem upsertUserMetadata_addressed {key : Bytes} {req : UpsertUserMetadataRequest} (h : upsertUserMetadata owner key req = .ok q)
    (hdot : key ≠ [dot] ∧ key ≠ [dot, dot]) : q.Addressed (.put, .metadata owner key) := by
  obtain ⟨_, _, h⟩ := bind_ok.mp h
  obtain ⟨_, hkey, h⟩ := bind_ok.mp h
  obtain ⟨_, _, h⟩ := bind_ok.mp h
  cases h
  exact ⟨rfl, addressed_key owner (key_ordinary hkey hdot)⟩

theorem deleteUserMetadata_addressed {key : Bytes} (h : deleteUserMetadata owner key = .ok q)
    (hdot : key ≠ [dot] ∧ key ≠ [dot, dot]) : q.Addressed (.delete, .metadata owner key) := by
  obtain ⟨_, _, h⟩ := bind_ok.mp h
  obtain ⟨_, hkey, h⟩ := bind_ok.mp h
  cases h
  exact ⟨rfl, addressed_key owner (key_ordinary hkey hdot)⟩

theorem scanUserMetadata_addressed {req : ScanUserMetadataRequest} (h : scanUserMetadata owner req = .ok q) :
    q.Addressed (Call.scanUserMetadata owner req).asks := by
  obtain ⟨_, _, h⟩ := bind_ok.mp h
  obtain ⟨_, _, h⟩ := bind_ok.mp h
  cases h
  refine ⟨rfl, ?_⟩
  have hpre : keyword "prefix" ≠ keyword "after" ∧ keyword "prefix" ≠ keyword "limit" := by decide
  have hafter : keyword "after" ≠ keyword "limit" := by decide
  refine (read_list owner .metadata _).trans ?_
  show (filter _ "prefix" some >>= _) = _
  rw [filter_other hpre.2, filter_other hpre.1, filter_own rfl filter_nil, filter_other hafter,
    filter_own rfl (by rw [filter_other hpre.1.symm, filter_nil]),
    filter_own (Decimal.parseInt_int req.limit) (by rw [filter_other hafter.symm, filter_other hpre.2.symm, filter_nil])]
  rfl

theorem upsertAttachment_addressed {ty : AttachmentType} {configJSON : Bytes}
    (h : upsertAttachment owner subject ty configJSON = .ok q) (ho : Ordinary ty.text)
    (hkeep : ∀ b ∈ ty.text, pathSegment.keep b = true) : q.Addressed (.put, .attachment owner ty subject) := by
  obtain ⟨_, _, h⟩ := bind_ok.mp h
  obtain ⟨_, _, h⟩ := bind_ok.mp h
  cases h
  exact ⟨rfl, addressed_attachment owner subject ho hkeep⟩

theorem deleteAttachment_addressed {ty : AttachmentType} (h : deleteAttachment owner subject ty = .ok q) (ho : Ordinary ty.text)
    (hkeep : ∀ b ∈ ty.text, pathSegment.keep b = true) : q.Addressed (.delete, .attachment owner ty subject) := by
  obtain ⟨_, _, h⟩ := bind_ok.mp h
  obtain ⟨_, _, h⟩ := bind_ok.mp h
  cases h
  exact ⟨rfl, addressed_attachment owner subject ho hkeep⟩

/-- What is put together by hand is the query of one filter. -/
theorem attachment_type_target (raws : List Bytes) (ty : Bytes) :
    path raws ++ keyword "?attachment_type=" ++ queryComponent.escape ty = target raws [(keyword "attachment_type", ty)] := by
  have hencode : encode [(keyword "attachment_type", ty)] = keyword "attachment_type" ++ equals :: queryComponent.escape ty := by
    simp only [encode, List.map_cons, List.map_nil, List.intercalate_singleton, pair]
    congr 1
  rw [target, hencode, if_neg (List.append_ne_nil_of_right_ne_nil _ (List.cons_ne_nil _ _)), List.append_assoc]
  rfl

theorem listAttachments_addressed {ty : AttachmentType} (h : listAttachments owner ty = .ok q) :
    q.Addressed (Call.listAttachments owner ty).asks := by
  obtain ⟨_, _, h⟩ := bind_ok.mp h
  by_cases hty : ty.text = []
  · replace h : (if ty.text ≠ [] then _ else _) = _ := h
    rw [if_neg (not_not_intro hty)] at h
    cases h
    refine ⟨rfl, ?_⟩
    simp only [Call.asks, if_neg (not_not_intro hty)]
    rw [← target_nil, addressed_attachments]
    rfl
  · replace h : (if ty.text ≠ [] then _ else _) = _ := h
    rw [if_pos hty, attachment_type_target] at h
    cases h
    refine ⟨rfl, ?_⟩
    simp only [Call.asks, if_pos hty]
    rw [addressed_attachments]
    show some (Resource.attachments owner (some (AttachmentType.ofText ty.text))) = _
    rw [AttachmentType.ofText_text]

theorem known_plain : ∀ ty ∈ [AttachmentType.channelSubscription, .userBlacklist],
    Ordinary ty.text ∧ ∀ b ∈ ty.text, pathSegment.keep b = true := by
  have hall : ∀ ty ∈ [AttachmentType.channelSubscription, .userBlacklist],
      Ordinary ty.text ∧ ty.text.all pathSegment.keep = true := by decide +kernel
  exact fun ty hty => ⟨(hall ty hty).1, List.all_eq_true.mp (hall ty hty).2⟩

end

/-- A server finds in the request of a call that was accepted what was asked for. -/
theorem request_addressed {c : Call} {q : Request} (h : c.request = .ok q) (hp : c.Plain) : q.Addressed c.asks := by
  cases c with
  | loginWithPassword nodeID userID password => exact loginWithRequest_addressed h
  | loginByLoginNameWithPassword loginName password => exact loginWithRequest_addressed h
  | createUser req => exact createUser_addressed h
  | createChannel req => exact createUser_addressed h
  | listUsers name uid => exact listUsers_addressed h
  | createSubscription user channel =>
    have hty := known_plain .channelSubscription (by simp)
    exact upsertAttachment_addressed h hty.1 hty.2
  | listMessages r limit peerNodeID peerUserID => exact listMessages_addressed h
  | postMessage r body => exact postMessage_addressed h
  | postPacket targetNodeID r body mode => exact postPacket_addressed h
  | listClusterNodes =>
    cases h
    exact ⟨rfl, read_fixed .cluster .nodes⟩
  | listNodeLoggedInUsers nodeID => exact listNodeLoggedInUsers_addressed h
  | blockUser owner blocked =>
    have hty := known_plain .userBlacklist (by simp)
    exact upsertAttachment_addressed h hty.1 hty.2
  | unblockUser owner blocked =>
    have hty := known_plain .userBlacklist (by simp)
    exact deleteAttachment_addressed h hty.1 hty.2
  | listBlockedUsers owner => exact listAttachments_addressed h
  | getUser r => exact getUser_addressed h
  | updateUser r req => exact updateUser_addressed h
  | deleteUser r => exact deleteUser_addressed h
  | listEvents after limit => exact listEvents_addressed h
  | operationsStatus =>
    cases h
    exact ⟨rfl, read_fixed .ops .status⟩
  | metrics =>
    cases h
    refine ⟨rfl, ?_⟩
    rw [← target_nil]
    exact read_top .metrics []
  | getUserMetadata owner key => exact getUserMetadata_addressed h hp
  | upsertUserMetadata owner key req => exact upsertUserMetadata_addressed h hp
  | deleteUserMetadata owner key => exact deleteUserMetadata_addressed h hp
  | scanUserMetadata owner req => exact scanUserMetadata_addressed h
  | upsertAttachment owner subject ty configJSON => exact upsertAttachment_addressed h hp.1 hp.2
  | deleteAttachment owner subject ty => exact deleteAttachment_addressed h hp.1 hp.2
  | listAttachments owner ty => exact listAttachments_addressed h

theorem request_addressed_escaped :
    (Call.listUsers (keyword " a&b ") ⟨3, 4⟩).request = .ok ⟨.get, keyword "/users?name=a%26b&uid=3%3A4", none⟩ ∧
    Resource.read (keyword "/users?name=a%26b&uid=3%3A4") = some (.users (some (keyword "a&b")) (some ⟨3, 4⟩)) :=
  have h : (Call.listUsers (keyword " a&b ") ⟨3, 4⟩).request = .ok ⟨.get, keyword "/users?name=a%26b&uid=3%3A4", none⟩ := rfl
  ⟨h, (request_addressed h trivial).2⟩

/-- The key `..` is accepted and names no metadata: where paths are cleaned, reading and deleting it
    reads and deletes the user. -/
theorem dots_addressed {owner : UserRef} (hv : Client.validateUser owner = none) :
    (∃ q, getUserMetadata owner [dot, dot] = .ok q ∧ q.Addressed (Call.getUser owner).asks) ∧
    ∃ q, deleteUserMetadata owner [dot, dot] = .ok q ∧ q.Addressed (Call.deleteUser owner).asks := by
  have howner : validateUser "owner" owner = .ok () := by rw [validateUser, hv]
  have hkey : validateMetadataKey [dot, dot] = .ok () := by decide +kernel
  have hread : Resource.read (userMetadataPath owner [dot, dot]) = some (.user owner) := by
    have hpath : userPath owner [keyword "metadata", pathSegment.escape [dot, dot]] =
      userPath owner [] ++ [Word.metadata.text] ++ [pathSegment.escape [dot, dot]] := rfl
    rw [userMetadataPath, ← target_nil, hpath, Resource.read,
      locate_parent (named_userPath owner .nil) (named_word .metadata), ← addressed_user owner, ← target_nil,
      read_target (named_userPath owner .nil)]
    rfl
  refine ⟨⟨⟨.get, userMetadataPath owner [dot, dot], none⟩, ?_, rfl, hread⟩,
    ⟨⟨.delete, userMetadataPath owner [dot, dot], none⟩, ?_, rfl, hread⟩⟩
  · exact bind_ok.mpr ⟨(), howner, bind_ok.mpr ⟨(), hkey, rfl⟩⟩
  · exact bind_ok.mpr ⟨(), howner, bind_ok.mpr ⟨(), hkey, rfl⟩⟩

theorem dots_addressed_one : ∃ q, deleteUserMetadata ⟨1, 2⟩ (keyword "..") = .ok q ∧ q.Addressed (.delete, .user ⟨1, 2⟩) :=
  (@dots_addressed ⟨1, 2⟩ rfl).2

end Turntf.Http
