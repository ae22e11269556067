/-
  Turntf.Demo.Values — the results of the client as the demo runner sees them.

  The runner looks at values by reflection. `normalizeValue` follows pointers, makes a map of every
  struct and map and a slice of every slice and array, and leaves byte slices and all other values
  as they are, with their Go types. What it returns is `Data`: a document with nil, scalars and
  byte slices at its leaves, a map being the list of its entries in the order of iteration.

  `GoValue` has the kinds of values that results and scenario files are made of; values of other
  kinds (`float32`, `complex128`, functions, channels) and pointers to interfaces are left out. The
  types of the results are given as reflection gives them, with the `json` tags of their fields.

  - `normalizeValue_all`: the keys of every object are distinct.
  - `normalizeValue_value`: a value that is normalized stays as it is.
  - `Outcome.payload_all`: what holds of the leaves of the results holds of what is compared.
-/

import Turntf.Lib.Document
import Turntf.Types

namespace Turntf.Demo

open Document

/-! ## Values -/

inductive IntKind where
  | int
  | int8
  | int16
  | int32
  | int64
  | uint
  | uint8
  | uint16
  | uint32
  | uint64
  deriving DecidableEq

/-- The least and the greatest value. -/
def IntKind.bounds : IntKind → Int × Int
  | .int8 => (-128, 127)
  | .int16 => (-32768, 32767)
  | .int32 => (-2147483648, 2147483647)
  | .int | .int64 => (-9223372036854775808, 9223372036854775807)
  | .uint8 => (0, 255)
  | .uint16 => (0, 65535)
  | .uint32 => (0, 4294967295)
  | .uint | .uint64 => (0, 18446744073709551615)

/-- A `float64`. The two zeros are one. -/
inductive Float64 where
  | nan
  | inf (negative : Bool)
  | finite (q : Rat)
  deriving DecidableEq

inductive Basic where
  | bool (b : Bool)
  | integer (kind : IntKind) (n : Int)
  | float64 (x : Float64)
  | string (s : Bytes)
  deriving DecidableEq

structure Scalar where
  /-- the name of the type, if it is not the predeclared one -/
  typeName : Option String := none
  basic : Basic
  deriving DecidableEq

inductive Atom where
  | nil
  | scalar (s : Scalar)
  | bytes (b : Bytes)
  deriving DecidableEq

abbrev Data := Document String Atom

structure StructField where
  name : String
  /-- the `json` part of the tag, empty if there is none -/
  tag : String
  exported : Bool := true
  deriving DecidableEq

inductive GoValue where
  | nil
  | nilPointer
  | pointer (target : GoValue)
  | scalar (s : Scalar)
  | bytes (b : Bytes)
  /-- any other slice, or an array -/
  | list (items : List GoValue)
  /-- The keys are what `fmt.Sprint` prints of them. -/
  | map (entries : List (String × GoValue))
  | struct (fields : List (StructField × GoValue))

@[elab_as_elim]
theorem GoValue.induct {P : GoValue → Prop} (nil : P .nil) (nilPointer : P .nilPointer) (pointer : ∀ v, P v → P (.pointer v))
    (scalar : ∀ s, P (.scalar s)) (bytes : ∀ b, P (.bytes b)) (list : ∀ items, (∀ v ∈ items, P v) → P (.list items))
    (map : ∀ entries, (∀ p ∈ entries, P p.2) → P (.map entries))
    (struct : ∀ fields, (∀ p ∈ fields, P p.2) → P (.struct fields)) (v : GoValue) : P v := by
  refine @GoValue.rec P (fun items => ∀ v ∈ items, P v) (fun entries => ∀ p ∈ entries, P p.2)
    (fun fields => ∀ p ∈ fields, P p.2) (fun p => P p.2) (fun p => P p.2)
    nil nilPointer pointer scalar bytes list map struct ?_ ?_ ?_ ?_ ?_ ?_ ?_ ?_ v
  · exact fun v hv => absurd hv List.not_mem_nil
  · exact fun v items hv hitems => List.forall_mem_cons.mpr ⟨hv, hitems⟩
  · exact fun p hp => absurd hp List.not_mem_nil
  · exact fun p entries hp hentries => List.forall_mem_cons.mpr ⟨hp, hentries⟩
  · exact fun p hp => absurd hp List.not_mem_nil
  · exact fun p fields hp hfields => List.forall_mem_cons.mpr ⟨hp, hfields⟩
  · exact fun k v hv => hv
  · exact fun f v hv => hv

def jsonFieldName (field : StructField) : String :=
  if field.tag = "" then field.name
  else
    let name := String.ofList (field.tag.toList.takeWhile (· ≠ ','))
    if name = "" then field.name else name

mutual

def normalizeValue : GoValue → Data
  | .nil | .nilPointer => .leaf .nil
  | .pointer target => normalizeValue target
  | .struct fields => .object (normalizeFields [] fields)
  | .bytes b => .leaf (.bytes b)
  | .list items => .list (normalizeItems items)
  | .map entries => .object (normalizeEntries [] entries)
  | .scalar s => .leaf (.scalar s)

def normalizeItems : List GoValue → List Data
  | [] => []
  | v :: items => normalizeValue v :: normalizeItems items

def normalizeEntries (out : List (String × Data)) : List (String × GoValue) → List (String × Data)
  | [] => out
  | (key, v) :: entries => normalizeEntries (put out key (normalizeValue v)) entries

def normalizeFields (out : List (String × Data)) : List (StructField × GoValue) → List (String × Data)
  | [] => out
  | (field, v) :: fields =>
    if !field.exported then normalizeFields out fields
    else if jsonFieldName field = "-" ∨ jsonFieldName field = "" then normalizeFields out fields
    else normalizeFields (put out (jsonFieldName field) (normalizeValue v)) fields

end

theorem normalizeItems_eq (items : List GoValue) : normalizeItems items = items.map normalizeValue := by
  induction items with
  | nil => rfl
  | cons v items ih => rw [normalizeItems, ih, List.map_cons]

section

variable {P : Atom → Prop} {out : List (String × Data)} (hout : (object out).All P)

include hout

theorem normalizeEntries_all {entries : List (String × GoValue)} (h : ∀ p ∈ entries, (normalizeValue p.2).All P) :
    (object (normalizeEntries out entries)).All P := by
  induction entries generalizing out with
  | nil => rwa [normalizeEntries]
  | cons p entries ih =>
    rw [List.forall_mem_cons] at h
    rw [normalizeEntries]
    exact ih (all_put hout h.1) h.2

theorem normalizeFields_all {fields : List (StructField × GoValue)} (h : ∀ p ∈ fields, (normalizeValue p.2).All P) :
    (object (normalizeFields out fields)).All P := by
  induction fields generalizing out with
  | nil => rwa [normalizeFields]
  | cons p fields ih =>
    rw [List.forall_mem_cons] at h
    rw [normalizeFields]
    split
    · exact ih hout h.2
    · split
      · exact ih hout h.2
      · exact ih (all_put hout h.1) h.2

end

theorem object_nil_all {P : Atom → Prop} : (object [] : Data).All P := by simp

theorem normalizeValue_all (v : GoValue) : (normalizeValue v).All fun _ => True := by
  induction v using GoValue.induct with
  | nil => simp [normalizeValue]
  | nilPointer => simp [normalizeValue]
  | pointer v ih => rwa [normalizeValue]
  | scalar s => simp [normalizeValue]
  | bytes b => simp [normalizeValue]
  | list items ih =>
    rw [normalizeValue, normalizeItems_eq, all_list]
    exact List.forall_mem_map.mpr ih
  | map entries ih =>
    rw [normalizeValue]
    exact normalizeEntries_all object_nil_all ih
  | struct fields ih =>
    rw [normalizeValue]
    exact normalizeFields_all object_nil_all ih

/-! ## Normalized values -/

def Atom.value : Atom → GoValue
  | .nil => .nil
  | .scalar s => .scalar s
  | .bytes b => .bytes b

mutual

/-- Normalized data as a value: of type `map[string]any`, `[]any`, `[]byte` or a scalar. -/
def dataValue : Data → GoValue
  | .leaf a => a.value
  | .list items => .list (dataItems items)
  | .object fields => .map (dataFields fields)

def dataItems : List Data → List GoValue
  | [] => []
  | d :: items => dataValue d :: dataItems items

def dataFields : List (String × Data) → List (String × GoValue)
  | [] => []
  | (key, d) :: fields => (key, dataValue d) :: dataFields fields

end

theorem normalizeEntries_dataFields {fields out : List (String × Data)} (h : ((out ++ fields).map Prod.fst).Nodup)
    (ih : ∀ p ∈ fields, normalizeValue (dataValue p.2) = p.2) : normalizeEntries out (dataFields fields) = out ++ fields := by
  induction fields generalizing out with
  | nil => rw [dataFields, normalizeEntries, List.append_nil]
  | cons p fields hrest =>
    rw [List.forall_mem_cons] at ih
    have hfresh : p.1 ∉ out.map Prod.fst := by
      intro hmem
      rw [List.map_append, List.nodup_append] at h
      exact h.2.2 p.1 hmem p.1 List.mem_cons_self rfl
    rw [dataFields, normalizeEntries, ih.1, put_of_not_mem p.2 hfresh, hrest _ ih.2, List.append_assoc]
    · rfl
    · rwa [List.append_assoc]

theorem normalizeValue_value {d : Data} (h : d.All fun _ => True) : normalizeValue (dataValue d) = d := by
  induction d using Document.induct with
  | leaf a => cases a <;> rfl
  | list items ih =>
    rw [dataValue, normalizeValue]
    have hitems : normalizeItems (dataItems items) = items := by
      rw [all_list] at h
      induction items with
      | nil => rfl
      | cons d items hrest =>
        rw [List.forall_mem_cons] at ih h
        rw [dataItems, normalizeItems, ih.1 h.1, hrest ih.2 h.2]
    rw [hitems]
  | object fields ih =>
    rw [all_object] at h
    have hkeys : (([] ++ fields).map Prod.fst).Nodup := h.1
    rw [dataValue, normalizeValue, normalizeEntries_dataFields hkeys fun p hp => ih p hp (h.2 p hp), List.nil_append]

/-! ## The types of the results -/

inductive GoType where
  | bool
  | integer (kind : IntKind)
  | string
  /-- `type name string` -/
  | named (name : String)
  | bytes
  | slice (elem : GoType)
  | struct (fields : List (StructField × GoType))

mutual

/-- The values of a type. -/
def GoType.has : GoType → GoValue → Bool
  | .bool, .scalar ⟨none, .bool _⟩ => true
  | .integer kind, .scalar ⟨none, .integer kind' n⟩ => kind' == kind && decide (kind.bounds.1 ≤ n ∧ n ≤ kind.bounds.2)
  | .string, .scalar ⟨none, .string _⟩ => true
  | .named name, .scalar ⟨some name', .string _⟩ => name' == name
  | .bytes, .bytes _ => true
  | .slice elem, .list items => items.all fun v => elem.has v
  | .struct types, .struct fields => hasFields types fields
  | _, _ => false

def hasFields : List (StructField × GoType) → List (StructField × GoValue) → Bool
  | [], [] => true
  | (f, type) :: types, (f', v) :: fields => f' == f && type.has v && hasFields types fields
  | _, _ => false

end

namespace GoType

def int64 : GoType := .integer .int64

def int32 : GoType := .integer .int32

def uint64 : GoType := .integer .uint64

def field (name tag : String) (type : GoType) : StructField × GoType := ({ name, tag }, type)

def userRef : GoType := .struct [field "NodeID" "node_id" int64, field "UserID" "user_id" int64]

def sessionRef : GoType := .struct [field "ServingNodeID" "serving_node_id" int64, field "SessionID" "session_id" string]

def user : GoType := .struct
  [field "NodeID" "node_id" int64,
    field "UserID" "user_id" int64,
    field "Username" "username" string,
    field "LoginName" "login_name" string,
    field "Role" "role" string,
    field "ProfileJSON" "profile_json,omitempty" bytes,
    field "SystemReserved" "system_reserved" bool,
    field "CreatedAt" "created_at,omitempty" string,
    field "UpdatedAt" "updated_at,omitempty" string,
    field "OriginNodeID" "origin_node_id" int64]

def deliveryMode : GoType := .named "turntf.DeliveryMode"

def message : GoType := .struct
  [field "Recipient" "recipient" userRef,
    field "NodeID" "node_id" int64,
    field "Seq" "seq" int64,
    field "Sender" "sender" userRef,
    field "Body" "body" bytes,
    field "CreatedAtHLC" "created_at_hlc" string]

def packet : GoType := .struct
  [field "PacketID" "packet_id" uint64,
    field "SourceNodeID" "source_node_id" int64,
    field "TargetNodeID" "target_node_id" int64,
    field "Recipient" "recipient" userRef,
    field "Sender" "sender" userRef,
    field "Body" "body" bytes,
    field "DeliveryMode" "delivery_mode" deliveryMode,
    field "TargetSession" "target_session" sessionRef]

def relayAccepted : GoType := .struct
  [field "PacketID" "packet_id" uint64,
    field "SourceNodeID" "source_node_id" int64,
    field "TargetNodeID" "target_node_id" int64,
    field "Recipient" "recipient" userRef,
    field "DeliveryMode" "delivery_mode" deliveryMode,
    field "TargetSession" "target_session" sessionRef]

def attachmentType : GoType := .named "turntf.AttachmentType"

def attachment : GoType := .struct
  [field "Owner" "owner" userRef,
    field "Subject" "subject" userRef,
    field "AttachmentType" "attachment_type" attachmentType,
    field "ConfigJSON" "config_json,omitempty" bytes,
    field "AttachedAt" "attached_at,omitempty" string,
    field "DeletedAt" "deleted_at,omitempty" string,
    field "OriginNodeID" "origin_node_id" int64]

def subscription : GoType := .struct
  [field "Subscriber" "subscriber" userRef,
    field "Channel" "channel" userRef,
    field "SubscribedAt" "subscribed_at,omitempty" string,
    field "DeletedAt" "deleted_at,omitempty" string,
    field "OriginNodeID" "origin_node_id" int64]

def blacklistEntry : GoType := .struct
  [field "Owner" "owner" userRef,
    field "Blocked" "blocked" userRef,
    field "BlockedAt" "blocked_at,omitempty" string,
    field "DeletedAt" "deleted_at,omitempty" string,
    field "OriginNodeID" "origin_node_id" int64]

def event : GoType := .struct
  [field "Sequence" "sequence" int64,
    field "EventID" "event_id" int64,
    field "EventType" "event_type" string,
    field "Aggregate" "aggregate" string,
    field "AggregateNodeID" "aggregate_node_id" int64,
    field "AggregateID" "aggregate_id" int64,
    field "HLC" "hlc,omitempty" string,
    field "OriginNodeID" "origin_node_id" int64,
    field "EventJSON" "event_json,omitempty" bytes]

def clusterNode : GoType := .struct
  [field "NodeID" "node_id" int64,
    field "IsLocal" "is_local" bool,
    field "ConfiguredURL" "configured_url,omitempty" string,
    field "Source" "source,omitempty" string]

def loggedInUser : GoType := .struct
  [field "NodeID" "node_id" int64,
    field "UserID" "user_id" int64,
    field "Username" "username" string,
    field "LoginName" "login_name" string]

def onlineNodePresence : GoType := .struct
  [field "ServingNodeID" "serving_node_id" int64,
    field "SessionCount" "session_count" int32,
    field "TransportHint" "transport_hint,omitempty" string]

def resolvedSession : GoType := .struct
  [field "Session" "session" sessionRef,
    field "Transport" "transport,omitempty" string,
    field "TransientCapable" "transient_capable" bool]

def resolvedUserSessions : GoType := .struct
  [field "User" "user" userRef,
    field "Presence" "presence,omitempty" (.slice onlineNodePresence),
    field "Sessions" "sessions,omitempty" (.slice resolvedSession)]

def messageTrimStatus : GoType := .struct
  [field "TrimmedTotal" "trimmed_total" int64, field "LastTrimmedAt" "last_trimmed_at,omitempty" string]

def projectionStatus : GoType := .struct
  [field "PendingTotal" "pending_total" int64, field "LastFailedAt" "last_failed_at,omitempty" string]

def peerOriginStatus : GoType := .struct
  [field "OriginNodeID" "origin_node_id" int64,
    field "AckedEventID" "acked_event_id" int64,
    field "AppliedEventID" "applied_event_id" int64,
    field "UnconfirmedEvents" "unconfirmed_events" int64,
    field "CursorUpdatedAt" "cursor_updated_at,omitempty" string,
    field "RemoteLastEventID" "remote_last_event_id" uint64,
    field "PendingCatchup" "pending_catchup" bool]

def peerStatus : GoType := .struct
  [field "NodeID" "node_id" int64,
    field "ConfiguredURL" "configured_url,omitempty" string,
    field "Source" "source,omitempty" string,
    field "DiscoveredURL" "discovered_url,omitempty" string,
    field "DiscoveryState" "discovery_state,omitempty" string,
    field "LastDiscoveredAt" "last_discovered_at,omitempty" string,
    field "LastConnectedAt" "last_connected_at,omitempty" string,
    field "LastDiscoveryError" "last_discovery_error,omitempty" string,
    field "Connected" "connected" bool,
    field "SessionDirection" "session_direction,omitempty" string,
    field "Origins" "origins,omitempty" (.slice peerOriginStatus),
    field "PendingSnapshotPartitions" "pending_snapshot_partitions" int32,
    field "RemoteSnapshotVersion" "remote_snapshot_version,omitempty" string,
    field "RemoteMessageWindowSize" "remote_message_window_size" int32,
    field "ClockOffsetMS" "clock_offset_ms" int64,
    field "LastClockSync" "last_clock_sync,omitempty" string,
    field "SnapshotDigestsSentTotal" "snapshot_digests_sent_total" uint64,
    field "SnapshotDigestsRecvTotal" "snapshot_digests_received_total" uint64,
    field "SnapshotChunksSentTotal" "snapshot_chunks_sent_total" uint64,
    field "SnapshotChunksRecvTotal" "snapshot_chunks_received_total" uint64,
    field "LastSnapshotDigestAt" "last_snapshot_digest_at,omitempty" string,
    field "LastSnapshotChunkAt" "last_snapshot_chunk_at,omitempty" string]

def operationsStatus : GoType := .struct
  [field "NodeID" "node_id" int64,
    field "MessageWindowSize" "message_window_size" int32,
    field "LastEventSequence" "last_event_sequence" int64,
    field "WriteGateReady" "write_gate_ready" bool,
    field "ConflictTotal" "conflict_total" int64,
    field "MessageTrim" "message_trim" messageTrimStatus,
    field "Projection" "projection" projectionStatus,
    field "Peers" "peers,omitempty" (.slice peerStatus)]

def deleteUserResult : GoType := .struct [field "Status" "status" string, field "User" "user" userRef]

end GoType

/-! ## What is compared -/

inductive ClientAction where
  | sendMessage
  | sendPacket
  | ping
  | createUser
  | getUser
  | updateUser
  | deleteUser
  | listMessages
  | subscribeChannel
  | unsubscribeChannel
  | listSubscriptions
  | blockUser
  | unblockUser
  | listBlockedUsers
  | listEvents
  | operationsStatus
  | metrics
  | listClusterNodes
  | listNodeLoggedInUsers
  | resolveUserSessions
  deriving DecidableEq

/-- The type of what the client returns; a ping returns nothing. -/
def ClientAction.result : ClientAction → GoType
  | .sendMessage => .message
  | .sendPacket => .relayAccepted
  | .ping => .struct []
  | .createUser | .getUser | .updateUser => .user
  | .deleteUser => .deleteUserResult
  | .listMessages => .slice .message
  | .subscribeChannel | .unsubscribeChannel => .subscription
  | .listSubscriptions => .slice .subscription
  | .blockUser | .unblockUser => .blacklistEntry
  | .listBlockedUsers => .slice .blacklistEntry
  | .listEvents => .slice .event
  | .operationsStatus => .operationsStatus
  | .metrics => .string
  | .listClusterNodes => .slice .clusterNode
  | .listNodeLoggedInUsers => .slice .loggedInUser
  | .resolveUserSessions => .resolvedUserSessions

def str (s : Bytes) : Data := .leaf (.scalar ⟨none, .string s⟩)

/-- `values.([]any)`, nil if it is not one. -/
def asList : Data → List Data
  | .list items => items
  | _ => []

def listPayload (items : GoValue) : Data :=
  .object [("items", .list (asList (normalizeValue items))),
    ("count", .leaf (.scalar ⟨none, .integer .int (asList (normalizeValue items)).length⟩))]

/-- The payload that `callAction` makes of a result. -/
def ClientAction.payload (action : ClientAction) (result : GoValue) : Data :=
  match action with
  | .sendMessage => .object [("message", normalizeValue result)]
  | .sendPacket => .object [("transient_accepted", normalizeValue result)]
  | .ping => .object [("pong", .object [])]
  | .createUser | .getUser | .updateUser => .object [("user", normalizeValue result)]
  | .deleteUser => normalizeValue result
  | .subscribeChannel | .unsubscribeChannel => .object [("subscription", normalizeValue result)]
  | .blockUser | .unblockUser => .object [("entry", normalizeValue result)]
  | .operationsStatus => .object [("status", normalizeValue result)]
  | .metrics => .object [("text", normalizeValue result)]
  | .resolveUserSessions => .object [("resolved_user_sessions", normalizeValue result)]
  | .listMessages | .listSubscriptions | .listBlockedUsers | .listEvents | .listClusterNodes | .listNodeLoggedInUsers =>
    listPayload result

/-- What a step compares with its expectation: a login, the answer to a request or an event. -/
inductive Outcome where
  | login (user : GoValue) (protocolVersion : Bytes) (sessionRef : GoValue)
  | ok (action : ClientAction) (result : GoValue)
  /-- of a request, or an event -/
  | error (code message : Bytes)
  | messagePushed (message : GoValue)
  | packetPushed (packet : GoValue)
  | disconnect (message : Bytes)

def Outcome.payload : Outcome → Data
  | .login user protocolVersion sessionRef =>
    .object [("user", normalizeValue user), ("protocol_version", str protocolVersion), ("session_ref", normalizeValue sessionRef)]
  | .ok action result => action.payload result
  | .error code message => .object [("code", str code), ("message", str message)]
  | .messagePushed message => .object [("message", normalizeValue message)]
  | .packetPushed packet => .object [("packet", normalizeValue packet)]
  | .disconnect message => .object [("message", str message)]

/-- The values of the client in it, with their types. -/
def Outcome.results : Outcome → List (GoType × GoValue)
  | .login user _ sessionRef => [(.user, user), (.sessionRef, sessionRef)]
  | .ok action result => [(action.result, result)]
  | .error _ _ | .disconnect _ => []
  | .messagePushed message => [(.message, message)]
  | .packetPushed packet => [(.packet, packet)]

section

variable {P : Atom → Prop} (hint : ∀ n, P (.scalar ⟨none, .integer .int n⟩))

include hint

theorem listPayload_all {items : GoValue} (h : (normalizeValue items).All P) : (listPayload items).All P := by
  have hitems : ∀ d ∈ asList (normalizeValue items), d.All P := by
    unfold asList
    split
    · rename_i hd
      rwa [hd, all_list] at h
    · exact fun d hd => absurd hd List.not_mem_nil
  simpa [listPayload, hint] using hitems

theorem ClientAction.payload_all {action : ClientAction} {result : GoValue} (h : (normalizeValue result).All P) :
    (action.payload result).All P := by
  have hsingle : ∀ key, (object [(key, normalizeValue result)]).All P := fun key => by simp [h]
  have hlist := listPayload_all hint h
  cases action
  case ping => simp [payload]
  case deleteUser => exact h
  all_goals first | exact hsingle _ | exact hlist

theorem Outcome.payload_all {o : Outcome} (hstr : ∀ s, P (.scalar ⟨none, .string s⟩))
    (h : ∀ r ∈ o.results, (normalizeValue r.2).All P) : o.payload.All P := by
  cases o with
  | login user protocolVersion sessionRef =>
    simp only [results, List.forall_mem_cons] at h
    simp [payload, str, hstr, h]
  | ok action result =>
    simp only [results, List.forall_mem_cons] at h
    exact ClientAction.payload_all hint h.1
  | error code message => simp [payload, str, hstr]
  | messagePushed message =>
    simp only [results, List.forall_mem_cons] at h
    simp [payload, h]
  | packetPushed packet =>
    simp only [results, List.forall_mem_cons] at h
    simp [payload, h]
  | disconnect message => simp [payload, str, hstr]

end

end Turntf.Demo
