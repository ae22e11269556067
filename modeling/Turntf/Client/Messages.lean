/-
  Turntf.Client.Messages — the messages a client has seen (`MemoryCursorStore` of `store.go`;
  `connectAndServe`, `handleServerEnvelope`, `persistMessage` of `client.go`).

  The goroutine of `run` loads the seen cursors for a login, and its read loop persists the
  messages that are pushed or that answer a `SendMessage`: first the message, then its
  cursor, each behind the lock of the store. A pushed one is then acknowledged. Dialing,
  the login and the sending of an acknowledgement may fail; a connection may be lost whenever
  the read loop waits for the next envelope. The store never returns an error.

  - `Kept`: the list of the store is the persisted cursors in the order of their first
    persistence, its map has the latest message saved under each cursor.
  - `seen_messages`: so has each login, with all that was ever acknowledged among them.
-/

import Mathlib.Data.List.AList
import Turntf.Lib.Lts
import Turntf.Types

namespace Turntf.Messages

open Lts

structure MessageCursor where
  nodeID : Int
  seq : Int
  deriving DecidableEq

structure Message where
  recipient : UserRef
  nodeID : Int
  seq : Int
  sender : UserRef
  body : Bytes
  createdAtHLC : String
  deriving DecidableEq

def Message.cursor (m : Message) : MessageCursor := ⟨m.nodeID, m.seq⟩

/-! ## The store -/

structure MemoryCursorStore where
  order : List MessageCursor
  messages : AList fun _ : MessageCursor => Message

namespace MemoryCursorStore

def new : MemoryCursorStore := ⟨[], ∅⟩

variable (s : MemoryCursorStore)

def loadSeenMessages : List MessageCursor := s.order

def saveMessage (msg : Message) : MemoryCursorStore := { s with messages := s.messages.insert msg.cursor msg }

/-- A cursor without a message gets an empty one. -/
def saveCursor (cursor : MessageCursor) : MemoryCursorStore where
  messages :=
    if cursor ∈ s.messages then s.messages
    else s.messages.insert cursor ⟨⟨0, 0⟩, cursor.nodeID, cursor.seq, ⟨0, 0⟩, [], ""⟩
  order := if cursor ∈ s.order then s.order else s.order ++ [cursor]

def message (cursor : MessageCursor) : Option Message := s.messages.lookup cursor

end MemoryCursorStore

/-! ## The goroutine of `run` -/

/-- Where `run` is: outside a connection, with the cursors for the next login loaded, waiting
    for the answer to the login, in the read loop, in `persistMessage` between its two
    operations, before the acknowledgement. -/
inductive Pc where
  | offline
  | login (seen : List MessageCursor)
  | expectLogin
  | read
  | saveCursor (msg : Message) (pushed : Bool)
  | ack (cursor : MessageCursor)
  deriving DecidableEq

/-- A login as it was written, with what had been persisted and acknowledged by then. -/
structure Login where
  seenMessages : List MessageCursor
  persisted : List Message
  acked : List MessageCursor

structure Inbox where
  ackMessages : Bool
  store : MemoryCursorStore
  pc : Pc
  persisted : List Message
  acked : List MessageCursor
  logins : List Login

def Inbox.new (ackMessages : Bool) : Inbox := ⟨ackMessages, .new, .offline, [], [], []⟩

inductive Action where
  /-- `LoadSeenMessages` for the next login. -/
  | load
  /-- The connection was dialed and the login is written. -/
  | login
  | loginResponse
  /-- Dialing, the login or reading fails. -/
  | fail
  | messagePushed (msg : Message)
  | sendMessageResponse (msg : Message)
  | saveCursor
  /-- The acknowledgement was sent, or its sending failed. -/
  | ack (sent : Bool)

namespace Inbox

variable (s : Inbox)

/-- `persistMessage` up to the end of `SaveMessage`. -/
def persist (msg : Message) (pushed : Bool) : Inbox :=
  { s with store := s.store.saveMessage msg, pc := .saveCursor msg pushed }

def step (a : Action) : Option Inbox :=
  match s.pc, a with
  | .offline, .load => some { s with pc := .login s.store.loadSeenMessages }
  | .login seen, .login => some { s with logins := s.logins ++ [⟨seen, s.persisted, s.acked⟩], pc := .expectLogin }
  | .expectLogin, .loginResponse => some { s with pc := .read }
  | .login _, .fail | .expectLogin, .fail | .read, .fail => some { s with pc := .offline }
  | .read, .messagePushed msg => some (s.persist msg true)
  | .read, .sendMessageResponse msg => some (s.persist msg false)
  | .saveCursor msg pushed, .saveCursor => some { s with
      store := s.store.saveCursor msg.cursor
      persisted := s.persisted ++ [msg]
      pc := if pushed && s.ackMessages then .ack msg.cursor else .read }
  | .ack cursor, .ack sent => some { s with acked := if sent then s.acked ++ [cursor] else s.acked, pc := .read }
  | _, _ => none

end Inbox

/-! ## What the store keeps -/

/-- The latest message of a list with that cursor. -/
def latest (msgs : List Message) (cursor : MessageCursor) : Option Message := msgs.reverse.find? (·.cursor = cursor)

/-- The message `persistMessage` has saved, and not yet its cursor. -/
def Pc.saving : Pc → List Message
  | .saveCursor msg _ => [msg]
  | _ => []

/-- All messages saved, the latest one last. -/
def Inbox.saved (s : Inbox) : List Message := s.persisted ++ s.pc.saving

/-- The cursors of the messages, each where it comes first. -/
def cursors (msgs : List Message) : List MessageCursor := (msgs.map Message.cursor).eraseDups

theorem latest_append (msgs : List Message) (msg : Message) (cursor : MessageCursor) :
    latest (msgs ++ [msg]) cursor = if msg.cursor = cursor then some msg else latest msgs cursor := by
  by_cases h : msg.cursor = cursor <;> simp [latest, h]

theorem latest_cursor {msgs : List Message} {cursor : MessageCursor} {msg : Message} (h : latest msgs cursor = some msg) :
    msg.cursor = cursor := by
  simpa using List.find?_some h

theorem eraseDups_concat {α : Type} [DecidableEq α] (l : List α) (x : α) :
    (l ++ [x]).eraseDups = if x ∈ l then l.eraseDups else l.eraseDups ++ [x] := by
  rw [List.eraseDups_append]
  by_cases h : x ∈ l
  · simp [h, List.removeAll]
  · simp [h, List.removeAll]
    rfl

theorem cursors_append (msgs : List Message) (msg : Message) : cursors (msgs ++ [msg]) =
    if msg.cursor ∈ cursors msgs then cursors msgs else cursors msgs ++ [msg.cursor] := by
  simp only [cursors, List.map_append, List.map_cons, List.map_nil, eraseDups_concat, List.mem_eraseDups]

structure Kept (s : Inbox) : Prop where
  order : s.store.order = cursors s.persisted
  nodup : s.store.order.Nodup
  messages : ∀ cursor, s.store.message cursor = latest s.saved cursor
  acked : ∀ cursor ∈ s.acked, cursor ∈ s.store.order
  ack : ∀ cursor, s.pc = .ack cursor → cursor ∈ s.store.order
  loaded : ∀ seen, s.pc = .login seen → seen = s.store.order
  logins : ∀ l ∈ s.logins, l.seenMessages = cursors l.persisted ∧ l.seenMessages.Nodup ∧
    ∀ cursor ∈ l.acked, cursor ∈ l.seenMessages

section

variable {s s' : Inbox} {a : Action} {msg : Message} {cursor : MessageCursor}

/-- `run` goes on, outside `persistMessage`. -/
theorem Kept.goes (hk : Kept s) {pc' : Pc} (hsaving : s.pc.saving = []) (hsaving' : pc'.saving = [])
    (hack : ∀ cursor, pc' = .ack cursor → cursor ∈ s.store.order) (hloaded : ∀ seen, pc' = .login seen → seen = s.store.order) :
    Kept { s with pc := pc' } := by
  refine ⟨hk.order, hk.nodup, fun cursor => ?_, hk.acked, hack, hloaded, hk.logins⟩
  have h := hk.messages cursor
  simp only [Inbox.saved, hsaving, hsaving'] at h ⊢
  exact h

theorem message_saveMessage (store : MemoryCursorStore) (msg : Message) (cursor : MessageCursor) :
    (store.saveMessage msg).message cursor = if msg.cursor = cursor then some msg else store.message cursor := by
  unfold MemoryCursorStore.message MemoryCursorStore.saveMessage
  by_cases h : msg.cursor = cursor
  · simp [h]
  · simp [h, AList.lookup_insert_ne (Ne.symm h)]

theorem Kept.persist (hk : Kept s) (hpc : s.pc = .read) (pushed : Bool) : Kept (s.persist msg pushed) := by
  refine ⟨hk.order, hk.nodup, fun cursor => ?_, hk.acked, nofun, nofun, hk.logins⟩
  have h := hk.messages cursor
  simp only [Inbox.saved, hpc, Pc.saving, List.append_nil] at h
  simp only [Inbox.persist, message_saveMessage, Inbox.saved, Pc.saving, latest_append, h]

/-- The cursor of a saved message has no need of an empty one. -/
theorem message_saveCursor (store : MemoryCursorStore) (h : store.message msg.cursor = some msg) :
    (store.saveCursor msg.cursor).message = store.message := by
  have hmem : msg.cursor ∈ store.messages := AList.lookup_isSome.mp (by rw [show store.messages.lookup msg.cursor = _ from h]; rfl)
  funext cursor
  simp only [MemoryCursorStore.message, MemoryCursorStore.saveCursor, if_pos hmem]

theorem Kept.saveCursor (hk : Kept s) {pushed : Bool} (hpc : s.pc = .saveCursor msg pushed) :
    Kept { s with
      store := s.store.saveCursor msg.cursor
      persisted := s.persisted ++ [msg]
      pc := if pushed && s.ackMessages then .ack msg.cursor else .read } := by
  have hsaved : s.saved = s.persisted ++ [msg] := by simp only [Inbox.saved, hpc, Pc.saving]
  have hmsg : s.store.message msg.cursor = some msg := by rw [hk.messages, hsaved, latest_append, if_pos rfl]
  have hmono : ∀ cursor ∈ s.store.order, cursor ∈ (s.store.saveCursor msg.cursor).order := by
    intro cursor h
    simp only [MemoryCursorStore.saveCursor]
    split
    · exact h
    · exact List.mem_append_left _ h
  have hself : msg.cursor ∈ (s.store.saveCursor msg.cursor).order := by
    simp only [MemoryCursorStore.saveCursor]
    split
    · assumption
    · exact List.mem_append_right _ (List.mem_singleton_self _)
  refine ⟨?_, ?_, fun cursor => ?_, fun cursor h => hmono cursor (hk.acked cursor h), fun cursor h => ?_, fun seen h => ?_,
    hk.logins⟩
  · simp only [MemoryCursorStore.saveCursor, cursors_append, hk.order]
  · simp only [MemoryCursorStore.saveCursor]
    split
    · exact hk.nodup
    · rename_i hnot
      exact List.nodup_append.mpr ⟨hk.nodup, List.nodup_singleton _, fun x hx y hy he => hnot (by
        rw [← List.mem_singleton.mp hy, ← he]
        exact hx)⟩
  · have hsaving : (if pushed && s.ackMessages then Pc.ack msg.cursor else .read).saving = [] := by split <;> rfl
    rw [message_saveCursor s.store hmsg, hk.messages, hsaved]
    simp only [Inbox.saved, hsaving, List.append_nil]
  · simp only at h
    split at h
    · cases h
      exact hself
    · cases h
  · simp only at h
    split at h <;> cases h

theorem Kept.login (hk : Kept s) {seen : List MessageCursor} (hpc : s.pc = .login seen) :
    Kept { s with logins := s.logins ++ [⟨seen, s.persisted, s.acked⟩], pc := .expectLogin } := by
  refine ⟨hk.order, hk.nodup, fun cursor => ?_, hk.acked, nofun, nofun, fun l hl => ?_⟩
  · simpa only [Inbox.saved, hpc, Pc.saving] using hk.messages cursor
  · rcases List.mem_append.mp hl with hl | hl
    · exact hk.logins l hl
    · rw [List.mem_singleton.mp hl, hk.loaded seen hpc]
      exact ⟨hk.order, hk.nodup, hk.acked⟩

theorem Kept.acknowledge (hk : Kept s) (sent : Bool) (hpc : s.pc = .ack cursor) :
    Kept { s with acked := if sent then s.acked ++ [cursor] else s.acked, pc := .read } := by
  refine ⟨hk.order, hk.nodup, fun cursor => ?_, fun x hx => ?_, nofun, nofun, hk.logins⟩
  · simpa only [Inbox.saved, hpc, Pc.saving] using hk.messages cursor
  · simp only at hx
    split at hx
    · rcases List.mem_append.mp hx with hx | hx
      · exact hk.acked x hx
      · rw [List.mem_singleton.mp hx]
        exact hk.ack cursor hpc
    · exact hk.acked x hx

theorem Kept.step (hk : Kept s) (h : s.step a = some s') : Kept s' := by
  unfold Inbox.step at h
  split at h
  case h_1 hpc =>
    cases h
    refine hk.goes (by rw [hpc]; rfl) rfl nofun fun seen h => ?_
    cases h
    rfl
  case h_2 seen hpc => cases h; exact hk.login hpc
  case h_3 hpc => cases h; exact hk.goes (by rw [hpc]; rfl) rfl nofun nofun
  case h_4 hpc => cases h; exact hk.goes (by rw [hpc]; rfl) rfl nofun nofun
  case h_5 hpc => cases h; exact hk.goes (by rw [hpc]; rfl) rfl nofun nofun
  case h_6 hpc => cases h; exact hk.goes (by rw [hpc]; rfl) rfl nofun nofun
  case h_7 msg hpc => cases h; exact hk.persist hpc true
  case h_8 msg hpc => cases h; exact hk.persist hpc false
  case h_9 msg pushed hpc => cases h; exact hk.saveCursor hpc
  case h_10 cursor sent hpc => cases h; exact hk.acknowledge sent hpc
  case h_11 => cases h

def Initial (s : Inbox) : Prop := ∃ ackMessages, s = .new ackMessages

theorem kept (h : Reach Inbox.step free Initial s) : Kept s := by
  refine h.keeps ?_ fun s a s' _ hk _ h => hk.step h
  rintro s ⟨ackMessages, rfl⟩
  exact ⟨rfl, List.nodup_nil, fun _ => rfl, fun _ h => absurd h List.not_mem_nil, nofun, nofun,
    fun _ h => absurd h List.not_mem_nil⟩

/-- In every run: the `SeenMessages` of each login are the cursors of the messages persisted by
    then in the order of their first persistence, without duplicates, and have every cursor
    acknowledged by then; `Message` returns the latest message saved under the cursor, which has
    that cursor; and a message is saved and not persisted only while `persistMessage` is
    between its two operations. -/
theorem seen_messages (h : Reach Inbox.step free Initial s) :
    (∀ l ∈ s.logins, l.seenMessages = cursors l.persisted ∧ l.seenMessages.Nodup ∧
      ∀ cursor ∈ l.acked, cursor ∈ l.seenMessages) ∧
    (∀ cursor, s.store.message cursor = latest s.saved cursor) ∧
    (∀ cursor msg, s.store.message cursor = some msg → msg.cursor = cursor) ∧
    ((∀ msg pushed, s.pc ≠ .saveCursor msg pushed) → s.saved = s.persisted) := by
  have hk := kept h
  refine ⟨hk.logins, hk.messages, fun cursor msg hmsg => ?_, fun hpc => ?_⟩
  · rw [hk.messages] at hmsg
    exact latest_cursor hmsg
  · cases hs : s.pc with
    | saveCursor msg pushed => exact absurd hs (hpc msg pushed)
    | _ => simp [Inbox.saved, hs, Pc.saving]

end

def sampleMessage (body : Bytes) : Message := ⟨⟨1, 2⟩, 1, 5, ⟨1, 3⟩, body, "t"⟩

/-- A message is pushed and acknowledged, then answered under the same cursor, and the
    connection is lost. -/
theorem seen_messages_again : ∃ (s : Inbox) (l : Login), l ∈ s.logins ∧ l.acked = [⟨1, 5⟩] ∧
    l.seenMessages = cursors l.persisted ∧ s.store.message ⟨1, 5⟩ = some (sampleMessage [2]) := by
  have h : ((exec (guarded Inbox.step free) (.new true) [.load, .login, .loginResponse,
      .messagePushed (sampleMessage [1]), .saveCursor, .ack true, .sendMessageResponse (sampleMessage [2]), .saveCursor,
      .fail, .load, .login]).any fun s =>
        s.logins[1]?.any fun l => l.acked = [⟨1, 5⟩] ∧ latest s.saved ⟨1, 5⟩ = some (sampleMessage [2])) = true := by
    decide +kernel
  obtain ⟨s, hr, hw⟩ := reach_any (I := Initial) _ (.init ⟨true, rfl⟩) h
  simp only [Option.any_eq_true, decide_eq_true_eq] at hw
  obtain ⟨l, hl, hacked, hlatest⟩ := hw
  obtain ⟨hlogins, hmessages, -, -⟩ := seen_messages hr
  have hl := List.mem_of_getElem? hl
  exact ⟨s, l, hl, hacked, (hlogins l hl).1, (hmessages _).trans hlatest⟩

end Turntf.Messages
