import Mathlib.Data.List.AList
import Mathlib.Data.Finset.Basic
import ChatModule.Lib.Basic
import ChatModule.Lib.Keyed
import ChatModule.MessageStore
import ChatModule.Utf8

/-!
# On-disk persistence (`chat.db`)

The module's own tables, the message store beside them, and the writes that
change them. A write either returns the file's next contents or an error; on an
error the caller keeps the contents it had, which is SQLite undoing a failed
statement or rolling a dropped transaction back. Which statement fails, if any,
is decided outside (`Faults`).

Reading the file back (`loadState`) is a loop over the rows of `chats`. Its
result is given once and for all by `loadState_eq`: the rows' check constraint
leaves no row that does not decode, and each chat comes back with the newest
`loadedPerChat` messages of its history and a count of the rest.
-/

namespace ChatModule

/-- What SQLite reports, as text. -/
abbrev SqlError := String

/-! ## What is persisted -/

/-- A single rendered message in a conversation's local history view. -/
structure DisplayMessage where
  fromSelf : Bool
  content : String
  timestampMs : UInt64
  sender : Option String
deriving DecidableEq

/-- Whether a conversation is pairwise or a group. -/
inductive ConversationKind
  | direct
  | group
deriving DecidableEq, Repr

namespace ConversationKind

/-- The contract wire string, also what the `kind` column holds. -/
def asStr : ConversationKind → String
  | direct => "direct"
  | group => "group"

/-- The kind a `kind` column holds. -/
def columnResult (value : String) : Except SqlError ConversationKind :=
  if value = "direct" then .ok direct
  else if value = "group" then .ok group
  else .error ("unknown conversation kind " ++ value.quote)

@[simp] theorem columnResult_asStr (k : ConversationKind) : columnResult k.asStr = .ok k := by
  cases k <;> rfl

theorem asStr_injective {k k' : ConversationKind} (h : k.asStr = k'.asStr) : k = k' := by
  cases k <;> cases k' <;> first | rfl | simp [asStr] at h

end ConversationKind

/-- Per-conversation state held alongside libchat's cryptographic state. -/
structure ChatSession where
  chatId : String
  nickname : Option String
  kind : ConversationKind
  name : Option String
  description : Option String
  peer : Option String
  messages : List DisplayMessage
  olderMessages : ℕ
  historyOnly : Bool
deriving DecidableEq

/-- The conversations in memory, by id. -/
abbrev Chats := Keyed ChatSession.chatId

/-- Everything the module persists, as read back at init. -/
structure AppState where
  chats : Chats
  installationName : Option String
  deleted : Finset String

/-- `AppState::default()`. -/
def AppState.default : AppState := ⟨Keyed.empty, none, ∅⟩

/-- A row of `chats`, less its primary key. -/
structure ChatRow where
  kind : String
  kind_check : kind = "direct" ∨ kind = "group"
  nickname : Option String
  name : Option String
  description : Option String
  peer : Option String
deriving DecidableEq

/-- The row that keeps a session. -/
def ChatSession.row (s : ChatSession) : ChatRow where
  kind := s.kind.asStr
  kind_check := by cases s.kind <;> simp [ConversationKind.asStr]
  nickname := s.nickname
  name := s.name
  description := s.description
  peer := s.peer

/-- The contents of `chat.db`: the module's tables, each keyed by its primary
key, and the message store's. -/
structure ChatDb (σ : Type) where
  chats : AList fun _ : String => ChatRow
  deletedChats : Finset String
  settings : AList fun _ : String => String
  messageStore : σ

namespace Persistence

variable {σ : Type} [MessageStore σ]

/-- A new file, every table at its latest version. -/
def emptyDb : ChatDb σ := ⟨∅, ∅, ∅, MessageStore.empty⟩

/-- How many of a chat's newest messages `loadState` reads back. -/
def loadedPerChat : ℕ := 500

/-- A stored message as `get_messages` shows it, its sender named by account. -/
def displayMessage (m : StoredMessage) : DisplayMessage where
  fromSelf := m.direction = .sent
  content := Utf8.fromUtf8Lossy m.content
  timestampMs := m.timestampMs.toUInt64
  sender := m.senderAccount

/-! ## Writes -/

/-- The statements a write can fail at. -/
inductive Stmt
  | transaction
  | saveChat
  | record
  | deleteMessages
  | deleteRow
  | insertTombstone
  | saveName
  | clearName
  | commit
deriving DecidableEq, Repr

/-- Which statements of a write fail, and how. -/
abbrev Faults := Stmt → Option SqlError

/-- No statement fails. -/
def noFaults : Faults := fun _ => none

/-- Run one statement: what it leaves, unless it fails. -/
def run {α : Type} (faults : Faults) (stmt : Stmt) (after : α) : Except SqlError α :=
  match faults stmt with
  | none => .ok after
  | some e => .error e

/-- Write a chat's row, inserting it or replacing what it held. -/
def saveChat (faults : Faults) (db : ChatDb σ) (session : ChatSession) :
    Except SqlError (ChatDb σ) :=
  run faults .saveChat { db with chats := db.chats.insert session.chatId session.row }

/-- The chat's row that goes along with a message, when there is one to write. -/
def saveGiven (faults : Faults) (db : ChatDb σ) : Option ChatSession → Except SqlError (ChatDb σ)
  | some session => saveChat faults db session
  | none => .ok db

/-- Record a message, and write its chat's row when `session` is given, in one
transaction. -/
def recordMessage (faults : Faults) (db : ChatDb σ) (session : Option ChatSession)
    (message : StoredMessage) : Except SqlError (ChatDb σ) := do
  -- nothing of `tx` reaches the file before the commit
  let tx ← run faults .transaction db
  let tx ← saveGiven faults tx session
  let tx ← run faults .record
    { tx with messageStore := MessageStore.record tx.messageStore message }
  run faults .commit tx

/-- Delete a chat and its messages, and keep its tombstone, in one transaction. -/
def deleteChat (faults : Faults) (db : ChatDb σ) (chatId : String) :
    Except SqlError (ChatDb σ) := do
  let tx ← run faults .transaction db
  let tx ← run faults .deleteMessages
    { tx with messageStore := MessageStore.deleteChat tx.messageStore chatId }
  let tx ← run faults .deleteRow { tx with chats := tx.chats.erase chatId }
  let tx ← run faults .insertTombstone { tx with deletedChats := insert chatId tx.deletedChats }
  run faults .commit tx

/-- Write the installation-name override, or clear it with `none`. -/
def saveInstallationName (faults : Faults) (db : ChatDb σ) (name : Option String) :
    Except SqlError (ChatDb σ) :=
  match name with
  | some name =>
    run faults .saveName { db with settings := db.settings.insert "installation_name" name }
  | none => run faults .clearName { db with settings := db.settings.erase "installation_name" }

/-! ## Reading back -/

/-- One iteration's session: the row decoded, with its newest messages. -/
def loadSession (db : ChatDb σ) (chatId : String) (row : ChatRow) :
    Except SqlError ChatSession :=
  match ConversationKind.columnResult row.kind with
  | .error e => .error e
  | .ok kind =>
    -- the newest page, oldest first; what is before it is only counted
    let messages := (MessageStore.messages db.messageStore chatId loadedPerChat).map displayMessage
    .ok {
      chatId := chatId
      kind := kind
      nickname := row.nickname
      name := row.name
      description := row.description
      peer := row.peer
      messages := messages
      olderMessages := MessageStore.count db.messageStore chatId - messages.length
      historyOnly := false }

/-- The loop of `loadState` over the rows of `chats`. -/
def loadChats (db : ChatDb σ) : List (Sigma fun _ : String => ChatRow) → Chats →
    Except SqlError Chats
  | [], chats => .ok chats
  | row :: rows, chats => do
    let session ← loadSession db row.1 row.2
    loadChats db rows (chats.insert session)

/-- The persisted state, each chat with its newest `loadedPerChat` messages. -/
def loadState (db : ChatDb σ) : Except SqlError AppState := do
  let chats ← loadChats db db.chats.entries Keyed.empty
  pure {
    chats := chats
    installationName := db.settings.lookup "installation_name"
    deleted := db.deletedChats }

end Persistence

/-! ## What the file says -/

namespace ChatDb

variable {σ : Type}

/-- The row of a chat. -/
def row (db : ChatDb σ) (chatId : String) : Option ChatRow := db.chats.lookup chatId

/-- The installation-name override. -/
def installationName (db : ChatDb σ) : Option String := db.settings.lookup "installation_name"

/-- The file once a session's row is written. -/
def withRow (db : ChatDb σ) (session : ChatSession) : ChatDb σ :=
  { db with chats := db.chats.insert session.chatId session.row }

/-- The file once the installation-name override is written or cleared. -/
def withName (db : ChatDb σ) (name : Option String) : ChatDb σ :=
  match name with
  | some name => { db with settings := db.settings.insert "installation_name" name }
  | none => { db with settings := db.settings.erase "installation_name" }

theorem row_withRow (db : ChatDb σ) (s : ChatSession) (id : String) :
    (db.withRow s).row id = if id = s.chatId then some s.row else db.row id := by
  unfold row withRow
  by_cases h : id = s.chatId
  · subst h
    simp
  · simp [h]

@[simp] theorem deletedChats_withRow (db : ChatDb σ) (s : ChatSession) :
    (db.withRow s).deletedChats = db.deletedChats := rfl

@[simp] theorem installationName_withRow (db : ChatDb σ) (s : ChatSession) :
    (db.withRow s).installationName = db.installationName := rfl

@[simp] theorem row_withName (db : ChatDb σ) (n : Option String) (id : String) :
    (db.withName n).row id = db.row id := by
  cases n <;> rfl

@[simp] theorem deletedChats_withName (db : ChatDb σ) (n : Option String) :
    (db.withName n).deletedChats = db.deletedChats := by
  cases n <;> rfl

@[simp] theorem installationName_withName (db : ChatDb σ) (n : Option String) :
    (db.withName n).installationName = n := by
  cases n <;> simp [installationName, withName]

variable [MessageStore σ]

/-- The messages stored for a chat, oldest first. -/
def history (db : ChatDb σ) (chatId : String) : List StoredMessage :=
  MessageStore.history db.messageStore chatId

/-- The file once a message is recorded. -/
def withMessage (db : ChatDb σ) (message : StoredMessage) : ChatDb σ :=
  { db with messageStore := MessageStore.record db.messageStore message }

/-- The file once a chat is deleted. -/
def withoutChat (db : ChatDb σ) (chatId : String) : ChatDb σ where
  chats := db.chats.erase chatId
  deletedChats := insert chatId db.deletedChats
  settings := db.settings
  messageStore := MessageStore.deleteChat db.messageStore chatId

@[simp] theorem history_withRow (db : ChatDb σ) (s : ChatSession) (id : String) :
    (db.withRow s).history id = db.history id := rfl

@[simp] theorem history_withName (db : ChatDb σ) (n : Option String) (id : String) :
    (db.withName n).history id = db.history id := by
  cases n <;> rfl

@[simp] theorem row_withMessage (db : ChatDb σ) (m : StoredMessage) (id : String) :
    (db.withMessage m).row id = db.row id := rfl

@[simp] theorem deletedChats_withMessage (db : ChatDb σ) (m : StoredMessage) :
    (db.withMessage m).deletedChats = db.deletedChats := rfl

@[simp] theorem installationName_withMessage (db : ChatDb σ) (m : StoredMessage) :
    (db.withMessage m).installationName = db.installationName := rfl

theorem row_withoutChat (db : ChatDb σ) (c id : String) :
    (db.withoutChat c).row id = if id = c then none else db.row id := by
  unfold row withoutChat
  by_cases h : id = c
  · subst h
    simp
  · simp [h]

@[simp] theorem deletedChats_withoutChat (db : ChatDb σ) (c : String) :
    (db.withoutChat c).deletedChats = insert c db.deletedChats := rfl

@[simp] theorem installationName_withoutChat (db : ChatDb σ) (c : String) :
    (db.withoutChat c).installationName = db.installationName := rfl

section Lawful

variable [LawfulMessageStore σ]

@[simp] theorem history_emptyDb (id : String) :
    (Persistence.emptyDb : ChatDb σ).history id = [] := by
  simp [history, Persistence.emptyDb]

theorem history_withMessage (db : ChatDb σ) (m : StoredMessage) (id : String) :
    (db.withMessage m).history id =
      if id = m.chatId then db.history id ++ [m] else db.history id := by
  simp [history, withMessage]

theorem history_withoutChat (db : ChatDb σ) (c id : String) :
    (db.withoutChat c).history id = if id = c then [] else db.history id := by
  simp [history, withoutChat]

end Lawful

end ChatDb

/-! ## What a write can do -/

namespace Persistence

variable {σ : Type} {faults : Faults} {db db' : ChatDb σ}

theorem run_ok_iff {α : Type} {stmt : Stmt} {after x : α} :
    run faults stmt after = .ok x ↔ faults stmt = none ∧ x = after := by
  unfold run
  cases faults stmt with
  | none => simp [eq_comm]
  | some e => simp

@[simp] theorem run_noFaults {α : Type} (stmt : Stmt) (after : α) :
    run noFaults stmt after = .ok after := rfl

theorem saveChat_ok_iff {s : ChatSession} :
    saveChat faults db s = .ok db' ↔ faults .saveChat = none ∧ db' = db.withRow s :=
  run_ok_iff

theorem saveInstallationName_ok {n : Option String}
    (h : saveInstallationName faults db n = .ok db') : db' = db.withName n := by
  cases n with
  | none => exact (run_ok_iff.mp h).2
  | some n => exact (run_ok_iff.mp h).2

@[simp] theorem saveChat_noFaults (s : ChatSession) :
    saveChat noFaults db s = .ok (db.withRow s) := rfl

@[simp] theorem saveInstallationName_noFaults (n : Option String) :
    saveInstallationName noFaults db n = .ok (db.withName n) := by
  cases n <;> rfl

variable [MessageStore σ]

/-- The file once a message is recorded, with its chat's row when one is given. -/
def recorded (db : ChatDb σ) (session : Option ChatSession) (m : StoredMessage) : ChatDb σ :=
  match session with
  | some s => (db.withRow s).withMessage m
  | none => db.withMessage m

theorem recordMessage_ok {session : Option ChatSession} {m : StoredMessage}
    (h : recordMessage faults db session m = .ok db') : db' = recorded db session m := by
  obtain ⟨tx₁, h₁, hrest⟩ := Except.bind_eq_ok_iff.mp h
  obtain ⟨tx₂, h₂, hrest⟩ := Except.bind_eq_ok_iff.mp hrest
  obtain ⟨tx₃, h₃, h₄⟩ := Except.bind_eq_ok_iff.mp hrest
  obtain ⟨-, rfl⟩ := run_ok_iff.mp h₁
  obtain ⟨-, rfl⟩ := run_ok_iff.mp h₃
  obtain ⟨-, rfl⟩ := run_ok_iff.mp h₄
  -- no statement failed; what is left is whether there was a row to write
  cases session with
  | none =>
    cases h₂
    rfl
  | some s =>
    obtain ⟨-, rfl⟩ := saveChat_ok_iff.mp h₂
    rfl

theorem deleteChat_ok {c : String} (h : deleteChat faults db c = .ok db') :
    db' = db.withoutChat c := by
  obtain ⟨tx₁, h₁, hrest⟩ := Except.bind_eq_ok_iff.mp h
  obtain ⟨tx₂, h₂, hrest⟩ := Except.bind_eq_ok_iff.mp hrest
  obtain ⟨tx₃, h₃, hrest⟩ := Except.bind_eq_ok_iff.mp hrest
  obtain ⟨tx₄, h₄, h₅⟩ := Except.bind_eq_ok_iff.mp hrest
  obtain ⟨-, rfl⟩ := run_ok_iff.mp h₁
  obtain ⟨-, rfl⟩ := run_ok_iff.mp h₂
  obtain ⟨-, rfl⟩ := run_ok_iff.mp h₃
  obtain ⟨-, rfl⟩ := run_ok_iff.mp h₄
  obtain ⟨-, rfl⟩ := run_ok_iff.mp h₅
  rfl

@[simp] theorem recordMessage_noFaults (session : Option ChatSession) (m : StoredMessage) :
    recordMessage noFaults db session m = .ok (recorded db session m) := by
  cases session <;> rfl

@[simp] theorem deleteChat_noFaults (c : String) :
    deleteChat noFaults db c = .ok (db.withoutChat c) := rfl

/-! ## What a read returns -/

/-- The session a row reads back as. -/
def loadedSession (db : ChatDb σ) (chatId : String) (row : ChatRow) : ChatSession where
  chatId := chatId
  nickname := row.nickname
  kind := if row.kind = "group" then .group else .direct
  name := row.name
  description := row.description
  peer := row.peer
  messages := ((db.history chatId).rtake loadedPerChat).map displayMessage
  olderMessages := (db.history chatId).length - loadedPerChat
  historyOnly := false

/-- The check constraint lets every row decode. -/
theorem columnResult_row (row : ChatRow) : ConversationKind.columnResult row.kind =
    .ok (if row.kind = "group" then .group else .direct) := by
  rcases row.kind_check with h | h
  · simp [ConversationKind.columnResult, h]
  · simp [ConversationKind.columnResult, h]

/-- A row is read back as it was written. -/
theorem loadedSession_row (db : ChatDb σ) (chatId : String) (row : ChatRow) :
    (loadedSession db chatId row).row = row := by
  obtain ⟨kind, hcheck, nickname, name, description, peer⟩ := row
  rcases hcheck with rfl | rfl <;> rfl

theorem loadSession_eq [LawfulMessageStore σ] (db : ChatDb σ) (chatId : String) (row : ChatRow) :
    loadSession db chatId row = .ok (loadedSession db chatId row) := by
  -- the page is as long as the history allows, so the rest is the history less a page
  have holder : (db.history chatId).length - min loadedPerChat (db.history chatId).length =
      (db.history chatId).length - loadedPerChat := by omega
  simp only [loadSession, columnResult_row, LawfulMessageStore.messages_eq,
    LawfulMessageStore.count_eq, List.length_map, List.length_rtake, loadedSession]
  rw [← holder]
  rfl

/-- What the loop has inserted once it has gone through `rows`: the row of an id
is there at most once, so the order of the rows does not matter. -/
theorem loadChats_eq [LawfulMessageStore σ] (db : ChatDb σ) :
    -- by induction on the rows that are left, over what is inserted so far
    ∀ (rows : List (Sigma fun _ : String => ChatRow)) (chats : Chats), rows.NodupKeys →
      ∃ chats', loadChats db rows chats = .ok chats' ∧ ∀ id, chats'.get id =
        match rows.dlookup id with
        | some row => some (loadedSession db id row)
        | none => chats.get id
  | [], chats, _ => ⟨chats, rfl, fun _ => rfl⟩
  | ⟨k, row⟩ :: rows, chats, hnd => by
      rw [List.nodupKeys_cons] at hnd
      obtain ⟨chats', hload, hget⟩ :=
        loadChats_eq db rows (chats.insert (loadedSession db k row)) hnd.2
      refine ⟨chats', ?_, ?_⟩
      · simp only [loadChats, loadSession_eq]
        exact hload
      · intro id
        rw [hget id]
        by_cases hid : id = k
        · -- the row is this one, and no later one replaces it
          subst hid
          have hnone : rows.dlookup id = none := List.dlookup_eq_none.mpr hnd.1
          rw [hnone, List.dlookup_cons_eq]
          exact Keyed.get_insert_self chats (loadedSession db id row)
        · rw [List.dlookup_cons_ne _ _ hid]
          cases rows.dlookup id with
          | some row' => rfl
          | none => exact Keyed.get_insert_of_ne chats hid

/-- Reading the file back never fails on its contents, and gives every chat that
has a row, with the end of its history. -/
theorem loadState_eq [LawfulMessageStore σ] (db : ChatDb σ) :
    ∃ state, loadState db = .ok state ∧
      (∀ id, state.chats.get id = (db.row id).map (loadedSession db id)) ∧
      state.deleted = db.deletedChats ∧ state.installationName = db.installationName := by
  obtain ⟨chats, hload, hget⟩ := loadChats_eq db db.chats.entries Keyed.empty db.chats.nodupKeys
  refine ⟨⟨chats, db.installationName, db.deletedChats⟩, ?_, ?_, rfl, rfl⟩
  · unfold loadState
    rw [hload]
    rfl
  · intro id
    rw [hget id]
    change _ = (db.chats.entries.dlookup id).map _
    cases db.chats.entries.dlookup id with
    | some row => rfl
    | none => exact Keyed.get_empty id

end Persistence

end ChatModule
