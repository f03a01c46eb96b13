import ChatModule.Actions.Lifecycle
import ChatModule.Inbound

/-!
# Business operations on conversations

Each operation is a sequence of critical sections: a check or a recording under
the display lock, a libchat call under the module lock, an event raised after
the locks are released. The body of a section under the display lock is a
function on `Guarded` of its own (`…Locked` where the operation has other parts),
so that the operation run from beginning to end, and its sections run one by one
between those of other threads, are built from the same definitions.

libchat's answers, the clock and the failures of `chat.db` writes are arguments.
-/

namespace ChatModule.Actions

open Persistence Inbound

/-- A libchat error, as its text. -/
abbrev ClientError := String

/-- Failure modes for the steady-state methods. -/
inductive CoreError
  | notInit
  | notFound
  | internal (message : String)
  | client (e : ClientError)
  | historyOnly
  | store (e : SqlError)
deriving DecidableEq

/-- The text of a `CoreError`. -/
def CoreError.message : CoreError → String
  | notInit => "module not initialised"
  | notFound => "conversation not found"
  | internal message => message
  | client e => e
  | historyOnly => "conversation is from a previous session and kept for its history only"
  | store e => "chat.db: " ++ e

/-- Character cap for a conversation-list preview. -/
def previewMaxChars : ℕ := 160

/-- A group's shared metadata, as the client reports it. -/
structure GroupMetadata where
  name : String
  desc : String
deriving DecidableEq

/-- `none` for an empty string. -/
def nonEmpty (s : String) : Option String := if s = "" then none else some s

/-- A session as every opening path writes it: no label, no messages, live. -/
def openedSession (chatId : String) (kind : ConversationKind)
    (name description peer : Option String) :
    ChatSession where
  chatId := chatId
  nickname := none
  kind := kind
  name := name
  description := description
  peer := peer
  messages := []
  olderMessages := 0
  historyOnly := false

/-- A message of the conversation `convoId`, recorded in the chat of the same id. -/
def chatMessage (convoId : String) (direction : Direction) (timestampMs : UInt64)
    (content : List UInt8) : StoredMessage where
  chatId := convoId
  convoId := convoId
  direction := direction
  senderAccount := none
  senderInstallation := none
  timestampMs := timestampMs.toInt64
  content := content

/-- `session.messages.push(display_message(message))`. -/
def pushMessage (session : ChatSession) (message : StoredMessage) : ChatSession :=
  { session with messages := session.messages ++ [displayMessage message] }

variable {σ : Type}

/-- `with_client`: a call on the libchat client, under the module lock. -/
def withClient {α : Type} (w : World σ) (answer : Except ClientError α) : Except CoreError α :=
  match w.module with
  | none => .error .notInit
  | some _ => answer.mapError .client

/-! ## Reads -/

/-- A session as `list_conversations` reports it. -/
def conversation (s : ChatSession) : Conversation where
  convoId := s.chatId
  nickname := s.nickname
  messageCount := s.olderMessages + s.messages.length
  lastActivityMs := match s.messages.getLast? with
    | some m => m.timestampMs.toInt64
    | none => 0
  kind := s.kind.asStr
  name := s.name
  description := s.description
  preview := s.messages.getLast?.map fun m =>
    String.ofList (m.content.toList.take previewMaxChars)
  historyOnly := s.historyOnly

/-- A message as `get_messages` reports it. -/
def message (m : DisplayMessage) : Message where
  fromSelf := m.fromSelf
  content := m.content
  timestampMs := m.timestampMs.toInt64
  sender := m.sender

/-- `list_conversations`, in no particular order. -/
def listConversations (g : Guarded σ) : Multiset Conversation := g.chats.values.map conversation

/-- `get_messages`; an unknown conversation reports an empty list. -/
def getMessages (g : Guarded σ) (convoId : String) : List Message :=
  match g.chats.get convoId with
  | some s => s.messages.map message
  | none => []

/-- `status`. -/
def status (g : Guarded σ) : Status where
  convoCount := g.chats.size
  deliveryState := g.display.deliveryState.state.asStr
  detail := g.display.deliveryState.detail
  deliveryAdopted := g.display.deliveryState.adopted

/-- `get_installation_name`. -/
def installationName (g : Guarded σ) : String := effectiveInstallationName g.display

/-- Fails unless `convoId` is a conversation of this session. -/
def checkLive (convoId : String) (g : Guarded σ) : Except CoreError Unit :=
  match (g.chats.get convoId).map ChatSession.historyOnly with
  | none => .error .notFound
  | some true => .error .historyOnly
  | some false => .ok ()

/-! ## Sections under the display lock -/

/-- The file replaced by what a write left. -/
def writeFile (g : Guarded σ) (file : ChatDb σ) : Guarded σ := { g with file := file }

/-- Write a chat's row to `chat.db`. -/
def persistChat (faults : Faults) (chatId : String) (g : Guarded σ) :
    Guarded σ × Except CoreError Unit :=
  match g.display.chatDb with
  | none => (g, .error .notInit)
  | some _ =>
    match g.chats.get chatId with
    | none => (g, .error .notFound)
    | some session =>
      match saveChat faults g.file session with
      | .error e => (g, .error (.store e))
      | .ok file => (writeFile g file, .ok ())

/-- `set_installation_name`. -/
def setInstallationName (faults : Faults) (name : String) (g : Guarded σ) :
    Guarded σ × Except CoreError Unit :=
  let name := nonEmpty name
  match g.display.chatDb with
  | none => (g, .error .notInit)
  | some _ =>
    -- memory follows the file, so a failed write changes nothing
    match saveInstallationName faults g.file name with
    | .error e => (g, .error (.store e))
    | .ok file => (writeFile (g.rename name) file, .ok ())

/-- What `create_conversation` opens. -/
def directSession (peerAddress chatId : String) : ChatSession :=
  openedSession chatId .direct none none (some peerAddress)

/-- What `create_group_conversation` opens. -/
def groupSession (name desc chatId : String) : ChatSession :=
  openedSession chatId .group (nonEmpty name) (nonEmpty desc) none

/-- The section of a create, once the client has returned an id: put the session
into the map and write its row. -/
def insertChat (faults : Faults) (session : ChatSession) (g : Guarded σ) :
    Guarded σ × Except CoreError Unit :=
  persistChat faults session.chatId (g.put session)

/-- `set_conversation_nickname`, before its event. -/
def setConversationNicknameLocked (faults : Faults) (convoId nickname : String) (g : Guarded σ) :
    Guarded σ × Except CoreError Unit :=
  match g.chats.get convoId with
  | none => (g, .error .notFound)
  | some session =>
    -- the session is changed in place, before the write that may fail
    persistChat faults convoId (g.put { session with nickname := nonEmpty nickname })

/-- What a joiner records of a group's metadata; a direct conversation has none,
and neither has a group the client could not answer for. -/
def startedMetadata (kind : ConversationKind) (answer : Except CoreError GroupMetadata) :
    Option String × Option String :=
  match kind, answer with
  | .group, .ok md => (nonEmpty md.name, nonEmpty md.desc)
  | _, _ => (none, none)

/-- `record_conversation_started`, once the metadata is read. A failed write is
only logged, so the section has no result. -/
def recordConversationStartedLocked (faults : Faults) (convoId : String) (kind : ConversationKind)
    (metadata : Option String × Option String) (g : Guarded σ) : Guarded σ :=
  if convoId ∈ g.deleted then g
  else
    match g.chats.get convoId with
    | some session =>
      -- invited back into a conversation from a previous session
      if session.historyOnly then
        (g.put { session with historyOnly := false }).emit (.conversationUpdated convoId)
      else g
    | none =>
      -- the event goes out before the row is written
      let g := g.put (openedSession convoId kind metadata.1 metadata.2 none)
      let g := g.emit (.conversationCreated convoId false (shortLabel convoId) kind.asStr
        (metadata.1.getD "") (metadata.2.getD ""))
      (persistChat faults convoId g).1

/-- `record_members_changed`. -/
def recordMembersChanged (convoId : String) (g : Guarded σ) : Guarded σ :=
  if convoId ∈ g.deleted ∨ g.chats.contains convoId = false then g
  else g.emit (.membersChanged convoId)

/-- The session `record_message_received` records into: the one in the map, or a
defensive one, with the sender as peer when a direct conversation had none. -/
def receivingSession (convoId account : String) (g : Guarded σ) : ChatSession :=
  let session := (g.chats.get convoId).getD (openedSession convoId .direct none none none)
  if session.kind = .direct ∧ session.peer = none then { session with peer := some account }
  else session

/-- Whether `record_message_received` opens or names the chat, so that its row
has to be written. -/
def receivingChangesChat (convoId : String) (g : Guarded σ) : Bool :=
  match g.chats.get convoId with
  | none => true
  | some session => session.kind = .direct ∧ session.peer = none

/-- The message `record_message_received` records. -/
def receivedMessage (convoId : String) (content : List UInt8) (account installation : String)
    (nowMs : UInt64) : StoredMessage :=
  { chatMessage convoId .received nowMs content with
    senderAccount := some account
    senderInstallation := some installation }

section Recording

variable [MessageStore σ]

/-- Record `message` in `chat.db`, with its chat's row when `chatChanged`, and
append it to the chat's list, which takes it even when the write fails. No-op
for a chat that is gone. -/
def recordMessage (faults : Faults) (message : StoredMessage) (chatChanged : Bool) (g : Guarded σ) :
    Guarded σ × Except CoreError Unit :=
  match g.chats.get message.chatId with
  | none => (g, .ok ())
  | some session =>
    match g.display.chatDb with
    | none => (g, .error .notInit)
    | some _ =>
      let recorded := Persistence.recordMessage faults g.file
        (if chatChanged then some session else none) message
      -- sent or decrypted already, the message is shown whatever became of the write
      let g := g.put (pushMessage session message)
      match recorded with
      | .error e => (g, .error (.store e))
      | .ok file => (writeFile g file, .ok ())

/-- `send_message`, once the client has taken the message. -/
def sendMessageLocked (faults : Faults) (convoId content : String) (nowMs : UInt64)
    (g : Guarded σ) : Guarded σ × Except CoreError Unit :=
  recordMessage faults (chatMessage convoId .sent nowMs (Utf8.asBytes content)) false g

/-- `record_message_received`. The second component is the outcome of the
recording, which the handler only logs; `none` when the event is dropped. -/
def recordMessageReceived (faults : Faults) (convoId : String) (content : List UInt8)
    (account installation : String) (nowMs : UInt64) (g : Guarded σ) :
    Guarded σ × Option (Except CoreError Unit) :=
  if convoId ∈ g.deleted then (g, none)
  else
    -- asked before the session is put: afterwards the chat is open and named
    let chatChanged := receivingChangesChat convoId g
    let g := g.put (receivingSession convoId account g)
    match recordMessage faults (receivedMessage convoId content account installation nowMs)
        chatChanged g with
    | (g, result) =>
      (g.emit (.messageReceived convoId (Utf8.fromUtf8Lossy content) nowMs.toInt64 account),
        some result)

/-- `delete_conversation`, before its event. -/
def deleteConversationLocked (faults : Faults) (convoId : String) (g : Guarded σ) :
    Guarded σ × Except CoreError Unit :=
  if !g.chats.contains convoId then (g, .error .notFound)
  else
    match g.display.chatDb with
    | none => (g, .error .notInit)
    | some _ =>
      -- the file first: a failed delete leaves the conversation where it was
      match deleteChat faults g.file convoId with
      | .error e => (g, .error (.store e))
      | .ok file => (writeFile (g.forget convoId) file, .ok ())

end Recording

/-! ## The operations from beginning to end -/

/-- `with_display_mut`: a section under the display lock. -/
def underDisplay {α : Type} (w : World σ) (body : Guarded σ → Guarded σ × α) : World σ × α :=
  ({ w with guarded := (body w.guarded).1 }, (body w.guarded).2)

/-- An event raised with no lock held. -/
def raise (w : World σ) (e : PluginEvent) : World σ := { w with guarded := w.guarded.emit e }

/-- The end of an operation: `?` on its last section, then the event, then `a`. -/
def finish {α : Type} (r : World σ × Except CoreError Unit) (e : PluginEvent) (a : α) :
    World σ × Except CoreError α :=
  match r.2 with
  | .ok () => (raise r.1 e, .ok a)
  | .error err => (r.1, .error err)

/-- What `create_conversation` raises. -/
def directCreated (chatId : String) : PluginEvent :=
  .conversationCreated chatId true (shortLabel chatId) ConversationKind.direct.asStr "" ""

/-- What `create_group_conversation` raises. -/
def groupCreated (name desc chatId : String) : PluginEvent :=
  .conversationCreated chatId true (shortLabel chatId) ConversationKind.group.asStr name desc

/-- Both creates: ask the client for a conversation, save a session for it under the
id `answer` gives, raise its event. -/
def create (session : String → ChatSession) (created : String → PluginEvent) (faults : Faults)
    (answer : Except ClientError String) (w : World σ) : World σ × Except CoreError String :=
  match withClient w answer with
  | .error e => (w, .error e)
  | .ok chatId =>
    finish (underDisplay w (insertChat faults (session chatId))) (created chatId) chatId

/-- `create_conversation`. -/
def createConversation (faults : Faults) (answer : Except ClientError String)
    (peerAddress : String) (w : World σ) : World σ × Except CoreError String :=
  create (directSession peerAddress) directCreated faults answer w

/-- `create_group_conversation`. -/
def createGroupConversation (faults : Faults) (answer : Except ClientError String)
    (name desc : String) (w : World σ) : World σ × Except CoreError String :=
  create (groupSession name desc) (groupCreated name desc) faults answer w

/-- `add_group_member`. -/
def addGroupMember (answer : Except ClientError Unit) (convoId : String) (w : World σ) :
    World σ × Except CoreError Unit :=
  match checkLive convoId w.guarded with
  | .error e => (w, .error e)
  | .ok () => finish (w, withClient w answer) (.conversationUpdated convoId) ()

/-- `list_group_members`; `answer` is the accounts of the client's `members` and of its
`pending_members`. -/
def listGroupMembers (answer : Except ClientError (List String × List String)) (convoId : String)
    (w : World σ) : List GroupMember :=
  match checkLive convoId w.guarded with
  | .error _ => []
  | .ok () =>
    match withClient w answer with
    | .ok (committed, invited) =>
      committed.map (fun account => ⟨account, false⟩) ++ invited.map fun account => ⟨account, true⟩
    | .error _ => []

/-- `send_message`. -/
def sendMessage [MessageStore σ] (faults : Faults) (answer : Except ClientError Unit)
    (convoId content : String) (nowMs : UInt64) (w : World σ) :
    World σ × Except CoreError Unit :=
  match checkLive convoId w.guarded with
  | .error e => (w, .error e)
  | .ok () =>
    match withClient w answer with
    | .error e => (w, .error e)
    | .ok () =>
      -- on the wire by now; only keeping it can still fail
      finish (underDisplay w (sendMessageLocked faults convoId content nowMs))
        (.messageSent convoId content nowMs.toInt64) ()

/-- `set_conversation_nickname`. -/
def setConversationNickname (faults : Faults) (convoId nickname : String) (w : World σ) :
    World σ × Except CoreError Unit :=
  finish (underDisplay w (setConversationNicknameLocked faults convoId nickname))
    (.conversationUpdated convoId) ()

/-- `delete_conversation`. -/
def deleteConversation [MessageStore σ] (faults : Faults) (convoId : String) (w : World σ) :
    World σ × Except CoreError Unit :=
  finish (underDisplay w (deleteConversationLocked faults convoId))
    (.conversationDeleted convoId) ()

/-- `record_conversation_started`; `answer` is the client's `group_metadata`. -/
def recordConversationStarted (faults : Faults) (convoId : String) (kind : ConversationKind)
    (answer : Except ClientError GroupMetadata) (w : World σ) : World σ :=
  let metadata := startedMetadata kind (withClient w answer)
  { w with guarded := recordConversationStartedLocked faults convoId kind metadata w.guarded }

end ChatModule.Actions
