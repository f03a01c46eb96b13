import ChatModule.Actions.Conversations

/-!
# What the sections can do

One lemma for each section under the display lock that writes `chat.db`, listing
everything it can do: `persistChat_cases`, `recordMessage_cases`,
`setInstallationName_cases`, `deleteConversationLocked_cases`. The sections built
from these are taken apart the same way, and what each property of a run needs of
a section is read off its cases.

`SameAt id g g'` is the frame condition: `g'` shows and stores of the conversation
`id` what `g` does. A section about another conversation keeps it.
-/

namespace ChatModule.Actions

open Persistence

variable {σ : Type} {faults : Faults} {g g' : Guarded σ} {id c : String}

/-! ## The file replaced -/

section Fields

variable (g : Guarded σ) (file : ChatDb σ)

@[simp] theorem display_writeFile : (writeFile g file).display = g.display := rfl
@[simp] theorem chats_writeFile : (writeFile g file).chats = g.chats := rfl
@[simp] theorem deleted_writeFile : (writeFile g file).deleted = g.deleted := rfl
@[simp] theorem file_writeFile : (writeFile g file).file = file := rfl
@[simp] theorem raised_writeFile : (writeFile g file).raised = g.raised := rfl

/-- Raising an event and putting a session commute. -/
theorem emit_put (e : PluginEvent) (s : ChatSession) : (g.put s).emit e = (g.emit e).put s := rfl

@[simp] theorem chatId_openedSession (kind : ConversationKind)
    (name description peer : Option String) :
    (openedSession id kind name description peer).chatId = id := rfl

@[simp] theorem chatId_chatMessage (d : Direction) (t : UInt64) (content : List UInt8) :
    (chatMessage id d t content).chatId = id := rfl

@[simp] theorem chatId_receivedMessage (content : List UInt8) (account installation : String)
    (t : UInt64) : (receivedMessage id content account installation t).chatId = id := rfl

end Fields

/-- A conversation is listed when its session is in the map. -/
theorem mem_listConversations {c : Conversation} :
    c ∈ listConversations g ↔ ∃ s, g.chats.get c.convoId = some s ∧ conversation s = c := by
  unfold listConversations
  refine (Keyed.mem_map_values (n := Conversation.convoId) (fun _ => rfl)).trans ?_
  exact Option.map_eq_some_iff

/-! ## Cases -/

/-- The row is written, or nothing happens. -/
theorem persistChat_cases (faults : Faults) (id : String) (g : Guarded σ) :
    (∃ e, persistChat faults id g = (g, .error e)) ∨
    ∃ s, g.chats.get id = some s ∧ g.display.chatDb.isSome ∧ faults .saveChat = none ∧
      persistChat faults id g = (writeFile g (g.file.withRow s), .ok ()) := by
  unfold persistChat
  cases hdb : g.display.chatDb with
  | none => exact Or.inl ⟨_, rfl⟩
  | some conn =>
    cases hget : g.chats.get id with
    | none => exact Or.inl ⟨_, rfl⟩
    | some s =>
      simp only
      cases hsave : saveChat faults g.file s with
      | error e => exact Or.inl ⟨_, rfl⟩
      | ok file =>
        obtain ⟨hf, rfl⟩ := saveChat_ok_iff.mp hsave
        exact Or.inr ⟨s, rfl, rfl, hf, rfl⟩

/-- A session is put in the map; then its row is written, or the write fails. -/
theorem persistChat_put_cases (faults : Faults) (s : ChatSession) (g : Guarded σ) :
    (∃ e, (g.display.chatDb = none ∨ faults .saveChat ≠ none) ∧
      persistChat faults s.chatId (g.put s) = (g.put s, .error e)) ∨
    (g.display.chatDb.isSome ∧ faults .saveChat = none ∧ persistChat faults s.chatId (g.put s) =
      (writeFile (g.put s) (g.file.withRow s), .ok ())) := by
  have hget : (g.put s).chats.get s.chatId = some s := Keyed.get_insert_self _ s
  unfold persistChat
  rw [hget]
  cases hdb : g.display.chatDb with
  | none => exact Or.inl ⟨.notInit, Or.inl rfl, by simp [hdb]⟩
  | some conn =>
    cases hf : faults .saveChat with
    | none => exact Or.inr ⟨rfl, rfl, by simp [hdb, saveChat, run, hf, ChatDb.withRow]⟩
    | some e => exact Or.inl ⟨.store e, Or.inr (by simp), by simp [hdb, saveChat, run, hf]⟩

theorem setInstallationName_cases (faults : Faults) (name : String) (g : Guarded σ) :
    (∃ e, setInstallationName faults name g = (g, .error e)) ∨
    (g.display.chatDb.isSome ∧ setInstallationName faults name g =
      (writeFile (g.rename (nonEmpty name)) (g.file.withName (nonEmpty name)), .ok ())) := by
  unfold setInstallationName
  cases hdb : g.display.chatDb with
  | none => exact Or.inl ⟨_, rfl⟩
  | some conn =>
    simp only
    cases hsave : saveInstallationName faults g.file (nonEmpty name) with
    | error e => exact Or.inl ⟨_, rfl⟩
    | ok file =>
      obtain rfl := saveInstallationName_ok hsave
      exact Or.inr ⟨rfl, rfl⟩

/-- The nickname is set in the map, and then written or not. -/
theorem setConversationNicknameLocked_cases (faults : Faults) (id nickname : String)
    (g : Guarded σ) :
    (g.chats.get id = none ∧
      setConversationNicknameLocked faults id nickname g = (g, .error .notFound)) ∨
    ∃ s, g.chats.get id = some s ∧ setConversationNicknameLocked faults id nickname g =
      persistChat faults id (g.put { s with nickname := nonEmpty nickname }) := by
  unfold setConversationNicknameLocked
  cases hget : g.chats.get id with
  | none => exact Or.inl ⟨rfl, rfl⟩
  | some s => exact Or.inr ⟨s, rfl, rfl⟩

/-- A started conversation is dropped or already live, or marked live again, or it is
opened, raised and then written or not. -/
theorem recordConversationStartedLocked_cases (faults : Faults) (id : String)
    (kind : ConversationKind) (md : Option String × Option String) (g : Guarded σ) :
    recordConversationStartedLocked faults id kind md g = g ∨
    (∃ s e, g.chats.get id = some s ∧ recordConversationStartedLocked faults id kind md g =
      (g.put { s with historyOnly := false }).emit e) ∨
    (g.chats.get id = none ∧ ∃ e, recordConversationStartedLocked faults id kind md g =
      (persistChat faults id ((g.emit e).put (openedSession id kind md.1 md.2 none))).1) := by
  unfold recordConversationStartedLocked
  by_cases hdel : id ∈ g.deleted
  · exact Or.inl (by simp [hdel])
  · cases hget : g.chats.get id with
    | none =>
      refine Or.inr (Or.inr ⟨rfl, .conversationCreated id false (shortLabel id) kind.asStr
        (md.1.getD "") (md.2.getD ""), ?_⟩)
      simp only [hdel, if_false, emit_put]
    | some s =>
      cases hmark : s.historyOnly with
      | false => exact Or.inl (by simp [hdel, hmark])
      | true =>
        refine Or.inr (Or.inl ⟨s, .conversationUpdated id, rfl, ?_⟩)
        simp only [hdel, hmark, if_false, if_true]

@[simp] theorem chatId_pushMessage (s : ChatSession) (m : StoredMessage) :
    (pushMessage s m).chatId = s.chatId := rfl

/-- The session a message is recorded into keeps the chat's id. -/
@[simp] theorem chatId_receivingSession (id account : String) (g : Guarded σ) :
    (receivingSession id account g).chatId = id := by
  have hid : ((g.chats.get id).getD (openedSession id .direct none none none)).chatId = id := by
    cases hget : g.chats.get id with
    | none => rfl
    | some s => exact Keyed.key_of_get hget
  unfold receivingSession
  simp only
  split <;> exact hid

/-- A chat an inbound message neither opens nor names is recorded into as it is. -/
theorem receivingSession_of_unchanged (h : receivingChangesChat id g = false) (account : String) :
    g.chats.get id = some (receivingSession id account g) := by
  unfold receivingChangesChat at h
  cases hget : g.chats.get id with
  | none => simp [hget] at h
  | some s =>
    have hcond : ¬ (s.kind = .direct ∧ s.peer = none) := by simpa [hget] using h
    simp [receivingSession, hget, if_neg hcond]

section Recording

variable [MessageStore σ]

/-- A recording finds no chat, or no connection, or it appends to the chat's list
and writes or fails to. -/
theorem recordMessage_cases (faults : Faults) (m : StoredMessage) (chatChanged : Bool)
    (g : Guarded σ) :
    (g.chats.get m.chatId = none ∧ recordMessage faults m chatChanged g = (g, .ok ())) ∨
    (g.display.chatDb = none ∧ recordMessage faults m chatChanged g = (g, .error .notInit)) ∨
    ∃ s, g.chats.get m.chatId = some s ∧ g.display.chatDb.isSome ∧
      ((∃ e, recordMessage faults m chatChanged g =
        (g.put (pushMessage s m), .error (.store e))) ∨
      recordMessage faults m chatChanged g =
        (writeFile (g.put (pushMessage s m))
          (recorded g.file (if chatChanged then some s else none) m), .ok ())) := by
  unfold recordMessage
  cases hget : g.chats.get m.chatId with
  | none => exact Or.inl ⟨rfl, rfl⟩
  | some s =>
    cases hdb : g.display.chatDb with
    | none => exact Or.inr (Or.inl ⟨rfl, rfl⟩)
    | some conn =>
      refine Or.inr (Or.inr ⟨s, rfl, rfl, ?_⟩)
      simp only
      cases hrec : Persistence.recordMessage faults g.file (if chatChanged then some s else none) m
        with
      | error e => exact Or.inl ⟨e, rfl⟩
      | ok file =>
        obtain rfl := recordMessage_ok hrec
        exact Or.inr rfl

/-- A recording into a chat that is there, over an open connection. -/
theorem recordMessage_of_get {s : ChatSession} {m : StoredMessage} (chatChanged : Bool)
    (hget : g.chats.get m.chatId = some s) (hdb : g.display.chatDb.isSome) :
    Actions.recordMessage noFaults m chatChanged g = (writeFile (g.put (pushMessage s m))
      (recorded g.file (if chatChanged then some s else none) m), .ok ()) := by
  obtain ⟨conn, hconn⟩ := Option.isSome_iff_exists.mp hdb
  unfold Actions.recordMessage
  rw [hget, hconn]
  simp only [recordMessage_noFaults]

/-- An inbound message is dropped, or recorded into its session and raised. -/
theorem recordMessageReceived_cases (faults : Faults) (id : String) (content : List UInt8)
    (account installation : String) (t : UInt64) (g : Guarded σ) :
    (id ∈ g.deleted ∧
      recordMessageReceived faults id content account installation t g = (g, none)) ∨
    (id ∉ g.deleted ∧ ∃ r, r = recordMessage faults
        (receivedMessage id content account installation t) (receivingChangesChat id g)
        (g.put (receivingSession id account g)) ∧
      recordMessageReceived faults id content account installation t g =
        (r.1.emit (.messageReceived id (Utf8.fromUtf8Lossy content) t.toInt64 account),
          some r.2)) := by
  unfold recordMessageReceived
  by_cases hdel : id ∈ g.deleted
  · exact Or.inl ⟨hdel, by simp [hdel]⟩
  · exact Or.inr ⟨hdel, _, rfl, by simp [hdel]⟩

/-- What an inbound message that is not dropped writes, when its writes succeed. -/
theorem recordMessageReceived_file (hdb : g.display.chatDb.isSome) (hdel : id ∉ g.deleted)
    (content : List UInt8) (account installation : String) (t : UInt64) :
    (recordMessageReceived noFaults id content account installation t g).2 = some (.ok ()) ∧
    (recordMessageReceived noFaults id content account installation t g).1.file =
      recorded g.file
        (if receivingChangesChat id g then some (receivingSession id account g) else none)
        (receivedMessage id content account installation t) := by
  have hput : (g.put (receivingSession id account g)).chats.get id =
      some (receivingSession id account g) := by
    have hself := Keyed.get_insert_self g.chats (receivingSession id account g)
    rwa [chatId_receivingSession] at hself
  rcases recordMessageReceived_cases noFaults id content account installation t g with
    ⟨hin, -⟩ | ⟨-, r, rfl, heq⟩
  · exact absurd hin hdel
  · rw [heq, Guarded.file_emit, recordMessage_of_get _ hput (by exact hdb)]
    exact ⟨rfl, rfl⟩

/-- A start records no message. -/
theorem recordConversationStartedLocked_history (faults : Faults) (id c : String)
    (kind : ConversationKind) (md : Option String × Option String) (g : Guarded σ) :
    (recordConversationStartedLocked faults c kind md g).file.history id = g.file.history id := by
  rcases recordConversationStartedLocked_cases faults c kind md g with
    heq | ⟨s, e, -, heq⟩ | ⟨-, e, heq⟩
  · rw [heq]
  · rw [heq]
    rfl
  · rw [heq]
    rcases persistChat_cases faults c ((g.emit e).put (openedSession c kind md.1 md.2 none)) with
      ⟨e', hsave⟩ | ⟨s, -, -, -, hsave⟩
    · rw [hsave]
      rfl
    · rw [hsave]
      rfl

/-- The chat leaves the map and the file together, or nothing happens. -/
theorem deleteConversationLocked_cases (faults : Faults) (id : String) (g : Guarded σ) :
    (∃ e, deleteConversationLocked faults id g = (g, .error e)) ∨
    (g.chats.contains id = true ∧ g.display.chatDb.isSome ∧ deleteConversationLocked faults id g =
      (writeFile (g.forget id) (g.file.withoutChat id), .ok ())) := by
  unfold deleteConversationLocked
  cases hmem : g.chats.contains id with
  | false => exact Or.inl ⟨.notFound, rfl⟩
  | true =>
    cases hdb : g.display.chatDb with
    | none => exact Or.inl ⟨_, rfl⟩
    | some conn =>
      simp only [Bool.not_true, Bool.false_eq_true, if_false]
      cases hdel : deleteChat faults g.file id with
      | error e => exact Or.inl ⟨_, rfl⟩
      | ok file =>
        obtain rfl := deleteChat_ok hdel
        exact Or.inr ⟨trivial, rfl, rfl⟩

end Recording

/-! ## What is displayed

What a section makes of the display, whatever becomes of its write. -/

section Displayed

@[simp] theorem persistChat_display (faults : Faults) (id : String) (g : Guarded σ) :
    (persistChat faults id g).1.display = g.display := by
  rcases persistChat_cases faults id g with ⟨e, heq⟩ | ⟨s, -, -, -, heq⟩
  · rw [heq]
  · rw [heq]
    rfl

theorem insertChat_display (faults : Faults) (s : ChatSession) (g : Guarded σ) :
    (insertChat faults s g).1.display = (g.put s).display := persistChat_display _ _ _

theorem setConversationNicknameLocked_display (faults : Faults) (id nickname : String)
    (g : Guarded σ) : (setConversationNicknameLocked faults id nickname g).1.display =
      match g.chats.get id with
      | none => g.display
      | some s => (g.put { s with nickname := nonEmpty nickname }).display := by
  unfold setConversationNicknameLocked
  cases g.chats.get id with
  | none => rfl
  | some s => exact persistChat_display _ _ _

/-- A conversation that starts is live, be it new or known. -/
theorem recordConversationStartedLocked_display (faults : Faults) (id : String)
    (kind : ConversationKind) (md : Option String × Option String) (g : Guarded σ) :
    (recordConversationStartedLocked faults id kind md g).display =
      if id ∈ g.deleted then g.display
      else match g.chats.get id with
        | some s => (g.put { s with historyOnly := false }).display
        | none => (g.put (openedSession id kind md.1 md.2 none)).display := by
  unfold recordConversationStartedLocked
  by_cases hdel : id ∈ g.deleted
  · simp [hdel]
  · simp only [hdel, if_false]
    cases hget : g.chats.get id with
    | none => exact persistChat_display _ _ _
    | some s =>
      cases hmark : s.historyOnly with
      | true => simp [hmark]
      | false =>
        -- it is live already, and stays what it is
        have hsame : ({ s with historyOnly := false } : ChatSession) = s := by
          rw [← hmark]
        simp only [hmark, Bool.false_eq_true, if_false]
        rw [hsame, Guarded.put_of_get hget]

variable [MessageStore σ]

/-- A message is shown in a chat that is there, over an open connection. -/
theorem recordMessage_display (hdb : g.display.chatDb.isSome) (faults : Faults)
    (m : StoredMessage) (chatChanged : Bool) :
    (recordMessage faults m chatChanged g).1.display =
      match g.chats.get m.chatId with
      | none => g.display
      | some s => (g.put (pushMessage s m)).display := by
  rcases recordMessage_cases faults m chatChanged g with
    ⟨hget, heq⟩ | ⟨hnone, -⟩ | ⟨s, hget, -, ⟨e, heq⟩ | heq⟩
  · rw [heq, hget]
  · simp [hnone] at hdb
  · rw [heq, hget]
  · rw [heq, hget]
    rfl

theorem recordMessageReceived_display (hdb : g.display.chatDb.isSome) (faults : Faults)
    (id : String) (content : List UInt8) (account installation : String) (t : UInt64) :
    (recordMessageReceived faults id content account installation t g).1.display =
      if id ∈ g.deleted then g.display
      else (g.put (pushMessage (receivingSession id account g)
        (receivedMessage id content account installation t))).display := by
  rcases recordMessageReceived_cases faults id content account installation t g with
    ⟨hdel, heq⟩ | ⟨hdel, r, rfl, heq⟩
  · rw [heq, if_pos hdel]
  · rw [heq, if_neg hdel, Guarded.display_emit, recordMessage_display (by exact hdb)]
    -- the session the message goes into has just been put
    have hput : (g.put (receivingSession id account g)).chats.get id =
        some (receivingSession id account g) := by
      rw [Guarded.chats_put]
      simpa using Keyed.get_insert_self g.chats (receivingSession id account g)
    rw [chatId_receivedMessage, hput]
    simp only
    rw [Guarded.put_put (chatId_pushMessage _ _)]

/-- A conversation is deleted, or nothing happens. -/
theorem deleteConversationLocked_display (faults : Faults) (id : String) (g : Guarded σ) :
    ((∃ e, (deleteConversationLocked faults id g).2 = .error e) ∧
      (deleteConversationLocked faults id g).1 = g) ∨
    ((deleteConversationLocked faults id g).2 = .ok () ∧ (g.chats.get id).isSome ∧
      (deleteConversationLocked faults id g).1.display = (g.forget id).display) := by
  rcases deleteConversationLocked_cases faults id g with ⟨e, heq⟩ | ⟨hmem, -, heq⟩
  · rw [heq]
    exact Or.inl ⟨⟨e, rfl⟩, rfl⟩
  · rw [heq]
    exact Or.inr ⟨rfl, hmem, rfl⟩

end Displayed

/-! ## The tombstones

Only a deletion adds one. -/

section Tombstones

theorem recordConversationStartedLocked_deleted (faults : Faults) (id : String)
    (kind : ConversationKind) (md : Option String × Option String) (g : Guarded σ) :
    (recordConversationStartedLocked faults id kind md g).deleted = g.deleted := by
  rw [Guarded.deleted, recordConversationStartedLocked_display]
  split
  · rfl
  · cases g.chats.get id <;> rfl

variable [MessageStore σ]

theorem recordMessage_deleted (faults : Faults) (m : StoredMessage) (chatChanged : Bool)
    (g : Guarded σ) : (recordMessage faults m chatChanged g).1.deleted = g.deleted := by
  rcases recordMessage_cases faults m chatChanged g with
    ⟨-, heq⟩ | ⟨-, heq⟩ | ⟨s, -, -, ⟨e, heq⟩ | heq⟩
  all_goals rw [heq]
  all_goals rfl

theorem recordMessageReceived_deleted (faults : Faults) (id : String) (content : List UInt8)
    (account installation : String) (t : UInt64) (g : Guarded σ) :
    (recordMessageReceived faults id content account installation t g).1.deleted = g.deleted := by
  rcases recordMessageReceived_cases faults id content account installation t g with
    ⟨-, heq⟩ | ⟨-, r, rfl, heq⟩
  · rw [heq]
  · rw [heq]
    exact recordMessage_deleted _ _ _ _

end Tombstones

/-! ## What is raised -/

section Raised

@[simp] theorem persistChat_raised (faults : Faults) (id : String) (g : Guarded σ) :
    (persistChat faults id g).1.raised = g.raised := by
  rcases persistChat_cases faults id g with ⟨e, heq⟩ | ⟨s, -, -, -, heq⟩
  · rw [heq]
  · rw [heq]
    rfl

theorem setInstallationName_raised (faults : Faults) (name : String) (g : Guarded σ) :
    (setInstallationName faults name g).1.raised = g.raised := by
  rcases setInstallationName_cases faults name g with ⟨e, heq⟩ | ⟨-, heq⟩
  · rw [heq]
  · rw [heq]
    rfl

theorem setConversationNicknameLocked_raised (faults : Faults) (id nickname : String)
    (g : Guarded σ) : (setConversationNicknameLocked faults id nickname g).1.raised = g.raised := by
  rcases setConversationNicknameLocked_cases faults id nickname g with ⟨-, heq⟩ | ⟨s, -, heq⟩
  · rw [heq]
  · rw [heq, persistChat_raised]
    rfl

/-- A conversation that starts is raised as created when it is new. -/
theorem recordConversationStartedLocked_raised (faults : Faults) (id : String)
    (kind : ConversationKind) (md : Option String × Option String) (g : Guarded σ) :
    (recordConversationStartedLocked faults id kind md g).raised = g.raised ++
      if id ∈ g.deleted then []
      else match g.chats.get id with
        | some s => if s.historyOnly then [.conversationUpdated id] else []
        | none => [.conversationCreated id false (shortLabel id) kind.asStr (md.1.getD "")
            (md.2.getD "")] := by
  unfold recordConversationStartedLocked
  by_cases hdel : id ∈ g.deleted
  · simp [hdel]
  · simp only [hdel, if_false]
    cases hget : g.chats.get id with
    | none => simp
    | some s => cases hmark : s.historyOnly <;> simp [hmark]

variable [MessageStore σ]

@[simp] theorem recordMessage_raised (faults : Faults) (m : StoredMessage) (chatChanged : Bool)
    (g : Guarded σ) : (recordMessage faults m chatChanged g).1.raised = g.raised := by
  rcases recordMessage_cases faults m chatChanged g with
    ⟨-, heq⟩ | ⟨-, heq⟩ | ⟨s, -, -, ⟨e, heq⟩ | heq⟩
  · rw [heq]
  · rw [heq]
  · rw [heq]
    rfl
  · rw [heq]
    rfl

theorem recordMessageReceived_raised (faults : Faults) (id : String) (content : List UInt8)
    (account installation : String) (t : UInt64) (g : Guarded σ) :
    (recordMessageReceived faults id content account installation t g).1.raised = g.raised ++
      if id ∈ g.deleted then []
      else [.messageReceived id (Utf8.fromUtf8Lossy content) t.toInt64 account] := by
  rcases recordMessageReceived_cases faults id content account installation t g with
    ⟨hdel, heq⟩ | ⟨hdel, r, rfl, heq⟩
  · rw [heq]
    simp [hdel]
  · rw [heq]
    simp [hdel]

theorem deleteConversationLocked_raised (faults : Faults) (id : String) (g : Guarded σ) :
    (deleteConversationLocked faults id g).1.raised = g.raised := by
  rcases deleteConversationLocked_cases faults id g with ⟨e, heq⟩ | ⟨-, -, heq⟩
  · rw [heq]
  · rw [heq]
    rfl

end Raised

/-! ## The connection

No section opens or closes the connection to the file. -/

section Connection

theorem setInstallationName_chatDb (faults : Faults) (name : String) (g : Guarded σ) :
    (setInstallationName faults name g).1.display.chatDb = g.display.chatDb := by
  rcases setInstallationName_cases faults name g with ⟨e, heq⟩ | ⟨-, heq⟩
  · rw [heq]
  · rw [heq]
    rfl

theorem setConversationNicknameLocked_chatDb (faults : Faults) (id nickname : String)
    (g : Guarded σ) :
    (setConversationNicknameLocked faults id nickname g).1.display.chatDb = g.display.chatDb := by
  rw [setConversationNicknameLocked_display]
  cases g.chats.get id <;> rfl

theorem recordConversationStartedLocked_chatDb (faults : Faults) (id : String)
    (kind : ConversationKind) (md : Option String × Option String) (g : Guarded σ) :
    (recordConversationStartedLocked faults id kind md g).display.chatDb = g.display.chatDb := by
  rw [recordConversationStartedLocked_display]
  split
  · rfl
  · cases g.chats.get id <;> rfl

theorem recordMembersChanged_display (id : String) (g : Guarded σ) :
    (recordMembersChanged id g).display = g.display := by
  unfold recordMembersChanged
  split <;> rfl

variable [MessageStore σ]

theorem recordMessage_chatDb (faults : Faults) (m : StoredMessage) (chatChanged : Bool)
    (g : Guarded σ) :
    (recordMessage faults m chatChanged g).1.display.chatDb = g.display.chatDb := by
  rcases recordMessage_cases faults m chatChanged g with
    ⟨-, heq⟩ | ⟨-, heq⟩ | ⟨s, -, -, ⟨e, heq⟩ | heq⟩
  all_goals rw [heq]
  all_goals rfl

theorem recordMessageReceived_chatDb (faults : Faults) (id : String) (content : List UInt8)
    (account installation : String) (t : UInt64) (g : Guarded σ) :
    (recordMessageReceived faults id content account installation t g).1.display.chatDb =
      g.display.chatDb := by
  rcases recordMessageReceived_cases faults id content account installation t g with
    ⟨-, heq⟩ | ⟨-, r, rfl, heq⟩
  · rw [heq]
  · rw [heq]
    exact recordMessage_chatDb _ _ _ _

theorem deleteConversationLocked_chatDb (faults : Faults) (id : String) (g : Guarded σ) :
    (deleteConversationLocked faults id g).1.display.chatDb = g.display.chatDb := by
  rcases deleteConversationLocked_cases faults id g with ⟨e, heq⟩ | ⟨-, -, heq⟩
  all_goals rw [heq]
  rfl

end Connection

/-! ## The frame -/

section Frame

variable [MessageStore σ]

/-- `g'` shows and stores of the conversation `id` what `g` does. -/
structure SameAt (id : String) (g g' : Guarded σ) : Prop where
  chat : g'.chats.get id = g.chats.get id
  deleted : id ∈ g'.deleted ↔ id ∈ g.deleted
  row : g'.file.row id = g.file.row id
  history : g'.file.history id = g.file.history id
  tombstone : id ∈ g'.file.deletedChats ↔ id ∈ g.file.deletedChats

namespace SameAt

theorem refl (g : Guarded σ) : SameAt id g g := ⟨rfl, Iff.rfl, rfl, rfl, Iff.rfl⟩

theorem trans {g'' : Guarded σ} (h : SameAt id g g') (h' : SameAt id g' g'') : SameAt id g g'' where
  chat := h'.chat.trans h.chat
  deleted := h'.deleted.trans h.deleted
  row := h'.row.trans h.row
  history := h'.history.trans h.history
  tombstone := h'.tombstone.trans h.tombstone

theorem put {s : ChatSession} (h : id ≠ s.chatId) (g : Guarded σ) : SameAt id g (g.put s) :=
  ⟨Keyed.get_insert_of_ne _ h, Iff.rfl, rfl, rfl, Iff.rfl⟩

theorem emit {e : PluginEvent} (h : SameAt id g g') : SameAt id g (g'.emit e) :=
  ⟨h.chat, h.deleted, h.row, h.history, h.tombstone⟩

/-- Setting what belongs to no conversation. -/
theorem rename {n : Option String} (g : Guarded σ) :
    SameAt id g (writeFile (g.rename n) (g.file.withName n)) :=
  ⟨rfl, Iff.rfl, by simp, by simp, by simp⟩

theorem putRow {s : ChatSession} (h : id ≠ s.chatId) (g : Guarded σ) :
    SameAt id g (writeFile (g.put s) (g.file.withRow s)) :=
  ⟨Keyed.get_insert_of_ne _ h, Iff.rfl, by simp [ChatDb.row_withRow, h], by simp, by simp⟩

variable [LawfulMessageStore σ]

theorem putMessage {s : ChatSession} {session : Option ChatSession} {m : StoredMessage}
    (h : id ≠ s.chatId) (hs : ∀ s' ∈ session, id ≠ s'.chatId) (hm : id ≠ m.chatId)
    (g : Guarded σ) : SameAt id g (writeFile (g.put s) (recorded g.file session m)) := by
  refine ⟨Keyed.get_insert_of_ne _ h, Iff.rfl, ?_, ?_, ?_⟩
  · cases session with
    | none => rfl
    | some s' => simp [recorded, ChatDb.row_withRow, hs s' rfl]
  · cases session with
    | none => simp [recorded, ChatDb.history_withMessage, hm]
    | some s' => simp [recorded, ChatDb.history_withMessage, hm]
  · cases session <;> simp [recorded]

theorem forget (h : id ≠ c) (g : Guarded σ) :
    SameAt id g (writeFile (g.forget c) (g.file.withoutChat c)) := by
  refine ⟨?_, ?_, ?_, ?_, ?_⟩
  · rw [chats_writeFile, Guarded.chats_forget, Keyed.get_remove, if_neg h]
  · simp [h]
  · simp [ChatDb.row_withoutChat, h]
  · simp [ChatDb.history_withoutChat, h]
  · simp [h]

end SameAt

theorem persistChat_put_sameAt {s : ChatSession} (h : id ≠ s.chatId) (faults : Faults)
    (g : Guarded σ) : SameAt id g (persistChat faults s.chatId (g.put s)).1 := by
  rcases persistChat_put_cases faults s g with ⟨e, -, heq⟩ | ⟨-, -, heq⟩
  · rw [heq]
    exact .put h g
  · rw [heq]
    exact .putRow h g

theorem setInstallationName_sameAt (faults : Faults) (name : String) (g : Guarded σ) :
    SameAt id g (setInstallationName faults name g).1 := by
  rcases setInstallationName_cases faults name g with ⟨e, heq⟩ | ⟨-, heq⟩
  · rw [heq]
    exact .refl g
  · rw [heq]
    exact .rename g

theorem setConversationNicknameLocked_sameAt (h : id ≠ c) (faults : Faults) (nickname : String)
    (g : Guarded σ) : SameAt id g (setConversationNicknameLocked faults c nickname g).1 := by
  rcases setConversationNicknameLocked_cases faults c nickname g with ⟨-, heq⟩ | ⟨s, hget, heq⟩
  · rw [heq]
    exact .refl g
  · obtain rfl := Keyed.key_of_get hget
    rw [heq]
    exact persistChat_put_sameAt (s := { s with nickname := nonEmpty nickname }) h faults g

theorem recordConversationStartedLocked_sameAt (h : id ≠ c) (faults : Faults)
    (kind : ConversationKind) (md : Option String × Option String) (g : Guarded σ) :
    SameAt id g (recordConversationStartedLocked faults c kind md g) := by
  rcases recordConversationStartedLocked_cases faults c kind md g with
    heq | ⟨s, e, hget, heq⟩ | ⟨-, e, heq⟩
  · rw [heq]
    exact .refl g
  · obtain rfl := Keyed.key_of_get hget
    rw [heq]
    exact (SameAt.put (s := { s with historyOnly := false }) h g).emit
  · rw [heq]
    exact (SameAt.refl g).emit.trans
      (persistChat_put_sameAt (s := openedSession c kind md.1 md.2 none) h faults _)

/-- A roster change stores nothing. -/
theorem recordMembersChanged_sameAt (g : Guarded σ) :
    SameAt id g (recordMembersChanged c g) := by
  unfold recordMembersChanged
  split
  · exact .refl g
  · exact (SameAt.refl g).emit

variable [LawfulMessageStore σ]

theorem recordMessage_sameAt {m : StoredMessage} (h : id ≠ m.chatId) (faults : Faults)
    (chatChanged : Bool) (g : Guarded σ) :
    SameAt id g (recordMessage faults m chatChanged g).1 := by
  rcases recordMessage_cases faults m chatChanged g with
    ⟨-, heq⟩ | ⟨-, heq⟩ | ⟨s, hget, -, ⟨e, heq⟩ | heq⟩
  · rw [heq]
    exact .refl g
  · rw [heq]
    exact .refl g
  · have hs : id ≠ s.chatId := by rwa [Keyed.key_of_get hget]
    rw [heq]
    exact .put (s := pushMessage s m) hs g
  · have hs : id ≠ s.chatId := by rwa [Keyed.key_of_get hget]
    rw [heq]
    refine .putMessage (s := pushMessage s m) hs ?_ h g
    intro s' hs'
    cases chatChanged with
    | false => simp at hs'
    | true =>
      obtain rfl : s = s' := by simpa using hs'
      exact hs

theorem recordMessageReceived_sameAt (h : id ≠ c) (faults : Faults) (content : List UInt8)
    (account installation : String) (t : UInt64) (g : Guarded σ) :
    SameAt id g (recordMessageReceived faults c content account installation t g).1 := by
  rcases recordMessageReceived_cases faults c content account installation t g with
    ⟨-, heq⟩ | ⟨-, r, rfl, heq⟩
  · rw [heq]
    exact .refl g
  · rw [heq]
    have hput : SameAt id g (g.put (receivingSession c account g)) :=
      .put (by rwa [chatId_receivingSession]) g
    exact (hput.trans (recordMessage_sameAt h faults _ _)).emit

theorem deleteConversationLocked_sameAt (h : id ≠ c) (faults : Faults) (g : Guarded σ) :
    SameAt id g (deleteConversationLocked faults c g).1 := by
  rcases deleteConversationLocked_cases faults c g with ⟨e, heq⟩ | ⟨-, -, heq⟩
  · rw [heq]
    exact .refl g
  · rw [heq]
    exact .forget h g

end Frame

end ChatModule.Actions
