import ChatModule.Restart

/-!
# Durability

Any `chat.db` write may fail. A message row is read back at init when the row of its
chat is there (`Stored`), and nothing but a delete of its conversation takes either
away (`stored_step`). Whether a recording writes the chat's row is decided from the
map, though, which a create, a started conversation and a first inbound message
change even when their own write fails: a message recorded into such a chat is in
the file and never read back. `counted_iff` says exactly which recordings survive.
-/

namespace ChatModule

open Actions Persistence

variable {σ : Type} [MessageStore σ]

/-! ## What stays in the file -/

/-- `m` is the `p`-th message of its chat's history, and the chat's row is there. -/
structure Stored (m : StoredMessage) (p : ℕ) (db : ChatDb σ) : Prop where
  row : (db.row m.chatId).isSome
  message : (db.history m.chatId)[p]? = some m

section Stored

variable {m m' : StoredMessage} {p : ℕ} {db : ChatDb σ} {g : Guarded σ} {faults : Faults}

theorem Stored.withRow (h : Stored m p db) (s : ChatSession) : Stored m p (db.withRow s) := by
  refine ⟨?_, by simpa using h.message⟩
  rw [ChatDb.row_withRow]
  split
  · rfl
  · exact h.row

theorem Stored.withName (h : Stored m p db) (n : Option String) : Stored m p (db.withName n) := by
  refine ⟨?_, by simpa using h.message⟩
  rw [ChatDb.row_withName]
  exact h.row

theorem Stored.persistChat (h : Stored m p g.file) (id : String) :
    Stored m p (persistChat faults id g).1.file := by
  rcases persistChat_cases faults id g with ⟨e, heq⟩ | ⟨s, -, -, -, heq⟩
  · rw [heq]
    exact h
  · rw [heq]
    exact h.withRow s

variable [LawfulMessageStore σ]

theorem Stored.withMessage (h : Stored m p db) (m' : StoredMessage) :
    Stored m p (db.withMessage m') := by
  refine ⟨h.row, ?_⟩
  obtain ⟨hlt, -⟩ := List.getElem?_eq_some_iff.mp h.message
  rw [ChatDb.history_withMessage]
  split
  · rw [List.getElem?_append_left hlt]
    exact h.message
  · exact h.message

theorem Stored.recorded (h : Stored m p db) (session : Option ChatSession) (m' : StoredMessage) :
    Stored m p (recorded db session m') := by
  cases session with
  | none => exact h.withMessage m'
  | some s => exact (h.withRow s).withMessage m'

theorem Stored.withoutChat {c : String} (h : Stored m p db) (hc : m.chatId ≠ c) :
    Stored m p (db.withoutChat c) := by
  constructor
  · rw [ChatDb.row_withoutChat, if_neg hc]
    exact h.row
  · rw [ChatDb.history_withoutChat, if_neg hc]
    exact h.message

theorem Stored.recordMessage (h : Stored m p g.file) (m' : StoredMessage) (chatChanged : Bool) :
    Stored m p (Actions.recordMessage faults m' chatChanged g).1.file := by
  rcases recordMessage_cases faults m' chatChanged g with
    ⟨-, heq⟩ | ⟨-, heq⟩ | ⟨s, -, -, ⟨e, heq⟩ | heq⟩
  · rw [heq]
    exact h
  · rw [heq]
    exact h
  · rw [heq]
    exact h
  · rw [heq]
    exact h.recorded _ m'

end Stored

/-! ## What a step does to it -/

section Steps

variable {w w' : World σ} {op : Op} {m : StoredMessage} {p : ℕ}

/-- A `delete_conversation` that returns Ok. -/
def Deletes (id : String) (w : World σ) (op : Op) : Prop :=
  ∃ faults, op = .deleteConversation faults id ∧ (deleteConversation faults id w).2 = .ok ()

/-- An init leaves the file alone. -/
theorem init_file (config : ChatConfig) (env : Environment) (w : World σ) :
    (init config env w).world.guarded.file = w.guarded.file := by
  rcases init_cases config env w with ⟨-, g, ms, hinit, heq⟩ | ⟨-, heq⟩ | ⟨-, e, -, heq⟩
  · obtain ⟨live, state, -, -, rfl⟩ := initializeModule_ok_iff.mp hinit
    rw [heq]
  · rw [heq]
    simp only [claimDeliveryRetry, setDeliveryState]
    split
    · rfl
    · split <;> rfl
  · rw [heq]

theorem Stored.create (h : Stored m p w.guarded.file) (session : String → ChatSession)
    (created : String → PluginEvent) (faults : Faults) (answer : Except ClientError String) :
    Stored m p (create session created faults answer w).1.guarded.file := by
  rcases create_cases session created faults answer w with ⟨e, heq⟩ | ⟨id, -, -, heq⟩
  · rw [heq]
    exact h
  · rw [heq, finish_file]
    exact Stored.persistChat (g := w.guarded.put _) h _

theorem finish_deleteLocked_ok {faults : Faults} {id : String}
    (h : (deleteConversationLocked faults id w.guarded).2 = .ok ()) :
    Deletes id w (.deleteConversation faults id) := by
  refine ⟨faults, rfl, ?_⟩
  unfold deleteConversation finish underDisplay
  simp only [h]

variable [LawfulMessageStore σ]

/-- Only a delete of its conversation takes a stored message away. -/
theorem stored_step (hdel : ¬ Deletes m.chatId w op) (hstep : (sequential σ).step w op = some w')
    (h : Stored m p w.guarded.file) : Stored m p w'.guarded.file := by
  obtain rfl := step_eq_run hstep
  cases op with
  | init config env =>
    simp only [Op.run, init_file]
    exact h
  | shutdown =>
    simp only [Op.run, shutdown_file]
    exact h
  | setInstallationName faults name =>
    simp only [Op.run, underDisplay]
    rcases setInstallationName_cases faults name w.guarded with ⟨e, heq⟩ | ⟨-, heq⟩
    · rw [heq]
      exact h
    · rw [heq]
      exact h.withName _
  | createConversation faults answer peerAddress => exact h.create _ _ _ _
  | createGroupConversation faults answer name desc => exact h.create _ _ _ _
  | addGroupMember answer convoId =>
    simp only [Op.run, (addGroupMember_same answer convoId w).2.1]
    exact h
  | setConversationNickname faults convoId nickname =>
    simp only [Op.run, setConversationNickname, finish_file, underDisplay]
    rcases setConversationNicknameLocked_cases faults convoId nickname w.guarded with
      ⟨-, heq⟩ | ⟨s, -, heq⟩
    · rw [heq]
      exact h
    · rw [heq]
      exact Stored.persistChat (g := w.guarded.put _) h convoId
  | deleteConversation faults convoId =>
    simp only [Op.run, deleteConversation, finish_file, underDisplay]
    rcases deleteConversationLocked_cases faults convoId w.guarded with ⟨e, heq⟩ | ⟨-, -, heq⟩
    · rw [heq]
      exact h
    · rw [heq]
      refine h.withoutChat ?_
      rintro rfl
      exact hdel (finish_deleteLocked_ok (by rw [heq]))
  | sendMessage faults answer convoId content nowMs =>
    rcases sendMessage_cases faults answer convoId content nowMs w with ⟨e, heq⟩ | ⟨-, -, heq⟩
    · simp only [Op.run, heq]
      exact h
    · simp only [Op.run, heq, finish_file]
      exact h.recordMessage _ _
  | conversationStarted faults convoId kind answer =>
    simp only [Op.run, recordConversationStarted]
    rcases recordConversationStartedLocked_cases faults convoId kind
      (startedMetadata kind (withClient w answer)) w.guarded with heq | ⟨s, e, -, heq⟩ | ⟨-, e, heq⟩
    · rw [heq]
      exact h
    · rw [heq]
      exact h
    · rw [heq]
      exact Stored.persistChat (g := (w.guarded.emit e).put _) h convoId
  | messageReceived faults convoId content account installation nowMs =>
    -- whatever the row says afterwards, it is there
    simp only [Op.run, underDisplay]
    rcases recordMessageReceived_cases faults convoId content account installation nowMs w.guarded
      with ⟨-, heq⟩ | ⟨-, r, rfl, heq⟩
    · rw [heq]
      exact h
    · rw [heq]
      exact Stored.recordMessage (g := w.guarded.put _) h _ _
  | membersChanged convoId =>
    simp only [Op.run, recordMembersChanged]
    split <;> exact h

theorem stored_run {ops : List Op} (hrun : (sequential σ).Run
    (fun w op => ¬ Deletes m.chatId w op) w ops w') (h : Stored m p w.guarded.file) :
    Stored m p w'.guarded.file :=
  hrun.invariant (I := fun w => Stored m p w.guarded.file)
    (fun _ _ _ hdel hstep hs => stored_step hdel hstep hs) h

end Steps

/-! ## What a restart counts -/

section Counted

variable {m : StoredMessage} {p : ℕ} {g g' : Guarded σ} {client : Client} {live : List String}

/-- `m` is listed with its conversation, counted as its `p`-th message, and shown
while it is among the newest `loadedPerChat`. -/
def Counted (m : StoredMessage) (p : ℕ) (g : Guarded σ) : Prop :=
  ∃ c ∈ listConversations g, c.convoId = m.chatId ∧
    c.messageCount = (g.file.history m.chatId).length ∧ (g.file.history m.chatId)[p]? = some m ∧
    (c.messageCount ≤ p + loadedPerChat →
      (getMessages g m.chatId)[p - ((g.file.history m.chatId).length - loadedPerChat)]? =
        some (reported m))

/-- An init counts what is stored. -/
theorem seeded_counted_iff (hs : Seeded g client live g') :
    Counted m p g' ↔ Stored m p g.file := by
  constructor
  · rintro ⟨c, hc, hid, -, hmsg, -⟩
    obtain ⟨s, hget, -⟩ := mem_listConversations.mp hc
    rw [hid, hs.chats] at hget
    obtain ⟨row, hrow, -⟩ := Option.map_eq_some_iff.mp hget
    rw [hs.file] at hmsg
    exact ⟨by simp [hrow], hmsg⟩
  · rintro ⟨hrow, hmsg⟩
    obtain ⟨row, hrow⟩ := Option.isSome_iff_exists.mp hrow
    have hget := hs.chats m.chatId
    rw [hrow, Option.map_some] at hget
    have hcount : (conversation { loadedSession g.file m.chatId row with
        historyOnly := !live.contains m.chatId }).messageCount =
          (g'.file.history m.chatId).length := by
      rw [hs.file]
      simp only [conversation, loadedSession, List.length_map, List.length_rtake]
      omega
    refine ⟨conversation _, ?_, rfl, hcount, ?_, ?_⟩
    · exact mem_listConversations.mpr ⟨_, hget, rfl⟩
    · rw [hs.file]
      exact hmsg
    · intro hwindow
      rw [hcount, hs.file] at hwindow
      unfold getMessages
      rw [hget, hs.file]
      simp only [loadedSession, List.map_map, List.getElem?_map]
      rw [List.getElem?_rtake (by exact_mod_cast hwindow), hmsg]
      rfl

end Counted

/-! ## Which recordings survive -/

section Recording

variable {w w₁ u : World σ} {op : Op} {ops : List Op} {m : StoredMessage}

/-- A send that returns Ok, or an inbound message whose write succeeds. -/
def Records (m : StoredMessage) (w : World σ) : Op → Prop
  | .sendMessage faults answer convoId content nowMs =>
    (sendMessage faults answer convoId content nowMs w).2 = .ok () ∧
      m = chatMessage convoId .sent nowMs (Utf8.asBytes content)
  | .messageReceived faults convoId content account installation nowMs =>
    (recordMessageReceived faults convoId content account installation nowMs w.guarded).2 =
        some (.ok ()) ∧
      m = receivedMessage convoId content account installation nowMs
  | _ => False

/-- The row of the chat a message goes to is in the file, or goes there with it. -/
def RowKept (w : World σ) : Op → Prop
  | .sendMessage _ _ convoId _ _ => (w.guarded.file.row convoId).isSome
  | .messageReceived _ convoId .. =>
    (w.guarded.file.row convoId).isSome ∨ receivingChangesChat convoId w.guarded = true
  | _ => True

/-- A recording that succeeds in a chat that is there writes the message. -/
theorem recordMessage_ok_file {faults : Faults} {chatChanged : Bool} {g : Guarded σ}
    {s : ChatSession} (hok : (Actions.recordMessage faults m chatChanged g).2 = .ok ())
    (hget : g.chats.get m.chatId = some s) :
    (Actions.recordMessage faults m chatChanged g).1.file =
      recorded g.file (if chatChanged then some s else none) m := by
  rcases recordMessage_cases faults m chatChanged g with
    ⟨hnone, -⟩ | ⟨-, heq⟩ | ⟨s', hget', -, ⟨e, heq⟩ | heq⟩
  · simp [hnone] at hget
  · rw [heq] at hok
    cases hok
  · rw [heq] at hok
    cases hok
  · obtain rfl : s' = s := by simpa [hget'] using hget
    rw [heq]
    rfl

/-- A recording that succeeds writes the message, and the row when it decides to. -/
theorem records_file (hrec : Records m w op) (hstep : (sequential σ).step w op = some w₁) :
    ∃ session, w₁.guarded.file = recorded w.guarded.file session m ∧
      (∀ s ∈ session, s.chatId = m.chatId) ∧
      (RowKept w op ↔ (w.guarded.file.row m.chatId).isSome ∨ session.isSome) := by
  obtain rfl := step_eq_run hstep
  cases op with
  | sendMessage faults answer convoId content nowMs =>
    obtain ⟨hok, rfl⟩ := hrec
    rcases sendMessage_cases faults answer convoId content nowMs w with ⟨e, heq⟩ | ⟨hlive, -, heq⟩
    · rw [heq] at hok
      cases hok
    · -- a send never writes the row
      obtain ⟨s, hget, -⟩ := checkLive_ok_iff.mp hlive
      refine ⟨none, ?_, by simp, by simp [RowKept]⟩
      rw [heq] at hok
      simp only [Op.run, heq, finish_file, underDisplay]
      exact recordMessage_ok_file (finish_ok hok) hget
  | messageReceived faults convoId content account installation nowMs =>
    obtain ⟨hok, rfl⟩ := hrec
    rcases recordMessageReceived_cases faults convoId content account installation nowMs w.guarded
      with ⟨-, heq⟩ | ⟨-, r, rfl, heq⟩
    · rw [heq] at hok
      cases hok
    · rw [heq, Option.some.injEq] at hok
      refine ⟨if receivingChangesChat convoId w.guarded then
        some (receivingSession convoId account w.guarded) else none, ?_, ?_, ?_⟩
      · simp only [Op.run, underDisplay, heq]
        exact recordMessage_ok_file hok (by simp [Keyed.get_insert])
      · intro s hs
        split at hs
        · obtain rfl : receivingSession convoId account w.guarded = s := by simpa using hs
          simp
        · simp at hs
      · cases hc : receivingChangesChat convoId w.guarded <;> simp [RowKept, hc]
  | _ => exact hrec.elim

variable [LawfulMessageStore σ]

/-- A message just recorded is stored exactly when its chat's row is. -/
theorem recorded_stored_iff {db : ChatDb σ} {session : Option ChatSession}
    (hid : ∀ s ∈ session, s.chatId = m.chatId) :
    Stored m (db.history m.chatId).length (recorded db session m) ↔
      (db.row m.chatId).isSome ∨ session.isSome := by
  have hmsg : ((recorded db session m).history m.chatId)[(db.history m.chatId).length]? =
      some m := by
    cases session <;> simp [recorded, ChatDb.history_withMessage]
  constructor
  · rintro ⟨hrow, -⟩
    cases session with
    | none => exact Or.inl hrow
    | some s => exact Or.inr rfl
  · intro h
    refine ⟨?_, hmsg⟩
    cases session with
    | none => simpa [recorded] using h
    | some s => simp [recorded, ChatDb.row_withRow, hid s rfl]

/-- Durability: what a recording wrote is counted after every later restart, as long
as its conversation is not deleted, exactly when the row of its chat was in the file
or was written with it. -/
theorem counted_iff (hrec : Records m w op) (hstep : (sequential σ).step w op = some w₁) :
    (∀ (ops : List Op) (u : World σ) (config : ChatConfig) (env : Environment) (client : Client)
      (live : List String),
      (sequential σ).Run (fun w op => ¬ Deletes m.chatId w op) w₁ ops u → env.Up client live →
        Counted m (w.guarded.file.history m.chatId).length
          (init config env (shutdown u)).world.guarded) ↔
      RowKept w op := by
  obtain ⟨session, hfile, hid, hkept⟩ := records_file hrec hstep
  have hstored : Stored m (w.guarded.file.history m.chatId).length w₁.guarded.file ↔
      RowKept w op := by
    rw [hfile, hkept]
    exact recorded_stored_iff hid
  have hrestart : ∀ (u : World σ) (config : ChatConfig) {env : Environment} {client : Client}
      {live : List String}, env.Up client live →
      (Counted m (w.guarded.file.history m.chatId).length
          (init config env (shutdown u)).world.guarded ↔
        Stored m (w.guarded.file.history m.chatId).length u.guarded.file) := by
    intro u config env client live hup
    obtain ⟨g, hseeded, heq⟩ := init_up config hup (shutdown_module u)
    rw [heq, ← shutdown_file u]
    exact seeded_counted_iff hseeded
  constructor
  · -- the restart that follows at once is enough
    intro h
    exact hstored.mp ((hrestart w₁ ⟨none⟩ (Environment.up_up ⟨"", ""⟩ [])).mp
      (h [] w₁ ⟨none⟩ _ _ _ (.nil w₁) (Environment.up_up _ _)))
  · intro hrow ops u config env client live hrun hup
    exact (hrestart u config hup).mpr (stored_run hrun (hstored.mpr hrow))

end Recording

section Runs

/-- The send of `exchange`, and its message. -/
def sendHello : Op := .sendMessage noFaults (.ok ()) "c1" "hello" 1

def hello : StoredMessage := chatMessage "c1" .sent 1 (Utf8.asBytes "hello")

/-- The process as `exchange` sends its message. -/
def beforeHello : World LogStore :=
  (exchange.take 2).foldl (fun w op => op.run w) (World.start emptyDb none)

theorem counted_iff_hello : Counted hello 0
    (init ⟨none⟩ (.up ⟨"name", "addr"⟩ []) (shutdown exchanged)).world.guarded := by
  have hrec : Records hello beforeHello sendHello := ⟨by decide, rfl⟩
  have hrow : RowKept beforeHello sendHello := by
    change (beforeHello.guarded.file.row "c1").isSome = true
    decide
  refine (counted_iff hrec rfl).mpr hrow (exchange.drop 3) exchanged _ _ _ _ ?_
    (Environment.up_up _ _)
  refine .cons ?_ rfl (.nil _)
  rintro ⟨faults, h, -⟩
  cases h

/-- A session in which a conversation is created and its row cannot be written. -/
def unsaved : List Op := [
  .init ⟨none⟩ (.up ⟨"name", "addr"⟩ []),
  .createConversation saveChatFails (.ok "c1") "peer"]

/-- What is sent in a conversation whose row was not written is recorded, and gone
after a restart with its conversation. -/
theorem unsaved_message_lost : ∃ w w₁ : World LogStore,
    (sequential LogStore).Run (fun _ _ => True) (World.start emptyDb none) unsaved w ∧
      (sequential LogStore).step w sendHello = some w₁ ∧ Records hello w sendHello ∧
      listConversations (init ⟨none⟩ (.up ⟨"name", "addr"⟩ []) (shutdown w₁)).world.guarded = 0 ∧
      ∀ p, ¬ Counted hello p
        (init ⟨none⟩ (.up ⟨"name", "addr"⟩ []) (shutdown w₁)).world.guarded := by
  have hlost : listConversations (init ⟨none⟩ (.up ⟨"name", "addr"⟩ []) (shutdown (sendHello.run
      (unsaved.foldl (fun w op => op.run w) (World.start (emptyDb : ChatDb LogStore) none))))
        ).world.guarded = 0 := by decide
  refine ⟨_, _, .cons trivial rfl (.cons trivial rfl (.nil _)), rfl, ⟨by decide, rfl⟩, hlost, ?_⟩
  rintro p ⟨c, hc, -⟩
  have hc' : c ∈ (0 : Multiset Conversation) := hlost ▸ hc
  simp at hc'

end Runs

end ChatModule
