import ChatModule.Deletion
import ChatModule.History

/-!
# Between libchat's create and its recording

A create has two sections: libchat opens the conversation under the module lock, and the
session is put in the map under the display lock, in place of whatever is under the id. In
between other threads may know the id already: the consumer records what arrives in it, a
caller may label it or delete it.

`creates_keep_records` is what holds when every create finds nothing there worth keeping
(`Spared`): what was recorded stays, labels stay, and no conversation is both listed and
tombstoned. `create_discards_message` is what happens otherwise.
-/

namespace ChatModule

open Actions Persistence

variable {σ : Type} [MessageStore σ]

/-! ## The condition -/

/-- A create finds its id neither tombstoned nor in use: at the most there is an empty
session without a label under it. -/
def Spared (s : Threads σ) : Move → Prop
  | .proceed i _ _ _ => ∀ session event, s.calls[i]? = some (.created session event) →
    session.chatId ∉ s.guarded.deleted ∧
      ∀ c, s.guarded.chats.get session.chatId = some c →
        c.messages = [] ∧ c.olderMessages = 0 ∧ c.nickname = none
  | _ => True

/-! ## Listed and tombstoned -/

/-- A conversation is not both listed and tombstoned, in memory or in the file, and the
tombstones of an open file are those in memory. -/
structure Unmixed (id : String) (g : Guarded σ) : Prop where
  listed : (g.chats.get id).isSome → id ∉ g.deleted
  rows : (g.file.row id).isSome → id ∉ g.file.deletedChats
  tombstones : g.display.chatDb.isSome → id ∈ g.file.deletedChats → id ∈ g.deleted

section Unmixed

variable {g g' : Guarded σ} {id : String}

theorem Unmixed.of_sameAt (h : Unmixed id g) (hs : SameAt id g g')
    (hdb : g'.display.chatDb = g.display.chatDb) : Unmixed id g' := by
  refine ⟨?_, ?_, ?_⟩
  · rw [hs.chat, hs.deleted]
    exact h.listed
  · rw [hs.row, hs.tombstone]
    exact h.rows
  · rw [hdb, hs.tombstone, hs.deleted]
    exact h.tombstones

omit [MessageStore σ] in
/-- What is written of a conversation that is not tombstoned, over an open connection. -/
theorem Unmixed.of_undeleted (h : Unmixed id g) (hnot : id ∉ g.deleted)
    (hdel : g'.deleted = g.deleted) (hdb : g'.display.chatDb = g.display.chatDb)
    (htomb : g'.file.deletedChats = g.file.deletedChats)
    (hclosed : g.display.chatDb = none → g'.file = g.file) : Unmixed id g' := by
  refine ⟨?_, ?_, ?_⟩
  · intro _
    rw [hdel]
    exact hnot
  · intro hsome
    rw [htomb]
    cases hopen : g.display.chatDb with
    | none =>
      rw [hclosed hopen] at hsome
      exact h.rows hsome
    | some conn =>
      intro hin
      exact hnot (h.tombstones (by rw [hopen]; rfl) hin)
  · rw [hdb, htomb, hdel]
    exact h.tombstones

omit [MessageStore σ] in
theorem persistChat_tombstones (faults : Faults) (id : String) (g : Guarded σ) :
    (persistChat faults id g).1.file.deletedChats = g.file.deletedChats := by
  rcases persistChat_cases faults id g with ⟨e, heq⟩ | ⟨s, -, -, -, heq⟩
  · rw [heq]
  · rw [heq]
    rfl

theorem recordMessage_tombstones (faults : Faults) (m : StoredMessage) (chatChanged : Bool)
    (g : Guarded σ) :
    (Actions.recordMessage faults m chatChanged g).1.file.deletedChats = g.file.deletedChats := by
  rcases recordMessage_cases faults m chatChanged g with
    ⟨-, heq⟩ | ⟨-, heq⟩ | ⟨s, -, -, ⟨e, heq⟩ | heq⟩
  · rw [heq]
  · rw [heq]
  · rw [heq]
    rfl
  · rw [heq]
    cases chatChanged <;> rfl

theorem recordMessageReceived_tombstones (faults : Faults) (id : String) (content : List UInt8)
    (account installation : String) (t : UInt64) (g : Guarded σ) :
    (recordMessageReceived faults id content account installation t g).1.file.deletedChats =
      g.file.deletedChats := by
  rcases recordMessageReceived_cases faults id content account installation t g with
    ⟨-, heq⟩ | ⟨-, r, rfl, heq⟩
  · rw [heq]
  · rw [heq]
    exact recordMessage_tombstones _ _ _ _

omit [MessageStore σ] in
theorem recordConversationStartedLocked_tombstones (faults : Faults) (id : String)
    (kind : ConversationKind) (md : Option String × Option String) (g : Guarded σ) :
    (recordConversationStartedLocked faults id kind md g).file.deletedChats =
      g.file.deletedChats := by
  rcases recordConversationStartedLocked_cases faults id kind md g with
    heq | ⟨s, e, -, heq⟩ | ⟨-, e, heq⟩
  · rw [heq]
  · rw [heq]
    rfl
  · rw [heq, persistChat_tombstones]
    rfl

variable [LawfulMessageStore σ] {s : Threads σ}

/-- No section makes a conversation both listed and tombstoned, but the one of a create
that gets the id of a tombstoned one. -/
theorem Ran.unmixed (hran : Ran s g) (h : Unmixed id s.guarded)
    (hspared : ∀ session event, .created session event ∈ s.calls →
      session.chatId ∉ s.guarded.deleted) : Unmixed id g := by
  have hclosed := fun hnone => (hran.closed hnone).file
  cases hran with
  | nothing => exact h
  | setInstallationName faults name =>
    exact h.of_sameAt (setInstallationName_sameAt _ _ _) (setInstallationName_chatDb _ _ _)
  | @insertChat faults session event hmem =>
    have hdisplay := Actions.insertChat_display faults session s.guarded
    by_cases hid : id = session.chatId
    · subst hid
      apply h.of_undeleted (hspared session event hmem)
      · rw [Guarded.deleted, hdisplay]
        rfl
      · rw [hdisplay]
        rfl
      · exact persistChat_tombstones _ _ _
      · exact hclosed
    · apply h.of_sameAt (persistChat_put_sameAt hid _ _)
      rw [persistChat_display]
      rfl
  | setConversationNickname faults convoId nickname =>
    by_cases hid : id = convoId
    · subst hid
      rcases setConversationNicknameLocked_cases faults id nickname s.guarded with
        ⟨-, heq⟩ | ⟨session, hget, heq⟩
      · rw [heq]
        exact h
      · rw [heq] at hclosed ⊢
        apply h.of_undeleted (h.listed (by rw [hget]; rfl))
        · rw [Guarded.deleted, persistChat_display]
          rfl
        · rw [persistChat_display]
          rfl
        · exact persistChat_tombstones _ _ _
        · exact hclosed
    · exact h.of_sameAt (setConversationNicknameLocked_sameAt hid _ _ _)
        (setConversationNicknameLocked_chatDb _ _ _ _)
  | deleteConversation faults convoId =>
    by_cases hid : id = convoId
    · subst hid
      rcases deleteConversationLocked_cases faults id s.guarded with ⟨e, heq⟩ | ⟨-, -, heq⟩
      · rw [heq]
        exact h
      · -- it leaves the map and the file as its tombstone comes in
        rw [heq]
        refine ⟨?_, ?_, ?_⟩
        · intro hsome
          rw [chats_writeFile, Guarded.chats_forget, Keyed.get_remove, if_pos rfl] at hsome
          cases hsome
        · intro hsome
          rw [file_writeFile, ChatDb.row_withoutChat, if_pos rfl] at hsome
          cases hsome
        · intro _ _
          exact Finset.mem_insert_self id _
    · exact h.of_sameAt (deleteConversationLocked_sameAt hid _ _)
        (deleteConversationLocked_chatDb _ _ _)
  | sendMessage faults convoId content nowMs =>
    by_cases hid : id = convoId
    · subst hid
      cases hget : s.guarded.chats.get id with
      | none =>
        rw [sendMessageLocked_of_get_none hget]
        exact h
      | some session =>
        apply h.of_undeleted (h.listed (by rw [hget]; rfl))
        · exact recordMessage_deleted _ _ _ _
        · exact recordMessage_chatDb _ _ _ _
        · exact recordMessage_tombstones _ _ _ _
        · exact hclosed
    · exact h.of_sameAt (recordMessage_sameAt hid _ _ _) (recordMessage_chatDb _ _ _ _)
  | @conversationRecorded faults started hstarted =>
    by_cases hid : id = started.convoId
    · by_cases hdel : id ∈ s.guarded.deleted
      · rw [recordConversationStartedLocked_of_deleted (hid ▸ hdel)]
        exact h
      · apply h.of_undeleted hdel
        · exact recordConversationStartedLocked_deleted _ _ _ _ _
        · exact recordConversationStartedLocked_chatDb _ _ _ _ _
        · exact recordConversationStartedLocked_tombstones _ _ _ _ _
        · exact hclosed
    · exact h.of_sameAt (recordConversationStartedLocked_sameAt hid _ _ _ _)
        (recordConversationStartedLocked_chatDb _ _ _ _ _)
  | messageReceived faults convoId content account installation nowMs hlisten =>
    by_cases hid : id = convoId
    · by_cases hdel : id ∈ s.guarded.deleted
      · rw [recordMessageReceived_of_deleted (hid ▸ hdel)]
        exact h
      · apply h.of_undeleted hdel
        · exact recordMessageReceived_deleted _ _ _ _ _ _ _
        · exact recordMessageReceived_chatDb _ _ _ _ _ _ _
        · exact recordMessageReceived_tombstones _ _ _ _ _ _ _
        · exact hclosed
    · exact h.of_sameAt (recordMessageReceived_sameAt hid _ _ _ _ _ _)
        (recordMessageReceived_chatDb _ _ _ _ _ _ _)
  | membersChanged convoId hlisten =>
    exact h.of_sameAt (recordMembersChanged_sameAt _)
      (congrArg Display.chatDb (recordMembersChanged_display _ _))
  | raise event => exact h.of_sameAt (SameAt.refl _).emit rfl

omit [LawfulMessageStore σ] in
/-- A step other than the next section of a call does not look at the calls in flight. -/
theorem step_without_calls {s' : Threads σ} {mv : Move} (hstep : s.step mv = some s')
    (hmv : ∀ i faults answer nowMs, mv ≠ .proceed i faults answer nowMs) :
    ∃ s₁, ({ s with calls := [] } : Threads σ).step mv = some s₁ ∧ s₁.world = s'.world := by
  cases mv with
  | proceed i faults answer nowMs => exact absurd rfl (hmv i faults answer nowMs)
  | shutdown =>
    by_cases hbusy : s.consumer.isSome = true
    · simp [Threads.step, hbusy] at hstep
    · simp only [Threads.step, hbusy] at hstep ⊢
      cases hstep
      exact ⟨_, rfl, rfl⟩
  | conversationRecorded faults =>
    cases hc : s.consumer with
    | none => simp [Threads.step, hc] at hstep
    | some started =>
      simp only [Threads.step, hc] at hstep ⊢
      cases hstep
      exact ⟨_, rfl, rfl⟩
  | conversationStarted | messageReceived | membersChanged =>
    cases hl : s.listening with
    | false => simp [Threads.step, hl] at hstep
    | true =>
      have hl' : ({ s with calls := [] } : Threads σ).listening = true := hl
      simp only [Threads.step, hl, hl'] at hstep ⊢
      cases hstep
      exact ⟨_, rfl, rfl⟩
  | _ =>
    cases hstep
    exact ⟨_, rfl, rfl⟩

/-- An init marks rows, and a session that is installed leaves it nothing to do. -/
theorem Unmixed.init {w : World σ} (h : Unmixed id w.guarded) (config : ChatConfig)
    (env : Environment) : Unmixed id (Actions.init config env w).world.guarded := by
  rcases init_cases config env w with ⟨-, g, ms, hinit, heq⟩ | ⟨-, heq⟩ | ⟨-, e, -, heq⟩
  · obtain ⟨live, -, hseeded⟩ := initializeModule_ok hinit
    rw [heq]
    refine ⟨?_, ?_, ?_⟩
    · intro hsome
      rw [hseeded.chats, Option.isSome_map] at hsome
      rw [hseeded.deleted]
      exact h.rows hsome
    · rw [hseeded.file]
      exact h.rows
    · intro _ hin
      rw [hseeded.file] at hin
      rw [hseeded.deleted]
      exact hin
  · rw [heq]
    exact h.of_sameAt (claimDeliveryRetry_sameAt _) (claimDeliveryRetry_state _).2
  · rw [heq]
    exact h

omit [LawfulMessageStore σ] [MessageStore σ] in
theorem Unmixed.shutdown {w : World σ} (h : Unmixed id w.guarded) :
    Unmixed id (Actions.shutdown w).guarded := by
  cases hm : w.module with
  | none =>
    rw [shutdown_of_none hm]
    exact h
  | some ms =>
    have hdefault := shutdown_display (w := w) (by rw [hm]; rfl)
    refine ⟨?_, ?_, ?_⟩
    · intro hsome
      rw [Guarded.chats, hdefault] at hsome
      cases hsome
    · rw [shutdown_file]
      exact h.rows
    · intro hopen
      rw [hdefault] at hopen
      cases hopen

theorem unmixed_step {s' : Threads σ} {mv : Move} (hspared : Spared s mv)
    (hstep : s.step mv = some s') (h : Unmixed id s.guarded) : Unmixed id s'.guarded := by
  -- the section that ran is looked at in a process with no other call in flight
  by_cases hmv : ∃ i faults answer nowMs, mv = .proceed i faults answer nowMs
  · obtain ⟨i, faults, answer, nowMs, rfl⟩ := hmv
    cases hcall : s.calls[i]? with
    | none => simp [Threads.step, hcall] at hstep
    | some call =>
      have hworld : s'.world = { s.world with guarded :=
          (call.proceed faults answer nowMs s.world).1 } := by
        simp only [Threads.step, hcall] at hstep
        cases hstep
        rfl
      have halone : call ∈ ({ s with calls := [call] } : Threads σ).calls :=
        List.mem_singleton_self call
      have hran := Call.proceed_ran halone faults answer nowMs
      rw [Threads.guarded, hworld]
      apply hran.unmixed h
      intro session event hmem
      obtain rfl : .created session event = call := List.mem_singleton.mp hmem
      exact (hspared session event hcall).1
  · obtain ⟨s₂, hstep₂, hworld⟩ := step_without_calls hstep (by
      intro i faults answer nowMs heq
      exact hmv ⟨i, faults, answer, nowMs, heq⟩)
    rw [Threads.guarded, ← hworld]
    rcases step_cases hstep₂ with ⟨config, env, rfl, heq⟩ | ⟨rfl, -, heq⟩ | ⟨g, hran, heq⟩
    · rw [heq]
      exact h.init config env
    · rw [heq]
      exact h.shutdown
    · rw [heq]
      apply hran.unmixed h
      intro session event hmem
      cases hmem

end Unmixed

/-! ## What is recorded -/

/-- What a step records of `id`: a send's section its message when the conversation is
there, an inbound message's section the message. -/
def records (id : String) (s : Threads σ) : Move → List DisplayMessage
  | .proceed i _ _ nowMs =>
    match s.calls[i]? with
    | some (.sent convoId content) =>
      if convoId = id ∧ (s.guarded.chats.get id).isSome then [sentEntry content nowMs] else []
    | _ => []
  | .messageReceived _ convoId content account _ nowMs =>
    if convoId = id then [receivedEntry content account nowMs] else []
  | _ => []

/-- Whether a step labels `id`. -/
def Move.labels (id : String) : Move → Prop
  | .setConversationNickname _ convoId _ => convoId = id
  | _ => False

/-- The sessions that creates in flight are about to put are empty and have no label. -/
def Blank (s : Threads σ) : Prop :=
  ∀ session event, .created session event ∈ s.calls →
    session.messages = [] ∧ session.olderMessages = 0 ∧ session.nickname = none

/-- Unless `id` is deleted by now, `g'` shows `new` after what `g` shows of it, and it is
labelled as it was if `label` says so. -/
structure Retains (id : String) (new : List DisplayMessage) (label : Prop) (g g' : Guarded σ) :
    Prop where
  connected : g'.display.chatDb = g.display.chatDb
  remembers : g.deleted ⊆ g'.deleted
  shown : id ∉ g'.deleted → shown g' id = ((shown g id).1 ++ new, (shown g id).2)
  labelled : label → id ∉ g'.deleted → ∀ c, g.chats.get id = some c →
    ∃ c', g'.chats.get id = some c' ∧ c'.nickname = c.nickname

section Retains

variable {g g' g₁ : Guarded σ} {s s' : Threads σ} {id c : String} {new : List DisplayMessage}
  {label : Prop} {session : ChatSession}

omit [MessageStore σ] in
/-- A section about another conversation. -/
theorem Retains.other (hdb : g'.display.chatDb = g.display.chatDb) (hdel : g.deleted ⊆ g'.deleted)
    (hget : g'.chats.get id = g.chats.get id) : Retains id [] label g g' := by
  refine ⟨hdb, hdel, ?_, ?_⟩
  · intro _
    simp [ChatModule.shown, hget]
  · intro _ _ old hold
    exact ⟨old, by rw [hget, hold], rfl⟩

omit [MessageStore σ] in
theorem Retains.refl (g : Guarded σ) : Retains id [] label g g := by
  refine ⟨rfl, Finset.Subset.refl _, ?_, ?_⟩
  · intro _
    simp
  · intro _ _ old hold
    exact ⟨old, hold, rfl⟩

omit [MessageStore σ] in
/-- What is shown is what is displayed. -/
theorem Retains.of_display (h : Retains id new label g g₁) (hd : g'.display = g₁.display) :
    Retains id new label g g' := by
  obtain ⟨hconn, hrem, hshown, hlabel⟩ := h
  have hchats : g'.chats = g₁.chats := by rw [Guarded.chats, hd]
  have hdel : g'.deleted = g₁.deleted := by rw [Guarded.deleted, hd]
  refine ⟨by rw [hd, hconn], by rw [hdel]; exact hrem, ?_, ?_⟩
  · intro hnot
    rw [hdel] at hnot
    rw [← hshown hnot]
    simp [ChatModule.shown, hchats]
  · intro hl hnot
    rw [hdel] at hnot
    rw [hchats]
    exact hlabel hl hnot

omit [MessageStore σ] in
/-- A session put that shows `new` after what was shown, under the label that was there. -/
theorem Retains.put (hid : session.chatId = id)
    (hshown : (session.messages, session.olderMessages) =
      ((ChatModule.shown g id).1 ++ new, (ChatModule.shown g id).2))
    (hlabel : label → ∀ c, g.chats.get id = some c → session.nickname = c.nickname) :
    Retains id new label g (g.put session) := by
  have htouches := Touches.put hid hshown
  refine ⟨rfl, Finset.Subset.refl _, htouches.shown, ?_⟩
  intro hl _ old hold
  subst hid
  exact ⟨session, Keyed.get_insert_self _ session, hlabel hl old hold⟩

omit [MessageStore σ] in
/-- A create that finds nothing worth keeping. -/
theorem retains_insertChat (hmsgs : session.messages = []) (holder : session.olderMessages = 0)
    (hname : session.nickname = none)
    (hspared : ∀ c, g.chats.get session.chatId = some c →
      c.messages = [] ∧ c.olderMessages = 0 ∧ c.nickname = none) (faults : Faults) :
    Retains session.chatId [] label g (insertChat faults session g).1 := by
  have hnone : shown g session.chatId = ([], 0) := by
    cases hget : g.chats.get session.chatId with
    | none => exact shown_of_get_none hget
    | some c =>
      obtain ⟨hmsgs', holder', -⟩ := hspared c hget
      rw [shown_of_get hget, hmsgs', holder']
  have hput : Retains session.chatId [] label g (g.put session) := by
    apply Retains.put rfl
    · rw [hnone, hmsgs, holder]
      rfl
    · intro _ c hget
      rw [hname, (hspared c hget).2.2]
  exact hput.of_display (insertChat_display _ _ _)

omit [MessageStore σ] in
theorem retains_recordConversationStarted (faults : Faults) (id : String)
    (kind : ConversationKind) (md : Option String × Option String) (g : Guarded σ) :
    Retains id [] label g (recordConversationStartedLocked faults id kind md g) := by
  have htouches := touches_recordConversationStarted faults id kind md g
  refine ⟨htouches.connected, htouches.remembers, htouches.shown, ?_⟩
  intro _ hnot c hget
  have hd := recordConversationStartedLocked_display faults id kind md g
  rw [recordConversationStartedLocked_deleted] at hnot
  rw [if_neg hnot, hget] at hd
  obtain rfl := Keyed.key_of_get hget
  rw [Guarded.chats, hd]
  exact ⟨_, Keyed.get_insert_self g.chats { c with historyOnly := false }, rfl⟩

theorem retains_sendMessage (hdb : g.display.chatDb.isSome) (faults : Faults) (id content : String)
    (t : UInt64) :
    Retains id (if (g.chats.get id).isSome then [sentEntry content t] else []) label g
      (sendMessageLocked faults id content t g).1 := by
  cases hget : g.chats.get id with
  | none =>
    rw [sendMessageLocked_of_get_none hget]
    exact .refl g
  | some c =>
    have hd := recordMessage_display hdb faults
      (chatMessage id .sent t (Utf8.asBytes content)) false
    rw [chatId_chatMessage, hget] at hd
    have hput : Retains id [sentEntry content t] label g
        (g.put (pushMessage c (chatMessage id .sent t (Utf8.asBytes content)))) := by
      have hid : (pushMessage c (chatMessage id .sent t (Utf8.asBytes content))).chatId = id :=
        (Keyed.key_of_get hget :)
      apply Retains.put hid
      · rw [shown_of_get hget]
        simp [pushMessage]
      · intro _ c' hget'
        obtain rfl : c = c' := Option.some.inj (hget.symm.trans hget')
        rfl
    exact hput.of_display hd

theorem retains_messageReceived (hdb : g.display.chatDb.isSome) (faults : Faults) (id : String)
    (content : List UInt8) (account installation : String) (t : UInt64) :
    Retains id [receivedEntry content account t] label g
      (recordMessageReceived faults id content account installation t g).1 := by
  have htouches := touches_messageReceived hdb faults id content account installation t
  refine ⟨htouches.connected, htouches.remembers, htouches.shown, ?_⟩
  intro _ hnot c hget
  have hd := recordMessageReceived_display hdb faults id content account installation t
  rw [recordMessageReceived_deleted] at hnot
  rw [if_neg hnot] at hd
  have hname : (receivingSession id account g).nickname = c.nickname := by
    unfold receivingSession
    rw [hget]
    simp only [Option.getD_some]
    split <;> rfl
  have hself := Keyed.get_insert_self g.chats (pushMessage (receivingSession id account g)
    (receivedMessage id content account installation t))
  rw [chatId_pushMessage, chatId_receivingSession] at hself
  rw [Guarded.chats, hd]
  exact ⟨_, hself, hname⟩

theorem retains_deleteConversation (faults : Faults) (id : String) (g : Guarded σ) :
    Retains id [] label g (deleteConversationLocked faults id g).1 := by
  rcases deleteConversationLocked_display faults id g with ⟨-, heq⟩ | ⟨-, -, hd⟩
  · rw [heq]
    exact .refl g
  · have htouches := touches_deleteConversation faults id g
    refine ⟨htouches.connected, htouches.remembers, htouches.shown, ?_⟩
    intro _ hnot
    rw [Guarded.deleted, hd] at hnot
    exact absurd (Finset.mem_insert_self id g.deleted) hnot

end Retains

/-! ## Steps -/

section Steps

variable {s s' : Threads σ} {mv : Move} {id : String}

omit [MessageStore σ] in
/-- A section of a conversation, which is `id` or another one. -/
theorem Retains.split {c : String} {new : List DisplayMessage} {label : Prop} {g g' : Guarded σ}
    (hsame : c = id → Retains id new label g g') (htouches : Touches c new g g') :
    Retains id (if c = id then new else []) label g g' := by
  by_cases hid : c = id
  · rw [if_pos hid]
    exact hsame hid
  · rw [if_neg hid]
    exact .other htouches.connected htouches.remembers (htouches.others id (Ne.symm hid))

/-- What the next section of a call retains. -/
theorem retains_proceed {i : ℕ} {faults : Faults} {answer : Except ClientError Unit}
    {nowMs : UInt64} {call : Call} {label : Prop} (hdb : s.guarded.display.chatDb.isSome)
    (hblank : Blank s) (hspared : Spared s (.proceed i faults answer nowMs))
    (hcall : s.calls[i]? = some call) :
    Retains id (records id s (.proceed i faults answer nowMs)) label s.guarded
      (call.proceed faults answer nowMs s.world).1 := by
  unfold records
  simp only [hcall]
  cases call with
  | sendChecked convoId content => exact .refl _
  | inviteChecked convoId => exact .refl _
  | raising event => exact (Retains.refl s.guarded).of_display rfl
  | sent convoId content =>
    show Retains id _ label s.guarded (sendMessageLocked faults convoId content nowMs s.guarded).1
    by_cases hid : convoId = id
    · subst hid
      simp only [true_and]
      exact retains_sendMessage hdb faults convoId content nowMs
    · simp only [hid, false_and, if_false]
      apply Retains.other (recordMessage_chatDb _ _ _ _)
      · show s.guarded.deleted ⊆ (Actions.recordMessage _ _ _ _).1.deleted
        rw [recordMessage_deleted]
      · have hd := recordMessage_display hdb faults
          (chatMessage convoId .sent nowMs (Utf8.asBytes content)) false
        show (Actions.recordMessage _ _ _ _).1.chats.get id = _
        rw [Guarded.chats, hd, chatId_chatMessage]
        cases hget : s.guarded.chats.get convoId with
        | none => rfl
        | some c =>
          have hkey : (pushMessage c (chatMessage convoId .sent nowMs
              (Utf8.asBytes content))).chatId = convoId := (Keyed.key_of_get hget :)
          apply Keyed.get_insert_of_ne
          rw [hkey]
          exact Ne.symm hid
  | created session event =>
    show Retains id [] label s.guarded (insertChat faults session s.guarded).1
    obtain ⟨hmsgs, holder, hname⟩ := hblank session event (List.mem_of_getElem? hcall)
    obtain ⟨-, hempty⟩ := hspared session event hcall
    by_cases hid : session.chatId = id
    · rw [← hid]
      exact retains_insertChat hmsgs holder hname hempty faults
    · have hput : Retains id [] label s.guarded (s.guarded.put session) :=
        .other rfl (Finset.Subset.refl _) (Keyed.get_insert_of_ne _ (Ne.symm hid))
      exact hput.of_display (insertChat_display _ _ _)

/-- What a step of a session retains. -/
theorem retains_step (hm : s.world.module.isSome) (hdb : s.guarded.display.chatDb.isSome)
    (hblank : Blank s) (hspared : Spared s mv) (hgo : mv ≠ .shutdown)
    (hstep : s.step mv = some s') :
    Retains id (records id s mv) (¬ mv.labels id) s.guarded s'.guarded := by
  cases mv with
  | init config env =>
    cases hstep
    obtain ⟨htouches, hchats⟩ :
        Touches "" [] s.guarded (Actions.init config env s.world).world.guarded ∧
          (Actions.init config env s.world).world.guarded.chats = s.guarded.chats :=
      touches_init hm ""
    exact .other htouches.connected htouches.remembers (by rw [hchats])
  | shutdown => exact absurd rfl hgo
  | setInstallationName faults name =>
    cases hstep
    show Retains id [] _ s.guarded (setInstallationName faults name s.guarded).1
    rcases setInstallationName_cases faults name s.guarded with ⟨e, heq⟩ | ⟨-, heq⟩
    · rw [heq]
      exact .refl _
    · rw [heq]
      exact .other rfl (Finset.Subset.refl _) rfl
  | createConversation | createGroupConversation | addGroupMember | sendMessage =>
    cases hstep
    exact .refl _
  | setConversationNickname faults convoId nickname =>
    cases hstep
    show Retains id [] _ s.guarded
      (setConversationNicknameLocked faults convoId nickname s.guarded).1
    have htouches := touches_setConversationNickname faults convoId nickname s.guarded
    by_cases hid : convoId = id
    · subst hid
      refine ⟨htouches.connected, htouches.remembers, htouches.shown, ?_⟩
      intro hlabel
      exact absurd rfl hlabel
    · exact .other htouches.connected htouches.remembers (htouches.others id (Ne.symm hid))
  | deleteConversation faults convoId =>
    cases hstep
    show Retains id [] _ s.guarded (deleteConversationLocked faults convoId s.guarded).1
    have htouches := touches_deleteConversation faults convoId s.guarded
    by_cases hid : convoId = id
    · subst hid
      exact retains_deleteConversation faults convoId s.guarded
    · exact .other htouches.connected htouches.remembers (htouches.others id (Ne.symm hid))
  | proceed i faults answer nowMs =>
    cases hcall : s.calls[i]? with
    | none => simp [Threads.step, hcall] at hstep
    | some call =>
      simp only [Threads.step, hcall] at hstep
      cases hstep
      exact retains_proceed hdb hblank hspared hcall
  | conversationStarted convoId kind answer =>
    simp only [Threads.step] at hstep
    split at hstep <;> cases hstep
    exact .refl _
  | conversationRecorded faults =>
    simp only [Threads.step] at hstep
    split at hstep
    · cases hstep
    · next started hstarted =>
      cases hstep
      show Retains id [] _ s.guarded (recordConversationStartedLocked faults started.convoId
        started.kind started.metadata s.guarded)
      have htouches := touches_recordConversationStarted faults started.convoId started.kind
        started.metadata s.guarded
      by_cases hid : started.convoId = id
      · rw [← hid]
        exact retains_recordConversationStarted _ _ _ _ _
      · exact .other htouches.connected htouches.remembers (htouches.others id (Ne.symm hid))
  | messageReceived faults convoId content account installation nowMs =>
    simp only [Threads.step] at hstep
    split at hstep <;> cases hstep
    apply Retains.split
    · intro hid
      rw [← hid]
      exact retains_messageReceived hdb faults convoId content account installation nowMs
    · exact touches_messageReceived hdb faults convoId content account installation nowMs
  | membersChanged convoId =>
    simp only [Threads.step] at hstep
    split at hstep <;> cases hstep
    exact (Retains.refl s.guarded).of_display (recordMembersChanged_display _ _)

/-- A create in flight is about to put an empty session. -/
theorem blank_step (hstep : s.step mv = some s') (h : Blank s) : Blank s' := by
  intro session event hmem
  rcases mem_calls_of_step hstep hmem with hold | henters
  · exact h session event hold
  · cases henters with
    | created event hcreated hmsgs holder =>
      refine ⟨hmsgs, holder, ?_⟩
      by_cases hold : .created session event ∈ s.calls
      · exact (h session event hold).2.2
      -- only libchat's answer to a create brings one into flight
      cases mv with
      | createConversation | createGroupConversation =>
        cases hstep
        rcases List.mem_append.mp hmem with hnew | hin
        · obtain ⟨chatId, -, heq⟩ := mem_goesOn.mp hnew
          cases heq
          rfl
        · exact absurd hin hold
      | _ => cases hcreated

theorem Ran.chatDb {g : Guarded σ} (hran : Ran s g) :
    g.display.chatDb = s.guarded.display.chatDb := by
  cases hran with
  | nothing => rfl
  | setInstallationName faults name => exact setInstallationName_chatDb _ _ _
  | insertChat faults hmem =>
    rw [insertChat_display]
    rfl
  | setConversationNickname faults convoId nickname =>
    exact setConversationNicknameLocked_chatDb _ _ _ _
  | deleteConversation faults convoId => exact deleteConversationLocked_chatDb _ _ _
  | sendMessage faults convoId content nowMs => exact recordMessage_chatDb _ _ _ _
  | conversationRecorded faults hstarted => exact recordConversationStartedLocked_chatDb _ _ _ _ _
  | messageReceived faults convoId content account installation nowMs hlisten =>
    exact recordMessageReceived_chatDb _ _ _ _ _ _ _
  | membersChanged convoId hlisten =>
    exact congrArg Display.chatDb (recordMembersChanged_display _ _)
  | raise event => rfl

/-- A session that is installed has its connection open. -/
def Connected (s : Threads σ) : Prop :=
  s.world.module.isSome → s.guarded.display.chatDb.isSome

theorem connected_step [LawfulMessageStore σ] (hstep : s.step mv = some s') (h : Connected s) :
    Connected s' := by
  intro hm
  rcases step_cases hstep with ⟨config, env, -, heq⟩ | ⟨-, -, heq⟩ | ⟨g, hran, heq⟩
  · rcases init_cases config env s.world with ⟨-, g, ms, hinit, heq'⟩ | ⟨hinstalled, heq'⟩ |
      ⟨hnone, e, -, heq'⟩
    · obtain ⟨live, -, hseeded⟩ := initializeModule_ok hinit
      rw [Threads.guarded, heq, heq', hseeded.chatDb]
      rfl
    · rw [Threads.guarded, heq, heq']
      rw [(claimDeliveryRetry_state s.world.guarded).2]
      exact h hinstalled
    · rw [heq, heq', hnone] at hm
      cases hm
  · rw [heq, shutdown_module] at hm
    cases hm
  · rw [Threads.guarded, heq, hran.chatDb]
    rw [heq] at hm
    exact h hm

/-- Only a shutdown ends a session. -/
theorem installed_step (hgo : mv ≠ .shutdown) (hstep : s.step mv = some s')
    (hm : s.world.module.isSome) : s'.world.module.isSome := by
  rcases step_cases hstep with ⟨config, env, -, heq⟩ | ⟨hdown, -⟩ | ⟨g, -, heq⟩
  · rcases init_cases config env s.world with ⟨hnone, -⟩ | ⟨-, heq'⟩ | ⟨hnone, -⟩
    · simp [hnone] at hm
    · rw [heq, heq']
      exact hm
    · simp [hnone] at hm
  · exact absurd hdown hgo
  · rw [heq]
    exact hm

end Steps

/-! ## Runs -/

section Runs

variable {s s' : Threads σ} {moves : List Move} {id : String}

omit [MessageStore σ] in
theorem Retains.trans {new new' : List DisplayMessage} {label label' both : Prop}
    {g g' g'' : Guarded σ} (h : Retains id new label g g') (h' : Retains id new' label' g' g'')
    (hboth : both → label ∧ label') : Retains id (new ++ new') both g g'' := by
  have hstays : id ∉ g''.deleted → id ∉ g'.deleted := fun hnot hin => hnot (h'.remembers hin)
  refine ⟨h'.connected.trans h.connected, h.remembers.trans h'.remembers, ?_, ?_⟩
  · intro hnot
    rw [h'.shown hnot, h.shown (hstays hnot), List.append_assoc]
  · intro hb hnot c hget
    obtain ⟨c₁, hget₁, hname₁⟩ := h.labelled (hboth hb).1 (hstays hnot) c hget
    obtain ⟨c₂, hget₂, hname₂⟩ := h'.labelled (hboth hb).2 hnot c₁ hget₁
    exact ⟨c₂, hget₂, hname₂.trans hname₁⟩

/-- What a run within a session retains. -/
theorem retains_run (hr : (interleaved σ).Run (fun s mv => mv ≠ .shutdown ∧ Spared s mv) s moves s')
    (hm : s.world.module.isSome) (hdb : s.guarded.display.chatDb.isSome) (hblank : Blank s) :
    Retains id ((interleaved σ).output (records id) s moves) (∀ mv ∈ moves, ¬ mv.labels id)
      s.guarded s'.guarded := by
  induction hr with
  | nil s => exact .refl _
  | @cons s s₁ s' mv moves hP hs _ ih =>
    obtain ⟨hgo, hspared⟩ := hP
    have hfirst : Retains id (records id s mv) (¬ mv.labels id) s.guarded s₁.guarded :=
      retains_step hm hdb hblank hspared hgo hs
    have hopen : s₁.guarded.display.chatDb.isSome := by
      rw [hfirst.connected]
      exact hdb
    have hrest := ih (installed_step hgo hs hm) hopen (blank_step hs hblank)
    rw [Machine.output_cons hs]
    apply hfirst.trans hrest
    intro hall
    constructor
    · exact hall mv List.mem_cons_self
    · intro mv' hmv'
      exact hall mv' (List.mem_cons_of_mem _ hmv')

variable [LawfulMessageStore σ]

/-- What holds in every state that is reached when creates find nothing worth keeping. -/
theorem reached_run {file : ChatDb σ} {own : Option String}
    (hfile : ∀ id, (file.row id).isSome → id ∉ file.deletedChats)
    (hr : (interleaved σ).Run Spared (.start file own) moves s) :
    (∀ id, Unmixed id s.guarded) ∧ Connected s ∧ Blank s := by
  refine ⟨?_, ?_, ?_⟩
  · intro id
    refine hr.invariant (I := fun s => Unmixed id s.guarded)
      (fun _ _ _ hP hs h => unmixed_step hP hs h) ⟨?_, hfile id, ?_⟩
    · intro hsome
      cases hsome
    · intro hopen
      cases hopen
  · refine hr.invariant (fun _ _ _ _ hs h => connected_step hs h) ?_
    intro hm
    cases hm
  · refine hr.invariant (fun _ _ _ _ hs h => blank_step hs h) ?_
    intro session event hmem
    cases hmem

/-- When every create finds its id neither tombstoned nor in use, no conversation is ever
both listed and tombstoned; and while a session goes on, every message a section records
stays in its list and in its count, every label stays until it is replaced, and what is
deleted stays unlisted, whatever the creates in flight. -/
theorem creates_keep_records {file : ChatDb σ} {own : Option String}
    (hfile : ∀ id, (file.row id).isSome → id ∉ file.deletedChats)
    (hr : (interleaved σ).Run Spared (.start file own) moves s) :
    (∀ id, (s.guarded.chats.get id).isSome → id ∉ s.guarded.deleted) ∧
    (s.world.module.isSome → ∀ moves s',
      (interleaved σ).Run (fun s mv => mv ≠ .shutdown ∧ Spared s mv) s moves s' →
      (∀ id ∈ s.guarded.deleted, s'.guarded.chats.get id = none) ∧
      ∀ id, id ∉ s'.guarded.deleted →
        getMessages s'.guarded id = getMessages s.guarded id ++
          ((interleaved σ).output (records id) s moves).map message ∧
        (∀ cv ∈ listConversations s'.guarded, cv.convoId = id → cv.messageCount =
          (shown s.guarded id).2 + (getMessages s'.guarded id).length) ∧
        ((∀ mv ∈ moves, ¬ mv.labels id) → ∀ c, s.guarded.chats.get id = some c →
          ∃ c', s'.guarded.chats.get id = some c' ∧ c'.nickname = c.nickname)) := by
  obtain ⟨hunmixed, hconnected, hblank⟩ := reached_run hfile hr
  refine ⟨fun id => (hunmixed id).listed, ?_⟩
  intro hm moves' s' hr'
  have hretains : ∀ id, Retains id _ _ s.guarded s'.guarded :=
    fun id => retains_run hr' hm (hconnected hm) hblank
  constructor
  · intro id hdel
    have hspared := hr'.imp fun _ _ _ hP => hP.2
    have hlisted := ((reached_run hfile (hr.append hspared)).1 id).listed
    cases hget : s'.guarded.chats.get id with
    | none => rfl
    | some c => exact absurd ((hretains id).remembers hdel) (hlisted (by rw [hget]; rfl))
  · intro id hnot
    have hshown := (hretains id).shown hnot
    refine ⟨?_, ?_, ?_⟩
    · rw [getMessages_eq_shown, getMessages_eq_shown, hshown, List.map_append]
    · intro cv hcv hid
      rw [messageCount_eq_shown hcv, hid, hshown]
    · intro hlabels
      exact (hretains id).labelled hlabels hnot

/-- A session with a create of "c1" past libchat. -/
def opening : List Move := [
  .init ⟨none⟩ (.up ⟨"name", "addr"⟩ []),
  .createConversation (.ok "c1") "peer"]

/-- Its start is handled before the create records it, and a message afterwards. -/
def startedMeanwhile : List Move := [
  .conversationStarted "c1" .direct (.error "no group"),
  .conversationRecorded noFaults,
  .proceed 0 noFaults (.ok ()) 0,
  .messageReceived noFaults "c1" [104, 105] "peer" "device" 1]

/-- The conversation starts while its create is in flight, and is written to afterwards. -/
theorem creates_keep_records_started : ∃ s s' : Threads LogStore,
    (interleaved LogStore).exec (.start emptyDb none) opening = some s ∧
    (interleaved LogStore).exec s startedMeanwhile = some s' ∧
    getMessages s'.guarded "c1" = [⟨false, "hi", 1, some "peer"⟩] := by
  have hexec : ∃ s s₁ s₂ s₃ s' : Threads LogStore,
      (interleaved LogStore).exec (.start emptyDb none) opening = some s ∧
      s.world.module.isSome ∧ getMessages s.guarded "c1" = [] ∧
      (interleaved LogStore).step s (.conversationStarted "c1" .direct (.error "no group")) =
        some s₁ ∧
      (interleaved LogStore).step s₁ (.conversationRecorded noFaults) = some s₂ ∧
      s₂.calls = [.created (directSession "peer" "c1") (directCreated "c1")] ∧
      s₂.guarded.deleted = ∅ ∧
      s₂.guarded.chats.get "c1" = some (openedSession "c1" .direct none none none) ∧
      (interleaved LogStore).step s₂ (.proceed 0 noFaults (.ok ()) 0) = some s₃ ∧
      (interleaved LogStore).step s₃ (.messageReceived noFaults "c1" [104, 105] "peer" "device" 1) =
        some s' ∧
      s'.guarded.deleted = ∅ ∧
      (interleaved LogStore).output (records "c1") s startedMeanwhile =
        [receivedEntry [104, 105] "peer" 1] :=
    ⟨_, _, _, _, _, rfl, rfl, rfl, rfl, rfl, rfl, rfl, rfl, rfl, rfl, rfl, rfl⟩
  obtain ⟨s, s₁, s₂, s₃, s', hall, hm, hnil, hstart, hrecord, hcalls, hdel, hget, hput, hmsg, hdel',
    hsaid⟩ := hexec
  have hbefore : (interleaved LogStore).Run Spared (.start emptyDb none) opening s := by
    apply (Machine.run_of_exec hall).imp
    intro mv hmv _ _
    simp only [opening, List.mem_cons, List.not_mem_nil, or_false] at hmv
    rcases hmv with rfl | rfl <;> trivial
  have hspared : Spared s₂ (.proceed 0 noFaults (.ok ()) 0) := by
    intro session event hcall
    rw [hcalls] at hcall
    cases hcall
    constructor
    · rw [hdel]
      simp
    · intro c hc
      obtain rfl : openedSession "c1" .direct none none none = c :=
        Option.some.inj (hget.symm.trans hc)
      exact ⟨rfl, rfl, rfl⟩
  have hrun : (interleaved LogStore).Run (fun s mv => mv ≠ .shutdown ∧ Spared s mv) s
      startedMeanwhile s' :=
    .cons ⟨by simp, trivial⟩ hstart (.cons ⟨by simp, trivial⟩ hrecord
      (.cons ⟨by simp, hspared⟩ hput (.single ⟨by simp, trivial⟩ hmsg)))
  have hfile : ∀ id, ((emptyDb : ChatDb LogStore).row id).isSome →
      id ∉ (emptyDb : ChatDb LogStore).deletedChats := by
    intro id _
    exact Finset.notMem_empty id
  have hkeep := ((creates_keep_records hfile hbefore).2 hm _ s' hrun).2 "c1" (by simp [hdel'])
  refine ⟨s, s', hall, ?_, ?_⟩
  · simp only [startedMeanwhile, Machine.exec, hstart, hrecord, hput, hmsg, Option.bind_some]
  · rw [hkeep.1, hnil, hsaid]
    rfl

/-- A message that arrives before its conversation's create records it is gone afterwards,
and a conversation deleted meanwhile is listed again, beside its tombstone. -/
theorem create_discards_message : ∃ s s₁ s₂ s₃ : Threads LogStore,
    (interleaved LogStore).exec (.start emptyDb none) opening = some s ∧
    (interleaved LogStore).exec s
      [.messageReceived noFaults "c1" [104, 105] "peer" "device" 1] = some s₁ ∧
    getMessages s₁.guarded "c1" = [⟨false, "hi", 1, some "peer"⟩] ∧
    (interleaved LogStore).exec s₁ [.proceed 0 noFaults (.ok ()) 0] = some s₂ ∧
    getMessages s₂.guarded "c1" = [] ∧
    (interleaved LogStore).exec s₁
      [.deleteConversation noFaults "c1", .proceed 1 noFaults (.ok ()) 0] = some s₃ ∧
    (s₃.guarded.chats.get "c1").isSome ∧ "c1" ∈ s₃.guarded.deleted :=
  ⟨_, _, _, _, rfl, rfl, rfl, rfl, rfl, rfl, rfl, by decide⟩

end Runs

end ChatModule
