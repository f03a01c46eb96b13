import ChatModule.Sections

/-!
# What is shown of a conversation

The messages in a conversation's list, the number of older ones, and what each section
may do to them: every section is described once, by `Touches`, which says that it is
about one conversation and appends to its messages, deletes it, or leaves what is shown
of it alone.
-/

namespace ChatModule

open Actions Persistence

variable {σ : Type}

/-! ## What is shown of a conversation -/

/-- The messages in a conversation's list and how many older ones are only counted. -/
def shown (g : Guarded σ) (id : String) : List DisplayMessage × ℕ :=
  match g.chats.get id with
  | some s => (s.messages, s.olderMessages)
  | none => ([], 0)

section Shown

variable {g g' : Guarded σ} {s : ChatSession} {id c : String}

theorem shown_of_get (h : g.chats.get id = some s) :
    shown g id = (s.messages, s.olderMessages) := by
  simp [shown, h]

theorem shown_of_get_none (h : g.chats.get id = none) : shown g id = ([], 0) := by
  simp [shown, h]

theorem getMessages_eq_shown (g : Guarded σ) (id : String) :
    getMessages g id = (shown g id).1.map message := by
  unfold getMessages shown
  cases g.chats.get id <;> rfl

theorem messageCount_eq_shown {cv : Conversation} (h : cv ∈ listConversations g) :
    cv.messageCount = (shown g cv.convoId).2 + (getMessages g cv.convoId).length := by
  obtain ⟨s, hget, rfl⟩ := mem_listConversations.mp h
  rw [getMessages_eq_shown, shown_of_get hget, List.length_map]
  rfl

end Shown

/-- A message sent, as `get_messages` shows it. -/
def sentEntry (content : String) (nowMs : UInt64) : DisplayMessage where
  fromSelf := true
  content := content
  timestampMs := nowMs
  sender := none

/-- A message received, as `get_messages` shows it. -/
def receivedEntry (content : List UInt8) (account : String) (nowMs : UInt64) :
    DisplayMessage where
  fromSelf := false
  content := Utf8.fromUtf8Lossy content
  timestampMs := nowMs
  sender := some account

@[simp] theorem displayMessage_chatMessage (id content : String) (t : UInt64) :
    displayMessage (chatMessage id .sent t (Utf8.asBytes content)) = sentEntry content t := by
  simp [displayMessage, chatMessage, sentEntry, Utf8.fromUtf8Lossy_asBytes]

@[simp] theorem displayMessage_receivedMessage (id : String) (content : List UInt8)
    (account installation : String) (t : UInt64) :
    displayMessage (receivedMessage id content account installation t) =
      receivedEntry content account t := by
  simp [displayMessage, receivedMessage, chatMessage, receivedEntry]

/-! ## What a section may do -/

/-- A section about `c`: it leaves the other conversations alone, and appends `new` to
what is shown of `c` unless `c` is deleted by now. -/
structure Touches (c : String) (new : List DisplayMessage) (g g' : Guarded σ) : Prop where
  connected : g'.display.chatDb = g.display.chatDb
  others : ∀ id, id ≠ c → g'.chats.get id = g.chats.get id
  deleted : ∀ id, id ∈ g'.deleted → id ∈ g.deleted ∨ id = c
  remembers : g.deleted ⊆ g'.deleted
  stays : (g.chats.get c).isSome → (g'.chats.get c).isSome ∨ c ∈ g'.deleted
  shown : c ∉ g'.deleted → shown g' c = ((shown g c).1 ++ new, (shown g c).2)

section Touches

variable {g g' : Guarded σ} {s s' : ChatSession} {id c : String} {new : List DisplayMessage}

/-- What is not about the conversations. -/
theorem Touches.of_state (hstate : g'.display.state.chats = g.display.state.chats)
    (hdel : g'.deleted = g.deleted) (hdb : g'.display.chatDb = g.display.chatDb) (c : String) :
    Touches c [] g g' := by
  have hget : ∀ id, g'.chats.get id = g.chats.get id := by
    intro id
    rw [Guarded.chats, hstate]
  refine ⟨hdb, fun id _ => hget id, ?_, ?_, ?_, ?_⟩
  · intro id hid
    rw [hdel] at hid
    exact Or.inl hid
  · rw [hdel]
  · intro hsome
    rw [hget]
    exact Or.inl hsome
  · intro _
    simp [ChatModule.shown, hget]

theorem Touches.refl (g : Guarded σ) (c : String) : Touches c [] g g := .of_state rfl rfl rfl c

/-- What shows the same display. -/
theorem Touches.of_display {g₁ : Guarded σ} (h : Touches c new g g₁)
    (hd : g'.display = g₁.display) : Touches c new g g' := by
  have hchats : g'.chats = g₁.chats := by rw [Guarded.chats, hd]
  have hdel : g'.deleted = g₁.deleted := by rw [Guarded.deleted, hd]
  have hshown : ChatModule.shown g' c = ChatModule.shown g₁ c := by
    simp [ChatModule.shown, hchats]
  refine ⟨?_, ?_, ?_, ?_, ?_, ?_⟩
  · rw [hd]
    exact h.connected
  · rw [hchats]
    exact h.others
  · rw [hdel]
    exact h.deleted
  · rw [hdel]
    exact h.remembers
  · rw [hchats, hdel]
    exact h.stays
  · rw [hdel, hshown]
    exact h.shown

/-- A session put that shows `new` after what was shown. -/
theorem Touches.put (hid : s.chatId = c) (hshown : (s.messages, s.olderMessages) =
    ((ChatModule.shown g c).1 ++ new, (ChatModule.shown g c).2)) : Touches c new g (g.put s) := by
  subst hid
  refine ⟨rfl, ?_, ?_, ?_, ?_, ?_⟩
  · intro id hid
    exact Keyed.get_insert_of_ne _ hid
  · intro id hid
    exact Or.inl hid
  · exact fun _ h => h
  · intro _
    rw [Guarded.chats_put, Keyed.get_insert_self]
    exact Or.inl rfl
  · intro _
    rw [shown_of_get (Keyed.get_insert_self _ s), hshown]

/-- A session put in place of one that shows the same. -/
theorem Touches.replace (hget : g.chats.get c = some s) (hid : s'.chatId = s.chatId)
    (hmsgs : s'.messages = s.messages) (holder : s'.olderMessages = s.olderMessages) :
    Touches c [] g (g.put s') := by
  obtain rfl := Keyed.key_of_get hget
  refine .put hid ?_
  rw [shown_of_get hget, hmsgs, holder, List.append_nil]

/-- A conversation opened where there was none. -/
theorem Touches.opened (hget : g.chats.get s.chatId = none) (hmsgs : s.messages = [])
    (holder : s.olderMessages = 0) : Touches s.chatId [] g (g.put s) := by
  refine .put rfl ?_
  rw [shown_of_get_none hget, hmsgs, holder]
  rfl

theorem touches_insertChat (hget : g.chats.get s.chatId = none) (hmsgs : s.messages = [])
    (holder : s.olderMessages = 0) (faults : Faults) :
    Touches s.chatId [] g (insertChat faults s g).1 :=
  (Touches.opened hget hmsgs holder).of_display (insertChat_display faults s g)

theorem touches_setConversationNickname (faults : Faults) (c nickname : String)
    (g : Guarded σ) : Touches c [] g (setConversationNicknameLocked faults c nickname g).1 := by
  have hd := setConversationNicknameLocked_display faults c nickname g
  cases hget : g.chats.get c with
  | none =>
    rw [hget] at hd
    exact (Touches.refl g c).of_display hd
  | some s =>
    rw [hget] at hd
    have hput : Touches c [] g (g.put { s with nickname := nonEmpty nickname }) :=
      .replace hget rfl rfl rfl
    exact hput.of_display hd

theorem touches_recordConversationStarted (faults : Faults) (c : String) (kind : ConversationKind)
    (md : Option String × Option String) (g : Guarded σ) :
    Touches c [] g (recordConversationStartedLocked faults c kind md g) := by
  have hd := recordConversationStartedLocked_display faults c kind md g
  by_cases hdel : c ∈ g.deleted
  · rw [if_pos hdel] at hd
    exact (Touches.refl g c).of_display hd
  · rw [if_neg hdel] at hd
    cases hget : g.chats.get c with
    | some s =>
      rw [hget] at hd
      have hput : Touches c [] g (g.put { s with historyOnly := false }) :=
        .replace hget rfl rfl rfl
      exact hput.of_display hd
    | none =>
      rw [hget] at hd
      have hput : Touches c [] g (g.put (openedSession c kind md.1 md.2 none)) :=
        .opened (s := openedSession c kind md.1 md.2 none) hget rfl rfl
      exact hput.of_display hd

variable [MessageStore σ]

/-- A send that is past libchat is shown, unless its conversation is gone. -/
theorem touches_sendMessage (hdb : g.display.chatDb.isSome)
    (hknown : (g.chats.get c).isSome ∨ c ∈ g.deleted) (faults : Faults) (content : String)
    (t : UInt64) :
    Touches c [sentEntry content t] g (sendMessageLocked faults c content t g).1 := by
  have hd : (sendMessageLocked faults c content t g).1.display = _ :=
    recordMessage_display hdb faults (chatMessage c .sent t (Utf8.asBytes content)) false
  rw [chatId_chatMessage] at hd
  cases hget : g.chats.get c with
  | none =>
    rw [hget] at hd
    have hdel : c ∈ g.deleted := by simpa [hget] using hknown
    -- nothing is appended, to a conversation that is deleted
    have hsame := (Touches.refl g c).of_display hd
    refine ⟨hsame.connected, hsame.others, hsame.deleted, hsame.remembers, hsame.stays, ?_⟩
    intro hnot
    exact absurd (hsame.remembers hdel) hnot
  | some s =>
    rw [hget] at hd
    obtain rfl := Keyed.key_of_get hget
    refine Touches.of_display (Touches.put (chatId_pushMessage s _) ?_) hd
    rw [shown_of_get hget]
    simp [pushMessage]

omit [MessageStore σ] in
/-- The session an inbound message goes into shows what was shown. -/
theorem receivingSession_shown (c account : String) (g : Guarded σ) :
    ((receivingSession c account g).messages, (receivingSession c account g).olderMessages) =
      ChatModule.shown g c := by
  unfold receivingSession
  cases hget : g.chats.get c with
  | none =>
    rw [shown_of_get_none hget]
    rfl
  | some s =>
    rw [shown_of_get hget]
    simp only [Option.getD_some]
    split <;> rfl

theorem touches_messageReceived (hdb : g.display.chatDb.isSome) (faults : Faults) (c : String)
    (content : List UInt8) (account installation : String) (t : UInt64) :
    Touches c [receivedEntry content account t] g
      (recordMessageReceived faults c content account installation t g).1 := by
  have hd := recordMessageReceived_display hdb faults c content account installation t
  by_cases hdel : c ∈ g.deleted
  · rw [if_pos hdel] at hd
    have hsame := (Touches.refl g c).of_display hd
    refine ⟨hsame.connected, hsame.others, hsame.deleted, hsame.remembers, hsame.stays, ?_⟩
    intro hnot
    exact absurd (hsame.remembers hdel) hnot
  · rw [if_neg hdel] at hd
    refine Touches.of_display (Touches.put (by simp) ?_) hd
    rw [← receivingSession_shown c account g]
    simp [pushMessage]

theorem touches_deleteConversation (faults : Faults) (c : String) (g : Guarded σ) :
    Touches c [] g (deleteConversationLocked faults c g).1 := by
  rcases deleteConversationLocked_display faults c g with ⟨-, heq⟩ | ⟨-, -, hd⟩
  · rw [heq]
    exact .refl g c
  · have hforget : Touches c [] g (g.forget c) := by
      refine ⟨rfl, ?_, ?_, ?_, ?_, ?_⟩
      · intro id hid
        rw [Guarded.chats_forget, Keyed.get_remove, if_neg hid]
      · intro id hid
        rw [Guarded.deleted_forget, Finset.mem_insert] at hid
        exact hid.symm
      · rw [Guarded.deleted_forget]
        exact Finset.subset_insert c g.deleted
      · intro _
        exact Or.inr (Finset.mem_insert_self c g.deleted)
      · intro hnot
        exact absurd (Finset.mem_insert_self c g.deleted) hnot
    exact hforget.of_display hd

end Touches

end ChatModule
