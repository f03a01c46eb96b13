import ChatModule.History

/-!
# What is announced of a conversation

The handlers of the client's events raise theirs under the display lock. An API call
raises its event after it has let the lock go, so other calls may run in between:
`Threads.due` are the events of calls that are past their last section.

`conversation_deleted(id)` is the last event about `id`, and every `message_sent` is for
a message that was recorded, when no call on `id` is overtaken by the deletion
(`Prompt`). Otherwise its event comes after it; and a send that finds its conversation
gone succeeds all the same, so it announces a message nobody kept.
-/

namespace ChatModule

open Actions Persistence

variable {σ : Type}

/-! ## Events due -/

/-- The event of a call that is past its last section. -/
def Call.due : Call → Option PluginEvent
  | .raising event => some event
  | _ => none

/-- The events that calls in flight are about to raise. -/
def Threads.due (s : Threads σ) : List PluginEvent := s.calls.filterMap Call.due

/-- Whether an event is a `message_sent`. -/
def PluginEvent.isSent : PluginEvent → Bool
  | .messageSent .. => true
  | _ => false

/-- An event raised under the display lock by a handler of the client's events, or by an
init: it is about the conversation of the client's event. -/
structure Heard (s : Threads σ) (mv : Move) (event : PluginEvent) : Prop where
  sent : event.isSent = false
  deleted : ∀ id, event ≠ .conversationDeleted id
  about : ∀ id, event.convoId = some id → mv.about s = some id

section Due

variable {s : Threads σ} {event : PluginEvent} {calls : List Call}

theorem mem_due : event ∈ calls.filterMap Call.due ↔ .raising event ∈ calls := by
  rw [List.mem_filterMap]
  constructor
  · rintro ⟨call, hmem, hdue⟩
    cases call with
    | raising e =>
      obtain rfl := Option.some.inj hdue
      exact hmem
    | _ => cases hdue
  · intro hmem
    exact ⟨_, hmem, rfl⟩

theorem due_goesOn {α : Type} {result : Except CoreError α} {next : α → Call}
    (hnext : ∀ a, (next a).due = none) : (goesOn result next).toList.filterMap Call.due = [] := by
  cases result with
  | error e => rfl
  | ok a => simp [goesOn, hnext]

theorem mem_due_raises {result : Except CoreError Unit} {e : PluginEvent}
    (h : event ∈ (raises result e).toList.filterMap Call.due) : result = .ok () ∧ event = e := by
  obtain ⟨⟨⟩, hok, heq⟩ := mem_goesOn.mp (mem_due.mp h)
  exact ⟨hok, by injection heq with heq; exact heq.symm⟩

end Due

/-! ## What a send records -/

variable [MessageStore σ]

/-- A section appends the message of a send to its conversation's list, and writes it to
`chat.db`. -/
def Entered (id content : String) (nowMs : UInt64) (g g' : Guarded σ) : Prop :=
  getMessages g' id = getMessages g id ++ [⟨true, content, nowMs.toInt64, none⟩] ∧
    g'.file.history id = g.file.history id ++ [chatMessage id .sent nowMs (Utf8.asBytes content)]

instance (id content : String) (nowMs : UInt64) (g g' : Guarded σ) :
    Decidable (Entered id content nowMs g g') :=
  inferInstanceAs (Decidable (_ ∧ _))

/-- The `message_sent` for the message a step appends to its list and writes. -/
def enteredSend (s : Threads σ) : Move → List PluginEvent
  | .proceed i faults _ nowMs =>
    match s.calls[i]? with
    | some (.sent id content) =>
      if Entered id content nowMs s.guarded
          (sendMessageLocked faults id content nowMs s.guarded).1 then
        [.messageSent id content nowMs.toInt64]
      else []
    | _ => []
  | _ => []

/-- The `message_sent` of a send that finds its conversation gone. -/
def lostSend (s : Threads σ) : Move → List PluginEvent
  | .proceed i _ _ nowMs =>
    match s.calls[i]? with
    | some (.sent id content) =>
      if (s.guarded.chats.get id).isNone then [.messageSent id content nowMs.toInt64] else []
    | _ => []
  | _ => []

section Sending

variable [LawfulMessageStore σ] {g : Guarded σ} {id content : String} {nowMs : UInt64}
  {faults : Faults}

/-- A send whose section finds the conversation succeeds when it records the message. -/
theorem sendMessageLocked_ok_iff {session : ChatSession} (hget : g.chats.get id = some session) :
    (sendMessageLocked faults id content nowMs g).2 = .ok () ↔
      Entered id content nowMs g (sendMessageLocked faults id content nowMs g).1 := by
  have hsame : ∀ (g' : Guarded σ), g'.file = g.file → ¬ Entered id content nowMs g g' := by
    rintro g' hfile ⟨-, hhistory⟩
    rw [hfile] at hhistory
    simp at hhistory
  unfold sendMessageLocked
  rcases recordMessage_cases faults (chatMessage id .sent nowMs (Utf8.asBytes content)) false g
    with ⟨hnone, -⟩ | ⟨-, heq⟩ | ⟨found, hfound, -, ⟨e, heq⟩ | heq⟩
  · simp [hget] at hnone
  · rw [heq]
    exact iff_of_false (by simp) (hsame g rfl)
  · rw [heq]
    exact iff_of_false (by simp) (hsame _ rfl)
  · obtain rfl : session = found := by simpa [hget] using hfound
    have hid : session.chatId = id := Keyed.key_of_get hget
    rw [heq]
    refine iff_of_true rfl ⟨?_, ?_⟩
    · subst hid
      simp [getMessages, Guarded.put, Guarded.chats, pushMessage, hget, message, sentEntry,
        displayMessage_chatMessage]
    · simp [recorded, ChatDb.history_withMessage]

end Sending

omit [MessageStore σ] in
/-- A call that has sections before it announces nothing yet. -/
theorem due_go {s : Threads σ} {α : Type} {result : Except CoreError α} {next : α → Call}
    (hnext : ∀ a, (next a).due = none) : (s.go (goesOn result next)).due = s.due := by
  simp only [Threads.due, Threads.go, List.filterMap_append]
  rw [due_goesOn hnext, List.nil_append]

/-! ## What a step announces -/

/-- Why an event falls due in a step. -/
inductive Falls (s : Threads σ) (mv : Move) : PluginEvent → Prop
  | sent {i : ℕ} {faults : Faults} {answer : Except ClientError Unit} {nowMs : UInt64}
      {id content : String} : mv = .proceed i faults answer nowMs →
    s.calls[i]? = some (.sent id content) → Falls s mv (.messageSent id content nowMs.toInt64)
  | created {session : ChatSession} {event : PluginEvent} : .created session event ∈ s.calls →
    Falls s mv event
  | invited {i : ℕ} {faults : Faults} {answer : Except ClientError Unit} {nowMs : UInt64}
      {id : String} : mv = .proceed i faults answer nowMs →
    s.calls[i]? = some (.inviteChecked id) → withClient s.world answer = .ok () →
    Falls s mv (.conversationUpdated id)
  | nicknamed {id : String} : (s.guarded.chats.get id).isSome → Falls s mv (.conversationUpdated id)
  | deleted {faults : Faults} {id : String} : mv = .deleteConversation faults id →
    (deleteConversationLocked faults id s.guarded).2 = .ok () →
    Falls s mv (.conversationDeleted id)

/-- A step raises an event that was due; or a section runs, whose events are heard as it
does, and whose call may have an event due after it. -/
inductive News (s : Threads σ) (mv : Move) (s' : Threads σ) : Prop
  | raised {i : ℕ} {faults : Faults} {answer : Except ClientError Unit} {nowMs : UInt64}
      {event : PluginEvent} : mv = .proceed i faults answer nowMs →
    s.calls[i]? = some (.raising event) → s'.guarded.raised = s.guarded.raised ++ [event] →
    s'.calls = s.calls.eraseIdx i → News s mv s'
  | ran (heard next : List PluginEvent) : s'.guarded.raised = s.guarded.raised ++ heard →
    (∀ e ∈ heard, Heard s mv e) → s'.due.Perm (next ++ s.due) → (∀ e ∈ next, Falls s mv e) →
    next.filter PluginEvent.isSent = enteredSend s mv ++ lostSend s mv → News s mv s'

/-- A create in flight raises the `conversation_created` of the session it saves. -/
def Named (s : Threads σ) : Prop :=
  ∀ session event, .created session event ∈ s.calls → ∃ label kind name desc,
    event = .conversationCreated session.chatId true label kind name desc

section Steps

variable {s s' : Threads σ} {mv : Move}

theorem named_step (hstep : s.step mv = some s') (h : Named s) : Named s' := by
  intro session event hmem
  rcases created_of_step hstep hmem with hold | ⟨-, -, hevent⟩
  · exact h session event hold
  · exact hevent

/-- A step that raises nothing and after which nothing is newly due. -/
theorem News.silent (hraised : s'.guarded.raised = s.guarded.raised) (hdue : s'.due = s.due)
    (hentered : enteredSend s mv = []) (hlost : lostSend s mv = []) : News s mv s' := by
  refine .ran [] [] (by simpa using hraised) (by simp) ?_ (by simp) (by simp [hentered, hlost])
  rw [hdue]
  exact List.Perm.refl _

/-- A step in which a handler is heard. -/
theorem News.handled (heard : List PluginEvent)
    (hraised : s'.guarded.raised = s.guarded.raised ++ heard) (hheard : ∀ e ∈ heard, Heard s mv e)
    (hcalls : s'.calls = s.calls) (hentered : enteredSend s mv = []) (hlost : lostSend s mv = []) :
    News s mv s' := by
  refine .ran heard [] hraised hheard ?_ (by simp) (by simp [hentered, hlost])
  unfold Threads.due
  rw [hcalls]
  exact List.Perm.refl _

/-- A section of an API call, after which its event may be due. -/
theorem News.called (result : Except CoreError Unit) (event : PluginEvent)
    (hraised : s'.guarded.raised = s.guarded.raised)
    (hcalls : s'.due.Perm ((raises result event).toList.filterMap Call.due ++ s.due))
    (hfalls : result = .ok () → Falls s mv event)
    (hsent : ((raises result event).toList.filterMap Call.due).filter PluginEvent.isSent =
      enteredSend s mv ++ lostSend s mv) : News s mv s' := by
  refine .ran [] _ (by simpa using hraised) (by simp) hcalls ?_ hsent
  intro e he
  obtain ⟨hok, rfl⟩ := mem_due_raises he
  exact hfalls hok

omit [MessageStore σ] in
/-- A call that is not past its last section leaves the list with nothing due. -/
theorem due_eraseIdx {i : ℕ} {call : Call} (hcall : s.calls[i]? = some call)
    (hdue : call.due = none) : ((s.calls.eraseIdx i).filterMap Call.due).Perm s.due := by
  obtain ⟨hlt, hget⟩ := List.getElem?_eq_some_iff.mp hcall
  have hperm := (List.getElem_cons_eraseIdx_perm hlt).filterMap Call.due
  rwa [hget, List.filterMap_cons_none hdue] at hperm

omit [MessageStore σ] in
theorem filter_raises {result : Except CoreError Unit} {event : PluginEvent}
    (h : event.isSent = false) :
    ((raises result event).toList.filterMap Call.due).filter PluginEvent.isSent = [] := by
  rw [List.filter_eq_nil_iff]
  intro e he
  obtain ⟨-, rfl⟩ := mem_due_raises he
  simp [h]

variable [LawfulMessageStore σ]

/-- The section of a send: its event is due when it recorded the message, or lost it. -/
theorem news_sent {i : ℕ} {faults : Faults} {answer : Except ClientError Unit} {nowMs : UInt64}
    {id content : String} (hcall : s.calls[i]? = some (.sent id content))
    (hstep : s.step (.proceed i faults answer nowMs) = some s') :
    News s (.proceed i faults answer nowMs) s' := by
  simp only [Threads.step, hcall] at hstep
  cases hstep
  refine .called (sendMessageLocked faults id content nowMs s.guarded).2 _
    (recordMessage_raised _ _ _ _) ?_ (fun _ => .sent rfl hcall) ?_
  · unfold Threads.due
    simp only [Threads.display, Call.proceed, List.filterMap_append]
    exact (due_eraseIdx hcall rfl).append_left _
  · simp only [enteredSend, lostSend, hcall]
    cases hget : s.guarded.chats.get id with
    | none =>
      rw [sendMessageLocked_of_get_none hget]
      have hgone : ¬ Entered id content nowMs s.guarded s.guarded := by
        rintro ⟨hlist, -⟩
        simp at hlist
      simp [raises, goesOn, Call.due, PluginEvent.isSent, hgone]
    | some session =>
      have hok : (sendMessageLocked faults id content nowMs s.guarded).2 = .ok () ↔
          Entered id content nowMs s.guarded
            (sendMessageLocked faults id content nowMs s.guarded).1 :=
        sendMessageLocked_ok_iff hget
      by_cases hentered : Entered id content nowMs s.guarded
        (sendMessageLocked faults id content nowMs s.guarded).1
      · rw [hok.mpr hentered, if_pos hentered]
        rfl
      · rw [if_neg hentered]
        cases hresult : (sendMessageLocked faults id content nowMs s.guarded).2 with
        | error e => rfl
        | ok u => exact absurd (hok.mp hresult) hentered

theorem news_proceed {i : ℕ} {faults : Faults} {answer : Except ClientError Unit} {nowMs : UInt64}
    (hnamed : Named s) (hstep : s.step (.proceed i faults answer nowMs) = some s') :
    News s (.proceed i faults answer nowMs) s' := by
  cases hcall : s.calls[i]? with
  | none => simp [Threads.step, hcall] at hstep
  | some call =>
    cases call with
    | sent id content => exact news_sent hcall hstep
    | raising event =>
      simp only [Threads.step, hcall] at hstep
      cases hstep
      exact .raised rfl hcall rfl rfl
    | sendChecked id content =>
      simp only [Threads.step, hcall] at hstep
      cases hstep
      refine .ran [] [] (by simp [Threads.display, Call.proceed]) (by simp) ?_ (by simp)
        (by simp [enteredSend, lostSend, hcall])
      unfold Threads.due
      simp only [Threads.display, Call.proceed, List.filterMap_append]
      rw [due_goesOn fun _ => rfl]
      exact due_eraseIdx hcall rfl
    | created session event =>
      have hmem := List.mem_of_getElem? hcall
      simp only [Threads.step, hcall] at hstep
      cases hstep
      refine .called (insertChat faults session s.guarded).2 event
        (persistChat_raised _ _ _) ?_ (fun _ => .created hmem) ?_
      · unfold Threads.due
        simp only [Threads.display, Call.proceed, List.filterMap_append]
        exact (due_eraseIdx hcall rfl).append_left _
      · obtain ⟨label, kind, name, desc, rfl⟩ := hnamed session event hmem
        rw [filter_raises rfl]
        simp [enteredSend, lostSend, hcall]
    | inviteChecked id =>
      simp only [Threads.step, hcall] at hstep
      cases hstep
      refine .called (withClient s.world answer) (.conversationUpdated id)
        rfl ?_ (fun hok => .invited rfl hcall hok) ?_
      · unfold Threads.due
        simp only [Threads.display, Call.proceed, List.filterMap_append]
        exact (due_eraseIdx hcall rfl).append_left _
      · rw [filter_raises rfl]
        simp [enteredSend, lostSend, hcall]

/-- What any step announces. -/
theorem news_of_step (hnamed : Named s) (hstep : s.step mv = some s') : News s mv s' := by
  cases mv with
  | proceed i faults answer nowMs => exact news_proceed hnamed hstep
  | init config env =>
    cases hstep
    have hraised : ∃ heard, (Actions.init config env s.world).world.guarded.raised =
        s.guarded.raised ++ heard ∧ ∀ e ∈ heard, ∃ state detail adopted,
          e = .deliveryStateChanged state detail adopted := by
      rcases init_cases config env s.world with ⟨-, g, ms, hinit, heq⟩ | ⟨-, heq⟩ | ⟨-, e, -, heq⟩
      · obtain ⟨live, -, hseeded⟩ := initializeModule_ok hinit
        rw [heq]
        exact ⟨[], by simpa using hseeded.raised, by simp⟩
      · rw [heq]
        unfold claimDeliveryRetry setDeliveryState
        simp only
        split
        · exact ⟨[], by simp, by simp⟩
        · split
          · exact ⟨[], by simp, by simp⟩
          · exact ⟨[_], rfl, fun e he => ⟨_, _, _, List.mem_singleton.mp he⟩⟩
      · rw [heq]
        exact ⟨[], by simp, by simp⟩
    obtain ⟨heard, hraised, hheard⟩ := hraised
    refine .handled _ hraised ?_ rfl rfl rfl
    intro e he
    obtain ⟨state, detail, adopted, rfl⟩ := hheard e he
    exact ⟨rfl, (by intro id h; cases h), by intro id h; cases h⟩
  | shutdown =>
    simp only [Threads.step] at hstep
    split at hstep <;> cases hstep
    exact .silent (shutdown_raised s.world) rfl rfl rfl
  | setInstallationName faults name =>
    cases hstep
    exact .silent (setInstallationName_raised _ _ _) rfl rfl rfl
  | createConversation | createGroupConversation | addGroupMember | sendMessage =>
    cases hstep
    exact .silent rfl (due_go fun _ => rfl) rfl rfl
  | setConversationNickname faults convoId nickname =>
    cases hstep
    refine .called (setConversationNicknameLocked faults convoId nickname s.guarded).2
      (.conversationUpdated convoId) (setConversationNicknameLocked_raised _ _ _ _)
      ?_ ?_ (filter_raises rfl)
    · simp only [Threads.due, Threads.display, List.filterMap_append]
      exact List.Perm.refl _
    · intro hok
      refine .nicknamed ?_
      rcases setConversationNicknameLocked_cases faults convoId nickname s.guarded with
        ⟨-, heq⟩ | ⟨session, hget, -⟩
      · rw [heq] at hok
        cases hok
      · simp [hget]
  | deleteConversation faults convoId =>
    cases hstep
    refine .called (deleteConversationLocked faults convoId s.guarded).2
      (.conversationDeleted convoId) (deleteConversationLocked_raised _ _ _)
      ?_ (fun hok => .deleted rfl hok) (filter_raises rfl)
    simp only [Threads.due, Threads.display, List.filterMap_append]
    exact List.Perm.refl _
  | conversationStarted convoId kind answer =>
    simp only [Threads.step] at hstep
    split at hstep <;> cases hstep
    exact .silent rfl rfl rfl rfl
  | conversationRecorded faults =>
    simp only [Threads.step] at hstep
    split at hstep
    · cases hstep
    · next started hstarted =>
      cases hstep
      refine .handled _ (recordConversationStartedLocked_raised _ _ _ _ _) ?_ rfl rfl rfl
      have habout : (Move.conversationRecorded faults).about s = some started.convoId := by
        simp [Move.about, hstarted]
      intro e he
      split at he
      · cases he
      · split at he
        · split at he
          · obtain rfl := List.mem_singleton.mp he
            exact ⟨rfl, (by intro id h; cases h), fun id h => by rw [habout]; exact h⟩
          · cases he
        · obtain rfl := List.mem_singleton.mp he
          exact ⟨rfl, (by intro id h; cases h), fun id h => by rw [habout]; exact h⟩
  | messageReceived faults convoId content account installation nowMs =>
    simp only [Threads.step] at hstep
    split at hstep <;> cases hstep
    refine .handled _ (recordMessageReceived_raised _ _ _ _ _ _ _) ?_ rfl rfl rfl
    intro e he
    split at he
    · cases he
    · obtain rfl := List.mem_singleton.mp he
      exact ⟨rfl, (by intro id h; cases h), fun id h => h⟩
  | membersChanged convoId =>
    simp only [Threads.step] at hstep
    split at hstep <;> cases hstep
    refine .handled (if convoId ∈ s.guarded.deleted ∨
      s.guarded.chats.contains convoId = false then [] else [.membersChanged convoId]) ?_ ?_ rfl rfl
      rfl
    · simp only [Threads.display, recordMembersChanged]
      split
      · exact (List.append_nil _).symm
      · rfl
    · intro e he
      split at he
      · cases he
      · obtain rfl := List.mem_singleton.mp he
        exact ⟨rfl, (by intro id h; cases h), fun id h => h⟩

end Steps

/-! ## After a deletion -/

/-- A conversation is gone, and not listed even while no session is installed. -/
structure Silenced (id : String) (s : Threads σ) : Prop where
  buried : Buried id s
  unlisted : s.guarded.chats.get id = none

/-- What libchat and the callers keep to: a create returns the id of a new conversation,
and none is deleted before its create has returned. -/
structure Proper (s : Threads σ) (mv : Move) : Prop where
  fresh : Fresh s mv
  returned : ∀ faults id, mv = .deleteConversation faults id → id ∉ s.creating

/-- Nothing of a deletion, raised or due, is left to interfere with. -/
structure Hushed (s : Threads σ) : Prop where
  sound : Sound s
  named : Named s
  silenced : ∀ id, .conversationDeleted id ∈ s.guarded.raised ++ s.due → Silenced id s

section Silence

variable [LawfulMessageStore σ] {s s' : Threads σ} {g : Guarded σ} {mv : Move} {id : String}

/-- No section lists a silenced conversation, with a session or without. -/
theorem Ran.unlisted (hran : Ran s g) (hsound : Sound s) (h : Silenced id s) :
    g.chats.get id = none := by
  cases hm : s.world.module with
  | some ms => exact (hran.gone (h.buried.gone (by simp [hm])) h.buried.creates).chat
  | none =>
    have hidle : s.listening = false := by simp [Threads.listening, hm]
    cases hran with
    | nothing => exact h.unlisted
    | raise event => exact h.unlisted
    | setInstallationName faults name =>
      rw [(setInstallationName_sameAt _ _ _).chat]
      exact h.unlisted
    | insertChat faults hmem =>
      have hid : id ≠ _ := (h.buried.creates _ _ hmem).symm
      exact (persistChat_put_sameAt hid faults s.guarded).chat.trans h.unlisted
    | setConversationNickname faults convoId nickname =>
      by_cases hid : id = convoId
      · subst hid
        rw [setConversationNicknameLocked_of_get_none h.unlisted]
        exact h.unlisted
      · rw [(setConversationNicknameLocked_sameAt hid _ _ _).chat]
        exact h.unlisted
    | deleteConversation faults convoId =>
      by_cases hid : id = convoId
      · subst hid
        rw [deleteConversationLocked_of_get_none h.unlisted]
        exact h.unlisted
      · rw [(deleteConversationLocked_sameAt hid _ _).chat]
        exact h.unlisted
    | sendMessage faults convoId content nowMs =>
      by_cases hid : id = convoId
      · subst hid
        rw [sendMessageLocked_of_get_none h.unlisted]
        exact h.unlisted
      · exact (recordMessage_sameAt hid faults _ s.guarded).chat.trans h.unlisted
    -- the consumer lives no longer than its session
    | conversationRecorded faults hstarted =>
      have hinstalled := hsound.consumer (by simp [hstarted])
      simp [hm] at hinstalled
    | messageReceived faults convoId content account installation nowMs hlisten =>
      simp [hidle] at hlisten
    | membersChanged convoId hlisten => simp [hidle] at hlisten

theorem silenced_step (hsound : Sound s) (hfresh : Fresh s mv) (hstep : s.step mv = some s')
    (h : Silenced id s) : Silenced id s' := by
  have hburied := buried_step hsound hfresh hstep h.buried
  refine ⟨hburied, ?_⟩
  by_cases hm : s'.world.module.isSome
  · exact (hburied.gone hm).chat
  · rcases step_cases hstep with ⟨config, env, rfl, hworld⟩ | ⟨rfl, -, hworld⟩ | ⟨g, hran, hworld⟩
    · rcases init_cases config env s.world with ⟨-, g, ms, -, heq⟩ | ⟨hsome, heq⟩ | ⟨-, e, -, heq⟩
      · simp [hworld, heq] at hm
      · simp [hworld, heq, hsome] at hm
      · rw [Threads.guarded, hworld, heq]
        exact h.unlisted
    · rw [Threads.guarded, hworld]
      cases hbefore : s.world.module with
      | none =>
        rw [shutdown_of_none hbefore]
        exact h.unlisted
      | some ms =>
        rw [Guarded.chats, shutdown_display (by simp [hbefore])]
        rfl
    · rw [Threads.guarded, hworld]
      exact hran.unlisted hsound h

/-- A deletion whose event falls due has silenced the conversation. -/
theorem silenced_of_deleted {faults : Faults} (hsound : Sound s) (hreturned : id ∉ s.creating)
    (hok : (deleteConversationLocked faults id s.guarded).2 = .ok ())
    (hstep : s.step (.deleteConversation faults id) = some s') : Silenced id s' := by
  have hcreate : ∀ session event, .created session event ∈ s.calls → session.chatId ≠ id := by
    rintro session event hmem rfl
    exact hreturned (mem_creating.mpr ⟨session, event, hmem, rfl⟩)
  obtain ⟨hburied, -⟩ := buried_of_deleted hsound hok hcreate hstep
  refine ⟨hburied, ?_⟩
  cases hstep
  change (deleteConversationLocked faults id s.guarded).1.chats.get id = none
  rcases deleteConversationLocked_cases faults id s.guarded with ⟨e, heq⟩ | ⟨-, -, heq⟩
  · rw [heq] at hok
    cases hok
  · rw [heq]
    simp [Keyed.get_remove]

theorem hushed_step (hproper : Proper s mv) (hstep : s.step mv = some s') (h : Hushed s) :
    Hushed s' := by
  refine ⟨sound_step hstep h.sound, named_step hstep h.named, ?_⟩
  have hold : ∀ id, .conversationDeleted id ∈ s.guarded.raised ++ s.due → Silenced id s' :=
    fun id hmem => silenced_step h.sound hproper.fresh hstep (h.silenced id hmem)
  intro id hmem
  cases news_of_step h.named hstep with
  | @raised i faults answer nowMs event hmv hcall hraised hcalls =>
    have hdue : event ∈ s.due := mem_due.mpr (List.mem_of_getElem? hcall)
    rw [hraised, Threads.due, hcalls] at hmem
    apply hold
    simp only [List.mem_append, List.mem_singleton] at hmem ⊢
    rcases hmem with (hbefore | rfl) | hrest
    · exact Or.inl hbefore
    · exact Or.inr hdue
    · exact Or.inr (mem_due.mpr (List.mem_of_mem_eraseIdx (mem_due.mp hrest)))
  | ran heard next hraised hheard hdue hnext _ =>
    rw [hraised] at hmem
    simp only [List.mem_append] at hmem
    rcases hmem with (hbefore | hnow) | hthen
    · exact hold id (List.mem_append_left _ hbefore)
    · exact absurd rfl ((hheard _ hnow).deleted id)
    · rcases List.mem_append.mp (hdue.mem_iff.mp hthen) with hnew | hbefore
      · -- only a deletion has that event due
        cases hnext _ hnew with
        | created hcreated =>
          obtain ⟨label, kind, name, desc, heq⟩ := h.named _ _ hcreated
          cases heq
        | deleted hmv hok =>
          subst hmv
          exact silenced_of_deleted h.sound (hproper.returned _ _ rfl) hok hstep
      · exact hold id (List.mem_append_right _ hbefore)

end Silence

/-! ## Runs -/

/-- No call about a conversation is overtaken by its deletion: when
`conversation_deleted(id)` is raised no other event about `id` is due, the section of a
send finds its conversation, and libchat takes no invite after the deletion was raised. -/
def Prompt (s : Threads σ) : Move → Prop
  | .proceed i _ answer _ =>
    match s.calls[i]? with
    | some (.raising (.conversationDeleted id)) =>
      ∀ event ∈ (s.calls.eraseIdx i).filterMap Call.due, event.convoId ≠ some id
    | some (.sent id _) => (s.guarded.chats.get id).isSome
    | some (.inviteChecked id) =>
      withClient s.world answer = .ok () → .conversationDeleted id ∉ s.guarded.raised
    | _ => True
  | _ => True

/-- No event names a conversation after its deletion was raised. -/
def LastWord (raised : List PluginEvent) : Prop :=
  raised.Pairwise fun earlier later =>
    ∀ id, earlier = .conversationDeleted id → later.convoId ≠ some id

/-- Nothing is announced after the deletion, and every `message_sent` is for a message
that was recorded. -/
structure Announced (entered raised : List PluginEvent) : Prop where
  last : LastWord raised
  recorded : ∀ id content timestampMs,
    raised.count (.messageSent id content timestampMs) ≤
      entered.count (.messageSent id content timestampMs)

/-- How often an event was raised or is due. -/
def Threads.tally (s : Threads σ) (event : PluginEvent) : ℕ :=
  (s.guarded.raised ++ s.due).count event

/-- An event about a deleted conversation is due though its deletion was raised, or it
was raised already. -/
def Overtaken (s : Threads σ) : Prop :=
  ¬ LastWord s.guarded.raised ∨ ∃ id, .conversationDeleted id ∈ s.guarded.raised ∧
    ∃ event ∈ s.due, event.convoId = some id

/-- No deletion has been overtaken. -/
structure InTurn (s : Threads σ) : Prop where
  hushed : Hushed s
  last : LastWord s.guarded.raised
  due : ∀ id, .conversationDeleted id ∈ s.guarded.raised → ∀ e ∈ s.due, e.convoId ≠ some id

section Runs

variable {s s' s₀ : Threads σ} {mv : Move} {moves : List Move} {id content : String}
  {timestampMs : Int64}

omit [MessageStore σ] in
theorem lastWord_append {raised heard : List PluginEvent} :
    LastWord (raised ++ heard) ↔ LastWord raised ∧ LastWord heard ∧
      ∀ id, .conversationDeleted id ∈ raised → ∀ e ∈ heard, e.convoId ≠ some id := by
  unfold LastWord
  rw [List.pairwise_append]
  constructor
  · rintro ⟨hbefore, hnow, hacross⟩
    exact ⟨hbefore, hnow, fun id hmem e he => hacross _ hmem e he id rfl⟩
  · rintro ⟨hbefore, hnow, hacross⟩
    refine ⟨hbefore, hnow, ?_⟩
    rintro _ hmem e he id rfl
    exact hacross id hmem e he

omit [MessageStore σ] in
theorem count_eraseIdx_due {i : ℕ} {event e : PluginEvent}
    (hcall : s.calls[i]? = some (.raising event)) :
    s.due.count e = ((s.calls.eraseIdx i).filterMap Call.due).count e + [event].count e := by
  obtain ⟨hlt, hget⟩ := List.getElem?_eq_some_iff.mp hcall
  have hperm := (List.getElem_cons_eraseIdx_perm hlt).filterMap Call.due
  rw [hget] at hperm
  rw [Threads.due, ← hperm.count_eq e, Nat.add_comm]
  show ([event] ++ (s.calls.eraseIdx i).filterMap Call.due).count e = _
  exact List.count_append

variable [LawfulMessageStore σ]

/-- A step adds to the `message_sent` events those of sends that recorded their message
and those of sends that lost it. -/
theorem tally_step (hnamed : Named s) (hstep : s.step mv = some s') :
    s'.tally (.messageSent id content timestampMs) =
      s.tally (.messageSent id content timestampMs) +
        ((enteredSend s mv).count (.messageSent id content timestampMs) +
          (lostSend s mv).count (.messageSent id content timestampMs)) := by
  unfold Threads.tally
  rw [List.count_append, List.count_append]
  cases news_of_step hnamed hstep with
  | raised hmv hcall hraised hcalls =>
    have hdue := count_eraseIdx_due (e := .messageSent id content timestampMs) hcall
    have hnone : enteredSend s mv = [] ∧ lostSend s mv = [] := by
      subst hmv
      simp [enteredSend, lostSend, hcall]
    rw [hraised, List.count_append, hnone.1, hnone.2, Threads.due, hcalls]
    simp only [List.count_nil]
    omega
  | ran heard next hraised hheard hdue hnext hsent =>
    have hnot : heard.count (.messageSent id content timestampMs) = 0 := by
      rw [List.count_eq_zero]
      intro hmem
      exact Bool.noConfusion (hheard _ hmem).sent
    have hnew : next.count (.messageSent id content timestampMs) =
        (enteredSend s mv ++ lostSend s mv).count (.messageSent id content timestampMs) := by
      rw [← hsent, List.count_filter rfl]
    rw [hraised, List.count_append, hnot, hdue.count_eq, List.count_append, hnew,
      List.count_append]
    omega

theorem tally_run (id content : String) (timestampMs : Int64) (hnamed : Named s₀)
    (hrun : (interleaved σ).Run Proper s₀ moves s) :
    s.tally (.messageSent id content timestampMs) =
      s₀.tally (.messageSent id content timestampMs) +
        (((interleaved σ).output enteredSend s₀ moves).count (.messageSent id content timestampMs) +
          ((interleaved σ).output lostSend s₀ moves).count
            (.messageSent id content timestampMs)) := by
  induction hrun with
  | nil s => simp [Machine.output]
  | cons _ hs _ ih =>
    rw [Machine.output_cons hs, Machine.output_cons hs, List.count_append, List.count_append,
      ih (named_step hs hnamed), tally_step hnamed hs]
    omega

/-- A prompt step overtakes no deletion. -/
theorem inTurn_step (hproper : Proper s mv) (hprompt : Prompt s mv) (hstep : s.step mv = some s')
    (h : InTurn s) : InTurn s' := by
  have hhushed := hushed_step hproper hstep h.hushed
  cases news_of_step h.hushed.named hstep with
  | @raised i faults answer nowMs event hmv hcall hraised hcalls =>
    subst hmv
    have hdue : event ∈ s.due := mem_due.mpr (List.mem_of_getElem? hcall)
    refine ⟨hhushed, ?_, ?_⟩
    · rw [hraised, lastWord_append]
      refine ⟨h.last, List.pairwise_singleton _ _, ?_⟩
      intro id hmem e he
      obtain rfl := List.mem_singleton.mp he
      exact h.due id hmem e hdue
    · intro id hmem e he
      rw [hraised, List.mem_append, List.mem_singleton] at hmem
      rw [Threads.due, hcalls] at he
      rcases hmem with hbefore | rfl
      · exact h.due id hbefore e
          (mem_due.mpr (List.mem_of_mem_eraseIdx (mem_due.mp he)))
      · simp only [Prompt, hcall] at hprompt
        exact hprompt e he
  | ran heard next hraised hheard hdue hnext _ =>
    -- a handler is silent about a conversation that is gone
    have hsilent : ∀ id, .conversationDeleted id ∈ s.guarded.raised → ∀ e ∈ heard,
        e.convoId ≠ some id := by
      intro id hmem e he habout
      have hburied := (h.hushed.silenced id (List.mem_append_left _ hmem)).buried
      have hsame := buried_silent h.hushed.sound hburied ((hheard e he).about id habout) hstep
      rw [Threads.guarded, hsame] at hraised
      rw [List.self_eq_append_right.mp hraised] at he
      cases he
    refine ⟨hhushed, ?_, ?_⟩
    · rw [hraised, lastWord_append]
      refine ⟨h.last, ?_, hsilent⟩
      unfold LastWord
      apply List.pairwise_of_forall_mem_list
      rintro a ha b hb id rfl
      exact absurd rfl ((hheard _ ha).deleted id)
    · intro id hmem e he habout
      have hbefore : .conversationDeleted id ∈ s.guarded.raised := by
        rw [hraised, List.mem_append] at hmem
        exact hmem.resolve_right fun hnow => absurd rfl ((hheard _ hnow).deleted id)
      have hgone := h.hushed.silenced id (List.mem_append_left _ hbefore)
      rcases List.mem_append.mp (hdue.mem_iff.mp he) with hnew | hold
      · -- what falls due is about a conversation that is listed
        cases hnext e hnew with
        | @sent i faults answer nowMs convoId content hmv hcall =>
          subst hmv
          obtain rfl : convoId = id := Option.some.inj habout
          simp [Prompt, hcall, hgone.unlisted] at hprompt
        | @created session event hmem =>
          obtain ⟨label, kind, name, desc, rfl⟩ := h.hushed.named _ _ hmem
          exact hgone.buried.creates session _ hmem (Option.some.inj habout)
        | @invited i faults answer nowMs convoId hmv hcall hok =>
          subst hmv
          obtain rfl : convoId = id := Option.some.inj habout
          simp only [Prompt, hcall] at hprompt
          exact hprompt hok hbefore
        | @nicknamed convoId hlisted =>
          obtain rfl : convoId = id := Option.some.inj habout
          simp [hgone.unlisted] at hlisted
        | @deleted faults convoId hmv hok =>
          obtain rfl : convoId = id := Option.some.inj habout
          rw [deleteConversationLocked_of_get_none hgone.unlisted] at hok
          cases hok
      · exact h.due id hbefore e hold habout

/-- What is overtaken stays so. -/
theorem overtaken_step (hnamed : Named s) (hstep : s.step mv = some s') (h : Overtaken s) :
    Overtaken s' := by
  cases news_of_step hnamed hstep with
  | @raised i faults answer nowMs event hmv hcall hraised hcalls =>
    rcases h with hbroken | ⟨id, hmem, e, he, habout⟩
    · left
      rw [hraised, lastWord_append]
      exact fun hlast => hbroken hlast.1
    · by_cases heq : e = event
      · left
        rw [hraised, lastWord_append]
        rintro ⟨-, -, hacross⟩
        exact hacross id hmem e (by simp [heq]) habout
      · right
        refine ⟨id, by simp [hraised, hmem], e, ?_, habout⟩
        have hcount := count_eraseIdx_due (e := e) hcall
        rw [List.count_singleton, if_neg (by simpa using Ne.symm heq), Nat.add_zero] at hcount
        rw [Threads.due, hcalls, ← List.count_pos_iff, ← hcount, List.count_pos_iff]
        exact he
  | ran heard next hraised hheard hdue hnext _ =>
    rcases h with hbroken | ⟨id, hmem, e, he, habout⟩
    · left
      rw [hraised, lastWord_append]
      exact fun hlast => hbroken hlast.1
    · right
      refine ⟨id, by simp [hraised, hmem], e, ?_, habout⟩
      exact hdue.mem_iff.mpr (List.mem_append_right _ he)

omit [MessageStore σ] [LawfulMessageStore σ] in
/-- A prompt send finds its conversation. -/
theorem lostSend_of_prompt (h : Prompt s mv) : lostSend s mv = [] := by
  cases mv with
  | proceed i faults answer nowMs =>
    cases hcall : s.calls[i]? with
    | none => simp [lostSend, hcall]
    | some call =>
      cases call with
      | sent convoId content =>
        simp only [Prompt, hcall] at h
        simp [lostSend, hcall, Option.isSome_iff_ne_none.mp h]
      | _ => simp [lostSend, hcall]
  | _ => rfl

omit [LawfulMessageStore σ] in
/-- A step that is not prompt loses a send, or overtakes a deletion. -/
theorem overtaken_of_not_prompt (hstep : s.step mv = some s')
    (h : ¬ Prompt s mv) :
    (∃ id content timestampMs, .messageSent id content timestampMs ∈ lostSend s mv) ∨
      Overtaken s' := by
  cases mv with
  | proceed i faults answer nowMs =>
    cases hcall : s.calls[i]? with
    | none => simp [Threads.step, hcall] at hstep
    | some call =>
      cases call with
      | raising event =>
        cases event with
        | conversationDeleted id =>
          simp only [Prompt, hcall, not_forall, not_not] at h
          obtain ⟨e, he, habout⟩ := h
          simp only [Threads.step, hcall] at hstep
          cases hstep
          refine Or.inr (Or.inr ⟨id, ?_, e, he, habout⟩)
          exact List.mem_append_right _ (List.mem_singleton_self _)
        | _ => simp [Prompt, hcall] at h
      | sent id content =>
        refine Or.inl ⟨id, content, nowMs.toInt64, ?_⟩
        simp only [Prompt, hcall] at h
        simp only [lostSend, hcall, Option.not_isSome_iff_eq_none.mp h]
        exact List.mem_singleton_self _
      | inviteChecked id =>
        simp only [Prompt, hcall, not_forall, not_not] at h
        obtain ⟨hok, hmem⟩ := h
        simp only [Threads.step, hcall] at hstep
        cases hstep
        refine Or.inr (Or.inr ⟨id, hmem, .conversationUpdated id, ?_, rfl⟩)
        simp [Call.proceed, Threads.display, Threads.due, hok, raises, goesOn, Call.due]
      | _ => simp [Prompt, hcall] at h
  | _ => exact absurd trivial h

omit [LawfulMessageStore σ] in
theorem inTurn_start (file : ChatDb σ) (own : Option String) : InTurn (Threads.start file own) where
  hushed := by
    refine ⟨sound_start file own, ?_, ?_⟩
    · intro session event hmem
      cases hmem
    · intro id hmem
      cases hmem
  last := List.Pairwise.nil
  due := by
    intro id hmem
    cases hmem

/-- Whatever the calls and the client's events: while every step is prompt nothing is
announced of a conversation after its deletion, and every `message_sent` is for a message
that was appended to its list and written. A run that leaves no call in flight announces
that way only if each of its steps was prompt. -/
theorem announced_iff_prompt {file : ChatDb σ} {own : Option String}
    (hrun : (interleaved σ).Run Proper (Threads.start file own) moves s) :
    ((interleaved σ).Run (fun s mv => Proper s mv ∧ Prompt s mv) (Threads.start file own) moves s →
      Announced ((interleaved σ).output enteredSend (Threads.start file own) moves)
        s.guarded.raised) ∧
    (s.calls = [] →
      Announced ((interleaved σ).output enteredSend (Threads.start file own) moves)
        s.guarded.raised →
      (interleaved σ).Run (fun s mv => Proper s mv ∧ Prompt s mv)
        (Threads.start file own) moves s) := by
  have hnamed := (inTurn_start file own).hushed.named
  constructor
  · intro hprompt
    have hturn : InTurn s :=
      hprompt.invariant (fun s mv s' hP hstep h => inTurn_step hP.1 hP.2 hstep h)
        (inTurn_start file own)
    have hlost : (interleaved σ).output lostSend (Threads.start file own) moves = [] := by
      clear hrun hturn
      generalize Threads.start file own = s₀ at hprompt
      induction hprompt with
      | nil s => rfl
      | cons hP hs _ ih =>
        rw [Machine.output_cons hs, lostSend_of_prompt hP.2, ih]
        rfl
    refine ⟨hturn.last, ?_⟩
    intro id content timestampMs
    have htally := tally_run id content timestampMs hnamed hrun
    have hraised : s.guarded.raised.count (.messageSent id content timestampMs) ≤
        s.tally (.messageSent id content timestampMs) := by
      unfold Threads.tally
      rw [List.count_append]
      omega
    have hnone : (Threads.start file own).tally (.messageSent id content timestampMs) = 0 := rfl
    rw [hlost, List.count_nil] at htally
    omega
  · intro hidle hannounced
    refine hrun.and_of_forall ?_
    intro pre mv post s₁ s₂ hsplit hpre hproper hstep hpost
    by_contra hprompt
    have hnamed₁ : Named s₁ := hpre.invariant (fun _ _ _ _ hs h => named_step hs h) hnamed
    rcases overtaken_of_not_prompt hstep hprompt with
      ⟨id, content, timestampMs, hmem⟩ | hovertaken
    · -- there are more of this event than messages recorded
      have htally := tally_run id content timestampMs hnamed hrun
      have hnone : (Threads.start file own).tally (.messageSent id content timestampMs) = 0 := rfl
      have hraised : s.tally (.messageSent id content timestampMs) =
          s.guarded.raised.count (.messageSent id content timestampMs) := by
        simp [Threads.tally, Threads.due, hidle]
      have hlost : 0 < ((interleaved σ).output lostSend (Threads.start file own) moves).count
          (.messageSent id content timestampMs) := by
        rw [hsplit, hpre.output_append, Machine.output_cons hstep, List.count_pos_iff]
        exact List.mem_append_right _ (List.mem_append_left _ hmem)
      have hle := hannounced.recorded id content timestampMs
      omega
    · have hkeeps : Overtaken s ∧ Named s :=
        hpost.invariant (I := fun s => Overtaken s ∧ Named s)
          (fun _ _ _ _ hs h => ⟨overtaken_step h.2 hs h.1, named_step hs h.2⟩)
          ⟨hovertaken, named_step hstep hnamed₁⟩
      rcases hkeeps.1 with hbroken | ⟨id, -, e, he, -⟩
      · exact hbroken hannounced.last
      · simp [Threads.due, hidle] at he

end Runs

/-! ### A send beside a deletion -/

/-- A session in which a conversation is created and deleted, with other moves before and
after the deletion. -/
def deleting (before after : List Move) : List Move :=
  .init ⟨none⟩ (.up ⟨"name", "addr"⟩ []) :: .createConversation (.ok "c1") "peer" ::
    (before ++ .deleteConversation noFaults "c1" :: after)

/-- The deletion comes between the check of a send and its section. -/
def overtaken : List Move := deleting [
  .proceed 0 noFaults (.ok ()) 0,
  .proceed 0 noFaults (.ok ()) 0,
  .sendMessage "c1" "hello"] [
  .proceed 0 noFaults (.ok ()) 0,
  .proceed 0 noFaults (.ok ()) 0,
  .proceed 0 noFaults (.ok ()) 3,
  .proceed 0 noFaults (.ok ()) 0]

/-- The deletion comes after the send has returned. -/
def inTurn : List Move := deleting [
  .proceed 0 noFaults (.ok ()) 0,
  .proceed 0 noFaults (.ok ()) 0,
  .sendMessage "c1" "hello",
  .proceed 0 noFaults (.ok ()) 0,
  .proceed 0 noFaults (.ok ()) 3,
  .proceed 0 noFaults (.ok ()) 0] [
  .proceed 0 noFaults (.ok ()) 0]

/-- Moves that are neither creates nor deletions. -/
def neither (mv : Move) : Bool :=
  match mv with
  | .createConversation .. | .createGroupConversation .. | .deleteConversation .. => false
  | _ => true

theorem Proper.of_neither {σ : Type} {mv : Move} (h : neither mv = true) (s : Threads σ) :
    Proper s mv := by
  refine ⟨?_, ?_⟩
  · intro id hid
    cases mv <;> simp_all [Move.created, neither]
  · rintro faults id rfl
    cases h

theorem proper_deleting {before after : List Move} {s₀ s₁ s₂ s₃ s : Threads LogStore}
    (hbefore : ∀ mv ∈ before, neither mv = true) (hafter : ∀ mv ∈ after, neither mv = true)
    (hinit : (Threads.start emptyDb none).step (.init ⟨none⟩ (.up ⟨"name", "addr"⟩ [])) = some s₀)
    (hcreate : s₀.step (.createConversation (.ok "c1") "peer") = some s₁)
    (hrun : (interleaved LogStore).exec s₁ before = some s₂)
    (hdelete : s₂.step (.deleteConversation noFaults "c1") = some s₃)
    (hrest : (interleaved LogStore).exec s₃ after = some s)
    (hnone : s₀.guarded.chats.get "c1" = none) (hnew : "c1" ∉ s₀.guarded.deleted)
    (hreturned : s₂.creating = []) :
    (interleaved LogStore).Run Proper (Threads.start emptyDb none) (deleting before after) s := by
  have hfresh : Proper s₀ (.createConversation (.ok "c1") "peer") := by
    refine ⟨?_, fun faults id heq => nomatch heq⟩
    intro id hid
    obtain rfl : "c1" = id := Option.some.inj hid
    exact ⟨hnone, hnew⟩
  have hdeleted : Proper s₂ (.deleteConversation noFaults "c1") := by
    refine ⟨fun id hid => (nomatch hid), ?_⟩
    intro faults id heq
    simp [hreturned]
  have hfirst := (Machine.run_of_exec hrun).imp fun mv hmv s _ =>
    Proper.of_neither (hbefore mv hmv) s
  have hlast := (Machine.run_of_exec hrest).imp fun mv hmv s _ =>
    Proper.of_neither (hafter mv hmv) s
  exact .cons (.of_neither rfl _) hinit
    (.cons hfresh hcreate (hfirst.append (.cons hdeleted hdelete hlast)))

theorem announced_in_turn : ∃ s : Threads LogStore,
    (interleaved LogStore).Run (fun s mv => Proper s mv ∧ Prompt s mv) (.start emptyDb none)
      inTurn s ∧
    s.guarded.raised = [directCreated "c1", .messageSent "c1" "hello" 3,
      .conversationDeleted "c1"] := by
  have hexec : ∃ s₀ s₁ s₂ s₃ s : Threads LogStore,
      (Threads.start emptyDb none).step (.init ⟨none⟩ (.up ⟨"name", "addr"⟩ [])) = some s₀ ∧
      s₀.step (.createConversation (.ok "c1") "peer") = some s₁ ∧
      (interleaved LogStore).exec s₁ [
        .proceed 0 noFaults (.ok ()) 0,
        .proceed 0 noFaults (.ok ()) 0,
        .sendMessage "c1" "hello",
        .proceed 0 noFaults (.ok ()) 0,
        .proceed 0 noFaults (.ok ()) 3,
        .proceed 0 noFaults (.ok ()) 0] = some s₂ ∧
      s₂.step (.deleteConversation noFaults "c1") = some s₃ ∧
      (interleaved LogStore).exec s₃ [.proceed 0 noFaults (.ok ()) 0] = some s ∧
      s₀.guarded.chats.get "c1" = none ∧ "c1" ∉ s₀.guarded.deleted ∧ s₂.creating = [] ∧
      s.calls = [] ∧ s.guarded.raised = [directCreated "c1", .messageSent "c1" "hello" 3,
        .conversationDeleted "c1"] ∧
      (interleaved LogStore).output enteredSend (.start emptyDb none) inTurn =
        [.messageSent "c1" "hello" 3] :=
    ⟨_, _, _, _, _, rfl, rfl, rfl, rfl, rfl, rfl, by decide, rfl, rfl, rfl, rfl⟩
  obtain ⟨s₀, s₁, s₂, s₃, s, hinit, hcreate, hrun, hdelete, hrest, hnone, hnew, hreturned, hidle,
    hraised, hentered⟩ := hexec
  have hproper : (interleaved LogStore).Run Proper (.start emptyDb none) inTurn s :=
    proper_deleting (by decide) (by decide) hinit hcreate hrun hdelete hrest hnone hnew hreturned
  have hannounced : Announced ((interleaved LogStore).output enteredSend (.start emptyDb none)
      inTurn) s.guarded.raised := by
    rw [hraised, hentered]
    refine ⟨?_, ?_⟩
    · simp [LastWord, directCreated, PluginEvent.convoId]
    · intro id content timestampMs
      simp [List.count_cons, directCreated]
  exact ⟨s, (announced_iff_prompt hproper).2 hidle hannounced, hraised⟩

/-- The last event comes after the deletion, and no message was recorded for it. -/
theorem announced_after_deletion : ∃ s : Threads LogStore,
    (interleaved LogStore).Run Proper (.start emptyDb none) overtaken s ∧
      s.guarded.raised = [directCreated "c1", .conversationDeleted "c1",
        .messageSent "c1" "hello" 3] ∧
      (interleaved LogStore).output enteredSend (.start emptyDb none) overtaken = [] ∧
      ¬ LastWord s.guarded.raised := by
  have hexec : ∃ s₀ s₁ s₂ s₃ s : Threads LogStore,
      (Threads.start emptyDb none).step (.init ⟨none⟩ (.up ⟨"name", "addr"⟩ [])) = some s₀ ∧
      s₀.step (.createConversation (.ok "c1") "peer") = some s₁ ∧
      (interleaved LogStore).exec s₁ [
        .proceed 0 noFaults (.ok ()) 0,
        .proceed 0 noFaults (.ok ()) 0,
        .sendMessage "c1" "hello"] = some s₂ ∧
      s₂.step (.deleteConversation noFaults "c1") = some s₃ ∧
      (interleaved LogStore).exec s₃ [
        .proceed 0 noFaults (.ok ()) 0,
        .proceed 0 noFaults (.ok ()) 0,
        .proceed 0 noFaults (.ok ()) 3,
        .proceed 0 noFaults (.ok ()) 0] = some s ∧
      s₀.guarded.chats.get "c1" = none ∧ "c1" ∉ s₀.guarded.deleted ∧ s₂.creating = [] ∧
      s.guarded.raised = [directCreated "c1", .conversationDeleted "c1",
        .messageSent "c1" "hello" 3] ∧
      (interleaved LogStore).output enteredSend (.start emptyDb none) overtaken = [] :=
    ⟨_, _, _, _, _, rfl, rfl, rfl, rfl, rfl, rfl, by decide, rfl, rfl, rfl⟩
  obtain ⟨s₀, s₁, s₂, s₃, s, hinit, hcreate, hrun, hdelete, hrest, hnone, hnew, hreturned, hraised,
    hentered⟩ := hexec
  exact ⟨s, proper_deleting (by decide) (by decide) hinit hcreate hrun hdelete hrest hnone hnew
    hreturned, hraised, hentered, by simp [hraised, LastWord, PluginEvent.convoId]⟩

end ChatModule
