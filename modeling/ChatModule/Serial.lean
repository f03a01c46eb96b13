import Mathlib.Tactic.Abel
import ChatModule.Announced
import ChatModule.Creating
import ChatModule.Restart

/-!
# Interleaved calls, one after the other

Each call and each handler has one section that changes anything. Run one at a time, in
the order in which those sections ran, the same calls and handlers leave the same display
and the same file (`serialised`), so what holds of the sequential machine holds of what
interleaved calls leave. It takes one promise: a shutdown finds no call between two of its
sections (`PastSections`).

The events are the same too, in another order, but for those of sends and invitations whose
last section came after the deletion of their conversation (`overrun`): one at a time they
would have failed.
-/

namespace ChatModule

open Actions Persistence

variable {σ : Type}

/-! ## Sections and what was raised before them -/

/-- The same display and file, with `raised` raised so far. -/
def Guarded.recall (g : Guarded σ) (raised : List PluginEvent) : Guarded σ :=
  { g with raised := raised }

section Recall

variable (g : Guarded σ) (r : List PluginEvent) (faults : Faults) (id : String)

@[simp] theorem Guarded.display_recall : (g.recall r).display = g.display := rfl
@[simp] theorem Guarded.file_recall : (g.recall r).file = g.file := rfl
@[simp] theorem Guarded.chats_recall : (g.recall r).chats = g.chats := rfl
@[simp] theorem Guarded.raised_recall : (g.recall r).raised = r := rfl

theorem checkLive_recall : checkLive id (g.recall r) = checkLive id g := rfl

theorem persistChat_recall : persistChat faults id (g.recall r) =
    ((persistChat faults id g).1.recall r, (persistChat faults id g).2) := by
  unfold persistChat
  simp only [Guarded.display_recall]
  cases g.display.chatDb with
  | none => rfl
  | some conn =>
    rw [Guarded.chats_recall]
    cases g.chats.get id with
    | none => rfl
    | some session =>
      simp only [Guarded.file_recall]
      cases saveChat faults g.file session with
      | error e => rfl
      | ok file => rfl

theorem setInstallationName_recall (name : String) :
    setInstallationName faults name (g.recall r) =
      ((setInstallationName faults name g).1.recall r, (setInstallationName faults name g).2) := by
  unfold setInstallationName
  simp only [Guarded.display_recall, Guarded.file_recall]
  cases g.display.chatDb with
  | none => rfl
  | some conn =>
    dsimp only
    cases saveInstallationName faults g.file (nonEmpty name) with
    | error e => rfl
    | ok file => rfl

theorem insertChat_recall (session : ChatSession) : insertChat faults session (g.recall r) =
    ((insertChat faults session g).1.recall r, (insertChat faults session g).2) :=
  persistChat_recall (g.put session) r faults session.chatId

theorem setConversationNicknameLocked_recall (nickname : String) :
    setConversationNicknameLocked faults id nickname (g.recall r) =
      ((setConversationNicknameLocked faults id nickname g).1.recall r,
        (setConversationNicknameLocked faults id nickname g).2) := by
  unfold setConversationNicknameLocked
  rw [Guarded.chats_recall]
  cases g.chats.get id with
  | none => rfl
  | some session => exact persistChat_recall (g.put _) r faults id

theorem claimDeliveryRetry_file : (claimDeliveryRetry g).1.file = g.file := by
  unfold claimDeliveryRetry setDeliveryState
  dsimp only
  split
  · rfl
  · split <;> rfl

theorem setDeliveryState_recall (k : DeliveryStateKind) (detail : String) : ∃ new,
    (setDeliveryState k detail g).raised = g.raised ++ new ∧
      setDeliveryState k detail (g.recall r) =
        (setDeliveryState k detail g).recall (r ++ new) := by
  unfold setDeliveryState
  dsimp only
  by_cases hsame : g.display.deliveryState.state = k ∧ g.display.deliveryState.detail = detail
  · rw [if_pos hsame, if_pos (by exact hsame)]
    exact ⟨[], (List.append_nil _).symm, by rw [List.append_nil]⟩
  · rw [if_neg hsame, if_neg (by exact hsame)]
    exact ⟨_, rfl, rfl⟩

/-- A claim of a retry raises the same whatever was raised before it. -/
theorem claimDeliveryRetry_recall : ∃ new,
    (claimDeliveryRetry g).1.raised = g.raised ++ new ∧
      (claimDeliveryRetry (g.recall r)).1 = (claimDeliveryRetry g).1.recall (r ++ new) := by
  unfold claimDeliveryRetry
  dsimp only
  by_cases hcalm : g.display.deliveryState.state ≠ .error ∨ g.display.deliveryState.started = true
  · rw [if_pos hcalm, if_pos (by exact hcalm)]
    exact ⟨[], (List.append_nil _).symm, by rw [List.append_nil]⟩
  · rw [if_neg hcalm, if_neg (by exact hcalm)]
    exact setDeliveryState_recall g r _ _

/-- A start raises the same event whatever was raised before it. -/
theorem recordConversationStartedLocked_recall (kind : ConversationKind)
    (md : Option String × Option String) : ∃ new,
    (recordConversationStartedLocked faults id kind md g).raised = g.raised ++ new ∧
      recordConversationStartedLocked faults id kind md (g.recall r) =
        (recordConversationStartedLocked faults id kind md g).recall (r ++ new) := by
  unfold recordConversationStartedLocked
  by_cases hdel : id ∈ g.deleted
  · refine ⟨[], ?_, ?_⟩
    · rw [if_pos hdel, List.append_nil]
    · rw [if_pos hdel, if_pos (show id ∈ (g.recall r).deleted from hdel), List.append_nil]
  · rw [if_neg hdel, if_neg (show id ∉ (g.recall r).deleted from hdel)]
    rw [Guarded.chats_recall]
    cases g.chats.get id with
    | some session =>
      dsimp only
      by_cases hold : session.historyOnly = true
      · rw [if_pos hold, if_pos hold]
        exact ⟨_, rfl, rfl⟩
      · rw [if_neg hold, if_neg hold]
        exact ⟨[], (List.append_nil _).symm, by rw [List.append_nil]⟩
    | none =>
      refine ⟨[_], ?_, congrArg Prod.fst (persistChat_recall (Guarded.emit (g.put _) _)
        (r ++ [_]) faults id)⟩
      rw [persistChat_raised]
      rfl

theorem recordMembersChanged_recall : ∃ new,
    (recordMembersChanged id g).raised = g.raised ++ new ∧
      recordMembersChanged id (g.recall r) = (recordMembersChanged id g).recall (r ++ new) := by
  unfold recordMembersChanged
  by_cases hgone : id ∈ g.deleted ∨ g.chats.contains id = false
  · rw [if_pos hgone, if_pos (by exact hgone)]
    exact ⟨[], (List.append_nil _).symm, by rw [List.append_nil]⟩
  · rw [if_neg hgone, if_neg (by exact hgone)]
    exact ⟨_, rfl, rfl⟩

variable [MessageStore σ]

theorem recordMessage_recall (m : StoredMessage) (chatChanged : Bool) :
    Actions.recordMessage faults m chatChanged (g.recall r) =
      ((Actions.recordMessage faults m chatChanged g).1.recall r,
        (Actions.recordMessage faults m chatChanged g).2) := by
  unfold Actions.recordMessage
  rw [Guarded.chats_recall]
  cases g.chats.get m.chatId with
  | none => rfl
  | some session =>
    simp only [Guarded.display_recall, Guarded.file_recall]
    cases g.display.chatDb with
    | none => rfl
    | some conn =>
      dsimp only
      cases Persistence.recordMessage faults g.file (if chatChanged then some session else none) m
        with
      | error e => rfl
      | ok file => rfl

theorem recordMessageReceived_recall (content : List UInt8) (account installation : String)
    (t : UInt64) : ∃ new,
    (recordMessageReceived faults id content account installation t g).1.raised =
        g.raised ++ new ∧
      (recordMessageReceived faults id content account installation t (g.recall r)).1 =
        (recordMessageReceived faults id content account installation t g).1.recall (r ++ new) := by
  unfold recordMessageReceived
  by_cases hdel : id ∈ g.deleted
  · rw [if_pos hdel, if_pos (show id ∈ (g.recall r).deleted from hdel)]
    exact ⟨[], (List.append_nil _).symm, by rw [List.append_nil]⟩
  · rw [if_neg hdel, if_neg (show id ∉ (g.recall r).deleted from hdel)]
    have hrecord := recordMessage_recall (g.put (receivingSession id account g)) r faults
      (receivedMessage id content account installation t) (receivingChangesChat id g)
    refine ⟨[.messageReceived id (Utf8.fromUtf8Lossy content) t.toInt64 account], ?_, ?_⟩
    · dsimp only
      rw [Guarded.raised_emit, recordMessage_raised, Guarded.raised_put]
    · dsimp only
      exact congrArg (fun p : Guarded σ × Except CoreError Unit => p.1.emit _) hrecord

theorem deleteConversationLocked_recall :
    deleteConversationLocked faults id (g.recall r) =
      ((deleteConversationLocked faults id g).1.recall r,
        (deleteConversationLocked faults id g).2) := by
  unfold deleteConversationLocked
  rw [Guarded.chats_recall]
  cases g.chats.contains id with
  | false => rfl
  | true =>
    simp only [Guarded.display_recall, Guarded.file_recall]
    cases g.display.chatDb with
    | none => rfl
    | some conn =>
      dsimp only
      cases deleteChat faults g.file id with
      | error e => rfl
      | ok file => rfl

end Recall

/-! ## The operations of a run -/

/-- The operation whose last section that changes anything is a call's next one. -/
def Call.op (call : Call) (faults : Faults) (answer : Except ClientError Unit) (nowMs : UInt64) :
    List Op :=
  match call with
  | .sent convoId content => [.sendMessage faults (.ok ()) convoId content nowMs]
  | .created session (.conversationCreated _ _ _ _ name desc) =>
    match session.kind with
    | .direct => [.createConversation faults (.ok session.chatId) (session.peer.getD "")]
    | .group => [.createGroupConversation faults (.ok session.chatId) name desc]
  | .inviteChecked convoId => [.addGroupMember answer convoId]
  | _ => []

/-- The operation a step of the interleaved machine runs the section of, if any. -/
def Threads.ops (s : Threads σ) : Move → List Op
  | .init config env => [.init config env]
  | .shutdown => [.shutdown]
  | .setInstallationName faults name => [.setInstallationName faults name]
  | .setConversationNickname faults convoId nickname =>
    [.setConversationNickname faults convoId nickname]
  | .deleteConversation faults convoId => [.deleteConversation faults convoId]
  | .proceed i faults answer nowMs =>
    match s.calls[i]? with
    | some call => call.op faults answer nowMs
    | none => []
  | .conversationRecorded faults =>
    match s.consumer with
    | some started => [.conversationStarted faults started.convoId started.kind
        (.ok ⟨started.metadata.1.getD "", started.metadata.2.getD ""⟩)]
    | none => []
  | .messageReceived faults convoId content account installation nowMs =>
    [.messageReceived faults convoId content account installation nowMs]
  | .membersChanged convoId => [.membersChanged convoId]
  -- a check, or what libchat and the consumer do before a section
  | .createConversation .. | .createGroupConversation .. | .addGroupMember .. | .sendMessage ..
  | .conversationStarted .. => []

/-! ## Calls in order -/

/-- The conversation a call has found and is not done with. -/
def Call.found : Call → Option String
  | .sendChecked convoId _ | .sent convoId _ | .inviteChecked convoId => some convoId
  | _ => none

/-- Every call in flight is past its last section. -/
def PastSections (s : Threads σ) : Prop := ∀ call ∈ s.calls, call.due.isSome

/-- A conversation that is of this session, or deleted for good. -/
def StillThere (id : String) (g : Guarded σ) : Prop :=
  (∃ session, g.chats.get id = some session ∧ session.historyOnly = false) ∨
    g.chats.get id = none ∧ id ∈ g.file.deletedChats

/-- What a create saves and raises. -/
def Creation (session : ChatSession) (event : PluginEvent) : Prop :=
  (∃ peerAddress, session = directSession peerAddress session.chatId ∧
    event = directCreated session.chatId) ∨
  ∃ name desc, session = groupSession name desc session.chatId ∧
    event = groupCreated name desc session.chatId

/-- What is true between the steps when no shutdown overtakes a call. -/
structure Orderly (s : Threads σ) : Prop where
  idle : s.world.module = none → s.guarded.display = Display.default ∧ PastSections s
  consumer : s.consumer.isSome → s.world.module.isSome
  found : ∀ call ∈ s.calls, ∀ id ∈ call.found, StillThere id s.guarded
  creates : ∀ session event, .created session event ∈ s.calls → Creation session event
  started : ∀ started ∈ s.consumer, startedMetadata started.kind
    (.ok ⟨started.metadata.1.getD "", started.metadata.2.getD ""⟩) = started.metadata

section Orderly

variable {s s' : Threads σ} {mv : Move} {id : String} {g : Guarded σ}

/-- The metadata a handler has read says what it was read from. -/
theorem startedMetadata_getD (kind : ConversationKind) (answer : Except CoreError GroupMetadata) :
    startedMetadata kind (.ok ⟨(startedMetadata kind answer).1.getD "",
      (startedMetadata kind answer).2.getD ""⟩) = startedMetadata kind answer := by
  have hempty : ∀ name : String, nonEmpty ((nonEmpty name).getD "") = nonEmpty name := by
    intro name
    unfold nonEmpty
    by_cases h : name = ""
    · simp [h]
    · simp [h]
  cases kind with
  | direct => rfl
  | group =>
    cases answer with
    | error e => rfl
    | ok md => simp only [startedMetadata, hempty]

theorem not_past_of_found {call : Call} (hmem : call ∈ s.calls) (hid : id ∈ call.found) :
    ¬ PastSections s := by
  intro hsettled
  have hdue := hsettled call hmem
  cases call with
  | raising event => cases hid
  | _ => cases hdue

theorem Creation.historyOnly {session : ChatSession} {event : PluginEvent}
    (h : Creation session event) : session.historyOnly = false := by
  rcases h with ⟨peerAddress, heq, -⟩ | ⟨name, desc, heq, -⟩
  · rw [heq]
    rfl
  · rw [heq]
    rfl

/-- An inbound message leaves the mark as it is. -/
theorem historyOnly_receivingSession (convoId account : String) (g : Guarded σ) :
    (receivingSession convoId account g).historyOnly =
      ((g.chats.get convoId).map ChatSession.historyOnly).getD false := by
  unfold receivingSession
  dsimp only
  cases g.chats.get convoId with
  | none => split <;> rfl
  | some session => split <;> rfl

/-- A session put in the map leaves a conversation there unless it marks it. -/
theorem StillThere.put {session : ChatSession} (h : StillThere id g)
    (hlive : session.chatId = id → session.historyOnly = false) :
    StillThere id (g.put session) := by
  by_cases hid : id = session.chatId
  · exact Or.inl ⟨session, by rw [hid]; exact Keyed.get_insert_self _ _, hlive hid.symm⟩
  · have hsame : (g.put session).chats.get id = g.chats.get id := Keyed.get_insert_of_ne _ hid
    unfold StillThere
    rw [hsame]
    exact h

theorem StillThere.congr {g' : Guarded σ} (h : StillThere id g) (hchats : g'.chats = g.chats)
    (htomb : g'.file.deletedChats = g.file.deletedChats) : StillThere id g' := by
  unfold StillThere
  rw [hchats, htomb]
  exact h

/-- A session that stands was not marked. -/
theorem StillThere.historyOnly {session : ChatSession} (h : StillThere id g)
    (hget : g.chats.get id = some session) : session.historyOnly = false := by
  rcases h with ⟨session', hget', hlive⟩ | ⟨hnone, -⟩
  · obtain rfl := Option.some.inj (hget.symm.trans hget')
    exact hlive
  · simp [hnone] at hget

theorem chats_persistChat (faults : Faults) (convoId : String) :
    (persistChat faults convoId g).1.chats = g.chats := by
  unfold Guarded.chats
  rw [persistChat_display]

theorem StillThere.persistChat (h : StillThere id g) (faults : Faults) (convoId : String) :
    StillThere id (persistChat faults convoId g).1 :=
  h.congr (chats_persistChat faults convoId) (persistChat_tombstones faults convoId g)

variable [MessageStore σ]

theorem StillThere.recordMessage (h : StillThere id g) (faults : Faults) (m : StoredMessage)
    (chatChanged : Bool) : StillThere id (Actions.recordMessage faults m chatChanged g).1 := by
  have htomb := recordMessage_tombstones faults m chatChanged g
  rcases recordMessage_cases faults m chatChanged g with
    ⟨-, heq⟩ | ⟨-, heq⟩ | ⟨s, hget, -, hwritten⟩
  · rw [heq]
    exact h
  · rw [heq]
    exact h
  · have hput : StillThere id (g.put (pushMessage s m)) := by
      refine h.put ?_
      intro hid
      rw [chatId_pushMessage, Keyed.key_of_get hget] at hid
      have hlive : s.historyOnly = false := h.historyOnly (hid ▸ hget)
      exact hlive
    refine hput.congr ?_ htomb
    rcases hwritten with ⟨e, heq⟩ | heq
    · rw [heq]
    · rw [heq]
      rfl

/-- No section marks a conversation, and the only one that takes it out of the map leaves
its tombstone. -/
theorem Ran.stillThere (hran : Ran s g)
    (hcreates : ∀ session event, .created session event ∈ s.calls → Creation session event)
    (h : StillThere id s.guarded) : StillThere id g := by
  cases hran with
  | nothing => exact h
  | setInstallationName faults name =>
    rcases setInstallationName_cases faults name s.guarded with ⟨e, heq⟩ | ⟨-, heq⟩
    · rw [heq]
      exact h
    · rw [heq]
      exact h.congr rfl (ChatDb.deletedChats_withName _ _)
  | insertChat faults hmem =>
    have hput := h.put fun _ => (hcreates _ _ hmem).historyOnly
    exact hput.persistChat faults _
  | setConversationNickname faults convoId nickname =>
    rcases setConversationNicknameLocked_cases faults convoId nickname s.guarded with
      ⟨-, heq⟩ | ⟨session, hget, heq⟩
    · rw [heq]
      exact h
    · rw [heq]
      refine StillThere.persistChat (h.put ?_) faults convoId
      intro hid
      have hkey : session.chatId = convoId := Keyed.key_of_get hget
      have hlive : session.historyOnly = false := h.historyOnly ((hkey.symm.trans hid) ▸ hget)
      exact hlive
  | deleteConversation faults convoId =>
    rcases deleteConversationLocked_cases faults convoId s.guarded with ⟨e, heq⟩ | ⟨-, -, heq⟩
    · rw [heq]
      exact h
    · rw [heq]
      by_cases hid : id = convoId
      · refine Or.inr ⟨?_, ?_⟩
        · rw [chats_writeFile, Guarded.chats_forget, Keyed.get_remove, if_pos hid]
        · rw [file_writeFile, ChatDb.deletedChats_withoutChat, hid]
          exact Finset.mem_insert_self _ _
      · unfold StillThere
        rw [chats_writeFile, Guarded.chats_forget, Keyed.get_remove, if_neg hid, file_writeFile,
          ChatDb.deletedChats_withoutChat, Finset.mem_insert]
        rcases h with hlive | ⟨hnone, hdel⟩
        · exact Or.inl hlive
        · exact Or.inr ⟨hnone, Or.inr hdel⟩
  | sendMessage faults convoId content nowMs => exact h.recordMessage _ _ _
  | @conversationRecorded faults started hstarted =>
    rcases recordConversationStartedLocked_cases faults started.convoId started.kind
      started.metadata s.guarded with heq | ⟨session, e, -, heq⟩ | ⟨-, e, heq⟩
    · rw [heq]
      exact h
    · rw [heq]
      exact (h.put fun _ => rfl).congr rfl rfl
    · rw [heq]
      have hopened : StillThere id ((s.guarded.emit e).put (openedSession started.convoId
          started.kind started.metadata.1 started.metadata.2 none)) :=
        StillThere.put (h.congr rfl rfl) fun _ => rfl
      exact hopened.persistChat faults started.convoId
  | messageReceived faults convoId content account installation nowMs hlisten =>
    rcases recordMessageReceived_cases faults convoId content account installation nowMs s.guarded
      with ⟨-, heq⟩ | ⟨-, r, rfl, heq⟩
    · rw [heq]
      exact h
    · rw [heq]
      have hput : StillThere id (s.guarded.put (receivingSession convoId account s.guarded)) := by
        refine h.put ?_
        intro hid
        rw [chatId_receivingSession] at hid
        rw [historyOnly_receivingSession]
        cases hget : s.guarded.chats.get convoId with
        | none => rfl
        | some session => exact h.historyOnly (hid ▸ hget)
      exact (hput.recordMessage faults _ _).congr rfl rfl
  | membersChanged convoId hlisten =>
    refine h.congr ?_ ?_
    · unfold Guarded.chats
      rw [recordMembersChanged_display]
    · unfold recordMembersChanged
      split <;> rfl
  | raise event => exact h.congr rfl rfl

/-- How a call came to be in flight after a step. -/
inductive Comes (s : Threads σ) : Call → Prop
  | was {call : Call} : call ∈ s.calls → Comes s call
  | raising (event : PluginEvent) : Comes s (.raising event)
  | created {session : ChatSession} {event : PluginEvent} : s.world.module.isSome →
    Creation session event → Comes s (.created session event)
  | sendChecked {id : String} (content : String) : checkLive id s.guarded = .ok () →
    Comes s (.sendChecked id content)
  | inviteChecked {id : String} : checkLive id s.guarded = .ok () → Comes s (.inviteChecked id)
  | sent {id content : String} : .sendChecked id content ∈ s.calls → s.world.module.isSome →
    Comes s (.sent id content)

omit [MessageStore σ] in
theorem comes_of_raises {call : Call} {result : Except CoreError Unit} {event : PluginEvent}
    (hmem : call ∈ (raises result event).toList) : Comes s call := by
  obtain ⟨⟨⟩, -, rfl⟩ := mem_goesOn.mp hmem
  exact .raising event

theorem comes_of_step (hstep : s.step mv = some s') {call : Call} (hmem : call ∈ s'.calls) :
    Comes s call := by
  cases mv with
  | init =>
    cases hstep
    exact .was hmem
  | shutdown | conversationStarted | conversationRecorded | messageReceived | membersChanged =>
    simp only [Threads.step] at hstep
    split at hstep <;> cases hstep
    exact .was (by simpa [Threads.display] using hmem)
  | setInstallationName =>
    cases hstep
    exact .was (by simpa [Threads.display] using hmem)
  | createConversation answer peerAddress =>
    cases hstep
    rcases List.mem_append.mp hmem with hnew | hold
    · obtain ⟨chatId, hclient, rfl⟩ := mem_goesOn.mp hnew
      exact .created (withClient_ok_iff.mp hclient).1 (Or.inl ⟨peerAddress, rfl, rfl⟩)
    · exact .was hold
  | createGroupConversation answer name desc =>
    cases hstep
    rcases List.mem_append.mp hmem with hnew | hold
    · obtain ⟨chatId, hclient, rfl⟩ := mem_goesOn.mp hnew
      exact .created (withClient_ok_iff.mp hclient).1 (Or.inr ⟨name, desc, rfl, rfl⟩)
    · exact .was hold
  | addGroupMember convoId =>
    cases hstep
    rcases List.mem_append.mp hmem with hnew | hold
    · obtain ⟨⟨⟩, hlive, rfl⟩ := mem_goesOn.mp hnew
      exact .inviteChecked hlive
    · exact .was hold
  | sendMessage convoId content =>
    cases hstep
    rcases List.mem_append.mp hmem with hnew | hold
    · obtain ⟨⟨⟩, hlive, rfl⟩ := mem_goesOn.mp hnew
      exact .sendChecked content hlive
    · exact .was hold
  | setConversationNickname | deleteConversation =>
    cases hstep
    rcases List.mem_append.mp hmem with hnew | hold
    · exact comes_of_raises hnew
    · exact .was hold
  | proceed i faults answer nowMs =>
    simp only [Threads.step] at hstep
    split at hstep
    · cases hstep
    · next old hcall =>
      have hold := List.mem_of_getElem? hcall
      cases hstep
      rcases List.mem_append.mp hmem with hnew | hrest
      · cases old with
        | sendChecked convoId content =>
          obtain ⟨⟨⟩, hclient, rfl⟩ := mem_goesOn.mp hnew
          exact .sent hold (withClient_ok_iff.mp hclient).1
        | raising event => cases hnew
        | sent | created | inviteChecked => exact comes_of_raises hnew
      · exact .was (List.mem_of_mem_eraseIdx hrest)

/-- What a handler has read of a group is what some answer of libchat says. -/
theorem metadata_of_step (hstep : s.step mv = some s') {started : Started}
    (hmem : started ∈ s'.consumer) : started ∈ s.consumer ∨
      ∃ answer, started.metadata = startedMetadata started.kind answer := by
  cases mv with
  | conversationStarted convoId kind answer =>
    simp only [Threads.step] at hstep
    split at hstep <;> cases hstep
    obtain rfl := Option.some.inj hmem
    exact Or.inr ⟨_, rfl⟩
  | conversationRecorded faults =>
    simp only [Threads.step] at hstep
    split at hstep <;> cases hstep
    cases hmem
  | proceed | shutdown | messageReceived | membersChanged =>
    simp only [Threads.step] at hstep
    split at hstep <;> cases hstep
    exact Or.inl hmem
  | _ =>
    cases hstep
    exact Or.inl hmem

/-- With nothing installed the display stays as it starts: every section finds it empty. -/
theorem Ran.blank (hran : Ran s g) (hblank : s.guarded.display = Display.default)
    (hcreates : ∀ session event, .created session event ∉ s.calls)
    (hlisten : s.listening = false) (hconsumer : s.consumer = none) :
    g.display = Display.default := by
  have hget : ∀ id, s.guarded.chats.get id = none := by
    intro id
    rw [Guarded.chats, hblank]
    rfl
  cases hran with
  | nothing => exact hblank
  | setInstallationName faults name =>
    rcases setInstallationName_cases faults name s.guarded with ⟨e, heq⟩ | ⟨hopen, -⟩
    · rw [heq]
      exact hblank
    · rw [hblank] at hopen
      cases hopen
  | insertChat faults hmem => exact absurd hmem (hcreates _ _)
  | setConversationNickname faults convoId nickname =>
    rw [setConversationNicknameLocked_display, hget]
    exact hblank
  | deleteConversation faults convoId =>
    rw [deleteConversationLocked_of_get_none (hget convoId)]
    exact hblank
  | sendMessage faults convoId content nowMs =>
    rw [sendMessageLocked_of_get_none (hget convoId)]
    exact hblank
  | conversationRecorded faults hstarted =>
    rw [hconsumer] at hstarted
    cases hstarted
  | messageReceived _ _ _ _ _ _ hup =>
    rw [hlisten] at hup
    cases hup
  | membersChanged _ hup =>
    rw [hlisten] at hup
    cases hup
  | raise event => exact hblank

omit [MessageStore σ] in
theorem orderly_start (file : ChatDb σ) (own : Option String) :
    Orderly (Threads.start file own) where
  idle := fun _ => ⟨rfl, by intro call hmem; cases hmem⟩
  consumer := by intro h; cases h
  found := by intro call hmem; cases hmem
  creates := by intro session event hmem; cases hmem
  started := by intro started hmem; cases hmem

omit [MessageStore σ] in
theorem stillThere_of_checkLive (h : checkLive id g = .ok ()) : StillThere id g :=
  Or.inl (checkLive_ok_iff.mp h)

/-- A step that is neither an init nor a shutdown. -/
theorem Orderly.ran (h : Orderly s) (hstep : s.step mv = some s') (hran : Ran s g)
    (hworld : s'.world = { s.world with guarded := g }) : Orderly s' := by
  have hmodule : s'.world.module = s.world.module := by rw [hworld]
  have hguarded : s'.guarded = g := congrArg World.guarded hworld
  refine ⟨?_, ?_, ?_, ?_, ?_⟩
  · intro hnone
    rw [hmodule] at hnone
    obtain ⟨hblank, hsettled⟩ := h.idle hnone
    have hclosed : s.consumer = none := by
      cases hc : s.consumer with
      | none => rfl
      | some started => simpa [hnone] using h.consumer (by rw [hc]; rfl)
    constructor
    · rw [hguarded]
      refine hran.blank hblank ?_ (by simp [Threads.listening, hnone]) hclosed
      intro session event hmem
      cases hsettled _ hmem
    · intro call hmem
      cases comes_of_step hstep hmem with
      | was hold => exact hsettled call hold
      | raising event => rfl
      | created hup => simp [hnone] at hup
      | sent _ hup => simp [hnone] at hup
      | sendChecked _ hlive | inviteChecked hlive =>
        obtain ⟨session, hget, -⟩ := checkLive_ok_iff.mp hlive
        rw [Guarded.chats, hblank] at hget
        cases hget
  · intro hc
    rw [hmodule]
    rcases consumer_of_step hstep hc with hold | ⟨hup, -⟩
    · exact h.consumer hold
    · exact hup
  · intro call hmem id hid
    rw [hguarded]
    refine hran.stillThere h.creates ?_
    cases comes_of_step hstep hmem with
    | was hold => exact h.found call hold id hid
    | raising event => cases hid
    | created => cases hid
    | sent hold => exact h.found _ hold id hid
    | sendChecked _ hlive | inviteChecked hlive =>
      obtain rfl := Option.some.inj hid
      exact stillThere_of_checkLive hlive
  · intro session event hmem
    cases comes_of_step hstep hmem with
    | was hold => exact h.creates session event hold
    | created _ hcreation => exact hcreation
  · intro started hmem
    rcases metadata_of_step hstep hmem with hold | ⟨answer, hread⟩
    · exact h.started started hold
    · rw [hread]
      exact startedMetadata_getD _ _

/-- An init, which leaves the calls and the consumer alone. -/
theorem Orderly.init [LawfulMessageStore σ] (h : Orderly s) {config : ChatConfig}
    {env : Environment} (hstep : s.step (.init config env) = some s') : Orderly s' := by
  cases hstep
  rcases init_cases config env s.world with ⟨hnone, g, ms, -, heq⟩ | ⟨hup, heq⟩ | ⟨-, e, -, heq⟩
  · refine ⟨?_, ?_, ?_, h.creates, h.started⟩
    · intro hm
      rw [heq] at hm
      cases hm
    · intro _
      rw [heq]
      rfl
    · intro call hmem id hid
      exact absurd (h.idle hnone).2 (not_past_of_found hmem hid)
  · refine ⟨?_, ?_, ?_, h.creates, h.started⟩
    · intro hm
      rw [heq] at hm
      have hm' : s.world.module = none := hm
      simp [hm'] at hup
    · intro _
      rw [heq]
      exact hup
    · intro call hmem id hid
      have hstate := (claimDeliveryRetry_state s.guarded).1
      refine (h.found call hmem id hid).congr ?_ ?_
      · rw [heq]
        exact congrArg AppState.chats hstate
      · rw [heq]
        exact congrArg ChatDb.deletedChats (claimDeliveryRetry_file s.guarded)
  · have hsame : ({ s with world := (Actions.init config env s.world).world } : Threads σ) = s := by
      rw [heq]
    rw [hsame]
    exact h

/-- What each step keeps, when a shutdown overtakes no call. -/
theorem orderly_step [LawfulMessageStore σ] (hstop : mv = .shutdown → PastSections s)
    (hstep : s.step mv = some s') (h : Orderly s) : Orderly s' := by
  rcases step_cases hstep with ⟨config, env, rfl, -⟩ | ⟨rfl, hidle, hworld⟩ | ⟨g, hran, hworld⟩
  · exact h.init hstep
  · have hsettled := hstop rfl
    simp only [Threads.step, hidle] at hstep
    cases hstep
    refine ⟨?_, ?_, ?_, h.creates, ?_⟩
    · intro _
      refine ⟨?_, hsettled⟩
      cases hm : s.world.module with
      | none =>
        rw [shutdown_of_none hm]
        exact (h.idle hm).1
      | some ms => exact shutdown_display (by rw [hm]; rfl)
    · intro hc
      cases hc
    · intro call hmem id hid
      exact absurd hsettled (not_past_of_found hmem hid)
    · intro started hmem
      cases hmem
  · exact h.ran hstep hran hworld

end Orderly

/-! ## The same run, one at a time -/

/-- What a send or an invitation announces whose last section succeeds after its
conversation has been deleted. -/
def overrun (s : Threads σ) : Move → List PluginEvent
  | .proceed i _ answer nowMs =>
    match s.calls[i]? with
    | some (.sent convoId content) =>
      if (s.guarded.chats.get convoId).isNone ∧ convoId ∈ s.guarded.file.deletedChats then
        [.messageSent convoId content nowMs.toInt64]
      else []
    | some (.inviteChecked convoId) =>
      if (s.guarded.chats.get convoId).isNone ∧ convoId ∈ s.guarded.file.deletedChats ∧
          withClient s.world answer = .ok () then
        [.conversationUpdated convoId]
      else []
    | _ => []
  | _ => []

/-- `w` has run one operation at a time what `s` has run interleaved: it has raised what
`s` has or is about to, less what overtaken calls announce. -/
structure Serial (s : Threads σ) (w : World σ) (lost : List PluginEvent) : Prop where
  world : w = { s.world with guarded := s.guarded.recall w.guarded.raised }
  raised : (s.guarded.raised + s.due : Multiset PluginEvent) = w.guarded.raised + lost

section Serial

variable {s s' : Threads σ} {w : World σ} {lost : List PluginEvent} {mv : Move}
  {event : PluginEvent}

theorem Serial.guarded (h : Serial s w lost) :
    w.guarded = s.guarded.recall w.guarded.raised := congrArg World.guarded h.world

theorem Serial.module (h : Serial s w lost) : w.module = s.world.module := by
  rw [h.world]

/-- A step that only the calls in flight or the consumer take notice of. -/
theorem Serial.unseen (h : Serial s w lost) (hworld : s'.world = s.world)
    (hdue : s'.due.Perm s.due) : Serial s' w lost := by
  have hguarded : s'.guarded = s.guarded := congrArg World.guarded hworld
  constructor
  · rw [hworld, hguarded]
    exact h.world
  · rw [hguarded, Multiset.coe_eq_coe.mpr hdue]
    exact h.raised

/-- A section that raises its events as it runs. -/
theorem Serial.handled (h : Serial s w lost) {f : Guarded σ → Guarded σ}
    (hrecall : ∀ r, ∃ new, (f s.guarded).raised = s.guarded.raised ++ new ∧
      f (s.guarded.recall r) = (f s.guarded).recall (r ++ new))
    (hworld : s'.world = { s.world with guarded := f s.guarded }) (hdue : s'.due = s.due) :
    Serial s' { w with guarded := f w.guarded } lost := by
  obtain ⟨new, hraised, hsame⟩ := hrecall w.guarded.raised
  have hguarded : s'.guarded = f s.guarded := congrArg World.guarded hworld
  have hf : f w.guarded = (f s.guarded).recall (w.guarded.raised ++ new) := by
    rw [h.guarded]
    exact hsame
  constructor
  · rw [hf, hguarded, hworld, h.world]
    rfl
  · rw [hf, hguarded, hdue, hraised, Guarded.raised_recall, ← Multiset.coe_add,
      ← Multiset.coe_add]
    have hbefore := h.raised
    calc (s.guarded.raised + new + s.due : Multiset PluginEvent)
        = s.guarded.raised + s.due + new := by abel
      _ = w.guarded.raised + lost + new := by rw [hbefore]
      _ = w.guarded.raised + new + lost := by abel

/-- The section after which a call raises its event, and the operation it ends. -/
theorem Serial.called {α : Type} (h : Serial s w lost)
    {f : Guarded σ → Guarded σ × Except CoreError Unit} (event : PluginEvent) (a : α)
    (hrecall : ∀ r, f (s.guarded.recall r) =
      ((f s.guarded).1.recall r, (f s.guarded).2))
    (hraised : (f s.guarded).1.raised = s.guarded.raised)
    (hworld : s'.world = { s.world with guarded := (f s.guarded).1 })
    (hdue : s'.due.Perm ((raises (f s.guarded).2 event).toList.filterMap Call.due ++ s.due)) :
    Serial s' (finish (underDisplay w f) event a).1 lost := by
  have hguarded : s'.guarded = (f s.guarded).1 := congrArg World.guarded hworld
  have hf : f w.guarded =
      ((f s.guarded).1.recall w.guarded.raised, (f s.guarded).2) := by
    rw [h.guarded]
    exact hrecall _
  have hunder : underDisplay w f =
      ({ s.world with guarded := (f s.guarded).1.recall w.guarded.raised },
        (f s.guarded).2) := by
    unfold underDisplay
    rw [hf, h.world]
  have hbefore := h.raised
  have hdue' := Multiset.coe_eq_coe.mpr hdue
  unfold finish
  rw [hunder]
  cases hresult : (f s.guarded).2 with
  | ok u =>
    rw [hresult] at hdue'
    constructor
    · rw [hguarded, hworld]
      rfl
    · rw [hguarded, hraised, hdue']
      simp only [raise, Guarded.raised_emit, Guarded.raised_recall, raises, goesOn,
        Option.toList_some, List.filterMap_cons, List.filterMap_nil, Call.due,
        ← Multiset.coe_add]
      calc (s.guarded.raised + (([event] : List PluginEvent) + s.due) : Multiset PluginEvent)
          = s.guarded.raised + s.due + ([event] : List PluginEvent) := by abel
        _ = w.guarded.raised + lost + ([event] : List PluginEvent) := by rw [hbefore]
        _ = w.guarded.raised + ([event] : List PluginEvent) + lost := by abel
  | error e =>
    rw [hresult] at hdue'
    constructor
    · rw [hguarded, hworld]
      rfl
    · rw [hguarded, hraised, hdue']
      exact hbefore

/-- A call whose conversation is gone when its section runs announces it all the same. -/
theorem Serial.overran (h : Serial s w lost) {result : Except CoreError Unit}
    (hdue : s'.due.Perm ((raises result event).toList.filterMap Call.due ++ s.due))
    (hworld : s'.world = s.world) :
    Serial s' w (lost ++ (raises result event).toList.filterMap Call.due) := by
  have hguarded : s'.guarded = s.guarded := congrArg World.guarded hworld
  have hbefore := h.raised
  constructor
  · rw [hworld, hguarded]
    exact h.world
  · rw [hguarded, Multiset.coe_eq_coe.mpr hdue, ← Multiset.coe_add, ← Multiset.coe_add]
    generalize ((raises result event).toList.filterMap Call.due : Multiset PluginEvent) = new
    calc (s.guarded.raised + (new + s.due) : Multiset PluginEvent)
        = s.guarded.raised + s.due + new := by abel
      _ = w.guarded.raised + lost + new := by rw [hbefore]
      _ = w.guarded.raised + (lost + new) := by abel

/-- A call raises the event that was due. -/
theorem Serial.raise (h : Serial s w lost)
    (hworld : s'.world = { s.world with guarded := s.guarded.emit event })
    (hdue : s.due.Perm (event :: s'.due)) : Serial s' w lost := by
  have hguarded : s'.guarded = s.guarded.emit event := congrArg World.guarded hworld
  have hbefore := h.raised
  have hdue' := Multiset.coe_eq_coe.mpr hdue
  rw [hdue', ← Multiset.cons_coe, ← Multiset.singleton_add] at hbefore
  constructor
  · rw [hworld, hguarded]
    exact h.world
  · rw [hguarded, Guarded.raised_emit, ← Multiset.coe_add, ← hbefore, ← Multiset.coe_singleton]
    abel

theorem Orderly.up (h : Orderly s) {call : Call} (hmem : call ∈ s.calls) (hdue : call.due = none) :
    s.world.module.isSome := by
  cases hm : s.world.module with
  | some ms => rfl
  | none =>
    have hsettled := (h.idle hm).2 call hmem
    simp [hdue] at hsettled

/-- The events due after the next section of a call that raises nothing in it. -/
theorem due_proceed {i : ℕ} {call : Call} (hcall : s.calls[i]? = some call)
    (hdue : call.due = none) (g : Guarded σ) (next : Option Call) :
    (({ s with calls := s.calls.eraseIdx i } : Threads σ).display g next).due.Perm
      (next.toList.filterMap Call.due ++ s.due) := by
  unfold Threads.due Threads.display
  rw [List.filterMap_append]
  exact (due_eraseIdx hcall hdue).append_left _

variable [MessageStore σ] {Q : World σ → Op → Prop}

theorem run_single {w' : World σ} {op : Op} (hQ : Q w op)
    (hup : op.isEvent = true → w.module.isSome) (hop : op.run w = w') :
    (sequential σ).Run Q w [op] w' := by
  rw [← hop]
  refine .single hQ ?_
  have hgo : ¬ (op.isEvent && w.module.isNone) = true := by
    intro hidle
    obtain ⟨hevent, hnone⟩ := Bool.and_eq_true_iff.mp hidle
    have hsome := hup hevent
    rw [Option.isNone_iff_eq_none.mp hnone] at hsome
    cases hsome
  exact if_neg hgo

omit [MessageStore σ] in
theorem checkLive_of_get_none {g : Guarded σ} {id : String} (h : g.chats.get id = none) :
    checkLive id g = .error .notFound := by
  unfold checkLive
  rw [h]
  rfl

theorem sendMessage_of_live {id content : String} {nowMs : UInt64} {faults : Faults}
    (hlive : checkLive id w.guarded = .ok ()) (hup : w.module.isSome) :
    Actions.sendMessage faults (.ok ()) id content nowMs w =
      finish (underDisplay w (sendMessageLocked faults id content nowMs))
        (.messageSent id content nowMs.toInt64) () := by
  unfold Actions.sendMessage
  rw [hlive, withClient_ok_iff.mpr ⟨hup, rfl⟩]

theorem sendMessage_of_gone {id content : String} {nowMs : UInt64} {faults : Faults}
    {answer : Except ClientError Unit} {e : CoreError} (hgone : checkLive id w.guarded = .error e) :
    Actions.sendMessage faults answer id content nowMs w = (w, .error e) := by
  unfold Actions.sendMessage
  rw [hgone]

omit [MessageStore σ] in
theorem addGroupMember_of_live {id : String} {answer : Except ClientError Unit}
    (hlive : checkLive id w.guarded = .ok ()) : Actions.addGroupMember answer id w =
      finish (w, withClient w answer) (.conversationUpdated id) () := by
  unfold Actions.addGroupMember
  rw [hlive]

omit [MessageStore σ] in
theorem addGroupMember_of_gone {id : String} {answer : Except ClientError Unit} {e : CoreError}
    (hgone : checkLive id w.guarded = .error e) :
    Actions.addGroupMember answer id w = (w, .error e) := by
  unfold Actions.addGroupMember
  rw [hgone]

omit [MessageStore σ] in
theorem create_of_up (session : String → ChatSession) (created : String → PluginEvent)
    (faults : Faults) (chatId : String) (hup : w.module.isSome) :
    create session created faults (.ok chatId) w =
      finish (underDisplay w (insertChat faults (session chatId))) (created chatId) chatId := by
  unfold create
  rw [withClient_ok_iff.mpr ⟨hup, rfl⟩]

/-- The next section of a call runs the whole of its operation, or the conversation is gone. -/
theorem serial_proceed [LawfulMessageStore σ] (horderly : Orderly s) (h : Serial s w lost) {i : ℕ}
    {call : Call} {faults : Faults} {answer : Except ClientError Unit} {nowMs : UInt64}
    (hcall : s.calls[i]? = some call)
    (hstep : s.step (.proceed i faults answer nowMs) = some s')
    (hQ : ∀ op ∈ call.op faults answer nowMs, Q w op) : ∃ w',
      (sequential σ).Run Q w (call.op faults answer nowMs) w' ∧
        Serial s' w' (lost ++ overrun s (.proceed i faults answer nowMs)) := by
  have hmem := List.mem_of_getElem? hcall
  simp only [Threads.step, hcall] at hstep
  cases hstep
  simp only [overrun, hcall]
  cases call with
  | sendChecked id content =>
    rw [List.append_nil]
    refine ⟨w, .nil w, h.unseen rfl ?_⟩
    have hperm := due_proceed hcall rfl s.guarded
      (goesOn (withClient s.world answer) fun _ => .sent id content)
    rwa [due_goesOn fun _ => rfl] at hperm
  | raising event =>
    rw [List.append_nil]
    refine ⟨w, .nil w, h.raise rfl ?_⟩
    obtain ⟨hlt, hget⟩ := List.getElem?_eq_some_iff.mp hcall
    have hperm := (List.getElem_cons_eraseIdx_perm hlt).filterMap Call.due
    rw [hget] at hperm
    exact hperm.symm
  | sent id content =>
    have hup : w.module.isSome := by
      rw [h.module]
      exact horderly.up hmem rfl
    have hperm := due_proceed hcall rfl (sendMessageLocked faults id content nowMs s.guarded).1
      (raises (sendMessageLocked faults id content nowMs s.guarded).2
        (.messageSent id content nowMs.toInt64))
    rcases horderly.found _ hmem id rfl with hlive | ⟨hnone, hdel⟩
    · have hcheck : checkLive id w.guarded = .ok () := by
        rw [h.guarded, checkLive_recall]
        exact checkLive_ok_iff.mpr hlive
      obtain ⟨session, hget, -⟩ := hlive
      have hrun := run_single (hQ _ (List.mem_singleton_self _)) (by intro he; cases he)
        (congrArg Prod.fst (sendMessage_of_live hcheck hup))
      dsimp only
      rw [if_neg (by simp [hget]), List.append_nil]
      exact ⟨_, hrun, h.called _ () (fun r => recordMessage_recall _ r _ _ _)
        (recordMessage_raised _ _ _ _) rfl hperm⟩
    · have hcheck : checkLive id w.guarded = .error .notFound := by
        rw [h.guarded, checkLive_recall]
        exact checkLive_of_get_none hnone
      have hrun := run_single (hQ _ (List.mem_singleton_self _)) (by intro he; cases he)
        (congrArg Prod.fst (sendMessage_of_gone hcheck))
      -- the section finds nothing to do and succeeds; one at a time the check fails
      have hsame := sendMessageLocked_of_get_none (g := s.guarded) hnone faults content nowMs
      have hworld : { s.world with
          guarded := (sendMessageLocked faults id content nowMs s.guarded).1 } = s.world := by
        rw [hsame]
      have hlost : (raises (sendMessageLocked faults id content nowMs s.guarded).2
          (.messageSent id content nowMs.toInt64)).toList.filterMap Call.due =
          [.messageSent id content nowMs.toInt64] := by
        rw [hsame]
        rfl
      have hserial := h.overran hperm hworld
      rw [hlost] at hserial
      dsimp only
      rw [if_pos ⟨by rw [hnone]; rfl, hdel⟩]
      exact ⟨w, hrun, hserial⟩
  | created session event =>
    have hup : w.module.isSome := by
      rw [h.module]
      exact horderly.up hmem rfl
    rw [List.append_nil]
    have hperm := due_proceed hcall rfl (insertChat faults session s.guarded).1
      (raises (insertChat faults session s.guarded).2 event)
    rcases horderly.creates session event hmem with
      ⟨peerAddress, hsession, rfl⟩ | ⟨name, desc, hsession, rfl⟩
    · generalize session.chatId = chatId at hsession
      subst hsession
      have hrun := run_single (hQ _ (List.mem_singleton_self _)) (by intro he; cases he)
        (congrArg Prod.fst (create_of_up (directSession peerAddress) directCreated faults chatId
          hup))
      exact ⟨_, hrun, h.called _ _ (fun r => insertChat_recall _ r _ _)
        (persistChat_raised _ _ _) rfl hperm⟩
    · generalize session.chatId = chatId at hsession
      subst hsession
      have hrun := run_single (hQ _ (List.mem_singleton_self _)) (by intro he; cases he)
        (congrArg Prod.fst (create_of_up (groupSession name desc) (groupCreated name desc) faults
          chatId hup))
      exact ⟨_, hrun, h.called _ _ (fun r => insertChat_recall _ r _ _)
        (persistChat_raised _ _ _) rfl hperm⟩
  | inviteChecked id =>
    have hclient : withClient w answer = withClient s.world answer := by
      unfold withClient
      rw [h.module]
    have hperm := due_proceed hcall rfl s.guarded
      (raises (withClient s.world answer) (.conversationUpdated id))
    rcases horderly.found _ hmem id rfl with hlive | ⟨hnone, hdel⟩
    · have hcheck : checkLive id w.guarded = .ok () := by
        rw [h.guarded, checkLive_recall]
        exact checkLive_ok_iff.mpr hlive
      obtain ⟨session, hget, -⟩ := hlive
      have hrun := run_single (hQ _ (List.mem_singleton_self _)) (by intro he; cases he)
        (congrArg Prod.fst (addGroupMember_of_live hcheck))
      rw [hclient] at hrun
      dsimp only
      rw [if_neg (by simp [hget]), List.append_nil]
      exact ⟨_, hrun, h.called (f := fun g => (g, withClient s.world answer))
        (.conversationUpdated id) () (fun r => rfl) rfl rfl hperm⟩
    · have hcheck : checkLive id w.guarded = .error .notFound := by
        rw [h.guarded, checkLive_recall]
        exact checkLive_of_get_none hnone
      have hrun := run_single (hQ _ (List.mem_singleton_self _)) (by intro he; cases he)
        (congrArg Prod.fst (addGroupMember_of_gone hcheck))
      have hlost : (raises (withClient s.world answer)
          (.conversationUpdated id)).toList.filterMap Call.due =
          if withClient s.world answer = .ok () then [.conversationUpdated id] else [] := by
        cases withClient s.world answer with
        | ok u => rfl
        | error e => rfl
      have hserial := h.overran hperm rfl
      rw [hlost] at hserial
      simp only [hnone, hdel, Option.isNone_none, true_and]
      exact ⟨w, hrun, hserial⟩

/-- An init does the same whatever was raised before it. -/
theorem Serial.init (h : Serial s w lost) (config : ChatConfig) (env : Environment) :
    Serial { s with world := (Actions.init config env s.world).world }
      (Actions.init config env w).world lost := by
  have hmodule := h.module
  rcases init_cases config env s.world with ⟨hnone, g, ms, hinit, heq⟩ | ⟨hup, heq⟩ |
    ⟨hnone, e, hinit, heq⟩
  · obtain ⟨live, state, hgood, hload, rfl⟩ := initializeModule_ok_iff.mp hinit
    have hload' : loadState w.guarded.file = .ok state := by
      rw [h.guarded]
      exact hload
    have hinit' := initializeModule_ok_iff.mpr ⟨live, state, hgood, hload', rfl⟩
    have heq' : (Actions.init config env w).world = { w with
        module := some ms
        guarded := ⟨seedDisplay (markHistoryOnly live state) ms.client, w.guarded.file,
          w.guarded.raised⟩ } := by
      unfold Actions.init World.installWith
      rw [hmodule, hnone, hinit']
    rw [heq, heq']
    refine ⟨?_, h.raised⟩
    rw [h.world]
    rfl
  · have hclaim : (Actions.init config env w).world =
        { w with guarded := (claimDeliveryRetry w.guarded).1 } := by
      rcases init_cases config env w with ⟨hnone, -⟩ | ⟨-, heq'⟩ | ⟨hnone, -⟩
      · rw [← hmodule, hnone] at hup
        cases hup
      · rw [heq']
      · rw [← hmodule, hnone] at hup
        cases hup
    rw [heq, hclaim]
    exact h.handled (f := fun g => (claimDeliveryRetry g).1)
      (fun r => claimDeliveryRetry_recall _ r) rfl rfl
  · have hfails : (Actions.init config env w).world = w := by
      rcases init_cases config env w with ⟨-, g, ms, hinit', -⟩ | ⟨hup, -⟩ | ⟨-, e', -, heq'⟩
      · obtain ⟨live, state, hgood, hload, -⟩ := initializeModule_ok_iff.mp hinit'
        have hload' : loadState s.guarded.file = .ok state := by
          rw [h.guarded] at hload
          exact hload
        have hok := initializeModule_ok_iff.mpr ⟨live, state, hgood, hload', rfl⟩
        rw [hok] at hinit
        cases hinit
      · rw [hmodule, hnone] at hup
        cases hup
      · rw [heq']
    rw [heq, hfails]
    exact h.unseen rfl (List.Perm.refl _)

omit [MessageStore σ] in
theorem Serial.shutdown (h : Serial s w lost) :
    Serial { s with world := Actions.shutdown s.world } (Actions.shutdown w) lost := by
  have hmodule := h.module
  cases hm : s.world.module with
  | none =>
    rw [shutdown_of_none hm, shutdown_of_none (hmodule.trans hm)]
    exact h.unseen rfl (List.Perm.refl _)
  | some ms =>
    have hreset : ∀ {u : World σ}, u.module = some ms → Actions.shutdown u =
        { u with module := none, guarded := resetDisplay u.guarded } := by
      intro u hu
      unfold Actions.shutdown World.take
      rw [hu]
    rw [hreset hm, hreset (hmodule.trans hm)]
    refine ⟨?_, h.raised⟩
    rw [h.world]
    rfl

/-- A step that is no later section of a call loses no event. -/
theorem serial_section [LawfulMessageStore σ] (horderly : Orderly s) (h : Serial s w lost)
    (hfirst : ∀ i faults answer nowMs, mv ≠ .proceed i faults answer nowMs)
    (hstep : s.step mv = some s') (hQ : ∀ op ∈ s.ops mv, Q w op) : ∃ w',
      (sequential σ).Run Q w (s.ops mv) w' ∧ Serial s' w' lost := by
  have hlistens : s.listening = true → w.module.isSome := by
    intro hlisten
    rw [h.module]
    exact (Bool.and_eq_true_iff.mp hlisten).1
  cases mv with
  | proceed i faults answer nowMs => exact absurd rfl (hfirst i faults answer nowMs)
  | init config env =>
    cases hstep
    exact ⟨_, run_single (hQ _ (List.mem_singleton_self _)) (by intro he; cases he) rfl,
      h.init config env⟩
  | shutdown =>
    simp only [Threads.step] at hstep
    split at hstep <;> cases hstep
    exact ⟨_, run_single (hQ _ (List.mem_singleton_self _)) (by intro he; cases he) rfl,
      h.shutdown⟩
  | setInstallationName faults name =>
    cases hstep
    refine ⟨_, run_single (hQ _ (List.mem_singleton_self _)) (by intro he; cases he) rfl,
      h.handled (f := fun g => (setInstallationName faults name g).1) ?_ rfl rfl⟩
    intro r
    refine ⟨[], ?_, ?_⟩
    · rw [List.append_nil]
      exact setInstallationName_raised _ _ _
    · rw [List.append_nil, setInstallationName_recall]
  | createConversation | createGroupConversation | addGroupMember | sendMessage =>
    cases hstep
    refine ⟨w, .nil w, h.unseen rfl ?_⟩
    rw [due_go fun _ => rfl]
  | setConversationNickname faults convoId nickname =>
    cases hstep
    refine ⟨_, run_single (hQ _ (List.mem_singleton_self _)) (by intro he; cases he) rfl,
      h.called _ () (fun r => setConversationNicknameLocked_recall _ r _ _ _)
        (setConversationNicknameLocked_raised _ _ _ _) rfl ?_⟩
    exact List.Perm.of_eq List.filterMap_append
  | deleteConversation faults convoId =>
    cases hstep
    refine ⟨_, run_single (hQ _ (List.mem_singleton_self _)) (by intro he; cases he) rfl,
      h.called _ () (fun r => deleteConversationLocked_recall _ r _ _)
        (deleteConversationLocked_raised _ _ _) rfl ?_⟩
    exact List.Perm.of_eq List.filterMap_append
  | conversationStarted convoId kind answer =>
    simp only [Threads.step] at hstep
    split at hstep <;> cases hstep
    exact ⟨w, .nil w, h.unseen rfl (List.Perm.refl _)⟩
  | conversationRecorded faults =>
    cases hc : s.consumer with
    | none => simp [Threads.step, hc] at hstep
    | some started =>
      have hup : w.module.isSome := by
        rw [h.module]
        exact horderly.consumer (by rw [hc]; rfl)
      simp only [Threads.step, hc] at hstep
      cases hstep
      simp only [Threads.ops, hc] at hQ ⊢
      refine ⟨_, run_single (hQ _ (List.mem_singleton_self _)) (fun _ => hup) ?_,
        h.handled (f := recordConversationStartedLocked faults started.convoId started.kind
          started.metadata) (fun r => recordConversationStartedLocked_recall _ r _ _ _ _) rfl rfl⟩
      unfold Op.run recordConversationStarted
      dsimp only
      rw [withClient_ok_iff.mpr ⟨hup, rfl⟩, horderly.started started hc]
  | messageReceived faults convoId content account installation nowMs =>
    simp only [Threads.step] at hstep
    split at hstep
    · cases hstep
    · next hlisten =>
      have hup : s.listening = true := by simpa using hlisten
      cases hstep
      exact ⟨_, run_single (hQ _ (List.mem_singleton_self _)) (fun _ => hlistens hup) rfl,
        h.handled (f := fun g =>
            (recordMessageReceived faults convoId content account installation nowMs g).1)
          (fun r => recordMessageReceived_recall _ r _ _ _ _ _ _) rfl rfl⟩
  | membersChanged convoId =>
    simp only [Threads.step] at hstep
    split at hstep
    · cases hstep
    · next hlisten =>
      have hup : s.listening = true := by simpa using hlisten
      cases hstep
      exact ⟨_, run_single (hQ _ (List.mem_singleton_self _)) (fun _ => hlistens hup) rfl,
        h.handled (f := recordMembersChanged convoId) (fun r => recordMembersChanged_recall _ r _)
          rfl rfl⟩

/-- One step, the operation it runs the section of, and the event it loses. -/
theorem serial_step [LawfulMessageStore σ] (horderly : Orderly s) (h : Serial s w lost)
    (hstep : s.step mv = some s') (hQ : ∀ op ∈ s.ops mv, Q w op) : ∃ w',
      (sequential σ).Run Q w (s.ops mv) w' ∧ Serial s' w' (lost ++ overrun s mv) := by
  cases mv with
  | proceed i faults answer nowMs =>
    cases hcall : s.calls[i]? with
    | none => simp [Threads.step, hcall] at hstep
    | some call =>
      simp only [Threads.ops, hcall] at hQ ⊢
      exact serial_proceed horderly h hcall hstep hQ
  | _ =>
    obtain ⟨w', hrun, hserial⟩ := serial_section horderly h (by simp) hstep hQ
    refine ⟨w', hrun, ?_⟩
    show Serial s' w' (lost ++ [])
    rwa [List.append_nil]

end Serial

/-! ## Runs -/

/-- A shutdown finds the calls in flight past their last sections. -/
def WaitsForCalls (s : Threads σ) (mv : Move) : Prop := mv = .shutdown → PastSections s

section Runs

variable [MessageStore σ] [LawfulMessageStore σ] {s s' : Threads σ} {moves : List Move}

/-- An interleaved run and the run of its operations one at a time. -/
theorem serial_run {P : Threads σ → Move → Prop} {Q : World σ → Op → Prop}
    (hwaits : ∀ s mv, P s mv → WaitsForCalls s mv)
    (hQ : ∀ s mv w lost, P s mv → Serial s w lost → ∀ op ∈ s.ops mv, Q w op)
    (hr : (interleaved σ).Run P s moves s') (horderly : Orderly s) {w : World σ}
    {lost : List PluginEvent} (h : Serial s w lost) : ∃ w',
      (sequential σ).Run Q w ((interleaved σ).output Threads.ops s moves) w' ∧
        Orderly s' ∧ Serial s' w' (lost ++ (interleaved σ).output overrun s moves) := by
  refine hr.simulation_accumulates (R := fun lost s w => Orderly s ∧ Serial s w lost) ?_ lost
    ⟨horderly, h⟩
  rintro lost s mv s' w hP hstep ⟨horderly, hserial⟩
  obtain ⟨w', hrun, hserial'⟩ :=
    serial_step horderly hserial hstep (hQ s mv w lost hP hserial)
  exact ⟨w', hrun, orderly_step (hwaits s mv hP) hstep horderly, hserial'⟩

omit [LawfulMessageStore σ] [MessageStore σ] in
theorem serial_start (file : ChatDb σ) (own : Option String) :
    Serial (Threads.start file own) (World.start file own) [] :=
  ⟨rfl, rfl⟩

/-- Whatever calls and handlers did between each other's sections, they did what the same
operations do one at a time, in the order of those sections; what they raised besides is
what sends and invitations announced after their conversation was deleted. -/
theorem serialised {file : ChatDb σ} {own : Option String}
    (hr : (interleaved σ).Run WaitsForCalls (.start file own) moves s) : ∃ w,
      (sequential σ).Run (fun _ _ => True) (World.start file own)
        ((interleaved σ).output Threads.ops (.start file own) moves) w ∧
      w.module = s.world.module ∧ w.ownNodePreset = s.world.ownNodePreset ∧
      w.guarded.display = s.guarded.display ∧ w.guarded.file = s.guarded.file ∧
      (s.guarded.raised ++ s.due).Perm
        (w.guarded.raised ++ (interleaved σ).output overrun (.start file own) moves) := by
  obtain ⟨w, hrun, -, hserial⟩ := serial_run (fun _ _ h => h)
    (fun _ _ _ _ _ _ _ _ => trivial) hr (orderly_start file own) (serial_start file own)
  refine ⟨w, hrun, hserial.module, ?_, ?_, ?_, ?_⟩
  · rw [hserial.world]
  · rw [hserial.guarded]
    rfl
  · rw [hserial.guarded]
    rfl
  · have hraised := hserial.raised
    rwa [Multiset.coe_add, Multiset.coe_add, Multiset.coe_eq_coe] at hraised

/-- The operations of `overtaken`, in the order of their sections. -/
def overtakenInTurn : List Op := [
  .init ⟨none⟩ (.up ⟨"name", "addr"⟩ []),
  .createConversation noFaults (.ok "c1") "peer",
  .deleteConversation noFaults "c1",
  .sendMessage noFaults (.ok ()) "c1" "hello" 3]

/-- A send that was overtaken by the deletion of its conversation: one at a time it comes
after the deletion, and fails. -/
theorem serialised_overtaken : ∃ (s : Threads LogStore) (w : World LogStore),
    (interleaved LogStore).exec (.start emptyDb none) overtaken = some s ∧
    (sequential LogStore).exec (.start emptyDb none) overtakenInTurn = some w ∧
    w.guarded.display = s.guarded.display ∧ w.guarded.file = s.guarded.file ∧
    s.guarded.raised.Perm (w.guarded.raised ++ [.messageSent "c1" "hello" 3]) := by
  have hexec : ∃ (s : Threads LogStore) (w : World LogStore),
      (interleaved LogStore).exec (.start emptyDb none) overtaken = some s ∧ s.due = [] ∧
      s.guarded.raised = [directCreated "c1", .conversationDeleted "c1"] ++
        [.messageSent "c1" "hello" 3] ∧
      (interleaved LogStore).output Threads.ops (.start emptyDb none) overtaken =
        overtakenInTurn ∧
      (interleaved LogStore).output overrun (.start emptyDb none) overtaken =
        [.messageSent "c1" "hello" 3] ∧
      (sequential LogStore).exec (.start emptyDb none) overtakenInTurn = some w :=
    ⟨_, _, rfl, rfl, rfl, rfl, by decide, rfl⟩
  obtain ⟨s, w, hexec, hdue, hraised, hops, hlost, hturn⟩ := hexec
  have hr : (interleaved LogStore).Run WaitsForCalls (.start emptyDb none) overtaken s := by
    refine (Machine.run_of_exec hexec).imp ?_
    rintro mv hmv s - rfl
    simp [overtaken, deleting] at hmv
  obtain ⟨w', hrun, -, -, hdisplay, hfile, hperm⟩ := serialised hr
  rw [hops] at hrun
  obtain rfl : w' = w := Option.some.inj (hrun.exec.symm.trans hturn)
  rw [hdue, List.append_nil, hlost] at hperm
  exact ⟨s, w', hexec, hturn, hdisplay, hfile, hperm⟩

/-- No write fails, and libchat gives creates ids that nothing is shown of. -/
def Regular (s : Threads σ) (mv : Move) : Prop :=
  WaitsForCalls s mv ∧ ∀ op ∈ s.ops mv, Admissible s.world op

end Runs

end ChatModule
