import ChatModule.Creating
import ChatModule.Restart

/-!
# Where messages come from

Calls overlap, writes fail, sessions end and begin, and a create may put an empty session in
place of one that has messages. Messages are lost that way; none is made up.

* `provenance` — whatever the run, what is listed of a conversation, and what is stored of it,
  is some of what the file had to begin with and of what was sent and received in it since, in
  that order, each said once; and no conversation is counted longer than that;
* `committed` — what is stored of it is all that sections have reported to be stored since it
  was last reported deleted, and nothing else.
-/

namespace ChatModule

open Actions Persistence

variable {σ : Type} [MessageStore σ]

/-! ## What a section may add -/

/-- What `g'` lists and stores of `id` is some of what `g` does with `new` after it, and it
counts no more than these. -/
structure Draws (id : String) (new : List DisplayMessage) (g g' : Guarded σ) : Prop where
  listed : (shown g' id).1.Sublist ((shown g id).1 ++ new)
  counted : (shown g' id).2 + (shown g' id).1.length ≤
    (shown g id).2 + (shown g id).1.length + new.length
  stored : ((g'.file.history id).map reported).Sublist
    ((g.file.history id).map reported ++ new.map message)

namespace Draws

variable {g g' g₁ : Guarded σ} {id : String} {new : List DisplayMessage} {session : ChatSession}

theorem refl (g : Guarded σ) : Draws id [] g g :=
  ⟨by simp, by simp, by simp⟩

/-- What is said may be dropped. -/
theorem drop (h : Draws id [] g g') (new : List DisplayMessage) : Draws id new g g' := by
  refine ⟨?_, ?_, ?_⟩
  · exact h.listed.trans ((List.nil_sublist new).append_left _)
  · exact h.counted.trans (by simp)
  · exact h.stored.trans ((List.nil_sublist _).append_left _)

theorem trans (h : Draws id [] g g₁) (h' : Draws id new g₁ g') : Draws id new g g' := by
  have hlisted : (shown g₁ id).1.Sublist (shown g id).1 := by simpa using h.listed
  have hstored : ((g₁.file.history id).map reported).Sublist
      ((g.file.history id).map reported) := by
    simpa using h.stored
  have hcounted := h.counted
  have hcounted' := h'.counted
  refine ⟨?_, ?_, ?_⟩
  · exact h'.listed.trans (hlisted.append_right new)
  · simp only [List.length_nil, Nat.add_zero] at hcounted
    omega
  · exact h'.stored.trans (hstored.append_right _)

/-- A section about another conversation. -/
theorem of_sameAt (h : SameAt id g g') : Draws id [] g g' := by
  have hshown : shown g' id = shown g id := by simp [shown, h.chat]
  refine ⟨?_, ?_, ?_⟩
  · simp [hshown]
  · simp [hshown]
  · simp [h.history]

/-- A session put, whose messages go on from those shown under its id. -/
theorem put (hid : session.chatId = id) (hd : g'.display = (g.put session).display)
    (hlisted : session.messages.Sublist ((shown g id).1 ++ new))
    (hcounted : session.olderMessages + session.messages.length ≤
      (shown g id).2 + (shown g id).1.length + new.length)
    (hstored : ((g'.file.history id).map reported).Sublist
      ((g.file.history id).map reported ++ new.map message)) : Draws id new g g' := by
  have hshown : shown g' id = (session.messages, session.olderMessages) := by
    subst hid
    apply shown_of_get
    rw [Guarded.chats, hd]
    exact Keyed.get_insert_self _ session
  refine ⟨?_, ?_, hstored⟩
  · rw [hshown]
    exact hlisted
  · rw [hshown]
    exact hcounted

/-- A session put that shows what was shown, with nothing said. -/
theorem same (hid : session.chatId = id) (hd : g'.display = (g.put session).display)
    (hshown : (session.messages, session.olderMessages) = shown g id)
    (hfile : g'.file.history id = g.file.history id) : Draws id [] g g' := by
  obtain ⟨hmsgs, holder⟩ := Prod.ext_iff.mp hshown
  dsimp only at hmsgs holder
  apply put hid hd
  · rw [hmsgs]
    simp
  · rw [hmsgs, holder]
    simp
  · rw [hfile]
    simp

/-- A session put with nothing in it. -/
theorem empty (hid : session.chatId = id) (hd : g'.display = (g.put session).display)
    (hmsgs : session.messages = []) (holder : session.olderMessages = 0)
    (hfile : g'.file.history id = g.file.history id) : Draws id [] g g' := by
  apply put hid hd
  · rw [hmsgs]
    exact List.nil_sublist _
  · rw [hmsgs, holder]
    exact Nat.zero_le _
  · rw [hfile]
    simp

end Draws

/-! ## Sections -/

section Sections

variable {g : Guarded σ} {s s' : Threads σ} {mv : Move} {id c : String}

/-- A row has no messages in it. -/
theorem persistChat_history (faults : Faults) (c id : String) (g : Guarded σ) :
    (persistChat faults c g).1.file.history id = g.file.history id := by
  rcases persistChat_cases faults c g with ⟨e, heq⟩ | ⟨s, -, -, -, heq⟩
  · rw [heq]
  · rw [heq]
    rfl

theorem draws_insertChat (faults : Faults) {session : ChatSession} (hmsgs : session.messages = [])
    (holder : session.olderMessages = 0) (g : Guarded σ) :
    Draws session.chatId [] g (insertChat faults session g).1 :=
  .empty rfl (insertChat_display _ _ _) hmsgs holder (persistChat_history _ _ _ _)

theorem draws_setConversationNickname (faults : Faults) (id nickname : String) (g : Guarded σ) :
    Draws id [] g (setConversationNicknameLocked faults id nickname g).1 := by
  rcases setConversationNicknameLocked_cases faults id nickname g with
    ⟨-, heq⟩ | ⟨session, hget, heq⟩
  · rw [heq]
    exact .refl g
  · have hid : session.chatId = id := Keyed.key_of_get hget
    rw [heq]
    refine .same ?_ (persistChat_display _ _ _) ?_ (persistChat_history _ _ _ _)
    · exact hid
    · rw [shown_of_get hget]

theorem draws_recordConversationStarted (faults : Faults) (id : String) (kind : ConversationKind)
    (md : Option String × Option String) (g : Guarded σ) :
    Draws id [] g (recordConversationStartedLocked faults id kind md g) := by
  have hfile := recordConversationStartedLocked_history faults id id kind md g
  have hd := recordConversationStartedLocked_display faults id kind md g
  by_cases hdel : id ∈ g.deleted
  · rw [recordConversationStartedLocked_of_deleted hdel]
    exact .refl g
  · rw [if_neg hdel] at hd
    cases hget : g.chats.get id with
    | none =>
      rw [hget] at hd
      exact .empty (chatId_openedSession ..) hd rfl rfl hfile
    | some session =>
      have hid : session.chatId = id := Keyed.key_of_get hget
      rw [hget] at hd
      refine .same ?_ hd ?_ hfile
      · exact hid
      · rw [shown_of_get hget]

theorem draws_deleteConversation [LawfulMessageStore σ] (faults : Faults) (id : String)
    (g : Guarded σ) : Draws id [] g (deleteConversationLocked faults id g).1 := by
  rcases deleteConversationLocked_cases faults id g with ⟨e, heq⟩ | ⟨-, -, heq⟩
  · rw [heq]
    exact .refl g
  · have hgone : (writeFile (g.forget id) (g.file.withoutChat id)).chats.get id = none := by
      rw [chats_writeFile, Guarded.chats_forget, Keyed.get_remove, if_pos rfl]
    rw [heq]
    refine ⟨?_, ?_, ?_⟩
    · rw [shown_of_get_none hgone]
      exact List.nil_sublist _
    · rw [shown_of_get_none hgone]
      exact Nat.zero_le _
    · rw [file_writeFile, ChatDb.history_withoutChat, if_pos rfl]
      exact List.nil_sublist _

/-- A message is recorded in memory and in the file, in memory only, or not at all. -/
theorem draws_recordMessage [LawfulMessageStore σ] (faults : Faults) (m : StoredMessage)
    (chatChanged : Bool) (g : Guarded σ) :
    Draws m.chatId [displayMessage m] g (Actions.recordMessage faults m chatChanged g).1 := by
  rcases recordMessage_cases faults m chatChanged g with
    ⟨-, heq⟩ | ⟨-, heq⟩ | ⟨session, hget, -, hwrite⟩
  · rw [heq]
    exact (Draws.refl g).drop _
  · rw [heq]
    exact (Draws.refl g).drop _
  · have hlisted : (pushMessage session m).messages =
        (shown g m.chatId).1 ++ [displayMessage m] := by
      rw [shown_of_get hget]
      rfl
    have hcounted : (pushMessage session m).olderMessages + (pushMessage session m).messages.length
        = (shown g m.chatId).2 + (shown g m.chatId).1.length + 1 := by
      rw [hlisted, shown_of_get hget, List.length_append, ← Nat.add_assoc]
      rfl
    have hid : (pushMessage session m).chatId = m.chatId := (Keyed.key_of_get hget :)
    rcases hwrite with ⟨e, heq⟩ | heq
    · rw [heq]
      exact .put hid rfl (hlisted ▸ List.Sublist.refl _) hcounted.le (List.sublist_append_left _ _)
    · have hfile : (recorded g.file (if chatChanged then some session else none) m).history
          m.chatId = g.file.history m.chatId ++ [m] := by
        cases chatChanged <;> simp [recorded, ChatDb.history_withMessage]
      rw [heq]
      refine .put hid rfl (hlisted ▸ List.Sublist.refl _) hcounted.le ?_
      rw [file_writeFile, hfile, List.map_append]
      exact List.Sublist.refl _

theorem draws_messageReceived [LawfulMessageStore σ] (faults : Faults) (id : String)
    (content : List UInt8) (account installation : String) (t : UInt64) (g : Guarded σ) :
    Draws id [receivedEntry content account t] g
      (recordMessageReceived faults id content account installation t g).1 := by
  rcases recordMessageReceived_cases faults id content account installation t g with
    ⟨-, heq⟩ | ⟨-, r, rfl, heq⟩
  · rw [heq]
    exact (Draws.refl g).drop _
  · have hput : Draws id [] g (g.put (receivingSession id account g)) :=
      .same (chatId_receivingSession ..) rfl (receivingSession_shown _ _ _) rfl
    have hrecord := draws_recordMessage faults
      (receivedMessage id content account installation t) (receivingChangesChat id g)
      (g.put (receivingSession id account g))
    rw [displayMessage_receivedMessage, chatId_receivedMessage] at hrecord
    have h := hput.trans hrecord
    rw [heq]
    exact ⟨h.listed, h.counted, h.stored⟩

/-! ## Steps -/

/-- A shutdown shows nothing of any conversation, and leaves the file. -/
theorem draws_shutdown (id : String) (w : World σ) :
    Draws id [] w.guarded (Actions.shutdown w).guarded := by
  cases hm : w.module with
  | none =>
    rw [shutdown_of_none hm]
    exact .refl _
  | some ms =>
    have hdefault := shutdown_display (w := w) (by rw [hm]; rfl)
    have hgone : (Actions.shutdown w).guarded.chats.get id = none := by
      rw [Guarded.chats, hdefault]
      rfl
    refine ⟨?_, ?_, ?_⟩
    · rw [shown_of_get_none hgone]
      exact List.nil_sublist _
    · rw [shown_of_get_none hgone]
      exact Nat.zero_le _
    · rw [shutdown_file]
      exact List.sublist_append_left _ _

/-- What the next section of a call adds. -/
theorem draws_proceed [LawfulMessageStore σ] {i : ℕ} {answer : Except ClientError Unit}
    {nowMs : UInt64} {call : Call} (faults : Faults) (hblank : Blank s)
    (hcall : s.calls[i]? = some call) :
    Draws id (records id s (.proceed i faults answer nowMs)) s.guarded
      (call.proceed faults answer nowMs s.world).1 := by
  unfold records
  simp only [hcall]
  cases call with
  | sendChecked convoId content => exact .refl _
  | inviteChecked convoId => exact .refl _
  | raising event => exact .of_sameAt (SameAt.refl _).emit
  | sent convoId content =>
    show Draws id (if convoId = id ∧ (s.guarded.chats.get id).isSome then
      [sentEntry content nowMs] else []) s.guarded
        (sendMessageLocked faults convoId content nowMs s.guarded).1
    by_cases hid : convoId = id
    · subst hid
      cases hget : s.guarded.chats.get convoId with
      | none =>
        rw [sendMessageLocked_of_get_none hget]
        exact (Draws.refl _).drop _
      | some session =>
        have hrecord := draws_recordMessage faults
          (chatMessage convoId .sent nowMs (Utf8.asBytes content)) false s.guarded
        rw [displayMessage_chatMessage, chatId_chatMessage] at hrecord
        rw [if_pos ⟨rfl, rfl⟩]
        exact hrecord
    · rw [if_neg (fun h => hid h.1)]
      exact .of_sameAt (recordMessage_sameAt (Ne.symm hid) _ _ _)
  | created session event =>
    show Draws id [] s.guarded (insertChat faults session s.guarded).1
    obtain ⟨hmsgs, holder, -⟩ := hblank session event (List.mem_of_getElem? hcall)
    by_cases hid : id = session.chatId
    · rw [hid]
      exact draws_insertChat faults hmsgs holder _
    · exact .of_sameAt (persistChat_put_sameAt hid _ _)

variable [LawfulMessageStore σ]

/-- What a step adds, if it is no init. -/
theorem draws_step (hblank : Blank s) (hmv : ∀ config env, mv ≠ .init config env)
    (hstep : s.step mv = some s') : Draws id (records id s mv) s.guarded s'.guarded := by
  cases mv with
  | init config env => exact absurd rfl (hmv config env)
  | shutdown =>
    simp only [Threads.step] at hstep
    split at hstep <;> cases hstep
    exact draws_shutdown id s.world
  | setInstallationName faults name =>
    cases hstep
    exact .of_sameAt (setInstallationName_sameAt _ _ _)
  | createConversation | createGroupConversation | addGroupMember | sendMessage =>
    cases hstep
    exact .refl _
  | setConversationNickname faults convoId nickname =>
    cases hstep
    show Draws id [] s.guarded
      (setConversationNicknameLocked faults convoId nickname s.guarded).1
    by_cases hid : id = convoId
    · rw [hid]
      exact draws_setConversationNickname _ _ _ _
    · exact .of_sameAt (setConversationNicknameLocked_sameAt hid _ _ _)
  | deleteConversation faults convoId =>
    cases hstep
    show Draws id [] s.guarded (deleteConversationLocked faults convoId s.guarded).1
    by_cases hid : id = convoId
    · rw [hid]
      exact draws_deleteConversation _ _ _
    · exact .of_sameAt (deleteConversationLocked_sameAt hid _ _)
  | proceed i faults answer nowMs =>
    cases hcall : s.calls[i]? with
    | none => simp [Threads.step, hcall] at hstep
    | some call =>
      simp only [Threads.step, hcall] at hstep
      cases hstep
      exact draws_proceed faults hblank hcall
  | conversationStarted convoId kind answer =>
    simp only [Threads.step] at hstep
    split at hstep <;> cases hstep
    exact .refl _
  | conversationRecorded faults =>
    simp only [Threads.step] at hstep
    split at hstep
    · cases hstep
    · next started hstarted =>
      cases hstep
      show Draws id [] s.guarded (recordConversationStartedLocked faults started.convoId
        started.kind started.metadata s.guarded)
      by_cases hid : id = started.convoId
      · rw [hid]
        exact draws_recordConversationStarted _ _ _ _ _
      · exact .of_sameAt (recordConversationStartedLocked_sameAt hid _ _ _ _)
  | messageReceived faults convoId content account installation nowMs =>
    simp only [Threads.step] at hstep
    split at hstep <;> cases hstep
    show Draws id (if convoId = id then [receivedEntry content account nowMs] else []) s.guarded
      (recordMessageReceived faults convoId content account installation nowMs s.guarded).1
    by_cases hid : convoId = id
    · rw [if_pos hid, hid]
      exact draws_messageReceived _ _ _ _ _ _ _
    · rw [if_neg hid]
      exact .of_sameAt (recordMessageReceived_sameAt (Ne.symm hid) _ _ _ _ _ _)
  | membersChanged convoId =>
    simp only [Threads.step] at hstep
    split at hstep <;> cases hstep
    exact .of_sameAt (recordMembersChanged_sameAt _)

end Sections

/-! ## Runs -/

/-- What is listed and what is stored of `id` is some of `said`, and no more is counted. -/
structure Drawn (id : String) (said : List Message) (g : Guarded σ) : Prop where
  listed : (getMessages g id).Sublist said
  counted : (shown g id).2 + (shown g id).1.length ≤ said.length
  stored : ((g.file.history id).map reported).Sublist said

section Runs

variable {g g' : Guarded σ} {s s' : Threads σ} {mv : Move} {moves : List Move} {id : String}
  {said : List Message}

theorem Drawn.step {new : List DisplayMessage} (h : Drawn id said g) (hd : Draws id new g g') :
    Drawn id (said ++ new.map message) g' := by
  have hlisted := h.listed
  have hcounted := h.counted
  rw [getMessages_eq_shown] at hlisted
  refine ⟨?_, ?_, ?_⟩
  · rw [getMessages_eq_shown]
    have hmap := hd.listed.map message
    rw [List.map_append] at hmap
    exact hmap.trans (hlisted.append_right _)
  · rw [List.length_append, List.length_map]
    exact hd.counted.trans (Nat.add_le_add_right hcounted _)
  · exact hd.stored.trans (h.stored.append_right _)

variable [LawfulMessageStore σ]

/-- An init that opens a session lists the newest of what is stored. -/
theorem Drawn.init {w : World σ} (h : Drawn id said w.guarded) (config : ChatConfig)
    (env : Environment) : Drawn id said (Actions.init config env w).world.guarded := by
  rcases init_cases config env w with ⟨-, g, ms, hinit, heq⟩ | ⟨-, heq⟩ | ⟨-, e, -, heq⟩
  · obtain ⟨live, -, hseeded⟩ := initializeModule_ok hinit
    obtain ⟨hlisted, hleft⟩ := hseeded.shown_eq id
    have hstored := h.stored
    have hlength := hstored.length_le
    have hloaded : (loadedMessages w.guarded.file id).Sublist
          ((w.guarded.file.history id).map reported) ∧
        leftOut w.guarded.file id + (loadedMessages w.guarded.file id).length ≤
          ((w.guarded.file.history id).map reported).length := by
      unfold loadedMessages leftOut
      cases w.guarded.file.row id with
      | none => exact ⟨List.nil_sublist _, Nat.zero_le _⟩
      | some row =>
        refine ⟨((List.drop_suffix _ _).sublist).map _, ?_⟩
        simp only [List.length_map, List.length_rtake]
        omega
    rw [heq]
    refine ⟨?_, ?_, ?_⟩
    · rw [hlisted]
      exact hloaded.1.trans hstored
    · have hmessages := congrArg List.length hlisted
      rw [getMessages_eq_shown, List.length_map] at hmessages
      rw [hleft, hmessages]
      exact hloaded.2.trans hlength
    · rw [hseeded.file]
      exact hstored
  · rw [heq]
    have hsame := h.step (.of_sameAt (claimDeliveryRetry_sameAt w.guarded))
    simpa using hsame
  · rw [heq]
    exact h

theorem drawn_step (hblank : Blank s) (hstep : s.step mv = some s') (h : Drawn id said s.guarded) :
    Drawn id (said ++ (records id s mv).map message) s'.guarded := by
  by_cases hmv : ∃ config env, mv = .init config env
  · obtain ⟨config, env, rfl⟩ := hmv
    cases hstep
    have hinit := h.init config env
    rw [show (records id s (.init config env)).map message = [] from rfl, List.append_nil]
    exact hinit
  · apply h.step (draws_step hblank ?_ hstep)
    intro config env heq
    exact hmv ⟨config, env, heq⟩

/-- Nothing is listed or stored that was not said in its conversation, nothing twice that was
said once, and nothing out of order: in any run, over any number of sessions, whichever
writes fail and however calls and handlers overlap. -/
theorem provenance {file : ChatDb σ} {own : Option String}
    (hr : (interleaved σ).Run (fun _ _ => True) (.start file own) moves s) (id : String) :
    Drawn id ((file.history id).map reported ++
      ((interleaved σ).output (records id) (.start file own) moves).map message) s.guarded := by
  have hall := hr.accumulates
    (I := fun out s => Drawn id ((file.history id).map reported ++ out.map message) s.guarded ∧
      Blank s) (f := records id) ?_ ⟨?_, ?_⟩
  · exact hall.1
  · rintro out s mv s' - hstep ⟨hdrawn, hblank⟩
    refine ⟨?_, blank_step hstep hblank⟩
    rw [List.map_append, ← List.append_assoc]
    exact drawn_step hblank hstep hdrawn
  · rw [List.map_nil, List.append_nil]
    exact ⟨List.nil_sublist _, Nat.zero_le _, List.Sublist.refl _⟩
  · intro session event hmem
    cases hmem

/-- No message can be written. -/
def recordFails : Faults := fun stmt => if stmt = .record then some "disk full" else none

/-- Two messages are received, the second of which cannot be written, and the module is
restarted. -/
def receivedTwice : List Move := [
  .init ⟨none⟩ (.up ⟨"name", "addr"⟩ []),
  .conversationStarted "c1" .direct (.error "no group"),
  .conversationRecorded noFaults,
  .messageReceived noFaults "c1" [104, 105] "peer" "device" 1,
  .messageReceived recordFails "c1" [104, 111] "peer" "device" 2,
  .shutdown,
  .init ⟨none⟩ (.up ⟨"name", "addr"⟩ [])]

theorem provenance_receivedTwice : ∃ s : Threads LogStore,
    (interleaved LogStore).exec (.start emptyDb none) receivedTwice = some s ∧
    getMessages s.guarded "c1" = [⟨false, "hi", 1, some "peer"⟩] ∧
    Drawn "c1" [⟨false, "hi", 1, some "peer"⟩, ⟨false, "ho", 2, some "peer"⟩] s.guarded := by
  have hexec : ∃ s : Threads LogStore,
      (interleaved LogStore).exec (.start emptyDb none) receivedTwice = some s ∧
      getMessages s.guarded "c1" = [⟨false, "hi", 1, some "peer"⟩] ∧
      (((emptyDb : ChatDb LogStore).history "c1").map reported ++ ((interleaved LogStore).output
        (records "c1") (.start emptyDb none) receivedTwice).map message) =
          [⟨false, "hi", 1, some "peer"⟩, ⟨false, "ho", 2, some "peer"⟩] := ⟨_, rfl, rfl, rfl⟩
  obtain ⟨s, hexec, hmsgs, hsaid⟩ := hexec
  have hdrawn := provenance (Machine.run_of_exec hexec) "c1"
  rw [hsaid] at hdrawn
  exact ⟨s, hexec, hmsgs, hdrawn⟩

end Runs

/-! ## What is stored -/

/-- What a section reports to have done to the messages stored of a conversation. -/
inductive Commit
  | said (m : StoredMessage)
  | deleted

def Commit.apply (log : List StoredMessage) : Commit → List StoredMessage
  | .said m => log ++ [m]
  | .deleted => []

/-- What a step reports of `id`. A send that finds its conversation gone reports success and
stores nothing. -/
def commits (id : String) (s : Threads σ) : Move → List Commit
  | .proceed i faults _ nowMs =>
    match s.calls[i]? with
    | some (.sent convoId content) =>
      if convoId = id ∧ (s.guarded.chats.get id).isSome ∧
          (sendMessageLocked faults convoId content nowMs s.guarded).2.isOk then
        [.said (chatMessage id .sent nowMs (Utf8.asBytes content))]
      else []
    | _ => []
  | .messageReceived faults convoId content account installation nowMs =>
    if convoId = id ∧ (recordMessageReceived faults convoId content account installation nowMs
        s.guarded).2.any Except.isOk then
      [.said (receivedMessage id content account installation nowMs)]
    else []
  | .deleteConversation faults convoId =>
    if convoId = id ∧ (deleteConversationLocked faults convoId s.guarded).2.isOk then [.deleted]
    else []
  | _ => []

section Stored

variable {g : Guarded σ} {s s' : Threads σ} {mv : Move} {moves : List Move} {id : String}
  [LawfulMessageStore σ]

/-- A message is stored when the recording reports success in a conversation that is there. -/
theorem recordMessage_history (faults : Faults) (m : StoredMessage) (chatChanged : Bool)
    (g : Guarded σ) : (Actions.recordMessage faults m chatChanged g).1.file.history m.chatId =
      if (g.chats.get m.chatId).isSome ∧ (Actions.recordMessage faults m chatChanged g).2.isOk
      then g.file.history m.chatId ++ [m] else g.file.history m.chatId := by
  rcases recordMessage_cases faults m chatChanged g with
    ⟨hnone, heq⟩ | ⟨-, heq⟩ | ⟨session, hget, -, ⟨e, heq⟩ | heq⟩
  · rw [heq, hnone, if_neg (by simp)]
  · rw [heq, if_neg (by simp [Except.isOk, Except.toBool])]
  · rw [heq, if_neg (by simp [Except.isOk, Except.toBool])]
    rfl
  · have hyes : (some session).isSome ∧ (Except.ok () : Except CoreError Unit).isOk := ⟨rfl, rfl⟩
    rw [heq, hget, if_pos hyes, file_writeFile]
    cases chatChanged <;> simp [recorded, ChatDb.history_withMessage]

theorem recordMessageReceived_history (faults : Faults) (id : String) (content : List UInt8)
    (account installation : String) (t : UInt64) (g : Guarded σ) :
    (recordMessageReceived faults id content account installation t g).1.file.history id =
      if (recordMessageReceived faults id content account installation t g).2.any Except.isOk
      then g.file.history id ++ [receivedMessage id content account installation t]
      else g.file.history id := by
  rcases recordMessageReceived_cases faults id content account installation t g with
    ⟨-, heq⟩ | ⟨-, r, rfl, heq⟩
  · rw [heq, if_neg (by simp)]
  · have hput : ((g.put (receivingSession id account g)).chats.get id).isSome := by
      have hself := Keyed.get_insert_self g.chats (receivingSession id account g)
      rw [chatId_receivingSession] at hself
      rw [Guarded.chats_put, hself]
      rfl
    have hrecord := recordMessage_history faults
      (receivedMessage id content account installation t) (receivingChangesChat id g)
      (g.put (receivingSession id account g))
    rw [chatId_receivedMessage] at hrecord
    rw [heq, Guarded.file_emit, hrecord]
    simp only [hput, true_and]
    rfl

theorem deleteConversationLocked_history (faults : Faults) (id : String) (g : Guarded σ) :
    (deleteConversationLocked faults id g).1.file.history id =
      if (deleteConversationLocked faults id g).2.isOk then [] else g.file.history id := by
  rcases deleteConversationLocked_cases faults id g with ⟨e, heq⟩ | ⟨-, -, heq⟩
  · rw [heq, if_neg (by simp [Except.isOk, Except.toBool])]
  · have hyes : (Except.ok () : Except CoreError Unit).isOk := rfl
    rw [heq, if_pos hyes, file_writeFile, ChatDb.history_withoutChat, if_pos rfl]

theorem commits_proceed {i : ℕ} {faults : Faults} {answer : Except ClientError Unit}
    {nowMs : UInt64} {call : Call} (hcall : s.calls[i]? = some call) :
    (call.proceed faults answer nowMs s.world).1.file.history id =
      (commits id s (.proceed i faults answer nowMs)).foldl Commit.apply
        (s.guarded.file.history id) := by
  simp only [commits, hcall]
  cases call with
  | sendChecked convoId content => rfl
  | inviteChecked convoId => rfl
  | raising event => rfl
  | created session event => exact persistChat_history _ _ _ _
  | sent convoId content =>
    show (sendMessageLocked faults convoId content nowMs s.guarded).1.file.history id =
      (if _ ∧ _ ∧ (sendMessageLocked faults convoId content nowMs s.guarded).2.isOk then _
        else _ : List Commit).foldl _ _
    by_cases hid : convoId = id
    · subst hid
      have hrecord := recordMessage_history faults
        (chatMessage convoId .sent nowMs (Utf8.asBytes content)) false s.guarded
      rw [chatId_chatMessage] at hrecord
      unfold sendMessageLocked
      rw [hrecord]
      simp only [true_and]
      split <;> rfl
    · rw [if_neg (fun h => hid h.1)]
      exact (recordMessage_sameAt (Ne.symm hid) _ _ _).history

theorem commits_step (hstep : s.step mv = some s') : s'.guarded.file.history id =
    (commits id s mv).foldl Commit.apply (s.guarded.file.history id) := by
  cases mv with
  | init config env =>
    cases hstep
    show (Actions.init config env s.world).world.guarded.file.history id = _
    rcases init_cases config env s.world with ⟨-, g, ms, hinit, heq⟩ | ⟨-, heq⟩ | ⟨-, e, -, heq⟩
    · obtain ⟨live, -, hseeded⟩ := initializeModule_ok hinit
      rw [heq, hseeded.file]
      rfl
    · rw [heq]
      exact (claimDeliveryRetry_sameAt s.world.guarded).history
    · rw [heq]
      rfl
  | shutdown =>
    simp only [Threads.step] at hstep
    split at hstep <;> cases hstep
    exact congrArg (ChatDb.history · id) (shutdown_file s.world)
  | setInstallationName faults name =>
    cases hstep
    exact (setInstallationName_sameAt faults name s.guarded).history
  | createConversation | createGroupConversation | addGroupMember | sendMessage =>
    cases hstep
    rfl
  | setConversationNickname faults convoId nickname =>
    cases hstep
    show (setConversationNicknameLocked faults convoId nickname s.guarded).1.file.history id = _
    rcases setConversationNicknameLocked_cases faults convoId nickname s.guarded with
      ⟨-, heq⟩ | ⟨session, -, heq⟩
    · rw [heq]
      rfl
    · rw [heq]
      exact persistChat_history _ _ _ _
  | deleteConversation faults convoId =>
    cases hstep
    show (deleteConversationLocked faults convoId s.guarded).1.file.history id = _
    simp only [commits]
    by_cases hid : convoId = id
    · subst hid
      rw [deleteConversationLocked_history]
      simp only [true_and]
      split <;> rfl
    · rw [if_neg (fun h => hid h.1)]
      exact (deleteConversationLocked_sameAt (Ne.symm hid) faults s.guarded).history
  | proceed i faults answer nowMs =>
    cases hcall : s.calls[i]? with
    | none => simp [Threads.step, hcall] at hstep
    | some call =>
      simp only [Threads.step, hcall] at hstep
      cases hstep
      exact commits_proceed hcall
  | conversationStarted convoId kind answer =>
    simp only [Threads.step] at hstep
    split at hstep <;> cases hstep
    rfl
  | conversationRecorded faults =>
    simp only [Threads.step] at hstep
    split at hstep
    · cases hstep
    · next started hstarted =>
      cases hstep
      exact recordConversationStartedLocked_history _ _ _ _ _ _
  | messageReceived faults convoId content account installation nowMs =>
    simp only [Threads.step] at hstep
    split at hstep <;> cases hstep
    show (recordMessageReceived faults convoId content account installation nowMs
      s.guarded).1.file.history id = _
    simp only [commits]
    by_cases hid : convoId = id
    · subst hid
      rw [recordMessageReceived_history]
      simp only [true_and]
      split <;> rfl
    · rw [if_neg (fun h => hid h.1)]
      exact (recordMessageReceived_sameAt (Ne.symm hid) _ _ _ _ _ _).history
  | membersChanged convoId =>
    simp only [Threads.step] at hstep
    split at hstep <;> cases hstep
    exact (recordMembersChanged_sameAt s.guarded).history

/-- In any run, over any number of sessions, the messages stored of a conversation are those
there were and those since, of which a section has reported that they are stored, in the order
of the sections, from the last one on that has reported it deleted. -/
theorem committed {file : ChatDb σ} {own : Option String}
    (hr : (interleaved σ).Run (fun _ _ => True) (.start file own) moves s) (id : String) :
    s.guarded.file.history id = ((interleaved σ).output (commits id) (.start file own)
      moves).foldl Commit.apply (file.history id) := by
  refine hr.accumulates (I := fun out s => s.guarded.file.history id =
    out.foldl Commit.apply (file.history id)) (f := commits id) ?_ rfl
  rintro out s mv s' - hstep hout
  rw [commits_step hstep, hout, List.foldl_append]

/-- The restart of `receivedTwice` finds the message that was reported stored. -/
theorem committed_receivedTwice : ∃ s : Threads LogStore,
    (interleaved LogStore).exec (.start emptyDb none) receivedTwice = some s ∧
    s.guarded.file.history "c1" = [receivedMessage "c1" [104, 105] "peer" "device" 1] := by
  have hexec : ∃ s : Threads LogStore,
      (interleaved LogStore).exec (.start emptyDb none) receivedTwice = some s ∧
      ((interleaved LogStore).output (commits "c1") (.start emptyDb none) receivedTwice).foldl
        Commit.apply ((emptyDb : ChatDb LogStore).history "c1") =
          [receivedMessage "c1" [104, 105] "peer" "device" 1] := ⟨_, rfl, rfl⟩
  obtain ⟨s, hexec, hlog⟩ := hexec
  exact ⟨s, hexec, (committed (Machine.run_of_exec hexec) "c1").trans hlog⟩

end Stored

end ChatModule
