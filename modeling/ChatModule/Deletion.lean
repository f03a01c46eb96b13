import ChatModule.Interleaved

/-!
# A deleted conversation never comes back

Every section that could bring a conversation back looks it up first, in the map or
among the ids deleted, under the lock it writes under; and the tombstone in the file
is what the next init fills the ids deleted with. `Buried id` is the invariant of the
interleaved machine that says so, through every interleaving and every restart.
-/

namespace ChatModule

open Actions Persistence

variable {σ : Type}

/-! ## Sections about a conversation that is not there -/

section Absent

variable {g : Guarded σ} {id : String}

/-- Events about a deleted conversation do nothing at all. -/
theorem recordConversationStartedLocked_of_deleted (h : id ∈ g.deleted) (faults : Faults)
    (kind : ConversationKind) (md : Option String × Option String) :
    recordConversationStartedLocked faults id kind md g = g := by
  simp [recordConversationStartedLocked, h]

theorem recordMembersChanged_of_deleted (h : id ∈ g.deleted) : recordMembersChanged id g = g := by
  simp [recordMembersChanged, h]

theorem setConversationNicknameLocked_of_get_none (h : g.chats.get id = none) (faults : Faults)
    (nickname : String) :
    setConversationNicknameLocked faults id nickname g = (g, .error .notFound) := by
  simp [setConversationNicknameLocked, h]

variable [MessageStore σ]

theorem recordMessageReceived_of_deleted (h : id ∈ g.deleted) (faults : Faults)
    (content : List UInt8) (account installation : String) (t : UInt64) :
    recordMessageReceived faults id content account installation t g = (g, none) := by
  simp [recordMessageReceived, h]

/-- A send that was past its check finds the chat gone and keeps nothing. -/
theorem sendMessageLocked_of_get_none (h : g.chats.get id = none) (faults : Faults)
    (content : String) (t : UInt64) :
    sendMessageLocked faults id content t g = (g, .ok ()) := by
  simp [sendMessageLocked, Actions.recordMessage, h]

theorem deleteConversationLocked_of_get_none (h : g.chats.get id = none) (faults : Faults) :
    deleteConversationLocked faults id g = (g, .error .notFound) := by
  simp [deleteConversationLocked, Keyed.contains, h]

end Absent

/-! ## Sections over a closed connection

Once the display is reset no section finds a connection to write with. -/

section Closed

variable [MessageStore σ] {s : Threads σ} {g : Guarded σ} {faults : Faults} {id : String}

/-- No connection, and the file as it was. -/
structure Closed (g g' : Guarded σ) : Prop where
  chatDb : g'.display.chatDb = none
  file : g'.file = g.file

omit [MessageStore σ] in
theorem persistChat_closed (h : g.display.chatDb = none) :
    Closed g (persistChat faults id g).1 := by
  rcases persistChat_cases faults id g with ⟨e, heq⟩ | ⟨s, -, hdb, -⟩
  · rw [heq]
    exact ⟨h, rfl⟩
  · simp [h] at hdb

theorem recordMessage_closed {m : StoredMessage} {chatChanged : Bool}
    (h : g.display.chatDb = none) : Closed g (Actions.recordMessage faults m chatChanged g).1 := by
  rcases recordMessage_cases faults m chatChanged g with ⟨-, heq⟩ | ⟨-, heq⟩ | ⟨s, -, hdb, -⟩
  · rw [heq]
    exact ⟨h, rfl⟩
  · rw [heq]
    exact ⟨h, rfl⟩
  · simp [h] at hdb

theorem Ran.closed (hran : Ran s g) (h : s.guarded.display.chatDb = none) :
    Closed s.guarded g := by
  cases hran with
  | nothing => exact ⟨h, rfl⟩
  | setInstallationName faults name =>
    rcases setInstallationName_cases faults name s.guarded with ⟨e, heq⟩ | ⟨hdb, -⟩
    · rw [heq]
      exact ⟨h, rfl⟩
    · simp [h] at hdb
  | @insertChat faults session event hmem =>
    -- the session goes into the map all the same
    obtain ⟨hdb, hfile⟩ := persistChat_closed (g := s.guarded.put session) h
    exact ⟨hdb, hfile⟩
  | setConversationNickname faults convoId nickname =>
    rcases setConversationNicknameLocked_cases faults convoId nickname s.guarded with
      ⟨-, heq⟩ | ⟨session, -, heq⟩
    · rw [heq]
      exact ⟨h, rfl⟩
    · rw [heq]
      obtain ⟨hdb, hfile⟩ := persistChat_closed (g := s.guarded.put _) h
      exact ⟨hdb, hfile⟩
  | deleteConversation faults convoId =>
    rcases deleteConversationLocked_cases faults convoId s.guarded with ⟨e, heq⟩ | ⟨-, hdb, -⟩
    · rw [heq]
      exact ⟨h, rfl⟩
    · simp [h] at hdb
  | sendMessage faults convoId content nowMs => exact recordMessage_closed h
  | @conversationRecorded faults started hstarted =>
    rcases recordConversationStartedLocked_cases faults started.convoId started.kind
      started.metadata s.guarded with heq | ⟨session, e, -, heq⟩ | ⟨-, e, heq⟩
    · rw [heq]
      exact ⟨h, rfl⟩
    · rw [heq]
      exact ⟨h, rfl⟩
    · rw [heq]
      obtain ⟨hdb, hfile⟩ := persistChat_closed (g := (s.guarded.emit e).put _) h
      exact ⟨hdb, hfile⟩
  | messageReceived faults convoId content account installation nowMs hlisten =>
    rcases recordMessageReceived_cases faults convoId content account installation nowMs s.guarded
      with ⟨-, heq⟩ | ⟨-, r, rfl, heq⟩
    · rw [heq]
      exact ⟨h, rfl⟩
    · rw [heq]
      obtain ⟨hdb, hfile⟩ := recordMessage_closed (g := s.guarded.put _) h
      exact ⟨hdb, hfile⟩
  | membersChanged convoId hlisten =>
    unfold recordMembersChanged
    split <;> exact ⟨h, rfl⟩
  | raise event => exact ⟨h, rfl⟩

end Closed

variable [MessageStore σ]

/-! ## Gone from the map and from the file -/

/-- The file keeps a conversation's tombstone and nothing else of it. -/
structure Erased (id : String) (db : ChatDb σ) : Prop where
  tombstone : id ∈ db.deletedChats
  row : db.row id = none
  history : db.history id = []

/-- The map and the file have nothing of a conversation but that it was deleted. -/
structure Gone (id : String) (g : Guarded σ) : Prop where
  chat : g.chats.get id = none
  deleted : id ∈ g.deleted
  erased : Erased id g.file

section Sections

variable {s : Threads σ} {g g' : Guarded σ} {id : String}

theorem Gone.of_sameAt (h : Gone id g) (hs : SameAt id g g') : Gone id g' where
  chat := by rw [hs.chat, h.chat]
  deleted := hs.deleted.mpr h.deleted
  erased := ⟨hs.tombstone.mpr h.erased.tombstone, by rw [hs.row, h.erased.row],
    by rw [hs.history, h.erased.history]⟩

/-- An init reads the tombstone back, and finds nothing else. -/
theorem Erased.seeded {client : Client} {live : List String} (h : Erased id g.file)
    (hs : Seeded g client live g') : Gone id g' where
  chat := by rw [hs.chats, h.row, Option.map_none]
  deleted := by
    rw [hs.deleted]
    exact h.tombstone
  erased := by
    rw [hs.file]
    exact h

variable [LawfulMessageStore σ]

/-- No section brings a conversation back, unless a create got its id. -/
theorem Ran.gone (hran : Ran s g) (h : Gone id s.guarded)
    (hcreate : ∀ session event, .created session event ∈ s.calls → session.chatId ≠ id) :
    Gone id g := by
  cases hran with
  | nothing => exact h
  | setInstallationName faults name => exact h.of_sameAt (setInstallationName_sameAt _ _ _)
  | insertChat faults hmem =>
    -- the one section that looks nothing up; `hcreate` is what it needs instead
    exact h.of_sameAt (persistChat_put_sameAt (hcreate _ _ hmem).symm _ _)
  | setConversationNickname faults convoId nickname =>
    by_cases hid : id = convoId
    · subst hid
      rw [setConversationNicknameLocked_of_get_none h.chat]
      exact h
    · exact h.of_sameAt (setConversationNicknameLocked_sameAt hid _ _ _)
  | deleteConversation faults convoId =>
    by_cases hid : id = convoId
    · subst hid
      rw [deleteConversationLocked_of_get_none h.chat]
      exact h
    · exact h.of_sameAt (deleteConversationLocked_sameAt hid _ _)
  | sendMessage faults convoId content nowMs =>
    -- past its check, the send looks the chat up again
    by_cases hid : id = convoId
    · subst hid
      rw [sendMessageLocked_of_get_none h.chat]
      exact h
    · exact h.of_sameAt (recordMessage_sameAt hid _ _ _)
  | @conversationRecorded faults started hstarted =>
    by_cases hid : id = started.convoId
    · rw [← hid, recordConversationStartedLocked_of_deleted h.deleted]
      exact h
    · exact h.of_sameAt (recordConversationStartedLocked_sameAt hid _ _ _ _)
  | messageReceived faults convoId content account installation nowMs hlisten =>
    by_cases hid : id = convoId
    · subst hid
      rw [recordMessageReceived_of_deleted h.deleted]
      exact h
    · exact h.of_sameAt (recordMessageReceived_sameAt hid _ _ _ _ _ _)
  | membersChanged convoId hlisten => exact h.of_sameAt (recordMembersChanged_sameAt _)
  | raise event => exact h.of_sameAt (SameAt.refl _).emit

end Sections

/-! ## Steps and runs -/

section Runs

variable {s s' s₁ s₂ : Threads σ} {id : String} {mv : Move} {pre later : List Move}

theorem sound_step (hstep : s.step mv = some s') (h : Sound s) : Sound s' := by
  have hconsumer := consumer_of_step hstep
  rcases step_cases hstep with ⟨config, env, rfl, hworld⟩ | ⟨rfl, hidle, hworld⟩ | ⟨g, hran, hworld⟩
  · -- an init leaves a session installed that it finds, and fails to or seeds a display
    have hkept : s.world.module.isSome → s'.world.module.isSome := by
      intro hm
      rcases init_cases config env s.world with ⟨hnone, -⟩ | ⟨-, heq⟩ | ⟨hnone, -⟩
      · simp [hnone] at hm
      · rw [hworld, heq]
        exact hm
      · simp [hnone] at hm
    refine ⟨?_, ?_⟩
    · intro hm
      rcases init_cases config env s.world with
        ⟨-, g, ms, -, heq⟩ | ⟨hsome, heq⟩ | ⟨hnone, e, -, heq⟩
      · simp [hworld, heq] at hm
      · simp [hworld, heq] at hm
        simp [hm] at hsome
      · rw [Threads.guarded, hworld, heq]
        exact h.closed hnone
    · intro hc
      rcases hconsumer hc with hold | ⟨hm, -⟩
      · exact hkept (h.consumer hold)
      · exact hkept hm
  · have hnone : s'.world.module = none := by rw [hworld, shutdown_module]
    refine ⟨?_, ?_⟩
    · intro _
      cases hm : s.world.module with
      | none =>
        rw [Threads.guarded, hworld, shutdown_of_none hm]
        exact h.closed hm
      | some ms =>
        rw [Threads.guarded, hworld, shutdown_display (by simp [hm])]
        rfl
    · intro hc
      rcases hconsumer hc with hold | ⟨hm, hsame⟩
      · simp [hidle] at hold
      · rw [← hsame, hnone] at hm
        cases hm
  · refine ⟨?_, ?_⟩
    · intro hm
      rw [hworld] at hm
      rw [Threads.guarded, hworld]
      exact (hran.closed (h.closed hm)).chatDb
    · intro hc
      rw [hworld]
      rcases hconsumer hc with hold | ⟨hm, -⟩
      · exact h.consumer hold
      · exact hm

/-- A create returns an id that is neither shown nor deleted. -/
def Fresh (s : Threads σ) (mv : Move) : Prop :=
  ∀ id, mv.created = some id → s.guarded.chats.get id = none ∧ id ∉ s.guarded.deleted

/-- A conversation is gone for good: from the file, from the display of a session,
and no create has got its id. -/
structure Buried (id : String) (s : Threads σ) : Prop where
  erased : Erased id s.guarded.file
  gone : s.world.module.isSome → Gone id s.guarded
  creates : ∀ session event, .created session event ∈ s.calls → session.chatId ≠ id

/-- A claim of a retry is about no conversation. -/
theorem claimDeliveryRetry_sameAt (g : Guarded σ) : SameAt id g (claimDeliveryRetry g).1 := by
  unfold claimDeliveryRetry setDeliveryState
  simp only
  split
  · exact .refl g
  · split
    · exact .refl g
    · exact ⟨rfl, Iff.rfl, rfl, rfl, Iff.rfl⟩

variable [LawfulMessageStore σ]

theorem buried_step (hsound : Sound s) (hfresh : Fresh s mv) (hstep : s.step mv = some s')
    (h : Buried id s) : Buried id s' := by
  have hcreates : ∀ session event, .created session event ∈ s'.calls → session.chatId ≠ id := by
    intro session event hmem
    rcases created_of_step hstep hmem with hold | ⟨hm, hnew, -⟩
    · exact h.creates session event hold
    · -- libchat has just returned an id that is not deleted
      rintro rfl
      exact (hfresh _ hnew).2 (h.gone hm).deleted
  rcases step_cases hstep with ⟨config, env, rfl, hworld⟩ | ⟨rfl, -, hworld⟩ | ⟨g, hran, hworld⟩
  · rcases init_cases config env s.world with
      ⟨-, g, ms, hinit, heq⟩ | ⟨hm, heq⟩ | ⟨hnone, e, -, heq⟩
    · obtain ⟨live, -, hseeded⟩ := initializeModule_ok hinit
      have hgone : Gone id s'.guarded := by
        rw [Threads.guarded, hworld, heq]
        exact h.erased.seeded hseeded
      exact ⟨hgone.erased, fun _ => hgone, hcreates⟩
    · have hgone : Gone id s'.guarded := by
        rw [Threads.guarded, hworld, heq]
        exact (h.gone hm).of_sameAt (claimDeliveryRetry_sameAt _)
      exact ⟨hgone.erased, fun _ => hgone, hcreates⟩
    · have hsame : s'.world = s.world := by rw [hworld, heq]
      refine ⟨?_, ?_, hcreates⟩
      · rw [Threads.guarded, hsame]
        exact h.erased
      · rw [Threads.guarded, hsame]
        exact h.gone
  · refine ⟨?_, ?_, hcreates⟩
    · rw [Threads.guarded, hworld, shutdown_file]
      exact h.erased
    · intro hm
      simp [hworld] at hm
  · refine ⟨?_, ?_, hcreates⟩
    · rw [Threads.guarded, hworld]
      -- without a session the sections find no connection and leave the file alone
      cases hm : s.world.module with
      | none =>
        rw [(hran.closed (hsound.closed hm)).file]
        exact h.erased
      | some ms => exact (hran.gone (h.gone (by simp [hm])) h.creates).erased
    · intro hm
      rw [hworld] at hm
      rw [Threads.guarded, hworld]
      exact hran.gone (h.gone hm) h.creates

/-- The conversation an event step is about. -/
def Move.about (s : Threads σ) : Move → Option String
  | .conversationStarted convoId .. | .messageReceived _ convoId .. | .membersChanged convoId =>
    some convoId
  | .conversationRecorded _ => s.consumer.map Started.convoId
  | _ => none

omit [LawfulMessageStore σ] in
/-- A client event about a buried conversation does nothing. -/
theorem buried_silent (hsound : Sound s) (h : Buried id s) (habout : mv.about s = some id)
    (hstep : s.step mv = some s') : s'.world = s.world := by
  cases mv with
  | conversationStarted convoId kind answer =>
    simp only [Threads.step] at hstep
    split at hstep <;> cases hstep
    rfl
  | conversationRecorded faults =>
    simp only [Threads.step] at hstep
    split at hstep
    · cases hstep
    · next started hstarted =>
      cases hstep
      obtain rfl : started.convoId = id := by simpa [Move.about, hstarted] using habout
      have hgone := h.gone (hsound.consumer (by simp [hstarted]))
      simp only [Threads.display, recordConversationStartedLocked_of_deleted hgone.deleted]
  | messageReceived faults convoId content account installation nowMs =>
    obtain rfl : convoId = id := by simpa [Move.about] using habout
    simp only [Threads.step] at hstep
    split at hstep
    · cases hstep
    · next hlisten =>
      cases hstep
      simp only [Bool.not_eq_true', Bool.not_eq_false, Threads.listening, Bool.and_eq_true]
        at hlisten
      simp only [Threads.display, recordMessageReceived_of_deleted (h.gone hlisten.1).deleted]
  | membersChanged convoId =>
    obtain rfl : convoId = id := by simpa [Move.about] using habout
    simp only [Threads.step] at hstep
    split at hstep
    · cases hstep
    · next hlisten =>
      cases hstep
      simp only [Bool.not_eq_true', Bool.not_eq_false, Threads.listening, Bool.and_eq_true]
        at hlisten
      simp only [Threads.display, recordMembersChanged_of_deleted (h.gone hlisten.1).deleted]
  | _ => simp [Move.about] at habout

omit [LawfulMessageStore σ] in
theorem sound_run {file : ChatDb σ} {own : Option String}
    (hrun : (interleaved σ).Run (fun _ _ => True) (Threads.start file own) pre s) : Sound s :=
  hrun.invariant (fun _ _ _ _ hstep h => sound_step hstep h) (sound_start file own)

theorem buried_of_deleted {faults : Faults} (hsound : Sound s)
    (hok : (deleteConversationLocked faults id s.guarded).2 = .ok ())
    (hcreate : ∀ session event, .created session event ∈ s.calls → session.chatId ≠ id)
    (hdel : s.step (.deleteConversation faults id) = some s₁) : Buried id s₁ ∧ Sound s₁ := by
  have hsound₁ := sound_step hdel hsound
  have hcreates : ∀ session event, .created session event ∈ s₁.calls → session.chatId ≠ id := by
    intro session event hmem
    rcases created_of_step hdel hmem with hold | ⟨-, hnew, -⟩
    · exact hcreate session event hold
    · cases hnew
  cases hdel
  rcases deleteConversationLocked_cases faults id s.guarded with ⟨e, heq⟩ | ⟨-, -, heq⟩
  · rw [heq] at hok
    cases hok
  · have hgone : Gone id (deleteConversationLocked faults id s.guarded).1 := by
      rw [heq]
      refine ⟨?_, ?_, ?_, ?_, ?_⟩
      · simp [Keyed.get_remove]
      · simp
      · simp
      · simp [ChatDb.row_withoutChat]
      · simp [ChatDb.history_withoutChat]
    exact ⟨⟨hgone.erased, fun _ => hgone, hcreates⟩, hsound₁⟩

/-- Once `delete_conversation` has removed a conversation that no create is still
about to save, no interleaving brings it back. -/
theorem deleted_stays_gone {file : ChatDb σ} {own : Option String} {faults : Faults}
    (hrun : (interleaved σ).Run (fun _ _ => True) (Threads.start file own) pre s)
    (hok : (deleteConversationLocked faults id s.guarded).2 = .ok ())
    (hcreate : ∀ session event, .created session event ∈ s.calls → session.chatId ≠ id)
    (hdel : (interleaved σ).step s (.deleteConversation faults id) = some s₁)
    (hlater : (interleaved σ).Run Fresh s₁ later s₂) (hm : s₂.world.module.isSome) :
    (∀ c ∈ listConversations s₂.guarded, c.convoId ≠ id) ∧ id ∈ s₂.guarded.deleted ∧
      Erased id s₂.guarded.file ∧
      ∀ mv s₃, mv.about s₂ = some id → (interleaved σ).step s₂ mv = some s₃ →
        s₃.guarded.raised = s₂.guarded.raised := by
  have h₁ := buried_of_deleted (sound_run hrun) hok hcreate hdel
  have h₂ : Buried id s₂ ∧ Sound s₂ := by
    refine hlater.invariant (I := fun s => Buried id s ∧ Sound s) ?_ h₁
    rintro s mv s' hfresh hstep ⟨hburied, hsound⟩
    exact ⟨buried_step hsound hfresh hstep hburied, sound_step hstep hsound⟩
  have hgone := h₂.1.gone hm
  refine ⟨?_, hgone.deleted, hgone.erased, ?_⟩
  · rintro c hc rfl
    obtain ⟨session, hget, -⟩ := mem_listConversations.mp hc
    rw [hgone.chat] at hget
    cases hget
  · intro mv s₃ habout hstep
    rw [Threads.guarded, buried_silent h₂.2 h₂.1 habout hstep]

/-- A session in which a conversation is created, and a send in it checked. -/
def sending : List Move := [
  .init ⟨none⟩ (.up ⟨"name", "addr"⟩ []),
  .createConversation (.ok "c1") "peer",
  .proceed 0 noFaults (.ok ()) 0,
  .sendMessage "c1" "hello"]

/-- The send goes on, a message arrives, and the session ends and another begins. -/
def goingOn : List Move := [
  .proceed 1 noFaults (.ok ()) 1,
  .proceed 0 noFaults (.ok ()) 1,
  .messageReceived noFaults "c1" [104, 105] "peer" "device" 2,
  .shutdown,
  .init ⟨none⟩ (.up ⟨"name", "addr"⟩ [])]

theorem deleted_stays_gone_under_send : ∃ s s₁ s₂ : Threads LogStore,
    (interleaved LogStore).exec (Threads.start emptyDb none) sending = some s ∧
      (interleaved LogStore).step s (.deleteConversation noFaults "c1") = some s₁ ∧
      (interleaved LogStore).exec s₁ goingOn = some s₂ ∧
      (∀ c ∈ listConversations s₂.guarded, c.convoId ≠ "c1") ∧ "c1" ∈ s₂.guarded.deleted := by
  have hexec : ∃ s s₁ s₂ : Threads LogStore,
      (interleaved LogStore).exec (Threads.start emptyDb none) sending = some s ∧
        (interleaved LogStore).step s (.deleteConversation noFaults "c1") = some s₁ ∧
        (interleaved LogStore).exec s₁ goingOn = some s₂ ∧
        (deleteConversationLocked noFaults "c1" s.guarded).2 = .ok () ∧
        s.calls = [.sendChecked "c1" "hello", .raising (directCreated "c1")] ∧
        s₂.world.module.isSome :=
    ⟨_, _, _, rfl, rfl, rfl, rfl, rfl, rfl⟩
  obtain ⟨s, s₁, s₂, hbefore, hdel, hafter, hok, hcalls, hm⟩ := hexec
  have hfresh : ∀ mv ∈ goingOn, ∀ s : Threads LogStore, True → Fresh s mv := by
    intro mv hmv s _ id hid
    have hnone : ∀ mv ∈ goingOn, mv.created = none := by decide
    rw [hnone mv hmv] at hid
    cases hid
  have hgone := deleted_stays_gone (Machine.run_of_exec hbefore) hok (by simp [hcalls]) hdel
    ((Machine.run_of_exec hafter).imp hfresh) hm
  exact ⟨s, s₁, s₂, hbefore, hdel, hafter, hgone.1, hgone.2.1⟩

end Runs

end ChatModule
