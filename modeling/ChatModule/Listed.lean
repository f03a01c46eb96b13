import ChatModule.Creating
import ChatModule.Reader

/-!
# The conversations a reader knows of

A reader takes `list_conversations` at some moment of a session and hears the events from
then on. The section of a create, and that of a deletion, lets the display lock go
before the event is raised, so the two events of a conversation may come in either
order, and its first message before both.

* `Marks` — what one section lists and deletes;
* `Accounts` — between two states the events raised, with those due at the end and the
  creates that failed, tell which conversations came and went: `Accounts.trans` puts two
  stretches together, `accounts_step` is one step of the machine;
* `listed_and_heard` — over any run of a session that begins with no event of an earlier
  one still due, what is listed and what is deleted is what the events tell.
-/

namespace ChatModule

open Actions Persistence

variable {σ : Type}

/-! ## What events tell -/

/-- The conversation an event tells is there. -/
def PluginEvent.opens : PluginEvent → Option String
  | .conversationCreated convoId .. | .messageReceived convoId .. => some convoId
  | _ => none

/-- The conversation an event tells is gone. -/
def PluginEvent.deletes : PluginEvent → Option String
  | .conversationDeleted convoId => some convoId
  | _ => none

/-- The conversation of a create that is listed though its call fails. -/
def untoldCreate (s : Threads σ) : Move → List String
  | .proceed i faults _ _ =>
    match s.calls[i]? with
    | some (.created session _) =>
      if (insertChat faults session s.guarded).2 = .ok () then [] else [session.chatId]
    | _ => []
  | _ => []

/-- A section lists the conversations `new` and deletes the conversations `gone`, and
neither lists nor deletes others. -/
structure Marks (new gone : List String) (g g' : Guarded σ) : Prop where
  deleted : ∀ id, id ∈ g'.deleted ↔ id ∈ g.deleted ∨ id ∈ gone
  listed : ∀ id, id ∉ g'.deleted →
    ((g'.chats.get id).isSome ↔ (g.chats.get id).isSome ∨ id ∈ new)

section Marks

variable {g g' g₁ : Guarded σ} {new gone : List String} {session : ChatSession} {id : String}

theorem Marks.refl (g : Guarded σ) : Marks [] [] g g := ⟨by simp, by simp⟩

/-- What shows the same display. -/
theorem Marks.of_display (h : Marks new gone g g₁) (hd : g'.display = g₁.display) :
    Marks new gone g g' := by
  have hchats : g'.chats = g₁.chats := by rw [Guarded.chats, hd]
  have hdel : g'.deleted = g₁.deleted := by rw [Guarded.deleted, hd]
  refine ⟨?_, ?_⟩
  · rw [hdel]
    exact h.deleted
  · rw [hchats, hdel]
    exact h.listed

theorem Marks.put (g : Guarded σ) (session : ChatSession) :
    Marks [session.chatId] [] g (g.put session) := by
  refine ⟨by simp, ?_⟩
  intro id _
  rw [Guarded.chats_put, Keyed.get_insert, List.mem_singleton]
  split
  · next hid => simp [hid]
  · next hid => simp [hid]

/-- What is not about the conversations. -/
theorem Marks.of_state (hchats : g'.chats = g.chats) (hdel : g'.deleted = g.deleted) :
    Marks [] [] g g' := by
  refine ⟨?_, ?_⟩
  · rw [hdel]
    simp
  · rw [hchats]
    simp

/-- A session put where there is one. -/
theorem Marks.replace (hget : (g.chats.get session.chatId).isSome) :
    Marks [] [] g (g.put session) := by
  have hput := Marks.put g session
  refine ⟨hput.deleted, ?_⟩
  intro id hdel
  rw [hput.listed id hdel]
  simp only [List.mem_singleton, List.not_mem_nil, or_false]
  constructor
  · rintro (hsome | rfl)
    · exact hsome
    · exact hget
  · exact Or.inl

theorem Marks.forget (g : Guarded σ) (id : String) : Marks [] [id] g (g.forget id) := by
  refine ⟨?_, ?_⟩
  · intro c
    rw [Guarded.deleted_forget, Finset.mem_insert, List.mem_singleton]
    exact or_comm
  · intro c hc
    rw [Guarded.deleted_forget, Finset.mem_insert, not_or] at hc
    rw [Guarded.chats_forget, Keyed.get_remove, if_neg hc.1]
    simp

end Marks

/-! ## Accounts -/

/-- The conversations that events tell are there. -/
def openedBy (events : List PluginEvent) : List String := events.filterMap PluginEvent.opens

/-- The conversations that events tell are gone. -/
def deletedBy (events : List PluginEvent) : List String := events.filterMap PluginEvent.deletes

/-- What an event that is due tells of conversations is so. -/
structure Backed (s : Threads σ) : Prop where
  listed : ∀ id ∈ openedBy s.due, id ∉ s.guarded.deleted → (s.guarded.chats.get id).isSome
  deleted : ∀ id ∈ deletedBy s.due, id ∈ s.guarded.deleted

/-- Between two states the events `heard` are raised, and these with the events due at
the end, and the creates that failed, tell which conversations came and went. -/
structure Accounts (s : Threads σ) (failed : List String) (heard : List PluginEvent)
    (s' : Threads σ) : Prop where
  raised : s'.guarded.raised = s.guarded.raised ++ heard
  due : s.due ⊆ heard ++ s'.due
  deleted : ∀ id, id ∈ s'.guarded.deleted ↔
    id ∈ s.guarded.deleted ∨ id ∈ deletedBy (heard ++ s'.due)
  listed : ∀ id, id ∉ s'.guarded.deleted → ((s'.guarded.chats.get id).isSome ↔
    (s.guarded.chats.get id).isSome ∨ id ∈ openedBy (heard ++ s'.due) ∨ id ∈ failed)

section Accounts

variable {s s₁ s' : Threads σ} {failed failed' : List String}
  {heard heard' es es' : List PluginEvent} {id : String}

theorem openedBy_mono (h : es ⊆ es') : openedBy es ⊆ openedBy es' := List.filterMap_subset _ h

theorem deletedBy_mono (h : es ⊆ es') : deletedBy es ⊆ deletedBy es' := List.filterMap_subset _ h

theorem mem_openedBy_append :
    id ∈ openedBy (es ++ es') ↔ id ∈ openedBy es ∨ id ∈ openedBy es' := by
  unfold openedBy
  rw [List.filterMap_append, List.mem_append]

theorem mem_deletedBy_append :
    id ∈ deletedBy (es ++ es') ↔ id ∈ deletedBy es ∨ id ∈ deletedBy es' := by
  unfold deletedBy
  rw [List.filterMap_append, List.mem_append]

theorem mem_deletedBy : id ∈ deletedBy es ↔ .conversationDeleted id ∈ es := by
  unfold deletedBy
  rw [List.mem_filterMap]
  constructor
  · rintro ⟨e, he, hdeletes⟩
    cases e with
    | conversationDeleted convoId =>
      obtain rfl : convoId = id := Option.some.inj hdeletes
      exact he
    | _ => cases hdeletes
  · intro he
    exact ⟨_, he, rfl⟩

/-- A conversation is listed when it has a session. -/
theorem listed_iff {g : Guarded σ} :
    (∃ c ∈ listConversations g, c.convoId = id) ↔ (g.chats.get id).isSome := by
  rw [Option.isSome_iff_exists]
  constructor
  · rintro ⟨c, hc, rfl⟩
    obtain ⟨session, hget, -⟩ := mem_listConversations.mp hc
    exact ⟨session, hget⟩
  · rintro ⟨session, hget⟩
    have hid := Keyed.key_of_get hget
    exact ⟨conversation session, mem_listConversations.mpr ⟨session, Keyed.get_key hget, rfl⟩, hid⟩

/-- Events about no conversation open and delete none. -/
theorem openedBy_of_none (h : ∀ e ∈ es, e.convoId = none) :
    openedBy es = [] ∧ deletedBy es = [] := by
  unfold openedBy deletedBy
  rw [List.filterMap_eq_nil_iff, List.filterMap_eq_nil_iff]
  constructor
  all_goals
    intro e he
    have hnone := h e he
    cases e with
    | deliveryStateChanged => rfl
    | _ => cases hnone

theorem Accounts.backed (h : Accounts s failed heard s') : Backed s' := by
  refine ⟨?_, ?_⟩
  · intro id hid hdel
    exact (h.listed id hdel).mpr (Or.inr (Or.inl (mem_openedBy_append.mpr (Or.inr hid))))
  · intro id hid
    exact (h.deleted id).mpr (Or.inr (mem_deletedBy_append.mpr (Or.inr hid)))

theorem Backed.accounts (h : Backed s) : Accounts s [] [] s := by
  refine ⟨by simp, by simp, ?_, ?_⟩
  · intro id
    constructor
    · exact Or.inl
    · rintro (hdel | hdue)
      · exact hdel
      · exact h.deleted id hdue
  · intro id hdel
    constructor
    · exact Or.inl
    · rintro (hget | hdue | hnone)
      · exact hget
      · exact h.listed id hdue hdel
      · cases hnone

/-- Accounts of two stretches make one of both. -/
theorem Accounts.trans (h : Accounts s failed heard s₁) (h' : Accounts s₁ failed' heard' s') :
    Accounts s (failed ++ failed') (heard ++ heard') s' := by
  have hlater : heard' ++ s'.due ⊆ heard ++ heard' ++ s'.due := by
    rw [List.append_assoc]
    exact List.subset_append_right _ _
  have hdue : heard ++ s₁.due ⊆ heard ++ heard' ++ s'.due := by
    refine List.append_subset.mpr ⟨?_, List.Subset.trans h'.due hlater⟩
    rw [List.append_assoc]
    exact List.subset_append_left _ _
  refine ⟨?_, ?_, ?_, ?_⟩
  · rw [h'.raised, h.raised, List.append_assoc]
  · exact List.Subset.trans h.due hdue
  · intro id
    constructor
    · intro hdel
      rcases (h'.deleted id).mp hdel with hdel | hdropped
      · rcases (h.deleted id).mp hdel with hdel | hdropped
        · exact Or.inl hdel
        · exact Or.inr (deletedBy_mono hdue hdropped)
      · exact Or.inr (deletedBy_mono hlater hdropped)
    · rw [List.append_assoc, mem_deletedBy_append]
      rintro (hdel | hfirst | hrest)
      · exact (h'.deleted id).mpr (Or.inl ((h.deleted id).mpr (Or.inl hdel)))
      · exact (h'.deleted id).mpr (Or.inl ((h.deleted id).mpr
          (Or.inr (mem_deletedBy_append.mpr (Or.inl hfirst)))))
      · exact (h'.deleted id).mpr (Or.inr hrest)
  · intro id hdel'
    have hdel : id ∉ s₁.guarded.deleted := fun hmem => hdel' ((h'.deleted id).mpr (Or.inl hmem))
    rw [h'.listed id hdel', h.listed id hdel, List.mem_append]
    constructor
    · rintro ((hget | hopened | hfailed) | hopened | hfailed)
      · exact Or.inl hget
      · exact Or.inr (Or.inl (openedBy_mono hdue hopened))
      · exact Or.inr (Or.inr (Or.inl hfailed))
      · exact Or.inr (Or.inl (openedBy_mono hlater hopened))
      · exact Or.inr (Or.inr (Or.inr hfailed))
    · rw [List.append_assoc, mem_openedBy_append]
      rintro (hget | (hfirst | hrest) | hfailed | hfailed)
      · exact Or.inl (Or.inl hget)
      · exact Or.inl (Or.inr (Or.inl (mem_openedBy_append.mpr (Or.inl hfirst))))
      · exact Or.inr (Or.inl hrest)
      · exact Or.inl (Or.inr (Or.inr hfailed))
      · exact Or.inr (Or.inr hfailed)

/-- A section whose events, heard at once or due after it, tell what it does. -/
theorem Marks.accounts (next : List PluginEvent)
    (hmarks : Marks (openedBy (heard ++ next) ++ failed) (deletedBy (heard ++ next))
      s.guarded s'.guarded) (hb : Backed s)
    (hraised : s'.guarded.raised = s.guarded.raised ++ heard) (hdue : s'.due.Perm (next ++ s.due)) :
    Accounts s failed heard s' := by
  have hperm : (heard ++ s'.due).Perm (heard ++ next ++ s.due) := by
    rw [List.append_assoc]
    exact hdue.append_left heard
  have hsection : heard ++ next ⊆ heard ++ s'.due :=
    List.Subset.trans (List.subset_append_left _ _) hperm.symm.subset
  refine ⟨hraised, List.Subset.trans (List.subset_append_right _ _) hperm.symm.subset, ?_, ?_⟩
  · intro id
    rw [hmarks.deleted id]
    constructor
    · rintro (hdel | hdropped)
      · exact Or.inl hdel
      · exact Or.inr (deletedBy_mono hsection hdropped)
    · rintro (hdel | hdropped)
      · exact Or.inl hdel
      · rcases mem_deletedBy_append.mp (deletedBy_mono hperm.subset hdropped) with hnew | hold
        · exact Or.inr hnew
        · exact Or.inl (hb.deleted id hold)
  · intro id hdel
    have hbefore : id ∉ s.guarded.deleted :=
      fun hmem => hdel ((hmarks.deleted id).mpr (Or.inl hmem))
    rw [hmarks.listed id hdel, List.mem_append]
    constructor
    · rintro (hget | hopened | hfailed)
      · exact Or.inl hget
      · exact Or.inr (Or.inl (openedBy_mono hsection hopened))
      · exact Or.inr (Or.inr hfailed)
    · rintro (hget | hopened | hfailed)
      · exact Or.inl hget
      · rcases mem_openedBy_append.mp (openedBy_mono hperm.subset hopened) with hnew | hold
        · exact Or.inr (Or.inl hnew)
        · exact Or.inl (hb.listed id hold hbefore)
      · exact Or.inr (Or.inr hfailed)

/-- An event that was due is raised. -/
theorem accounts_raising {event : PluginEvent} (hb : Backed s)
    (hguarded : s'.guarded = s.guarded.emit event) (hdue : s.due.Perm (event :: s'.due)) :
    Accounts s [] [event] s' := by
  have hdel : s'.guarded.deleted = s.guarded.deleted := by
    rw [hguarded]
    rfl
  have hchats : s'.guarded.chats = s.guarded.chats := by
    rw [hguarded]
    rfl
  have hback : [event] ++ s'.due ⊆ s.due := hdue.symm.subset
  refine ⟨by rw [hguarded]; rfl, hdue.subset, ?_, ?_⟩
  · intro id
    rw [hdel]
    constructor
    · exact Or.inl
    · rintro (hmem | hdropped)
      · exact hmem
      · exact hb.deleted id (deletedBy_mono hback hdropped)
  · intro id hnot
    rw [hchats]
    rw [hdel] at hnot
    constructor
    · exact Or.inl
    · rintro (hget | hopened | hnone)
      · exact hget
      · exact hb.listed id (openedBy_mono hback hopened) hnot
      · cases hnone

end Accounts

/-! ## Sections -/

section Sections

variable {g : Guarded σ} {id : String}

theorem marks_insertChat (faults : Faults) (session : ChatSession) (g : Guarded σ) :
    Marks [session.chatId] [] g (insertChat faults session g).1 :=
  (Marks.put g session).of_display (insertChat_display faults session g)

theorem marks_setConversationNickname (faults : Faults) (id nickname : String) (g : Guarded σ) :
    Marks [] [] g (setConversationNicknameLocked faults id nickname g).1 := by
  have hd := setConversationNicknameLocked_display faults id nickname g
  cases hget : g.chats.get id with
  | none =>
    rw [hget] at hd
    exact (Marks.refl g).of_display hd
  | some s =>
    rw [hget] at hd
    obtain rfl := Keyed.key_of_get hget
    have hput : Marks [] [] g (g.put { s with nickname := nonEmpty nickname }) :=
      .replace (by simp [hget])
    exact hput.of_display hd

/-- A conversation that starts is raised as created when it is not listed. -/
theorem marks_recordConversationStarted (faults : Faults) (id : String) (kind : ConversationKind)
    (md : Option String × Option String) (g : Guarded σ) :
    ∃ heard, (recordConversationStartedLocked faults id kind md g).raised = g.raised ++ heard ∧
      Marks (openedBy heard) (deletedBy heard) g
        (recordConversationStartedLocked faults id kind md g) := by
  have hd := recordConversationStartedLocked_display faults id kind md g
  refine ⟨_, recordConversationStartedLocked_raised faults id kind md g, ?_⟩
  by_cases hdel : id ∈ g.deleted
  · rw [if_pos hdel] at hd ⊢
    exact (Marks.refl g).of_display hd
  · rw [if_neg hdel] at hd ⊢
    cases hget : g.chats.get id with
    | none =>
      rw [hget] at hd
      exact (Marks.put g (openedSession id kind md.1 md.2 none)).of_display hd
    | some s =>
      rw [hget] at hd
      obtain rfl := Keyed.key_of_get hget
      have hput : Marks [] [] g (g.put { s with historyOnly := false }) :=
        .replace (by simp [hget])
      dsimp only
      split <;> exact hput.of_display hd

variable [MessageStore σ]

/-- A deletion that succeeds makes its event due. -/
theorem marks_deleteConversation (faults : Faults) (id : String) (g : Guarded σ) :
    Marks []
      (deletedBy ((raises (deleteConversationLocked faults id g).2
        (.conversationDeleted id)).toList.filterMap Call.due))
      g (deleteConversationLocked faults id g).1 := by
  rcases deleteConversationLocked_display faults id g with ⟨⟨e, hresult⟩, heq⟩ | ⟨hok, -, hd⟩
  · rw [hresult, heq]
    exact .refl g
  · rw [hok]
    exact (Marks.forget g id).of_display hd

theorem marks_sendMessage (hdb : g.display.chatDb.isSome) (faults : Faults) (id content : String)
    (t : UInt64) : Marks [] [] g (sendMessageLocked faults id content t g).1 := by
  have hd : (sendMessageLocked faults id content t g).1.display = _ :=
    recordMessage_display hdb faults (chatMessage id .sent t (Utf8.asBytes content)) false
  rw [chatId_chatMessage] at hd
  cases hget : g.chats.get id with
  | none =>
    rw [hget] at hd
    exact (Marks.refl g).of_display hd
  | some s =>
    rw [hget] at hd
    obtain rfl := Keyed.key_of_get hget
    refine Marks.of_display (Marks.replace ?_) hd
    rw [chatId_pushMessage]
    simp [hget]

/-- An inbound message that is not dropped opens its conversation, if it is not there. -/
theorem marks_messageReceived (hdb : g.display.chatDb.isSome) (faults : Faults) (id : String)
    (content : List UInt8) (account installation : String) (t : UInt64) :
    ∃ heard, (recordMessageReceived faults id content account installation t g).1.raised =
        g.raised ++ heard ∧
      Marks (openedBy heard) (deletedBy heard) g
        (recordMessageReceived faults id content account installation t g).1 := by
  have hd := recordMessageReceived_display hdb faults id content account installation t
  refine ⟨_, recordMessageReceived_raised faults id content account installation t g, ?_⟩
  by_cases hdel : id ∈ g.deleted
  · rw [if_pos hdel] at hd ⊢
    exact (Marks.refl g).of_display hd
  · rw [if_neg hdel] at hd ⊢
    have hput := Marks.put g (pushMessage (receivingSession id account g)
      (receivedMessage id content account installation t))
    rw [chatId_pushMessage, chatId_receivingSession] at hput
    exact hput.of_display hd

end Sections

/-! ## Steps and runs -/

section Steps

variable [MessageStore σ] [LawfulMessageStore σ] {s s' s₀ s₁ s₂ : Threads σ} {mv : Move}
  {before moves : List Move} {id : String}

omit [MessageStore σ] [LawfulMessageStore σ] in
/-- The event of a call that neither opens nor deletes a conversation. -/
theorem openedBy_raises {result : Except CoreError Unit} {event : PluginEvent}
    (hopens : event.opens = none) (hdeletes : event.deletes = none) :
    openedBy ((raises result event).toList.filterMap Call.due) = [] ∧
      deletedBy ((raises result event).toList.filterMap Call.due) = [] := by
  unfold openedBy deletedBy
  rw [List.filterMap_eq_nil_iff, List.filterMap_eq_nil_iff]
  constructor
  all_goals
    intro e he
    obtain ⟨-, rfl⟩ := mem_due_raises he
    assumption

omit [MessageStore σ] [LawfulMessageStore σ] in
/-- A step after which the conversations are as they were, and that opens or deletes
none. -/
theorem accounts_silent (next : List PluginEvent) (hb : Backed s)
    (hmarks : Marks [] [] s.guarded s'.guarded) (hraised : s'.guarded.raised = s.guarded.raised)
    (hdue : s'.due.Perm (next ++ s.due)) (hnext : openedBy next = [] ∧ deletedBy next = []) :
    Accounts s [] [] s' := by
  refine Marks.accounts next ?_ hb (by rw [hraised, List.append_nil]) hdue
  rw [List.nil_append, hnext.1, hnext.2]
  exact hmarks

omit [MessageStore σ] [LawfulMessageStore σ] in
/-- A section whose events are heard as it runs. -/
theorem accounts_heard {heard : List PluginEvent} (hb : Backed s)
    (hmarks : Marks (openedBy heard) (deletedBy heard) s.guarded s'.guarded)
    (hraised : s'.guarded.raised = s.guarded.raised ++ heard) (hdue : s'.due = s.due) :
    Accounts s [] heard s' := by
  refine Marks.accounts [] ?_ hb hraised (by rw [hdue, List.nil_append])
  rw [List.append_nil, List.append_nil]
  exact hmarks

omit [LawfulMessageStore σ] in
theorem accounts_proceed {i : ℕ} {faults : Faults} {answer : Except ClientError Unit}
    {nowMs : UInt64} (hb : Backed s) (hnamed : Named s) (hdb : s.guarded.display.chatDb.isSome)
    (hstep : s.step (.proceed i faults answer nowMs) = some s') :
    ∃ heard, Accounts s (untoldCreate s (.proceed i faults answer nowMs)) heard s' := by
  cases hcall : s.calls[i]? with
  | none => simp [Threads.step, hcall] at hstep
  | some call =>
    simp only [Threads.step, hcall] at hstep
    cases hstep
    simp only [untoldCreate, hcall]
    have hdue : call.due = none → ∀ next, (next ++ (s.calls.eraseIdx i).filterMap Call.due).Perm
        (next ++ s.due) := fun hnone next => (due_eraseIdx hcall hnone).append_left next
    cases call with
    | sendChecked id content =>
      refine ⟨[], accounts_silent [] hb (.refl _) rfl ?_ ⟨rfl, rfl⟩⟩
      simp only [Threads.due, Threads.display, Call.proceed, List.filterMap_append]
      rw [due_goesOn fun _ => rfl]
      exact hdue rfl []
    | sent id content =>
      have hnext : openedBy ((raises (sendMessageLocked faults id content nowMs s.guarded).2
          (.messageSent id content nowMs.toInt64)).toList.filterMap Call.due) = [] ∧ _ :=
        openedBy_raises rfl rfl
      refine ⟨[], accounts_silent _ hb (marks_sendMessage hdb faults id content nowMs)
        (recordMessage_raised _ _ _ _) ?_ hnext⟩
      simp only [Threads.due, Threads.display, Call.proceed, List.filterMap_append]
      exact hdue rfl _
    | created session event =>
      obtain ⟨label, kind, name, desc, rfl⟩ := hnamed session event (List.mem_of_getElem? hcall)
      refine ⟨[], Marks.accounts ((raises (insertChat faults session s.guarded).2
        (.conversationCreated session.chatId true label kind name desc)).toList.filterMap Call.due)
        ?_ hb ((persistChat_raised _ _ _).trans (List.append_nil _).symm) ?_⟩
      · have hmarks := marks_insertChat faults session s.guarded
        dsimp only
        cases hresult : (insertChat faults session s.guarded).2 with
        | error e =>
          rw [if_neg (by simp)]
          exact hmarks
        | ok u =>
          rw [if_pos rfl]
          exact hmarks
      · simp only [Threads.due, Threads.display, Call.proceed, List.filterMap_append]
        exact hdue rfl _
    | inviteChecked id =>
      have hnext : openedBy ((raises (withClient s.world answer)
          (.conversationUpdated id)).toList.filterMap Call.due) = [] ∧ _ := openedBy_raises rfl rfl
      refine ⟨[], accounts_silent _ hb (.refl _) rfl ?_ hnext⟩
      simp only [Threads.due, Threads.display, Call.proceed, List.filterMap_append]
      exact hdue rfl _
    | raising event => exact ⟨[event], accounts_raising hb rfl (due_perm_of_raising hcall)⟩

/-- A session that goes on, and in which a create in flight raises the event of the session
it saves. -/
structure Ongoing (s : Threads σ) : Prop where
  installed : s.world.module.isSome
  connected : Connected s
  named : Named s

theorem ongoing_step (hgo : mv ≠ .shutdown) (hstep : s.step mv = some s') (h : Ongoing s) :
    Ongoing s' :=
  ⟨installed_step hgo hstep h.installed, connected_step hstep h.connected, named_step hstep h.named⟩

/-- What a step does to the conversations is told by the events it raises and those due
after it, or its create fails. -/
theorem accounts_step (hb : Backed s) (h : Ongoing s) (hgo : mv ≠ .shutdown)
    (hstep : s.step mv = some s') : ∃ heard, Accounts s (untoldCreate s mv) heard s' := by
  have hdb := h.connected h.installed
  cases mv with
  | proceed i faults answer nowMs => exact accounts_proceed hb h.named hdb hstep
  | init config env =>
    cases news_of_step h.named hstep with
    | raised hmv => cases hmv
    | ran heard next hraised hheard =>
      have hquiet : ∀ e ∈ heard, e.convoId = none := by
        intro e he
        cases hid : e.convoId with
        | none => rfl
        | some id => cases (hheard e he).about id hid
      obtain ⟨hopened, hdropped⟩ := openedBy_of_none hquiet
      cases hstep
      refine ⟨heard, accounts_heard hb ?_ hraised rfl⟩
      have hstate : Marks [] [] s.guarded (Actions.init config env s.world).world.guarded := by
        have hm := h.installed
        rcases init_cases config env s.world with ⟨hnone, -⟩ | ⟨-, heq⟩ | ⟨hnone, -⟩
        · simp [hnone] at hm
        · have hclaim := (claimDeliveryRetry_state s.guarded).1
          rw [heq]
          exact .of_state (by simp only [Guarded.chats, hclaim])
            (by simp only [Guarded.deleted, hclaim])
        · simp [hnone] at hm
      rw [hopened, hdropped]
      exact hstate
  | shutdown => exact absurd rfl hgo
  | setInstallationName faults name =>
    cases hstep
    refine ⟨[], accounts_silent [] hb ?_ (setInstallationName_raised _ _ _) (.refl _) ⟨rfl, rfl⟩⟩
    simp only [Threads.display]
    rcases setInstallationName_cases faults name s.guarded with ⟨e, heq⟩ | ⟨-, heq⟩
    · rw [heq]
      exact .refl _
    · rw [heq]
      exact .of_state rfl rfl
  | createConversation | createGroupConversation | addGroupMember | sendMessage =>
    cases hstep
    refine ⟨[], accounts_silent [] hb (.refl _) rfl ?_ ⟨rfl, rfl⟩⟩
    rw [due_go fun _ => rfl]
    exact .refl _
  | setConversationNickname faults convoId nickname =>
    cases hstep
    have hnext : openedBy ((raises (setConversationNicknameLocked faults convoId nickname
        s.guarded).2 (.conversationUpdated convoId)).toList.filterMap Call.due) = [] ∧ _ :=
      openedBy_raises rfl rfl
    refine ⟨[], accounts_silent _ hb (marks_setConversationNickname faults convoId nickname _)
      (setConversationNicknameLocked_raised _ _ _ _) ?_ hnext⟩
    simp only [Threads.due, Threads.display, List.filterMap_append]
    exact .refl _
  | deleteConversation faults convoId =>
    cases hstep
    refine ⟨[], Marks.accounts ((raises (deleteConversationLocked faults convoId s.guarded).2
      (.conversationDeleted convoId)).toList.filterMap Call.due) ?_ hb
      ((deleteConversationLocked_raised _ _ _).trans (List.append_nil _).symm) ?_⟩
    · have hmarks := marks_deleteConversation faults convoId s.guarded
      have hopens : openedBy ((raises (deleteConversationLocked faults convoId s.guarded).2
          (.conversationDeleted convoId)).toList.filterMap Call.due) = [] := by
        cases (deleteConversationLocked faults convoId s.guarded).2 <;> rfl
      rw [List.nil_append, hopens]
      exact hmarks
    · simp only [Threads.due, Threads.display, List.filterMap_append]
      exact .refl _
  | conversationStarted convoId kind answer =>
    simp only [Threads.step] at hstep
    split at hstep <;> cases hstep
    exact ⟨[], accounts_silent [] hb (.refl _) rfl (.refl _) ⟨rfl, rfl⟩⟩
  | conversationRecorded faults =>
    simp only [Threads.step] at hstep
    split at hstep
    · cases hstep
    · next started hstarted =>
      cases hstep
      obtain ⟨heard, hraised, hmarks⟩ := marks_recordConversationStarted faults started.convoId
        started.kind started.metadata s.guarded
      exact ⟨heard, accounts_heard hb hmarks hraised rfl⟩
  | messageReceived faults convoId content account installation nowMs =>
    simp only [Threads.step] at hstep
    split at hstep <;> cases hstep
    obtain ⟨heard, hraised, hmarks⟩ := marks_messageReceived hdb faults convoId content account
      installation nowMs
    exact ⟨heard, accounts_heard hb hmarks hraised rfl⟩
  | membersChanged convoId =>
    simp only [Threads.step] at hstep
    split at hstep <;> cases hstep
    by_cases hnone : convoId ∈ s.guarded.deleted ∨ s.guarded.chats.contains convoId = false
    · have hsame : recordMembersChanged convoId s.guarded = s.guarded := if_pos hnone
      rw [hsame]
      exact ⟨[], accounts_silent [] hb (.refl _) rfl (.refl _) ⟨rfl, rfl⟩⟩
    · have hemit : recordMembersChanged convoId s.guarded =
          s.guarded.emit (.membersChanged convoId) := if_neg hnone
      have hmarks : Marks (openedBy [.membersChanged convoId]) (deletedBy [.membersChanged convoId])
          s.guarded (s.guarded.emit (.membersChanged convoId)) := .of_state rfl rfl
      rw [hemit]
      exact ⟨_, accounts_heard hb hmarks rfl rfl⟩

/-- The accounts of a run. -/
theorem accounts_run (hb : Backed s₀) (h : Ongoing s₀)
    (hrun : (interleaved σ).Run (fun _ mv => mv ≠ .shutdown) s₀ moves s) :
    ∃ heard, Accounts s₀ ((interleaved σ).output untoldCreate s₀ moves) heard s := by
  induction hrun with
  | nil s => exact ⟨[], hb.accounts⟩
  | cons hgo hs _ ih =>
    obtain ⟨first, hfirst⟩ := accounts_step hb h hgo hs
    obtain ⟨rest, hrest⟩ := ih hfirst.backed (ongoing_step hgo hs h)
    rw [Machine.output_cons hs]
    exact ⟨first ++ rest, hfirst.trans hrest⟩

/-- What holds of every state, whatever sessions there have been. -/
theorem connected_named_run {file : ChatDb σ} {own : Option String} {past : List Move}
    (hpast : (interleaved σ).Run (fun _ _ => True) (.start file own) past s) :
    Connected s ∧ Named s := by
  constructor
  · refine hpast.invariant (fun _ _ _ _ hs h => connected_step hs h) ?_
    intro hm
    cases hm
  · refine hpast.invariant (fun _ _ _ _ hs h => named_step hs h) ?_
    intro session event hmem
    cases hmem

/-- Whatever runs in between, the conversations a reader knows of change as the events
tell: the ones deleted are those whose deletion it hears or is due, and of the others
those listed are the ones that were, the ones an event opens, and those of creates that
fail. Calls of an earlier session may still be in flight, but not with their event due. -/
theorem listed_and_heard {file : ChatDb σ} {own : Option String} {past : List Move}
    {config : ChatConfig} {env : Environment}
    (hpast : (interleaved σ).Run (fun _ _ => True) (.start file own) past s)
    (hdue : s.due = []) (hinit : (interleaved σ).step s (.init config env) = some s₀)
    (hm₀ : s₀.world.module.isSome)
    (hbefore : (interleaved σ).Run (fun _ mv => mv ≠ .shutdown) s₀ before s₁)
    (hrun : (interleaved σ).Run (fun _ mv => mv ≠ .shutdown) s₁ moves s₂) :
    ∃ heard, s₂.guarded.raised = s₁.guarded.raised ++ heard ∧
      (∀ id, id ∈ s₂.guarded.deleted ↔
        id ∈ s₁.guarded.deleted ∨ .conversationDeleted id ∈ heard ++ s₂.due) ∧
      ∀ id, id ∉ s₂.guarded.deleted →
        ((∃ c ∈ listConversations s₂.guarded, c.convoId = id) ↔
          (∃ c ∈ listConversations s₁.guarded, c.convoId = id) ∨
            (∃ e ∈ heard ++ s₂.due, e.opens = some id) ∨
            id ∈ (interleaved σ).output untoldCreate s₁ moves) := by
  obtain ⟨hconnected, hnamed⟩ := connected_named_run hpast
  have hinit' : s.step (.init config env) = some s₀ := hinit
  have hstart : Ongoing s₀ :=
    ⟨hm₀, connected_step hinit' hconnected, named_step hinit' hnamed⟩
  have hidle : s₀.due = [] := by
    cases hinit
    exact hdue
  have hback : Backed s₀ := by
    refine ⟨?_, ?_⟩
    all_goals
      intro id hid
      rw [hidle] at hid
      cases hid
  have hsession : Ongoing s₁ :=
    hbefore.invariant (fun _ _ _ hgo hs h => ongoing_step hgo hs h) hstart
  obtain ⟨past, hpast⟩ := accounts_run hback hstart hbefore
  obtain ⟨heard, haccounts⟩ := accounts_run hpast.backed hsession hrun
  refine ⟨heard, haccounts.raised, ?_, ?_⟩
  · intro id
    rw [haccounts.deleted id, mem_deletedBy]
  · intro id hdel
    rw [listed_iff, listed_iff, haccounts.listed id hdel, openedBy, List.mem_filterMap]

/-- A message opens a conversation, and another, just created, is deleted: the deletion is
heard while the event of the create is still due. -/
def leaving : List Move := [
  .messageReceived noFaults "c2" [104, 105] "peer" "device" 1,
  .deleteConversation noFaults "c1",
  .proceed 0 noFaults (.ok ()) 2]

theorem listed_and_heard_leaving : ∃ s₀ s₁ s₂ : Threads LogStore,
    (interleaved LogStore).step (Threads.start emptyDb none)
      (.init ⟨none⟩ (.up ⟨"name", "addr"⟩ [])) = some s₀ ∧
    (interleaved LogStore).exec s₁ leaving = some s₂ ∧
    "c1" ∉ s₁.guarded.deleted ∧ "c1" ∈ s₂.guarded.deleted ∧
    ∃ heard, s₂.guarded.raised = s₁.guarded.raised ++ heard ∧
      .conversationDeleted "c1" ∈ heard ++ s₂.due ∧
      ∃ e ∈ heard ++ s₂.due, e.opens = some "c2" := by
  have hexec : ∃ s₀ s₁ s₂ : Threads LogStore,
      (interleaved LogStore).step (Threads.start emptyDb none)
        (.init ⟨none⟩ (.up ⟨"name", "addr"⟩ [])) = some s₀ ∧
      (interleaved LogStore).exec s₀
        [.createConversation (.ok "c1") "peer", .proceed 0 noFaults (.ok ()) 0] = some s₁ ∧
      (interleaved LogStore).exec s₁ leaving = some s₂ ∧
      s₀.world.module.isSome ∧ "c1" ∉ s₁.guarded.deleted ∧ "c1" ∈ s₂.guarded.deleted ∧
      "c2" ∉ s₂.guarded.deleted ∧ s₁.guarded.chats.get "c2" = none ∧
      (s₂.guarded.chats.get "c2").isSome ∧
      (interleaved LogStore).output untoldCreate s₁ leaving = [] :=
    ⟨_, _, _, rfl, rfl, rfl, rfl, by decide, by decide, by decide, rfl, rfl, rfl⟩
  obtain ⟨s₀, s₁, s₂, hinit, hcreate, hall, hm₀, hbefore, hafter, hdel, hnew, hlisted, hfailed⟩ :=
    hexec
  have hpast : (interleaved LogStore).Run (fun _ mv => mv ≠ .shutdown) s₀
      [.createConversation (.ok "c1") "peer", .proceed 0 noFaults (.ok ()) 0] s₁ := by
    refine (Machine.run_of_exec hcreate).imp ?_
    intro mv hmv _ _
    simp only [List.mem_cons, List.not_mem_nil, or_false] at hmv
    rcases hmv with rfl | rfl <;> simp
  have hrun : (interleaved LogStore).Run (fun _ mv => mv ≠ .shutdown) s₁ leaving s₂ := by
    refine (Machine.run_of_exec hall).imp ?_
    intro mv hmv _ _
    simp only [leaving, List.mem_cons, List.not_mem_nil, or_false] at hmv
    rcases hmv with rfl | rfl | rfl <;> simp
  obtain ⟨heard, hraised, hdeleted, hopened⟩ :=
    listed_and_heard (.nil _) rfl hinit hm₀ hpast hrun
  refine ⟨s₀, s₁, s₂, hinit, hall, hbefore, hafter, heard, hraised, ?_, ?_⟩
  · exact ((hdeleted "c1").mp hafter).resolve_left hbefore
  · rcases (hopened "c2" hdel).mp (listed_iff.mpr hlisted) with hold | hevent | hfails
    · simp [listed_iff, hnew] at hold
    · exact hevent
    · rw [hfailed] at hfails
      cases hfails

end Steps

end ChatModule
