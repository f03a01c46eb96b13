import ChatModule.Deletion
import ChatModule.Restart
import ChatModule.Shown

/-!
# The history is an append-only log

Within a session a conversation's messages are those it was loaded with, followed by
one for each recording section that ran about it, in the order the sections ran
(`said`). `step_touches` reads off a step of the interleaved machine which section it
ran, and the rest is an induction over runs.
-/

namespace ChatModule

open Actions Persistence

variable {σ : Type}

/-! ## The calls in flight -/

/-- The conversation a create is about to save. -/
def Call.creating : Call → Option String
  | .created session _ => some session.chatId
  | _ => none

/-- The conversation of a send that is past its check. -/
def Call.sending : Call → Option String
  | .sendChecked convoId _ | .sent convoId _ => some convoId
  | _ => none

/-- The text of a send of `id` that libchat has taken and no section has recorded. -/
def Call.unrecorded (id : String) : Call → Option String
  | .sent convoId content => if convoId = id then some content else none
  | _ => none

/-- The conversations that creates in flight are about to save. -/
def Threads.creating (s : Threads σ) : List String := s.calls.filterMap Call.creating

variable [MessageStore σ]

/-- What a call in flight after a step had to be for the step to take it there. -/
inductive Enters (s : Threads σ) (mv : Move) : Call → Prop
  | sendChecked {id : String} (content : String) : (s.guarded.chats.get id).isSome →
    Enters s mv (.sendChecked id content)
  | sent {id content : String} : .sendChecked id content ∈ s.calls → Enters s mv (.sent id content)
  | created {session : ChatSession} (event : PluginEvent) : mv.created = some session.chatId →
    session.messages = [] → session.olderMessages = 0 → Enters s mv (.created session event)
  | inviteChecked (id : String) : Enters s mv (.inviteChecked id)
  | raising (event : PluginEvent) : Enters s mv (.raising event)

section Calls

variable {s s' : Threads σ} {mv : Move} {id : String}

omit [MessageStore σ] in
theorem enters_raises {result : Except CoreError Unit} {event : PluginEvent} :
    ∀ call ∈ raises result event, Enters s mv call := by
  intro call hcall
  obtain ⟨-, -, rfl⟩ := mem_goesOn.mp (Option.mem_toList.mpr hcall)
  exact .raising event

omit [MessageStore σ] in
theorem Enters.of_check {next : Unit → Call} {convoId : String}
    (hnext : (s.guarded.chats.get convoId).isSome → Enters s mv (next ())) :
    ∀ call ∈ goesOn (checkLive convoId s.guarded) next, Enters s mv call := by
  intro call hcall
  obtain ⟨⟨⟩, hlive, rfl⟩ := mem_goesOn.mp (Option.mem_toList.mpr hcall)
  obtain ⟨session, hget, -⟩ := checkLive_ok_iff.mp hlive
  exact hnext (by simp [hget])

/-- A step lets one call at most go on, or begin. -/
theorem step_calls (h : s.step mv = some s') : ∃ next : Option Call,
    (∀ call ∈ next, Enters s mv call) ∧
      (s'.calls = next.toList ++ s.calls ∨ ∃ i call faults answer nowMs,
        mv = .proceed i faults answer nowMs ∧ s.calls[i]? = some call ∧
        s'.calls = next.toList ++ s.calls.eraseIdx i) := by
  cases mv with
  | init | setInstallationName =>
    cases h
    exact ⟨none, by simp, Or.inl rfl⟩
  | createConversation | createGroupConversation =>
    cases h
    refine ⟨_, ?_, Or.inl rfl⟩
    intro call hcall
    obtain ⟨chatId, hclient, rfl⟩ := mem_goesOn.mp (Option.mem_toList.mpr hcall)
    obtain ⟨-, rfl⟩ := withClient_ok_iff.mp hclient
    exact .created _ rfl rfl rfl
  | addGroupMember convoId =>
    cases h
    exact ⟨_, Enters.of_check fun _ => .inviteChecked convoId, Or.inl rfl⟩
  | sendMessage convoId content =>
    cases h
    exact ⟨_, Enters.of_check fun hsome => .sendChecked content hsome, Or.inl rfl⟩
  | setConversationNickname | deleteConversation =>
    cases h
    exact ⟨_, enters_raises, Or.inl rfl⟩
  | proceed i faults answer nowMs =>
    simp only [Threads.step] at h
    split at h
    · cases h
    · next call hcall =>
      cases h
      refine ⟨(call.proceed faults answer nowMs s.world).2, ?_,
        Or.inr ⟨i, call, faults, answer, nowMs, rfl, hcall, rfl⟩⟩
      cases call with
      | sendChecked convoId content =>
        intro next hnext
        obtain ⟨-, -, rfl⟩ := mem_goesOn.mp (Option.mem_toList.mpr hnext)
        exact .sent (List.mem_of_getElem? hcall)
      | sent convoId content => exact enters_raises
      | created session event => exact enters_raises
      | inviteChecked convoId => exact enters_raises
      | raising event =>
        intro next hnext
        cases hnext
  | shutdown | conversationStarted | conversationRecorded | messageReceived | membersChanged =>
    simp only [Threads.step] at h
    split at h <;> cases h
    exact ⟨none, by simp, Or.inl rfl⟩

/-- A call in flight was, or has just come this far. -/
theorem mem_calls_of_step (h : s.step mv = some s') {call : Call} (hmem : call ∈ s'.calls) :
    call ∈ s.calls ∨ Enters s mv call := by
  obtain ⟨next, hnext, hcalls⟩ := step_calls h
  rcases hcalls with heq | ⟨i, -, -, -, -, -, -, heq⟩
  · rw [heq, List.mem_append] at hmem
    rcases hmem with hnew | hold
    · exact Or.inr (hnext call (Option.mem_toList.mp hnew))
    · exact Or.inl hold
  · rw [heq, List.mem_append] at hmem
    rcases hmem with hnew | hold
    · exact Or.inr (hnext call (Option.mem_toList.mp hnew))
    · exact Or.inl (List.mem_of_mem_eraseIdx hold)

end Calls

/-! ## Steps -/

/-- What a step adds to the messages of `id`: what a section that records one puts in. -/
def said (id : String) (s : Threads σ) : Move → List DisplayMessage
  | .proceed i _ _ nowMs =>
    match s.calls[i]? with
    | some (.sent convoId content) => if convoId = id then [sentEntry content nowMs] else []
    | _ => []
  | .messageReceived _ convoId content account _ nowMs =>
    if convoId = id then [receivedEntry content account nowMs] else []
  | _ => []

/-- The text of a send of `id` that libchat takes in a step. -/
def accepted (id : String) (s : Threads σ) : Move → List String
  | .proceed i _ answer _ =>
    match s.calls[i]?, withClient s.world answer with
    | some (.sendChecked convoId content), .ok () => if convoId = id then [content] else []
    | _, _ => []
  | _ => []

/-- What happens within a session: libchat names a new conversation in each create, and
its events are about conversations whose create has returned. -/
structure Within (s : Threads σ) (mv : Move) : Prop where
  goes : mv ≠ .shutdown
  new : ∀ id, mv.created = some id → s.guarded.chats.get id = none ∧ id ∉ s.creating
  returned : ∀ id, mv.about s = some id → id ∉ s.creating

/-- A session at work: a create in flight saves an empty conversation that is not listed
yet, and a send in flight is of one that is listed or deleted. -/
structure Working (s : Threads σ) : Prop where
  installed : s.world.module.isSome
  connected : s.guarded.display.chatDb.isSome
  creates : ∀ session event, .created session event ∈ s.calls →
    s.guarded.chats.get session.chatId = none ∧ session.messages = [] ∧ session.olderMessages = 0
  distinct : s.creating.Nodup
  sends : ∀ call ∈ s.calls, ∀ id ∈ call.sending,
    (s.guarded.chats.get id).isSome ∨ id ∈ s.guarded.deleted

section Steps

variable {s s' : Threads σ} {mv : Move} {id : String}

omit [MessageStore σ] in
theorem mem_creating {id : String} :
    id ∈ s.creating ↔ ∃ session event, .created session event ∈ s.calls ∧ session.chatId = id := by
  unfold Threads.creating
  rw [List.mem_filterMap]
  constructor
  · rintro ⟨call, hmem, hid⟩
    cases call with
    | created session event => exact ⟨session, event, hmem, by simpa [Call.creating] using hid⟩
    | _ => simp [Call.creating] at hid
  · rintro ⟨session, event, hmem, rfl⟩
    exact ⟨_, hmem, rfl⟩

/-- An init in a session that is up is about no conversation. -/
theorem touches_init {config : ChatConfig} {env : Environment} {w : World σ}
    (hm : w.module.isSome) (c : String) :
    Touches c [] w.guarded (Actions.init config env w).world.guarded ∧
      (Actions.init config env w).world.guarded.chats = w.guarded.chats := by
  rcases init_cases config env w with ⟨hnone, -⟩ | ⟨-, heq⟩ | ⟨hnone, -⟩
  · simp [hnone] at hm
  · obtain ⟨hstate, hdb⟩ := claimDeliveryRetry_state w.guarded
    rw [heq]
    refine ⟨.of_state ?_ ?_ hdb c, ?_⟩
    · simp only [hstate]
    · simp only [Guarded.deleted, hstate]
    · simp only [Guarded.chats, hstate]
  · simp [hnone] at hm

omit [MessageStore σ] in
/-- A step that says nothing. -/
theorem said_nil {c : String} (h : said id s mv = []) :
    said id s mv = if c = id then ([] : List DisplayMessage) else [] := by
  rw [h]
  split <;> rfl

/-- A step is about one conversation, which a create in flight is not about to save
unless it stays unlisted. -/
structure StepTouches (c : String) (s : Threads σ) (mv : Move) (s' : Threads σ) : Prop where
  touches : ∃ new, Touches c new s.guarded s'.guarded ∧
    ∀ id, said id s mv = if c = id then new else []
  unlisted : c ∈ s'.creating → s.guarded.chats.get c = none → s'.guarded.chats.get c = none

omit [MessageStore σ] in
/-- A step whose section leaves the chats and the tombstones as they were. -/
theorem StepTouches.silent (h : Touches "" [] s.guarded s'.guarded)
    (hchats : s'.guarded.chats = s.guarded.chats) (hsaid : ∀ id, said id s mv = []) :
    StepTouches "" s mv s' :=
  ⟨⟨[], h, fun id => said_nil (hsaid id)⟩, fun _ hnone => by rw [hchats]; exact hnone⟩

theorem proceed_touches {i : ℕ} {faults : Faults} {answer : Except ClientError Unit}
    {nowMs : UInt64} {call : Call} (hw : Working s) (hcall : s.calls[i]? = some call)
    (hstep : s.step (.proceed i faults answer nowMs) = some s') :
    ∃ c, StepTouches c s (.proceed i faults answer nowMs) s' := by
  have hmem := List.mem_of_getElem? hcall
  simp only [Threads.step, hcall] at hstep
  cases hstep
  cases call with
  | sendChecked convoId content =>
    exact ⟨"", .silent (.refl _ _) rfl fun id => by simp [said, hcall]⟩
  | sent convoId content =>
    have hknown := hw.sends _ hmem convoId rfl
    refine ⟨convoId, ⟨_, touches_sendMessage hw.connected hknown faults content nowMs, ?_⟩, ?_⟩
    · intro id
      simp only [said, hcall]
    · intro _ hnone
      have hsame := sendMessageLocked_of_get_none hnone faults content nowMs
      simp only [Call.proceed, Threads.display, hsame]
      exact hnone
  | created session event =>
    obtain ⟨hnone, hmsgs, holder⟩ := hw.creates session event hmem
    refine ⟨session.chatId, ⟨[], touches_insertChat hnone hmsgs holder faults, ?_⟩, ?_⟩
    · intro id
      exact said_nil (by simp [said, hcall])
    · -- it was the one create of that conversation
      intro hagain
      exfalso
      have hperm := (List.getElem_cons_eraseIdx_perm
        (List.getElem?_eq_some_iff.mp hcall).1).filterMap Call.creating
      rw [(List.getElem?_eq_some_iff.mp hcall).2] at hperm
      have hnodup := hperm.nodup_iff.mpr hw.distinct
      have hhead : session.chatId ∉ (s.calls.eraseIdx i).filterMap Call.creating :=
        (List.nodup_cons.mp hnodup).1
      refine hhead ?_
      simp only [Threads.creating, Threads.display, Call.proceed, List.filterMap_append,
        List.mem_append] at hagain
      rcases hagain with hnew | hold
      · obtain ⟨call, hcall', hid⟩ := List.mem_filterMap.mp hnew
        obtain ⟨-, -, rfl⟩ := mem_goesOn.mp hcall'
        cases hid
      · exact hold
  | inviteChecked convoId => exact ⟨"", .silent (.refl _ _) rfl fun id => by simp [said, hcall]⟩
  | raising event =>
    have hsame : Touches "" [] s.guarded (s.guarded.emit event) :=
      (Touches.refl _ _).of_display rfl
    exact ⟨"", .silent hsame rfl fun id => by simp [said, hcall]⟩

theorem step_touches (hw : Working s) (hin : Within s mv) (hstep : s.step mv = some s') :
    ∃ c, StepTouches c s mv s' := by
  cases mv with
  | init config env =>
    cases hstep
    obtain ⟨htouches, hchats⟩ := touches_init hw.installed ""
    exact ⟨"", .silent htouches hchats fun id => rfl⟩
  | shutdown => exact absurd rfl hin.goes
  | setInstallationName faults name =>
    cases hstep
    rcases setInstallationName_cases faults name s.guarded with ⟨e, heq⟩ | ⟨-, heq⟩
    · refine ⟨"", .silent ?_ ?_ fun id => rfl⟩
      · simp only [Threads.display, heq]
        exact .refl _ _
      · simp only [Threads.display, heq]
    · refine ⟨"", .silent ?_ ?_ fun id => rfl⟩
      · simp only [Threads.display, heq]
        apply Touches.of_state <;> rfl
      · simp only [Threads.display, heq]
        rfl
  | createConversation | createGroupConversation | addGroupMember | sendMessage =>
    cases hstep
    exact ⟨"", .silent (.refl _ _) rfl fun id => rfl⟩
  | setConversationNickname faults convoId nickname =>
    cases hstep
    refine ⟨convoId, ⟨[], touches_setConversationNickname faults convoId nickname _, ?_⟩, ?_⟩
    · intro id
      exact said_nil rfl
    · intro _ hnone
      change (setConversationNicknameLocked faults convoId nickname s.guarded).1.chats.get _ = none
      rw [setConversationNicknameLocked_of_get_none hnone]
      exact hnone
  | deleteConversation faults convoId =>
    cases hstep
    refine ⟨convoId, ⟨[], touches_deleteConversation faults convoId _, ?_⟩, ?_⟩
    · intro id
      exact said_nil rfl
    · intro _ hnone
      change (deleteConversationLocked faults convoId s.guarded).1.chats.get _ = none
      rw [deleteConversationLocked_of_get_none hnone]
      exact hnone
  | proceed i faults answer nowMs =>
    cases hcall : s.calls[i]? with
    | none => simp [Threads.step, hcall] at hstep
    | some call => exact proceed_touches hw hcall hstep
  | conversationStarted convoId kind answer =>
    simp only [Threads.step] at hstep
    split at hstep <;> cases hstep
    exact ⟨"", .silent (.refl _ _) rfl fun id => rfl⟩
  | conversationRecorded faults =>
    have hreturned := hin.returned
    simp only [Threads.step] at hstep
    split at hstep
    · cases hstep
    · next started hstarted =>
      cases hstep
      refine ⟨started.convoId, ⟨[], touches_recordConversationStarted faults _ _ _ _, ?_⟩, ?_⟩
      · intro id
        exact said_nil rfl
      · intro hcreating
        exact absurd hcreating (hreturned _ (by simp [Move.about, hstarted]))
  | messageReceived faults convoId content account installation nowMs =>
    have hreturned := hin.returned convoId rfl
    simp only [Threads.step] at hstep
    split at hstep <;> cases hstep
    refine ⟨convoId, ⟨_, touches_messageReceived hw.connected faults convoId content account
      installation nowMs, ?_⟩, ?_⟩
    · intro id
      rfl
    · intro hcreating
      exact absurd hcreating hreturned
  | membersChanged convoId =>
    simp only [Threads.step] at hstep
    split at hstep <;> cases hstep
    have hsame : (recordMembersChanged convoId s.guarded).display = s.guarded.display := by
      unfold recordMembersChanged
      split <;> rfl
    exact ⟨"", .silent ((Touches.refl _ _).of_display hsame)
      (congrArg (fun d => d.state.chats) hsame) fun id => rfl⟩

/-- Creates in flight stay creates of different conversations. -/
theorem creating_step (hw : Working s) (hin : Within s mv) (hstep : s.step mv = some s') :
    s'.creating.Nodup := by
  obtain ⟨next, hnext, hcalls⟩ := step_calls hstep
  -- what stays in flight
  obtain ⟨rest, hsub, hrest⟩ : ∃ rest, (rest.filterMap Call.creating).Sublist s.creating ∧
      s'.calls = next.toList ++ rest := by
    rcases hcalls with heq | ⟨i, -, -, -, -, -, -, heq⟩
    · exact ⟨s.calls, List.Sublist.refl _, heq⟩
    · exact ⟨_, (List.eraseIdx_sublist s.calls i).filterMap _, heq⟩
  have hold := hw.distinct.sublist hsub
  unfold Threads.creating
  rw [hrest, List.filterMap_append]
  cases next with
  | none => simpa using hold
  | some call =>
    cases hnext call rfl with
    | @created session event hcreated hmsgs holder =>
      -- libchat has just named it
      have hnew : session.chatId ∉ rest.filterMap Call.creating :=
        fun hmem => (hin.new _ hcreated).2 (hsub.subset hmem)
      exact List.nodup_cons.mpr ⟨hnew, hold⟩
    | sendChecked content hsome => exact hold
    | sent hmem => exact hold
    | inviteChecked id => exact hold
    | raising event => exact hold

theorem working_step (hin : Within s mv) (hstep : s.step mv = some s') (hw : Working s) :
    Working s' := by
  obtain ⟨c, ⟨new, htouches, -⟩, hunlisted⟩ := step_touches hw hin hstep
  -- what is listed stays listed or is deleted
  have hstays : ∀ id, (s.guarded.chats.get id).isSome ∨ id ∈ s.guarded.deleted →
      (s'.guarded.chats.get id).isSome ∨ id ∈ s'.guarded.deleted := by
    rintro id (hsome | hdel)
    · by_cases hid : id = c
      · subst hid
        exact htouches.stays hsome
      · rw [htouches.others id hid]
        exact Or.inl hsome
    · exact Or.inr (htouches.remembers hdel)
  constructor
  · rcases step_cases hstep with ⟨config, env, rfl, hworld⟩ | ⟨rfl, -⟩ | ⟨g, -, hworld⟩
    · rcases init_cases config env s.world with ⟨hnone, -⟩ | ⟨hm, heq⟩ | ⟨hnone, -⟩
      · simpa [hnone] using hw.installed
      · rw [hworld, heq]
        exact hm
      · simpa [hnone] using hw.installed
    · exact absurd rfl hin.goes
    · rw [hworld]
      exact hw.installed
  · rw [htouches.connected]
    exact hw.connected
  · intro session event hmem
    have hcreating : session.chatId ∈ s'.creating := mem_creating.mpr ⟨session, event, hmem, rfl⟩
    have hbefore : s.guarded.chats.get session.chatId = none ∧ session.messages = [] ∧
        session.olderMessages = 0 := by
      rcases mem_calls_of_step hstep hmem with hold | henters
      · exact hw.creates session event hold
      · cases henters with
        | created event hcreated hmsgs holder => exact ⟨(hin.new _ hcreated).1, hmsgs, holder⟩
    obtain ⟨hnone, hmsgs, holder⟩ := hbefore
    refine ⟨?_, hmsgs, holder⟩
    by_cases hid : session.chatId = c
    · rw [hid] at hnone hcreating ⊢
      exact hunlisted hcreating hnone
    · rw [htouches.others _ hid]
      exact hnone
  · exact creating_step hw hin hstep
  · intro call hmem id hid
    refine hstays id ?_
    rcases mem_calls_of_step hstep hmem with hold | henters
    · exact hw.sends call hold id hid
    · cases henters with
      | sendChecked content hsome =>
        obtain rfl := Option.some.inj hid
        exact Or.inl hsome
      | sent hchecked => exact hw.sends _ hchecked id hid
      | created event hcreated hmsgs holder => cases hid
      | inviteChecked id => cases hid
      | raising event => cases hid

/-! ## A send that libchat takes is recorded once -/

omit [MessageStore σ] in
theorem unrecorded_goesOn {α : Type} {result : Except CoreError α} {next : α → Call}
    (hnext : ∀ a, (next a).unrecorded id = none) :
    (goesOn result next).toList.filterMap (Call.unrecorded id) = [] := by
  cases result with
  | error e => rfl
  | ok a => simp [goesOn, hnext]

omit [MessageStore σ] in
theorem unrecorded_raises {result : Except CoreError Unit} {event : PluginEvent} :
    (raises result event).toList.filterMap (Call.unrecorded id) = [] :=
  unrecorded_goesOn fun _ => rfl

/-- The texts of the messages sent among some entries. -/
def sentTexts (entries : List DisplayMessage) : List String :=
  (entries.filter DisplayMessage.fromSelf).map DisplayMessage.content

/-- The texts of the sends of `id` that libchat has taken and no section has recorded. -/
def Threads.unrecorded (id : String) (s : Threads σ) : List String :=
  s.calls.filterMap (Call.unrecorded id)

/-- The next section of a call: a text libchat takes becomes unrecorded, one said no longer is. -/
theorem unrecorded_proceed {i : ℕ} {faults : Faults} {answer : Except ClientError Unit}
    {nowMs : UInt64} (hstep : s.step (.proceed i faults answer nowMs) = some s') :
    (accepted id s (.proceed i faults answer nowMs) ++ s.unrecorded id).Perm
      (sentTexts (said id s (.proceed i faults answer nowMs)) ++ s'.unrecorded id) := by
  simp only [Threads.step] at hstep
  split at hstep
  · cases hstep
  · next call hcall =>
    cases hstep
    obtain ⟨hlt, hget⟩ := List.getElem?_eq_some_iff.mp hcall
    have hperm := (List.getElem_cons_eraseIdx_perm hlt).filterMap (Call.unrecorded id)
    rw [hget] at hperm
    simp only [accepted, said, hcall, Threads.unrecorded, Threads.display]
    cases call with
    | sendChecked convoId content =>
      have hrest : ((s.calls.eraseIdx i).filterMap (Call.unrecorded id)).Perm
          (s.calls.filterMap (Call.unrecorded id)) := hperm
      cases hclient : withClient s.world answer with
      | error e =>
        simp only [Call.proceed, hclient, goesOn]
        exact hrest.symm
      | ok u =>
        -- it goes on as a send that is unrecorded
        by_cases hid : convoId = id
        · simp only [Call.proceed, hclient, goesOn, if_pos hid]
          simpa [sentTexts, Call.unrecorded, hid] using hrest.symm
        · simp only [Call.proceed, hclient, goesOn, if_neg hid]
          simpa [sentTexts, Call.unrecorded, hid] using hrest.symm
    | sent convoId content =>
      by_cases hid : convoId = id
      · simp only [if_pos hid]
        rw [Call.proceed, List.filterMap_append, unrecorded_raises]
        simpa [sentTexts, sentEntry, Call.unrecorded, hid] using hperm.symm
      · simp only [if_neg hid]
        rw [Call.proceed, List.filterMap_append, unrecorded_raises]
        simpa [sentTexts, Call.unrecorded, hid] using hperm.symm
    | created session event =>
      rw [Call.proceed, List.filterMap_append, unrecorded_raises]
      exact hperm.symm
    | inviteChecked convoId =>
      rw [Call.proceed, List.filterMap_append, unrecorded_raises]
      exact hperm.symm
    | raising event => exact hperm.symm

/-- What libchat takes in a step is unrecorded after it, and what a step records was. -/
theorem unrecorded_step (hstep : s.step mv = some s') :
    (accepted id s mv ++ s.unrecorded id).Perm (sentTexts (said id s mv) ++ s'.unrecorded id) := by
  have hstays : ∀ next : Option Call, next.toList.filterMap (Call.unrecorded id) = [] →
      s'.calls = next.toList ++ s.calls → s'.unrecorded id = s.unrecorded id := by
    intro next hnext hcalls
    unfold Threads.unrecorded
    rw [hcalls, List.filterMap_append, hnext, List.nil_append]
  cases mv with
  | proceed i faults answer nowMs => exact unrecorded_proceed hstep
  | messageReceived faults convoId content account installation nowMs =>
    simp only [Threads.step] at hstep
    split at hstep <;> cases hstep
    have hnone : sentTexts (said id s (.messageReceived faults convoId content account
        installation nowMs)) = [] := by
      simp only [said]
      split <;> rfl
    rw [hnone, hstays none rfl rfl]
    exact List.Perm.refl _
  | init | setInstallationName =>
    cases hstep
    exact List.Perm.refl _
  | createConversation | createGroupConversation | addGroupMember | sendMessage =>
    cases hstep
    rw [hstays _ (unrecorded_goesOn fun _ => rfl) rfl]
    exact List.Perm.refl _
  | setConversationNickname | deleteConversation =>
    cases hstep
    rw [hstays _ unrecorded_raises rfl]
    exact List.Perm.refl _
  | shutdown | conversationStarted | conversationRecorded | membersChanged =>
    simp only [Threads.step] at hstep
    split at hstep <;> cases hstep
    exact List.Perm.refl _

end Steps

/-! ## Runs -/

/-- The messages a load reads back for a conversation, which has to have a row. -/
def loadedMessages (db : ChatDb σ) (id : String) : List Message :=
  match db.row id with
  | some _ => ((db.history id).rtake loadedPerChat).map reported
  | none => []

/-- How many messages a load leaves out. -/
def leftOut (db : ChatDb σ) (id : String) : ℕ :=
  match db.row id with
  | some _ => (db.history id).length - loadedPerChat
  | none => 0

section Runs

variable {s s₀ s₁ s₂ : Threads σ} {moves : List Move} {id : String}

/-- Of `id`, when it is not deleted, what was shown at the start of the session is
shown with `out` after it. -/
structure Logged (id : String) (g₀ : Guarded σ) (out : List DisplayMessage) (s : Threads σ) :
    Prop where
  working : Working s
  shown : id ∉ s.guarded.deleted → shown s.guarded id = ((shown g₀ id).1 ++ out, (shown g₀ id).2)

theorem logged_step {g₀ : Guarded σ} {out : List DisplayMessage} {mv : Move}
    (hin : Within s mv) (hstep : s.step mv = some s₁) (h : Logged id g₀ out s) :
    Logged id g₀ (out ++ said id s mv) s₁ := by
  obtain ⟨c, ⟨new, htouches, hsaid⟩, -⟩ := step_touches h.working hin hstep
  refine ⟨working_step hin hstep h.working, ?_⟩
  intro hdel
  have hbefore := h.shown fun hmem => hdel (htouches.remembers hmem)
  rw [hsaid id]
  by_cases hid : id = c
  · subst hid
    rw [htouches.shown hdel, hbefore, if_pos rfl, List.append_assoc]
  · have hsame : ChatModule.shown s₁.guarded id = ChatModule.shown s.guarded id := by
      simp [ChatModule.shown, htouches.others id hid]
    rw [hsame, hbefore, if_neg (Ne.symm hid), List.append_nil]

theorem logged_run (hw : Working s₀) (hrun : (interleaved σ).Run Within s₀ moves s) (id : String) :
    Logged id s₀.guarded ((interleaved σ).output (said id) s₀ moves) s := by
  refine hrun.accumulates (I := fun out s => Logged id s₀.guarded out s) ?_ ⟨hw, ?_⟩
  · intro out s mv s' hin hstep h
    exact logged_step hin hstep h
  · intro _
    simp

omit [MessageStore σ] in
theorem sentTexts_append (xs ys : List DisplayMessage) :
    sentTexts (xs ++ ys) = sentTexts xs ++ sentTexts ys := by
  simp [sentTexts]

/-- What libchat takes in a run, with what waited to be recorded, is recorded or waits. -/
theorem unrecorded_run (hrun : (interleaved σ).Run Within s₀ moves s) (id : String) :
    ((interleaved σ).output (accepted id) s₀ moves ++ s₀.unrecorded id).Perm
      (sentTexts ((interleaved σ).output (said id) s₀ moves) ++ s.unrecorded id) := by
  induction hrun with
  | nil s => exact List.Perm.refl _
  | @cons s₀ s₁ s mv moves _ hs _ ih =>
    rw [Machine.output_cons hs, Machine.output_cons hs, sentTexts_append, List.append_assoc]
    -- the first step's texts are moved past those of the rest, and back
    have hfirst : (accepted id s₀ mv ++ s₀.unrecorded id).Perm
        (sentTexts (said id s₀ mv) ++ s₁.unrecorded id) := unrecorded_step hs
    calc accepted id s₀ mv ++ ((interleaved σ).output (accepted id) s₁ moves ++ s₀.unrecorded id)
      _ |>.Perm ((interleaved σ).output (accepted id) s₁ moves ++
            (accepted id s₀ mv ++ s₀.unrecorded id)) := by
          rw [← List.append_assoc, ← List.append_assoc]
          exact List.perm_append_comm.append_right _
      _ |>.Perm ((interleaved σ).output (accepted id) s₁ moves ++
            (sentTexts (said id s₀ mv) ++ s₁.unrecorded id)) := hfirst.append_left _
      _ |>.Perm (sentTexts (said id s₀ mv) ++
            ((interleaved σ).output (accepted id) s₁ moves ++ s₁.unrecorded id)) := by
          rw [← List.append_assoc, ← List.append_assoc]
          exact List.perm_append_comm.append_right _
      _ |>.Perm (sentTexts (said id s₀ mv) ++
            (sentTexts ((interleaved σ).output (said id) s₁ moves) ++ s.unrecorded id)) :=
          ih.append_left _
      _ = _ := by rw [List.append_assoc]

/-- What is shown when a session begins is what was loaded. -/
theorem Actions.Seeded.shown_eq {g g' : Guarded σ} {client : Client} {live : List String}
    (hs : Seeded g client live g') (id : String) :
    getMessages g' id = loadedMessages g.file id ∧ (shown g' id).2 = leftOut g.file id := by
  have hget := hs.chats id
  rw [getMessages_eq_shown]
  unfold loadedMessages leftOut
  cases hrow : g.file.row id with
  | none =>
    rw [hrow] at hget
    rw [shown_of_get_none hget]
    exact ⟨rfl, rfl⟩
  | some row =>
    rw [hrow] at hget
    rw [shown_of_get hget]
    simp [loadedSession, reported]

variable [LawfulMessageStore σ]

/-- An init that installs a session leaves it at work, showing what it loaded. -/
theorem working_init {config : ChatConfig} {env : Environment} (hm : s.world.module = none)
    (hcalls : s.calls = []) (hinit : s.step (.init config env) = some s₀)
    (hm₀ : s₀.world.module.isSome) :
    Working s₀ ∧ s₀.calls = [] ∧ ∃ client live, Seeded s.guarded client live s₀.guarded := by
  cases hinit
  rcases init_cases config env s.world with ⟨-, g, ms, hinit, heq⟩ | ⟨hsome, -⟩ | ⟨-, e, -, heq⟩
  · obtain ⟨live, -, hseeded⟩ := initializeModule_ok hinit
    have hopen : g.display.chatDb.isSome := by
      rw [hseeded.chatDb]
      rfl
    rw [heq]
    refine ⟨⟨rfl, hopen, ?_, ?_, ?_⟩, hcalls, ms.client, live, hseeded⟩
    · intro session event hmem
      simp [hcalls] at hmem
    · simp [Threads.creating, hcalls]
    · intro call hmem
      simp [hcalls] at hmem
  · simp [hm] at hsome
  · rw [heq] at hm₀
    simp [hm] at hm₀

/-- From the return of init to the call of shutdown, the messages of a conversation that
is not deleted are the ones loaded, followed by one entry for each section that recorded
one, in the order the sections ran; every send libchat took has its entry, or waits for
its section; entries stay where they are; and the count adds the messages the load left
out. -/
theorem history_append_only {config : ChatConfig} {env : Environment}
    (hm : s.world.module = none) (hcalls : s.calls = [])
    (hinit : (interleaved σ).step s (.init config env) = some s₀)
    (hm₀ : s₀.world.module.isSome) (hrun : (interleaved σ).Run Within s₀ moves s₁)
    (hid : id ∉ s₁.guarded.deleted) :
    getMessages s₁.guarded id = loadedMessages s.guarded.file id ++
        ((interleaved σ).output (said id) s₀ moves).map message ∧
      ((interleaved σ).output (accepted id) s₀ moves).Perm
        (sentTexts ((interleaved σ).output (said id) s₀ moves) ++ s₁.unrecorded id) ∧
      (∀ later s₂, (interleaved σ).Run Within s₁ later s₂ → id ∉ s₂.guarded.deleted →
        getMessages s₁.guarded id <+: getMessages s₂.guarded id) ∧
      ∀ c ∈ listConversations s₁.guarded, c.convoId = id →
        c.messageCount = leftOut s.guarded.file id + (getMessages s₁.guarded id).length := by
  obtain ⟨hw, hcalls₀, client, live, hseeded⟩ := working_init hm hcalls hinit hm₀
  obtain ⟨hloaded, hleft⟩ := hseeded.shown_eq id
  have hlogged := logged_run hw hrun id
  have hshown := hlogged.shown hid
  refine ⟨?_, ?_, ?_, ?_⟩
  · rw [getMessages_eq_shown, hshown, List.map_append, ← getMessages_eq_shown, hloaded]
  · have hperm := unrecorded_run hrun id
    rwa [show s₀.unrecorded id = [] by simp [Threads.unrecorded, hcalls₀], List.append_nil] at hperm
  · intro later s₂ hlater hid₂
    have hlogged₂ := logged_run hlogged.working hlater id
    rw [getMessages_eq_shown, getMessages_eq_shown, hlogged₂.shown hid₂, List.map_append]
    exact List.prefix_append _ _
  · rintro c hc rfl
    rw [messageCount_eq_shown hc, hshown, hleft]

omit [MessageStore σ] [LawfulMessageStore σ] in
/-- A step that is about no conversation of libchat's choosing is always allowed. -/
theorem Within.of_none {mv : Move} (hgoes : mv ≠ .shutdown) (hcreated : mv.created = none)
    (habout : ∀ s : Threads σ, mv.about s = none) (s : Threads σ) : Within s mv :=
  ⟨hgoes, by simp [hcreated], by simp [habout]⟩

/-- The conversation is there, and a send in it is past libchat. -/
def sendingHello : List Move := [
  .proceed 0 noFaults (.ok ()) 0,
  .sendMessage "c1" "hello",
  .proceed 0 noFaults (.ok ()) 0]

/-- A conversation is created; a message arrives in it while a send is between libchat
and its recording, which then cannot write. -/
def crossing : List Move :=
  .createConversation (.ok "c1") "peer" :: (sendingHello ++ [
    .messageReceived noFaults "c1" [104, 105] "peer" "device" 1,
    .proceed 0 (fun stmt => if stmt = .record then some "disk full" else none) (.ok ()) 2])

theorem history_append_only_crossing : ∃ s₀ s₁ : Threads LogStore,
    (interleaved LogStore).step (Threads.start emptyDb none)
      (.init ⟨none⟩ (.up ⟨"name", "addr"⟩ [])) = some s₀ ∧
    (interleaved LogStore).exec s₀ crossing = some s₁ ∧
    getMessages s₁.guarded "c1" = [⟨false, "hi", 1, some "peer"⟩, ⟨true, "hello", 2, none⟩] := by
  have hexec : ∃ s₀ a b c s₁ : Threads LogStore,
      (interleaved LogStore).step (Threads.start emptyDb none)
        (.init ⟨none⟩ (.up ⟨"name", "addr"⟩ [])) = some s₀ ∧
      (interleaved LogStore).step s₀ (.createConversation (.ok "c1") "peer") = some a ∧
      (interleaved LogStore).exec a sendingHello = some b ∧
      (interleaved LogStore).step b
        (.messageReceived noFaults "c1" [104, 105] "peer" "device" 1) = some c ∧
      (interleaved LogStore).step c
        (.proceed 0 (fun stmt => if stmt = .record then some "disk full" else none) (.ok ()) 2) =
          some s₁ ∧
      (interleaved LogStore).exec s₀ crossing = some s₁ ∧
      s₀.world.module.isSome ∧ s₀.guarded.chats.get "c1" = none ∧ s₀.creating = [] ∧
      b.creating = [] ∧ "c1" ∉ s₁.guarded.deleted ∧
      (interleaved LogStore).output (said "c1") s₀ crossing =
        [receivedEntry [104, 105] "peer" 1, sentEntry "hello" 2] :=
    ⟨_, _, _, _, _, rfl, rfl, rfl, rfl, rfl, rfl, rfl, rfl, rfl, rfl, by decide, rfl⟩
  obtain ⟨s₀, a, b, c, s₁, hinit, hcreate, hsend, hrecv, hrec, hall, hm₀, hget, hnone, hidle, hdel,
    hsaid⟩ := hexec
  have hcreates : Within s₀ (.createConversation (.ok "c1") "peer") := by
    refine ⟨fun h => (nomatch h), ?_, fun id hid => (nomatch hid)⟩
    intro id hid
    obtain rfl : "c1" = id := Option.some.inj hid
    exact ⟨hget, by simp [hnone]⟩
  have hreceives : Within b (.messageReceived noFaults "c1" [104, 105] "peer" "device" 1) :=
    ⟨fun h => (nomatch h), fun id hid => (nomatch hid), fun id _ => by simp [hidle]⟩
  have hsends : (interleaved LogStore).Run Within a sendingHello b := by
    refine (Machine.run_of_exec hsend).imp ?_
    intro mv hmv s _
    simp only [sendingHello, List.mem_cons, List.not_mem_nil, or_false] at hmv
    rcases hmv with rfl | rfl | rfl <;>
      exact .of_none (by simp) rfl (fun _ => rfl) s
  have hrun : (interleaved LogStore).Run Within s₀ crossing s₁ :=
    .cons hcreates hcreate (hsends.append (.cons hreceives hrecv
      (.single (.of_none (by simp) rfl (fun _ => rfl) c) hrec)))
  refine ⟨s₀, s₁, hinit, hall, ?_⟩
  rw [(history_append_only rfl rfl hinit hm₀ hrun hdel).1, hsaid]
  rfl

end Runs

end ChatModule
