import ChatModule.Sequential

/-!
# The module, one critical section at a time

API calls come from any number of threads. Between the sections of one call, held
under the client lock or under the display lock, those of other calls and of the
event consumer may run. A call in flight is what its next section captured (`Call`);
the consumer handles one event at a time, and of its handlers only
`record_conversation_started` has two sections.

An init and a shutdown are one step each. A shutdown joins the consumer before it
resets the display, so it waits for the handler that is running.
-/

namespace ChatModule

open Actions Persistence

variable {σ : Type}

/-! ## States -/

/-- A call in flight, by the section it has reached. -/
inductive Call
  /-- `send_message`, past its check. -/
  | sendChecked (convoId content : String)
  /-- `send_message`, past libchat. -/
  | sent (convoId content : String)
  /-- A create, past libchat: the session it saves and the event it then raises. -/
  | created (session : ChatSession) (event : PluginEvent)
  /-- `add_group_member`, past its check. -/
  | inviteChecked (convoId : String)
  /-- Any call, past its last section, with the event it raises. -/
  | raising (event : PluginEvent)

/-- `record_conversation_started`, past the metadata. -/
structure Started where
  convoId : String
  kind : ConversationKind
  metadata : Option String × Option String

/-- The process, the calls in flight and what the event consumer is doing. -/
structure Threads (σ : Type) where
  world : World σ
  calls : List Call
  consumer : Option Started

namespace Threads

/-- No call in flight. -/
def start (file : ChatDb σ) (ownNodePreset : Option String) : Threads σ :=
  ⟨World.start file ownNodePreset, [], none⟩

/-- What the display lock guards. -/
abbrev guarded (s : Threads σ) : Guarded σ := s.world.guarded

/-- Whether the consumer can take an event. -/
def listening (s : Threads σ) : Bool := s.world.module.isSome && s.consumer.isNone

/-- A section under the display lock, by a call that goes on as `next`. -/
def display (s : Threads σ) (g : Guarded σ) (next : Option Call) : Threads σ :=
  { s with world := { s.world with guarded := g }, calls := next.toList ++ s.calls }

/-- A call that reaches its next section, if it does not end. -/
def go (s : Threads σ) (next : Option Call) : Threads σ :=
  { s with calls := next.toList ++ s.calls }

end Threads

/-! ## Steps -/

/-- What can happen next. -/
inductive Move
  | init (config : ChatConfig) (env : Environment)
  | shutdown
  | setInstallationName (faults : Faults) (name : String)
  /-- libchat creates the conversation. -/
  | createConversation (answer : Except ClientError String) (peerAddress : String)
  | createGroupConversation (answer : Except ClientError String) (name desc : String)
  /-- The check of `add_group_member`. -/
  | addGroupMember (convoId : String)
  /-- The check of `send_message`. -/
  | sendMessage (convoId content : String)
  | setConversationNickname (faults : Faults) (convoId nickname : String)
  | deleteConversation (faults : Faults) (convoId : String)
  /-- The next section of the `i`-th call in flight. -/
  | proceed (i : ℕ) (faults : Faults) (answer : Except ClientError Unit) (nowMs : UInt64)
  /-- The consumer takes a `ConversationStarted` and reads its metadata. -/
  | conversationStarted (convoId : String) (kind : ConversationKind)
      (answer : Except ClientError GroupMetadata)
  /-- The consumer records it. -/
  | conversationRecorded (faults : Faults)
  | messageReceived (faults : Faults) (convoId : String) (content : List UInt8)
      (account installation : String) (nowMs : UInt64)
  | membersChanged (convoId : String)

/-- A call goes on as `next`, unless it fails here. -/
def goesOn {α : Type} (result : Except CoreError α) (next : α → Call) : Option Call :=
  match result with
  | .ok a => some (next a)
  | .error _ => none

/-- A call that is past its last section raises its event, unless it fails there. -/
def raises (result : Except CoreError Unit) (event : PluginEvent) : Option Call :=
  goesOn result fun _ => .raising event

variable [MessageStore σ]

/-- The next section of a call: what it leaves and how the call goes on. -/
def Call.proceed (call : Call) (faults : Faults) (answer : Except ClientError Unit)
    (nowMs : UInt64) (w : World σ) : Guarded σ × Option Call :=
  match call with
  | .sendChecked convoId content =>
    (w.guarded, goesOn (withClient w answer) fun _ => .sent convoId content)
  | .sent convoId content =>
    let (g, result) := sendMessageLocked faults convoId content nowMs w.guarded
    (g, raises result (.messageSent convoId content nowMs.toInt64))
  | .created session event =>
    -- nothing is looked up here: the session goes in under whatever id libchat gave
    let (g, result) := insertChat faults session w.guarded
    (g, raises result event)
  | .inviteChecked convoId =>
    (w.guarded, raises (withClient w answer) (.conversationUpdated convoId))
  | .raising event => (w.guarded.emit event, none)

/-- One step of the interleaved machine. -/
def Threads.step (s : Threads σ) : Move → Option (Threads σ)
  | .init config env => some { s with world := (Actions.init config env s.world).world }
  | .shutdown =>
    -- it joins the consumer, so it waits for the handler that is running
    if s.consumer.isSome then none else some { s with world := Actions.shutdown s.world }
  | .setInstallationName faults name =>
    some (s.display (setInstallationName faults name s.guarded).1 none)
  -- libchat's part of a create; the section that saves the session comes later
  | .createConversation answer peerAddress =>
    some (s.go (goesOn (withClient s.world answer) fun chatId =>
      .created (directSession peerAddress chatId) (directCreated chatId)))
  | .createGroupConversation answer name desc =>
    some (s.go (goesOn (withClient s.world answer) fun chatId =>
      .created (groupSession name desc chatId) (groupCreated name desc chatId)))
  | .addGroupMember convoId =>
    some (s.go (goesOn (checkLive convoId s.guarded) fun _ => .inviteChecked convoId))
  | .sendMessage convoId content =>
    some (s.go (goesOn (checkLive convoId s.guarded) fun _ => .sendChecked convoId content))
  | .setConversationNickname faults convoId nickname =>
    let (g, result) := setConversationNicknameLocked faults convoId nickname s.guarded
    some (s.display g (raises result (.conversationUpdated convoId)))
  | .deleteConversation faults convoId =>
    let (g, result) := deleteConversationLocked faults convoId s.guarded
    some (s.display g (raises result (.conversationDeleted convoId)))
  | .proceed i faults answer nowMs =>
    match s.calls[i]? with
    | none => none
    | some call =>
      -- the call leaves the list, and comes back when it has a section left
      let (g, next) := call.proceed faults answer nowMs s.world
      some ({ s with calls := s.calls.eraseIdx i }.display g next)
  | .conversationStarted convoId kind answer =>
    if !s.listening then none
    else
      let metadata := startedMetadata kind (withClient s.world answer)
      some { s with consumer := some ⟨convoId, kind, metadata⟩ }
  | .conversationRecorded faults =>
    match s.consumer with
    | none => none
    | some started =>
      let g := recordConversationStartedLocked faults started.convoId started.kind started.metadata
        s.guarded
      some ({ s with consumer := none }.display g none)
  | .messageReceived faults convoId content account installation nowMs =>
    if !s.listening then none
    else some (s.display
      (recordMessageReceived faults convoId content account installation nowMs s.guarded).1 none)
  | .membersChanged convoId =>
    if !s.listening then none else some (s.display (recordMembersChanged convoId s.guarded) none)

/-- The interleaved machine. -/
def interleaved (σ : Type) [MessageStore σ] : Machine (Threads σ) Move := ⟨Threads.step⟩

/-! ## What a step can do -/

/-- What the display lock guards after a step that is neither an init nor a shutdown:
one section ran, or none. -/
inductive Ran (s : Threads σ) : Guarded σ → Prop
  | nothing : Ran s s.guarded
  | setInstallationName (faults : Faults) (name : String) :
    Ran s (setInstallationName faults name s.guarded).1
  | insertChat (faults : Faults) {session : ChatSession} {event : PluginEvent} :
    .created session event ∈ s.calls → Ran s (insertChat faults session s.guarded).1
  | setConversationNickname (faults : Faults) (convoId nickname : String) :
    Ran s (setConversationNicknameLocked faults convoId nickname s.guarded).1
  | deleteConversation (faults : Faults) (convoId : String) :
    Ran s (deleteConversationLocked faults convoId s.guarded).1
  | sendMessage (faults : Faults) (convoId content : String) (nowMs : UInt64) :
    Ran s (sendMessageLocked faults convoId content nowMs s.guarded).1
  | conversationRecorded (faults : Faults) {started : Started} : s.consumer = some started →
    Ran s (recordConversationStartedLocked faults started.convoId started.kind started.metadata
      s.guarded)
  | messageReceived (faults : Faults) (convoId : String) (content : List UInt8)
      (account installation : String) (nowMs : UInt64) : s.listening = true →
    Ran s (recordMessageReceived faults convoId content account installation nowMs s.guarded).1
  | membersChanged (convoId : String) : s.listening = true →
    Ran s (recordMembersChanged convoId s.guarded)
  | raise (event : PluginEvent) : Ran s (s.guarded.emit event)

/-- The id a create gets from libchat. -/
def Move.created : Move → Option String
  | .createConversation answer _ | .createGroupConversation answer _ _ => answer.toOption
  | _ => none

section Steps

variable {s s' : Threads σ} {mv : Move} {session : ChatSession} {event : PluginEvent}

theorem Call.proceed_ran {call : Call} (hcall : call ∈ s.calls) (faults : Faults)
    (answer : Except ClientError Unit) (nowMs : UInt64) :
    Ran s (call.proceed faults answer nowMs s.world).1 := by
  cases call with
  | sendChecked convoId content => exact .nothing
  | sent convoId content => exact .sendMessage faults convoId content nowMs
  | created session event => exact .insertChat faults hcall
  | inviteChecked convoId => exact .nothing
  | raising event => exact .raise event

/-- An init, a shutdown, or one section at most, with the module lock's side as it was. -/
theorem step_cases (h : s.step mv = some s') :
    (∃ config env, mv = .init config env ∧ s'.world = (Actions.init config env s.world).world) ∨
    (mv = .shutdown ∧ s.consumer = none ∧ s'.world = Actions.shutdown s.world) ∨
    ∃ g, Ran s g ∧ s'.world = { s.world with guarded := g } := by
  cases mv with
  | init config env =>
    cases h
    exact Or.inl ⟨config, env, rfl, rfl⟩
  | shutdown =>
    simp only [Threads.step] at h
    split at h
    · cases h
    · next hidle =>
      cases h
      exact Or.inr (Or.inl ⟨rfl, by simpa using hidle, rfl⟩)
  | setInstallationName faults name =>
    cases h
    exact Or.inr (Or.inr ⟨_, .setInstallationName faults name, rfl⟩)
  | createConversation | createGroupConversation | addGroupMember | sendMessage =>
    cases h
    exact Or.inr (Or.inr ⟨_, .nothing, rfl⟩)
  | setConversationNickname faults convoId nickname =>
    cases h
    exact Or.inr (Or.inr ⟨_, .setConversationNickname faults convoId nickname, rfl⟩)
  | deleteConversation faults convoId =>
    cases h
    exact Or.inr (Or.inr ⟨_, .deleteConversation faults convoId, rfl⟩)
  | proceed i faults answer nowMs =>
    simp only [Threads.step] at h
    split at h
    · cases h
    · next call hcall =>
      cases h
      have hran := call.proceed_ran (List.mem_of_getElem? hcall) faults answer nowMs
      exact Or.inr (Or.inr ⟨_, hran, rfl⟩)
  | conversationStarted convoId kind answer =>
    simp only [Threads.step] at h
    split at h
    · cases h
    · cases h
      exact Or.inr (Or.inr ⟨_, .nothing, rfl⟩)
  | conversationRecorded faults =>
    simp only [Threads.step] at h
    split at h
    · cases h
    · next started hstarted =>
      cases h
      exact Or.inr (Or.inr ⟨_, .conversationRecorded faults hstarted, rfl⟩)
  | messageReceived faults convoId content account installation nowMs =>
    simp only [Threads.step] at h
    split at h
    · cases h
    · next hlisten =>
      cases h
      exact Or.inr (Or.inr ⟨_, .messageReceived faults convoId content account installation nowMs
        (by simpa using hlisten), rfl⟩)
  | membersChanged convoId =>
    simp only [Threads.step] at h
    split at h
    · cases h
    · next hlisten =>
      cases h
      exact Or.inr (Or.inr ⟨_, .membersChanged convoId (by simpa using hlisten), rfl⟩)

theorem mem_goesOn {α : Type} {result : Except CoreError α} {next : α → Call} {call : Call} :
    call ∈ (goesOn result next).toList ↔ ∃ a, result = .ok a ∧ next a = call := by
  cases result with
  | error e => simp [goesOn]
  | ok a => simp [goesOn, eq_comm]

/-- A call that goes on as something else is past no create. -/
theorem created_not_mem_goesOn {α : Type} {result : Except CoreError α} {next : α → Call}
    (hnext : ∀ a, next a ≠ .created session event) :
    .created session event ∉ (goesOn result next).toList := by
  rw [mem_goesOn]
  rintro ⟨a, -, h⟩
  exact hnext a h

theorem created_not_mem_raises {result : Except CoreError Unit} {e : PluginEvent} :
    .created session event ∉ (raises result e).toList :=
  created_not_mem_goesOn fun _ h => nomatch h

/-- Among the calls in flight it was there before the one that goes on. -/
theorem created_of_mem {next : Option Call} {calls : List Call}
    (hmem : .created session event ∈ next.toList ++ calls)
    (hno : .created session event ∉ next.toList) : .created session event ∈ calls := by
  rcases List.mem_append.mp hmem with hnew | hold
  · exact absurd hnew hno
  · exact hold

omit [MessageStore σ] in
/-- A create that goes on is past libchat, which has just answered it, and raises the
`conversation_created` of the session it saves. -/
theorem created_of_client {save : String → ChatSession} {created : String → PluginEvent}
    {answer : Except ClientError String} {w : World σ} {calls : List Call}
    (hid : ∀ chatId, (save chatId).chatId = chatId)
    (hevent : ∀ chatId, ∃ label kind name desc,
      created chatId = .conversationCreated chatId true label kind name desc)
    (hmem : .created session event ∈
      (goesOn (withClient w answer) fun chatId => .created (save chatId) (created chatId)).toList
        ++ calls) :
    .created session event ∈ calls ∨
      w.module.isSome ∧ answer.toOption = some session.chatId ∧ ∃ label kind name desc,
        event = .conversationCreated session.chatId true label kind name desc := by
  rcases List.mem_append.mp hmem with hnew | hold
  · obtain ⟨chatId, hclient, heq⟩ := mem_goesOn.mp hnew
    obtain ⟨hm, rfl⟩ := withClient_ok_iff.mp hclient
    cases heq
    rw [hid]
    exact Or.inr ⟨hm, rfl, hevent chatId⟩
  · exact Or.inl hold

theorem Call.created_not_mem_proceed (call : Call) {faults : Faults}
    {answer : Except ClientError Unit} {nowMs : UInt64} {w : World σ} :
    .created session event ∉ (call.proceed faults answer nowMs w).2.toList := by
  cases call with
  | sendChecked convoId content => exact created_not_mem_goesOn fun _ h => nomatch h
  | sent convoId content => exact created_not_mem_raises
  | created session event => exact created_not_mem_raises
  | inviteChecked convoId => exact created_not_mem_raises
  | raising event => simp [Call.proceed]

/-- A call past libchat's create was there, or libchat has just answered it. -/
theorem created_of_step (h : s.step mv = some s') (hmem : .created session event ∈ s'.calls) :
    .created session event ∈ s.calls ∨
      s.world.module.isSome ∧ mv.created = some session.chatId ∧ ∃ label kind name desc,
        event = .conversationCreated session.chatId true label kind name desc := by
  cases mv with
  | init config env =>
    cases h
    exact Or.inl hmem
  | shutdown | conversationStarted =>
    simp only [Threads.step] at h
    split at h <;> cases h
    exact Or.inl hmem
  | setInstallationName faults name =>
    cases h
    exact Or.inl (by simpa [Threads.display] using hmem)
  -- the only steps after which a create is past libchat that was not before
  | createConversation | createGroupConversation =>
    cases h
    exact created_of_client (fun _ => rfl) (fun _ => ⟨_, _, _, _, rfl⟩) hmem
  | addGroupMember | sendMessage =>
    cases h
    exact Or.inl (created_of_mem hmem (created_not_mem_goesOn fun _ heq => nomatch heq))
  | setConversationNickname | deleteConversation =>
    cases h
    exact Or.inl (created_of_mem hmem created_not_mem_raises)
  | proceed i faults answer nowMs =>
    simp only [Threads.step] at h
    split at h <;> cases h
    have hrest := created_of_mem hmem (Call.created_not_mem_proceed _)
    exact Or.inl (List.mem_of_mem_eraseIdx hrest)
  | conversationRecorded | messageReceived | membersChanged =>
    simp only [Threads.step] at h
    split at h <;> cases h
    exact Or.inl (by simpa [Threads.display] using hmem)

/-- The consumer that is in a handler was, or has just taken an event. -/
theorem consumer_of_step (h : s.step mv = some s') (hc : s'.consumer.isSome) :
    s.consumer.isSome ∨ s.world.module.isSome ∧ s'.world = s.world := by
  cases mv with
  | conversationStarted convoId kind answer =>
    simp only [Threads.step] at h
    split at h
    · cases h
    · next hlisten =>
      cases h
      simp only [Bool.not_eq_true', Bool.not_eq_false, Threads.listening, Bool.and_eq_true]
        at hlisten
      exact Or.inr ⟨hlisten.1, rfl⟩
  | conversationRecorded faults =>
    simp only [Threads.step] at h
    split at h <;> cases h
    simp [Threads.display] at hc
  | proceed | shutdown | messageReceived | membersChanged =>
    simp only [Threads.step] at h
    split at h <;> cases h
    exact Or.inl hc
  | _ =>
    cases h
    exact Or.inl hc

end Steps

/-! ## In every reachable state -/

/-- Only an installed session has a connection, or a handler running. -/
structure Sound (s : Threads σ) : Prop where
  closed : s.world.module = none → s.guarded.display.chatDb = none
  consumer : s.consumer.isSome → s.world.module.isSome

omit [MessageStore σ] in
theorem sound_start (file : ChatDb σ) (ownNodePreset : Option String) :
    Sound (Threads.start file ownNodePreset) :=
  ⟨fun _ => rfl, fun h => by simp [Threads.start] at h⟩

end ChatModule
