import ChatModule.Sections

/-!
# The event consumer

What `run_events` does with the client's events: it handles them one after the other, in
the order the client raised them.
-/

namespace ChatModule.Inbound

open Actions Persistence

/-- An event of the client's stream. -/
inductive Event
  | conversationStarted (convoId : String) (cls : ConversationClass)
  | messageReceived (convoId : String) (content : List UInt8) (account installation : String)
  | conversationMembersChanged (convoId : String)
  | inboundError (message : String)
deriving DecidableEq

/-- The conversations the event may open or make live. -/
def Event.opens : Event → Finset String
  | .conversationStarted convoId _ | .messageReceived convoId _ _ _ => {convoId}
  | .conversationMembersChanged _ | .inboundError _ => ∅

/-- What the outside answers while an event is handled. -/
structure Handling where
  faults : Faults
  groupMetadata : Except ClientError GroupMetadata
  nowMs : UInt64

variable {σ : Type} [MessageStore σ]

/-- One turn of `run_events`. -/
def runEvent (h : Handling) (w : World σ) : Event → World σ
  | .conversationStarted convoId cls =>
    recordConversationStarted h.faults convoId (kindForClass cls) h.groupMetadata w
  | .messageReceived convoId content account installation =>
    (underDisplay w
      (recordMessageReceived h.faults convoId content account installation h.nowMs)).1
  | .conversationMembersChanged convoId =>
    { w with guarded := recordMembersChanged convoId w.guarded }
  | .inboundError _ => w

/-- `run_events` over the events that are left. -/
def runEvents (w : World σ) (events : List (Handling × Event)) : World σ :=
  events.foldl (fun w e => runEvent e.1 w e.2) w

/-- An event installs no session and ends none. -/
@[simp] theorem runEvent_module (h : Handling) (w : World σ) (e : Event) :
    (runEvent h w e).module = w.module := by
  cases e <;> rfl

/-! ## What an event may change -/

section Events

variable {w : World σ} {id : String}

/-- An event buries nothing. -/
theorem runEvent_deleted (h : Handling) (w : World σ) (e : Event) :
    (runEvent h w e).guarded.deleted = w.guarded.deleted := by
  cases e with
  | conversationStarted c cls => exact recordConversationStartedLocked_deleted _ _ _ _ _
  | messageReceived c content account installation =>
    exact recordMessageReceived_deleted _ _ _ _ _ _ _
  | conversationMembersChanged c =>
    show (recordMembersChanged c w.guarded).deleted = _
    rw [Guarded.deleted, recordMembersChanged_display]
  | inboundError message => rfl

theorem runEvent_chatDb (h : Handling) (w : World σ) (e : Event) :
    (runEvent h w e).guarded.display.chatDb = w.guarded.display.chatDb := by
  cases e with
  | conversationStarted c cls => exact recordConversationStartedLocked_chatDb _ _ _ _ _
  | messageReceived c content account installation =>
    exact recordMessageReceived_chatDb _ _ _ _ _ _ _
  | conversationMembersChanged c => exact congrArg Display.chatDb (recordMembersChanged_display _ _)
  | inboundError message => rfl

/-- An event leaves the conversations that are not its own alone. -/
theorem runEvent_sameAt [LawfulMessageStore σ] (h : Handling) (w : World σ) (e : Event)
    (hid : id ∉ e.opens) : SameAt id w.guarded (runEvent h w e).guarded := by
  cases e with
  | conversationStarted c cls =>
    have hne : id ≠ c := by simpa [Event.opens] using hid
    exact recordConversationStartedLocked_sameAt hne _ _ _ _
  | messageReceived c content account installation =>
    have hne : id ≠ c := by simpa [Event.opens] using hid
    exact recordMessageReceived_sameAt hne _ _ _ _ _ _
  | conversationMembersChanged c => exact recordMembersChanged_sameAt _
  | inboundError message => exact .refl _

/-- With no connection nothing is written. -/
theorem runEvent_file_of_closed (hdb : w.guarded.display.chatDb = none) (h : Handling)
    (e : Event) : (runEvent h w e).guarded.file = w.guarded.file := by
  cases e with
  | conversationStarted c cls =>
    show (recordConversationStartedLocked h.faults c _ _ w.guarded).file = _
    rcases recordConversationStartedLocked_cases h.faults c (kindForClass cls)
      (startedMetadata (kindForClass cls) (withClient w h.groupMetadata)) w.guarded with
      heq | ⟨s, e, -, heq⟩ | ⟨-, e, heq⟩
    · rw [heq]
    · rw [heq]
      rfl
    · rw [heq]
      rcases persistChat_cases h.faults c ((w.guarded.emit e).put (openedSession c _ _ _ _)) with
        ⟨e', hsave⟩ | ⟨s, -, hopen, -⟩
      · rw [hsave]
        rfl
      · have hclosed : (w.guarded.display.chatDb).isSome := hopen
        simp [hdb] at hclosed
  | messageReceived c content account installation =>
    show (recordMessageReceived h.faults c content account installation h.nowMs w.guarded).1.file
      = _
    rcases recordMessageReceived_cases h.faults c content account installation h.nowMs w.guarded
      with ⟨-, heq⟩ | ⟨-, r, rfl, heq⟩
    · rw [heq]
    · rw [heq, Guarded.file_emit]
      rcases recordMessage_cases h.faults (receivedMessage c content account installation h.nowMs)
        (receivingChangesChat c w.guarded) (w.guarded.put (receivingSession c account w.guarded))
        with ⟨-, hrec⟩ | ⟨-, hrec⟩ | ⟨s, -, hopen, -⟩
      · rw [hrec]
        rfl
      · rw [hrec]
        rfl
      · have hclosed : (w.guarded.display.chatDb).isSome := hopen
        simp [hdb] at hclosed
  | conversationMembersChanged c =>
    show (recordMembersChanged c w.guarded).file = _
    unfold recordMembersChanged
    split <;> rfl
  | inboundError message => rfl

/-- What an event raises is about conversations that are not deleted, its own or listed
ones; and one about a conversation that is not listed yet raises something. -/
theorem runEvent_raised (h : Handling) (w : World σ) (e : Event) :
    ∃ new, (runEvent h w e).guarded.raised = w.guarded.raised ++ new ∧
      (∀ p ∈ new, ∃ id, p.convoId = some id ∧ id ∉ w.guarded.deleted ∧
        (id ∈ e.opens ∨ (w.guarded.chats.get id).isSome)) ∧
      ∀ id ∈ e.opens, id ∉ w.guarded.deleted → w.guarded.chats.get id = none →
        ∃ p ∈ new, p.convoId = some id := by
  cases e with
  | conversationStarted c cls =>
    refine ⟨_, recordConversationStartedLocked_raised _ _ _ _ _, ?_, ?_⟩
    · intro p hp
      refine ⟨c, ?_⟩
      split at hp
      · cases hp
      · rename_i hdel
        refine ⟨?_, hdel, Or.inl (Finset.mem_singleton_self c)⟩
        split at hp
        · split at hp
          · rw [List.mem_singleton.mp hp]
            rfl
          · cases hp
        · rw [List.mem_singleton.mp hp]
          rfl
    · intro id hid hdel hget
      rw [Finset.mem_singleton.mp hid] at hdel hget ⊢
      rw [if_neg hdel, hget]
      exact ⟨_, List.mem_singleton_self _, rfl⟩
  | messageReceived c content account installation =>
    refine ⟨_, recordMessageReceived_raised _ _ _ _ _ _ _, ?_, ?_⟩
    · intro p hp
      refine ⟨c, ?_⟩
      split at hp
      · cases hp
      · rename_i hdel
        rw [List.mem_singleton.mp hp]
        exact ⟨rfl, hdel, Or.inl (Finset.mem_singleton_self c)⟩
    · intro id hid hdel _
      rw [Finset.mem_singleton.mp hid] at hdel ⊢
      rw [if_neg hdel]
      exact ⟨_, List.mem_singleton_self _, rfl⟩
  | conversationMembersChanged c =>
    have hnone : ∀ id ∈ (Event.conversationMembersChanged c).opens, False := by
      intro id hid
      cases hid
    by_cases hdrop : c ∈ w.guarded.deleted ∨ w.guarded.chats.contains c = false
    · refine ⟨[], ?_, by simp, fun id hid => (hnone id hid).elim⟩
      simp [runEvent, recordMembersChanged, hdrop]
    · refine ⟨[.membersChanged c], ?_, ?_, fun id hid => (hnone id hid).elim⟩
      · simp only [runEvent, recordMembersChanged]
        rw [if_neg hdrop]
        rfl
      · intro p hp
        rw [List.mem_singleton.mp hp]
        rw [not_or, Bool.not_eq_false] at hdrop
        exact ⟨c, rfl, hdrop.1, Or.inr hdrop.2⟩
  | inboundError message =>
    refine ⟨[], by simp [runEvent], by simp, ?_⟩
    intro id hid
    cases hid

end Events

end ChatModule.Inbound
