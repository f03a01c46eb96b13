import ChatModule.Lib.Machine
import ChatModule.Sections

/-!
# The module, one operation at a time

Every operation and every client event is run from beginning to end before the
next starts. What the outside answers and which `chat.db` statements fail is part
of the label.

The thread that consumes the client's events is spawned by an init and joined by
the shutdown that ends its session, so an event is enabled only while a session is
installed.
-/

namespace ChatModule

open Actions Persistence

/-- An API call or a client event, with what the outside answers. -/
inductive Op
  | init (config : ChatConfig) (env : Environment)
  | shutdown
  | setInstallationName (faults : Faults) (name : String)
  | createConversation (faults : Faults) (answer : Except ClientError String) (peerAddress : String)
  | createGroupConversation (faults : Faults) (answer : Except ClientError String)
      (name desc : String)
  | addGroupMember (answer : Except ClientError Unit) (convoId : String)
  | setConversationNickname (faults : Faults) (convoId nickname : String)
  | deleteConversation (faults : Faults) (convoId : String)
  | sendMessage (faults : Faults) (answer : Except ClientError Unit) (convoId content : String)
      (nowMs : UInt64)
  | conversationStarted (faults : Faults) (convoId : String) (kind : ConversationKind)
      (answer : Except ClientError GroupMetadata)
  | messageReceived (faults : Faults) (convoId : String) (content : List UInt8)
      (account installation : String) (nowMs : UInt64)
  | membersChanged (convoId : String)

namespace Op

/-- Whether the client's event stream brings it. -/
def isEvent : Op → Bool
  | conversationStarted .. | messageReceived .. | membersChanged .. => true
  | _ => false

/-- The `chat.db` statements that fail while it runs. -/
def faults : Op → Faults
  | setInstallationName faults .. | createConversation faults .. | createGroupConversation faults ..
  | setConversationNickname faults .. | deleteConversation faults .. | sendMessage faults ..
  | conversationStarted faults .. | messageReceived faults .. => faults
  | init .. | shutdown | addGroupMember .. | membersChanged .. => noFaults

/-- The id a create gets from the client. -/
def created : Op → Option String
  | createConversation _ answer _ | createGroupConversation _ answer _ _ => answer.toOption
  | _ => none

variable {σ : Type} [MessageStore σ]

/-- What it makes of the process. -/
def run : Op → World σ → World σ
  | init config env, w => (Actions.init config env w).world
  | shutdown, w => Actions.shutdown w
  | setInstallationName faults name, w =>
    (underDisplay w (Actions.setInstallationName faults name)).1
  | createConversation faults answer peerAddress, w =>
    (Actions.createConversation faults answer peerAddress w).1
  | createGroupConversation faults answer name desc, w =>
    (Actions.createGroupConversation faults answer name desc w).1
  | addGroupMember answer convoId, w => (Actions.addGroupMember answer convoId w).1
  | setConversationNickname faults convoId nickname, w =>
    (Actions.setConversationNickname faults convoId nickname w).1
  | deleteConversation faults convoId, w => (Actions.deleteConversation faults convoId w).1
  | sendMessage faults answer convoId content nowMs, w =>
    (Actions.sendMessage faults answer convoId content nowMs w).1
  | conversationStarted faults convoId kind answer, w =>
    recordConversationStarted faults convoId kind answer w
  | messageReceived faults convoId content account installation nowMs, w =>
    (underDisplay w (recordMessageReceived faults convoId content account installation nowMs)).1
  | membersChanged convoId, w => { w with guarded := recordMembersChanged convoId w.guarded }

end Op

/-- The sequential machine. -/
def sequential (σ : Type) [MessageStore σ] : Machine (World σ) Op where
  step w op := if op.isEvent && w.module.isNone then none else some (op.run w)

section Steps

variable {σ : Type} [MessageStore σ] {w w' : World σ} {op : Op}

theorem step_eq_run (h : (sequential σ).step w op = some w') : op.run w = w' := by
  unfold sequential at h
  simp only at h
  split at h
  · cases h
  · exact Option.some.inj h

/-- An event finds a session installed. -/
theorem installed_of_event (h : (sequential σ).step w op = some w') (he : op.isEvent = true) :
    w.module.isSome := by
  unfold sequential at h
  cases hm : w.module with
  | none => simp [he, hm] at h
  | some ms => rfl

end Steps

/-! ## From operations to sections -/

namespace Actions

variable {σ : Type} {α : Type} {w : World σ}

section Finish

variable (r : World σ × Except CoreError Unit) (e : PluginEvent) (a : α)

@[simp] theorem finish_display : (finish r e a).1.guarded.display = r.1.guarded.display := by
  unfold finish
  cases r.2 <;> rfl

@[simp] theorem finish_file : (finish r e a).1.guarded.file = r.1.guarded.file := by
  unfold finish
  cases r.2 <;> rfl

@[simp] theorem finish_module : (finish r e a).1.module = r.1.module := by
  unfold finish
  cases r.2 <;> rfl

variable {r e a} in
/-- An operation that returns Ok ended with a section that did. -/
theorem finish_ok {x : α}
    (h : (finish r e a).2 = .ok x) : r.2 = .ok () := by
  unfold finish at h
  cases hr : r.2 with
  | ok u => rfl
  | error err =>
    rw [hr] at h
    cases h

end Finish

/-- A call on the client gets through to it when a session is installed. -/
theorem withClient_ok_iff {answer : Except ClientError α} {a : α} :
    withClient w answer = .ok a ↔ w.module.isSome ∧ answer = .ok a := by
  unfold withClient
  cases w.module with
  | none => simp
  | some ms => simp [Except.mapError_eq_ok_iff]

theorem create_cases (session : String → ChatSession) (created : String → PluginEvent)
    (faults : Faults) (answer : Except ClientError String) (w : World σ) :
    (∃ e, create session created faults answer w = (w, .error e)) ∨
    ∃ chatId, answer = .ok chatId ∧ w.module.isSome ∧ create session created faults answer w =
      finish (underDisplay w (insertChat faults (session chatId))) (created chatId) chatId := by
  unfold create
  cases hc : withClient w answer with
  | error e => exact Or.inl ⟨e, rfl⟩
  | ok chatId =>
    obtain ⟨hm, ha⟩ := withClient_ok_iff.mp hc
    exact Or.inr ⟨chatId, ha, hm, rfl⟩

theorem checkLive_ok_iff {g : Guarded σ} {id : String} :
    checkLive id g = .ok () ↔ ∃ s, g.chats.get id = some s ∧ s.historyOnly = false := by
  unfold checkLive
  cases g.chats.get id with
  | none => simp
  | some s => cases h : s.historyOnly <;> simp [h]

theorem sendMessage_cases [MessageStore σ] (faults : Faults) (answer : Except ClientError Unit)
    (convoId content : String) (nowMs : UInt64) (w : World σ) :
    (∃ e, sendMessage faults answer convoId content nowMs w = (w, .error e)) ∨
    (checkLive convoId w.guarded = .ok () ∧ w.module.isSome ∧
      sendMessage faults answer convoId content nowMs w =
        finish (underDisplay w (sendMessageLocked faults convoId content nowMs))
          (.messageSent convoId content nowMs.toInt64) ()) := by
  unfold sendMessage
  cases hl : checkLive convoId w.guarded with
  | error e => exact Or.inl ⟨e, rfl⟩
  | ok u =>
    cases hc : withClient w answer with
    | error e => exact Or.inl ⟨e, rfl⟩
    | ok u' =>
      obtain ⟨hm, -⟩ := withClient_ok_iff.mp hc
      exact Or.inr ⟨rfl, hm, rfl⟩

/-- An invitation changes nothing that is shown or stored. -/
theorem addGroupMember_same (answer : Except ClientError Unit) (convoId : String) (w : World σ) :
    (addGroupMember answer convoId w).1.guarded.display = w.guarded.display ∧
      (addGroupMember answer convoId w).1.guarded.file = w.guarded.file ∧
      (addGroupMember answer convoId w).1.module = w.module := by
  unfold addGroupMember
  cases checkLive convoId w.guarded with
  | error e => exact ⟨rfl, rfl, rfl⟩
  | ok u => simp

end Actions

/-! ## While a session goes on -/

section Sessions

variable {σ : Type} [MessageStore σ] {w : World σ} {op : Op}

omit [MessageStore σ] in
/-- A create leaves the session and the connection as they are. -/
theorem create_session (session : String → ChatSession) (created : String → PluginEvent)
    (faults : Faults) (answer : Except ClientError String) (w : World σ) :
    (create session created faults answer w).1.module = w.module ∧
      (create session created faults answer w).1.guarded.display.chatDb =
        w.guarded.display.chatDb := by
  rcases create_cases session created faults answer w with ⟨e, heq⟩ | ⟨chatId, -, -, heq⟩
  · rw [heq]
    exact ⟨rfl, rfl⟩
  · rw [heq, finish_module, finish_display]
    exact ⟨rfl, by simp [underDisplay, insertChat]⟩

/-- Only an init opens a session, and only a shutdown closes one. -/
theorem run_session (hinit : ∀ config env, op ≠ .init config env) (hgo : op ≠ .shutdown) :
    (op.run w).module = w.module ∧
      (op.run w).guarded.display.chatDb = w.guarded.display.chatDb := by
  cases op with
  | init config env => exact absurd rfl (hinit config env)
  | shutdown => exact absurd rfl hgo
  | setInstallationName faults name => exact ⟨rfl, setInstallationName_chatDb _ _ _⟩
  | createConversation faults answer peerAddress => exact create_session _ _ _ _ _
  | createGroupConversation faults answer name desc => exact create_session _ _ _ _ _
  | addGroupMember answer convoId =>
    obtain ⟨hd, -, hm⟩ := addGroupMember_same answer convoId w
    exact ⟨hm, congrArg Display.chatDb hd⟩
  | setConversationNickname faults convoId nickname =>
    simp only [Op.run, setConversationNickname, finish_module, finish_display]
    exact ⟨rfl, setConversationNicknameLocked_chatDb _ _ _ _⟩
  | deleteConversation faults convoId =>
    simp only [Op.run, deleteConversation, finish_module, finish_display]
    exact ⟨rfl, deleteConversationLocked_chatDb _ _ _⟩
  | sendMessage faults answer convoId content nowMs =>
    rcases sendMessage_cases faults answer convoId content nowMs w with ⟨e, heq⟩ | ⟨-, -, heq⟩
    · simp [Op.run, heq]
    · simp only [Op.run, heq, finish_module, finish_display]
      exact ⟨rfl, recordMessage_chatDb _ _ _ _⟩
  | conversationStarted faults convoId kind answer =>
    exact ⟨rfl, recordConversationStartedLocked_chatDb _ _ _ _ _⟩
  | messageReceived faults convoId content account installation nowMs =>
    exact ⟨rfl, recordMessageReceived_chatDb _ _ _ _ _ _ _⟩
  | membersChanged convoId =>
    exact ⟨rfl, congrArg Display.chatDb (recordMembersChanged_display _ _)⟩

/-- A session that is up stays up until its shutdown. -/
theorem up_run (hm : w.module.isSome) (hdb : w.guarded.display.chatDb.isSome)
    (hgo : op ≠ .shutdown) :
    (op.run w).module.isSome ∧ (op.run w).guarded.display.chatDb.isSome := by
  by_cases hinit : ∃ config env, op = .init config env
  · obtain ⟨config, env, rfl⟩ := hinit
    rcases init_cases config env w with ⟨hnone, -⟩ | ⟨-, heq⟩ | ⟨hnone, -⟩
    · simp [hnone] at hm
    · have hopen := (claimDeliveryRetry_state w.guarded).2
      simp only [Op.run, heq]
      exact ⟨hm, by rw [hopen]; exact hdb⟩
    · simp [hnone] at hm
  · have hother : ∀ config env, op ≠ .init config env := by
      intro config env heq
      exact hinit ⟨config, env, heq⟩
    obtain ⟨hmod, hopen⟩ := run_session (w := w) hother hgo
    rw [hmod, hopen]
    exact ⟨hm, hdb⟩

end Sessions

end ChatModule
