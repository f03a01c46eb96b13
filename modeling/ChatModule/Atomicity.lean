import ChatModule.Restart

/-!
# Failed mutations

Five operations change the map and `chat.db` together. Two write the file first and
touch the map once it is written, so an error leaves everything as it was. Three put
a session in the map first: when the write of its row then fails, the error comes
with a change that is shown until the next restart. `atomic_iff` gives, for each of
them, exactly when an error means that nothing happened.
-/

namespace ChatModule

open Actions Persistence

variable {σ : Type}

/-! ## What is compared -/

/-- Everything the read methods report, the ids deleted and the file are as before. -/
structure Unchanged (g g' : Guarded σ) : Prop where
  conversations : listConversations g' = listConversations g
  messages : ∀ id, getMessages g' id = getMessages g id
  name : installationName g' = installationName g
  convoCount : (status g').convoCount = (status g).convoCount
  deleted : g'.deleted = g.deleted
  file : g'.file = g.file

section Unchanged

variable {g : Guarded σ} {s : ChatSession}

theorem Unchanged.refl (g : Guarded σ) : Unchanged g g :=
  ⟨rfl, fun _ => rfl, rfl, rfl, rfl, rfl⟩

/-- A count is of the conversations listed. -/
theorem convoCount_eq (g : Guarded σ) : (status g).convoCount = (listConversations g).card := by
  simp [status, listConversations, Keyed.size_eq_card_values]

/-- Putting a session in the map goes unnoticed exactly when the one it replaces is
reported alike. -/
theorem unchanged_put_iff : Unchanged g (g.put s) ↔
    ∃ s₀, g.chats.get s.chatId = some s₀ ∧ conversation s₀ = conversation s ∧
      s₀.messages.map message = s.messages.map message := by
  have hself : (g.put s).chats.get s.chatId = some s := Keyed.get_insert_self _ s
  constructor
  · intro h
    have hmem : conversation s ∈ listConversations (g.put s) :=
      mem_listConversations.mpr ⟨s, hself, rfl⟩
    rw [h.conversations] at hmem
    obtain ⟨s₀, hget, heq⟩ := mem_listConversations.mp hmem
    refine ⟨s₀, hget, heq, ?_⟩
    have hmsg := h.messages s.chatId
    simp only [getMessages, hself] at hmsg
    rw [show g.chats.get s.chatId = some s₀ from hget] at hmsg
    exact hmsg.symm
  · rintro ⟨s₀, hget, hconv, hmsg⟩
    have hlist : listConversations (g.put s) = listConversations g := by
      refine Keyed.map_values_eq (n := Conversation.convoId) (fun _ => rfl) (fun _ => rfl) ?_
      intro id
      rw [Guarded.chats_put, Keyed.get_insert]
      split
      · next hid => rw [hid, hget, Option.map_some, Option.map_some, hconv]
      · rfl
    refine ⟨hlist, ?_, rfl, ?_, rfl, rfl⟩
    · intro id
      unfold getMessages
      rw [Guarded.chats_put, Keyed.get_insert]
      by_cases hid : id = s.chatId
      · rw [if_pos hid, hid, hget]
        exact hmsg.symm
      · rw [if_neg hid]
    · rw [convoCount_eq, convoCount_eq, hlist]

end Unchanged

/-! ## The operations -/

/-- A local mutation, with libchat's answer and the failures of its write. -/
inductive Mutation
  | setInstallationName (faults : Faults) (name : String)
  | setConversationNickname (faults : Faults) (convoId nickname : String)
  | deleteConversation (faults : Faults) (convoId : String)
  | createConversation (faults : Faults) (answer : Except ClientError String) (peerAddress : String)
  | createGroupConversation (faults : Faults) (answer : Except ClientError String)
      (name desc : String)

namespace Mutation

/-- What it leaves and whether it succeeds. -/
def run [MessageStore σ] : Mutation → World σ → World σ × Except CoreError Unit
  | setInstallationName faults name, w => underDisplay w (Actions.setInstallationName faults name)
  | setConversationNickname faults convoId nickname, w =>
    Actions.setConversationNickname faults convoId nickname w
  | deleteConversation faults convoId, w => Actions.deleteConversation faults convoId w
  | createConversation faults answer peerAddress, w =>
    let (w, result) := Actions.createConversation faults answer peerAddress w
    (w, result.map fun _ => ())
  | createGroupConversation faults answer name desc, w =>
    let (w, result) := Actions.createGroupConversation faults answer name desc w
    (w, result.map fun _ => ())

/-- A session that is reported as one just opened. -/
structure LooksNew (s : ChatSession) (kind : ConversationKind) (name description : Option String) :
    Prop where
  nickname : s.nickname = none
  kind : s.kind = kind
  name : s.name = name
  description : s.description = description
  messages : s.messages = []
  olderMessages : s.olderMessages = 0
  historyOnly : s.historyOnly = false

/-- The write of the row does not fail, or nothing is put in the map before it, or what
is put there is reported as what it replaces. -/
def Safe : Mutation → World σ → Prop
  | setInstallationName .., _ | deleteConversation .., _ => True
  | setConversationNickname faults convoId nickname, w =>
    faults .saveChat = none ∨
      ∀ s, w.guarded.chats.get convoId = some s → s.nickname = nonEmpty nickname
  | createConversation faults answer _, w =>
    faults .saveChat = none ∨ ∀ chatId, answer = .ok chatId →
      ∃ s, w.guarded.chats.get chatId = some s ∧ LooksNew s .direct none none
  | createGroupConversation faults answer name desc, w =>
    faults .saveChat = none ∨ ∀ chatId, answer = .ok chatId →
      ∃ s, w.guarded.chats.get chatId = some s ∧ LooksNew s .group (nonEmpty name) (nonEmpty desc)

/-- An error means that nothing changed. -/
def Atomic [MessageStore σ] (mu : Mutation) (w : World σ) : Prop :=
  ∀ e, (mu.run w).2 = .error e → Unchanged w.guarded (mu.run w).1.guarded

end Mutation

/-! ## When they are atomic -/

section Atomic

variable {w : World σ} {faults : Faults} {s s₀ : ChatSession}

/-- Saving a session, over an open connection: an error is the failure of the write,
and leaves the session in the map. -/
theorem saved_atomic_iff (hdb : w.guarded.display.chatDb.isSome) {α : Type} (ev : PluginEvent)
    (a : α) :
    (∀ e, (finish (underDisplay w (insertChat faults s)) ev a).2 = .error e →
        Unchanged w.guarded (finish (underDisplay w (insertChat faults s)) ev a).1.guarded) ↔
      faults .saveChat = none ∨ Unchanged w.guarded (w.guarded.put s) := by
  rcases persistChat_put_cases faults s w.guarded with ⟨e, hcause, heq⟩ | ⟨-, hf, heq⟩
  · have hf : faults .saveChat ≠ none := by
      rcases hcause with hnone | hf
      · simp [hnone] at hdb
      · exact hf
    simp [finish, underDisplay, insertChat, heq, hf]
  · simp [finish, underDisplay, insertChat, heq, hf]

/-- What looks new is reported as what is opened. -/
theorem conversation_eq_opened_iff {id : String} {kind : ConversationKind}
    {name description peer : Option String} (hid : s₀.chatId = id) :
    (conversation s₀ = conversation (openedSession id kind name description peer) ∧
      s₀.messages.map message = []) ↔ Mutation.LooksNew s₀ kind name description := by
  constructor
  · rintro ⟨h, hm⟩
    have hmsgs : s₀.messages = [] := by simpa using hm
    simp only [conversation, openedSession, hmsgs, Conversation.mk.injEq] at h
    obtain ⟨-, hnick, hcount, -, hkind, hname, hdesc, -, hmark⟩ := h
    exact ⟨hnick, ConversationKind.asStr_injective hkind, hname, hdesc, hmsgs,
      by simpa using hcount, hmark⟩
  · rintro ⟨hnick, hkind, hname, hdesc, hmsgs, holder, hmark⟩
    simp [conversation, openedSession, hid, hnick, hkind, hname, hdesc, hmsgs, holder, hmark]

theorem unchanged_put_opened_iff {g : Guarded σ} {id : String} {kind : ConversationKind}
    {name description : Option String} (peer : Option String) :
    Unchanged g (g.put (openedSession id kind name description peer)) ↔
      ∃ s, g.chats.get id = some s ∧ Mutation.LooksNew s kind name description := by
  rw [unchanged_put_iff]
  refine exists_congr fun s => and_congr_right fun hget => ?_
  exact conversation_eq_opened_iff (Keyed.key_of_get hget)

/-- A session differs from itself under another nickname in the nickname. -/
theorem unchanged_put_nickname_iff {g : Guarded σ} {n : Option String}
    (hget : g.chats.get s.chatId = some s) :
    Unchanged g (g.put { s with nickname := n }) ↔ s.nickname = n := by
  rw [unchanged_put_iff]
  constructor
  · rintro ⟨s₀, hget₀, hconv, -⟩
    obtain rfl : s = s₀ := by simpa [hget] using hget₀
    exact congrArg Conversation.nickname hconv
  · rintro rfl
    exact ⟨s, hget, rfl, rfl⟩

theorem map_unit_eq_error_iff {ε α : Type} {r : Except ε α} {e : ε} :
    (r.map fun _ => ()) = .error e ↔ r = .error e := by
  cases r <;> simp [Except.map]

/-- A create whose client refuses does nothing; one that is given an id saves a
session under it. -/
theorem create_atomic_iff (hmod : w.module.isSome) (hdb : w.guarded.display.chatDb.isSome)
    {session : String → ChatSession} {created : String → PluginEvent} {kind : ConversationKind}
    {name description peer : Option String}
    (hsession : ∀ id, session id = openedSession id kind name description peer)
    (answer : Except ClientError String) :
    (∀ e, (create session created faults answer w).2 = .error e →
        Unchanged w.guarded (create session created faults answer w).1.guarded) ↔
      faults .saveChat = none ∨ ∀ chatId, answer = .ok chatId →
        ∃ s, w.guarded.chats.get chatId = some s ∧ Mutation.LooksNew s kind name description := by
  cases answer with
  | error e =>
    obtain ⟨ms, hms⟩ := Option.isSome_iff_exists.mp hmod
    simp [create, withClient, hms, Except.mapError, Unchanged.refl]
  | ok chatId =>
    have hclient : withClient w (.ok chatId) = .ok chatId := withClient_ok_iff.mpr ⟨hmod, rfl⟩
    simp only [create, hclient, hsession, Except.ok.injEq, forall_eq']
    rw [← unchanged_put_opened_iff peer]
    exact saved_atomic_iff (s := openedSession chatId kind name description peer) hdb _ _

theorem setConversationNickname_atomic_iff (hdb : w.guarded.display.chatDb.isSome)
    (id nickname : String) :
    (∀ e, (setConversationNickname faults id nickname w).2 = .error e →
        Unchanged w.guarded (setConversationNickname faults id nickname w).1.guarded) ↔
      faults .saveChat = none ∨
        ∀ s, w.guarded.chats.get id = some s → s.nickname = nonEmpty nickname := by
  cases hget : w.guarded.chats.get id with
  | none =>
    have heq : setConversationNickname faults id nickname w = (w, .error .notFound) := by
      simp [setConversationNickname, underDisplay, setConversationNicknameLocked, hget, finish]
    simp [heq, Unchanged.refl]
  | some s =>
    obtain rfl := Keyed.key_of_get hget
    have heq : underDisplay w (setConversationNicknameLocked faults s.chatId nickname) =
        underDisplay w (insertChat faults { s with nickname := nonEmpty nickname }) := by
      simp [underDisplay, setConversationNicknameLocked, insertChat, hget]
    simp only [setConversationNickname, heq, Option.some.injEq, forall_eq']
    rw [← unchanged_put_nickname_iff hget]
    exact saved_atomic_iff (s := { s with nickname := nonEmpty nickname }) hdb _ _

/-- Atomicity of the local mutations in an initialised state. -/
theorem atomic_iff [MessageStore σ] (hmod : w.module.isSome)
    (hdb : w.guarded.display.chatDb.isSome) (mu : Mutation) : mu.Atomic w ↔ mu.Safe w := by
  cases mu with
  | setInstallationName faults name =>
    refine iff_of_true ?_ trivial
    intro e he
    simp only [Mutation.run, underDisplay] at he ⊢
    rcases setInstallationName_cases faults name w.guarded with ⟨e', heq⟩ | ⟨-, heq⟩
    · rw [heq]
      exact .refl _
    · rw [heq] at he
      cases he
  | setConversationNickname faults convoId nickname =>
    exact setConversationNickname_atomic_iff hdb convoId nickname
  | deleteConversation faults convoId =>
    refine iff_of_true ?_ trivial
    intro e he
    simp only [Mutation.run, deleteConversation, underDisplay] at he ⊢
    rcases deleteConversationLocked_cases faults convoId w.guarded with ⟨e', heq⟩ | ⟨-, -, heq⟩
    · rw [heq]
      exact .refl _
    · rw [heq] at he
      cases he
  | createConversation faults answer peerAddress =>
    simp only [Mutation.Atomic, Mutation.run, map_unit_eq_error_iff]
    exact create_atomic_iff hmod hdb (fun _ => rfl) answer
  | createGroupConversation faults answer name desc =>
    simp only [Mutation.Atomic, Mutation.run, map_unit_eq_error_iff]
    exact create_atomic_iff hmod hdb (fun _ => rfl) answer

end Atomic

section Runs

theorem atomic_iff_delete_uncommitted :
    (Mutation.deleteConversation (fun stmt => if stmt = .commit then some "disk full" else none)
      "c1").Atomic exchanged :=
  (atomic_iff rfl rfl _).mpr trivial

/-- A nickname and a conversation whose rows cannot be written are shown, and their
operations return an error. -/
theorem failed_mutations_shown :
    exchanged.module.isSome ∧ exchanged.guarded.display.chatDb.isSome ∧
      ¬ (Mutation.setConversationNickname saveChatFails "c1" "bob").Atomic exchanged ∧
      ¬ (Mutation.createConversation saveChatFails (.ok "c2") "peer").Atomic exchanged := by
  refine ⟨rfl, rfl, ?_, ?_⟩
  · intro h
    have hsame := (h (.store "disk full") rfl).conversations
    revert hsame
    decide
  · intro h
    have hsame := (h (.store "disk full") rfl).conversations
    revert hsame
    decide

end Runs

end ChatModule
