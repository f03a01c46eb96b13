import ChatModule.Sequential
import ChatModule.Shown

/-!
# What a consumer can hold from the events alone

A consumer that reads `list_conversations` and `get_messages` once, after init, and from
then on only hears the plugin events. A send that fails at its write shows its message
all the same and raises nothing, so the consumer misses it; had it been told of those
sends (`Followed.full`), it would hold what is shown, as long as no create fails at its
write and no message opens its conversation (`Told`).
-/

namespace ChatModule

open Actions Persistence

/-! ## The consumer -/

/-- What a consumer holds: the conversations it knows, with their messages. -/
abbrev Held := String → Option (List Message)

namespace Held

/-- Append a message to a conversation it knows. -/
def append (h : Held) (convoId : String) (m : Message) : Held :=
  Function.update h convoId ((h convoId).map (· ++ [m]))

/-- What it makes of an event. -/
def hear (h : Held) : PluginEvent → Held
  | .conversationCreated convoId .. => Function.update h convoId (some [])
  | .conversationDeleted convoId => Function.update h convoId none
  | .messageSent convoId content timestampMs =>
    h.append convoId ⟨true, content, timestampMs, none⟩
  | .messageReceived convoId content timestampMs sender =>
    h.append convoId ⟨false, content, timestampMs, some sender⟩
  | _ => h

/-- What it makes of the events it hears, in the order they were raised. -/
def hearAll (h : Held) (es : List PluginEvent) : Held := es.foldl hear h

end Held

variable {σ : Type}

/-- What `list_conversations` and `get_messages` let a consumer hold. -/
def held (g : Guarded σ) : Held := fun id =>
  (g.chats.get id).map fun s => s.messages.map message

/-- It holds the conversations that are listed, each with the messages that are shown. -/
def Agrees (h : Held) (g : Guarded σ) : Prop :=
  (∀ id, (h id).isSome ↔ ∃ c ∈ listConversations g, c.convoId = id) ∧
    ∀ id msgs, h id = some msgs → msgs = getMessages g id

section Held

variable {g g' : Guarded σ} {h : Held} {s : ChatSession} {id : String}

theorem held_isSome_iff : (held g id).isSome ↔ ∃ c ∈ listConversations g, c.convoId = id := by
  unfold held
  rw [Option.isSome_map, Option.isSome_iff_exists]
  constructor
  · rintro ⟨s, hget⟩
    have hid := Keyed.key_of_get hget
    exact ⟨conversation s, mem_listConversations.mpr ⟨s, Keyed.get_key hget, rfl⟩, hid⟩
  · rintro ⟨c, hc, rfl⟩
    obtain ⟨s, hget, -⟩ := mem_listConversations.mp hc
    exact ⟨s, hget⟩

theorem eq_getMessages_of_held {msgs : List Message} (hheld : held g id = some msgs) :
    msgs = getMessages g id := by
  obtain ⟨s, hget, rfl⟩ := Option.map_eq_some_iff.mp hheld
  rw [getMessages_eq_shown, shown_of_get hget]

/-- To agree is to hold just that. -/
theorem agrees_iff : Agrees h g ↔ h = held g := by
  constructor
  · rintro ⟨hids, hmsgs⟩
    funext id
    have hsome := (hids id).trans held_isSome_iff.symm
    cases hh : h id with
    | none =>
      cases hheld : held g id with
      | none => rfl
      | some msgs => simp [hh, hheld] at hsome
    | some msgs =>
      cases hheld : held g id with
      | none => simp [hh, hheld] at hsome
      | some msgs' => rw [hmsgs id msgs hh, eq_getMessages_of_held hheld]
  · rintro rfl
    exact ⟨fun id => held_isSome_iff, fun id msgs => eq_getMessages_of_held⟩

theorem held_of_display (hd : g'.display = g.display) : held g' = held g := by
  unfold held Guarded.chats
  rw [hd]

theorem held_put (g : Guarded σ) (s : ChatSession) :
    held (g.put s) = Function.update (held g) s.chatId (some (s.messages.map message)) := by
  funext id
  unfold held
  rw [Guarded.chats_put, Keyed.get_insert, Function.update_apply]
  split <;> rfl

/-- A session put in place of one with the same messages. -/
theorem held_replace {s' : ChatSession} (hget : g.chats.get id = some s)
    (hid : s'.chatId = s.chatId) (hmsgs : s'.messages = s.messages) : held (g.put s') = held g := by
  obtain rfl := Keyed.key_of_get hget
  have hheld : held g s.chatId = some (s.messages.map message) := by
    unfold held
    rw [hget]
    rfl
  rw [held_put, hid, hmsgs, ← hheld, Function.update_eq_self]

/-- A message pushed to the messages of a session. -/
theorem held_push (hget : g.chats.get id = some s) (m : StoredMessage) :
    held (g.put (pushMessage s m)) = (held g).append id (message (displayMessage m)) := by
  obtain rfl := Keyed.key_of_get hget
  have hheld : held g s.chatId = some (s.messages.map message) := by
    unfold held
    rw [hget]
    rfl
  rw [held_put, Held.append, hheld]
  simp [pushMessage]

theorem held_forget (g : Guarded σ) (id : String) :
    held (g.forget id) = Function.update (held g) id none := by
  funext id'
  unfold held
  rw [Guarded.chats_forget, Keyed.get_remove, Function.update_apply]
  split <;> rfl

end Held

/-! ## Holding a part -/

/-- `h` holds the conversations that `h'` holds, and of each some of the messages. -/
def Held.Part (h h' : Held) : Prop := ∀ id, Option.Rel List.Sublist (h id) (h' id)

namespace Held.Part

variable {h h' : Held}

theorem refl (h : Held) : h.Part h := by
  intro id
  cases h id with
  | none => exact .none
  | some msgs => exact .some (List.Sublist.refl msgs)

theorem isSome_iff (hp : h.Part h') (id : String) : (h id).isSome ↔ (h' id).isSome := by
  have hrel := hp id
  revert hrel
  generalize h id = x
  generalize h' id = y
  rintro (hsub | -)
  · simp
  · simp

theorem update (hp : h.Part h') (id : String) {x y : Option (List Message)}
    (hxy : Option.Rel List.Sublist x y) :
    Held.Part (Function.update h id x) (Function.update h' id y) := by
  intro id'
  rw [Function.update_apply, Function.update_apply]
  split
  · exact hxy
  · exact hp id'

/-- Hearing the same event keeps it. -/
theorem hear (hp : h.Part h') (e : PluginEvent) : (h.hear e).Part (h'.hear e) := by
  have happend : ∀ id m, (h.append id m).Part (h'.append id m) := by
    intro id m
    refine hp.update id ?_
    have hrel := hp id
    revert hrel
    generalize h id = x
    generalize h' id = y
    rintro (hsub | -)
    · exact .some (hsub.append_right [m])
    · exact .none
  cases e with
  | messageReceived convoId content timestampMs sender => exact happend _ _
  | messageSent convoId content timestampMs => exact happend _ _
  | conversationCreated convoId isOutgoing peerLabel kind name desc =>
    exact hp.update convoId (.some (List.Sublist.refl []))
  | conversationDeleted convoId => exact hp.update convoId .none
  | conversationUpdated convoId => exact hp
  | membersChanged convoId => exact hp
  | deliveryStateChanged deliveryState detail adopted => exact hp

theorem hearAll (hp : h.Part h') (es : List PluginEvent) : (h.hearAll es).Part (h'.hearAll es) := by
  induction es generalizing h h' with
  | nil => exact hp
  | cons e es ih => exact ih (hp.hear e)

/-- So does a message that only the other hears of. -/
theorem append_right (hp : h.Part h') (id : String) (m : Message) : h.Part (h'.append id m) := by
  intro id'
  rw [Held.append, Function.update_apply]
  split
  · next heq =>
    subst heq
    have hrel := hp id'
    revert hrel
    generalize h id' = x
    generalize h' id' = y
    rintro (hsub | -)
    · exact .some (hsub.trans (List.sublist_append_left _ _))
    · exact .none
  · exact hp id'

end Held.Part

/-! ## What is raised -/

section Raised

theorem finish_raised {α : Type} (r : World σ × Except CoreError Unit) (e : PluginEvent) (a : α) :
    (finish r e a).1.guarded.raised =
      r.1.guarded.raised ++ if r.2 = .ok () then [e] else [] := by
  unfold finish
  cases hr : r.2 with
  | ok u => simp [raise]
  | error err => simp

/-- An init in a session that is up raises the delivery state, at most. -/
theorem claimDeliveryRetry_raised (g : Guarded σ) :
    ∃ es, (claimDeliveryRetry g).1.raised = g.raised ++ es ∧ ∀ h : Held, h.hearAll es = h := by
  unfold claimDeliveryRetry setDeliveryState
  simp only
  split
  · exact ⟨[], by simp, fun h => rfl⟩
  · split
    · exact ⟨[], by simp, fun h => rfl⟩
    · exact ⟨[_], rfl, fun h => rfl⟩

end Raised

/-! ## Following a step -/

/-- The events raised between two states of the process. -/
def since (w w' : World σ) : List PluginEvent :=
  w'.guarded.raised.drop w.guarded.raised.length

theorem since_eq {w w' : World σ} (es : List PluginEvent)
    (h : w'.guarded.raised = w.guarded.raised ++ es) : since w w' = es := by
  rw [since, h, List.drop_left]

/-- What the events do not say of an operation: the message of a send that fails at its
write. -/
def unannounced [MessageStore σ] (w : World σ) : Op → List PluginEvent
  | .sendMessage faults answer convoId content nowMs =>
    match (sendMessage faults answer convoId content nowMs w).2 with
    | .error (.store _) => [.messageSent convoId content nowMs.toInt64]
    | _ => []
  | _ => []

/-- A session goes on; a create writes its row, and a message received is for a
conversation that is listed, or deleted. -/
def Told (w : World σ) : Op → Prop
  | .shutdown => False
  | .createConversation faults answer _ | .createGroupConversation faults answer _ _ =>
    ∀ id, answer = .ok id → faults .saveChat = none
  | .messageReceived _ convoId .. =>
    (w.guarded.chats.get convoId).isSome ∨ convoId ∈ w.guarded.deleted
  | _ => True

section Step

variable [MessageStore σ] {w w' : World σ} {faults : Faults} {id : String}

omit [MessageStore σ] in
theorem create_told {session : String → ChatSession} {created : String → PluginEvent}
    (hid : ∀ id, (session id).chatId = id) (hmsgs : ∀ id, (session id).messages = [])
    (hcreated : ∀ (h : Held) id, h.hear (created id) = Function.update h id (some []))
    (hdb : w.guarded.display.chatDb.isSome) {answer : Except ClientError String}
    (hwrites : ∀ id, answer = .ok id → faults .saveChat = none)
    (hrun : w' = (create session created faults answer w).1) :
    (held w.guarded).hearAll (since w w') = held w'.guarded := by
  subst hrun
  rcases create_cases session created faults answer w with ⟨e, heq⟩ | ⟨id, hid', -, heq⟩
  · rw [heq, since_eq [] (by simp)]
    rfl
  · have hput : (underDisplay w (insertChat faults (session id))).1.guarded.display =
        (w.guarded.put (session id)).display := insertChat_display _ _ _
    have hresult : (underDisplay w (insertChat faults (session id))).2 = .ok () := by
      rcases persistChat_put_cases faults (session id) w.guarded with
        ⟨e, hnone | hfail, -⟩ | ⟨-, -, heq⟩
      · simp [hnone] at hdb
      · exact absurd (hwrites id hid') hfail
      · simp [underDisplay, insertChat, heq]
    have hraised := finish_raised (underDisplay w (insertChat faults (session id))) (created id) id
    have hbefore : (underDisplay w (insertChat faults (session id))).1.guarded.raised =
        w.guarded.raised := persistChat_raised _ _ _
    rw [hbefore, if_pos hresult] at hraised
    rw [heq, since_eq _ hraised, held_of_display (finish_display _ _ _), held_of_display hput,
      held_put, hid, hmsgs]
    exact hcreated _ id

/-- A send into a conversation that is there shows its message and succeeds, or shows it
and fails at the write. -/
theorem sendMessageLocked_shows {g : Guarded σ} {s : ChatSession} (hdb : g.display.chatDb.isSome)
    (hget : g.chats.get id = some s) (faults : Faults) (content : String) (t : UInt64) :
    held (sendMessageLocked faults id content t g).1 =
        (held g).append id ⟨true, content, t.toInt64, none⟩ ∧
      ((sendMessageLocked faults id content t g).2 = .ok () ∨
        ∃ e, (sendMessageLocked faults id content t g).2 = .error (.store e)) := by
  constructor
  · have hd := recordMessage_display hdb faults
      (chatMessage id .sent t (Utf8.asBytes content)) false
    rw [chatId_chatMessage, hget] at hd
    unfold sendMessageLocked
    rw [held_of_display hd, held_push hget, displayMessage_chatMessage]
    rfl
  · unfold sendMessageLocked
    rcases recordMessage_cases faults (chatMessage id .sent t (Utf8.asBytes content)) false g with
      ⟨-, heq⟩ | ⟨hnone, -⟩ | ⟨s', -, -, ⟨e, heq⟩ | heq⟩
    · exact Or.inl (by rw [heq])
    · simp [hnone] at hdb
    · exact Or.inr ⟨e, by rw [heq]⟩
    · exact Or.inl (by rw [heq])

/-- The events and what they leave out tell of a send. -/
theorem sendMessage_told (hm : w.module.isSome) (hdb : w.guarded.display.chatDb.isSome)
    (answer : Except ClientError Unit) (content : String) (t : UInt64)
    (hrun : w' = (sendMessage faults answer id content t w).1) :
    (held w.guarded).hearAll
      (since w w' ++ unannounced w (.sendMessage faults answer id content t)) =
        held w'.guarded := by
  obtain ⟨ms, hms⟩ := Option.isSome_iff_exists.mp hm
  subst hrun
  cases hlive : checkLive id w.guarded with
  | error e =>
    have heq : sendMessage faults answer id content t w = (w, .error e) := by
      simp [sendMessage, hlive]
    have hno : ∀ err, e ≠ .store err := by
      rintro err rfl
      unfold checkLive at hlive
      split at hlive <;> cases hlive
    have hnil : unannounced w (.sendMessage faults answer id content t) = [] := by
      unfold unannounced
      simp only [heq]
      split
      · next err herr => exact absurd (Except.error.inj herr) (hno err)
      · rfl
    rw [hnil, heq, since_eq [] (by simp)]
    rfl
  | ok u =>
    cases answer with
    | error e =>
      have heq : sendMessage faults (.error e) id content t w = (w, .error (.client e)) := by
        simp [sendMessage, hlive, withClient, hms, Except.mapError]
      have hnil : unannounced w (.sendMessage faults (.error e) id content t) = [] := by
        unfold unannounced
        simp only [heq]
      rw [hnil, heq, since_eq [] (by simp)]
      rfl
    | ok u' =>
      obtain ⟨s, hget, -⟩ := checkLive_ok_iff.mp hlive
      have heq : sendMessage faults (.ok ()) id content t w =
          finish (underDisplay w (sendMessageLocked faults id content t))
            (.messageSent id content t.toInt64) () := by
        simp [sendMessage, hlive, withClient, hms, Except.mapError]
      obtain ⟨hheld, hresult⟩ := sendMessageLocked_shows hdb hget faults content t
      have hraised := finish_raised (underDisplay w (sendMessageLocked faults id content t))
        (.messageSent id content t.toInt64) ()
      have hbefore : (underDisplay w (sendMessageLocked faults id content t)).1.guarded.raised =
          w.guarded.raised := recordMessage_raised _ _ _ _
      rw [hbefore] at hraised
      have hafter : held (sendMessage faults (.ok ()) id content t w).1.guarded =
          (held w.guarded).append id ⟨true, content, t.toInt64, none⟩ := by
        rw [heq, held_of_display (finish_display _ _ _)]
        exact hheld
      rw [hafter]
      -- the message is announced, or it is what the events leave out
      rcases hresult with hok | ⟨e, herr⟩
      · have hnil : unannounced w (.sendMessage faults (.ok ()) id content t) = [] := by
          unfold unannounced
          simp [heq, finish, underDisplay, hok]
        rw [if_pos (by exact hok)] at hraised
        rw [hnil, heq, since_eq _ hraised]
        rfl
      · have hone : unannounced w (.sendMessage faults (.ok ()) id content t) =
            [.messageSent id content t.toInt64] := by
          unfold unannounced
          simp [heq, finish, underDisplay, herr]
        rw [if_neg (by simp [underDisplay, herr])] at hraised
        rw [hone, heq, since_eq _ hraised]
        rfl

/-- A message received is told of when its conversation is known, or deleted. -/
theorem messageReceived_told (hdb : w.guarded.display.chatDb.isSome)
    (hknown : (w.guarded.chats.get id).isSome ∨ id ∈ w.guarded.deleted)
    (content : List UInt8) (account installation : String) (t : UInt64)
    (hrun : w' = (underDisplay w
      (recordMessageReceived faults id content account installation t)).1) :
    (held w.guarded).hearAll (since w w') = held w'.guarded := by
  subst hrun
  have hraised := recordMessageReceived_raised faults id content account installation t w.guarded
  have hd := recordMessageReceived_display hdb faults id content account installation t
  rw [since_eq _ (by exact hraised)]
  change _ = held (recordMessageReceived faults id content account installation t w.guarded).1
  by_cases hdel : id ∈ w.guarded.deleted
  · rw [if_pos hdel] at hd ⊢
    rw [held_of_display hd]
    rfl
  · rw [if_neg hdel] at hd ⊢
    rw [held_of_display hd, held_put, chatId_pushMessage, chatId_receivingSession]
    have hsome : (w.guarded.chats.get id).isSome := by simpa [hdel] using hknown
    obtain ⟨s, hget⟩ := Option.isSome_iff_exists.mp hsome
    have hshown := receivingSession_shown id account w.guarded
    rw [shown_of_get hget] at hshown
    have hheld : held w.guarded id = some (s.messages.map message) := by
      unfold held
      rw [hget]
      rfl
    simp [Held.hearAll, Held.hear, Held.append, hheld, pushMessage, (Prod.mk.inj hshown).1,
      message, receivedEntry]

theorem addGroupMember_told (answer : Except ClientError Unit) (convoId : String) :
    (held w.guarded).hearAll (since w ((Op.addGroupMember answer convoId).run w)) =
      held ((Op.addGroupMember answer convoId).run w).guarded := by
  have hd := (addGroupMember_same answer convoId w).1
  rw [show (Op.addGroupMember answer convoId).run w = (addGroupMember answer convoId w).1
    from rfl, held_of_display hd]
  unfold addGroupMember
  cases checkLive convoId w.guarded with
  | error e =>
    rw [since_eq [] (by simp)]
    rfl
  | ok u =>
    have hraised := finish_raised (w, withClient w answer) (.conversationUpdated convoId) ()
    rw [since_eq _ hraised]
    split <;> rfl

theorem setConversationNickname_told (convoId nickname : String) :
    (held w.guarded).hearAll
        (since w ((Op.setConversationNickname faults convoId nickname).run w)) =
      held ((Op.setConversationNickname faults convoId nickname).run w).guarded := by
  have hraised := finish_raised
    (underDisplay w (setConversationNicknameLocked faults convoId nickname))
    (.conversationUpdated convoId) ()
  have hbefore : (underDisplay w
      (setConversationNicknameLocked faults convoId nickname)).1.guarded.raised =
        w.guarded.raised := setConversationNicknameLocked_raised _ _ _ _
  have hd : (underDisplay w
      (setConversationNicknameLocked faults convoId nickname)).1.guarded.display = _ :=
    setConversationNicknameLocked_display faults convoId nickname w.guarded
  have hheld : held (setConversationNickname faults convoId nickname w).1.guarded =
      held w.guarded := by
    rw [setConversationNickname, held_of_display (finish_display _ _ _)]
    cases hget : w.guarded.chats.get convoId with
    | none =>
      rw [hget] at hd
      exact held_of_display hd
    | some s =>
      rw [hget] at hd
      rw [held_of_display hd]
      exact held_replace hget rfl rfl
  rw [hbefore] at hraised
  rw [show (Op.setConversationNickname faults convoId nickname).run w =
    (setConversationNickname faults convoId nickname w).1 from rfl, hheld]
  rw [since_eq _ (by exact hraised)]
  split <;> rfl

theorem deleteConversation_told (convoId : String) :
    (held w.guarded).hearAll (since w ((Op.deleteConversation faults convoId).run w)) =
      held ((Op.deleteConversation faults convoId).run w).guarded := by
  have hraised := finish_raised (underDisplay w (deleteConversationLocked faults convoId))
    (.conversationDeleted convoId) ()
  have hbefore : (underDisplay w (deleteConversationLocked faults convoId)).1.guarded.raised =
      w.guarded.raised := deleteConversationLocked_raised _ _ _
  rw [hbefore] at hraised
  change (held w.guarded).hearAll (since w (deleteConversation faults convoId w).1) =
    held (deleteConversation faults convoId w).1.guarded
  rw [since_eq _ (by exact hraised), deleteConversation, held_of_display (finish_display _ _ _)]
  rcases deleteConversationLocked_display faults convoId w.guarded with
    ⟨⟨e, herr⟩, hsame⟩ | ⟨hok, -, hd⟩
  · rw [if_neg (by simp [underDisplay, herr])]
    simp [underDisplay, hsame, Held.hearAll]
  · have hforgot : (underDisplay w (deleteConversationLocked faults convoId)).1.guarded.display =
        (w.guarded.forget convoId).display := hd
    rw [if_pos (by exact hok), held_of_display hforgot, held_forget]
    rfl

/-- A conversation that is deleted or listed is not announced again. -/
theorem conversationStarted_told (convoId : String) (kind : ConversationKind)
    (answer : Except ClientError GroupMetadata) :
    (held w.guarded).hearAll
        (since w ((Op.conversationStarted faults convoId kind answer).run w)) =
      held ((Op.conversationStarted faults convoId kind answer).run w).guarded := by
  have hraised := recordConversationStartedLocked_raised faults convoId kind
    (startedMetadata kind (withClient w answer)) w.guarded
  have hd := recordConversationStartedLocked_display faults convoId kind
    (startedMetadata kind (withClient w answer)) w.guarded
  change (held w.guarded).hearAll (since w (recordConversationStarted faults convoId kind answer
    w)) = held (recordConversationStartedLocked faults convoId kind _ w.guarded)
  rw [since_eq _ (by exact hraised)]
  by_cases hdel : convoId ∈ w.guarded.deleted
  · rw [if_pos hdel] at hd ⊢
    rw [held_of_display hd]
    rfl
  · rw [if_neg hdel] at hd ⊢
    cases hget : w.guarded.chats.get convoId with
    | some s =>
      rw [hget] at hd
      rw [held_of_display hd]
      have hsame : held (w.guarded.put { s with historyOnly := false }) = held w.guarded :=
        held_replace hget rfl rfl
      rw [hsame]
      simp only
      split <;> rfl
    | none =>
      rw [hget] at hd
      rw [held_of_display hd, held_put]
      rfl

/-- The events of a step and what they leave out make of what was held what is held. -/
theorem step_told {op : Op} (hm : w.module.isSome) (hdb : w.guarded.display.chatDb.isSome)
    (htold : Told w op) :
    (held w.guarded).hearAll (since w (op.run w) ++ unannounced w op) =
      held (op.run w).guarded := by
  -- only a send leaves anything out
  have hall : unannounced w op = [] →
      (held w.guarded).hearAll (since w (op.run w)) = held (op.run w).guarded →
      (held w.guarded).hearAll (since w (op.run w) ++ unannounced w op) =
        held (op.run w).guarded := by
    intro hnil h
    rwa [hnil, List.append_nil]
  cases op with
  | init config env =>
    refine hall rfl ?_
    rcases init_cases config env w with ⟨hnone, -⟩ | ⟨-, heq⟩ | ⟨hnone, -⟩
    · simp [hnone] at hm
    · obtain ⟨es, hraised, hes⟩ := claimDeliveryRetry_raised w.guarded
      have hstate := (claimDeliveryRetry_state w.guarded).1
      simp only [Op.run, heq]
      rw [since_eq es hraised, hes]
      unfold held Guarded.chats
      rw [hstate]
    · simp [hnone] at hm
  | shutdown => exact absurd htold id
  | setInstallationName faults name =>
    refine hall rfl ?_
    have hraised := setInstallationName_raised faults name w.guarded
    rw [since_eq [] (by simpa [Op.run, underDisplay] using hraised)]
    rcases setInstallationName_cases faults name w.guarded with ⟨e, heq⟩ | ⟨-, heq⟩
    · simp [Op.run, underDisplay, heq, Held.hearAll]
    · simp only [Op.run, underDisplay, heq]
      rfl
  | createConversation faults answer peerAddress =>
    exact hall rfl (create_told (fun _ => rfl) (fun _ => rfl) (fun _ _ => rfl) hdb htold rfl)
  | createGroupConversation faults answer name desc =>
    exact hall rfl (create_told (fun _ => rfl) (fun _ => rfl) (fun _ _ => rfl) hdb htold rfl)
  | addGroupMember answer convoId =>
    exact hall rfl (addGroupMember_told _ _)
  | setConversationNickname faults convoId nickname =>
    exact hall rfl (setConversationNickname_told _ _)
  | deleteConversation faults convoId =>
    exact hall rfl (deleteConversation_told _)
  | sendMessage faults answer convoId content nowMs =>
    exact sendMessage_told hm hdb answer content nowMs rfl
  | conversationStarted faults convoId kind answer =>
    exact hall rfl (conversationStarted_told _ _ _)
  | messageReceived faults convoId content account installation nowMs =>
    exact hall rfl (messageReceived_told hdb htold content account installation nowMs rfl)
  | membersChanged convoId =>
    refine hall rfl ?_
    change (held w.guarded).hearAll (since w { w with guarded := _ }) =
      held (recordMembersChanged convoId w.guarded)
    unfold recordMembersChanged
    split
    · rw [since_eq [] (by simp)]
      rfl
    · rw [since_eq [.membersChanged convoId] rfl]
      rfl

end Step

/-! ## Following a run -/

/-- The process, a consumer that hears its events, and what that consumer would hold
(`full`) had it been told of what the events leave out as well. -/
structure Followed (σ : Type) where
  world : World σ
  held : Held
  full : Held

/-- The consumer as it starts. -/
def Followed.start (w : World σ) : Followed σ :=
  ⟨w, ChatModule.held w.guarded, ChatModule.held w.guarded⟩

variable [MessageStore σ]

/-- The sequential machine with a consumer. -/
def followed (σ : Type) [MessageStore σ] : Machine (Followed σ) Op where
  step f op := ((sequential σ).step f.world op).map fun w => {
    world := w
    held := f.held.hearAll (since f.world w)
    full := f.full.hearAll (since f.world w ++ unannounced f.world op) }

section Runs

variable {f f' : Followed σ} {w w₀ : World σ} {op : Op} {ops : List Op}

/-- A session is up, and the consumer would hold what it shows; what it does hold is a
part of that, and all of it while nothing was left out. -/
structure Abreast (missed : List PluginEvent) (f : Followed σ) : Prop where
  installed : f.world.module.isSome
  connected : f.world.guarded.display.chatDb.isSome
  full : f.full = held f.world.guarded
  part : f.held.Part f.full
  all : missed = [] → f.held = f.full

theorem followed_step (h : (followed σ).step f op = some f') :
    f' = {
      world := op.run f.world
      held := f.held.hearAll (since f.world (op.run f.world))
      full := f.full.hearAll (since f.world (op.run f.world) ++ unannounced f.world op) } := by
  obtain ⟨w, hw, rfl⟩ := Option.map_eq_some_iff.mp h
  rw [step_eq_run hw]

/-- What a step leaves out is one message at most. -/
theorem Held.Part.unannounced {h h' : Held} (hp : h.Part h') (w : World σ) (op : Op) :
    h.Part (h'.hearAll (unannounced w op)) := by
  unfold ChatModule.unannounced
  cases op with
  | sendMessage faults answer convoId content nowMs =>
    simp only
    split
    · exact hp.append_right _ _
    · exact hp
  | _ => exact hp

theorem abreast_step {missed : List PluginEvent} (htold : Told f.world op)
    (hstep : (followed σ).step f op = some f') (h : Abreast missed f) :
    Abreast (missed ++ unannounced f.world op) f' := by
  have hgo : op ≠ .shutdown := by
    rintro rfl
    exact htold
  obtain rfl := followed_step hstep
  obtain ⟨hm, hdb⟩ := up_run h.installed h.connected hgo
  have hfull := step_told h.installed h.connected htold
  have hsplit : f.full.hearAll (since f.world (op.run f.world) ++ unannounced f.world op) =
      (f.full.hearAll (since f.world (op.run f.world))).hearAll (unannounced f.world op) :=
    List.foldl_append
  refine ⟨hm, hdb, ?_, ?_, ?_⟩
  · rw [h.full]
    exact hfull
  · rw [hsplit]
    exact (h.part.hearAll _).unannounced _ _
  · intro hnil
    obtain ⟨hmissed, hnone⟩ := List.append_eq_nil_iff.mp hnil
    rw [hsplit, hnone, h.all hmissed]
    rfl

/-- From init on, while no create fails at its write and no message opens its
conversation, a consumer that hears every event holds the conversations that are listed,
and of each the messages that are shown, less those of the sends that failed at their
write: told of these as well it would hold just what is shown. -/
theorem events_follow_store {config : ChatConfig} {env : Environment} (hm : w.module = none)
    (hinit : (sequential σ).step w (.init config env) = some w₀) (hm₀ : w₀.module.isSome)
    (hrun : (followed σ).Run (fun f op => Told f.world op) (.start w₀) ops f) :
    Agrees f.full f.world.guarded ∧
      (∀ id, (f.held id).isSome ↔ ∃ c ∈ listConversations f.world.guarded, c.convoId = id) ∧
      (∀ id msgs, f.held id = some msgs → msgs.Sublist (getMessages f.world.guarded id)) ∧
      ((followed σ).output (fun f op => unannounced f.world op) (.start w₀) ops = [] →
        Agrees f.held f.world.guarded) := by
  have hopen : w₀.guarded.display.chatDb.isSome := by
    obtain rfl := step_eq_run hinit
    rcases init_cases config env w with ⟨-, g, ms, hok, heq⟩ | ⟨hsome, -⟩ | ⟨-, e, -, heq⟩
    · obtain ⟨live, state, -, -, rfl⟩ := initializeModule_ok_iff.mp hok
      simp only [Op.run, heq]
      rfl
    · simp [hm] at hsome
    · simp [Op.run, heq, hm] at hm₀
  have h : Abreast
      ((followed σ).output (fun f op => unannounced f.world op) (.start w₀) ops) f := by
    refine hrun.accumulates (I := Abreast) ?_ ⟨hm₀, hopen, rfl, .refl _, fun _ => rfl⟩
    intro missed f op f' htold hstep h
    exact abreast_step htold hstep h
  have hfull : Agrees f.full f.world.guarded := agrees_iff.mpr h.full
  refine ⟨hfull, ?_, ?_, ?_⟩
  · intro id
    rw [h.part.isSome_iff id]
    exact hfull.1 id
  · intro id msgs hheld
    have hrel := h.part id
    rw [hheld] at hrel
    cases hid : f.full id with
    | none =>
      rw [hid] at hrel
      cases hrel
    | some shownMsgs =>
      rw [hid] at hrel
      rw [← hfull.2 id shownMsgs hid]
      cases hrel with
      | some hsub => exact hsub
  · intro hnil
    rw [h.all hnil]
    exact hfull

/-- A conversation is opened and used, one of its sends failing at the write. -/
def visit : List Op := [
  .createConversation noFaults (.ok "c1") "peer",
  .messageReceived noFaults "c1" [104, 105] "peer" "device" 1,
  .sendMessage (fun stmt => if stmt = .record then some "disk full" else none) (.ok ())
    "c1" "hello" 2]

theorem events_follow_store_visit : ∃ (w₀ : World LogStore) (f : Followed LogStore),
    (sequential LogStore).step (World.start emptyDb none)
      (.init ⟨none⟩ (.up ⟨"name", "addr"⟩ [])) = some w₀ ∧
    (followed LogStore).exec (.start w₀) visit = some f ∧ Agrees f.full f.world.guarded ∧
    f.held "c1" = some [⟨false, "hi", 1, some "peer"⟩] ∧
    f.full "c1" = some [⟨false, "hi", 1, some "peer"⟩, ⟨true, "hello", 2, none⟩] := by
  have hexec : ∃ (w₀ : World LogStore) (a b f : Followed LogStore),
      (sequential LogStore).step (World.start emptyDb none)
        (.init ⟨none⟩ (.up ⟨"name", "addr"⟩ [])) = some w₀ ∧ w₀.module.isSome ∧
      (followed LogStore).step (.start w₀) (.createConversation noFaults (.ok "c1") "peer") =
        some a ∧ (a.world.guarded.chats.get "c1").isSome ∧
      (followed LogStore).step a (.messageReceived noFaults "c1" [104, 105] "peer" "device" 1) =
        some b ∧
      (followed LogStore).step b (.sendMessage
        (fun stmt => if stmt = .record then some "disk full" else none) (.ok ()) "c1" "hello" 2) =
          some f ∧
      (followed LogStore).exec (.start w₀) visit = some f ∧
      f.held "c1" = some [⟨false, "hi", 1, some "peer"⟩] ∧
      f.full "c1" = some [⟨false, "hi", 1, some "peer"⟩, ⟨true, "hello", 2, none⟩] :=
    ⟨_, _, _, _, rfl, rfl, rfl, rfl, rfl, rfl, rfl, rfl, rfl⟩
  obtain ⟨w₀, a, b, f, hinit, hm₀, hcreate, hget, hrecv, hsend, hall, hheld, hfull⟩ := hexec
  have hrun : (followed LogStore).Run (fun f op => Told f.world op) (.start w₀) visit f :=
    .cons (fun _ _ => rfl) hcreate (.cons (Or.inl hget) hrecv (.single trivial hsend))
  exact ⟨w₀, f, hinit, hall, (events_follow_store rfl hinit hm₀ hrun).1, hheld, hfull⟩

/-- A create that cannot write its row lists the conversation, a send that cannot write
shows the message, and a message for an unknown conversation lists it, and the events
tell the consumer none of it. -/
theorem unheard_changes : ∃ (w₀ : World LogStore) (f₁ f₂ f₃ : Followed LogStore),
    (sequential LogStore).step (World.start emptyDb none)
      (.init ⟨none⟩ (.up ⟨"name", "addr"⟩ [])) = some w₀ ∧
    (followed LogStore).exec (.start w₀) [
      .createConversation (fun stmt => if stmt = .saveChat then some "disk full" else none)
        (.ok "c1") "peer"] = some f₁ ∧ ¬ Agrees f₁.held f₁.world.guarded ∧
    (followed LogStore).exec (.start w₀) [
      .createConversation noFaults (.ok "c1") "peer",
      .sendMessage (fun stmt => if stmt = .record then some "disk full" else none) (.ok ())
        "c1" "hello" 1] = some f₂ ∧ ¬ Agrees f₂.held f₂.world.guarded ∧
    (followed LogStore).exec (.start w₀) [
      .messageReceived noFaults "c1" [104, 105] "peer" "device" 1] = some f₃ ∧
      ¬ Agrees f₃.held f₃.world.guarded := by
  have hdiffer : ∀ (f : Followed LogStore) (x y : Option (List Message)), x ≠ y →
      f.held "c1" = x → ChatModule.held f.world.guarded "c1" = y →
        ¬ Agrees f.held f.world.guarded := by
    intro f x y hne hx hy hagrees
    refine hne ?_
    rw [← hx, ← hy, agrees_iff.mp hagrees]
  refine ⟨_, _, _, _, rfl, rfl, ?_, rfl, ?_, rfl, ?_⟩
  · exact hdiffer _ none (some []) (by decide) rfl rfl
  · exact hdiffer _ (some []) (some [⟨true, "hello", 1, none⟩]) (by decide) rfl rfl
  · exact hdiffer _ none (some [⟨false, "hi", 1, some "peer"⟩]) (by decide) rfl rfl

end Runs

end ChatModule
