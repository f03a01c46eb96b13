import Mathlib.Data.List.DropRight

/-!
# The message store

Messages are kept by the `message_store` crate, in tables of its own inside
`chat.db`. Its source is not part of this repository, so the store is a
parameter: `MessageStore σ` names the calls this module makes on tables of type
`σ`, and `LawfulMessageStore σ` states what the module relies on.

A chat's `history` is everything the store returns for it when asked for as many
messages as it counts. Recording appends to the history of the message's own
chat, deleting a chat empties its history, and a page is the end of the history,
oldest message first.
-/

namespace ChatModule

/-- Which way a message went. -/
inductive Direction
  | sent
  | received
deriving DecidableEq, Repr

/-- A message as it is stored. `message_id`, which this module always leaves
unset, is left out. -/
structure StoredMessage where
  chatId : String
  convoId : String
  direction : Direction
  senderAccount : Option String
  senderInstallation : Option String
  timestampMs : Int64
  content : List UInt8
deriving DecidableEq

/-- The calls made on the message store's tables. -/
class MessageStore (σ : Type) where
  /-- The tables `migrate` leaves in a new file. -/
  empty : σ
  /-- `record(message)`. -/
  record : σ → StoredMessage → σ
  /-- `messages(chat_id, None, limit)`. -/
  messages : σ → String → ℕ → List StoredMessage
  /-- `count(chat_id)`. -/
  count : σ → String → ℕ
  /-- `delete_chat(chat_id)`. -/
  deleteChat : σ → String → σ

namespace MessageStore

/-- Everything the store holds for a chat, oldest first. -/
def history {σ : Type} [MessageStore σ] (t : σ) (chatId : String) : List StoredMessage :=
  messages t chatId (count t chatId)

end MessageStore

open MessageStore in
/-- What the module relies on: records append, pages are the newest messages in
the order they were recorded, counts count them, deleting forgets one chat. -/
class LawfulMessageStore (σ : Type) [MessageStore σ] : Prop where
  history_empty : ∀ chatId, history (empty : σ) chatId = []
  count_eq : ∀ (t : σ) chatId, count t chatId = (history t chatId).length
  messages_eq : ∀ (t : σ) chatId limit, messages t chatId limit = (history t chatId).rtake limit
  history_record : ∀ (t : σ) m chatId, history (record t m) chatId =
    if chatId = m.chatId then history t chatId ++ [m] else history t chatId
  history_deleteChat : ∀ (t : σ) c chatId, history (deleteChat t c) chatId =
    if chatId = c then [] else history t chatId

attribute [simp] LawfulMessageStore.history_empty LawfulMessageStore.history_record
  LawfulMessageStore.history_deleteChat

/-! ## A store that keeps one log

The plainest lawful store: one list of messages in the order they were recorded. -/

/-- All messages of all chats, in the order they were recorded. -/
structure LogStore where
  log : List StoredMessage
deriving DecidableEq

namespace LogStore

/-- The messages of one chat. -/
def ofChat (t : LogStore) (chatId : String) : List StoredMessage :=
  t.log.filter fun m => m.chatId = chatId

instance : MessageStore LogStore where
  empty := ⟨[]⟩
  record t m := ⟨t.log ++ [m]⟩
  messages t chatId limit := (t.ofChat chatId).rtake limit
  count t chatId := (t.ofChat chatId).length
  deleteChat t chatId := ⟨t.log.filter fun m => m.chatId ≠ chatId⟩

theorem history_eq (t : LogStore) (chatId : String) :
    MessageStore.history t chatId = t.ofChat chatId := by
  simp [MessageStore.history, MessageStore.messages, MessageStore.count, List.rtake]

instance : LawfulMessageStore LogStore where
  history_empty chatId := by
    rw [history_eq]
    rfl
  count_eq t chatId := by
    rw [history_eq]
    rfl
  messages_eq t chatId limit := by
    rw [history_eq]
    rfl
  history_record t m chatId := by
    simp only [history_eq, MessageStore.record, ofChat, List.filter_append]
    by_cases h : chatId = m.chatId
    · simp [h]
    · simp [h, Ne.symm h]
  history_deleteChat t c chatId := by
    simp only [history_eq, MessageStore.deleteChat, ofChat, List.filter_filter]
    by_cases h : chatId = c
    · simp [h]
    · rw [if_neg h]
      refine List.filter_congr ?_
      intro m _
      by_cases hm : m.chatId = chatId
      · simp [hm, h]
      · simp [hm]

end LogStore

end ChatModule
