import Mathlib.Logic.Function.Basic
import Mathlib.Data.Set.Insert
import ChatModule.Lib.Machine
import ChatModule.Sections

/-!
# What a session keeps

An abstract model of what the module is for: an archive of conversations, each
with its row and everything said in it, the ids deleted for good and a name. It
has no display, no connection, no window of newest messages and no sessions: an
init or a shutdown is no step of it.

`Mirrors a g` says that `g` keeps the archive `a` twice over, in `chat.db`
(`Holds`) and on the display (`Shows`), and `Keeps a w` that the process keeps it,
whether a session is installed or not. Each write to the file that goes with a
change of the map is one deed of the archive.
-/

namespace ChatModule

open Actions Persistence

/-! ## The archive -/

/-- A conversation: its row and everything said in it. -/
structure Archived where
  row : ChatRow
  log : List StoredMessage

/-- The conversations kept, the ids deleted and the installation name. -/
structure Archive where
  chats : String → Option Archived
  deleted : Set String
  name : Option String

/-- What can be done to an archive. -/
inductive Deed
  /-- Write a conversation's row, opening it when it is not there. -/
  | written (id : String) (row : ChatRow)
  /-- Say something in a conversation. -/
  | said (m : StoredMessage)
  | deleted (id : String)
  | renamed (name : Option String)

namespace Archive

/-- A new archive. -/
def empty : Archive := ⟨fun _ => none, ∅, none⟩

/-- Everything said in a conversation. -/
def log (a : Archive) (id : String) : List StoredMessage :=
  match a.chats id with
  | some k => k.log
  | none => []

/-- The archive once a row is written. -/
def write (a : Archive) (id : String) (row : ChatRow) : Archive :=
  { a with chats := Function.update a.chats id (some ⟨row, a.log id⟩) }

/-- The archive once `m` is said in `k`. -/
def say (a : Archive) (k : Archived) (m : StoredMessage) : Archive :=
  { a with chats := Function.update a.chats m.chatId (some { k with log := k.log ++ [m] }) }

/-- The archive once a conversation is deleted. -/
def delete (a : Archive) (id : String) : Archive :=
  { a with chats := Function.update a.chats id none, deleted := insert id a.deleted }

end Archive

/-- Deeds one after the other; nothing can be said in a conversation that is not
there. -/
def archive : Machine Archive Deed where
  step a
    | .written id row => some (a.write id row)
    | .said m => (a.chats m.chatId).map fun k => a.say k m
    | .deleted id => some (a.delete id)
    | .renamed name => some { a with name := name }

section Archive

variable {a : Archive} {id c : String} {m : StoredMessage} {k : Archived}

theorem Archive.chats_write (row : ChatRow) :
    (a.write c row).chats id = if id = c then some ⟨row, a.log c⟩ else a.chats id := by
  simp [Archive.write, Function.update_apply]

theorem Archive.chats_say :
    (a.say k m).chats id = if id = m.chatId then some { k with log := k.log ++ [m] }
      else a.chats id := by
  simp [Archive.say, Function.update_apply]

theorem Archive.chats_delete : (a.delete c).chats id = if id = c then none else a.chats id := by
  simp [Archive.delete, Function.update_apply]

theorem Archive.log_of_chats (h : a.chats id = some k) : a.log id = k.log := by
  simp [Archive.log, h]

theorem Archive.log_of_none (h : a.chats id = none) : a.log id = [] := by
  simp [Archive.log, h]

/-- Writing a row changes nothing that was said. -/
theorem Archive.log_write (row : ChatRow) : (a.write c row).log id = a.log id := by
  unfold Archive.log
  rw [Archive.chats_write]
  by_cases h : id = c
  · subst h
    simp [Archive.log]
  · simp [h]

theorem Archive.log_say (h : a.chats m.chatId = some k) :
    (a.say k m).log id = if id = m.chatId then a.log id ++ [m] else a.log id := by
  unfold Archive.log
  rw [Archive.chats_say]
  by_cases hid : id = m.chatId
  · subst hid
    simp [h]
  · simp [hid]

theorem Archive.log_delete : (a.delete c).log id = if id = c then [] else a.log id := by
  unfold Archive.log
  rw [Archive.chats_delete]
  by_cases h : id = c <;> simp [h]

end Archive

/-! ## On the display -/

section Display

/-- A session shows a conversation: the end of what was said, with a count of the
rest, and at least `loadedPerChat` messages of it when there are that many. -/
structure Displays (k : Archived) (s : ChatSession) : Prop where
  row : s.row = k.row
  older : s.olderMessages ≤ k.log.length
  messages : s.messages = (k.log.drop s.olderMessages).map displayMessage
  window : loadedPerChat ≤ s.messages.length ∨ s.olderMessages = 0

/-- The display keeps the archive. -/
structure Shows {σ : Type} (a : Archive) (g : Guarded σ) : Prop where
  chats : ∀ id, Option.Rel Displays (a.chats id) (g.chats.get id)
  deleted : ∀ id, id ∈ g.deleted ↔ id ∈ a.deleted
  name : g.display.state.installationName = a.name
  chatDb : g.display.chatDb.isSome

variable {σ : Type} {a a' : Archive} {g g' : Guarded σ} {k : Archived} {s : ChatSession}
  {m : StoredMessage} {id : String}

/-- What a session shows is unchanged by what is around its conversation. -/
theorem Shows.congr (h : Shows a g) (hstate : g'.display.state = g.display.state)
    (hdb : g'.display.chatDb = g.display.chatDb) : Shows a g' where
  chats id := by
    rw [Guarded.chats, hstate]
    exact h.chats id
  deleted id := by
    rw [Guarded.deleted, hstate]
    exact h.deleted id
  name := by
    rw [hstate]
    exact h.name
  chatDb := by
    rw [hdb]
    exact h.chatDb

/-- A session put in the map shows the one conversation of its id. -/
theorem Shows.put (h : Shows a g) (hself : a'.chats s.chatId = some k) (hd : Displays k s)
    (hother : ∀ id, id ≠ s.chatId → a'.chats id = a.chats id) (hdel : a'.deleted = a.deleted)
    (hname : a'.name = a.name) : Shows a' (g.put s) where
  chats id := by
    by_cases hid : id = s.chatId
    · subst hid
      rw [hself, Guarded.chats_put, Keyed.get_insert_self]
      exact .some hd
    · rw [hother id hid, Guarded.chats_put, Keyed.get_insert_of_ne _ hid]
      exact h.chats id
  deleted id := by
    rw [hdel]
    exact h.deleted id
  name := by
    rw [hname]
    exact h.name
  chatDb := h.chatDb

/-- A conversation that is shown is kept. -/
theorem Shows.of_get (h : Shows a g) (hget : g.chats.get id = some s) :
    ∃ k, a.chats id = some k ∧ Displays k s := by
  have hrel := h.chats id
  rw [hget] at hrel
  cases hk : a.chats id with
  | none =>
    rw [hk] at hrel
    cases hrel
  | some k =>
    rw [hk] at hrel
    cases hrel with
    | some hd => exact ⟨k, rfl, hd⟩

/-- A conversation that is not shown is not kept. -/
theorem Shows.of_get_none (h : Shows a g) (hget : g.chats.get id = none) : a.chats id = none := by
  have hrel := h.chats id
  rw [hget] at hrel
  cases hk : a.chats id with
  | none => rfl
  | some k =>
    rw [hk] at hrel
    cases hrel

/-- An opened session shows a conversation in which nothing was said. -/
theorem Displays.opened {kind : ConversationKind} {name description peer : Option String}
    (h : a.log id = []) :
    Displays ⟨(openedSession id kind name description peer).row, a.log id⟩
      (openedSession id kind name description peer) := by
  refine ⟨rfl, Nat.zero_le _, ?_, Or.inr rfl⟩
  simp [h, openedSession]

/-- Another row, or another mark, on the same messages. -/
theorem Displays.restate {s' : ChatSession} (h : Displays k s) (hm : s'.messages = s.messages)
    (ho : s'.olderMessages = s.olderMessages) : Displays ⟨s'.row, k.log⟩ s' where
  row := rfl
  older := by
    rw [ho]
    exact h.older
  messages := by
    rw [hm, ho]
    exact h.messages
  window := by
    rw [hm, ho]
    exact h.window

/-- The mark of a previous session is shown, and not kept. -/
theorem Displays.mark (h : Displays k s) (historyOnly : Bool) :
    Displays k { s with historyOnly := historyOnly } :=
  ⟨h.row, h.older, h.messages, h.window⟩

/-- What is said is shown at the end. -/
theorem Displays.push (h : Displays k s) :
    Displays { k with log := k.log ++ [m] } (pushMessage s m) := by
  have hdrop : (k.log ++ [m]).drop s.olderMessages = k.log.drop s.olderMessages ++ [m] :=
    List.drop_append_of_le_length h.older
  refine ⟨h.row, ?_, ?_, ?_⟩
  · have := h.older
    simp only [pushMessage, List.length_append]
    omega
  · simp only [pushMessage, hdrop, List.map_append, h.messages, List.map_cons, List.map_nil]
  · -- the window only grows
    rcases h.window with hw | hw
    · left
      simp only [pushMessage, List.length_append]
      omega
    · exact Or.inr hw

end Display

/-! ## In the file, and in both -/

variable {σ : Type} [MessageStore σ]

/-- `chat.db` keeps the archive. -/
structure Holds (a : Archive) (db : ChatDb σ) : Prop where
  row : ∀ id, db.row id = (a.chats id).map Archived.row
  history : ∀ id, db.history id = a.log id
  deleted : ∀ id, id ∈ db.deletedChats ↔ id ∈ a.deleted
  name : db.installationName = a.name

/-- The display and `chat.db` keep the same archive. -/
structure Mirrors (a : Archive) (g : Guarded σ) : Prop where
  holds : Holds a g.file
  shows : Shows a g

/-- The process keeps the archive: in `chat.db`, and on the display while a session
is installed. -/
def Keeps (a : Archive) (w : World σ) : Prop :=
  match w.module with
  | some _ => Mirrors a w.guarded
  | none => Holds a w.guarded.file ∧ w.guarded.display = Display.default

/-! ## What each write does to it -/

section Writes

variable {a : Archive} {db : ChatDb σ} {g g' : Guarded σ} {k : Archived} {s : ChatSession}
  {m : StoredMessage} {c : String} {n : Option String}

theorem Holds.withName (h : Holds a db) : Holds { a with name := n } (db.withName n) where
  row id := by
    rw [ChatDb.row_withName]
    exact h.row id
  history id := by
    rw [ChatDb.history_withName]
    exact h.history id
  deleted id := by
    rw [ChatDb.deletedChats_withName]
    exact h.deleted id
  name := ChatDb.installationName_withName db n

theorem Holds.withRow (h : Holds a db) : Holds (a.write s.chatId s.row) (db.withRow s) where
  row id := by
    rw [ChatDb.row_withRow, Archive.chats_write, h.row id]
    by_cases hid : id = s.chatId <;> simp [hid]
  history id := by
    rw [ChatDb.history_withRow, Archive.log_write]
    exact h.history id
  deleted := h.deleted
  name := h.name

/-- What neither the map, the ids deleted, the name nor the file notices. -/
theorem Mirrors.congr (h : Mirrors a g) (hstate : g'.display.state = g.display.state)
    (hdb : g'.display.chatDb = g.display.chatDb) (hfile : g'.file = g.file) : Mirrors a g' := by
  refine ⟨?_, h.shows.congr hstate hdb⟩
  rw [hfile]
  exact h.holds

theorem Mirrors.emit {e : PluginEvent} (h : Mirrors a g) : Mirrors a (g.emit e) :=
  h.congr rfl rfl rfl

theorem Mirrors.rename (h : Mirrors a g) :
    Mirrors { a with name := n } (writeFile (g.rename n) (g.file.withName n)) where
  holds := h.holds.withName
  shows := ⟨h.shows.chats, h.shows.deleted, rfl, h.shows.chatDb⟩

/-- A session put in the map with its row written. -/
theorem Mirrors.putRow (h : Mirrors a g) (hd : Displays ⟨s.row, a.log s.chatId⟩ s) :
    Mirrors (a.write s.chatId s.row) (writeFile (g.put s) (g.file.withRow s)) where
  holds := h.holds.withRow
  shows := by
    have hput : Shows (a.write s.chatId s.row) (g.put s) := by
      refine h.shows.put (k := ⟨s.row, a.log s.chatId⟩) ?_ hd ?_ rfl rfl
      · simp [Archive.chats_write]
      · intro id hid
        simp [Archive.chats_write, hid]
    exact hput.congr rfl rfl

/-- A session put in the map for what it already shows. -/
theorem Mirrors.put (h : Mirrors a g) (hk : a.chats s.chatId = some k) (hd : Displays k s) :
    Mirrors a (g.put s) :=
  ⟨h.holds, h.shows.put hk hd (fun _ _ => rfl) rfl rfl⟩

variable [LawfulMessageStore σ]

theorem Holds.withMessage (h : Holds a db) (hk : a.chats m.chatId = some k) :
    Holds (a.say k m) (db.withMessage m) where
  row id := by
    rw [ChatDb.row_withMessage, Archive.chats_say, h.row id]
    by_cases hid : id = m.chatId
    · subst hid
      simp [hk]
    · simp [hid]
  history id := by
    rw [ChatDb.history_withMessage, Archive.log_say hk, h.history id]
  deleted := h.deleted
  name := h.name

theorem Holds.withoutChat (h : Holds a db) : Holds (a.delete c) (db.withoutChat c) where
  row id := by
    rw [ChatDb.row_withoutChat, Archive.chats_delete, h.row id]
    by_cases hid : id = c <;> simp [hid]
  history id := by
    rw [ChatDb.history_withoutChat, Archive.log_delete, h.history id]
  deleted id := by
    simp [Archive.delete, h.deleted id]
  name := h.name

/-- A message appended to the list of its chat and to the chat's history. -/
theorem Mirrors.push (h : Mirrors a g) (hget : g.chats.get m.chatId = some s) :
    ∃ k, a.chats m.chatId = some k ∧
      Mirrors (a.say k m) (writeFile (g.put (pushMessage s m)) (g.file.withMessage m)) := by
  obtain ⟨k, hk, hd⟩ := h.shows.of_get hget
  have hid : (pushMessage s m).chatId = m.chatId := by
    rw [chatId_pushMessage]
    exact Keyed.key_of_get hget
  have hput : Shows (a.say k m) (g.put (pushMessage s m)) := by
    refine h.shows.put (k := { k with log := k.log ++ [m] }) ?_ hd.push ?_ rfl rfl
    · rw [Archive.chats_say, if_pos hid]
    · intro id hne
      rw [hid] at hne
      simp [Archive.chats_say, hne]
  exact ⟨k, hk, h.holds.withMessage hk, hput.congr rfl rfl⟩

/-- A chat taken out of the map and out of the file. -/
theorem Mirrors.forget (h : Mirrors a g) :
    Mirrors (a.delete c) (writeFile (g.forget c) (g.file.withoutChat c)) where
  holds := h.holds.withoutChat
  shows := by
    refine ⟨?_, ?_, h.shows.name, h.shows.chatDb⟩
    · intro id
      rw [chats_writeFile, Guarded.chats_forget, Keyed.get_remove, Archive.chats_delete]
      by_cases hid : id = c
      · simp only [hid, if_true]
        exact .none
      · simp only [hid, if_false]
        exact h.shows.chats id
    · intro id
      rw [deleted_writeFile, Guarded.deleted_forget, Finset.mem_insert, h.shows.deleted id]
      rfl

end Writes

end ChatModule
