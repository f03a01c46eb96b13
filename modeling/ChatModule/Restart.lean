import ChatModule.Refinement

/-!
# Restart

A session that ends and the one after it show the same archive. What they show of
it may differ in one place: a session that has been running shows every message
since it began and at least the newest `loadedPerChat` before, a new one only those.
-/

namespace ChatModule

open Actions Persistence

/-! ## What a displayed conversation reports -/

section Displayed

variable {k : Archived} {s s' : ChatSession}

/-- A message as it is reported. -/
def reported (m : StoredMessage) : Message := message (displayMessage m)

theorem Displays.length_messages (h : Displays k s) :
    s.messages.length = k.log.length - s.olderMessages := by
  rw [h.messages, List.length_map, List.length_drop]

/-- What is reported is the history less the older messages. -/
theorem Displays.map_message (h : Displays k s) :
    s.messages.map message = (k.log.map reported).drop s.olderMessages := by
  rw [h.messages, List.map_map, List.map_drop]
  rfl

theorem Displays.messageCount (h : Displays k s) :
    (conversation s).messageCount = k.log.length := by
  have := h.older
  simp only [conversation, h.length_messages]
  omega

/-- The newest message shown is the newest there is. -/
theorem Displays.getLast? (h : Displays k s) :
    s.messages.getLast? = k.log.getLast?.map displayMessage := by
  rw [h.messages, List.getLast?_map, List.getLast?_drop]
  by_cases hle : k.log.length ≤ s.olderMessages
  · -- nothing is left to show, so nothing was said
    have hlen : s.messages.length = 0 := by
      rw [h.length_messages]
      omega
    have hnil : k.log = [] := by
      rw [← List.length_eq_zero_iff]
      have := h.older
      rcases h.window with hw | hw
      · simp [hlen, loadedPerChat] at hw
      · omega
    simp [hnil]
  · rw [if_neg hle]

/-- Two sessions that show one conversation report it alike, up to their mark. -/
theorem Displays.conversation (h : Displays k s) (h' : Displays k s')
    (hid : s'.chatId = s.chatId) :
    conversation s' = { conversation s with historyOnly := s'.historyOnly } := by
  have hrow : s'.row = s.row := h'.row.trans h.row.symm
  have hlast : s'.messages.getLast? = s.messages.getLast? := h'.getLast?.trans h.getLast?.symm
  have hcount := h'.messageCount.trans h.messageCount.symm
  simp only [Actions.conversation] at hcount ⊢
  rw [hcount, hlast, hid]
  congr 1
  · exact congrArg ChatRow.nickname hrow
  · exact congrArg ChatRow.kind hrow
  · exact congrArg ChatRow.name hrow
  · exact congrArg ChatRow.description hrow

/-- What is shown is the end of what was said. -/
theorem Displays.suffix (h : Displays k s) : s.messages.map message <:+ k.log.map reported := by
  rw [h.map_message]
  exact List.drop_suffix _ _

/-- The newest messages shown are the newest there are. -/
theorem Displays.page (h : Displays k s) :
    (s.messages.map message).rtake loadedPerChat = (k.log.map reported).rtake loadedPerChat := by
  rw [h.map_message]
  refine List.rtake_drop_of_window (by simpa using h.older) ?_
  simpa [h.length_messages] using h.window

end Displayed

/-! ## Restarting -/

section Restart

variable {σ : Type} [MessageStore σ] {w u : World σ} {ops idle : List Op}

/-- No session comes to be installed. -/
def Idle (w : World σ) (op : Op) : Prop := (op.run w).module = none

/-- Between a shutdown and the next session nothing changes. -/
theorem run_idle (hm : w.module.isSome) (hrun : (sequential σ).Run Idle (shutdown w) idle u) :
    u = shutdown w := by
  refine hrun.invariant (I := fun u => u = shutdown w) ?_ rfl
  rintro s op s' hidle hstep rfl
  rcases run_of_uninstalled (shutdown_module w) (shutdown_display hm) hstep with
    ⟨config, env, rfl⟩ | rfl
  · obtain rfl := step_eq_run hstep
    rcases init_cases config env (shutdown w) with ⟨-, g, ms, -, heq⟩ | ⟨hinst, -⟩ | ⟨-, e, -, heq⟩
    · simp only [Idle, Op.run, heq] at hidle
      cases hidle
    · simp at hinst
    · simp only [Op.run, heq]
  · rfl

/-- The messages a chat holds in all, as they are reported. -/
def allMessages (g : Guarded σ) (id : String) : List Message := (g.file.history id).map reported

/-- What a restart shows of what was shown before. -/
structure Restarted (live : List String) (g g' : Guarded σ) : Prop where
  /-- The same conversations, marked by what the new client lists. -/
  conversations : listConversations g' =
    (listConversations g).map fun c => { c with historyOnly := !live.contains c.convoId }
  name : g'.display.state.installationName = g.display.state.installationName
  deleted : g'.deleted = g.deleted
  /-- A conversation counts the messages its chat holds in all. -/
  count : ∀ c ∈ listConversations g, c.messageCount = (allMessages g c.convoId).length
  /-- The newest of them are returned. -/
  messages : ∀ id, getMessages g' id =
    (allMessages g id).rtake (min loadedPerChat (allMessages g id).length)
  /-- They are the last ones that were returned before. -/
  last : ∀ id, getMessages g' id =
    (getMessages g id).rtake (min loadedPerChat (allMessages g id).length)

section Shown

variable {a : Archive} {g g' : Guarded σ} {client : Client} {live : List String} {id : String}

theorem Mirrors.allMessages (h : Mirrors a g) :
    ChatModule.allMessages g id = (a.log id).map reported := by
  unfold ChatModule.allMessages
  rw [h.holds.history]

/-- What is returned is the end of what there is, with at least the newest. -/
theorem Mirrors.getMessages_page (h : Mirrors a g) :
    (getMessages g id).rtake loadedPerChat = (ChatModule.allMessages g id).rtake loadedPerChat := by
  rw [h.allMessages]
  unfold getMessages
  cases hget : g.chats.get id with
  | none => rw [Archive.log_of_none (h.shows.of_get_none hget), List.map_nil]
  | some s =>
    obtain ⟨k, hk, hd⟩ := h.shows.of_get hget
    rw [Archive.log_of_chats hk]
    exact hd.page

theorem Mirrors.listConversations {g₁ : Guarded σ} (h : Mirrors a g) (h' : Mirrors a g')
    (hs : Seeded g₁ client live g') : listConversations g' =
      (listConversations g).map fun c => { c with historyOnly := !live.contains c.convoId } := by
  unfold Actions.listConversations
  rw [Multiset.map_map]
  refine Keyed.map_values_eq (n := Conversation.convoId) (fun _ => rfl) (fun _ => rfl) ?_
  intro id
  cases hget : g.chats.get id with
  | none =>
    have hk := h.shows.of_get_none hget
    have hrel := h'.shows.chats id
    rw [hk] at hrel
    cases hget' : g'.chats.get id with
    | none => rfl
    | some s' =>
      rw [hget'] at hrel
      cases hrel
  | some s =>
    obtain ⟨k, hk, hd⟩ := h.shows.of_get hget
    have hrel := h'.shows.chats id
    rw [hk] at hrel
    cases hget' : g'.chats.get id with
    | none =>
      rw [hget'] at hrel
      cases hrel
    | some s' =>
      rw [hget'] at hrel
      cases hrel with
      | some hd' =>
        have hid : s.chatId = id := Keyed.key_of_get hget
        have hid' : s'.chatId = id := Keyed.key_of_get hget'
        have hmark : s'.historyOnly = !live.contains id := by
          rw [hs.chats id] at hget'
          obtain ⟨row, -, rfl⟩ := Option.map_eq_some_iff.mp hget'
          rfl
        simp only [Option.map_some, Function.comp_apply, Option.some.injEq]
        rw [hd.conversation hd' (hid'.trans hid.symm), hmark]
        simp [conversation, hid]

theorem Mirrors.messageCount (h : Mirrors a g) {c : Conversation}
    (hc : c ∈ Actions.listConversations g) :
    c.messageCount = (ChatModule.allMessages g c.convoId).length := by
  obtain ⟨s, hget, rfl⟩ := mem_listConversations.mp hc
  obtain ⟨k, hk, hd⟩ := h.shows.of_get hget
  rw [h.allMessages, Archive.log_of_chats hk, List.length_map]
  exact hd.messageCount

theorem Mirrors.length_getMessages (h : Mirrors a g) (id : String) :
    (getMessages g id).length ≤ (ChatModule.allMessages g id).length := by
  rw [h.allMessages]
  unfold getMessages
  cases hget : g.chats.get id with
  | none => simp
  | some s =>
    obtain ⟨k, hk, hd⟩ := h.shows.of_get hget
    rw [Archive.log_of_chats hk]
    exact hd.suffix.length_le

/-- A new session returns no more than it read back. -/
theorem Actions.Seeded.length_getMessages (hs : Seeded g client live g') (id : String) :
    (getMessages g' id).length ≤ loadedPerChat := by
  unfold getMessages
  rw [hs.chats id]
  cases g.file.row id with
  | none => simp
  | some row =>
    simp only [Option.map_some, loadedSession, List.length_map, List.length_rtake]
    exact Nat.min_le_left _ _

end Shown

/-- A session started over what an earlier one kept. -/
theorem restarted {a : Archive} {client : Client} {live : List String} {g g₁ g' : Guarded σ}
    (h : Mirrors a g) (hfile : g₁.file = g.file) (hs : Seeded g₁ client live g') :
    Restarted live g g' := by
  have hholds : Holds a g₁.file := by
    rw [hfile]
    exact h.holds
  have h' : Mirrors a g' := hholds.seeded hs
  have hall : ∀ id, allMessages g' id = allMessages g id := by
    intro id
    rw [h'.allMessages, h.allMessages]
  have hpage : ∀ id, getMessages g' id = (allMessages g id).rtake loadedPerChat := by
    intro id
    rw [← hall, ← h'.getMessages_page, List.rtake_of_length_le (hs.length_getMessages id)]
  refine ⟨h.listConversations h' hs, ?_, ?_, fun c hc => h.messageCount hc, ?_, ?_⟩
  · rw [h'.shows.name, h.shows.name]
  · ext id
    rw [h'.shows.deleted, h.shows.deleted]
  · intro id
    rw [hpage, List.rtake_min (le_refl _)]
  · intro id
    rw [hpage, List.rtake_min (h.length_getMessages id), h.getMessages_page]

variable [LawfulMessageStore σ]

/-- Restart equivalence: after any run in which no write fails, the session that
follows a shutdown reports what the session before it did. Whatever is tried while
no session is installed makes no difference. -/
theorem restart_equivalence {own : Option String} {config : ChatConfig} {env : Environment}
    {client : Client} {live : List String}
    (hrun : (sequential σ).Run Admissible (World.start emptyDb own) ops w)
    (hinst : w.module.isSome) (hidle : (sequential σ).Run Idle (shutdown w) idle u)
    (hup : env.Up client live) :
    (init config env u).result = .ok () ∧ (init config env u).world.module.isSome ∧
      Restarted live w.guarded (init config env u).world.guarded := by
  obtain ⟨a, hkeeps⟩ := keeps_run hrun
  rw [keeps_installed hinst] at hkeeps
  obtain rfl := run_idle hinst hidle
  obtain ⟨g', hseeded, heq⟩ := init_up config hup (shutdown_module w)
  rw [heq]
  exact ⟨rfl, rfl, restarted hkeeps (shutdown_file w) hseeded⟩

/-- No row of `chats` can be written. -/
def saveChatFails : Faults := fun stmt => if stmt = .saveChat then some "disk full" else none

/-- A session in which a conversation is opened, written in and answered. -/
def exchange : List Op := [
  .init ⟨none⟩ (.up ⟨"name", "addr"⟩ []),
  .createConversation noFaults (.ok "c1") "peer",
  .sendMessage noFaults (.ok ()) "c1" "hello" 1,
  .messageReceived noFaults "c1" [104, 105] "peer" "device" 2]

/-- Where `exchange` leads a process that starts over a new file. -/
def exchanged : World LogStore := exchange.foldl (fun w op => op.run w) (World.start emptyDb none)

example : getMessages exchanged.guarded "c1" =
    [⟨true, "hello", 1, none⟩, ⟨false, "hi", 2, some "peer"⟩] := by decide

theorem restart_equivalence_exchanged :
    Restarted [] exchanged.guarded
      (init ⟨none⟩ (.up ⟨"name", "addr"⟩ []) (shutdown exchanged)).world.guarded := by
  have hrun :
      (sequential LogStore).Run Admissible (World.start emptyDb none) exchange exchanged := by
    refine .cons ⟨rfl, fun id h => by cases h⟩ rfl ?_
    refine .cons ⟨rfl, ?_⟩ rfl ?_
    · intro id h
      cases h
      exact ⟨rfl, by decide⟩
    refine .cons ⟨rfl, fun id h => by cases h⟩ rfl ?_
    refine .cons ⟨rfl, fun id h => by cases h⟩ rfl ?_
    exact .nil _
  exact (restart_equivalence hrun rfl (.nil _) (Environment.up_up _ _)).2.2

end Restart

end ChatModule
