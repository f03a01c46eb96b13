import ChatModule.Sequential
import ChatModule.Shown

/-!
# Opening a conversation

A conversation that is not known yet is opened by the first of its events, be it the
client's `ConversationStarted` or a message in it. `opening_order` compares the chats
that come of the two orders: the messages and the row are the same functions of the
events wherever the start stands among them, but a chat that a message opened is a
direct one, and stays one when the start then says it is a group.

A chat is followed through its events by `Finds`, which says what the map holds for
it; `hear` is what a list of messages makes of it.
-/

namespace ChatModule

open Actions Inbound Persistence

variable {σ : Type}

/-! ## The events of one conversation -/

/-- A `MessageReceived` event, with the clock and the failing writes while it is handled. -/
structure Arrival where
  faults : Faults
  content : List UInt8
  account : String
  installation : String
  nowMs : UInt64

/-- The event, of the conversation `id`. -/
def Arrival.op (id : String) (m : Arrival) : Op :=
  .messageReceived m.faults id m.content m.account m.installation m.nowMs

/-- The message, as `get_messages` shows it. -/
def Arrival.entry (m : Arrival) : DisplayMessage := receivedEntry m.content m.account m.nowMs

/-- A `ConversationStarted` event of class `c`, the client answering `group_metadata`
with `md`. -/
def startedOp (id : String) (faults : Faults) (c : ConversationClass) (md : GroupMetadata) : Op :=
  .conversationStarted faults id (kindForClass c) (.ok md)

/-- What messages make of a chat: they are appended, and the first sender becomes the
peer of a direct chat that has none. -/
def hear (s : ChatSession) (ms : List Arrival) : ChatSession :=
  { s with
    peer := if s.kind = .direct then s.peer.or (ms.head?.map Arrival.account) else s.peer
    messages := s.messages ++ ms.map Arrival.entry }

theorem hear_nil (s : ChatSession) : hear s [] = s := by
  unfold hear
  simp

/-- One message, and then the others. -/
theorem hear_cons (s : ChatSession) (m : Arrival) (ms : List Arrival) :
    hear (hear s [m]) ms = hear s (m :: ms) := by
  unfold hear
  by_cases hkind : s.kind = .direct
  · cases s.peer with
    | none => simp [hkind]
    | some peer => simp [hkind]
  · simp [hkind]

/-- The chat a message opens. -/
def defensive (id : String) : ChatSession := openedSession id .direct none none none

/-! ## Following a chat -/

/-- What the map holds for an id that is not deleted, over an open connection. -/
structure Finds (id : String) (o : Option ChatSession) (g : Guarded σ) : Prop where
  chat : g.chats.get id = o
  undeleted : id ∉ g.deleted
  connected : g.display.chatDb.isSome

/-- The file's row of a chat in the map says what the map does. -/
def RowSays (id : String) (g : Guarded σ) : Prop :=
  ∀ s, g.chats.get id = some s → g.file.row id = some s.row

section Following

variable {g g' : Guarded σ} {o : Option ChatSession} {s : ChatSession} {id : String}

theorem Finds.put (h : Finds id o g) (hid : s.chatId = id)
    (hd : g'.display = (g.put s).display) : Finds id (some s) g' := by
  have hget : g'.chats.get id = some s := by
    rw [Guarded.chats, hd, ← hid]
    exact Keyed.get_insert_self _ s
  constructor
  · exact hget
  · rw [Guarded.deleted, hd]
    exact h.undeleted
  · rw [hd]
    exact h.connected

/-- The session a message is recorded into, with the message. -/
theorem pushMessage_receivingSession (h : Finds id o g) (m : Arrival) :
    pushMessage (receivingSession id m.account g)
        (receivedMessage id m.content m.account m.installation m.nowMs) =
      hear (o.getD (defensive id)) [m] := by
  unfold pushMessage receivingSession hear defensive
  rw [h.chat, displayMessage_receivedMessage]
  generalize o.getD (openedSession id .direct none none none) = s
  by_cases hkind : s.kind = .direct
  · cases hpeer : s.peer with
    | none => simp [hkind, hpeer, Arrival.entry]
    | some peer => simp [hkind, hpeer, Arrival.entry]
  · simp [hkind, Arrival.entry]

/-- A start opens the chat, or makes the one there is live again. -/
theorem Finds.started (h : Finds id o g) (faults : Faults) (kind : ConversationKind)
    (md : Option String × Option String) : Finds id
    (some (o.elim (openedSession id kind md.1 md.2 none) fun s => { s with historyOnly := false }))
    (recordConversationStartedLocked faults id kind md g) := by
  have hd := recordConversationStartedLocked_display faults id kind md g
  rw [if_neg h.undeleted, h.chat] at hd
  cases o with
  | none =>
    apply h.put _ hd
    rfl
  | some s =>
    have hid : s.chatId = id := Keyed.key_of_get h.chat
    apply h.put _ hd
    exact hid

variable [MessageStore σ]

theorem Finds.received (h : Finds id o g) (m : Arrival) : Finds id
    (some (hear (o.getD (defensive id)) [m]))
    (recordMessageReceived m.faults id m.content m.account m.installation m.nowMs g).1 := by
  have hd := recordMessageReceived_display h.connected m.faults id m.content m.account
    m.installation m.nowMs
  rw [if_neg h.undeleted, pushMessage_receivingSession h] at hd
  apply h.put _ hd
  rw [← pushMessage_receivingSession h]
  simp

end Following

/-! ## The row -/

/-- The row of the chat is written where the step writes it: with the start that opens
it, and with a message that opens or names it, in the message's transaction. -/
def RowWrites [MessageStore σ] (w : World σ) : Op → Prop
  | .conversationStarted faults .. => faults .saveChat = none
  | .messageReceived faults convoId content account installation nowMs =>
    receivingChangesChat convoId w.guarded = true →
      (recordMessageReceived faults convoId content account installation nowMs w.guarded).2 =
        some (.ok ())
  | _ => True

section Row

variable {g : Guarded σ} {o : Option ChatSession} {id : String} {faults : Faults}

/-- A start writes the row of the chat it opens. -/
theorem RowSays.started (h : RowSays id g) (hs : Finds id o g) (hf : faults .saveChat = none)
    (kind : ConversationKind) (md : Option String × Option String) :
    RowSays id (recordConversationStartedLocked faults id kind md g) := by
  have hnext := (hs.started faults kind md).chat
  intro s hget
  rw [hget] at hnext
  rw [Option.some.inj hnext]
  unfold recordConversationStartedLocked
  rw [if_neg hs.undeleted, hs.chat]
  cases o with
  | some old =>
    -- what a start changes of a known chat is not in its row
    have hrow : g.file.row id = some old.row := h old hs.chat
    show (if old.historyOnly then _ else g).file.row id = some old.row
    split
    · exact hrow
    · exact hrow
  | none =>
    simp only [emit_put, Option.elim_none]
    rcases persistChat_put_cases faults (openedSession id kind md.1 md.2 none) (g.emit _) with
      ⟨e, hclosed | hfails, -⟩ | ⟨-, -, heq⟩
    · exact absurd hs.connected (by simp [show g.display.chatDb = none from hclosed])
    · exact absurd hf hfails
    · rw [show persistChat faults id _ = _ from heq]
      simp [ChatDb.row_withRow]

variable [MessageStore σ]

/-- A message that opens or names the chat writes its row, and another leaves it. -/
theorem RowSays.received (h : RowSays id g) (hs : Finds id o g) (m : Arrival)
    (hwrite : receivingChangesChat id g = true →
      (recordMessageReceived m.faults id m.content m.account m.installation m.nowMs g).2 =
        some (.ok ())) :
    RowSays id
      (recordMessageReceived m.faults id m.content m.account m.installation m.nowMs g).1 := by
  have hnext := hs.received m
  have hrow : (hear (o.getD (defensive id)) [m]).row = (receivingSession id m.account g).row := by
    rw [← pushMessage_receivingSession hs]
    rfl
  intro s hget
  obtain rfl : hear (o.getD (defensive id)) [m] = s := Option.some.inj (hnext.chat.symm.trans hget)
  rw [hrow]
  have hput : (g.put (receivingSession id m.account g)).chats.get id =
      some (receivingSession id m.account g) := by
    have hself := Keyed.get_insert_self g.chats (receivingSession id m.account g)
    rwa [chatId_receivingSession] at hself
  rcases recordMessageReceived_cases m.faults id m.content m.account m.installation m.nowMs g with
    ⟨hdel, -⟩ | ⟨-, r, hr, heq⟩
  · exact absurd hdel hs.undeleted
  · rw [heq] at hwrite ⊢
    show r.1.file.row id = _
    rcases recordMessage_cases m.faults
      (receivedMessage id m.content m.account m.installation m.nowMs) (receivingChangesChat id g)
      (g.put (receivingSession id m.account g)) with
      ⟨hnone, -⟩ | ⟨hclosed, -⟩ | ⟨s, hthere, -, ⟨e, hfailed⟩ | hdone⟩
    · rw [chatId_receivedMessage, hput] at hnone
      cases hnone
    · exact absurd hs.connected (by simp [show g.display.chatDb = none from hclosed])
    · -- a failed write was not one of the row
      rw [hr, hfailed] at hwrite ⊢
      cases hchanges : receivingChangesChat id g with
      | true => simp [hchanges] at hwrite
      | false => exact h _ (receivingSession_of_unchanged hchanges _)
    · rw [hr, hdone]
      obtain rfl : receivingSession id m.account g = s := Option.some.inj (hput.symm.trans hthere)
      cases hchanges : receivingChangesChat id g with
      | true =>
        simp [recorded, ChatDb.row_withRow]
      | false => exact h _ (receivingSession_of_unchanged hchanges _)

end Row

/-! ## Runs -/

section Runs

variable [MessageStore σ] {P : World σ → Op → Prop} {w w' : World σ} {o : Option ChatSession}
  {s : ChatSession} {m : Arrival} {id : String}

theorem finds_received (hs : (sequential σ).step w (m.op id) = some w')
    (h : Finds id o w.guarded) :
    Finds id (some (hear (o.getD (defensive id)) [m])) w'.guarded := by
  rw [← step_eq_run hs]
  exact h.received m

/-- A run over messages of a chat that is there. -/
theorem finds_messages (ms : List Arrival)
    (hr : (sequential σ).Run P w (ms.map (Arrival.op id)) w')
    (h : Finds id (some s) w.guarded) : Finds id (some (hear s ms)) w'.guarded := by
  induction ms generalizing w s with
  | nil =>
    cases hr
    rw [hear_nil]
    exact h
  | cons m ms ih =>
    cases hr with
    | cons _ hs hr =>
      rw [← hear_cons]
      exact ih hr (finds_received hs h)

/-- A run over messages of a chat that may have to be opened for them. -/
theorem finds_before (ms : List Arrival)
    (hr : (sequential σ).Run P w (ms.map (Arrival.op id)) w')
    (h : Finds id none w.guarded) :
    Finds id (if ms = [] then none else some (hear (defensive id) ms)) w'.guarded := by
  cases ms with
  | nil =>
    cases hr
    exact h
  | cons m ms =>
    cases hr with
    | cons _ hs hr =>
      rw [if_neg (by simp), ← hear_cons]
      exact finds_messages ms hr (finds_received hs h)

/-- The same run keeps the row. -/
theorem rowSays_messages (ms : List Arrival)
    (hr : (sequential σ).Run RowWrites w (ms.map (Arrival.op id)) w')
    (h : Finds id o w.guarded) (hrow : RowSays id w.guarded) : RowSays id w'.guarded := by
  induction ms generalizing w o with
  | nil =>
    cases hr
    exact hrow
  | cons m ms ih =>
    cases hr with
    | cons hwrite hs hr =>
      apply ih hr (finds_received hs h)
      rw [← step_eq_run hs]
      exact hrow.received h m hwrite

/-- The chat that comes of a start among messages. -/
def opened (id : String) (before : List Arrival) (c : ConversationClass) (md : GroupMetadata)
    (after : List Arrival) : ChatSession :=
  let metadata := startedMetadata (kindForClass c) (.ok md)
  let chat := if before = [] then openedSession id (kindForClass c) metadata.1 metadata.2 none
    else hear (defensive id) before
  hear chat after

/-- The events of a conversation: its start, with messages before and after it. -/
def openingEvents (id : String) (before : List Arrival) (faults : Faults) (c : ConversationClass)
    (md : GroupMetadata) (after : List Arrival) : List Op :=
  before.map (Arrival.op id) ++ startedOp id faults c md :: after.map (Arrival.op id)

theorem finds_opening (before : List Arrival) (faults : Faults) (c : ConversationClass)
    (md : GroupMetadata) (after : List Arrival)
    (hr : (sequential σ).Run P w (openingEvents id before faults c md after) w')
    (h : Finds id none w.guarded) :
    Finds id (some (opened id before c md after)) w'.guarded := by
  obtain ⟨w₁, hbefore, hrest⟩ := hr.split
  cases hrest with
  | cons _ hs hafter =>
    have h₁ := finds_before before hbefore h
    apply finds_messages after hafter
    have hinstalled := installed_of_event hs rfl
    rw [← step_eq_run hs]
    have h₂ := h₁.started faults (kindForClass c)
      (startedMetadata (kindForClass c) (withClient w₁ (.ok md)))
    have hanswer : withClient w₁ (.ok md) = .ok md := withClient_ok_iff.mpr ⟨hinstalled, rfl⟩
    rw [hanswer] at h₂
    have hchat : (if before = [] then none else some (hear (defensive id) before)).elim
        (openedSession id (kindForClass c) (startedMetadata (kindForClass c) (.ok md)).1
          (startedMetadata (kindForClass c) (.ok md)).2 none)
        (fun s => { s with historyOnly := false }) = if before = [] then
          openedSession id (kindForClass c) (startedMetadata (kindForClass c) (.ok md)).1
            (startedMetadata (kindForClass c) (.ok md)).2 none
        else hear (defensive id) before := by
      split
      · rfl
      · rfl
    rw [hchat] at h₂
    simpa [Op.run, startedOp, recordConversationStarted, hanswer] using h₂

/-- The same run writes the row. -/
theorem rowSays_opening (before : List Arrival) (faults : Faults) (c : ConversationClass)
    (md : GroupMetadata) (after : List Arrival)
    (hr : (sequential σ).Run RowWrites w (openingEvents id before faults c md after) w')
    (h : Finds id none w.guarded) : RowSays id w'.guarded := by
  have hrow : RowSays id w.guarded := by
    intro s hget
    rw [h.chat] at hget
    cases hget
  obtain ⟨w₁, hbefore, hrest⟩ := hr.split
  cases hrest with
  | cons hwrite hs hafter =>
    have h₁ := finds_before before hbefore h
    have hrow₁ := rowSays_messages before hbefore h hrow
    have hstart := h₁.started faults (kindForClass c)
      (startedMetadata (kindForClass c) (withClient w₁ (.ok md)))
    have hrow₂ := hrow₁.started h₁ hwrite (kindForClass c)
      (startedMetadata (kindForClass c) (withClient w₁ (.ok md)))
    rw [← step_eq_run hs] at hafter
    exact rowSays_messages after hafter hstart hrow₂

/-- Wherever the start of a new conversation stands among its messages, the chat is live
and holds the messages in order, and its row says what it does when the writes of the row
succeed. It has the kind, the name and the description the start brings when it is a
direct one or the start comes first. A chat that a message opened before the start of a
group stays the direct, unnamed chat with the message's sender that it was opened as. -/
theorem opening_order (before : List Arrival) (faults : Faults) (c : ConversationClass)
    (md : GroupMetadata) (after : List Arrival) (hnew : Finds id none w.guarded)
    (hr : (sequential σ).Run (fun _ _ => True) w (openingEvents id before faults c md after) w') :
    ∃ s, w'.guarded.chats.get id = some s ∧ s.historyOnly = false ∧ s.olderMessages = 0 ∧
      s.messages = (before ++ after).map Arrival.entry ∧
      (c = .dm ∨ before = [] → s.kind = kindForClass c ∧
        (c = .dm → s.name = none ∧ s.description = none) ∧
        (c = .group → s.name = nonEmpty md.name ∧ s.description = nonEmpty md.desc ∧
          s.peer = none)) ∧
      (c = .group ∧ before ≠ [] → s.kind = .direct ∧ s.name = none ∧ s.description = none ∧
        s.peer = before.head?.map Arrival.account) ∧
      ((sequential σ).Run RowWrites w (openingEvents id before faults c md after) w' →
        w'.guarded.file.row id = some s.row) := by
  have hfinds := finds_opening before faults c md after hr hnew
  refine ⟨opened id before c md after, hfinds.chat, ?_, ?_, ?_, ?_, ?_, ?_⟩
  · unfold opened
    cases before <;> rfl
  · unfold opened
    cases before <;> rfl
  · unfold opened
    cases before with
    | nil => rfl
    | cons m before => simp [hear, defensive, openedSession]
  · intro hfirst
    cases before with
    | nil =>
      cases c with
      | dm => exact ⟨rfl, fun _ => ⟨rfl, rfl⟩, by simp⟩
      | group => exact ⟨rfl, by simp, fun _ => ⟨rfl, rfl, rfl⟩⟩
    | cons m before =>
      -- a message opened it, as the direct chat it is
      obtain rfl : c = .dm := by simpa using hfirst
      exact ⟨rfl, fun _ => ⟨rfl, rfl⟩, by simp⟩
  · intro hlate
    cases before with
    | nil => exact absurd rfl hlate.2
    | cons m before => exact ⟨rfl, rfl, rfl, rfl⟩
  · intro hwrites
    exact rowSays_opening before faults c md after hwrites hnew _ hfinds.chat

/-- A message of "c1". -/
def greeting : Arrival := ⟨noFaults, [104, 105], "peer", "device", 1⟩

/-- The start of a group between two messages. -/
theorem opening_order_greeted : ∃ w₀ w' : World LogStore,
    (sequential LogStore).step (World.start emptyDb none)
      (.init ⟨none⟩ (.up ⟨"name", "addr"⟩ [])) = some w₀ ∧
    (sequential LogStore).exec w₀
      (openingEvents "c1" [greeting] noFaults .group ⟨"team", ""⟩ [greeting]) = some w' ∧
    ∃ s, w'.guarded.chats.get "c1" = some s ∧ s.kind = .direct ∧ s.peer = some "peer" ∧
      s.messages = [greeting.entry, greeting.entry] := by
  have hexec : ∃ w₀ w' : World LogStore,
      (sequential LogStore).step (World.start emptyDb none)
        (.init ⟨none⟩ (.up ⟨"name", "addr"⟩ [])) = some w₀ ∧
      w₀.guarded.chats.get "c1" = none ∧ "c1" ∉ w₀.guarded.deleted ∧
      w₀.guarded.display.chatDb.isSome ∧ (sequential LogStore).exec w₀
        (openingEvents "c1" [greeting] noFaults .group ⟨"team", ""⟩ [greeting]) = some w' :=
    ⟨_, _, rfl, rfl, Finset.notMem_empty _, rfl, rfl⟩
  obtain ⟨w₀, w', hinit, hget, hdel, hdb, hall⟩ := hexec
  have hnew : Finds "c1" none w₀.guarded := ⟨hget, hdel, hdb⟩
  obtain ⟨s, hs, -, -, hmsgs, -, hlate, -⟩ := opening_order [greeting] noFaults .group
    ⟨"team", ""⟩ [greeting] hnew (Machine.run_of_exec hall)
  obtain ⟨hkind, -, -, hpeer⟩ := hlate ⟨rfl, by simp⟩
  exact ⟨w₀, w', hinit, hall, s, hs, hkind, hpeer, hmsgs⟩

/-- A group that starts after a first message is shown as a direct chat with the sender,
and one that starts before it as the group it is. -/
theorem late_start_stays_direct : ∃ w₀ w₁ w₂ : World LogStore,
    (sequential LogStore).step (World.start emptyDb none)
      (.init ⟨none⟩ (.up ⟨"name", "addr"⟩ [])) = some w₀ ∧
    w₀.guarded.chats.get "c1" = none ∧ "c1" ∉ w₀.guarded.deleted ∧
    (sequential LogStore).exec w₀
      (openingEvents "c1" [greeting] noFaults .group ⟨"team", ""⟩ []) = some w₁ ∧
    (w₁.guarded.chats.get "c1").map (fun s => (s.kind, s.name, s.peer)) =
      some (.direct, none, some "peer") ∧
    (sequential LogStore).exec w₀
      (openingEvents "c1" [] noFaults .group ⟨"team", ""⟩ [greeting]) = some w₂ ∧
    (w₂.guarded.chats.get "c1").map (fun s => (s.kind, s.name, s.peer)) =
      some (.group, some "team", none) :=
  ⟨_, _, _, rfl, rfl, Finset.notMem_empty _, rfl, by decide, rfl, by decide⟩

end Runs

end ChatModule
