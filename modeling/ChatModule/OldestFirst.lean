import ChatModule.Creating

/-!
# Messages by the clock

A message carries the clock's reading and is listed where its section finds the end of the
list. A handler of an inbound message reads the clock in its section; `send_message` reads it
before the section, so another message may be recorded in between, with a later reading.

The machine here adds to the interleaved one a clock that never goes back and the sends that
have read it (`Stamped`). A conversation stays oldest first exactly as long as each send
records its message while no message listed is later than its reading (`InTime`).

Timestamps are reported as `i64`, and a clock that never goes back is one whose readings do
not when they are reported.
-/

namespace ChatModule

open Actions Persistence

variable {σ : Type}

/-! ## The clock -/

/-- `send_message`, past `now_ms`. -/
structure Stamped where
  convoId : String
  content : String
  timestampMs : UInt64

/-- The threads, what `now_ms` returns now, and the sends that have read it. -/
structure Clocked (σ : Type) where
  threads : Threads σ
  clock : UInt64
  stamped : List Stamped

/-- What happens next. -/
inductive Beat
  | tick (nowMs : UInt64)
  /-- A step of the threads that is not a send past libchat. -/
  | move (mv : Move)
  /-- The `i`-th call in flight, a send past libchat, reads the clock. -/
  | read (i : ℕ)
  /-- The section of the `j`-th send that has read it. -/
  | record (j : ℕ) (faults : Faults)

namespace Clocked

/-- What the display lock guards. -/
abbrev guarded (s : Clocked σ) : Guarded σ := s.threads.guarded

/-- The process as it starts. -/
def start (file : ChatDb σ) (ownNodePreset : Option String) (nowMs : UInt64) : Clocked σ :=
  ⟨.start file ownNodePreset, nowMs, []⟩

/-- Whether a move is a step here: a handler reads the clock as it is, and a send past
libchat takes the steps `read` and `record`. -/
def takes (s : Clocked σ) : Move → Bool
  | .messageReceived _ _ _ _ _ nowMs => nowMs = s.clock
  | .proceed i _ _ _ =>
    match s.threads.calls[i]? with
    | some (.sent _ _) => false
    | _ => true
  | _ => true

variable [MessageStore σ]

/-- One step. -/
def step (s : Clocked σ) : Beat → Option (Clocked σ)
  | .tick nowMs => if s.clock.toInt64 ≤ nowMs.toInt64 then some { s with clock := nowMs } else none
  | .move mv =>
    if s.takes mv then (s.threads.step mv).map fun threads => { s with threads := threads }
    else none
  | .read i =>
    match s.threads.calls[i]? with
    | some (.sent convoId content) =>
      some { s with
        threads := { s.threads with calls := s.threads.calls.eraseIdx i }
        stamped := ⟨convoId, content, s.clock⟩ :: s.stamped }
    | _ => none
  | .record j faults =>
    match s.stamped[j]? with
    | none => none
    | some send =>
      -- the section takes the reading it was given, whatever the clock says by now
      let (g, next) := (Call.sent send.convoId send.content).proceed faults (.ok ())
        send.timestampMs s.threads.world
      some { s with threads := s.threads.display g next, stamped := s.stamped.eraseIdx j }

end Clocked

/-- The machine with a clock. -/
def clocked (σ : Type) [MessageStore σ] : Machine (Clocked σ) Beat := ⟨Clocked.step⟩

/-! ## Oldest first -/

/-- The timestamps of a conversation's list. -/
def stamps (g : Guarded σ) (id : String) : List Int64 :=
  (getMessages g id).map Message.timestampMs

/-- The list is oldest first, and `last_activity_ms` is the largest timestamp in it. -/
structure OldestFirst (id : String) (g : Guarded σ) : Prop where
  ordered : (stamps g id).Pairwise (· ≤ ·)
  lastActivity : ∀ c ∈ listConversations g, c.convoId = id →
    (∀ t ∈ stamps g id, t ≤ c.lastActivityMs) ∧
      (stamps g id ≠ [] → c.lastActivityMs ∈ stamps g id)

/-- The send of `id` that records its message does so while no message listed is later than
its reading. -/
def InTime (id : String) (s : Clocked σ) : Beat → Prop
  | .record j _ => ∀ send, s.stamped[j]? = some send → send.convoId = id →
    ∀ t ∈ stamps s.guarded id, t ≤ send.timestampMs.toInt64
  | _ => True

section Stamps

variable {g g' : Guarded σ} {id c : String} {s : ChatSession} {t : Int64}

theorem stamps_of_get (h : g.chats.get id = some s) :
    stamps g id = s.messages.map fun m => m.timestampMs.toInt64 := by
  simp [stamps, getMessages, h, message]

theorem stamps_of_get_none (h : g.chats.get id = none) : stamps g id = [] := by
  simp [stamps, getMessages, h]

theorem stamps_of_chats (h : g'.chats.get id = g.chats.get id) : stamps g' id = stamps g id := by
  simp [stamps, getMessages, h]

theorem stamps_of_display (h : g'.display = g.display) : stamps g' id = stamps g id :=
  stamps_of_chats (by simp [Guarded.chats, h])

/-- In a list that is oldest first the last message is the latest, and the one that
`last_activity_ms` reports. -/
theorem oldestFirst_iff : OldestFirst id g ↔ (stamps g id).Pairwise (· ≤ ·) := by
  refine ⟨OldestFirst.ordered, fun hordered => ⟨hordered, ?_⟩⟩
  intro cv hcv hid
  obtain ⟨s, hget, rfl⟩ := mem_listConversations.mp hcv
  have hget : g.chats.get id = some s := hid ▸ hget
  rw [stamps_of_get hget] at hordered ⊢
  by_cases hempty : s.messages = []
  · simp [hempty]
  · have hlast : (conversation s).lastActivityMs =
        (s.messages.map fun m => m.timestampMs.toInt64).getLast (by simpa using hempty) := by
      simp [conversation, List.getLast?_eq_getLast_of_ne_nil hempty]
    rw [hlast]
    have : Std.Refl (fun a b : Int64 => a ≤ b) := ⟨Int64.le_refl⟩
    exact ⟨fun t ht => hordered.rel_getLast ht, fun _ => List.getLast_mem _⟩

/-- A message at the end keeps the order when none before it is later. -/
theorem pairwise_concat_iff {ts : List Int64} :
    (ts ++ [t]).Pairwise (· ≤ ·) ↔ ts.Pairwise (· ≤ ·) ∧ ∀ u ∈ ts, u ≤ t := by
  simp [List.pairwise_append]

/-- `g'` lists the messages that `g` does of `id`, with `new` after them, or none. -/
def Lists (id : String) (new : List Int64) (g g' : Guarded σ) : Prop :=
  stamps g' id = stamps g id ++ new ∨ stamps g' id = []

theorem Lists.same (h : g'.chats.get id = g.chats.get id) : Lists id [] g g' :=
  .inl (by rw [stamps_of_chats h, List.append_nil])

theorem stamps_put : stamps (g.put s) id =
    if s.chatId = id then s.messages.map fun m => m.timestampMs.toInt64 else stamps g id := by
  by_cases hid : s.chatId = id
  · subst hid
    rw [if_pos rfl, stamps_of_get (Keyed.get_insert_self _ s)]
  · rw [if_neg hid, stamps_of_chats (Keyed.get_insert_of_ne _ (Ne.symm hid))]

/-- A session put in place of one with the same messages. -/
theorem Lists.replace {old : ChatSession} (hget : g.chats.get s.chatId = some old)
    (hmsgs : s.messages = old.messages) : Lists id [] g (g.put s) := by
  left
  rw [stamps_put, List.append_nil]
  split
  · next hid => rw [← hid, stamps_of_get hget, hmsgs]
  · rfl

/-- A session put in with no messages, whatever it takes the place of. -/
theorem Lists.empty (hmsgs : s.messages = []) : Lists id [] g (g.put s) := by
  by_cases hid : s.chatId = id
  · right
    rw [stamps_put, if_pos hid, hmsgs]
    rfl
  · left
    rw [stamps_put, if_neg hid, List.append_nil]

theorem Lists.of_display {g₁ : Guarded σ} {new : List Int64} (h : Lists id new g g₁)
    (hd : g'.display = g₁.display) : Lists id new g g' := by
  unfold Lists
  rw [stamps_of_display hd]
  exact h

/-! ## What the sections list -/

theorem lists_insertChat (hmsgs : s.messages = []) (faults : Faults) :
    Lists id [] g (insertChat faults s g).1 :=
  (Lists.empty hmsgs).of_display (insertChat_display faults s g)

theorem lists_setConversationNickname (faults : Faults) (c nickname : String) :
    Lists id [] g (setConversationNicknameLocked faults c nickname g).1 := by
  have hd := setConversationNicknameLocked_display faults c nickname g
  cases hget : g.chats.get c with
  | none =>
    rw [hget] at hd
    exact (Lists.same rfl).of_display hd
  | some s =>
    rw [hget] at hd
    obtain rfl := Keyed.key_of_get hget
    have hput : Lists id [] g (g.put { s with nickname := nonEmpty nickname }) :=
      .replace hget rfl
    exact hput.of_display hd

theorem lists_recordConversationStarted (faults : Faults) (c : String) (kind : ConversationKind)
    (md : Option String × Option String) :
    Lists id [] g (recordConversationStartedLocked faults c kind md g) := by
  have hd := recordConversationStartedLocked_display faults c kind md g
  by_cases hdel : c ∈ g.deleted
  · rw [if_pos hdel] at hd
    exact (Lists.same rfl).of_display hd
  · rw [if_neg hdel] at hd
    cases hget : g.chats.get c with
    | some s =>
      rw [hget] at hd
      obtain rfl := Keyed.key_of_get hget
      have hput : Lists id [] g (g.put { s with historyOnly := false }) := .replace hget rfl
      exact hput.of_display hd
    | none =>
      rw [hget] at hd
      have hput : Lists id [] g (g.put (openedSession c kind md.1 md.2 none)) := .empty rfl
      exact hput.of_display hd

variable [MessageStore σ]

theorem lists_deleteConversation (faults : Faults) (c : String) :
    Lists id [] g (deleteConversationLocked faults c g).1 := by
  rcases deleteConversationLocked_display faults c g with ⟨-, heq⟩ | ⟨-, -, hd⟩
  · rw [heq]
    exact .same rfl
  · have hforget : Lists id [] g (g.forget c) := by
      by_cases hid : id = c
      · right
        apply stamps_of_get_none
        rw [Guarded.chats_forget, Keyed.get_remove, if_pos hid]
      · apply Lists.same
        rw [Guarded.chats_forget, Keyed.get_remove, if_neg hid]
    exact hforget.of_display hd

/-- An inbound message is listed at the end, with the clock's reading. -/
theorem lists_messageReceived (hdb : g.display.chatDb.isSome) (faults : Faults) (c : String)
    (content : List UInt8) (account installation : String) (nowMs : UInt64) :
    Lists id [] g (recordMessageReceived faults c content account installation nowMs g).1 ∨
      Lists id [nowMs.toInt64] g
        (recordMessageReceived faults c content account installation nowMs g).1 := by
  have hd := recordMessageReceived_display hdb faults c content account installation nowMs
  by_cases hdel : c ∈ g.deleted
  · rw [if_pos hdel] at hd
    exact .inl ((Lists.same rfl).of_display hd)
  · rw [if_neg hdel] at hd
    by_cases hid : c = id
    · right
      subst hid
      refine Lists.of_display (.inl ?_) hd
      have hmsgs : (receivingSession c account g).messages.map (fun m => m.timestampMs.toInt64) =
          stamps g c := by
        have hshown := congrArg Prod.fst (receivingSession_shown c account g)
        rw [show (receivingSession c account g).messages = (shown g c).1 from hshown, stamps,
          getMessages_eq_shown, List.map_map]
        rfl
      rw [stamps_put, if_pos (by simp), ← hmsgs]
      simp [pushMessage, receivedEntry]
    · left
      refine Lists.of_display (.inl ?_) hd
      rw [stamps_put, if_neg (by simpa using hid), List.append_nil]

/-- A send's message is listed at the end, with the reading the send was given. -/
theorem stamps_sendMessage (hdb : g.display.chatDb.isSome) (faults : Faults)
    (c content : String) (nowMs : UInt64) :
    stamps (sendMessageLocked faults c content nowMs g).1 id =
      if c = id ∧ (g.chats.get c).isSome then stamps g id ++ [nowMs.toInt64] else stamps g id := by
  have hd : (sendMessageLocked faults c content nowMs g).1.display = _ :=
    recordMessage_display hdb faults (chatMessage c .sent nowMs (Utf8.asBytes content)) false
  rw [chatId_chatMessage] at hd
  cases hget : g.chats.get c with
  | none =>
    rw [hget] at hd
    simp [stamps_of_display hd]
  | some s =>
    rw [hget] at hd
    obtain rfl := Keyed.key_of_get hget
    rw [stamps_of_display hd, stamps_put, chatId_pushMessage]
    by_cases hid : s.chatId = id
    · rw [if_pos hid, if_pos ⟨hid, rfl⟩, ← hid, stamps_of_get hget]
      simp [pushMessage, sentEntry]
    · rw [if_neg hid, if_neg (fun h => hid h.1)]

end Stamps

/-! ## Steps -/

/-- What is in flight: a create holds an empty session, a send no reading ahead of the clock. -/
structure InFlight (s : Clocked σ) : Prop where
  blank : Blank s.threads
  past : ∀ send ∈ s.stamped, send.timestampMs.toInt64 ≤ s.clock.toInt64

/-- A session at work in which no message of `id` is listed with a reading ahead of the
clock either. -/
structure Dated (id : String) (s : Clocked σ) : Prop where
  inFlight : InFlight s
  installed : s.threads.world.module.isSome
  connected : s.guarded.display.chatDb.isSome
  listed : ∀ t ∈ stamps s.guarded id, t ≤ s.clock.toInt64

section Steps

variable [MessageStore σ] {s s' : Clocked σ} {b : Beat} {id : String}

/-- The next section of a call that is no send past libchat lists no message. -/
theorem lists_proceed {i : ℕ} {faults : Faults} {answer : Except ClientError Unit}
    {nowMs : UInt64} {call : Call} (hblank : Blank s.threads)
    (hcall : s.threads.calls[i]? = some call)
    (htakes : s.takes (.proceed i faults answer nowMs) = true) :
    Lists id [] s.guarded (call.proceed faults answer nowMs s.threads.world).1 := by
  cases call with
  | sendChecked convoId content => exact .same rfl
  | sent convoId content => simp [Clocked.takes, hcall] at htakes
  | created session event =>
    have hempty := (hblank session event (List.mem_of_getElem? hcall)).1
    exact lists_insertChat hempty faults
  | inviteChecked convoId => exact .same rfl
  | raising event => exact .same rfl

/-- A move lists a message at the clock's reading, or none. -/
theorem lists_move {mv : Move} {threads : Threads σ} (h : Dated id s)
    (htakes : s.takes mv = true) (hgo : mv ≠ .shutdown) (hs : s.threads.step mv = some threads) :
    Lists id [] s.guarded threads.guarded ∨
      Lists id [s.clock.toInt64] s.guarded threads.guarded := by
  cases mv with
  | init config env =>
    cases hs
    have hchats : (Actions.init config env s.threads.world).world.guarded.chats =
        s.guarded.chats := (touches_init h.installed "").2
    exact .inl (.same (by rw [hchats]))
  | shutdown => exact absurd rfl hgo
  | setInstallationName faults name =>
    cases hs
    left
    show Lists id [] s.guarded (setInstallationName faults name s.guarded).1
    rcases setInstallationName_cases faults name s.guarded with ⟨e, heq⟩ | ⟨-, heq⟩
    · rw [heq]
      exact .same rfl
    · rw [heq]
      exact .same rfl
  | createConversation | createGroupConversation | addGroupMember | sendMessage =>
    cases hs
    exact .inl (.same rfl)
  | setConversationNickname faults convoId nickname =>
    cases hs
    exact .inl (lists_setConversationNickname faults convoId nickname)
  | deleteConversation faults convoId =>
    cases hs
    exact .inl (lists_deleteConversation faults convoId)
  | proceed i faults answer nowMs =>
    simp only [Threads.step] at hs
    split at hs
    · cases hs
    · next call hcall =>
      cases hs
      exact .inl (lists_proceed h.inFlight.blank hcall htakes)
  | conversationStarted convoId kind answer =>
    simp only [Threads.step] at hs
    split at hs <;> cases hs
    exact .inl (.same rfl)
  | conversationRecorded faults =>
    simp only [Threads.step] at hs
    split at hs
    · cases hs
    · next started _ =>
      cases hs
      exact .inl (lists_recordConversationStarted faults started.convoId started.kind
        started.metadata)
  | messageReceived faults convoId content account installation nowMs =>
    have hclock : nowMs = s.clock := by simpa [Clocked.takes] using htakes
    subst hclock
    simp only [Threads.step] at hs
    split at hs <;> cases hs
    exact lists_messageReceived h.connected faults convoId content account installation s.clock
  | membersChanged convoId =>
    simp only [Threads.step] at hs
    split at hs <;> cases hs
    left
    show Lists id [] s.guarded (recordMembersChanged convoId s.guarded)
    unfold recordMembersChanged
    split
    · exact .same rfl
    · exact .same rfl

omit [MessageStore σ] in
/-- What is listed at the clock's reading, or not at all, keeps the order and the dates. -/
theorem ordered_of_lists {g' : Guarded σ} (h : Dated id s)
    (hordered : (stamps s.guarded id).Pairwise (· ≤ ·))
    (hlists : Lists id [] s.guarded g' ∨ Lists id [s.clock.toInt64] s.guarded g') :
    (stamps g' id).Pairwise (· ≤ ·) ∧ ∀ t ∈ stamps g' id, t ≤ s.clock.toInt64 := by
  rcases hlists with (heq | heq) | (heq | heq)
  · rw [heq, List.append_nil]
    exact ⟨hordered, h.listed⟩
  · rw [heq]
    simp
  · rw [heq]
    constructor
    · exact pairwise_concat_iff.mpr ⟨hordered, h.listed⟩
    · intro t ht
      rcases List.mem_append.mp ht with hold | hnew
      · exact h.listed t hold
      · rw [List.mem_singleton.mp hnew]
        exact Int64.le_refl _
  · rw [heq]
    simp

theorem step_tick {nowMs : UInt64} (hs : (clocked σ).step s (.tick nowMs) = some s') :
    s.clock.toInt64 ≤ nowMs.toInt64 ∧ s' = { s with clock := nowMs } := by
  simp only [clocked, Clocked.step, Option.ite_none_right_eq_some, Option.some.injEq] at hs
  exact ⟨hs.1, hs.2.symm⟩

theorem step_move {mv : Move} (hs : (clocked σ).step s (.move mv) = some s') :
    ∃ threads, s.takes mv = true ∧ s.threads.step mv = some threads ∧
      s' = { s with threads := threads } := by
  simp only [clocked, Clocked.step, Option.ite_none_right_eq_some] at hs
  obtain ⟨htakes, hmove⟩ := hs
  obtain ⟨threads, hstep, rfl⟩ := Option.map_eq_some_iff.mp hmove
  exact ⟨threads, htakes, hstep, rfl⟩

theorem step_read {i : ℕ} (hs : (clocked σ).step s (.read i) = some s') :
    ∃ convoId content, s.threads.calls[i]? = some (.sent convoId content) ∧
      s' = { s with
        threads := { s.threads with calls := s.threads.calls.eraseIdx i }
        stamped := ⟨convoId, content, s.clock⟩ :: s.stamped } := by
  simp only [clocked, Clocked.step] at hs
  split at hs
  · next convoId content hcall =>
    cases hs
    exact ⟨convoId, content, hcall, rfl⟩
  · cases hs

/-- The section of a send, as it is run. -/
theorem step_record {j : ℕ} {faults : Faults}
    (hs : (clocked σ).step s (.record j faults) = some s') :
    ∃ send, s.stamped[j]? = some send ∧ s'.clock = s.clock ∧
      s'.stamped = s.stamped.eraseIdx j ∧ s'.threads.world.module = s.threads.world.module ∧
      s'.guarded = (sendMessageLocked faults send.convoId send.content send.timestampMs
        s.guarded).1 ∧
      ∀ session event, .created session event ∈ s'.threads.calls →
        .created session event ∈ s.threads.calls := by
  simp only [clocked, Clocked.step] at hs
  split at hs
  · cases hs
  · next send hsend =>
    cases hs
    refine ⟨send, hsend, rfl, rfl, rfl, rfl, ?_⟩
    intro session event hmem
    exact created_of_mem hmem (Call.created_not_mem_proceed _)

theorem inFlight_step (h : InFlight s) (hs : (clocked σ).step s b = some s') : InFlight s' := by
  obtain ⟨hblank, hpast⟩ := h
  cases b with
  | tick nowMs =>
    obtain ⟨hlater, rfl⟩ := step_tick hs
    exact ⟨hblank, fun send hmem => Int64.le_trans (hpast send hmem) hlater⟩
  | move mv =>
    obtain ⟨threads, -, hstep, rfl⟩ := step_move hs
    exact ⟨blank_step hstep hblank, hpast⟩
  | read i =>
    obtain ⟨convoId, content, -, rfl⟩ := step_read hs
    constructor
    · intro session event hmem
      exact hblank session event (List.mem_of_mem_eraseIdx hmem)
    · intro send hmem
      rcases List.mem_cons.mp hmem with rfl | hold
      · exact Int64.le_refl _
      · exact hpast send hold
  | record j faults =>
    obtain ⟨send, -, hclock, hstamped, -, -, hcalls⟩ := step_record hs
    constructor
    · intro session event hmem
      exact hblank session event (hcalls session event hmem)
    · intro other hmem
      rw [hclock]
      rw [hstamped] at hmem
      exact hpast other (List.mem_of_mem_eraseIdx hmem)

/-- A step keeps the list oldest first just when it records no message out of its time. -/
theorem oldestFirst_step_iff (h : Dated id s) (hfirst : OldestFirst id s.guarded)
    (hgo : b ≠ .move .shutdown) (hs : (clocked σ).step s b = some s') :
    OldestFirst id s'.guarded ↔ InTime id s b := by
  have hordered := hfirst.ordered
  rw [oldestFirst_iff]
  cases b with
  | tick nowMs =>
    obtain ⟨-, rfl⟩ := step_tick hs
    exact iff_of_true hordered trivial
  | move mv =>
    obtain ⟨threads, htakes, hstep, rfl⟩ := step_move hs
    have hmv : mv ≠ .shutdown := fun heq => hgo (by rw [heq])
    exact iff_of_true (ordered_of_lists h hordered (lists_move h htakes hmv hstep)).1 trivial
  | read i =>
    obtain ⟨convoId, content, -, rfl⟩ := step_read hs
    exact iff_of_true hordered trivial
  | record j faults =>
    obtain ⟨send, hsend, -, -, -, hg, -⟩ := step_record hs
    rw [hg, stamps_sendMessage h.connected]
    constructor
    · intro hafter send' hsend' hid
      obtain rfl : send = send' := Option.some.inj (hsend.symm.trans hsend')
      by_cases hlisted : (s.guarded.chats.get send.convoId).isSome
      · rw [if_pos ⟨hid, hlisted⟩] at hafter
        exact (pairwise_concat_iff.mp hafter).2
      · -- nothing is listed of a conversation that is gone
        have hnone : s.guarded.chats.get id = none := by
          rw [← hid]
          simpa using hlisted
        simp [stamps_of_get_none hnone]
    · intro htime
      split
      · next hsame => exact pairwise_concat_iff.mpr ⟨hordered, htime send hsend hsame.1⟩
      · exact hordered

variable [LawfulMessageStore σ]

theorem dated_step (h : Dated id s) (hfirst : OldestFirst id s.guarded)
    (hgo : b ≠ .move .shutdown) (hs : (clocked σ).step s b = some s') : Dated id s' := by
  have hflight := inFlight_step h.inFlight hs
  cases b with
  | tick nowMs =>
    obtain ⟨hlater, rfl⟩ := step_tick hs
    exact ⟨hflight, h.installed, h.connected, fun t ht => Int64.le_trans (h.listed t ht) hlater⟩
  | move mv =>
    obtain ⟨threads, htakes, hstep, rfl⟩ := step_move hs
    have hmv : mv ≠ .shutdown := fun heq => hgo (by rw [heq])
    have hm := installed_step hmv hstep h.installed
    have hopen := connected_step hstep (fun _ => h.connected) hm
    exact ⟨hflight, hm, hopen,
      (ordered_of_lists h hfirst.ordered (lists_move h htakes hmv hstep)).2⟩
  | read i =>
    obtain ⟨convoId, content, -, rfl⟩ := step_read hs
    exact ⟨hflight, h.installed, h.connected, h.listed⟩
  | record j faults =>
    obtain ⟨send, hsend, hclock, -, hm, hg, -⟩ := step_record hs
    have hran : Ran s.threads s'.guarded := by
      rw [hg]
      exact .sendMessage faults send.convoId send.content send.timestampMs
    have hopen : s'.guarded.display.chatDb.isSome := by
      rw [hran.chatDb]
      exact h.connected
    refine ⟨hflight, hm ▸ h.installed, hopen, ?_⟩
    rw [hg, hclock, stamps_sendMessage h.connected]
    intro t ht
    split at ht
    · rcases List.mem_append.mp ht with hold | hnew
      · exact h.listed t hold
      · rw [List.mem_singleton.mp hnew]
        exact h.inFlight.past send (List.mem_of_getElem? hsend)
    · exact h.listed t ht

end Steps

/-! ## Runs -/

section Runs

variable [MessageStore σ] [LawfulMessageStore σ] {s s₀ s₁ : Clocked σ} {beats past : List Beat}
  {id : String}

/-- In a session that has loaded `id` oldest first and with no timestamp ahead of the clock:
every state of a run is oldest first just when each send records its message before any that
is later than its reading. -/
theorem oldest_first_iff {file : ChatDb σ} {own : Option String} {nowMs : UInt64}
    {config : ChatConfig} {env : Environment}
    (history : (clocked σ).Run (fun _ _ => True) (.start file own nowMs) past s)
    (hm : s.threads.world.module = none)
    (hinit : (clocked σ).step s (.move (.init config env)) = some s₀)
    (hm₀ : s₀.threads.world.module.isSome) (hfirst : OldestFirst id s₀.guarded)
    (hloaded : ∀ t ∈ stamps s₀.guarded id, t ≤ s₀.clock.toInt64) :
    ((clocked σ).Run (fun s b => b ≠ .move .shutdown ∧ InTime id s b) s₀ beats s₁ ↔
      (clocked σ).Run (fun s b => b ≠ .move .shutdown ∧
        ∀ s', (clocked σ).step s b = some s' → OldestFirst id s'.guarded) s₀ beats s₁) ∧
    ((clocked σ).Run (fun s b => b ≠ .move .shutdown ∧ InTime id s b) s₀ beats s₁ →
      OldestFirst id s₁.guarded) := by
  have hflight : InFlight s := by
    refine history.invariant (fun s b s' _ hs h => inFlight_step h hs) ⟨?_, ?_⟩
    · intro session event hmem
      cases hmem
    · intro send hmem
      cases hmem
  have hdated : Dated id s₀ := by
    refine ⟨inFlight_step hflight hinit, hm₀, ?_, hloaded⟩
    obtain ⟨threads, -, hstep, rfl⟩ := step_move hinit
    have hclosed : Connected s.threads := by
      intro hsome
      simp [hm] at hsome
    exact connected_step hstep hclosed hm₀
  constructor
  · refine Machine.Run.congr (I := fun s => Dated id s ∧ OldestFirst id s.guarded) ?_ ?_
      ⟨hdated, hfirst⟩
    · intro s b s' ⟨hd, hf⟩ hs
      constructor
      · rintro ⟨hgo, htime⟩
        refine ⟨hgo, ?_⟩
        intro s'' hs''
        exact (oldestFirst_step_iff hd hf hgo hs'').mpr htime
      · rintro ⟨hgo, hkeeps⟩
        exact ⟨hgo, (oldestFirst_step_iff hd hf hgo hs).mp (hkeeps s' hs)⟩
    · intro s b s' ⟨hgo, hkeeps⟩ hs ⟨hd, hf⟩
      exact ⟨dated_step hd hf hgo hs, hkeeps s' hs⟩
  · intro hrun
    have hkept : Dated id s₁ ∧ OldestFirst id s₁.guarded := by
      refine hrun.invariant (I := fun s => Dated id s ∧ OldestFirst id s.guarded) ?_
        ⟨hdated, hfirst⟩
      intro s b s' ⟨hgo, htime⟩ hs ⟨hd, hf⟩
      exact ⟨dated_step hd hf hgo hs, (oldestFirst_step_iff hd hf hgo hs).mpr htime⟩
    exact hkept.2

/-- A conversation is there, and a send in it has read the clock, which goes on. -/
def readAtOne : List Beat := [
  .move (.createConversation (.ok "c1") "peer"),
  .move (.proceed 0 noFaults (.ok ()) 0),
  .move (.proceed 0 noFaults (.ok ()) 0),
  .move (.sendMessage "c1" "hello"),
  .move (.proceed 0 noFaults (.ok ()) 0),
  .read 0,
  .tick 2]

/-- A message arrives. -/
def receivedAtTwo : Beat := .move (.messageReceived noFaults "c1" [104, 105] "peer" "device" 2)

/-- The send records its message first. -/
theorem oldest_first_iff_prompt : ∃ s₀ s₁ : Clocked LogStore,
    (clocked LogStore).step (.start emptyDb none 1)
      (.move (.init ⟨none⟩ (.up ⟨"name", "addr"⟩ []))) = some s₀ ∧
    (clocked LogStore).exec s₀ (readAtOne ++ [.record 0 noFaults, receivedAtTwo]) = some s₁ ∧
    stamps s₁.guarded "c1" = [1, 2] ∧ OldestFirst "c1" s₁.guarded := by
  have hexec : ∃ s₀ a b s₁ : Clocked LogStore,
      (clocked LogStore).step (.start emptyDb none 1)
        (.move (.init ⟨none⟩ (.up ⟨"name", "addr"⟩ []))) = some s₀ ∧
      (clocked LogStore).exec s₀ readAtOne = some a ∧
      (clocked LogStore).step a (.record 0 noFaults) = some b ∧
      (clocked LogStore).step b receivedAtTwo = some s₁ ∧
      (clocked LogStore).exec s₀ (readAtOne ++ [.record 0 noFaults, receivedAtTwo]) = some s₁ ∧
      s₀.threads.world.module.isSome ∧ stamps s₀.guarded "c1" = [] ∧
      stamps a.guarded "c1" = [] ∧ stamps s₁.guarded "c1" = [1, 2] :=
    ⟨_, _, _, _, rfl, rfl, rfl, rfl, rfl, rfl, rfl, rfl, rfl⟩
  obtain ⟨s₀, a, b, s₁, hinit, hread, hrec, hrecv, hall, hm₀, hnone, hbefore, hafter⟩ := hexec
  have hfirst : OldestFirst "c1" s₀.guarded := by
    rw [oldestFirst_iff, hnone]
    exact .nil
  have hpre : (clocked LogStore).Run (fun s b => b ≠ .move .shutdown ∧ InTime "c1" s b) s₀
      readAtOne a := (Machine.run_of_exec hread).imp (by simp [readAtOne, InTime])
  have htime : InTime "c1" a (.record 0 noFaults) := by
    intro send _ _ t ht
    rw [hbefore] at ht
    cases ht
  have hrun : (clocked LogStore).Run (fun s b => b ≠ .move .shutdown ∧ InTime "c1" s b) s₀
      (readAtOne ++ [.record 0 noFaults, receivedAtTwo]) s₁ := by
    refine hpre.append (.cons ⟨by simp, htime⟩ hrec (.single ⟨by simp [receivedAtTwo], ?_⟩ hrecv))
    exact trivial
  exact ⟨s₀, s₁, hinit, hall, hafter,
    (oldest_first_iff (.nil _) rfl hinit hm₀ hfirst (by simp [hnone])).2 hrun⟩

/-- A message is recorded between a send's reading of the clock and its section: the send's
message is listed after it with the earlier timestamp, which is then the last activity. -/
theorem send_listed_late : ∃ s₀ s₁ : Clocked LogStore,
    (clocked LogStore).step (.start emptyDb none 1)
      (.move (.init ⟨none⟩ (.up ⟨"name", "addr"⟩ []))) = some s₀ ∧
    (clocked LogStore).exec s₀ (readAtOne ++ [receivedAtTwo, .record 0 noFaults]) = some s₁ ∧
    getMessages s₁.guarded "c1" = [⟨false, "hi", 2, some "peer"⟩, ⟨true, "hello", 1, none⟩] ∧
    (s₁.guarded.chats.get "c1").map (fun s => (conversation s).lastActivityMs) = some 1 ∧
    ¬ OldestFirst "c1" s₁.guarded := by
  have hexec : ∃ s₀ s₁ : Clocked LogStore,
      (clocked LogStore).step (.start emptyDb none 1)
        (.move (.init ⟨none⟩ (.up ⟨"name", "addr"⟩ []))) = some s₀ ∧
      (clocked LogStore).exec s₀ (readAtOne ++ [receivedAtTwo, .record 0 noFaults]) = some s₁ ∧
      getMessages s₁.guarded "c1" = [⟨false, "hi", 2, some "peer"⟩, ⟨true, "hello", 1, none⟩] ∧
      (s₁.guarded.chats.get "c1").map (fun s => (conversation s).lastActivityMs) = some 1 :=
    ⟨_, _, rfl, rfl, rfl, rfl⟩
  obtain ⟨s₀, s₁, hinit, hall, hlist, hlast⟩ := hexec
  refine ⟨s₀, s₁, hinit, hall, hlist, hlast, ?_⟩
  rw [oldestFirst_iff, stamps, hlist]
  decide

end Runs

end ChatModule
