import ChatModule.Consumer
import ChatModule.History
import ChatModule.Opening

/-!
# The consumer beside an init

`initialize` spawns the event consumer before its last section, which seeds the display
with the state it read from `chat.db` beforehand. `initialising` interleaves the two: from
the spawn on the consumer handles events, first into the display an init finds, which has
no connection and no tombstones, and then, once it is seeded, into the session's. A group's
start reads the client's metadata under the module lock, which `initialize` holds until it
has returned, so the consumer waits with it.

What is handled before the seeding is in no display and in no file afterwards
(`lossless_iff`): a message is lost, a start is unless the conversation has a row already or
comes up again, and what is about a tombstoned conversation has been raised.
-/

namespace ChatModule

open Actions Inbound Persistence

variable {σ : Type}

/-! ## The interleaving -/

/-- What `initialize` has when it spawns the consumer: the state read back from the file,
the client, and the conversations it lists. -/
structure Prepared where
  state : AppState
  client : Client
  live : List String

/-- The last section of `initialize`: seed the display. -/
def Prepared.seed (p : Prepared) (g : Guarded σ) : Guarded σ :=
  { g with display := seedDisplay (markHistoryOnly p.live p.state) p.client }

/-- Where `initialize` stands: it has spawned the consumer, seeded the display, or
returned, its state installed. -/
inductive Stage
  | spawned
  | seeded
  | returned
deriving DecidableEq, Repr

/-- The process during an init, with the events the consumer has handled before the
seeding and after it. -/
structure Seeding (σ : Type) where
  world : World σ
  stage : Stage
  early : List (Handling × Event)
  late : List (Handling × Event)

/-- The init as it spawns the consumer. -/
def Seeding.spawned (w : World σ) : Seeding σ := ⟨w, .spawned, [], []⟩

/-- The consumer handles an event, or `initialize` moves on. -/
inductive SeedingStep
  | handled (h : Handling) (e : Event)
  | seed
  | install

/-- Whether handling the event takes the module lock. -/
def takesModuleLock : Event → Bool
  | .conversationStarted _ cls => cls = .group
  | _ => false

/-- `initialize` from the spawn of the consumer to its return, and the consumer beside it. -/
def initialising (σ : Type) [MessageStore σ] (p : Prepared) : Machine (Seeding σ) SeedingStep where
  step s
    | .handled h e =>
      if takesModuleLock e then none
      else
        match s.stage with
        | .spawned => some { s with world := runEvent h s.world e, early := s.early ++ [(h, e)] }
        | .seeded => some { s with world := runEvent h s.world e, late := s.late ++ [(h, e)] }
        | .returned => none
    | .seed =>
      match s.stage with
      | .spawned =>
        some { s with
          world := { s.world with guarded := p.seed s.world.guarded }
          stage := .seeded }
      | _ => none
    | .install =>
      match s.stage with
      | .seeded =>
        some { s with
          world := { s.world with module := some ⟨p.client⟩ }
          stage := .returned }
      | _ => none

/-- The writes of the events succeed. -/
def WritesSucceed : Seeding σ → SeedingStep → Prop
  | _, .handled h _ => h.faults = noFaults
  | _, _ => True

/-- The process an init finds: no session, and the display a start or a shutdown leaves,
whatever its delivery state. -/
structure Vacant (w : World σ) : Prop where
  module : w.module = none
  closed : w.guarded.display.chatDb = none
  chats : ∀ id, w.guarded.chats.get id = none
  deleted : w.guarded.deleted = ∅

/-- With no event in between, the steps make what `initialize` returns. -/
theorem initializeModule_eq_seed [MessageStore σ] {p : Prepared} {env : Environment}
    {g : Guarded σ} (hup : env.Up p.client p.live) (hload : loadState g.file = .ok p.state) :
    initializeModule env g = .ok (p.seed g, ⟨p.client⟩) :=
  initializeModule_ok_iff.mpr ⟨p.live, p.state, hup, hload, rfl⟩

/-! ## What is to be kept -/

/-- The messages received for `id` among the events. -/
def arrivals (id : String) (events : List (Handling × Event)) : List Arrival :=
  events.filterMap fun (h, e) =>
    match e with
    | .messageReceived convoId content account installation =>
      if convoId = id then some ⟨h.faults, content, account, installation, h.nowMs⟩ else none
    | _ => none

/-- The message, as it is recorded. -/
def Arrival.stored (id : String) (m : Arrival) : StoredMessage :=
  receivedMessage id m.content m.account m.installation m.nowMs

/-- Nothing of the events is lost: a conversation started is listed and has its row, a
message received is shown and recorded, and nothing was raised for a conversation that is
tombstoned in the file the init found. -/
structure Lossless [MessageStore σ] (w : World σ) (s : Seeding σ) : Prop where
  started : ∀ he ∈ s.early ++ s.late, ∀ id cls, he.2 = .conversationStarted id cls →
    id ∉ w.guarded.file.deletedChats →
      (s.world.guarded.chats.get id).isSome ∧ (s.world.guarded.file.row id).isSome
  received : ∀ id, id ∉ w.guarded.file.deletedChats →
    getMessages s.world.guarded id = loadedMessages w.guarded.file id ++
        (arrivals id (s.early ++ s.late)).map (message ∘ Arrival.entry) ∧
      s.world.guarded.file.history id = w.guarded.file.history id ++
        (arrivals id (s.early ++ s.late)).map (Arrival.stored id)
  silent : ∀ e ∈ s.world.guarded.raised.drop w.guarded.raised.length, ∀ id,
    e.convoId = some id → id ∉ w.guarded.file.deletedChats

/-- An event that may be handled before the seeding without a loss: the start of a
conversation that is not tombstoned, and that has a row or comes up again after it. -/
def Harmless (db : ChatDb σ) (late : List (Handling × Event)) : Event → Prop
  | .conversationStarted id _ => id ∉ db.deletedChats ∧
    ((db.row id).isSome ∨ ∃ he ∈ late, id ∈ he.2.opens)
  | .messageReceived .. => False
  | .conversationMembersChanged _ | .inboundError _ => True

section Arrivals

variable {id : String} {h : Handling} {e : Event} {events : List (Handling × Event)}

theorem arrivals_append (id : String) (events events' : List (Handling × Event)) :
    arrivals id (events ++ events') = arrivals id events ++ arrivals id events' :=
  List.filterMap_append

theorem arrivals_of_not_opens (hid : id ∉ e.opens) : arrivals id [(h, e)] = [] := by
  cases e with
  | messageReceived c content account installation =>
    have hne : c ≠ id := by
      intro heq
      exact hid (heq ▸ Finset.mem_singleton_self c)
    simp [arrivals, hne]
  | conversationStarted c cls => rfl
  | conversationMembersChanged c => rfl
  | inboundError message => rfl

/-- No message of `id` is among events that are all harmless. -/
theorem arrivals_of_harmless {db : ChatDb σ} {late : List (Handling × Event)}
    (hall : ∀ he ∈ events, Harmless db late he.2) (id : String) : arrivals id events = [] := by
  unfold arrivals
  rw [List.filterMap_eq_nil_iff]
  rintro ⟨h, e⟩ he
  cases e with
  | messageReceived c content account installation => exact (hall _ he).elim
  | conversationStarted c cls => rfl
  | conversationMembersChanged c => rfl
  | inboundError message => rfl

end Arrivals

/-! ## What has been raised -/

/-- In every stage: what was raised is about conversations that came up before the seeding,
or that are not tombstoned, and what came up before it was raised. -/
structure Noted (w : World σ) (s : Seeding σ) : Prop where
  grows : w.guarded.raised <+: s.world.guarded.raised
  told : ∀ he ∈ s.early, ∀ id ∈ he.2.opens,
    ∃ e ∈ s.world.guarded.raised.drop w.guarded.raised.length, e.convoId = some id
  named : ∀ e ∈ s.world.guarded.raised.drop w.guarded.raised.length, ∀ id, e.convoId = some id →
    (∃ he ∈ s.early, id ∈ he.2.opens) ∨ id ∉ w.guarded.file.deletedChats

/-- Before the seeding: nothing is written and nothing is tombstoned, and what is in the
map came up in the events. -/
structure Unseeded (w : World σ) (s : Seeding σ) : Prop where
  late : s.late = []
  closed : s.world.guarded.display.chatDb = none
  undeleted : s.world.guarded.deleted = ∅
  file : s.world.guarded.file = w.guarded.file
  opened : ∀ id, (s.world.guarded.chats.get id).isSome → ∃ he ∈ s.early, id ∈ he.2.opens

/-- From the seeding on, of a conversation that is not tombstoned: it is listed, and has its
row, when it had one or came up since; and what is shown and stored are the messages that
were loaded and those received since. -/
structure Recorded [MessageStore σ] (w : World σ) (s : Seeding σ) (id : String) : Prop where
  connected : s.world.guarded.display.chatDb.isSome
  undeleted : id ∉ s.world.guarded.deleted
  listed : (s.world.guarded.chats.get id).isSome ↔
    (w.guarded.file.row id).isSome ∨ ∃ he ∈ s.late, id ∈ he.2.opens
  row : RowSays id s.world.guarded
  unlisted : s.world.guarded.chats.get id = none → s.world.guarded.file.row id = none
  shown : getMessages s.world.guarded id = loadedMessages w.guarded.file id ++
    (arrivals id s.late).map (message ∘ Arrival.entry)
  history : s.world.guarded.file.history id = w.guarded.file.history id ++
    (arrivals id s.late).map (Arrival.stored id)

/-- From the seeding on the tombstones are those of the file. -/
structure Reseeded [MessageStore σ] (w : World σ) (s : Seeding σ) : Prop where
  deleted : s.world.guarded.deleted = w.guarded.file.deletedChats
  recorded : ∀ id, id ∉ w.guarded.file.deletedChats → Recorded w s id

/-- A row does not say whether the conversation is history-only. -/
theorem row_mark (c : ChatSession) (mark : Bool) :
    ({ c with historyOnly := mark } : ChatSession).row = c.row := rfl

section Steps

variable [MessageStore σ] {w : World σ} {s : Seeding σ} {p : Prepared} {h : Handling} {e : Event}

omit [MessageStore σ] in
/-- What is raised next comes after the rest. -/
theorem drop_raised {g g' : Guarded σ} {base new : List PluginEvent} (hgrows : base <+: g.raised)
    (hraised : g'.raised = g.raised ++ new) :
    g'.raised.drop base.length = g.raised.drop base.length ++ new := by
  rw [hraised, List.drop_append_of_le_length hgrows.length_le]

/-- An event handled before the seeding. -/
theorem Noted.early (hn : Noted w s) (hu : Unseeded w s) (h : Handling) (e : Event) :
    Noted w { s with world := runEvent h s.world e, early := s.early ++ [(h, e)] } := by
  obtain ⟨new, hraised, habout, hnews⟩ := runEvent_raised h s.world e
  have hdrop := drop_raised hn.grows hraised
  refine ⟨?_, ?_, ?_⟩
  · rw [hraised]
    exact hn.grows.trans (List.prefix_append _ _)
  · intro he hhe id hid
    rw [hdrop]
    rcases List.mem_append.mp hhe with hold | hnew
    · obtain ⟨e', he', hname⟩ := hn.told he hold id hid
      exact ⟨e', List.mem_append_left _ he', hname⟩
    · rw [List.mem_singleton.mp hnew] at hid
      cases hget : s.world.guarded.chats.get id with
      | none =>
        obtain ⟨e', he', hname⟩ := hnews id hid (by rw [hu.undeleted]; simp) hget
        exact ⟨e', List.mem_append_right _ he', hname⟩
      | some c =>
        -- it is in the map already, so it came up before, and was raised then
        obtain ⟨he', hbefore, hopens⟩ := hu.opened id (by rw [hget]; rfl)
        obtain ⟨e', hin, hname⟩ := hn.told he' hbefore id hopens
        exact ⟨e', List.mem_append_left _ hin, hname⟩
  · intro e' he' id hname
    rw [hdrop] at he'
    rcases List.mem_append.mp he' with hold | hnew
    · rcases hn.named e' hold id hname with ⟨he, hbefore, hopens⟩ | hnot
      · exact Or.inl ⟨he, List.mem_append_left _ hbefore, hopens⟩
      · exact Or.inr hnot
    · obtain ⟨id', hname', -, hid | hsome⟩ := habout e' hnew
      all_goals obtain rfl : id' = id := Option.some.inj (hname'.symm.trans hname)
      · exact Or.inl ⟨(h, e), List.mem_append_right _ (List.mem_singleton_self _), hid⟩
      · obtain ⟨he, hbefore, hopens⟩ := hu.opened id' hsome
        exact Or.inl ⟨he, List.mem_append_left _ hbefore, hopens⟩

/-- An event handled after the seeding raises nothing of a tombstoned conversation. -/
theorem Noted.late (hn : Noted w s) (hr : Reseeded w s) (h : Handling) (e : Event) :
    Noted w { s with world := runEvent h s.world e, late := s.late ++ [(h, e)] } := by
  obtain ⟨new, hraised, habout, -⟩ := runEvent_raised h s.world e
  have hdrop := drop_raised hn.grows hraised
  refine ⟨?_, ?_, ?_⟩
  · rw [hraised]
    exact hn.grows.trans (List.prefix_append _ _)
  · intro he hhe id hid
    obtain ⟨e', he', hname⟩ := hn.told he hhe id hid
    rw [hdrop]
    exact ⟨e', List.mem_append_left _ he', hname⟩
  · intro e' he' id hname
    rw [hdrop] at he'
    rcases List.mem_append.mp he' with hold | hnew
    · exact hn.named e' hold id hname
    · obtain ⟨id', hname', hdel, -⟩ := habout e' hnew
      obtain rfl : id' = id := Option.some.inj (hname'.symm.trans hname)
      rw [hr.deleted] at hdel
      exact Or.inr hdel

variable [LawfulMessageStore σ]

theorem Unseeded.handled (hu : Unseeded w s) (h : Handling) (e : Event) :
    Unseeded w { s with world := runEvent h s.world e, early := s.early ++ [(h, e)] } := by
  refine ⟨hu.late, ?_, ?_, ?_, ?_⟩
  · rw [runEvent_chatDb]
    exact hu.closed
  · rw [runEvent_deleted]
    exact hu.undeleted
  · rw [runEvent_file_of_closed hu.closed]
    exact hu.file
  · intro id hsome
    by_cases hid : id ∈ e.opens
    · exact ⟨(h, e), List.mem_append_right _ (List.mem_singleton_self _), hid⟩
    · rw [(runEvent_sameAt h s.world e hid).chat] at hsome
      obtain ⟨he, hbefore, hopens⟩ := hu.opened id hsome
      exact ⟨he, List.mem_append_left _ hbefore, hopens⟩

/-- The seeding throws away what was handled before it. -/
theorem Unseeded.seeded (hu : Unseeded w s) (hload : loadState w.guarded.file = .ok p.state) :
    Reseeded w { s with
      world := { s.world with guarded := p.seed s.world.guarded }
      stage := .seeded } := by
  have hload' : loadState s.world.guarded.file = .ok p.state := by rw [hu.file, hload]
  have hseeded : Seeded s.world.guarded p.client p.live (p.seed s.world.guarded) :=
    seeded_of_loadState hload'
  have hchats : ∀ id, (p.seed s.world.guarded).chats.get id = (w.guarded.file.row id).map
      fun row =>
        { loadedSession w.guarded.file id row with historyOnly := !p.live.contains id } := by
    intro id
    rw [hseeded.chats id, hu.file]
  have hrow : ∀ id, (p.seed s.world.guarded).file.row id = w.guarded.file.row id := by
    intro id
    rw [hseeded.file, hu.file]
  constructor
  · rw [hseeded.deleted, hu.file]
  · intro id hid
    refine ⟨?_, ?_, ?_, ?_, ?_, ?_, ?_⟩
    · rw [hseeded.chatDb]
      rfl
    · rw [hseeded.deleted, hu.file]
      exact hid
    · rw [hchats id, hu.late]
      simp
    · intro c hget
      rw [hchats id] at hget
      obtain ⟨row, hold, rfl⟩ := Option.map_eq_some_iff.mp hget
      rw [hrow id, hold, row_mark, loadedSession_row]
    · intro hget
      rw [hchats id, Option.map_eq_none_iff] at hget
      rw [hrow id, hget]
    · rw [(Actions.Seeded.shown_eq hseeded id).1, hu.file, hu.late]
      simp [arrivals]
    · rw [hseeded.file, hu.file, hu.late]
      simp [arrivals]

/-- An event of another conversation. -/
theorem Recorded.other {id : String} (hr : Recorded w s id) (hid : id ∉ e.opens) (h : Handling) :
    Recorded w { s with world := runEvent h s.world e, late := s.late ++ [(h, e)] } id := by
  have hsame := runEvent_sameAt h s.world e hid
  have hmsgs : arrivals id (s.late ++ [(h, e)]) = arrivals id s.late := by
    rw [arrivals_append, arrivals_of_not_opens hid, List.append_nil]
  refine ⟨?_, ?_, ?_, ?_, ?_, ?_, ?_⟩
  · rw [runEvent_chatDb]
    exact hr.connected
  · rw [runEvent_deleted]
    exact hr.undeleted
  · rw [hsame.chat, hr.listed]
    simp [hid]
  · intro c hget
    rw [hsame.chat] at hget
    rw [hsame.row]
    exact hr.row c hget
  · intro hget
    rw [hsame.chat] at hget
    rw [hsame.row]
    exact hr.unlisted hget
  · rw [hmsgs, ← hr.shown]
    unfold getMessages
    rw [hsame.chat]
  · rw [hmsgs, hsame.history]
    exact hr.history

omit [LawfulMessageStore σ] in
/-- The start of the conversation itself. -/
theorem Recorded.started {id : String} {cls : ConversationClass} (hr : Recorded w s id)
    (h : Handling) (hf : h.faults = noFaults) :
    Recorded w { s with
      world := runEvent h s.world (.conversationStarted id cls)
      late := s.late ++ [(h, .conversationStarted id cls)] } id := by
  have hfinds : Finds id (s.world.guarded.chats.get id) s.world.guarded :=
    ⟨rfl, hr.undeleted, hr.connected⟩
  have hnext : Finds id _ (runEvent h s.world (.conversationStarted id cls)).guarded :=
    hfinds.started h.faults (kindForClass cls)
      (startedMetadata (kindForClass cls) (withClient s.world h.groupMetadata))
  have hrow : RowSays id (runEvent h s.world (.conversationStarted id cls)).guarded :=
    hr.row.started hfinds (by rw [hf]; rfl) (kindForClass cls)
      (startedMetadata (kindForClass cls) (withClient s.world h.groupMetadata))
  have hshown : getMessages (runEvent h s.world (.conversationStarted id cls)).guarded id =
      getMessages s.world.guarded id := by
    rw [getMessages_eq_shown, getMessages_eq_shown]
    have htouches := touches_recordConversationStarted h.faults id (kindForClass cls)
      (startedMetadata (kindForClass cls) (withClient s.world h.groupMetadata)) s.world.guarded
    have heq := htouches.shown hnext.undeleted
    rw [List.append_nil] at heq
    exact congrArg (fun x => x.1.map message) heq
  have hmsgs : arrivals id (s.late ++ [(h, .conversationStarted id cls)]) = arrivals id s.late := by
    rw [arrivals_append]
    exact List.append_nil _
  refine ⟨hnext.connected, hnext.undeleted, ?_, hrow, ?_, ?_, ?_⟩
  · rw [hnext.chat]
    simp [Event.opens]
  · intro hnone
    rw [hnext.chat] at hnone
    cases hnone
  · rw [hmsgs, hshown]
    exact hr.shown
  · rw [hmsgs, ← hr.history]
    show (recordConversationStartedLocked h.faults id _ _ s.world.guarded).file.history id = _
    rw [recordConversationStartedLocked_history]

/-- A message of the conversation itself. -/
theorem Recorded.message {id : String} {content : List UInt8} {account installation : String}
    (hr : Recorded w s id) (h : Handling) (hf : h.faults = noFaults) :
    Recorded w { s with
      world := runEvent h s.world (.messageReceived id content account installation)
      late := s.late ++ [(h, .messageReceived id content account installation)] } id := by
  have hfinds : Finds id (s.world.guarded.chats.get id) s.world.guarded :=
    ⟨rfl, hr.undeleted, hr.connected⟩
  have hmsgs : arrivals id (s.late ++ [(h, .messageReceived id content account installation)]) =
      arrivals id s.late ++ [⟨h.faults, content, account, installation, h.nowMs⟩] := by
    rw [arrivals_append]
    simp [arrivals]
  generalize hm : (⟨h.faults, content, account, installation, h.nowMs⟩ : Arrival) = m at hmsgs
  have hrun : (runEvent h s.world (.messageReceived id content account installation)).guarded =
      (recordMessageReceived m.faults id m.content m.account m.installation m.nowMs
        s.world.guarded).1 := by
    rw [← hm]
    rfl
  have hfaults : m.faults = noFaults := by
    rw [← hm]
    exact hf
  have hnext := hfinds.received m
  have hwrite := recordMessageReceived_file hr.connected hr.undeleted m.content m.account
    m.installation m.nowMs
  rw [← hfaults] at hwrite
  obtain ⟨hok, hfile⟩ := hwrite
  have hrow : RowSays id (recordMessageReceived m.faults id m.content m.account m.installation
      m.nowMs s.world.guarded).1 := by
    apply hr.row.received hfinds m
    intro _
    exact hok
  refine ⟨?_, ?_, ?_, ?_, ?_, ?_, ?_⟩
  · rw [hrun]
    exact hnext.connected
  · rw [hrun]
    exact hnext.undeleted
  · rw [hrun, hnext.chat]
    simp [Event.opens]
  · rw [hrun]
    exact hrow
  · intro hnone
    rw [hrun, hnext.chat] at hnone
    cases hnone
  · have htouches := touches_messageReceived hr.connected m.faults id m.content m.account
      m.installation m.nowMs
    have heq := htouches.shown hnext.undeleted
    rw [hmsgs, hrun, List.map_append, ← List.append_assoc, ← hr.shown, getMessages_eq_shown,
      getMessages_eq_shown, heq, List.map_append]
    rfl
  · rw [hmsgs, hrun, hfile, List.map_append, ← List.append_assoc, ← hr.history]
    unfold recorded
    split
    all_goals simp [ChatDb.history_withMessage, Arrival.stored]

theorem Reseeded.handled (hr : Reseeded w s) (h : Handling) (hf : h.faults = noFaults)
    (e : Event) :
    Reseeded w { s with world := runEvent h s.world e, late := s.late ++ [(h, e)] } := by
  constructor
  · rw [runEvent_deleted]
    exact hr.deleted
  · intro id hid
    by_cases hopens : id ∈ e.opens
    · cases e with
      | conversationStarted c cls =>
        obtain rfl : id = c := Finset.mem_singleton.mp hopens
        exact (hr.recorded id hid).started h hf
      | messageReceived c content account installation =>
        obtain rfl : id = c := Finset.mem_singleton.mp hopens
        exact (hr.recorded id hid).message h hf
      | conversationMembersChanged c => cases hopens
      | inboundError message => cases hopens
    · exact (hr.recorded id hid).other hopens h

/-- What holds of an init and its consumer in every state they reach. -/
structure Attending (w : World σ) (s : Seeding σ) : Prop where
  noted : Noted w s
  unseeded : s.stage = .spawned → Unseeded w s
  reseeded : s.stage ≠ .spawned → Reseeded w s

omit [LawfulMessageStore σ] in
theorem attending_spawned (hw : Vacant w) : Attending w (.spawned w) := by
  refine ⟨⟨List.prefix_refl _, ?_, ?_⟩, ?_, ?_⟩
  · intro he hhe
    cases hhe
  · intro e he
    simp [Seeding.spawned] at he
  · intro _
    refine ⟨rfl, hw.closed, hw.deleted, rfl, ?_⟩
    intro id hsome
    simp [Seeding.spawned, hw.chats id] at hsome
  · intro hne
    exact absurd rfl hne

theorem attending_step {l : SeedingStep} {s' : Seeding σ}
    (hload : loadState w.guarded.file = .ok p.state) (hP : WritesSucceed s l)
    (hstep : (initialising σ p).step s l = some s') (ha : Attending w s) : Attending w s' := by
  cases l with
  | handled h e =>
    unfold initialising at hstep
    simp only at hstep
    split at hstep
    · cases hstep
    · cases hstage : s.stage with
      | spawned =>
        simp only [hstage, Option.some.injEq] at hstep
        subst hstep
        have hu := ha.unseeded hstage
        refine ⟨?_, ?_, ?_⟩
        · simpa [hstage] using ha.noted.early hu h e
        · intro _
          simpa [hstage] using hu.handled h e
        · intro hne
          exact absurd rfl hne
      | seeded =>
        simp only [hstage, Option.some.injEq] at hstep
        subst hstep
        have hr := ha.reseeded (by rw [hstage]; nofun)
        refine ⟨?_, ?_, ?_⟩
        · simpa [hstage] using ha.noted.late hr h e
        · nofun
        · intro _
          simpa [hstage] using hr.handled h hP e
      | returned => simp [hstage] at hstep
  | seed =>
    unfold initialising at hstep
    simp only at hstep
    split at hstep
    · rename_i hstage
      cases hstep
      have hn := ha.noted
      refine ⟨⟨hn.grows, hn.told, hn.named⟩, nofun, ?_⟩
      intro _
      exact (ha.unseeded hstage).seeded hload
    · cases hstep
  | install =>
    unfold initialising at hstep
    simp only at hstep
    split at hstep
    · rename_i hstage
      cases hstep
      have hn := ha.noted
      have hr := ha.reseeded (by rw [hstage]; nofun)
      refine ⟨⟨hn.grows, hn.told, hn.named⟩, nofun, ?_⟩
      intro _
      refine ⟨hr.deleted, ?_⟩
      intro id hid
      have hrec := hr.recorded id hid
      exact ⟨hrec.connected, hrec.undeleted, hrec.listed, hrec.row, hrec.unlisted, hrec.shown,
        hrec.history⟩
    · cases hstep

end Steps

/-! ## Runs -/

section Runs

variable [MessageStore σ] [LawfulMessageStore σ] {w : World σ} {s : Seeding σ} {p : Prepared}
  {steps : List SeedingStep}

omit [LawfulMessageStore σ] in
/-- Once the display is seeded, nothing is lost exactly when nothing but harmless starts
came before it. -/
theorem Attending.lossless_iff (ha : Attending w s) (hstage : s.stage ≠ .spawned) :
    Lossless w s ↔ ∀ he ∈ s.early, Harmless w.guarded.file s.late he.2 := by
  have hr := ha.reseeded hstage
  constructor
  · -- each loss is seen in what is shown, in the file, or in what was raised
    intro hk
    rintro ⟨h, e⟩ hhe
    have hpresent : ∀ id ∈ e.opens, id ∉ w.guarded.file.deletedChats := by
      intro id hid
      obtain ⟨e', he', hname⟩ := ha.noted.told (h, e) hhe id hid
      exact hk.silent e' he' id hname
    cases e with
    | conversationStarted id cls =>
      have hid := hpresent id (Finset.mem_singleton_self id)
      refine ⟨hid, (hr.recorded id hid).listed.mp ?_⟩
      exact (hk.started (h, _) (List.mem_append_left _ hhe) id cls rfl hid).1
    | messageReceived id content account installation =>
      have hid := hpresent id (Finset.mem_singleton_self id)
      have hall := (hk.received id hid).1
      rw [(hr.recorded id hid).shown, arrivals_append, List.map_append] at hall
      have hnil : (arrivals id s.early).map (message ∘ Arrival.entry) = [] := by
        have hlen := congrArg List.length (List.append_cancel_left hall)
        rw [List.length_append] at hlen
        apply List.eq_nil_of_length_eq_zero
        omega
      have hin : (⟨h.faults, content, account, installation, h.nowMs⟩ : Arrival) ∈
          arrivals id s.early := by
        unfold arrivals
        rw [List.mem_filterMap]
        exact ⟨_, hhe, by simp⟩
      rw [List.map_eq_nil_iff.mp hnil] at hin
      cases hin
    | conversationMembersChanged id => trivial
    | inboundError message => trivial
  · intro hall
    have hnone : ∀ id, arrivals id (s.early ++ s.late) = arrivals id s.late := by
      intro id
      rw [arrivals_append, arrivals_of_harmless hall, List.nil_append]
    refine ⟨?_, ?_, ?_⟩
    · rintro ⟨h, e⟩ hhe id cls rfl hid
      have hrec := hr.recorded id hid
      have hsome : (s.world.guarded.chats.get id).isSome := by
        apply hrec.listed.mpr
        rcases List.mem_append.mp hhe with hearly | hlate
        · exact (hall _ hearly).2
        · exact Or.inr ⟨_, hlate, Finset.mem_singleton_self id⟩
      obtain ⟨c, hget⟩ := Option.isSome_iff_exists.mp hsome
      refine ⟨hsome, ?_⟩
      rw [hrec.row c hget]
      rfl
    · intro id hid
      rw [hnone id]
      exact ⟨(hr.recorded id hid).shown, (hr.recorded id hid).history⟩
    · intro e he id hname
      rcases ha.noted.named e he id hname with ⟨⟨h, e'⟩, hearly, hopens⟩ | hnot
      · have hharmless := hall _ hearly
        cases e' with
        | conversationStarted c cls =>
          rw [Finset.mem_singleton.mp hopens]
          exact hharmless.1
        | messageReceived c content account installation => exact hharmless.elim
        | conversationMembersChanged c => cases hopens
        | inboundError message => cases hopens
      · exact hnot

/-- However the events that the consumer handles fall around the seeding: when the init
has returned, nothing of them is lost if and only if before the seeding there were none
but starts of conversations that are not tombstoned and that had a row already or came up
again afterwards. -/
theorem init_keeps_iff (hw : Vacant w) (hload : loadState w.guarded.file = .ok p.state)
    (hr : (initialising σ p).Run WritesSucceed (.spawned w) steps s)
    (hdone : s.stage = .returned) :
    Lossless w s ↔ ∀ he ∈ s.early, Harmless w.guarded.file s.late he.2 := by
  have ha : Attending w s := hr.invariant
    (fun _ _ _ hP hs h => attending_step hload hP hs h) (attending_spawned hw)
  apply ha.lossless_iff
  rw [hdone]
  nofun

/-- An init over an empty file. -/
def fresh : Prepared := ⟨AppState.default, ⟨"name", "addr"⟩, []⟩

/-- A message of "c1" and the clock while it is handled. -/
def greetingEvent : Handling × Event :=
  (⟨noFaults, .error "no such group", 1⟩, .messageReceived "c1" [104, 105] "peer" "device")

/-- The start of "c1". -/
def startEvent : Handling × Event :=
  (⟨noFaults, .error "no such group", 0⟩, .conversationStarted "c1" .dm)

/-- "c1" starts before the seeding, and again with a message after it. -/
def startedEarly : List SeedingStep := [
  .handled startEvent.1 startEvent.2, .seed,
  .handled greetingEvent.1 greetingEvent.2, .install]

theorem init_keeps_iff_hello : ∃ s : Seeding LogStore,
    (initialising LogStore fresh).exec (.spawned (World.start emptyDb none)) startedEarly =
      some s ∧
    s.early = [startEvent] ∧ (s.world.guarded.file.history "c1").length = 1 ∧
    Lossless (World.start emptyDb none) s := by
  have hexec : ∃ s : Seeding LogStore,
      (initialising LogStore fresh).exec (.spawned (World.start emptyDb none)) startedEarly =
        some s ∧
      s.stage = .returned ∧ s.early = [startEvent] ∧ s.late = [greetingEvent] ∧
      (s.world.guarded.file.history "c1").length = 1 :=
    ⟨_, rfl, rfl, rfl, rfl, rfl⟩
  obtain ⟨s, hall, hdone, hearly, hlate, hhistory⟩ := hexec
  have hr : (initialising LogStore fresh).Run WritesSucceed (.spawned (World.start emptyDb none))
      startedEarly s := by
    apply (Machine.run_of_exec hall).imp
    intro l hl _ _
    simp only [startedEarly, List.mem_cons, List.not_mem_nil, or_false] at hl
    rcases hl with rfl | rfl | rfl | rfl
    · rfl
    · trivial
    · rfl
    · trivial
  have hvacant : Vacant (World.start (emptyDb : ChatDb LogStore) none) :=
    ⟨rfl, rfl, fun _ => rfl, rfl⟩
  refine ⟨s, hall, hearly, hhistory, (init_keeps_iff hvacant rfl hr hdone).mpr ?_⟩
  rw [hearly, hlate]
  rintro he hmem
  rw [List.mem_singleton.mp hmem]
  -- no row yet, but the message brings the conversation up again
  refine ⟨Finset.notMem_empty _, Or.inr ⟨greetingEvent, List.mem_singleton_self _, ?_⟩⟩
  exact Finset.mem_singleton_self _

/-- A message handled before the seeding is neither shown nor recorded. -/
theorem init_loses_early_message : ∃ s : Seeding LogStore,
    (initialising LogStore fresh).exec (.spawned (World.start emptyDb none))
      [.handled greetingEvent.1 greetingEvent.2, .seed, .install] = some s ∧
    getMessages s.world.guarded "c1" = [] ∧ s.world.guarded.file.history "c1" = [] ∧
    ¬ Lossless (World.start emptyDb none) s := by
  refine ⟨_, rfl, rfl, rfl, ?_⟩
  intro hk
  have hshown := (hk.received "c1" (Finset.notMem_empty _)).1
  cases hshown

end Runs

end ChatModule
