import ChatModule.Consumer
import ChatModule.Sequential

/-!
# The conversations the client holds

libchat keeps its conversations to itself. What the module knows of them is what an init
is told (`list_all_conversations`), what a create returns and what a `ConversationStarted`
announces, and `history_only` is to say which of the listed conversations are not among
them. `attended` runs the module beside a client that is no more than the set of ids it
holds and the events it has raised.

`Attuned` ties the two together, and `history_only_iff_not_held` reads it off: a listed
conversation that is not history-only is held, and once the raised events are handled a
listed conversation that is held is not history-only, unless it is tombstoned.
-/

namespace ChatModule

open Actions Inbound Persistence

variable {σ : Type}

/-! ## What the sections do to the flag -/

/-- The listed conversations keep their flag, but for some of `live`, which are not
history-only; and no tombstone is lost. -/
structure Marked (live : Finset String) (g g' : Guarded σ) : Prop where
  flag : ∀ id c', g'.chats.get id = some c' → (c'.historyOnly = false ∧ id ∈ live) ∨
    ∃ c, g.chats.get id = some c ∧ c.historyOnly = c'.historyOnly
  remembers : g.deleted ⊆ g'.deleted

section Marked

variable {g g' g'' : Guarded σ} {live : Finset String} {s : ChatSession} {id : String}

namespace Marked

theorem of_display (h : Marked live g g') (hd : g''.display = g'.display) : Marked live g g'' := by
  constructor
  · intro id c' hget
    rw [Guarded.chats, hd] at hget
    exact h.flag id c' hget
  · rw [Guarded.deleted, Guarded.deleted, hd]
    exact h.remembers

theorem refl (live : Finset String) (g : Guarded σ) : Marked live g g := by
  constructor
  · intro id c' hget
    exact Or.inr ⟨c', hget, rfl⟩
  · exact Finset.Subset.refl _

theorem trans (h : Marked live g g') (h' : Marked live g' g'') : Marked live g g'' := by
  constructor
  · intro id c'' hget
    rcases h'.flag id c'' hget with hlive | ⟨c', hget', hflag'⟩
    · exact Or.inl hlive
    · rcases h.flag id c' hget' with ⟨hfalse, hmem⟩ | ⟨c, hold, hflag⟩
      · exact Or.inl ⟨hflag' ▸ hfalse, hmem⟩
      · exact Or.inr ⟨c, hold, hflag.trans hflag'⟩
  · exact h.remembers.trans h'.remembers

theorem mono {live' : Finset String} (h : Marked live g g') (hsub : live ⊆ live') :
    Marked live' g g' := by
  refine ⟨?_, h.remembers⟩
  intro id c' hget
  rcases h.flag id c' hget with ⟨hfalse, hmem⟩ | hsame
  · exact Or.inl ⟨hfalse, hsub hmem⟩
  · exact Or.inr hsame

/-- A session is put that is live, or has the flag of the one it replaces. -/
theorem put (hput : (s.historyOnly = false ∧ s.chatId ∈ live) ∨
    ∃ c, g.chats.get s.chatId = some c ∧ c.historyOnly = s.historyOnly) :
    Marked live g (g.put s) := by
  refine ⟨?_, Finset.Subset.refl _⟩
  intro id c' hget
  rw [Guarded.chats_put] at hget
  by_cases hid : id = s.chatId
  · subst hid
    rw [Keyed.get_insert_self, Option.some.injEq] at hget
    subst hget
    exact hput
  · rw [Keyed.get_insert_of_ne _ hid] at hget
    exact Or.inr ⟨c', hget, rfl⟩

/-- A change of a session that is there leaves the flag. -/
theorem replace {s' : ChatSession} (hget : g.chats.get id = some s) (hid : s'.chatId = s.chatId)
    (hflag : s.historyOnly = s'.historyOnly) : Marked live g (g.put s') := by
  apply put
  rw [hid, Keyed.key_of_get hget]
  exact Or.inr ⟨s, hget, hflag⟩

theorem forget (g : Guarded σ) : Marked live g (g.forget id) := by
  constructor
  · intro id' c' hget
    rw [Guarded.chats_forget, Keyed.get_remove] at hget
    split at hget
    · cases hget
    · exact Or.inr ⟨c', hget, rfl⟩
  · exact Finset.subset_insert id g.deleted

end Marked

theorem marked_setConversationNickname (faults : Faults) (id nickname : String) (g : Guarded σ) :
    Marked ∅ g (setConversationNicknameLocked faults id nickname g).1 := by
  have hd := setConversationNicknameLocked_display faults id nickname g
  cases hget : g.chats.get id with
  | none =>
    rw [hget] at hd
    exact (Marked.refl ∅ g).of_display hd
  | some s =>
    have hsame : Marked ∅ g (g.put { s with nickname := nonEmpty nickname }) :=
      .replace hget rfl rfl
    rw [hget] at hd
    exact hsame.of_display hd

/-- A started conversation is live from then on, unless it is tombstoned. -/
theorem marked_conversationStarted (faults : Faults) (id : String) (kind : ConversationKind)
    (md : Option String × Option String) (g : Guarded σ) :
    Marked {id} g (recordConversationStartedLocked faults id kind md g) ∧
      (id ∉ g.deleted → ∀ c', (recordConversationStartedLocked faults id kind md g).chats.get id =
        some c' → c'.historyOnly = false) := by
  have hd := recordConversationStartedLocked_display faults id kind md g
  by_cases hdel : id ∈ g.deleted
  · rw [if_pos hdel] at hd
    exact ⟨(Marked.refl _ g).of_display hd, fun hnot => absurd hdel hnot⟩
  · -- new or known, what is put is live
    have hput : ∃ s : ChatSession, s.chatId = id ∧ s.historyOnly = false ∧
        (recordConversationStartedLocked faults id kind md g).display = (g.put s).display := by
      rw [if_neg hdel] at hd
      cases hget : g.chats.get id with
      | none =>
        rw [hget] at hd
        exact ⟨_, rfl, rfl, hd⟩
      | some s =>
        rw [hget] at hd
        have hid : s.chatId = id := Keyed.key_of_get hget
        exact ⟨{ s with historyOnly := false }, hid, rfl, hd⟩
    obtain ⟨s, rfl, hfalse, hd⟩ := hput
    constructor
    · have hlive : Marked {s.chatId} g (g.put s) :=
        .put (Or.inl ⟨hfalse, Finset.mem_singleton_self _⟩)
      exact hlive.of_display hd
    · intro _ c' hget
      rw [Guarded.chats, hd] at hget
      obtain rfl : s = c' := Option.some.inj ((Keyed.get_insert_self g.chats s).symm.trans hget)
      exact hfalse

variable [MessageStore σ]

theorem marked_recordMessage (faults : Faults) (m : StoredMessage) (chatChanged : Bool)
    (g : Guarded σ) : Marked live g (recordMessage faults m chatChanged g).1 := by
  rcases recordMessage_cases faults m chatChanged g with
    ⟨-, heq⟩ | ⟨-, heq⟩ | ⟨s, hget, -, ⟨e, heq⟩ | heq⟩
  · rw [heq]
    exact .refl live g
  · rw [heq]
    exact .refl live g
  · rw [heq]
    exact .replace hget rfl rfl
  · have hsame : Marked live g (g.put (pushMessage s m)) := .replace hget rfl rfl
    rw [heq]
    exact hsame.of_display rfl

/-- A message opens its conversation live, and leaves the flag of a known one. -/
theorem marked_messageReceived (faults : Faults) (id : String) (content : List UInt8)
    (account installation : String) (t : UInt64) (g : Guarded σ) :
    Marked {id} g (recordMessageReceived faults id content account installation t g).1 := by
  rcases recordMessageReceived_cases faults id content account installation t g with
    ⟨-, heq⟩ | ⟨-, r, rfl, heq⟩
  · rw [heq]
    exact .refl _ g
  · have hput : Marked {id} g (g.put (receivingSession id account g)) := by
      apply Marked.put
      rw [chatId_receivingSession]
      unfold receivingSession
      cases hget : g.chats.get id with
      | none =>
        refine Or.inl ⟨?_, Finset.mem_singleton_self id⟩
        simp [openedSession]
      | some s =>
        refine Or.inr ⟨s, rfl, ?_⟩
        simp only [Option.getD_some]
        split <;> rfl
    rw [heq]
    exact (hput.trans (marked_recordMessage _ _ _ _)).of_display rfl

theorem marked_deleteConversation (faults : Faults) (id : String) (g : Guarded σ) :
    Marked live g (deleteConversationLocked faults id g).1 := by
  rcases deleteConversationLocked_display faults id g with ⟨-, heq⟩ | ⟨-, -, hd⟩
  · rw [heq]
    exact .refl live g
  · exact (Marked.forget g).of_display hd

end Marked

/-! ## The operations -/

section Operations

variable [MessageStore σ] {w : World σ}

/-- An event makes no conversation live but its own. -/
theorem marked_runEvent (h : Handling) (w : World σ) (e : Event) :
    Marked e.opens w.guarded (runEvent h w e).guarded := by
  cases e with
  | conversationStarted id cls => exact (marked_conversationStarted _ _ _ _ _).1
  | messageReceived id content account installation => exact marked_messageReceived _ _ _ _ _ _ _
  | conversationMembersChanged id =>
    exact (Marked.refl ∅ w.guarded).of_display (recordMembersChanged_display _ _)
  | inboundError message => exact .refl ∅ w.guarded

/-- The ids a call comes to hold: what a create returns. -/
def newlyHeld (w : World σ) (op : Op) : Finset String :=
  if w.module.isSome then op.created.toFinset else ∅

omit [MessageStore σ] in
/-- A create puts a live session under the id the client returns. -/
theorem marked_create {session : String → ChatSession}
    (hsession : ∀ id, (session id).chatId = id ∧ (session id).historyOnly = false)
    (created : String → PluginEvent) (faults : Faults) (answer : Except ClientError String)
    (w : World σ) :
    Marked (if w.module.isSome then answer.toOption.toFinset else ∅) w.guarded
        (create session created faults answer w).1.guarded ∧
      ∀ id ∈ (if w.module.isSome then answer.toOption.toFinset else ∅), ∀ c',
        (create session created faults answer w).1.guarded.chats.get id = some c' →
          c'.historyOnly = false := by
  unfold create
  cases hm : w.module with
  | none =>
    simp only [withClient, hm]
    exact ⟨.refl _ _, by simp⟩
  | some ms =>
    cases answer with
    | error e =>
      simp only [withClient, hm]
      exact ⟨.refl _ _, by simp [Except.toOption]⟩
    | ok id =>
      obtain ⟨hid, hfalse⟩ := hsession id
      simp only [withClient, hm, Except.mapError]
      have hd : (finish (underDisplay w (insertChat faults (session id)))
          (created id) id).1.guarded.display = (w.guarded.put (session id)).display := by
        rw [finish_display]
        exact insertChat_display _ _ _
      constructor
      · have hput : Marked {(session id).chatId} w.guarded (w.guarded.put (session id)) :=
          .put (Or.inl ⟨hfalse, Finset.mem_singleton_self _⟩)
        rw [hid] at hput
        exact hput.of_display hd
      · intro id' hid' c' hget
        obtain rfl : id' = id := by simpa [Except.toOption] using hid'
        rw [Guarded.chats, hd] at hget
        have hself := Keyed.get_insert_self w.guarded.chats (session id')
        rw [hid] at hself
        obtain rfl : session id' = c' := Option.some.inj (hself.symm.trans hget)
        exact hfalse

/-- What a call other than an init or a shutdown does to the flags. -/
theorem marked_call {op : Op} (hinit : ∀ config env, op ≠ .init config env)
    (hgo : op ≠ .shutdown) (hcall : op.isEvent = false) :
    Marked (newlyHeld w op) w.guarded (op.run w).guarded ∧
      ∀ id ∈ newlyHeld w op, ∀ c', (op.run w).guarded.chats.get id = some c' →
        c'.historyOnly = false := by
  have hnone : op.created = none → ∀ id ∈ newlyHeld w op, ∀ c',
      (op.run w).guarded.chats.get id = some c' → c'.historyOnly = false := by
    intro h id hid
    simp [newlyHeld, h] at hid
  cases op with
  | init config env => exact absurd rfl (hinit config env)
  | shutdown => exact absurd rfl hgo
  | conversationStarted faults convoId kind answer => cases hcall
  | messageReceived faults convoId content account installation nowMs => cases hcall
  | membersChanged convoId => cases hcall
  | createConversation faults answer peerAddress =>
    exact marked_create (fun _ => ⟨rfl, rfl⟩) _ _ _ _
  | createGroupConversation faults answer name desc =>
    exact marked_create (fun _ => ⟨rfl, rfl⟩) _ _ _ _
  | setInstallationName faults name =>
    refine ⟨?_, hnone rfl⟩
    rcases setInstallationName_cases faults name w.guarded with ⟨e, heq⟩ | ⟨-, heq⟩
    · simp only [Op.run, underDisplay, heq]
      exact .refl _ _
    · simp only [Op.run, underDisplay, heq]
      exact ⟨fun id c' hget => Or.inr ⟨c', hget, rfl⟩, Finset.Subset.refl _⟩
  | addGroupMember answer convoId =>
    refine ⟨?_, hnone rfl⟩
    exact (Marked.refl _ w.guarded).of_display (addGroupMember_same answer convoId w).1
  | setConversationNickname faults convoId nickname =>
    refine ⟨?_, hnone rfl⟩
    exact ((marked_setConversationNickname faults convoId nickname w.guarded).of_display
      (finish_display _ _ _)).mono (Finset.empty_subset _)
  | deleteConversation faults convoId =>
    refine ⟨?_, hnone rfl⟩
    exact (marked_deleteConversation faults convoId w.guarded).of_display (finish_display _ _ _)
  | sendMessage faults answer convoId content nowMs =>
    refine ⟨?_, hnone rfl⟩
    rcases sendMessage_cases faults answer convoId content nowMs w with ⟨e, heq⟩ | ⟨-, -, heq⟩
    · simp only [Op.run, heq]
      exact .refl _ _
    · simp only [Op.run, heq]
      exact (marked_recordMessage _ _ _ w.guarded).of_display (finish_display _ _ _)

end Operations

/-! ## The module and its client -/

/-- The module beside its client: the ids the client holds, and the events it has raised
and the consumer has not handled. -/
structure Attended (σ : Type) where
  world : World σ
  held : Finset String
  pending : List Event

/-- What happens next: an API call, an event raised, one handled, or a shutdown, with the
handling of the events it finds raised. -/
inductive Turn
  | call (op : Op)
  | raised (e : Event)
  | handled (h : Handling)
  | shutdown (hs : List Handling)

/-- The conversations `list_all_conversations` returns to an init. -/
def Op.listed : Op → List String
  | .init _ env => env.listAllConversations.toOption.getD []
  | _ => []

namespace Attended

variable [MessageStore σ]

/-- The process over the file it finds, with no client. -/
def start (file : ChatDb σ) (ownNodePreset : Option String) : Attended σ :=
  ⟨World.start file ownNodePreset, ∅, []⟩

/-- A call: an init that installs a session starts with what its client lists, a create
adds what it returns. -/
def call (s : Attended σ) (op : Op) : Attended σ where
  world := op.run s.world
  held := if s.world.module.isNone ∧ (op.run s.world).module.isSome then op.listed.toFinset
    else newlyHeld s.world op ∪ s.held
  pending := s.pending

/-- The client raises an event; it holds a conversation it says has started. -/
def raise (s : Attended σ) (e : Event) : Attended σ where
  world := s.world
  held := match e with
    | .conversationStarted convoId _ => insert convoId s.held
    | _ => s.held
  pending := s.pending ++ [e]

/-- The consumer handles `e`, after which `pending` is left. -/
def handle (s : Attended σ) (h : Handling) (e : Event) (pending : List Event) : Attended σ where
  world := runEvent h s.world e
  held := s.held
  pending := pending

/-- A shutdown: the state is taken and the client dropped, the consumer handles what is
left of the stream and is joined, and the display is reset. -/
def shutdown (s : Attended σ) (hs : List Handling) : Attended σ where
  world := match s.world.take with
    | (w, some _) =>
      let w := runEvents w (hs.zip s.pending)
      { w with guarded := resetDisplay w.guarded }
    | (w, none) => w
  held := ∅
  pending := []

end Attended

/-- The module attended by a client, one turn at a time. -/
def attended (σ : Type) [MessageStore σ] : Machine (Attended σ) Turn where
  step s
    | .call .shutdown => none
    | .call op => if op.isEvent then none else some (s.call op)
    | .raised e => if s.world.module.isSome then some (s.raise e) else none
    | .handled h =>
      match s.world.module, s.pending with
      | some _, e :: pending => some (s.handle h e pending)
      | _, _ => none
    | .shutdown hs => if hs.length = s.pending.length then some (s.shutdown hs) else none

/-- The client raises a message only in a conversation it has announced, or returned from
a create, or listed at init. -/
def Announces (s : Attended σ) : Turn → Prop
  | .raised (.messageReceived convoId _ _ _) => convoId ∈ s.held
  | _ => True

/-! ## The invariant -/

/-- The flags and what the client holds: a conversation that is not history-only is held,
and one that is held and yet history-only is waiting for its `ConversationStarted` to be
handled. -/
structure Attuned (s : Attended σ) : Prop where
  live : ∀ id c, s.world.guarded.chats.get id = some c → c.historyOnly = false → id ∈ s.held
  awaited : ∀ id c, s.world.guarded.chats.get id = some c → id ∈ s.held →
    id ∉ s.world.guarded.deleted → c.historyOnly = true →
      ∃ cls, Event.conversationStarted id cls ∈ s.pending
  announced : ∀ e ∈ s.pending, e.opens ⊆ s.held
  idle : s.world.module = none → s.held = ∅ ∧ s.pending = []

section Attuned

variable {s s' : Attended σ} {live : Finset String}

/-- The flags after a step that keeps what is held: those of the conversations made live
or newly held are looked at by themselves. -/
theorem Attuned.marked (h : Attuned s) (s' : Attended σ)
    (hmark : Marked live s.world.guarded s'.world.guarded) (hlive : live ⊆ s'.held)
    (hheld : s.held ⊆ s'.held)
    (hwaits : ∀ id c', s'.world.guarded.chats.get id = some c' → c'.historyOnly = true →
      id ∈ s'.held → id ∉ s'.world.guarded.deleted →
        (id ∈ s.held → ∃ cls, Event.conversationStarted id cls ∈ s.pending) →
          ∃ cls, Event.conversationStarted id cls ∈ s'.pending)
    (hannounced : ∀ e ∈ s'.pending, e.opens ⊆ s'.held)
    (hidle : s'.world.module = none → s'.held = ∅ ∧ s'.pending = []) : Attuned s' := by
  refine ⟨?_, ?_, hannounced, hidle⟩
  · intro id c' hget hfalse
    rcases hmark.flag id c' hget with ⟨-, hmem⟩ | ⟨c, hold, hflag⟩
    · exact hlive hmem
    · exact hheld (h.live id c hold (hflag.trans hfalse))
  · intro id c' hget hmem hdel htrue
    apply hwaits id c' hget htrue hmem hdel
    intro hbefore
    rcases hmark.flag id c' hget with ⟨hfalse, -⟩ | ⟨c, hold, hflag⟩
    · rw [htrue] at hfalse
      cases hfalse
    · have hundeleted : id ∉ s.world.guarded.deleted := fun hin => hdel (hmark.remembers hin)
      exact h.awaited id c hold hbefore hundeleted (hflag.trans htrue)

theorem attuned_start (file : ChatDb σ) (ownNodePreset : Option String) :
    Attuned (Attended.start file ownNodePreset) := by
  have hnone : ∀ id c, ¬ (Attended.start file ownNodePreset).world.guarded.chats.get id =
      some c := by
    intro id c hget
    cases (Keyed.get_empty id).symm.trans hget
  refine ⟨fun id c hget => absurd hget (hnone id c), fun id c hget => absurd hget (hnone id c),
    ?_, fun _ => ⟨rfl, rfl⟩⟩
  intro e he
  cases he

variable [MessageStore σ]

/-- An init that installs a session marks what its client does not list. -/
theorem attuned_init (h : Attuned s) (config : ChatConfig) (env : Environment) :
    Attuned (s.call (.init config env)) := by
  have hworld : (s.call (.init config env)).world = (init config env s.world).world := rfl
  rcases init_cases config env s.world with ⟨hm, g, ms, hinit, heq⟩ | ⟨hm, heq⟩ | ⟨hm, e, -, heq⟩
  · -- installed: the flags are those of the list, and nothing is raised yet
    obtain ⟨live, state, hup, hload, rfl⟩ := initializeModule_ok_iff.mp hinit
    have hpending : s.pending = [] := (h.idle hm).2
    have hheld : (s.call (.init config env)).held = live.toFinset := by
      have hlisted : Op.listed (.init config env) = live := by
        show env.listAllConversations.toOption.getD [] = live
        rw [hup.listAllConversations]
        rfl
      unfold Attended.call
      simp [Op.run, heq, hm, hlisted]
    have hflag : ∀ id c, (s.call (.init config env)).world.guarded.chats.get id = some c →
        c.historyOnly = !live.contains id := by
      intro id c hget
      rw [hworld, heq] at hget
      have hmarked := (get_markHistoryOnly live state id).symm.trans hget
      obtain ⟨old, -, rfl⟩ := Option.map_eq_some_iff.mp hmarked
      rfl
    refine ⟨?_, ?_, ?_, ?_⟩
    · intro id c hget hfalse
      rw [hflag id c hget] at hfalse
      rw [hheld]
      simpa using hfalse
    · intro id c hget hmem _ htrue
      rw [hflag id c hget] at htrue
      rw [hheld] at hmem
      simp at htrue hmem
      exact absurd hmem htrue
    · intro e he
      rw [show (s.call (.init config env)).pending = s.pending from rfl, hpending] at he
      cases he
    · intro hnone
      rw [hworld, heq] at hnone
      cases hnone
  · -- a session is installed: only the delivery state may change
    have hstate := (claimDeliveryRetry_state s.world.guarded).1
    have hheld : (s.call (.init config env)).held = s.held := by
      unfold Attended.call
      obtain ⟨ms, hms⟩ := Option.isSome_iff_exists.mp hm
      simp [Op.run, heq, hms, newlyHeld, Op.created]
    refine ⟨?_, ?_, ?_, ?_⟩
    · intro id c hget
      rw [hworld, heq, Guarded.chats, hstate] at hget
      rw [hheld]
      exact h.live id c hget
    · intro id c hget
      rw [hworld, heq, Guarded.chats, hstate] at hget
      rw [hheld, hworld, heq, Guarded.deleted, hstate]
      exact h.awaited id c hget
    · rw [hheld]
      exact h.announced
    · intro hnone
      rw [hworld, heq] at hnone
      simp [show s.world.module = none from hnone] at hm
  · have hsame : s.call (.init config env) = s := by
      unfold Attended.call
      simp [Op.run, heq, hm, newlyHeld]
    rw [hsame]
    exact h

/-- Another call: what a create returns is live and held. -/
theorem attuned_call (h : Attuned s) {op : Op} (hinit : ∀ config env, op ≠ .init config env)
    (hgo : op ≠ .shutdown) (hcall : op.isEvent = false) : Attuned (s.call op) := by
  have hmodule := (run_session (w := s.world) hinit hgo).1
  have hheld : (s.call op).held = newlyHeld s.world op ∪ s.held := by
    unfold Attended.call
    rw [hmodule]
    cases s.world.module <;> rfl
  obtain ⟨hmark, hnew⟩ := marked_call (w := s.world) hinit hgo hcall
  have hkept : s.held ⊆ (s.call op).held := by
    rw [hheld]
    exact Finset.subset_union_right
  apply h.marked _ hmark _ hkept
  · intro id c' hget htrue hmem _ hbefore
    rw [hheld, Finset.mem_union] at hmem
    rcases hmem with hmem | hmem
    · have hfalse := hnew id hmem c' hget
      rw [htrue] at hfalse
      cases hfalse
    · exact hbefore hmem
  · intro e he
    exact (h.announced e he).trans hkept
  · intro hnone
    have hbefore : s.world.module = none := hmodule.symm.trans hnone
    rw [hheld, (h.idle hbefore).1]
    exact ⟨by simp [newlyHeld, hbefore], (h.idle hbefore).2⟩
  · rw [hheld]
    exact Finset.subset_union_left

omit [MessageStore σ] in
/-- An event is raised: a conversation it announces is waiting for it to be handled. -/
theorem attuned_raise (h : Attuned s) {e : Event} (hm : s.world.module.isSome)
    (hannounces : Announces s (.raised e)) : Attuned (s.raise e) := by
  have hkept : s.held ⊆ (s.raise e).held := by
    cases e with
    | conversationStarted id cls => exact Finset.subset_insert id s.held
    | messageReceived id content account installation => exact Finset.Subset.refl _
    | conversationMembersChanged id => exact Finset.Subset.refl _
    | inboundError message => exact Finset.Subset.refl _
  have hpending : (s.raise e).pending = s.pending ++ [e] := rfl
  apply h.marked (s.raise e) (Marked.refl ∅ s.world.guarded) (Finset.empty_subset _) hkept
  · intro id c' _ _ hmem _ hbefore
    rw [hpending]
    by_cases hold : id ∈ s.held
    · obtain ⟨cls, hin⟩ := hbefore hold
      exact ⟨cls, List.mem_append_left _ hin⟩
    · -- newly held, so the event is its start
      cases e with
      | conversationStarted id' cls =>
        rcases Finset.mem_insert.mp hmem with rfl | hin
        · exact ⟨cls, List.mem_append_right _ (List.mem_singleton_self _)⟩
        · exact absurd hin hold
      | messageReceived id' content account installation => exact absurd hmem hold
      | conversationMembersChanged id' => exact absurd hmem hold
      | inboundError message => exact absurd hmem hold
  · intro e' he'
    rw [hpending, List.mem_append, List.mem_singleton] at he'
    rcases he' with hin | rfl
    · exact (h.announced e' hin).trans hkept
    · cases e' with
      | conversationStarted id cls =>
        exact Finset.singleton_subset_iff.mpr (Finset.mem_insert_self id s.held)
      | messageReceived id content account installation =>
        exact Finset.singleton_subset_iff.mpr hannounces
      | conversationMembersChanged id => exact Finset.empty_subset _
      | inboundError message => exact Finset.empty_subset _
  · intro hnone
    simp [show s.world.module = none from hnone] at hm

/-- The oldest event is handled: a start that was waited for has come. -/
theorem attuned_handle (h : Attuned s) {e : Event} {pending : List Event}
    (hm : s.world.module.isSome) (hp : s.pending = e :: pending) (handling : Handling) :
    Attuned (s.handle handling e pending) := by
  have hmark := marked_runEvent handling s.world e
  have hopens : e.opens ⊆ s.held := h.announced e (by rw [hp]; exact List.mem_cons_self)
  apply h.marked (s.handle handling e pending) hmark hopens (Finset.Subset.refl _)
  · intro id c' hget htrue hmem hdel hbefore
    obtain ⟨cls, hin⟩ := hbefore hmem
    rw [hp, List.mem_cons] at hin
    rcases hin with rfl | hin
    · have hundeleted : id ∉ s.world.guarded.deleted := fun hin => hdel (hmark.remembers hin)
      have hfalse := (marked_conversationStarted _ _ _ _ _).2 hundeleted c' hget
      rw [htrue] at hfalse
      cases hfalse
    · exact ⟨cls, hin⟩
  · intro e' he'
    exact h.announced e' (by rw [hp]; exact List.mem_cons_of_mem _ he')
  · intro hnone
    have hbefore : s.world.module = none := (runEvent_module _ _ _).symm.trans hnone
    simp [hbefore] at hm

/-- A shutdown leaves nothing listed and nothing held. -/
theorem attuned_shutdown (h : Attuned s) (hs : List Handling) : Attuned (s.shutdown hs) := by
  have hnone : ∀ id c, (s.shutdown hs).world.guarded.chats.get id = some c →
      c.historyOnly = false → False := by
    intro id c hget hfalse
    unfold Attended.shutdown World.take at hget
    cases hm : s.world.module with
    | some ms =>
      simp only [hm] at hget
      cases (Keyed.get_empty id).symm.trans hget
    | none =>
      simp only [hm] at hget
      have hmem := h.live id c hget hfalse
      rw [(h.idle hm).1] at hmem
      cases hmem
  refine ⟨fun id c hget hfalse => (hnone id c hget hfalse).elim, ?_, ?_, fun _ => ⟨rfl, rfl⟩⟩
  · intro id c _ hmem
    cases hmem
  · intro e he
    cases he

theorem attuned_step {turn : Turn} (hP : Announces s turn)
    (hstep : (attended σ).step s turn = some s') (h : Attuned s) : Attuned s' := by
  cases turn with
  | call op =>
    by_cases hgo : op = .shutdown
    · subst hgo
      cases hstep
    · have heq : (attended σ).step s (.call op) =
          if op.isEvent then none else some (s.call op) := by
        cases op <;> first | rfl | exact absurd rfl hgo
      rw [heq] at hstep
      split at hstep
      · cases hstep
      · rename_i hcall
        cases hstep
        by_cases hinit : ∃ config env, op = .init config env
        · obtain ⟨config, env, rfl⟩ := hinit
          exact attuned_init h config env
        · apply attuned_call h _ hgo (by simpa using hcall)
          intro config env hop
          exact hinit ⟨config, env, hop⟩
  | raised e =>
    unfold attended at hstep
    simp only at hstep
    split at hstep
    · rename_i hm
      cases hstep
      exact attuned_raise h hm hP
    · cases hstep
  | handled handling =>
    unfold attended at hstep
    simp only at hstep
    split at hstep
    · rename_i hm hp
      cases hstep
      exact attuned_handle h (by rw [hm]; rfl) hp handling
    · cases hstep
  | shutdown hs =>
    unfold attended at hstep
    simp only at hstep
    split at hstep
    · cases hstep
      exact attuned_shutdown h hs
    · cases hstep

end Attuned

/-! ## What reaches the client -/

section Reaching

variable {w : World σ} {id : String} {c : ChatSession}

/-- A call on a live conversation gets to the client: what the client answers, here a
refusal, comes back. -/
theorem reaches_client [MessageStore σ] (hget : w.guarded.chats.get id = some c)
    (hlive : c.historyOnly = false) (hm : w.module.isSome) (e : ClientError) :
    (∀ faults content nowMs,
      (sendMessage faults (.error e) id content nowMs w).2 = .error (.client e)) ∧
    (addGroupMember (.error e) id w).2 = .error (.client e) := by
  obtain ⟨ms, hms⟩ := Option.isSome_iff_exists.mp hm
  have hcheck : checkLive id w.guarded = .ok () := checkLive_ok_iff.mpr ⟨c, hget, hlive⟩
  have hclient : withClient w (.error e : Except ClientError Unit) = .error (.client e) := by
    unfold withClient
    rw [hms]
    rfl
  constructor
  · intro faults content nowMs
    unfold sendMessage
    rw [hcheck, hclient]
  · unfold addGroupMember
    rw [hcheck, hclient]
    rfl

/-- A call on another conversation is refused before the client is asked. -/
theorem refused_of_not_live [MessageStore σ]
    (hnot : ∀ c, w.guarded.chats.get id = some c → c.historyOnly = true) :
    (∀ faults answer content nowMs,
      (sendMessage faults answer id content nowMs w).2 = .error .notFound ∨
        (sendMessage faults answer id content nowMs w).2 = .error .historyOnly) ∧
    (∀ answer, (addGroupMember answer id w).2 = .error .notFound ∨
      (addGroupMember answer id w).2 = .error .historyOnly) ∧
    ∀ answer, listGroupMembers answer id w = [] := by
  have hcheck : checkLive id w.guarded = .error .notFound ∨
      checkLive id w.guarded = .error .historyOnly := by
    unfold checkLive
    cases hget : w.guarded.chats.get id with
    | none => exact Or.inl rfl
    | some c =>
      right
      simp [hnot c hget]
  unfold sendMessage addGroupMember listGroupMembers
  rcases hcheck with hcheck | hcheck
  · rw [hcheck]
    exact ⟨fun _ _ _ _ => Or.inl rfl, fun _ => Or.inl rfl, fun _ => rfl⟩
  · rw [hcheck]
    exact ⟨fun _ _ _ _ => Or.inr rfl, fun _ => Or.inr rfl, fun _ => rfl⟩

end Reaching

/-! ## Runs -/

section Runs

variable [MessageStore σ] {turns : List Turn} {s : Attended σ}

/-- In every state of every run a listed conversation that is not history-only is held by
the current client; once the raised events are handled a listed conversation that is held
is not history-only, unless it is tombstoned. So calls get to the client for what is
listed and held, and are refused, with an empty roster, for everything else. -/
theorem history_only_iff_not_held (file : ChatDb σ) (ownNodePreset : Option String)
    (hr : (attended σ).Run Announces (.start file ownNodePreset) turns s) :
    (∀ id c, s.world.guarded.chats.get id = some c → c.historyOnly = false → id ∈ s.held) ∧
    (s.pending = [] → ∀ id c, s.world.guarded.chats.get id = some c → id ∈ s.held →
      id ∉ s.world.guarded.deleted → c.historyOnly = false ∧ ∀ e,
        (∀ faults content nowMs,
          (sendMessage faults (.error e) id content nowMs s.world).2 = .error (.client e)) ∧
        (addGroupMember (.error e) id s.world).2 = .error (.client e)) ∧
    ∀ id, ¬ ((s.world.guarded.chats.get id).isSome ∧ id ∈ s.held) →
      (∀ faults answer content nowMs,
        (sendMessage faults answer id content nowMs s.world).2 = .error .notFound ∨
          (sendMessage faults answer id content nowMs s.world).2 = .error .historyOnly) ∧
      (∀ answer, (addGroupMember answer id s.world).2 = .error .notFound ∨
        (addGroupMember answer id s.world).2 = .error .historyOnly) ∧
      ∀ answer, listGroupMembers answer id s.world = [] := by
  have hinv : Attuned s := hr.invariant (fun _ _ _ hP hs h => attuned_step hP hs h)
    (attuned_start file ownNodePreset)
  refine ⟨hinv.live, ?_, ?_⟩
  · intro hpending id c hget hmem hdel
    have hlive : c.historyOnly = false := by
      cases htrue : c.historyOnly with
      | false => rfl
      | true =>
        obtain ⟨cls, hin⟩ := hinv.awaited id c hget hmem hdel htrue
        rw [hpending] at hin
        cases hin
    have hm : s.world.module.isSome := by
      cases hm : s.world.module with
      | some ms => rfl
      | none =>
        rw [(hinv.idle hm).1] at hmem
        cases hmem
    exact ⟨hlive, reaches_client hget hlive hm⟩
  · intro id hnot
    apply refused_of_not_live
    intro c hget
    cases hflag : c.historyOnly with
    | true => rfl
    | false => exact absurd ⟨by rw [hget]; rfl, hinv.live id c hget hflag⟩ hnot

/-- A group of the last session is invited back into. -/
def invitedBack : List Turn := [
  .call (.init ⟨none⟩ (.up ⟨"name", "addr"⟩ [])),
  .call (.createGroupConversation noFaults (.ok "c1") "team" ""),
  .shutdown [],
  .call (.init ⟨none⟩ (.up ⟨"other", "addr2"⟩ [])),
  .raised (.conversationStarted "c1" .group),
  .handled ⟨noFaults, .ok ⟨"team", ""⟩, 1⟩]

theorem history_only_iff_not_held_invited : ∃ s : Attended LogStore,
    (attended LogStore).exec (.start emptyDb none) invitedBack = some s ∧
    ∃ c, s.world.guarded.chats.get "c1" = some c ∧ c.historyOnly = false ∧
      (addGroupMember (.error "no such account") "c1" s.world).2 =
        .error (.client "no such account") := by
  have hexec : ∃ s : Attended LogStore,
      (attended LogStore).exec (.start emptyDb none) invitedBack = some s ∧ s.pending = [] ∧
      (s.world.guarded.chats.get "c1").isSome ∧ "c1" ∈ s.held ∧
      s.world.guarded.deleted = ∅ := ⟨_, rfl, rfl, by decide, by decide, rfl⟩
  obtain ⟨s, hall, hpending, hlisted, hmem, hdel⟩ := hexec
  have hr : (attended LogStore).Run Announces (.start emptyDb none) invitedBack s := by
    apply (Machine.run_of_exec hall).imp
    intro turn hturn _ _
    simp only [invitedBack, List.mem_cons, List.not_mem_nil, or_false] at hturn
    rcases hturn with rfl | rfl | rfl | rfl | rfl | rfl <;> trivial
  obtain ⟨c, hget⟩ := Option.isSome_iff_exists.mp hlisted
  obtain ⟨-, hheld, -⟩ := history_only_iff_not_held emptyDb none hr
  obtain ⟨hlive, hreach⟩ := hheld hpending "c1" c hget hmem (by rw [hdel]; simp)
  exact ⟨s, hall, c, hget, hlive, (hreach "no such account").2⟩

/-- A create may return the id of a deleted conversation; it is then both listed and
tombstoned, and from the next session on it stays history-only whatever the client
announces. -/
theorem tombstoned_stays_history_only : ∃ s : Attended LogStore,
    (attended LogStore).Run Announces (.start emptyDb none) [
      .call (.init ⟨none⟩ (.up ⟨"name", "addr"⟩ [])),
      .call (.createConversation noFaults (.ok "c1") "peer"),
      .call (.deleteConversation noFaults "c1"),
      .call (.createConversation noFaults (.ok "c1") "peer"),
      .shutdown [],
      .call (.init ⟨none⟩ (.up ⟨"other", "addr2"⟩ [])),
      .raised (.conversationStarted "c1" .dm),
      .handled ⟨noFaults, .ok ⟨"", ""⟩, 1⟩] s ∧
    s.pending = [] ∧ "c1" ∈ s.held ∧
    (s.world.guarded.chats.get "c1").map ChatSession.historyOnly = some true :=
  ⟨_, .cons trivial rfl (.cons trivial rfl (.cons trivial rfl (.cons trivial rfl
    (.cons trivial rfl (.cons trivial rfl (.cons trivial rfl (.single trivial rfl))))))),
    rfl, by decide, by decide⟩

end Runs

end ChatModule
