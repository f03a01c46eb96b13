import ChatModule.Archive
import ChatModule.Sequential

/-!
# The module keeps the archive

`keeps_step` is the refinement: a step of the sequential machine in which no write
fails is matched by deeds of the archive, an init and a shutdown by none. It is
assembled from one lemma for each section (`Mirrors.…`), and lifted to runs by
`keeps_run`.
-/

namespace ChatModule

open Actions Persistence

variable {σ : Type} [MessageStore σ]

/-! ## A section in which no write fails -/

section Sections

/-- What the display and the file keep after a section, the archive reaches. -/
def Follows (a : Archive) (g' : Guarded σ) : Prop :=
  ∃ ds a', archive.Run (fun _ _ => True) a ds a' ∧ Mirrors a' g'

variable {a a' : Archive} {d : Deed} {g g' : Guarded σ} {s : ChatSession} {id : String}

theorem Follows.stay (h : Mirrors a g) : Follows a g := ⟨[], a, .nil a, h⟩

theorem Follows.deed (hstep : archive.step a d = some a') (h : Follows a' g) : Follows a g := by
  obtain ⟨ds, a'', hrun, hm⟩ := h
  exact ⟨d :: ds, a'', .cons trivial hstep hrun, hm⟩

theorem Follows.emit {e : PluginEvent} (h : Follows a g) : Follows a (g.emit e) := by
  obtain ⟨ds, a', hrun, hm⟩ := h
  exact ⟨ds, a', hrun, hm.emit⟩

/-- Saving a session that shows what was said in its conversation. -/
theorem Mirrors.persistChat (h : Mirrors a g) (hd : Displays ⟨s.row, a.log s.chatId⟩ s) :
    Follows a (persistChat noFaults s.chatId (g.put s)).1 := by
  rcases persistChat_put_cases noFaults s g with ⟨e, hdb | hf, -⟩ | ⟨-, -, heq⟩
  · have hopen := h.shows.chatDb
    simp [hdb] at hopen
  · exact absurd rfl hf
  · rw [heq]
    exact .deed (d := .written s.chatId s.row) rfl (.stay (h.putRow hd))

/-- A conversation opened under an id that nothing is shown of. -/
theorem Mirrors.opened (h : Mirrors a g) {kind : ConversationKind}
    {name description peer : Option String} (hget : g.chats.get id = none) :
    Follows a (Actions.persistChat noFaults id
      (g.put (openedSession id kind name description peer))).1 :=
  h.persistChat (s := openedSession id kind name description peer)
    (.opened (Archive.log_of_none (h.shows.of_get_none hget)))

theorem Mirrors.setConversationNickname (h : Mirrors a g) (nickname : String) :
    Follows a (setConversationNicknameLocked noFaults id nickname g).1 := by
  rcases setConversationNicknameLocked_cases noFaults id nickname g with
    ⟨-, heq⟩ | ⟨s, hget, heq⟩
  · rw [heq]
    exact .stay h
  · obtain ⟨k, hk, hd⟩ := h.shows.of_get hget
    obtain rfl := Keyed.key_of_get hget
    rw [heq]
    refine h.persistChat (s := { s with nickname := nonEmpty nickname }) ?_
    rw [Archive.log_of_chats hk]
    exact hd.restate rfl rfl

theorem Mirrors.setInstallationName (h : Mirrors a g) (name : String) :
    Follows a (Actions.setInstallationName noFaults name g).1 := by
  rcases setInstallationName_cases noFaults name g with ⟨e, heq⟩ | ⟨-, heq⟩
  · rw [heq]
    exact .stay h
  · rw [heq]
    exact .deed (d := .renamed (nonEmpty name)) rfl (.stay h.rename)

theorem Mirrors.conversationStarted (h : Mirrors a g) (kind : ConversationKind)
    (md : Option String × Option String) :
    Follows a (recordConversationStartedLocked noFaults id kind md g) := by
  rcases recordConversationStartedLocked_cases noFaults id kind md g with
    heq | ⟨s, e, hget, heq⟩ | ⟨hget, e, heq⟩
  · rw [heq]
    exact .stay h
  · obtain ⟨k, hk, hd⟩ := h.shows.of_get hget
    obtain rfl := Keyed.key_of_get hget
    rw [heq]
    exact (Follows.stay (h.put (s := { s with historyOnly := false }) hk (hd.mark false))).emit
  · rw [heq]
    exact h.emit.opened hget

omit [MessageStore σ] in
/-- What an inbound message is recorded into shows what was said so far. -/
theorem Displays.receiving (h : Shows a g) (account : String) :
    Displays ⟨(receivingSession id account g).row, a.log id⟩ (receivingSession id account g) := by
  have hbase : ∃ k, k.log = a.log id ∧
      Displays k ((g.chats.get id).getD (openedSession id .direct none none none)) := by
    cases hget : g.chats.get id with
    | none => exact ⟨_, rfl, .opened (Archive.log_of_none (h.of_get_none hget))⟩
    | some s =>
      obtain ⟨k, hk, hd⟩ := h.of_get hget
      exact ⟨k, (Archive.log_of_chats hk).symm, hd⟩
  obtain ⟨k, hlog, hd⟩ := hbase
  rw [← hlog]
  refine hd.restate ?_ ?_
  · unfold receivingSession
    simp only
    split <;> rfl
  · unfold receivingSession
    simp only
    split <;> rfl

variable [LawfulMessageStore σ]

/-- A message recorded on its own. -/
theorem Mirrors.said {m : StoredMessage} (h : Mirrors a g) (hget : g.chats.get m.chatId = some s) :
    Follows a (writeFile (g.put (pushMessage s m)) (g.file.withMessage m)) := by
  obtain ⟨k, hk, hm⟩ := h.push hget
  have hstep : archive.step a (.said m) = some (a.say k m) := by simp [archive, hk]
  exact .deed hstep (.stay hm)

theorem Mirrors.sendMessage (h : Mirrors a g) (content : String) (t : UInt64) :
    Follows a (sendMessageLocked noFaults id content t g).1 := by
  unfold sendMessageLocked
  cases hget : g.chats.get id with
  | none =>
    have heq : Actions.recordMessage noFaults (chatMessage id .sent t (Utf8.asBytes content))
        false g = (g, .ok ()) := by simp [Actions.recordMessage, hget]
    rw [heq]
    exact .stay h
  | some s =>
    rw [recordMessage_of_get (s := s) false hget h.shows.chatDb]
    exact h.said hget

theorem Mirrors.deleteConversation (h : Mirrors a g) :
    Follows a (deleteConversationLocked noFaults id g).1 := by
  rcases deleteConversationLocked_cases noFaults id g with ⟨e, heq⟩ | ⟨-, -, heq⟩
  · rw [heq]
    exact .stay h
  · rw [heq]
    exact .deed (d := .deleted id) rfl (.stay h.forget)

theorem Mirrors.messageReceived (h : Mirrors a g) (content : List UInt8)
    (account installation : String) (t : UInt64) :
    Follows a (recordMessageReceived noFaults id content account installation t g).1 := by
  rcases recordMessageReceived_cases noFaults id content account installation t g with
    ⟨-, heq⟩ | ⟨-, r, rfl, heq⟩
  · rw [heq]
    exact .stay h
  · rw [heq]
    refine Follows.emit ?_
    have hthere : (g.put (receivingSession id account g)).chats.get
        (receivedMessage id content account installation t).chatId =
          some (receivingSession id account g) := by simp [Keyed.get_insert]
    rw [recordMessage_of_get _ hthere h.shows.chatDb]
    cases hchanged : receivingChangesChat id g with
    | true =>
      -- the row first, then the message
      have hd : Displays _ (receivingSession id account g) := .receiving h.shows account
      have hsaved := h.putRow (s := receivingSession id account g) (by simpa using hd)
      exact .deed (d := .written _ _) rfl (hsaved.said hthere)
    | false =>
      -- the session that is put is the one that is there
      have hget := receivingSession_of_unchanged hchanged account
      have hput : g.put (receivingSession id account g) = g := Guarded.put_of_get hget
      rw [hput]
      exact h.said hget

end Sections

/-! ## A step -/

section Steps

variable {a : Archive} {w w' : World σ} {op : Op}

/-- No write fails, and a create returns an id neither shown nor deleted. -/
def Admissible (w : World σ) (op : Op) : Prop :=
  op.faults = noFaults ∧ ∀ id, op.created = some id →
    w.guarded.chats.get id = none ∧ id ∉ w.guarded.deleted

/-- While no session is installed, only an init does anything. -/
theorem run_of_uninstalled (hm : w.module = none) (hd : w.guarded.display = Display.default)
    (hstep : (sequential σ).step w op = some w') :
    (∃ config env, op = .init config env) ∨ w' = w := by
  have hrun := step_eq_run hstep
  have hget : ∀ id, w.guarded.chats.get id = none := by
    intro id
    rw [Guarded.chats, hd]
    exact Keyed.get_empty id
  have hlive : ∀ id, checkLive id w.guarded = .error .notFound := by
    intro id
    simp [checkLive, hget id]
  subst hrun
  cases op with
  | init config env => exact Or.inl ⟨config, env, rfl⟩
  | shutdown => exact Or.inr (shutdown_of_none hm)
  | setInstallationName faults name =>
    right
    have hdb : w.guarded.display.chatDb = none := by rw [hd]; rfl
    simp [Op.run, underDisplay, setInstallationName, hdb]
  | createConversation faults answer peerAddress =>
    right
    simp [Op.run, createConversation, create, withClient, hm]
  | createGroupConversation faults answer name desc =>
    right
    simp [Op.run, createGroupConversation, create, withClient, hm]
  | addGroupMember answer convoId =>
    right
    simp [Op.run, addGroupMember, hlive]
  | setConversationNickname faults convoId nickname =>
    right
    simp [Op.run, setConversationNickname, underDisplay, setConversationNicknameLocked, hget,
      finish]
  | deleteConversation faults convoId =>
    right
    simp [Op.run, deleteConversation, underDisplay, deleteConversationLocked, Keyed.contains, hget,
      finish]
  | sendMessage faults answer convoId content nowMs =>
    right
    simp [Op.run, sendMessage, hlive]
  | conversationStarted faults convoId kind answer =>
    have hinst := installed_of_event hstep rfl
    simp [hm] at hinst
  | messageReceived faults convoId content account installation nowMs =>
    have hinst := installed_of_event hstep rfl
    simp [hm] at hinst
  | membersChanged convoId =>
    have hinst := installed_of_event hstep rfl
    simp [hm] at hinst

theorem keeps_installed (hm : w.module.isSome) : Keeps a w ↔ Mirrors a w.guarded := by
  obtain ⟨ms, hms⟩ := Option.isSome_iff_exists.mp hm
  simp [Keeps, hms]

/-- The claim of a retry is shown as delivery state only. -/
theorem Mirrors.claimDeliveryRetry {g : Guarded σ} (h : Mirrors a g) :
    Mirrors a (claimDeliveryRetry g).1 := by
  unfold Actions.claimDeliveryRetry setDeliveryState
  simp only
  split
  · exact h
  · split
    · exact h
    · exact h.congr rfl rfl rfl

/-- What is read back of a conversation shows it. -/
theorem Displays.loaded {db : ChatDb σ} {id : String} {k : Archived}
    (hlog : db.history id = k.log) : Displays k (loadedSession db id k.row) where
  row := loadedSession_row db id k.row
  older := by simp [loadedSession, hlog]
  messages := by simp only [loadedSession, hlog, List.rtake]
  window := by
    simp only [loadedSession, hlog, List.length_map, List.length_rtake]
    omega

/-- What an init seeds from a file that keeps the archive shows the archive. -/
theorem Holds.seeded {g g' : Guarded σ} {client : Client} {live : List String}
    (h : Holds a g.file) (hs : Seeded g client live g') : Mirrors a g' where
  holds := by
    rw [hs.file]
    exact h
  shows := by
    refine ⟨?_, ?_, ?_, by simp [hs.chatDb]⟩
    · intro id
      rw [hs.chats id, h.row id]
      cases hk : a.chats id with
      | none => exact .none
      | some k =>
        have hlog : g.file.history id = k.log := by rw [h.history, Archive.log_of_chats hk]
        exact .some ((Displays.loaded hlog).mark _)
    · intro id
      rw [hs.deleted]
      exact h.deleted id
    · rw [hs.name]
      exact h.name

/-- A section run with a session installed. -/
theorem keeps_of_follows {g : Guarded σ} (h : Follows a g) (hm : w'.module.isSome)
    (hdisplay : w'.guarded.display = g.display) (hfile : w'.guarded.file = g.file) :
    ∃ ds a', archive.Run (fun _ _ => True) a ds a' ∧ Keeps a' w' := by
  obtain ⟨ds, a', hrun, hmir⟩ := h
  refine ⟨ds, a', hrun, (keeps_installed hm).mpr ?_⟩
  exact hmir.congr (by rw [hdisplay]) (by rw [hdisplay]) hfile

/-- An operation that ends with a section, and the event after it. -/
theorem keeps_of_finish {α : Type} {body : Guarded σ → Guarded σ × Except CoreError Unit}
    (h : Follows a (body w.guarded).1) (hm : w.module.isSome) (e : PluginEvent) (x : α) :
    ∃ ds a', archive.Run (fun _ _ => True) a ds a' ∧
      Keeps a' (finish (underDisplay w body) e x).1 := by
  refine keeps_of_follows h ?_ (finish_display _ _ _) (finish_file _ _ _)
  rw [finish_module]
  exact hm

/-- A shutdown keeps it in the file. -/
theorem Keeps.shutdown (h : Keeps a w) : Keeps a (Actions.shutdown w) := by
  cases hm : w.module with
  | none =>
    rw [shutdown_of_none hm]
    exact h
  | some ms =>
    have hsome : w.module.isSome := by simp [hm]
    rw [keeps_installed hsome] at h
    -- what the display kept is in the file too
    simp only [Keeps, shutdown_module, shutdown_file]
    exact ⟨h.holds, shutdown_display hsome⟩

/-- A create that is given an id nothing is shown of. -/
theorem keeps_create {session : String → ChatSession} {created : String → PluginEvent}
    (h : Keeps a w) (hm : w.module.isSome)
    (hsession : ∀ id, ∃ kind name description peer,
      session id = openedSession id kind name description peer)
    (answer : Except ClientError String)
    (hfresh : ∀ id, answer = .ok id → w.guarded.chats.get id = none) :
    ∃ ds a', archive.Run (fun _ _ => True) a ds a' ∧
      Keeps a' (create session created noFaults answer w).1 := by
  rcases create_cases session created noFaults answer w with ⟨e, heq⟩ | ⟨id, hid, -, heq⟩
  · rw [heq]
    exact ⟨[], a, .nil a, h⟩
  · obtain ⟨kind, name, description, peer, hs⟩ := hsession id
    rw [heq, hs]
    exact keeps_of_finish (((keeps_installed hm).mp h).opened (hfresh id hid)) hm _ _

variable [LawfulMessageStore σ]

/-- An init, whatever it does, keeps the archive. -/
theorem Keeps.init (h : Keeps a w) (config : ChatConfig) (env : Environment) :
    Keeps a (Actions.init config env w).world := by
  rcases init_cases config env w with ⟨hm, g, ms, hinit, heq⟩ | ⟨hm, heq⟩ | ⟨hm, e, -, heq⟩
  · rw [heq]
    obtain ⟨live, -, hseeded⟩ := initializeModule_ok hinit
    have hholds : Holds a w.guarded.file := by
      simp only [Keeps, hm] at h
      exact h.1
    exact hholds.seeded hseeded
  · -- a claimed retry is delivery state, which the archive does not have
    rw [heq]
    rw [keeps_installed hm] at h
    rw [keeps_installed (by exact hm)]
    exact h.claimDeliveryRetry
  · rw [heq]
    exact h

/-- Refinement: a step in which no write fails is matched by deeds. -/
theorem keeps_step (hadm : Admissible w op) (hstep : (sequential σ).step w op = some w')
    (h : Keeps a w) : ∃ ds a', archive.Run (fun _ _ => True) a ds a' ∧ Keeps a' w' := by
  by_cases hm : w.module.isSome
  · have hmir := (keeps_installed hm).mp h
    obtain ⟨hfaults, hfresh⟩ := hadm
    obtain rfl := step_eq_run hstep
    cases op with
    | init config env => exact ⟨[], a, .nil a, h.init config env⟩
    | shutdown => exact ⟨[], a, .nil a, h.shutdown⟩
    | setInstallationName faults name =>
      obtain rfl : faults = noFaults := hfaults
      exact keeps_of_follows (hmir.setInstallationName name) hm rfl rfl
    | createConversation faults answer peerAddress =>
      obtain rfl : faults = noFaults := hfaults
      exact keeps_create h hm (fun _ => ⟨_, _, _, _, rfl⟩) answer fun id hid =>
        (hfresh id (by simp [Op.created, hid, Except.toOption])).1
    | createGroupConversation faults answer name desc =>
      obtain rfl : faults = noFaults := hfaults
      exact keeps_create h hm (fun _ => ⟨_, _, _, _, rfl⟩) answer fun id hid =>
        (hfresh id (by simp [Op.created, hid, Except.toOption])).1
    | addGroupMember answer convoId =>
      obtain ⟨hd, hf, hmod⟩ := addGroupMember_same answer convoId w
      exact keeps_of_follows (.stay hmir) (by simpa [Op.run, hmod] using hm) hd hf
    | setConversationNickname faults convoId nickname =>
      obtain rfl : faults = noFaults := hfaults
      exact keeps_of_finish (hmir.setConversationNickname nickname) hm _ _
    | deleteConversation faults convoId =>
      obtain rfl : faults = noFaults := hfaults
      exact keeps_of_finish hmir.deleteConversation hm _ _
    | sendMessage faults answer convoId content nowMs =>
      obtain rfl : faults = noFaults := hfaults
      rcases sendMessage_cases noFaults answer convoId content nowMs w with
        ⟨e, heq⟩ | ⟨-, -, heq⟩
      · simp only [Op.run, heq]
        exact ⟨[], a, .nil a, h⟩
      · simp only [Op.run, heq]
        exact keeps_of_finish (hmir.sendMessage content nowMs) hm _ _
    | conversationStarted faults convoId kind answer =>
      obtain rfl : faults = noFaults := hfaults
      exact keeps_of_follows (hmir.conversationStarted kind _) hm rfl rfl
    | messageReceived faults convoId content account installation nowMs =>
      obtain rfl : faults = noFaults := hfaults
      exact keeps_of_follows (hmir.messageReceived content account installation nowMs) hm rfl rfl
    | membersChanged convoId =>
      have hsame : Mirrors a (recordMembersChanged convoId w.guarded) := by
        unfold recordMembersChanged
        split
        · exact hmir
        · exact hmir.emit
      exact keeps_of_follows (.stay hsame) hm rfl rfl
  · -- nothing is installed: an init, or nothing at all
    have hnone : w.module = none := by simpa using hm
    have hdisplay : w.guarded.display = Display.default := by
      simp only [Keeps, hnone] at h
      exact h.2
    rcases run_of_uninstalled hnone hdisplay hstep with ⟨config, env, rfl⟩ | rfl
    · obtain rfl := step_eq_run hstep
      exact ⟨[], a, .nil a, h.init config env⟩
    · exact ⟨[], a, .nil a, h⟩

/-- A process that starts over a new file keeps the empty archive. -/
theorem keeps_start (ownNodePreset : Option String) :
    Keeps Archive.empty (World.start (emptyDb : ChatDb σ) ownNodePreset) := by
  refine ⟨⟨?_, ?_, ?_, rfl⟩, rfl⟩
  · intro id
    rfl
  · intro id
    simp [World.start, Archive.empty, Archive.log]
  · intro id
    simp [World.start, Archive.empty, emptyDb]

/-- Every run in which no write fails keeps some archive. -/
theorem keeps_run {ops : List Op} {ownNodePreset : Option String}
    (hrun : (sequential σ).Run Admissible (World.start emptyDb ownNodePreset) ops w) :
    ∃ a, Keeps a w := by
  obtain ⟨-, a, -, h⟩ := hrun.simulation (fun _ _ _ _ => keeps_step) (keeps_start ownNodePreset)
  exact ⟨a, h⟩

end Steps

end ChatModule
