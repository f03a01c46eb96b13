import ChatModule.Actions.Delivery

/-!
# Lifecycle: init and shutdown

`initialize` does its fallible set-up first and seeds the display last, so a
failure leaves both locks' contents as they were. What it asks of the host, of
libchat, of `chat.db` and of delivery_module is answered by an `Environment`.

`initializeModule_ok_iff` is the one lemma about it: it succeeds exactly when every
answer is a success (`Environment.Up`), and then the display is `Seeded` from the
file.
-/

namespace ChatModule.Actions

open Persistence

variable {σ : Type}

/-- Failure modes for `initialize`. -/
inductive InitError
  | noPersistencePath
  | internal (message : String)
  | delivery (message : String)
deriving DecidableEq

/-- The text of an `InitError`. -/
def InitError.message : InitError → String
  | noPersistencePath =>
    "host did not assign an instance persistence path; start the host with a session or config dir"
  | internal message => message
  | delivery message => message

/-- The answers `initialize` gets from outside, failures as their text. -/
structure Environment where
  /-- `context().instance_persistence_path`, `none` without a context. -/
  instancePersistencePath : Option String
  createDirAll : Except String Unit
  registerInstallation : Except String Unit
  build : Except String Client
  openChatDb : Except SqlError Unit
  readChatDb : Except SqlError Unit
  listAllConversations : Except String (List String)
  onMessageReceived : Except String Unit
  onNodeStarted : Except String Unit

/-- The display as `initialize` seeds it. -/
def seedDisplay (state : AppState) (client : Client) : Display where
  state := state
  chatDb := some {}
  deliveryState := .initialising
  intrinsicName := client.installationName
  address := client.addr

/-- Mark as history-only each chat the client does not list. -/
def markHistoryOnly (live : List String) (state : AppState) : AppState :=
  let chats := state.chats.mapValues
    (fun session => { session with historyOnly := !live.contains session.chatId })
    (fun _ => rfl)
  { state with chats := chats }

/-! ## Shutdown -/

/-- `shutdown`'s last section: reset the display, closing `chat.db`. -/
def resetDisplay (g : Guarded σ) : Guarded σ := { g with display := Display.default }

/-- The module's `shutdown`, run from beginning to end: take the state, end the
workers, reset the display. Nothing happens when no state is installed. -/
def shutdown (w : World σ) : World σ :=
  match w.take with
  | (w, some _) => { w with guarded := resetDisplay w.guarded }
  | (w, none) => w

@[simp] theorem shutdown_module (w : World σ) : (shutdown w).module = none := by
  unfold shutdown World.take
  cases h : w.module <;> rfl

/-- A shutdown leaves the file and the events alone. -/
@[simp] theorem shutdown_file (w : World σ) : (shutdown w).guarded.file = w.guarded.file := by
  unfold shutdown World.take
  cases h : w.module <;> rfl

@[simp] theorem shutdown_raised (w : World σ) : (shutdown w).guarded.raised = w.guarded.raised := by
  unfold shutdown World.take
  cases h : w.module <;> rfl

theorem shutdown_of_none {w : World σ} (h : w.module = none) : shutdown w = w := by
  cases w with
  | mk m g p =>
    cases h
    rfl

theorem shutdown_display {w : World σ} (h : w.module.isSome) :
    (shutdown w).guarded.display = Display.default := by
  unfold shutdown World.take
  cases hm : w.module with
  | none => simp [hm] at h
  | some ms => rfl

/-! ## Init -/

variable [MessageStore σ]

/-- `initialize`: the seeded display and the state to install. -/
def initializeModule (env : Environment) (g : Guarded σ) :
    Except InitError (Guarded σ × ModuleState) := do
  let _path ← (env.instancePersistencePath.filter (· ≠ "")).okOr .noPersistencePath
  env.createDirAll.mapError fun e =>
    .internal ("cannot create instance persistence path: " ++ e)
  env.registerInstallation.mapError fun e => .internal ("publish account failed: " ++ e)
  let client ← env.build.mapError fun e => InitError.internal ("client build failed: " ++ e)
  env.openChatDb.mapError fun e => .internal ("open chat.db failed: " ++ e)
  let state ← (env.readChatDb >>= fun _ => loadState g.file).mapError fun e =>
    InitError.internal ("read chat.db failed: " ++ e)
  let live ← env.listAllConversations.mapError fun e =>
    InitError.internal ("list_all_conversations failed: " ++ e)
  env.onMessageReceived.mapError fun e => .delivery ("subscribe(messageReceived) failed: " ++ e)
  env.onNodeStarted.mapError fun e => .delivery ("subscribe(nodeStarted) failed: " ++ e)
  -- from here on nothing fails: the display is seeded, then the state installed
  pure ({ g with display := seedDisplay (markHistoryOnly live state) client }, ⟨client⟩)

/-- The delivery preset a configuration names, "logos.test" when it names none. -/
def presetOf (config : ChatConfig) : String :=
  match config.deliveryPreset.getD "" with
  | "" => "logos.test"
  | named => named

/-- What the module's `init` leaves: the process, what it returns, and the call
to delivery_module it makes, if any. -/
structure InitOutcome (σ : Type) where
  world : World σ
  result : Except String Unit
  dispatched : Option Pending

/-- The module's `init`. -/
def init (config : ChatConfig) (env : Environment) (w : World σ) : InitOutcome σ :=
  match w.installWith (initializeModule env) with
  | (w, .ok .installed) => ⟨w, .ok (), some (startDeliveryBootstrap (presetOf config))⟩
  | (w, .ok .alreadyInstalled) =>
    -- the session stays; its bootstrap runs again if it failed
    match claimDeliveryRetry w.guarded with
    | (g, true) =>
      ⟨{ w with guarded := g }, .ok (), some (startDeliveryBootstrap (presetOf config))⟩
    | (g, false) => ⟨{ w with guarded := g }, .ok (), none⟩
  | (w, .error e) => ⟨w, .error e.message, none⟩

/-! ## What a successful init leaves -/

/-- Every answer is a success: the client built and the conversations it lists. -/
structure Environment.Up (env : Environment) (client : Client) (live : List String) : Prop where
  path : ∃ path, env.instancePersistencePath = some path ∧ path ≠ ""
  createDirAll : env.createDirAll = .ok ()
  registerInstallation : env.registerInstallation = .ok ()
  build : env.build = .ok client
  openChatDb : env.openChatDb = .ok ()
  readChatDb : env.readChatDb = .ok ()
  listAllConversations : env.listAllConversations = .ok live
  onMessageReceived : env.onMessageReceived = .ok ()
  onNodeStarted : env.onNodeStarted = .ok ()

/-- The environment in which everything succeeds. -/
def Environment.up (client : Client) (live : List String) : Environment where
  instancePersistencePath := some "/instance"
  createDirAll := .ok ()
  registerInstallation := .ok ()
  build := .ok client
  openChatDb := .ok ()
  readChatDb := .ok ()
  listAllConversations := .ok live
  onMessageReceived := .ok ()
  onNodeStarted := .ok ()

theorem Environment.up_up (client : Client) (live : List String) :
    (Environment.up client live).Up client live :=
  ⟨⟨"/instance", rfl, by decide⟩, rfl, rfl, rfl, rfl, rfl, rfl, rfl, rfl⟩

/-- The display an init seeds from the file it opens. -/
structure Seeded (g : Guarded σ) (client : Client) (live : List String) (g' : Guarded σ) :
    Prop where
  chats : ∀ id, g'.chats.get id = (g.file.row id).map fun row =>
    { loadedSession g.file id row with historyOnly := !live.contains id }
  deleted : g'.deleted = g.file.deletedChats
  name : g'.display.state.installationName = g.file.installationName
  chatDb : g'.display.chatDb = some {}
  delivery : g'.display.deliveryState = .initialising
  intrinsicName : g'.display.intrinsicName = client.installationName
  file : g'.file = g.file
  raised : g'.raised = g.raised

/-- Marking is read back chat by chat. -/
theorem get_markHistoryOnly (live : List String) (state : AppState) (id : String) :
    (markHistoryOnly live state).chats.get id = (state.chats.get id).map fun session =>
      { session with historyOnly := !live.contains id } := by
  rw [show (markHistoryOnly live state).chats.get id = _ from Keyed.get_mapValues _ _ _ id]
  cases h : state.chats.get id with
  | none => rfl
  | some session => simp [Keyed.key_of_get h]

/-- `initialize` succeeds exactly when everything it asks for does. -/
theorem initializeModule_ok_iff {env : Environment} {g g' : Guarded σ} {ms : ModuleState} :
    initializeModule env g = .ok (g', ms) ↔ ∃ live state, env.Up ms.client live ∧
      loadState g.file = .ok state ∧
      g' = { g with display := seedDisplay (markHistoryOnly live state) ms.client } := by
  unfold initializeModule
  constructor
  · -- one answer after the other, each of which has to be a success
    intro h
    obtain ⟨path, hpath, h₁⟩ := Except.bind_eq_ok_iff.mp h
    obtain ⟨⟨⟩, hdir, h₂⟩ := Except.bind_eq_ok_iff.mp h₁
    obtain ⟨⟨⟩, hreg, h₃⟩ := Except.bind_eq_ok_iff.mp h₂
    obtain ⟨client, hbuild, h₄⟩ := Except.bind_eq_ok_iff.mp h₃
    obtain ⟨⟨⟩, hopen, h₅⟩ := Except.bind_eq_ok_iff.mp h₄
    obtain ⟨state, hload, h₆⟩ := Except.bind_eq_ok_iff.mp h₅
    obtain ⟨live, hlive, h₇⟩ := Except.bind_eq_ok_iff.mp h₆
    obtain ⟨⟨⟩, hmsg, h₈⟩ := Except.bind_eq_ok_iff.mp h₇
    obtain ⟨⟨⟩, hnode, h₉⟩ := Except.bind_eq_ok_iff.mp h₈
    rw [Except.mapError_eq_ok_iff] at hdir hreg hbuild hopen hload hlive hmsg hnode
    obtain ⟨⟨⟩, hread, hload⟩ := Except.bind_eq_ok_iff.mp hload
    rw [Option.okOr_eq_ok_iff, Option.filter_eq_some_iff] at hpath
    cases h₉
    exact ⟨live, state, ⟨⟨path, hpath.1, by simpa using hpath.2⟩, hdir, hreg, hbuild, hopen, hread,
      hlive, hmsg, hnode⟩, hload, rfl⟩
  · rintro ⟨live, state, hup, hload, rfl⟩
    obtain ⟨path, hpath, hne⟩ := hup.path
    have hfilter : env.instancePersistencePath.filter (· ≠ "") = some path :=
      Option.filter_eq_some_iff.mpr ⟨hpath, by simpa using hne⟩
    rw [Option.okOr_eq_ok_iff.mpr hfilter, hup.createDirAll, hup.registerInstallation, hup.build,
      hup.openChatDb, hup.readChatDb, hup.listAllConversations, hup.onMessageReceived,
      hup.onNodeStarted]
    change (Except.mapError _ (loadState g.file) >>= _) = _
    rw [hload]
    rfl

section Lawful

variable [LawfulMessageStore σ]

theorem seeded_of_loadState {g : Guarded σ} {state : AppState} {client : Client}
    {live : List String} (h : loadState g.file = .ok state) :
    Seeded g client live { g with display := seedDisplay (markHistoryOnly live state) client } := by
  obtain ⟨state', hload, hget, hdel, hname⟩ := loadState_eq g.file
  rw [h] at hload
  cases hload
  refine ⟨?_, hdel, hname, rfl, rfl, rfl, rfl, rfl⟩
  intro id
  change (markHistoryOnly live state).chats.get id = _
  rw [get_markHistoryOnly, hget id, Option.map_map]
  rfl

/-- When everything it asks for succeeds, so does `initialize`. -/
theorem initializeModule_up {env : Environment} {client : Client} {live : List String}
    (hup : env.Up client live) (g : Guarded σ) :
    ∃ g', initializeModule env g = .ok (g', ⟨client⟩) ∧ Seeded g client live g' := by
  obtain ⟨state, hload, -⟩ := loadState_eq g.file
  exact ⟨_, initializeModule_ok_iff.mpr ⟨live, state, hup, hload, rfl⟩, seeded_of_loadState hload⟩

theorem initializeModule_ok {env : Environment} {g g' : Guarded σ} {ms : ModuleState}
    (h : initializeModule env g = .ok (g', ms)) :
    ∃ live, env.Up ms.client live ∧ Seeded g ms.client live g' := by
  obtain ⟨live, state, hup, hload, rfl⟩ := initializeModule_ok_iff.mp h
  exact ⟨live, hup, seeded_of_loadState hload⟩

end Lawful

/-- With no session installed and everything succeeding, `init` installs one. -/
theorem init_up [LawfulMessageStore σ] (config : ChatConfig) {env : Environment} {client : Client}
    {live : List String} (hup : env.Up client live) {w : World σ} (hm : w.module = none) :
    ∃ g, Seeded w.guarded client live g ∧ init config env w =
      ⟨{ w with module := some ⟨client⟩, guarded := g }, .ok (),
        some (startDeliveryBootstrap (presetOf config))⟩ := by
  obtain ⟨g, hinit, hseeded⟩ := initializeModule_up hup w.guarded
  refine ⟨g, hseeded, ?_⟩
  unfold init World.installWith
  rw [hm, hinit]

/-- The three things `init` can do: install a session, find one, or fail. -/
theorem init_cases (config : ChatConfig) (env : Environment) (w : World σ) :
    (w.module = none ∧ ∃ g ms, initializeModule env w.guarded = .ok (g, ms) ∧
      init config env w = ⟨{ w with module := some ms, guarded := g }, .ok (),
        some (startDeliveryBootstrap (presetOf config))⟩) ∨
    (w.module.isSome ∧ init config env w =
      ⟨{ w with guarded := (claimDeliveryRetry w.guarded).1 }, .ok (),
        if (claimDeliveryRetry w.guarded).2 then
          some (startDeliveryBootstrap (presetOf config)) else none⟩) ∨
    (w.module = none ∧ ∃ e, initializeModule env w.guarded = .error e ∧
      init config env w = ⟨w, .error e.message, none⟩) := by
  unfold init World.installWith
  cases hm : w.module with
  | none =>
    cases hi : initializeModule env w.guarded with
    | ok p => exact Or.inl ⟨rfl, p.1, p.2, rfl, rfl⟩
    | error e => exact Or.inr (Or.inr ⟨rfl, e, rfl, rfl⟩)
  | some ms =>
    -- claimed or not, the outcome is the same expression in the claim
    refine Or.inr (Or.inl ⟨rfl, ?_⟩)
    cases hc : claimDeliveryRetry w.guarded with
    | mk g b => cases b <;> simp [hc, hm]

end ChatModule.Actions
