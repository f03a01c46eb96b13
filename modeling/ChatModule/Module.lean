import ChatModule.Contract
import ChatModule.Persistence

/-!
# Singleton module state plus pure helpers

The state is split across two locks. The module lock guards `ModuleState`, the
client and the workers of one session; the display lock guards the display: the
conversation log, the connection to `chat.db`, the delivery state and the cached
identity. `Guarded` is what code holding the display lock can reach: the display,
the file its connection writes, and the plugin events raised so far, which are
kept in the order they were raised.

The file outlives the connection: a shutdown drops the connection with the
display and leaves the file as it is.
-/

namespace ChatModule

/-! ## Delivery state -/

/-- Where delivery stands; `stopped` means not initialised. -/
inductive DeliveryStateKind
  | initialising
  | online
  | error
  | stopped
deriving DecidableEq, Repr

/-- Lowercase wire form. -/
def DeliveryStateKind.asStr : DeliveryStateKind → String
  | initialising => "initialising"
  | online => "online"
  | error => "error"
  | stopped => "stopped"

/-- The payload of `delivery_state_changed`, with `starting` (this init
dispatched `start` and waits for `nodeStarted`) and `started` (this init's
bootstrap started the node), which only this module reads. -/
structure DeliveryState where
  state : DeliveryStateKind
  detail : String
  starting : Bool
  started : Bool
  adopted : Bool
deriving DecidableEq

/-- `DeliveryState::initialising()`. -/
def DeliveryState.initialising : DeliveryState := ⟨.initialising, "", false, false, false⟩

/-- `DeliveryState::stopped()`. -/
def DeliveryState.stopped : DeliveryState := ⟨.stopped, "", false, false, false⟩

/-! ## The two locks -/

/-- What the module reads off a client: its intrinsic installation name and its
address. Its cryptographic state is libchat's. -/
structure Client where
  installationName : String
  addr : String
deriving DecidableEq

/-- The state behind the module lock, less the worker handles. -/
structure ModuleState where
  client : Client
deriving DecidableEq

/-- An open connection to the instance's `chat.db`. -/
structure Connection where
deriving DecidableEq

/-- Everything the read methods need, behind its own lock. -/
structure Display where
  state : AppState
  chatDb : Option Connection
  deliveryState : DeliveryState
  intrinsicName : String
  address : String

/-- `Display::default()`. -/
def Display.default : Display where
  state := AppState.default
  chatDb := none
  deliveryState := .stopped
  intrinsicName := ""
  address := ""

/-- What code that holds the display lock reads and changes. -/
structure Guarded (σ : Type) where
  display : Display
  file : ChatDb σ
  raised : List PluginEvent

/-- The process: both locks' contents and the preset this process last created
delivery_module's node with. -/
structure World (σ : Type) where
  module : Option ModuleState
  guarded : Guarded σ
  ownNodePreset : Option String

namespace Guarded

variable {σ : Type}

/-- The conversations in memory. -/
abbrev chats (g : Guarded σ) : Chats := g.display.state.chats

/-- The ids deleted here. -/
abbrev deleted (g : Guarded σ) : Finset String := g.display.state.deleted

/-- Raise a plugin event. -/
def emit (g : Guarded σ) (e : PluginEvent) : Guarded σ := { g with raised := g.raised ++ [e] }

/-- Put a session into the map, in place of the one under its id. -/
def put (g : Guarded σ) (s : ChatSession) : Guarded σ :=
  { g with display := { g.display with
      state := { g.display.state with chats := g.chats.insert s } } }

/-- Take a chat out of the map and remember that it was deleted. -/
def forget (g : Guarded σ) (id : String) : Guarded σ :=
  { g with display := { g.display with state := { g.display.state with
      chats := g.chats.remove id
      deleted := insert id g.deleted } } }

/-- Set the installation-name override. -/
def rename (g : Guarded σ) (name : Option String) : Guarded σ :=
  { g with display := { g.display with
      state := { g.display.state with installationName := name } } }

/-- Set the delivery state. -/
def setDelivery (g : Guarded σ) (ds : DeliveryState) : Guarded σ :=
  { g with display := { g.display with deliveryState := ds } }

section Fields

variable (g : Guarded σ) (e : PluginEvent) (s : ChatSession) (id : String) (n : Option String)
  (ds : DeliveryState)

@[simp] theorem display_emit : (g.emit e).display = g.display := rfl
@[simp] theorem file_emit : (g.emit e).file = g.file := rfl
@[simp] theorem raised_emit : (g.emit e).raised = g.raised ++ [e] := rfl

@[simp] theorem chats_put : (g.put s).chats = g.chats.insert s := rfl
@[simp] theorem deleted_put : (g.put s).deleted = g.deleted := rfl
@[simp] theorem name_put :
    (g.put s).display.state.installationName = g.display.state.installationName := rfl
@[simp] theorem chatDb_put : (g.put s).display.chatDb = g.display.chatDb := rfl
@[simp] theorem intrinsicName_put : (g.put s).display.intrinsicName = g.display.intrinsicName := rfl
@[simp] theorem file_put : (g.put s).file = g.file := rfl
@[simp] theorem raised_put : (g.put s).raised = g.raised := rfl

@[simp] theorem chats_forget : (g.forget id).chats = g.chats.remove id := rfl
@[simp] theorem deleted_forget : (g.forget id).deleted = insert id g.deleted := rfl
@[simp] theorem name_forget :
    (g.forget id).display.state.installationName = g.display.state.installationName := rfl
@[simp] theorem chatDb_forget : (g.forget id).display.chatDb = g.display.chatDb := rfl
@[simp] theorem file_forget : (g.forget id).file = g.file := rfl
@[simp] theorem raised_forget : (g.forget id).raised = g.raised := rfl

@[simp] theorem chats_rename : (g.rename n).chats = g.chats := rfl
@[simp] theorem deleted_rename : (g.rename n).deleted = g.deleted := rfl
@[simp] theorem name_rename : (g.rename n).display.state.installationName = n := rfl
@[simp] theorem chatDb_rename : (g.rename n).display.chatDb = g.display.chatDb := rfl
@[simp] theorem file_rename : (g.rename n).file = g.file := rfl
@[simp] theorem raised_rename : (g.rename n).raised = g.raised := rfl

@[simp] theorem state_setDelivery : (g.setDelivery ds).display.state = g.display.state := rfl
@[simp] theorem chatDb_setDelivery : (g.setDelivery ds).display.chatDb = g.display.chatDb := rfl
@[simp] theorem deliveryState_setDelivery : (g.setDelivery ds).display.deliveryState = ds := rfl
@[simp] theorem file_setDelivery : (g.setDelivery ds).file = g.file := rfl
@[simp] theorem raised_setDelivery : (g.setDelivery ds).raised = g.raised := rfl

end Fields

/-- Putting back what is there changes nothing. -/
theorem put_of_get {g : Guarded σ} {id : String} {s : ChatSession} (h : g.chats.get id = some s) :
    g.put s = g := by
  unfold put
  rw [Keyed.insert_of_get h]

/-- Of two sessions put under one id the last stays. -/
theorem put_put {g : Guarded σ} {s s' : ChatSession} (h : s'.chatId = s.chatId) :
    (g.put s).put s' = g.put s' := by
  unfold put chats
  rw [Keyed.insert_insert h]

end Guarded

/-! ## The module lock -/

/-- What `install_with` found. -/
inductive InstallOutcome
  | installed
  | alreadyInstalled
deriving DecidableEq, Repr

namespace World

variable {σ : Type} {ε : Type}

/-- `ModuleHandle::install_with`: install a fresh state via `f`, which seeds the
display on the way; nothing happens when one is installed, or when `f` fails. -/
def installWith (w : World σ) (f : Guarded σ → Except ε (Guarded σ × ModuleState)) :
    World σ × Except ε InstallOutcome :=
  match w.module with
  | some _ => (w, .ok .alreadyInstalled)
  | none =>
    match f w.guarded with
    | .ok (g, ms) => ({ w with module := some ms, guarded := g }, .ok .installed)
    | .error e => (w, .error e)

/-- `ModuleHandle::take`. -/
def take (w : World σ) : World σ × Option ModuleState :=
  ({ w with module := none }, w.module)

/-- The process as it starts over the file it finds. -/
def start (file : ChatDb σ) (ownNodePreset : Option String) : World σ where
  module := none
  guarded := ⟨Display.default, file, []⟩
  ownNodePreset := ownNodePreset

end World

/-! ## Pure helpers -/

/-- Short label derived from a chat id: its first 8 characters. -/
def shortLabel (chatId : String) : String := String.ofList (chatId.toList.take 8)

/-- Display name for the local installation: the override if set, otherwise
libchat's intrinsic name. -/
def effectiveInstallationName (d : Display) : String :=
  d.state.installationName.getD d.intrinsicName

end ChatModule
