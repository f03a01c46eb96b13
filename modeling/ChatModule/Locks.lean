import Mathlib.Logic.Function.Basic
import ChatModule.Lib.Machine

/-!
# The locks and the joins

What the threads of the process do to its locks, call by call: `init` and the other calls of
the contract on any number of threads, the two workers of each session, and the answers
delivery_module calls back with. A thread's code is what is left of its call: taking and
releasing locks, looking at what is installed under the module lock, spawning, stopping and
joining workers. Everything else it does, whether in libchat, in delivery_module, in SQLite,
in the log or in an `emit_*`, returns by itself and is `work`; an outcome that the locks do not
decide (an error, an answer, an event that does not decode) is `either`.

`shutdown` joins its bridge, drops its client and joins its event worker, in this order and
with no lock held. The event worker waits for the next event of its client, and ends when the
client is gone and the queue is empty.
-/

namespace ChatModule.Locks

/-! ## Threads and their code -/

/-- The mutexes: the module's, the display's and the one around `OWN_NODE_PRESET`. -/
inductive Lock
  | module
  | display
  | ownNodePreset
deriving DecidableEq

/-- A caller of the contract, the workers of a session, a thread that brings an answer. -/
inductive Thread
  | caller (n : ℕ)
  | bridge (session : ℕ)
  | events (session : ℕ)
  | callback (n : ℕ)
deriving DecidableEq

/-- Where a worker's loops come round again. -/
inductive Proc
  | runBridge (session : ℕ)
  | drainNodeStarted (session : ℕ)
  | drainConn (session : ℕ)
  | forwardSubscriptions (session : ℕ)
  | drainTopics (session : ℕ)
  | runEvents (session : ℕ)

/-- What a thread has left to do. -/
inductive Code
  /-- Return, or for a worker end. -/
  | ret
  | lock (l : Lock) (next : Code)
  | unlock (l : Lock) (next : Code)
  | work (next : Code)
  | either (left right : Code)
  /-- Whether a module state is installed. -/
  | installed (yes no : Code)
  /-- `guard.take()`, with the session that was installed. -/
  | take (found : ℕ → Code) (nothing : Code)
  /-- `spawn_bridge` and `spawn_events` of a new session. -/
  | spawn (next : ℕ → Code)
  | install (session : ℕ) (next : Code)
  /-- `inbound_stop.store(true)`. -/
  | stop (session : ℕ) (next : Code)
  | stopped (session : ℕ) (yes no : Code)
  | join (worker : Thread) (next : Code)
  | dropClient (session : ℕ) (next : Code)
  /-- The next event of the client, or the end of them. -/
  | recv (session : ℕ) (event closed : Code)
  | jump (p : Proc)

/-! ## The module's functions

Each with what comes after it. -/

/-- `with_display` and `with_display_mut`. -/
def withDisplay (next : Code) : Code := .lock .display (.work (.unlock .display next))

/-- A statement that reads or writes `own_node_preset()`. -/
def ownNodePreset (next : Code) : Code :=
  .lock .ownNodePreset (.work (.unlock .ownNodePreset next))

/-- `with_client`. -/
def withClient (next : Code) : Code :=
  .lock .module (.installed (.work (.unlock .module next)) (.unlock .module next))

/-- `?`: go on, or return the error. -/
def question (next : Code) : Code := .either .ret next

/-- A fallible call under a lock that an error has to pass through `fail`. -/
def fallible (fail next : Code) : Code := .work (.either fail next)

def checkLive (next : Code) : Code := withDisplay (question next)

/-- `emit_*`. -/
def emit (next : Code) : Code := .work next

/-! ### Lifecycle -/

/-- `initialize`, under the module lock: its last step seeds the display. -/
def initializeModule (fail : Code) (ok : ℕ → Code) : Code :=
  -- the persistence path, `create_dir_all`
  fallible fail <| fallible fail <|
  -- `register_installation`, the client's `build`
  fallible fail <| fallible fail <|
  -- `persistence::open`, `load_state`, `list_all_conversations`
  fallible fail <| fallible fail <| fallible fail <|
  -- `on_message_received`, `on_node_started`; a failed `on_connection_state_changed` is logged
  fallible fail <| fallible fail <| .work <|
  .spawn fun session => withDisplay (ok session)

/-- `create_node_async` returns at once. -/
def startDeliveryBootstrap (next : Code) : Code := .work next

def claimDeliveryRetry (claimed unclaimed : Code) : Code :=
  withDisplay (.either claimed unclaimed)

def init : Code :=
  .lock .module <| .installed
    (.unlock .module <| claimDeliveryRetry (startDeliveryBootstrap .ret) .ret)
    (initializeModule (.unlock .module .ret) fun session =>
      .install session <| .unlock .module <| startDeliveryBootstrap .ret)

/-- `actions::shutdown`, of the session taken out of the module. -/
def shutdownOf (session : ℕ) : Code :=
  .stop session <|
  .join (.bridge session) <|
  .dropClient session <|
  .join (.events session) <|
  withDisplay .ret

def shutdown : Code :=
  .lock .module <| .take (fun session => .unlock .module (shutdownOf session))
    (.unlock .module .ret)

/-! ### The other calls -/

/-- `create_conversation` and `create_group_conversation`. -/
def createConversation : Code := withClient <| question <| withDisplay <| question <| emit .ret

def addGroupMember : Code := checkLive <| withClient <| question <| emit .ret

def listGroupMembers : Code := checkLive <| withClient .ret

def sendMessage : Code :=
  -- `now_ms` between the two sections
  checkLive <| withClient <| question <| .work <| withDisplay <| question <| emit .ret

/-- `set_conversation_nickname` and `delete_conversation`. -/
def changeConversation : Code := withDisplay <| question <| emit .ret

/-- The calls of the contract. -/
inductive Method
  | init | shutdown | getLogPath | health
  | getInstallationName | setInstallationName | getAddress
  | createConversation | createGroupConversation | addGroupMember
  | listConversations | getMessages | listGroupMembers | sendMessage
  | setConversationNickname | deleteConversation | status

def Method.code : Method → Code
  | .init => Locks.init
  | .shutdown => Locks.shutdown
  | .getLogPath | .health => .work .ret
  | .getInstallationName | .setInstallationName | .getAddress => withDisplay .ret
  | .createConversation | .createGroupConversation => Locks.createConversation
  | .addGroupMember => Locks.addGroupMember
  | .listConversations | .getMessages | .status => withDisplay .ret
  | .listGroupMembers => Locks.listGroupMembers
  | .sendMessage => Locks.sendMessage
  | .setConversationNickname | .deleteConversation => changeConversation

/-! ### The answers of delivery_module -/

/-- `start_async` returns at once. -/
def startNode : Code := withDisplay (.work .ret)

/-- `get_node_info_async` returns at once. -/
def joinExistingNode : Code := .work .ret

def setDeliveryError : Code := withDisplay .ret

/-- The calls an answer comes to; that of a `send` or a `subscribe` is only logged. -/
inductive Callback
  | createNode | getNodeInfo | start | send | subscribe

def Callback.code : Callback → Code
  | .createNode => .either (Locks.ownNodePreset startNode) joinExistingNode
  | .getNodeInfo => .either (Locks.ownNodePreset (withDisplay startNode)) setDeliveryError
  | .start => .either (withDisplay .ret) .ret
  | .send | .subscribe => .work .ret

/-! ### The workers -/

/-- `record_conversation_started`: a group's metadata is read from the client first. -/
def recordConversationStarted (next : Code) : Code :=
  .either (withClient (withDisplay next)) (withDisplay next)

def recordMessageReceived (next : Code) : Code := withDisplay next

def recordMembersChanged (next : Code) : Code := withDisplay next

/-- `drain`: nothing pending, an event it handles, or one that does not decode. -/
def drain (again next : Code) : Code :=
  .work (.either next (.either (withDisplay again) again))

def Proc.body : Proc → Code
  | .runBridge n =>
    -- `recv_timeout` comes back: disconnected, or a message to forward or none
    .stopped n .ret (.work (.either .ret (.jump (.drainNodeStarted n))))
  | .drainNodeStarted n => drain (.jump (.drainNodeStarted n)) (.jump (.drainConn n))
  | .drainConn n => drain (.jump (.drainConn n)) (.jump (.forwardSubscriptions n))
  | .forwardSubscriptions n =>
    withDisplay (.either (.jump (.drainTopics n)) (.jump (.runBridge n)))
  | .drainTopics n => .work (.either (.jump (.drainTopics n)) (.jump (.runBridge n)))
  | .runEvents n =>
    let next := Code.jump (.runEvents n)
    .recv n
      (.either (recordConversationStarted next) (.either (recordMessageReceived next)
        (.either (recordMembersChanged next) next)))
      .ret

/-! ## The machine -/

/-- Who holds which lock, what is installed, and for each session whether its bridge was told
to stop, whether its client was dropped and how many events are queued. -/
structure State where
  holder : Lock → Option Thread
  installed : Option ℕ
  sessions : ℕ
  stopped : ℕ → Bool
  dropped : ℕ → Bool
  queued : ℕ → ℕ
  code : Thread → Code

/-- The process as it starts. -/
def State.start : State where
  holder _ := none
  installed := none
  sessions := 0
  stopped _ := false
  dropped _ := false
  queued _ := 0
  code _ := .ret

namespace State

variable (s : State)

/-- `t` goes on with `c`. -/
def goOn (t : Thread) (c : Code) : State := { s with code := Function.update s.code t c }

def setHolder (l : Lock) (t : Option Thread) : State :=
  { s with holder := Function.update s.holder l t }

/-- The workers of the next session begin. -/
def spawned : State :=
  { s with
    sessions := s.sessions + 1
    code := Function.update (Function.update s.code
      (.bridge s.sessions) (.jump (.runBridge s.sessions)))
      (.events s.sessions) (.jump (.runEvents s.sessions)) }

/-- The event worker's queue is empty and its client may still add to it. -/
def Idle (session : ℕ) : Prop := s.queued session = 0 ∧ s.dropped session = false

instance (session : ℕ) : Decidable (s.Idle session) := inferInstanceAs (Decidable (_ ∧ _))

end State

/-- Whether a thread has returned. -/
def Code.returned : Code → Bool
  | .ret => true
  | _ => false

theorem Code.returned_iff {c : Code} : c.returned = true ↔ c = .ret := by
  cases c <;> simp [returned]

/-- One step of thread `t`, if it need not wait. -/
def advance (s : State) (t : Thread) (left : Bool) : Option State :=
  match s.code t with
  | .ret => none
  | .lock l next => if s.holder l = none then some ((s.setHolder l t).goOn t next) else none
  | .unlock l next => some ((s.setHolder l none).goOn t next)
  | .work next => some (s.goOn t next)
  | .either a b => some (s.goOn t (if left then a else b))
  | .installed yes no => some (s.goOn t (if s.installed.isSome then yes else no))
  | .take found nothing =>
    match s.installed with
    | some n => some (({ s with installed := none }).goOn t (found n))
    | none => some (s.goOn t nothing)
  | .spawn next => some (s.spawned.goOn t (next s.sessions))
  | .install n next => some (({ s with installed := some n }).goOn t next)
  | .stop n next => some (({ s with stopped := Function.update s.stopped n true }).goOn t next)
  | .stopped n yes no => some (s.goOn t (if s.stopped n then yes else no))
  | .join u next => if (s.code u).returned then some (s.goOn t next) else none
  | .dropClient n next =>
    some (({ s with dropped := Function.update s.dropped n true }).goOn t next)
  | .recv n event closed =>
    if s.queued n ≠ 0 then
      some (({ s with queued := Function.update s.queued n (s.queued n - 1) }).goOn t event)
    else if s.dropped n then some (s.goOn t closed)
    else none
  | .jump p => some (s.goOn t p.body)

/-- What may happen next. -/
inductive Move
  /-- A caller whose last call returned makes another. -/
  | call (n : ℕ) (m : Method)
  /-- delivery_module answers, on a thread of its own. -/
  | answer (n : ℕ) (c : Callback)
  /-- The client of a session queues an event. -/
  | event (session : ℕ)
  | go (t : Thread) (left : Bool)

/-- The threads, interleaved step by step. -/
def threads : Machine State Move where
  step s
    | .call n m =>
      if (s.code (.caller n)).returned then some (s.goOn (.caller n) m.code) else none
    | .answer n c =>
      if (s.code (.callback n)).returned then some (s.goOn (.callback n) c.code) else none
    | .event n =>
      if n < s.sessions ∧ s.dropped n = false then
        some { s with queued := Function.update s.queued n (s.queued n + 1) }
      else none
    | .go t left => advance s t left

end ChatModule.Locks
