import Mathlib.Data.Int.Notation

/-!
# The contract's records and events

The wire shapes of `chat_module.lidl` that the modelled operations return or
raise. Optional fields are `Option`; `int` fields keep the width the code casts
to, except counts, which are integers.
-/

namespace ChatModule

/-- One element of `list_conversations`. -/
structure Conversation where
  convoId : String
  nickname : Option String
  messageCount : ℤ
  lastActivityMs : Int64
  kind : String
  name : Option String
  description : Option String
  preview : Option String
  historyOnly : Bool
deriving DecidableEq

/-- One element of `get_messages`. -/
structure Message where
  fromSelf : Bool
  content : String
  timestampMs : Int64
  sender : Option String
deriving DecidableEq

/-- One element of `list_group_members`. -/
structure GroupMember where
  address : String
  pending : Bool
deriving DecidableEq

/-- What `status` reports. -/
structure Status where
  convoCount : ℤ
  deliveryState : String
  detail : String
  deliveryAdopted : Bool
deriving DecidableEq

/-- The plugin events, one constructor for each `emit_*`. -/
inductive PluginEvent
  | messageReceived (convoId content : String) (timestampMs : Int64) (sender : String)
  | messageSent (convoId content : String) (timestampMs : Int64)
  | conversationCreated (convoId : String) (isOutgoing : Bool) (peerLabel kind name desc : String)
  | conversationUpdated (convoId : String)
  | membersChanged (convoId : String)
  | conversationDeleted (convoId : String)
  | deliveryStateChanged (deliveryState detail : String) (deliveryAdopted : Bool)
deriving DecidableEq

/-- The conversation a plugin event is about. -/
def PluginEvent.convoId : PluginEvent → Option String
  | messageReceived convoId .. | messageSent convoId .. | conversationCreated convoId ..
  | conversationUpdated convoId | membersChanged convoId | conversationDeleted convoId =>
    some convoId
  | deliveryStateChanged .. => none

/-- What `init` is given; `log_level`, which only the logging set-up reads, is
left out. -/
structure ChatConfig where
  deliveryPreset : Option String
deriving DecidableEq

end ChatModule
