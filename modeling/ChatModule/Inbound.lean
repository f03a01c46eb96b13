import Mathlib.Data.Finset.Basic
import ChatModule.Actions.Delivery

/-!
# Background workers

What the bridge worker and the event consumer do with one event each: the bridge
pushes the messages of chat topics to the client's inbound channel and turns
delivery_module's connectivity into delivery state, the consumer maps libchat's
conversation classes to the contract's kinds.
-/

namespace ChatModule.Inbound

open Actions

variable {σ : Type}

/-- libchat's display class of a conversation. -/
inductive ConversationClass
  | dm
  | group
deriving DecidableEq, Repr

/-- The pairwise shape is `direct`, GroupV2 is `group`. -/
def kindForClass : ConversationClass → ConversationKind
  | .dm => .direct
  | .group => .group

/-! ## Messages -/

/-- What `decode_message_received` finds in a `messageReceived` event; its source,
which is only logged, is left out. -/
structure MessageReceived where
  messageHash : String
  contentTopic : String
  payload : List UInt8
deriving DecidableEq

/-- The single home for chat's content-topic scheme. -/
def topicPrefix : String := "/logos-chat/1/"

/-- The content topic of a delivery address. -/
def contentTopicFor (deliveryAddress : String) : String :=
  topicPrefix ++ deliveryAddress ++ "/proto"

/-- Whether a message is of a chat topic: `starts_with(TOPIC_PREFIX)`. -/
def ofChatTopic (msg : MessageReceived) : Bool :=
  topicPrefix.toList.isPrefixOf msg.contentTopic.toList

/-- How many hashes `SeenMessages` keeps. -/
def seenCapacity : ℕ := 10000

/-- Recently forwarded message hashes; the queue's front is the list's head. -/
structure SeenMessages where
  hashes : Finset String
  order : List String
deriving DecidableEq

/-- `SeenMessages::default()`. -/
def SeenMessages.default : SeenMessages := ⟨∅, []⟩

/-- `first_sighting`: whether a hash is new, which is then remembered. -/
def SeenMessages.firstSighting (hash : String) (seen : SeenMessages) : SeenMessages × Bool :=
  if hash ∈ seen.hashes then (seen, false)
  else
    let seen :=
      if seen.order.length = seenCapacity then
        match seen.order with
        | oldest :: order => ⟨seen.hashes.erase oldest, order⟩
        | [] => seen
      else seen
    (⟨insert hash seen.hashes, seen.order ++ [hash]⟩, true)

/-- What `forward_message` works on: the hashes it remembers and the payloads it has
pushed to the client's inbound channel. Whether the client was there to take one is
not looked at. -/
structure Forwarded where
  seen : SeenMessages
  inbound : List (List UInt8)
deriving DecidableEq

/-- `forward_message`, over what `decode` finds in an event. -/
def forwardMessage {ε : Type} (decode : ε → Option MessageReceived) (evt : ε) (s : Forwarded) :
    Forwarded :=
  match decode evt with
  | none => s
  | some msg =>
    -- the topic first: what is not chat's is not remembered either
    if !ofChatTopic msg then s
    else
      match s.seen.firstSighting msg.messageHash with
      | (seen, false) => { s with seen := seen }
      | (seen, true) => ⟨seen, s.inbound ++ [msg.payload]⟩

/-! ## Connectivity -/

/-- Unknown statuses map to `error`. -/
def mapConnectionStatus (status : String) : DeliveryStateKind :=
  if status = "Connected" ∨ status = "PartiallyConnected" then .online else .error

/-- The delivery state to move to for a connectivity `status`, or `none` to
ignore the event: until this init's bootstrap has started the node. -/
def connectionTransition (started : Bool) (status : String) : Option DeliveryStateKind :=
  if !started then none else some (mapConnectionStatus status)

/-- `handle_connection_state`. -/
def handleConnectionState (status : String) (g : Guarded σ) : Guarded σ :=
  match connectionTransition g.display.deliveryState.started status with
  | some next => setDeliveryState next "" g
  | none => g

theorem handleConnectionState_of_not_started {g : Guarded σ} {status : String}
    (h : g.display.deliveryState.started = false) : handleConnectionState status g = g := by
  simp [handleConnectionState, connectionTransition, h]

theorem handleConnectionState_delivery (g : Guarded σ) (status : String) :
    (handleConnectionState status g).display.deliveryState =
      if g.display.deliveryState.started then
        { g.display.deliveryState with state := mapConnectionStatus status, detail := "" }
      else g.display.deliveryState := by
  cases h : g.display.deliveryState.started with
  | false => simp [handleConnectionState_of_not_started h]
  | true => simp [handleConnectionState, connectionTransition, h]

end ChatModule.Inbound
