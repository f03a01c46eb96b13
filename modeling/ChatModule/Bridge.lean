import ChatModule.Forwarding
import ChatModule.Subscribing

/-!
# The bridge

One thread hears three kinds of delivery_module's events. In each turn of its loop it takes
one `messageReceived` at most, then every `nodeStarted` there is, then every connectivity
event there is, and then passes on the queued subscriptions. Here a turn is cut into its
receives, so that events come, calls are answered and topics are queued between any two.

* `bridge_refines` — seen from the subscriptions, the loop is the machine of `Subscribing`;
* `bridge_hears` — each event is heard once and in order, and what was pushed to the client
  is what `forwardMessage` makes of the messages heard;
* `bridge_quiet` — a bridge left alone hears everything that has come;
* `bridge_stops` — a bridge told to stop hears one message more at most, and left alone
  returns.
-/

namespace ChatModule

open Actions Inbound

variable {σ ε : Type}

/-! ## Subscriptions to events -/

/-- The kinds of events the bridge hears. -/
inductive Source
  | messages
  | nodeStarted
  | connection
deriving DecidableEq

/-- The receiving end of the events of one kind. -/
structure EventSubscription (ε : Type) where
  pending : List ε
  connected : Bool

/-- Why a receive brings no event. -/
inductive TryRecvError
  | empty
  | disconnected

namespace EventSubscription

/-- `try_recv`; a `recv_timeout` that has waited in vain ends the same way. -/
def tryRecv (sub : EventSubscription ε) :
    Except TryRecvError (ε × EventSubscription ε) :=
  match sub.pending with
  | evt :: pending => .ok (evt, { sub with pending := pending })
  | [] => .error (if sub.connected then .empty else .disconnected)

/-- An event comes. -/
def push (evt : ε) (sub : EventSubscription ε) : EventSubscription ε :=
  { sub with pending := sub.pending ++ [evt] }

/-- No more will come. -/
def close (sub : EventSubscription ε) : EventSubscription ε := { sub with connected := false }

end EventSubscription

/-- One turn of the loop of `drain`: the event to hand over, if there is one, and the
subscription as it is kept. -/
def drain (sub : Option (EventSubscription ε)) : Option ε × Option (EventSubscription ε) :=
  match sub with
  | none => (none, none)
  | some events =>
    match events.tryRecv with
    | .ok (evt, events) => (some evt, some events)
    | .error .empty => (none, some events)
    -- a dead one is not polled again
    | .error .disconnected => (none, none)

/-- What the generated client decodes of the events. -/
structure Decoders (ε : Type) where
  messageReceived : ε → Option MessageReceived
  nodeStarted : ε → Option (Bool × String)
  connectionStateChanged : ε → Option String

/-! ## The loop -/

/-- Where the bridge is in its loop. -/
inductive BridgeTurn
  /-- At the head, where it looks whether it is to stop. -/
  | looping
  /-- Waiting for a message. -/
  | receiving
  | draining (starts : Bool)
  /-- In `forward_subscriptions`, before its check. -/
  | checking
  | forwarding
  | sending (topic : String)
  | returned
deriving DecidableEq

/-- The bridge with its ends of the channels, and the process around it; `came` and `heard`
are of the whole session the events that came and those taken from the subscriptions. -/
structure Bridge (σ ε : Type) where
  process : Deliveries σ
  turn : BridgeTurn
  stop : Bool
  messages : EventSubscription ε
  nodeStarted : Option (EventSubscription ε)
  conn : Option (EventSubscription ε)
  subscribeRx : List String
  forwarded : Forwarded
  came : Source → List ε
  heard : Source → List ε
  queued : List String
  dispatched : List String

/-- What can happen next. -/
inductive BridgeMove (ε : Type)
  | arrives (source : Source) (evt : ε)
  | disconnected (source : Source)
  /-- A shutdown sets the flag. -/
  | stop
  | subscribe (deliveryAddress : String)
  /-- An init, or the answer to a call. -/
  | delivery (hap : Happening)
  /-- The bridge goes on. -/
  | go

/-- Events reach the process through the bridge only. -/
def Happening.isEvent : Happening → Bool
  | .nodeStarted .. | .connectionStateChanged .. => true
  | _ => false

namespace Bridge

/-- `spawn_bridge`, in a process whose client has subscribed `addresses`; `conn` is whether
connectivity could be subscribed to. -/
def spawned (d : Deliveries σ) (addresses : List String) (conn : Bool) : Bridge σ ε where
  process := d
  turn := .looping
  stop := false
  messages := ⟨[], true⟩
  nodeStarted := some ⟨[], true⟩
  conn := if conn then some ⟨[], true⟩ else none
  subscribeRx := addresses.map contentTopicFor
  forwarded := .start
  came _ := []
  heard _ := []
  queued := addresses.map contentTopicFor
  dispatched := []

/-- The subscription to the events of one kind, while the bridge has it. -/
def sub (s : Bridge σ ε) : Source → Option (EventSubscription ε)
  | .messages => some s.messages
  | .nodeStarted => s.nodeStarted
  | .connection => s.conn

/-- Whether events of a kind can come. -/
def listensTo (s : Bridge σ ε) (source : Source) : Bool :=
  (s.sub source).any EventSubscription.connected

/-- Something happens to one of the subscriptions. -/
def mapSub (s : Bridge σ ε) (source : Source)
    (f : EventSubscription ε → EventSubscription ε) : Bridge σ ε :=
  match source with
  | .messages => { s with messages := f s.messages }
  | .nodeStarted => { s with nodeStarted := s.nodeStarted.map f }
  | .connection => { s with conn := s.conn.map f }

/-- An event is taken from its subscription. -/
def hears (s : Bridge σ ε) (source : Source) (evt : ε) : Bridge σ ε :=
  { s with heard := Function.update s.heard source (s.heard source ++ [evt]) }

variable [MessageStore σ]

/-- What the bridge passes on of an event to the display. -/
def happening (decode : Decoders ε) (starts : Bool) (evt : ε) : Option Happening :=
  if starts then (decode.nodeStarted evt).map fun p => .nodeStarted p.1 p.2
  else (decode.connectionStateChanged evt).map .connectionStateChanged

/-- The two handlers of `drain`: an event that does not decode is passed over. -/
def handle (decode : Decoders ε) (starts : Bool) (evt : ε) (d : Deliveries σ) : Deliveries σ :=
  match happening decode starts evt with
  | none => d
  | some hap => (d.step hap).getD d

/-- The next step of `run_bridge`. -/
def go (decode : Decoders ε) (s : Bridge σ ε) : Option (Bridge σ ε) :=
  match s.turn with
  | .looping => some { s with turn := if s.stop then .returned else .receiving }
  | .receiving =>
    match s.messages.tryRecv with
    | .ok (evt, messages) => some ({ s with
        messages := messages
        forwarded := forwardMessage decode.messageReceived evt s.forwarded
        turn := .draining true }.hears .messages evt)
    | .error .empty => some { s with turn := .draining true }
    | .error .disconnected => some { s with turn := .returned }
  | .draining true =>
    match drain s.nodeStarted with
    | (some evt, sub) => some ({ s with
        nodeStarted := sub, process := handle decode true evt s.process }.hears .nodeStarted evt)
    | (none, sub) => some { s with nodeStarted := sub, turn := .draining false }
  | .draining false =>
    match drain s.conn with
    | (some evt, sub) => some ({ s with
        conn := sub, process := handle decode false evt s.process }.hears .connection evt)
    | (none, sub) => some { s with conn := sub, turn := .checking }
  | .checking =>
    if s.process.delivery.state = .online then some { s with turn := .forwarding }
    else some { s with turn := .looping }
  | .forwarding =>
    match s.subscribeRx with
    | topic :: subscribeRx => some { s with turn := .sending topic, subscribeRx := subscribeRx }
    | [] => some { s with turn := .looping }
  | .sending topic => some { s with turn := .forwarding, dispatched := s.dispatched ++ [topic] }
  | .returned => none

/-- One step of the bridge or of what is around it. -/
def step (decode : Decoders ε) (s : Bridge σ ε) : BridgeMove ε → Option (Bridge σ ε)
  | .arrives source evt =>
    if s.listensTo source then some { s.mapSub source (·.push evt) with
      came := Function.update s.came source (s.came source ++ [evt]) }
    else none
  | .disconnected source =>
    if s.listensTo source then some (s.mapSub source EventSubscription.close) else none
  | .stop => some { s with stop := true }
  | .subscribe deliveryAddress =>
    -- with the receiver gone `send` is an error, and the client's
    if s.turn = .returned then some s
    else some { s with
      subscribeRx := s.subscribeRx ++ [contentTopicFor deliveryAddress]
      queued := s.queued ++ [contentTopicFor deliveryAddress] }
  | .delivery hap =>
    if hap.isEvent then none else (s.process.step hap).map fun d => { s with process := d }
  | .go => s.go decode

end Bridge

/-- The bridge and what is around it, interleaved. -/
def bridge (σ : Type) {ε : Type} [MessageStore σ] (decode : Decoders ε) :
    Machine (Bridge σ ε) (BridgeMove ε) := ⟨Bridge.step decode⟩

/-! ## What is heard -/

namespace Bridge

/-- The events of a kind that have come and wait. -/
def waiting (s : Bridge σ ε) (source : Source) : List ε :=
  ((s.sub source).map EventSubscription.pending).getD []

/-- Each event that came was heard or waits, in the order they came; and the messages heard
went to `forwardMessage`. -/
structure Hears (decode : Decoders ε) (s : Bridge σ ε) : Prop where
  came : ∀ source, s.came source = s.heard source ++ s.waiting source
  forwarded : s.forwarded = forwardMessages decode.messageReceived (s.heard .messages)

section Receiving

variable {events events' : EventSubscription ε} {sub sub' : Option (EventSubscription ε)} {evt : ε}

theorem tryRecv_ok (h : events.tryRecv = .ok (evt, events')) :
    events.pending = evt :: events'.pending ∧ events'.connected = events.connected := by
  unfold EventSubscription.tryRecv at h
  cases hp : events.pending with
  | nil => simp [hp] at h
  | cons e pending =>
    rw [hp] at h
    cases h
    exact ⟨rfl, rfl⟩

theorem tryRecv_error {e : TryRecvError} (h : events.tryRecv = .error e) :
    events.pending = [] ∧ (e = .empty ↔ events.connected = true) := by
  unfold EventSubscription.tryRecv at h
  cases hp : events.pending with
  | nil =>
    rw [hp] at h
    cases hc : events.connected <;> simp only [hc] at h <;> cases h <;> simp
  | cons e' pending => simp [hp] at h

/-- `drain` hands over the oldest event. -/
theorem drain_some (h : drain sub = (some evt, sub')) :
    (sub.map EventSubscription.pending).getD [] =
      evt :: (sub'.map EventSubscription.pending).getD [] := by
  unfold drain at h
  cases sub with
  | none => cases h
  | some events =>
    dsimp only at h
    cases hr : events.tryRecv with
    | ok p =>
      rw [hr] at h
      cases h
      exact (tryRecv_ok hr).1
    | error e =>
      rw [hr] at h
      cases e <;> cases h

/-- It ends, giving a dead subscription up, when nothing waits. -/
theorem drain_none (h : drain sub = (none, sub')) :
    (sub.map EventSubscription.pending).getD [] = [] ∧
      (sub'.map EventSubscription.pending).getD [] = [] := by
  unfold drain at h
  cases sub with
  | none =>
    cases h
    exact ⟨rfl, rfl⟩
  | some events =>
    dsimp only at h
    cases hr : events.tryRecv with
    | ok p =>
      rw [hr] at h
      cases h
    | error e =>
      have hnil := (tryRecv_error hr).1
      rw [hr] at h
      cases e with
      | empty =>
        cases h
        exact ⟨hnil, hnil⟩
      | disconnected =>
        cases h
        exact ⟨hnil, rfl⟩

end Receiving

variable [MessageStore σ] {decode : Decoders ε} {s s' : Bridge σ ε} {mv : BridgeMove ε}

/-- What the bridge itself does not touch. -/
structure Kept (s s' : Bridge σ ε) : Prop where
  stop : s'.stop = s.stop
  connected : s'.messages.connected = s.messages.connected
  came : s'.came = s.came
  queued : s'.queued = s.queued

/-- What a `drain` drains. -/
def drained (starts : Bool) : Source := if starts then .nodeStarted else .connection

/-- Where the bridge goes from it. -/
def drainedTo (starts : Bool) : BridgeTurn := if starts then .draining false else .checking

/-- A step of a `drain`, whichever kind it drains: an event is handed to its handler, or none
waits and the bridge goes on. -/
structure DrainStep (decode : Decoders ε) (starts : Bool) (evt : Option ε) (s s' : Bridge σ ε) :
    Prop where
  taken : drain (s.sub (drained starts)) = (evt, s'.sub (drained starts))
  others : ∀ other, other ≠ drained starts → s'.sub other = s.sub other
  turn : s'.turn = if evt.isSome then .draining starts else drainedTo starts
  heard : s'.heard = evt.elim s.heard fun e =>
    Function.update s.heard (drained starts) (s.heard (drained starts) ++ [e])
  process : s'.process = evt.elim s.process (handle decode starts · s.process)
  forwarded : s'.forwarded = s.forwarded
  channel : s'.subscribeRx = s.subscribeRx ∧ s'.dispatched = s.dispatched
  kept : Kept s s'

theorem drainStep_of_go {starts : Bool} (ht : s.turn = .draining starts)
    (h : s.go decode = some s') : ∃ evt, DrainStep decode starts evt s s' := by
  unfold go at h
  rw [ht] at h
  cases starts with
  | true =>
    dsimp only at h
    cases hd : drain s.nodeStarted with
    | mk evt sub =>
      rw [hd] at h
      refine ⟨evt, ?_⟩
      cases evt <;> cases h
      all_goals refine ⟨hd, ?_, rfl, rfl, rfl, rfl, ⟨rfl, rfl⟩, ⟨rfl, rfl, rfl, rfl⟩⟩
      all_goals
        intro other hne
        cases other with
        | nodeStarted => exact absurd rfl hne
        | messages | connection => rfl
  | false =>
    dsimp only at h
    cases hd : drain s.conn with
    | mk evt sub =>
      rw [hd] at h
      refine ⟨evt, ?_⟩
      cases evt <;> cases h
      all_goals refine ⟨hd, ?_, rfl, rfl, rfl, rfl, ⟨rfl, rfl⟩, ⟨rfl, rfl, rfl, rfl⟩⟩
      all_goals
        intro other hne
        cases other with
        | connection => exact absurd rfl hne
        | messages | nodeStarted => rfl

omit [MessageStore σ] in
theorem drained_ne_messages (starts : Bool) : drained starts ≠ .messages := by
  cases starts <;> nofun

section Draining

variable {starts : Bool} {evt : ε}

/-- The event handed over was the oldest. -/
theorem DrainStep.some_waiting (h : DrainStep decode starts (some evt) s s') :
    s.waiting (drained starts) = evt :: s'.waiting (drained starts) := drain_some h.taken

theorem DrainStep.none_waiting (h : DrainStep decode starts none s s') :
    s.waiting (drained starts) = [] ∧ s'.waiting (drained starts) = [] := drain_none h.taken

theorem DrainStep.others_waiting {evt : Option ε} (h : DrainStep decode starts evt s s')
    (other : Source) (hne : other ≠ drained starts) : s'.waiting other = s.waiting other := by
  unfold waiting
  rw [h.others other hne]

end Draining

/-- What a step of the bridge itself does to the events: it takes one, and hands it on if it
is a message; or it takes none. -/
inductive Takes (decode : Decoders ε) (s s' : Bridge σ ε) : Prop
  | nothing : s'.heard = s.heard → (∀ source, s'.waiting source = s.waiting source) →
    s'.forwarded = s.forwarded → Takes decode s s'
  | event (source : Source) (evt : ε) :
    s'.heard = Function.update s.heard source (s.heard source ++ [evt]) →
    s.waiting source = evt :: s'.waiting source →
    (∀ other, other ≠ source → s'.waiting other = s.waiting other) →
    s'.forwarded = (if source = .messages then
      forwardMessage decode.messageReceived evt s.forwarded else s.forwarded) →
    Takes decode s s'

theorem takes_of_go (hgo : s.go decode = some s') : Kept s s' ∧ Takes decode s s' := by
  have h := hgo
  unfold go at h
  cases ht : s.turn with
  | looping | sending =>
    rw [ht] at h
    cases h
    exact ⟨⟨rfl, rfl, rfl, rfl⟩, .nothing rfl (fun source => rfl) rfl⟩
  | checking | forwarding =>
    rw [ht] at h
    dsimp only at h
    split at h <;> cases h
    all_goals exact ⟨⟨rfl, rfl, rfl, rfl⟩, .nothing rfl (fun source => rfl) rfl⟩
  | returned =>
    rw [ht] at h
    cases h
  | receiving =>
    rw [ht] at h
    dsimp only at h
    cases hr : s.messages.tryRecv with
    | ok p =>
      rw [hr] at h
      cases h
      obtain ⟨hpending, hconnected⟩ := tryRecv_ok hr
      refine ⟨⟨rfl, hconnected, rfl, rfl⟩, .event .messages p.1 rfl hpending ?_ rfl⟩
      intro other hne
      cases other with
      | messages => exact absurd rfl hne
      | nodeStarted | connection => rfl
    | error e =>
      rw [hr] at h
      cases e <;> cases h
      all_goals exact ⟨⟨rfl, rfl, rfl, rfl⟩, .nothing rfl (fun source => rfl) rfl⟩
  | draining starts =>
    obtain ⟨evt, hdrain⟩ := drainStep_of_go ht hgo
    refine ⟨hdrain.kept, ?_⟩
    cases evt with
    | some evt =>
      refine .event (drained starts) evt hdrain.heard hdrain.some_waiting hdrain.others_waiting ?_
      rw [if_neg (drained_ne_messages starts)]
      exact hdrain.forwarded
    | none =>
      refine .nothing hdrain.heard ?_ hdrain.forwarded
      obtain ⟨hbefore, hafter⟩ := hdrain.none_waiting
      intro source
      by_cases heq : source = drained starts
      · rw [heq, hafter, hbefore]
      · exact hdrain.others_waiting source heq

omit [MessageStore σ] in
theorem waiting_mapSub (f : EventSubscription ε → EventSubscription ε) (source other : Source) :
    (s.mapSub source f).waiting other =
      if other = source then ((s.sub source).map fun events => (f events).pending).getD []
      else s.waiting other := by
  cases source <;> cases other <;> first
    | rfl
    | simp [waiting, sub, mapSub, Option.map_map, Function.comp_def]

/-- An event is heard only after it has come, and no later than those after it. -/
theorem hears_step (hstep : s.step decode mv = some s') (h : Hears decode s) :
    Hears decode s' := by
  cases mv with
  | arrives source evt =>
    simp only [step, Option.ite_none_right_eq_some, Option.some.injEq] at hstep
    obtain ⟨hlistens, rfl⟩ := hstep
    obtain ⟨events, hsub⟩ : ∃ events, s.sub source = some events := by
      cases hsub : s.sub source with
      | none => simp [listensTo, hsub] at hlistens
      | some events => exact ⟨events, rfl⟩
    refine ⟨?_, ?_⟩
    · intro other
      have hwaiting := waiting_mapSub (s := s) (·.push evt) source other
      have hcame := h.came other
      have hheard : (s.mapSub source (·.push evt)).heard = s.heard := by
        cases source <;> rfl
      change Function.update s.came source _ other =
        (s.mapSub source (·.push evt)).heard other ++ (s.mapSub source (·.push evt)).waiting other
      rw [hwaiting, hheard]
      by_cases heq : other = source
      · subst heq
        rw [Function.update_self, if_pos rfl, hcame, hsub]
        simp [waiting, hsub, EventSubscription.push]
      · rw [Function.update_of_ne heq, if_neg heq, hcame]
    · have hforwarded := h.forwarded
      cases source <;> exact hforwarded
  | disconnected source =>
    simp only [step, Option.ite_none_right_eq_some, Option.some.injEq] at hstep
    obtain ⟨-, rfl⟩ := hstep
    refine ⟨?_, ?_⟩
    · intro other
      have hcame := h.came other
      have hsame : (s.mapSub source EventSubscription.close).waiting other = s.waiting other := by
        rw [waiting_mapSub]
        split
        · next heq =>
          subst heq
          rfl
        · rfl
      rw [hsame]
      cases source <;> exact hcame
    · have hforwarded := h.forwarded
      cases source <;> exact hforwarded
  | stop =>
    cases hstep
    exact ⟨h.came, h.forwarded⟩
  | subscribe deliveryAddress =>
    simp only [step] at hstep
    split at hstep <;> cases hstep
    · exact h
    · exact ⟨h.came, h.forwarded⟩
  | delivery hap =>
    simp only [step] at hstep
    split at hstep
    · cases hstep
    · obtain ⟨d, -, rfl⟩ := Option.map_eq_some_iff.mp hstep
      exact ⟨h.came, h.forwarded⟩
  | go =>
    obtain ⟨hkept, htakes⟩ := takes_of_go hstep
    cases htakes with
    | nothing hheard hwaiting hforwarded =>
      refine ⟨?_, ?_⟩
      · intro source
        rw [hkept.came, hheard, hwaiting]
        exact h.came source
      · rw [hforwarded, hheard]
        exact h.forwarded
    | event source evt hheard hwaiting hothers hforwarded =>
      refine ⟨?_, ?_⟩
      · intro other
        rw [hkept.came, hheard, h.came other]
        by_cases heq : other = source
        · subst heq
          rw [Function.update_self, hwaiting, List.append_assoc, List.singleton_append]
        · rw [Function.update_of_ne heq, hothers other heq]
      · rw [hforwarded, hheard]
        by_cases hmsg : source = .messages
        · subst hmsg
          rw [if_pos rfl, Function.update_self, forwardMessages_concat, h.forwarded]
        · rw [if_neg hmsg, Function.update_of_ne (Ne.symm hmsg)]
          exact h.forwarded

/-! ## Left alone -/

/-- Further on, with nothing but steps of the bridge in between. -/
def LeftAlone (decode : Decoders ε) (s s' : Bridge σ ε) : Prop :=
  ∃ moves, (bridge σ decode).Run (fun _ mv => mv = .go) s moves s'

theorem LeftAlone.refl (s : Bridge σ ε) : LeftAlone decode s s := ⟨[], .nil s⟩

theorem LeftAlone.step {s₁ : Bridge σ ε} (hstep : s.go decode = some s₁)
    (h : LeftAlone decode s₁ s') : LeftAlone decode s s' := by
  obtain ⟨moves, hr⟩ := h
  exact ⟨.go :: moves, .cons rfl hstep hr⟩

theorem LeftAlone.trans {s₁ : Bridge σ ε} (h : LeftAlone decode s s₁)
    (h' : LeftAlone decode s₁ s') : LeftAlone decode s s' := by
  obtain ⟨moves, hr⟩ := h
  obtain ⟨moves', hr'⟩ := h'
  exact ⟨moves ++ moves', hr.append hr'⟩

/-- The bridge by itself only takes events. -/
structure Further (s s' : Bridge σ ε) : Prop where
  kept : Kept s s'
  waiting : ∀ source, s'.waiting source <:+ s.waiting source

theorem LeftAlone.further (h : LeftAlone decode s s') : Further s s' := by
  obtain ⟨moves, hr⟩ := h
  refine hr.invariant (I := Further s) ?_ ⟨⟨rfl, rfl, rfl, rfl⟩, fun source => List.suffix_rfl⟩
  rintro t mv t' rfl hstep ⟨hkept, hwaiting⟩
  obtain ⟨hkept', htakes⟩ := takes_of_go hstep
  refine ⟨⟨hkept'.stop.trans hkept.stop, hkept'.connected.trans hkept.connected,
    hkept'.came.trans hkept.came, hkept'.queued.trans hkept.queued⟩, ?_⟩
  intro source
  refine List.IsSuffix.trans ?_ (hwaiting source)
  cases htakes with
  | nothing _ hsame => rw [hsame]
  | event taken evt _ htaken hothers =>
    by_cases heq : source = taken
    · rw [heq, htaken]
      exact List.suffix_cons _ _
    · rw [hothers source heq]

omit [MessageStore σ] in
/-- What waits nowhere waits nowhere later. -/
theorem Further.nothing {source : Source} (h : Further s s') (hnil : s.waiting source = []) :
    s'.waiting source = [] := by
  have hsuffix := h.waiting source
  rwa [hnil, List.suffix_nil] at hsuffix

variable (decode) in
/-- `drain` hands an event over and goes on, or nothing is left and it ends. -/
theorem go_draining {starts : Bool} (ht : s.turn = .draining starts) :
    ∃ s', s.go decode = some s' ∧
      ((∃ evt, s'.turn = .draining starts ∧
        s.waiting (drained starts) = evt :: s'.waiting (drained starts)) ∨
      s'.turn = drainedTo starts ∧ s'.waiting (drained starts) = []) := by
  obtain ⟨s', hgo⟩ : ∃ s', s.go decode = some s' := by
    unfold go
    rw [ht]
    cases starts <;> dsimp only <;> split <;> exact ⟨_, rfl⟩
  refine ⟨s', hgo, ?_⟩
  obtain ⟨evt, hdrain⟩ := drainStep_of_go ht hgo
  cases evt with
  | some evt => exact Or.inl ⟨evt, hdrain.turn, hdrain.some_waiting⟩
  | none => exact Or.inr ⟨hdrain.turn, hdrain.none_waiting.2⟩

variable (decode) in
/-- Left alone `drain` ends, with nothing left of what it drains. -/
theorem drains {starts : Bool} (ht : s.turn = .draining starts) : ∃ s', LeftAlone decode s s' ∧
    s'.turn = drainedTo starts ∧ s'.waiting (drained starts) = [] := by
  -- by induction on what waits
  generalize hn : s.waiting (drained starts) = pending
  induction pending generalizing s with
  | nil =>
    obtain ⟨s', hgo, ⟨evt, -, hwaiting⟩ | ⟨ht', hnil⟩⟩ := go_draining decode ht
    · rw [hn] at hwaiting
      cases hwaiting
    · exact ⟨s', .step hgo (.refl s'), ht', hnil⟩
  | cons evt pending ih =>
    obtain ⟨s₁, hgo, ⟨evt', ht₁, hwaiting⟩ | ⟨ht', hnil⟩⟩ := go_draining decode ht
    · rw [hn] at hwaiting
      obtain ⟨-, hrest⟩ := List.cons.inj hwaiting
      obtain ⟨s', halone, hs'⟩ := ih ht₁ hrest.symm
      exact ⟨s', .step hgo halone, hs'⟩
    · exact ⟨s₁, .step hgo (.refl s₁), ht', hnil⟩

variable (decode) in
/-- Left alone the bridge passes everything queued on. -/
theorem passes (ht : s.turn = .forwarding) : ∃ s', LeftAlone decode s s' ∧ s'.turn = .looping ∧
    s'.subscribeRx = [] := by
  generalize hn : s.subscribeRx = topics
  induction topics generalizing s with
  | nil =>
    refine ⟨{ s with turn := .looping }, .step ?_ (.refl _), rfl, hn⟩
    unfold go
    simp only [ht, hn]
  | cons topic topics ih =>
    obtain ⟨s', halone, hs'⟩ := ih (s := { s with
      turn := .forwarding, subscribeRx := topics, dispatched := s.dispatched ++ [topic] }) rfl rfl
    have hsend : s.go decode = some { s with turn := .sending topic, subscribeRx := topics } := by
      unfold go
      simp only [ht, hn]
    exact ⟨s', .step hsend (.step rfl halone), hs'⟩

variable (decode) in
/-- The end of a turn: the subscriptions are passed on if delivery is Online. -/
theorem checks (ht : s.turn = .checking) : ∃ s', LeftAlone decode s s' ∧ s'.turn = .looping ∧
    (s'.process.delivery.state = .online → s'.subscribeRx = []) := by
  by_cases honline : s.process.delivery.state = .online
  · obtain ⟨s', halone, hloop, hnil⟩ := passes decode
      (s := { s with turn := .forwarding }) rfl
    refine ⟨s', .step ?_ halone, hloop, fun _ => hnil⟩
    unfold go
    rw [ht]
    exact if_pos honline
  · refine ⟨{ s with turn := .looping }, .step ?_ (.refl _), rfl, fun h => absurd h honline⟩
    unfold go
    rw [ht]
    exact if_neg honline

/-- From the first `drain` on: nothing is left of what it drains, or queued while delivery is
Online. -/
structure Round (s : Bridge σ ε) : Prop where
  looping : s.turn = .looping
  starts : s.waiting .nodeStarted = []
  connection : s.waiting .connection = []
  passed : s.process.delivery.state = .online → s.subscribeRx = []

variable (decode) in
theorem rounds (ht : s.turn = .draining true) : ∃ s', LeftAlone decode s s' ∧ Round s' := by
  obtain ⟨s₁, h₁, ht₁, hstarts⟩ := drains decode ht
  obtain ⟨s₂, h₂, ht₂, hconnection⟩ := drains decode (show s₁.turn = .draining false from ht₁)
  obtain ⟨s₃, h₃, hloop, hpassed⟩ := checks decode ht₂
  refine ⟨s₃, h₁.trans (h₂.trans h₃), hloop, ?_, ?_, hpassed⟩
  · exact (h₂.trans h₃).further.nothing hstarts
  · exact h₃.further.nothing hconnection

variable (decode) in
/-- A receive takes the oldest message, or there is none. -/
theorem receives (ht : s.turn = .receiving)
    (hgo : s.messages.connected = true ∨ s.waiting .messages ≠ []) :
    ∃ s', s.go decode = some s' ∧ s'.turn = .draining true ∧
      s'.waiting .messages = (s.waiting .messages).tail := by
  unfold go
  rw [ht]
  dsimp only
  cases hr : s.messages.tryRecv with
  | ok p =>
    have hpending : s.waiting .messages = p.1 :: p.2.pending := (tryRecv_ok hr).1
    refine ⟨_, rfl, rfl, ?_⟩
    rw [hpending]
    rfl
  | error e =>
    obtain ⟨hnil, hempty⟩ := tryRecv_error hr
    have hwaiting : s.waiting .messages = [] := hnil
    cases e with
    | empty =>
      refine ⟨_, rfl, rfl, ?_⟩
      rw [hwaiting]
      exact hnil
    | disconnected =>
      rcases hgo with hconnected | hne
      · cases hempty.mpr hconnected
      · exact absurd hwaiting hne

variable (decode) in
/-- A whole turn of a bridge that goes on takes a message and all of the rest. -/
theorem turns (hloop : s.turn = .looping) (hgo : s.stop = false)
    (hconnected : s.messages.connected = true) : ∃ s', LeftAlone decode s s' ∧ Round s' ∧
      s'.waiting .messages <:+ (s.waiting .messages).tail := by
  have hhead : s.go decode = some { s with turn := .receiving } := by
    unfold go
    rw [hloop]
    simp [hgo]
  obtain ⟨s₁, hreceive, ht₁, htail⟩ := receives decode (s := { s with turn := .receiving }) rfl
    (Or.inl hconnected)
  obtain ⟨s', halone, hround⟩ := rounds decode ht₁
  refine ⟨s', .step hhead (.step hreceive halone), hround, ?_⟩
  have hsuffix := halone.further.waiting .messages
  rw [htail] at hsuffix
  exact hsuffix

variable (decode) in
/-- And turn after turn it takes everything. -/
theorem quiets (hloop : s.turn = .looping) (hgo : s.stop = false)
    (hconnected : s.messages.connected = true) : ∃ s', LeftAlone decode s s' ∧ Round s' ∧
      s'.waiting .messages = [] := by
  -- by induction on how many messages wait
  generalize hn : (s.waiting .messages).length = n
  induction n using Nat.strong_induction_on generalizing s with
  | h n ih =>
    obtain ⟨s₁, h₁, hround, htail⟩ := turns decode hloop hgo hconnected
    by_cases hnil : s₁.waiting .messages = []
    · exact ⟨s₁, h₁, hround, hnil⟩
    · have hkept := h₁.further.kept
      have hshorter : (s₁.waiting .messages).length < n := by
        have hle := htail.length_le
        have hpos : 0 < (s₁.waiting .messages).length := List.length_pos_iff.mpr hnil
        rw [List.length_tail, hn] at hle
        omega
      obtain ⟨s', halone, hs'⟩ := ih _ hshorter hround.looping (hkept.stop.trans hgo)
        (hkept.connected.trans hconnected) rfl
      exact ⟨s', h₁.trans halone, hs'⟩

variable (decode) in
/-- Left alone the bridge comes round, unless it has returned or its messages have ended. -/
theorem comes_round (s : Bridge σ ε) : ∃ s', LeftAlone decode s s' ∧ (s'.turn = .looping ∨
    s'.turn = .returned ∧ (s.turn = .returned ∨ s.messages.connected = false)) := by
  cases ht : s.turn with
  | looping => exact ⟨s, .refl s, Or.inl ht⟩
  | returned => exact ⟨s, .refl s, Or.inr ⟨ht, Or.inl rfl⟩⟩
  | receiving =>
    by_cases hgo : s.messages.connected = true ∨ s.waiting .messages ≠ []
    · obtain ⟨s₁, hreceive, ht₁, -⟩ := receives decode ht hgo
      obtain ⟨s', halone, hround⟩ := rounds decode ht₁
      exact ⟨s', .step hreceive halone, Or.inl hround.looping⟩
    · have hclosed : s.messages.connected = false := by
        cases hc : s.messages.connected with
        | true => exact absurd (Or.inl hc) hgo
        | false => rfl
      have hnil : s.messages.pending = [] := by
        by_contra hne
        exact hgo (Or.inr hne)
      refine ⟨{ s with turn := .returned }, .step ?_ (.refl _), Or.inr ⟨rfl, Or.inr hclosed⟩⟩
      unfold go
      simp [ht, EventSubscription.tryRecv, hnil, hclosed]
  | draining starts =>
    cases starts with
    | true =>
      obtain ⟨s', halone, hround⟩ := rounds decode ht
      exact ⟨s', halone, Or.inl hround.looping⟩
    | false =>
      obtain ⟨s₁, h₁, ht₁, -⟩ := drains decode ht
      obtain ⟨s', halone, hloop, -⟩ := checks decode (s := s₁) ht₁
      exact ⟨s', h₁.trans halone, Or.inl hloop⟩
  | checking =>
    obtain ⟨s', halone, hloop, -⟩ := checks decode ht
    exact ⟨s', halone, Or.inl hloop⟩
  | forwarding =>
    obtain ⟨s', halone, hloop, -⟩ := passes decode ht
    exact ⟨s', halone, Or.inl hloop⟩
  | sending topic =>
    have hsent : s.go decode = some { s with
        turn := .forwarding, dispatched := s.dispatched ++ [topic] } := by
      unfold go
      rw [ht]
    obtain ⟨s', halone, hloop, -⟩ := passes decode (s := { s with
      turn := .forwarding, dispatched := s.dispatched ++ [topic] }) rfl
    exact ⟨s', .step hsent halone, Or.inl hloop⟩

/-! ## Seen from the subscriptions -/

/-- What the subscriptions notice of where the bridge is. -/
def place : BridgeTurn → BridgeAt
  | .looping | .receiving | .draining _ | .checking => .listening
  | .forwarding => .forwarding
  | .sending topic => .sending topic
  | .returned => .returned

/-- The bridge as the subscriptions see it. -/
def outline (s : Bridge σ ε) : Subscriptions σ where
  process := s.process
  bridge := place s.turn
  channel := s.subscribeRx
  queued := s.queued
  dispatched := s.dispatched

/-- What they notice of a step. -/
def activities (decode : Decoders ε) (s : Bridge σ ε) : BridgeMove ε → List Activity
  | .subscribe deliveryAddress => [.subscribe deliveryAddress]
  | .delivery hap => [.delivery hap]
  | .go =>
    match s.turn with
    | .looping => if s.stop then [.disconnected] else []
    | .receiving =>
      match s.messages.tryRecv with
      | .error .disconnected => [.disconnected]
      | _ => []
    | .draining starts =>
      -- an event that decodes, handed to its handler
      ((drain (if starts then s.nodeStarted else s.conn)).1.bind
        (happening decode starts)).toList.map .delivery
    | .checking | .forwarding | .sending _ => [.forward]
    | .returned => []
  | .arrives .. | .disconnected _ | .stop => []

omit [MessageStore σ] in
theorem happening_isEvent {starts : Bool} {evt : ε} {hap : Happening}
    (h : happening decode starts evt = some hap) : hap.isEvent = true := by
  unfold happening at h
  split at h
  all_goals
    obtain ⟨x, -, rfl⟩ := Option.map_eq_some_iff.mp h
    rfl

/-- While a session is installed its events are heard. -/
theorem step_isEvent {d : Deliveries σ} {hap : Happening} (h : hap.isEvent = true)
    (hm : d.world.module.isSome) : ∃ d', d.step hap = some d' := by
  have hnone : d.world.module.isNone = false := by
    cases hmod : d.world.module with
    | none => simp [hmod] at hm
    | some ms => rfl
  cases hap with
  | nodeStarted success message => exact ⟨_, by rw [Deliveries.step, hnone]; rfl⟩
  | connectionStateChanged status => exact ⟨_, by rw [Deliveries.step, hnone]; rfl⟩
  | init | shutdown | answer => cases h

omit [MessageStore σ] in
theorem noShutdown_of_isEvent {d : Deliveries σ} {hap : Happening} (h : hap.isEvent = true) :
    NoShutdown d hap := by
  rintro rfl
  cases h

/-- An event handed to its handler is a message of delivery, or is passed over. -/
theorem handle_runs {t : Subscriptions σ} (hm : t.process.world.module.isSome) (starts : Bool)
    (evt : ε) : (subscriptions σ).Run InSession t
        ((happening decode starts evt).toList.map Activity.delivery)
        { t with process := handle decode starts evt t.process } ∧
      (handle decode starts evt t.process).world.module.isSome := by
  unfold handle
  cases hhap : happening decode starts evt with
  | none => exact ⟨.nil t, hm⟩
  | some hap =>
    have hevent := happening_isEvent hhap
    obtain ⟨d, hd⟩ := step_isEvent hevent hm
    have hgo : NoShutdown t.process hap := noShutdown_of_isEvent hevent
    simp only [hd, Option.getD_some]
    refine ⟨.single ?_ ?_, installed_of_step hm hgo hd⟩
    · intro heq
      exact hgo (Activity.delivery.inj heq)
    · simp [subscriptions, hd]

/-- A step of the bridge is what the subscriptions notice of it. -/
theorem refines_go (hm : s.process.world.module.isSome) (hgo : s.go decode = some s') :
    (subscriptions σ).Run InSession s.outline (s.activities decode .go) s'.outline ∧
      s'.process.world.module.isSome := by
  have hstep := hgo
  unfold go at hstep
  unfold activities
  cases ht : s.turn with
  | returned =>
    rw [ht] at hstep
    cases hstep
  | looping =>
    rw [ht] at hstep
    cases hstep
    cases hstop : s.stop with
    | true =>
      refine ⟨.single (by simp [InSession]) ?_, hm⟩
      simp [subscriptions, outline, place, ht]
    | false =>
      refine ⟨?_, hm⟩
      simp only [outline, place, ht]
      exact .nil _
  | receiving =>
    rw [ht] at hstep
    dsimp only at hstep ⊢
    cases hr : s.messages.tryRecv with
    | ok p =>
      rw [hr] at hstep
      cases hstep
      refine ⟨?_, hm⟩
      simp only [outline, place, hears, ht]
      exact .nil _
    | error e =>
      rw [hr] at hstep
      cases e with
      | empty =>
        cases hstep
        refine ⟨?_, hm⟩
        simp only [outline, place, ht]
        exact .nil _
      | disconnected =>
        cases hstep
        refine ⟨.single (by simp [InSession]) ?_, hm⟩
        simp [subscriptions, outline, place, ht]
  | draining starts =>
    obtain ⟨evt, hdrain⟩ := drainStep_of_go ht hgo
    -- the two kinds differ in nothing the subscriptions notice
    have hplace : place s'.turn = place s.turn := by
      rw [hdrain.turn, ht]
      cases evt <;> cases starts <;> rfl
    have houtline : s'.outline = { s.outline with
        process := evt.elim s.process (handle decode starts · s.process) } := by
      unfold outline
      rw [hdrain.process, hplace, hdrain.channel.1, hdrain.channel.2, hdrain.kept.queued]
    have htaken : (drain (if starts then s.nodeStarted else s.conn)).1 = evt := by
      have htaken := congrArg Prod.fst hdrain.taken
      cases starts <;> exact htaken
    have hprocess : s'.process = s'.outline.process := rfl
    dsimp only
    rw [hprocess, houtline, htaken]
    cases evt with
    | none => exact ⟨.nil _, hm⟩
    | some evt => exact handle_runs hm starts evt
  | checking =>
    rw [ht] at hstep
    dsimp only at hstep
    split at hstep
    · next honline =>
      cases hstep
      refine ⟨.single (by simp [InSession]) ?_, hm⟩
      simp [subscriptions, Subscriptions.forwardSubscriptions, outline, place, ht, honline]
    · next hoffline =>
      cases hstep
      refine ⟨.single (by simp [InSession]) ?_, hm⟩
      simp [subscriptions, Subscriptions.forwardSubscriptions, outline, place, ht, hoffline]
  | forwarding =>
    rw [ht] at hstep
    dsimp only at hstep
    split at hstep
    · next topic subscribeRx hqueue =>
      cases hstep
      refine ⟨.single (by simp [InSession]) ?_, hm⟩
      simp [subscriptions, Subscriptions.forwardSubscriptions, outline, place, ht, hqueue]
    · next hqueue =>
      cases hstep
      refine ⟨.single (by simp [InSession]) ?_, hm⟩
      simp [subscriptions, Subscriptions.forwardSubscriptions, outline, place, ht, hqueue]
  | sending topic =>
    rw [ht] at hstep
    cases hstep
    refine ⟨.single (by simp [InSession]) ?_, hm⟩
    simp [subscriptions, Subscriptions.forwardSubscriptions, outline, place, ht]

/-- The session goes on. -/
def Lasting (_ : Bridge σ ε) (mv : BridgeMove ε) : Prop := mv ≠ .delivery .shutdown

theorem refines_step (hm : s.process.world.module.isSome) (hgo : Lasting s mv)
    (hstep : s.step decode mv = some s') :
    (subscriptions σ).Run InSession s.outline (s.activities decode mv) s'.outline ∧
      s'.process.world.module.isSome := by
  cases mv with
  | go => exact refines_go hm hstep
  | arrives source evt =>
    simp only [step, Option.ite_none_right_eq_some, Option.some.injEq] at hstep
    obtain ⟨-, rfl⟩ := hstep
    cases source <;> exact ⟨.nil _, hm⟩
  | disconnected source =>
    simp only [step, Option.ite_none_right_eq_some, Option.some.injEq] at hstep
    obtain ⟨-, rfl⟩ := hstep
    cases source <;> exact ⟨.nil _, hm⟩
  | stop =>
    cases hstep
    exact ⟨.nil _, hm⟩
  | subscribe deliveryAddress =>
    simp only [step] at hstep
    have hplace : place s.turn = .returned ↔ s.turn = .returned := by
      cases s.turn <;> simp [place]
    refine ⟨.single (by simp [InSession]) ?_, ?_⟩
    · split at hstep <;> cases hstep
      · next hret => simp [subscriptions, Subscriptions.subscribe, outline, hret, place]
      · next hret => simp [subscriptions, Subscriptions.subscribe, outline, hplace, hret]
    · split at hstep <;> cases hstep <;> exact hm
  | delivery hap =>
    simp only [step] at hstep
    split at hstep
    · cases hstep
    · obtain ⟨d, hd, rfl⟩ := Option.map_eq_some_iff.mp hstep
      have hno : NoShutdown s.process hap := by
        rintro rfl
        exact hgo rfl
      refine ⟨.single ?_ ?_, installed_of_step hm hno hd⟩
      · intro heq
        exact hno (Activity.delivery.inj heq)
      · simp [subscriptions, outline, hd]

/-! ## Told to stop -/

/-- A bridge that is to stop does not wait for a message again; one it waits for already may
still come. -/
theorem go_stopped (hstop : s.stop = true) (hgo : s.go decode = some s') :
    (s'.heard .messages = s.heard .messages ∧ (s'.turn = .receiving → s.turn = .receiving)) ∨
      s.turn = .receiving ∧ s'.turn ≠ .receiving ∧
        ∃ evt, s'.heard .messages = s.heard .messages ++ [evt] := by
  have hstep := hgo
  unfold go at hstep
  cases ht : s.turn with
  | looping =>
    rw [ht] at hstep
    cases hstep
    exact Or.inl ⟨rfl, by simp [hstop]⟩
  | receiving =>
    rw [ht] at hstep
    dsimp only at hstep
    cases hr : s.messages.tryRecv with
    | ok p =>
      rw [hr] at hstep
      cases hstep
      exact Or.inr ⟨rfl, nofun, p.1, by simp [hears]⟩
    | error e =>
      rw [hr] at hstep
      cases e <;> cases hstep <;> exact Or.inl ⟨rfl, fun _ => rfl⟩
  | draining starts =>
    obtain ⟨evt, hdrain⟩ := drainStep_of_go ht hgo
    refine Or.inl ⟨?_, ?_⟩
    · rw [hdrain.heard]
      cases evt with
      | none => rfl
      | some evt => exact Function.update_of_ne (drained_ne_messages starts).symm _ _
    · rw [hdrain.turn]
      cases evt <;> cases starts <;> exact nofun
  | checking | forwarding =>
    rw [ht] at hstep
    dsimp only at hstep
    split at hstep <;> cases hstep <;> exact Or.inl ⟨rfl, nofun⟩
  | sending topic =>
    rw [ht] at hstep
    cases hstep
    exact Or.inl ⟨rfl, nofun⟩
  | returned =>
    rw [ht] at hstep
    cases hstep

/-- A step that is not the bridge's own leaves it where it is. -/
theorem step_around (hmv : mv ≠ .go) (hstep : s.step decode mv = some s') :
    s'.heard = s.heard ∧ s'.turn = s.turn ∧ (s.stop = true → s'.stop = true) ∧
      (s.messages.connected = false → s'.messages.connected = false) := by
  cases mv with
  | go => exact absurd rfl hmv
  | arrives source =>
    simp only [step, Option.ite_none_right_eq_some, Option.some.injEq] at hstep
    obtain ⟨-, rfl⟩ := hstep
    cases source <;> exact ⟨rfl, rfl, id, id⟩
  | disconnected source =>
    simp only [step, Option.ite_none_right_eq_some, Option.some.injEq] at hstep
    obtain ⟨-, rfl⟩ := hstep
    cases source with
    | messages => exact ⟨rfl, rfl, id, fun _ => rfl⟩
    | nodeStarted | connection => exact ⟨rfl, rfl, id, id⟩
  | stop =>
    cases hstep
    exact ⟨rfl, rfl, fun _ => rfl, id⟩
  | subscribe deliveryAddress =>
    simp only [step] at hstep
    split at hstep <;> cases hstep <;> exact ⟨rfl, rfl, id, id⟩
  | delivery hap =>
    simp only [step] at hstep
    split at hstep
    · cases hstep
    · obtain ⟨d, -, rfl⟩ := Option.map_eq_some_iff.mp hstep
      exact ⟨rfl, rfl, id, id⟩

/-! ## What ends the loop -/

/-- A bridge that has returned was told to stop, or no message can come any more. -/
def Ended (s : Bridge σ ε) : Prop :=
  s.turn = .returned → s.stop = true ∨ s.messages.connected = false

/-- The two ways out of the loop: the look at the flag, and a receive that is disconnected. -/
theorem go_returned (hgo : s.go decode = some s') (hret : s'.turn = .returned) :
    s.stop = true ∨ s.messages.connected = false := by
  have hstep := hgo
  unfold go at hstep
  cases ht : s.turn with
  | looping =>
    rw [ht] at hstep
    cases hstep
    -- it stays in the loop unless the flag is set
    left
    by_contra hstop
    simp [hstop] at hret
  | receiving =>
    rw [ht] at hstep
    dsimp only at hstep
    cases hr : s.messages.tryRecv with
    | ok p =>
      rw [hr] at hstep
      cases hstep
      cases hret
    | error e =>
      have hconnected := (tryRecv_error hr).2
      rw [hr] at hstep
      cases e with
      | empty =>
        cases hstep
        cases hret
      | disconnected =>
        -- a subscription that lives is empty at worst
        right
        by_contra hopen
        cases hconnected.mpr (Bool.eq_true_of_not_eq_false hopen)
  | draining starts =>
    obtain ⟨evt, hdrain⟩ := drainStep_of_go ht hgo
    rw [hdrain.turn] at hret
    cases evt <;> cases starts <;> cases hret
  | checking | forwarding =>
    rw [ht] at hstep
    dsimp only at hstep
    split at hstep <;> cases hstep <;> cases hret
  | sending topic =>
    rw [ht] at hstep
    cases hstep
    cases hret
  | returned =>
    rw [ht] at hstep
    cases hstep

omit [MessageStore σ] in
theorem ended_spawned {d : Deliveries σ} {addresses : List String} {conn : Bool} :
    Ended (.spawned d addresses conn : Bridge σ ε) := by
  intro hret
  cases hret

theorem ended_step (hstep : s.step decode mv = some s') (h : Ended s) : Ended s' := by
  intro hret
  by_cases hmv : mv = .go
  · subst hmv
    have hkept := (takes_of_go hstep).1
    rw [hkept.stop, hkept.connected]
    exact go_returned hstep hret
  · obtain ⟨-, hturn, hstays, hcloses⟩ := step_around hmv hstep
    exact (h (hturn ▸ hret)).imp hstays hcloses

end Bridge

/-! ## Every session -/

section Runs

open Bridge

variable [MessageStore σ] {decode : Decoders ε} {s₀ s s' : Bridge σ ε}
  {moves : List (BridgeMove ε)}

/-- Refinement: whatever comes and whenever, the loop of the bridge does to the subscriptions
what the steps they notice do. -/
theorem bridge_refines (hm : s₀.process.world.module.isSome)
    (hr : (bridge σ decode).Run Lasting s₀ moves s) :
    (subscriptions σ).Run InSession s₀.outline
      ((bridge σ decode).output (activities decode) s₀ moves) s.outline := by
  have hstep : ∀ s mv s' t, Lasting s mv → (bridge σ decode).step s mv = some s' →
      (t = s.outline ∧ s.process.world.module.isSome) →
      ∃ t', (subscriptions σ).Run InSession t (s.activities decode mv) t' ∧
        (t' = s'.outline ∧ s'.process.world.module.isSome) := by
    rintro s mv s' t hgo hstep ⟨rfl, hm⟩
    obtain ⟨hrun, hm'⟩ := refines_step hm hgo hstep
    exact ⟨_, hrun, rfl, hm'⟩
  obtain ⟨t, hrun, rfl, -⟩ := hr.simulation_output hstep ⟨rfl, hm⟩
  exact hrun

/-- The three kinds of events, decoded. -/
def decoded : Decoders (MessageReceived ⊕ (Bool × String) ⊕ String) where
  messageReceived := Sum.getLeft?
  nodeStarted evt := evt.getRight?.bind Sum.getLeft?
  connectionStateChanged evt := evt.getRight?.bind Sum.getRight?

/-- A message comes twice and the node is started; the bridge takes the first one and turns
to the start. -/
def startedAndHeard : List (BridgeMove (MessageReceived ⊕ (Bool × String) ⊕ String)) := [
  .delivery (.answer 0 (.ok ())),
  .arrives .messages (.inl ⟨"0xa", "/logos-chat/1/a/proto", [1]⟩),
  .arrives .messages (.inl ⟨"0xa", "/logos-chat/1/a/proto", [1]⟩),
  .arrives .nodeStarted (.inr (.inl (true, ""))),
  .go, .go, .go]

theorem lasting_startedAndHeard {s₀ s : Bridge LogStore _}
    (hexec : (bridge LogStore decoded).exec s₀ startedAndHeard = some s) :
    (bridge LogStore decoded).Run Lasting s₀ startedAndHeard s := by
  refine (Machine.run_of_exec hexec).imp ?_
  intro mv hmv t _
  simp only [startedAndHeard, List.mem_cons, List.not_mem_nil, or_false] at hmv
  rcases hmv with rfl | rfl | rfl | rfl | rfl | rfl | rfl <;> exact nofun

theorem bridge_refines_started : ∃ (d : Deliveries LogStore) (s : Bridge LogStore _),
    (deliveries LogStore).step (.start Persistence.emptyDb none)
      (.init ⟨none⟩ (.up ⟨"name", "addr"⟩ [])) = some d ∧
    (bridge LogStore decoded).exec (.spawned d ["a"] true) startedAndHeard = some s ∧
    (subscriptions LogStore).Run InSession (.spawned d ["a"])
      [.delivery (.answer 0 (.ok ())), .delivery (.nodeStarted true "")] s.outline := by
  have hexec : ∃ (d : Deliveries LogStore) (s : Bridge LogStore _),
      (deliveries LogStore).step (.start Persistence.emptyDb none)
        (.init ⟨none⟩ (.up ⟨"name", "addr"⟩ [])) = some d ∧
      (bridge LogStore decoded).exec (.spawned d ["a"] true) startedAndHeard = some s ∧
      d.world.module.isSome ∧
      (bridge LogStore decoded).output (activities decoded) (.spawned d ["a"] true)
        startedAndHeard = [.delivery (.answer 0 (.ok ())), .delivery (.nodeStarted true "")] :=
    ⟨_, _, rfl, rfl, rfl, rfl⟩
  obtain ⟨d, s, hd, hexec, hm, hnoticed⟩ := hexec
  have hrefines := bridge_refines hm (lasting_startedAndHeard hexec)
  rw [hnoticed] at hrefines
  exact ⟨d, s, hd, hexec, hrefines⟩

/-- Whatever happens around it, the bridge hears each event once and in the order they came,
gives up no subscription before its events are heard, and has pushed to the client what
`forwardMessage` makes of the messages heard. -/
theorem bridge_hears {d : Deliveries σ} {addresses : List String} {conn : Bool}
    (hr : (bridge σ decode).Run (fun _ _ => True) (.spawned d addresses conn) moves s) :
    (∀ source, s.came source = s.heard source ++ s.waiting source) ∧
      (∀ source, s.sub source = none → s.came source = s.heard source) ∧
      s.forwarded = forwardMessages decode.messageReceived (s.heard .messages) := by
  have hspawned : Hears decode (.spawned d addresses conn : Bridge σ ε) := by
    refine ⟨?_, rfl⟩
    intro source
    cases source with
    | messages | nodeStarted => rfl
    | connection => cases conn <;> rfl
  have hhears := hr.invariant (I := Hears decode) (fun _ _ _ _ hstep h => hears_step hstep h)
    hspawned
  refine ⟨hhears.came, ?_, hhears.forwarded⟩
  intro source hnone
  have hcame := hhears.came source
  unfold waiting at hcame
  rw [hnone] at hcame
  simpa using hcame

theorem bridge_hears_started : ∃ (d : Deliveries LogStore) (s : Bridge LogStore _),
    (deliveries LogStore).step (.start Persistence.emptyDb none)
      (.init ⟨none⟩ (.up ⟨"name", "addr"⟩ [])) = some d ∧
    (bridge LogStore decoded).exec (.spawned d ["a"] true) startedAndHeard = some s ∧
    s.forwarded.inbound = [[1]] ∧
    s.waiting .messages = [.inl ⟨"0xa", "/logos-chat/1/a/proto", [1]⟩] ∧
    s.came .messages = s.heard .messages ++ s.waiting .messages := by
  have hexec : ∃ (d : Deliveries LogStore) (s : Bridge LogStore _),
      (deliveries LogStore).step (.start Persistence.emptyDb none)
        (.init ⟨none⟩ (.up ⟨"name", "addr"⟩ [])) = some d ∧
      (bridge LogStore decoded).exec (.spawned d ["a"] true) startedAndHeard = some s ∧
      s.forwarded.inbound = [[1]] ∧
      s.waiting .messages = [.inl ⟨"0xa", "/logos-chat/1/a/proto", [1]⟩] :=
    ⟨_, _, rfl, rfl, rfl, rfl⟩
  obtain ⟨d, s, hd, hexec, hinbound, hwaiting⟩ := hexec
  exact ⟨d, s, hd, hexec, hinbound, hwaiting,
    (bridge_hears (Machine.run_of_exec hexec)).1 .messages⟩

/-- In a session a bridge that is left alone, and not told to stop, hears everything that has
come, and passes everything queued on if delivery is Online then. -/
theorem bridge_quiet {d : Deliveries σ} {addresses : List String} {conn : Bool}
    (hm : d.world.module.isSome)
    (hr : (bridge σ decode).Run Lasting (.spawned d addresses conn) moves s)
    (hgo : s.stop = false) (hconnected : s.messages.connected = true) :
    ∃ s', LeftAlone decode s s' ∧ (∀ source, s'.heard source = s.came source) ∧
      s'.forwarded = forwardMessages decode.messageReceived (s.came .messages) ∧
      (s'.process.delivery.state = .online → s'.dispatched = s.queued) := by
  have hopen : ¬ (s.stop = true ∨ s.messages.connected = false) := by simp [hgo, hconnected]
  obtain ⟨s₁, h₁, hloop | ⟨-, hret | hclosed⟩⟩ := comes_round decode s
  · have hkept₁ := h₁.further.kept
    obtain ⟨s', h₂, hround, hnil⟩ := quiets decode hloop (hkept₁.stop.trans hgo)
      (hkept₁.connected.trans hconnected)
    have halone := h₁.trans h₂
    have hkept := halone.further.kept
    obtain ⟨own, hown⟩ := halone
    have hall := hr.append (hown.imp (by rintro mv - t rfl; exact nofun))
    obtain ⟨hcame, -, hforwarded⟩ := bridge_hears (hall.imp fun _ _ _ _ => trivial)
    have hheard : ∀ source, s'.heard source = s.came source := by
      intro source
      rw [← hkept.came, hcame source]
      cases source with
      | messages => rw [hnil, List.append_nil]
      | nodeStarted => rw [hround.starts, List.append_nil]
      | connection => rw [hround.connection, List.append_nil]
    refine ⟨s', ⟨own, hown⟩, hheard, ?_, ?_⟩
    · rw [hforwarded, hheard]
    · intro honline
      have horder : s'.outline.InOrder := (bridge_refines hm hall).invariant
        (I := Subscriptions.InOrder) (fun _ _ _ _ hstep h => h.step hstep)
        (Subscriptions.inOrder_spawned d addresses)
      have hqueued : s'.dispatched ++ (place s'.turn).inHand ++ s'.subscribeRx = s'.queued := horder
      rw [hround.looping, hround.passed honline, hkept.queued] at hqueued
      simpa [place, BridgeAt.inHand] using hqueued
  · have hended : Ended s := hr.invariant (I := Ended) (fun _ _ _ _ hstep h => ended_step hstep h)
      ended_spawned
    exact absurd (hended hret) hopen
  · exact absurd (Or.inr hclosed) hopen

theorem bridge_quiet_started : ∃ (d : Deliveries LogStore) (s s' : Bridge LogStore _),
    (deliveries LogStore).step (.start Persistence.emptyDb none)
      (.init ⟨none⟩ (.up ⟨"name", "addr"⟩ [])) = some d ∧
    (bridge LogStore decoded).exec (.spawned d ["a"] true) startedAndHeard = some s ∧
    LeftAlone decoded s s' ∧ s'.heard .messages = s.came .messages := by
  have hexec : ∃ (d : Deliveries LogStore) (s : Bridge LogStore _),
      (deliveries LogStore).step (.start Persistence.emptyDb none)
        (.init ⟨none⟩ (.up ⟨"name", "addr"⟩ [])) = some d ∧
      (bridge LogStore decoded).exec (.spawned d ["a"] true) startedAndHeard = some s ∧
      d.world.module.isSome ∧ s.stop = false ∧ s.messages.connected = true :=
    ⟨_, _, rfl, rfl, rfl, rfl, rfl⟩
  obtain ⟨d, s, hd, hexec, hm, hgo, hconnected⟩ := hexec
  obtain ⟨s', halone, hheard, -⟩ :=
    bridge_quiet hm (lasting_startedAndHeard hexec) hgo hconnected
  exact ⟨d, s, s', hd, hexec, halone, hheard .messages⟩

/-- A bridge told to stop hears one message more at most, whatever comes, and left alone it
returns: the join of a shutdown ends. -/
theorem bridge_stops (hstop : s.stop = true) :
    (∀ moves s', (bridge σ decode).Run (fun _ _ => True) s moves s' →
      ∃ new, s'.heard .messages = s.heard .messages ++ new ∧ new.length ≤ 1) ∧
    ∃ s', LeftAlone decode s s' ∧ s'.turn = .returned := by
  constructor
  · intro moves s' hr
    have hfew := hr.invariant (I := fun t => t.stop = true ∧ ∃ new,
      t.heard .messages = s.heard .messages ++ new ∧
        (new = [] ∨ new.length = 1 ∧ t.turn ≠ .receiving)) ?_ ⟨hstop, [], by simp, Or.inl rfl⟩
    · obtain ⟨-, new, hheard, hnew⟩ := hfew
      refine ⟨new, hheard, ?_⟩
      rcases hnew with rfl | ⟨hone, -⟩
      · exact Nat.zero_le _
      · exact hone.le
    · rintro t mv t' - hstep ⟨htstop, new, hheard, hnew⟩
      by_cases hmv : mv = .go
      · subst hmv
        refine ⟨(takes_of_go hstep).1.stop.trans htstop, ?_⟩
        rcases go_stopped htstop hstep with ⟨hsame, hwas⟩ | ⟨hwas, hleft, evt, htaken⟩
        · refine ⟨new, hsame.trans hheard, hnew.imp id ?_⟩
          rintro ⟨hone, hnot⟩
          exact ⟨hone, fun h => hnot (hwas h)⟩
        · rcases hnew with rfl | ⟨-, hnot⟩
          · exact ⟨[evt], by rw [htaken, hheard, List.append_nil], Or.inr ⟨rfl, hleft⟩⟩
          · exact absurd hwas hnot
      · obtain ⟨hsame, hturn, hstays, -⟩ := step_around hmv hstep
        refine ⟨hstays htstop, new, by rw [hsame, hheard], ?_⟩
        rw [hturn]
        exact hnew
  · obtain ⟨s₁, halone, hloop | ⟨hret, -⟩⟩ := comes_round decode s
    · have hlast : s₁.go decode = some { s₁ with turn := .returned } := by
        unfold go
        rw [hloop]
        simp [halone.further.kept.stop, hstop]
      exact ⟨_, halone.trans (.step hlast (.refl _)), rfl⟩
    · exact ⟨s₁, halone, hret⟩

theorem bridge_stops_started : ∃ (d : Deliveries LogStore) (s s' : Bridge LogStore _),
    (bridge LogStore decoded).exec (.spawned d ["a"] true) (startedAndHeard ++ [.stop]) = some s ∧
      LeftAlone decoded s s' ∧ s'.turn = .returned := by
  have hexec : ∃ (d : Deliveries LogStore) (s : Bridge LogStore _),
      (deliveries LogStore).step (.start Persistence.emptyDb none)
        (.init ⟨none⟩ (.up ⟨"name", "addr"⟩ [])) = some d ∧
      (bridge LogStore decoded).exec (.spawned d ["a"] true) (startedAndHeard ++ [.stop]) =
        some s ∧ s.stop = true := ⟨_, _, rfl, rfl, rfl⟩
  obtain ⟨d, s, -, hexec, hstop⟩ := hexec
  have hends : ∃ s', LeftAlone decoded s s' ∧ s'.turn = .returned := (bridge_stops hstop).2
  obtain ⟨s', halone, hret⟩ := hends
  exact ⟨d, s, s', hexec, halone, hret⟩

end Runs

end ChatModule
