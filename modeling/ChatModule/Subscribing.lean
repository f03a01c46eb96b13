import ChatModule.Handshake

/-!
# Subscriptions reach delivery_module in order

The client queues the topics it wants delivered; the bridge, once in each turn of its loop,
looks whether delivery is Online and if so takes the queue apart, topic by topic, with no lock
held. Here a turn is cut into its steps, so that a topic may be queued, a call answered or an
event heard between any two of them. The bridge hears the events itself, between two turns;
they may come here at any time, which only adds runs.

What was passed on, what the bridge has in hand and what is still queued are together what was
ever queued (`InOrder`). A bridge past its check, or one that has passed a topic on, has found
delivery Online, which is this session's own start handshake, and that is not taken back when
delivery leaves Online.
-/

namespace ChatModule

open Actions Inbound

/-! ## The bridge and the queue -/

/-- Where the bridge is in its loop. -/
inductive BridgeAt
  /-- Waiting for a message or handing over events. -/
  | listening
  /-- In `forward_subscriptions`, past its check. -/
  | forwarding
  /-- There, with a topic it has received and not passed on. -/
  | sending (topic : String)
  /-- The message events are disconnected and the bridge is gone. -/
  | returned
deriving DecidableEq

/-- The topic in the bridge's hands. -/
def BridgeAt.inHand : BridgeAt → List String
  | .sending topic => [topic]
  | _ => []

/-- The bridge is past its check and not yet round again. -/
def BridgeAt.inLoop : BridgeAt → Bool
  | .forwarding | .sending _ => true
  | _ => false

/-- The process, the bridge, the channel between the client and the bridge, and of the whole
session the topics queued and those passed to `delivery_module.subscribe`. -/
structure Subscriptions (σ : Type) where
  process : Deliveries σ
  bridge : BridgeAt
  channel : List String
  queued : List String
  dispatched : List String

namespace Subscriptions

variable {σ : Type}

/-- The bridge is spawned; the client's construction has subscribed `addresses`. -/
def spawned (d : Deliveries σ) (addresses : List String) : Subscriptions σ where
  process := d
  bridge := .listening
  channel := addresses.map contentTopicFor
  queued := addresses.map contentTopicFor
  dispatched := []

/-- The display is seeded, and delivery is at `d`. -/
def seeded (s : Subscriptions σ) (d : Deliveries σ) : Subscriptions σ := { s with process := d }

/-- `SdkPublisher::subscribe`. -/
def subscribe (deliveryAddress : String) (s : Subscriptions σ) : Subscriptions σ :=
  -- with the receiver gone `send` is an error, and the client's
  if s.bridge = .returned then s
  else { s with
    channel := s.channel ++ [contentTopicFor deliveryAddress]
    queued := s.queued ++ [contentTopicFor deliveryAddress] }

/-- The next step of `forward_subscriptions`: its check, a `try_recv`, or the call for the
topic received. -/
def forwardSubscriptions (s : Subscriptions σ) : Option (Subscriptions σ) :=
  match s.bridge with
  | .listening =>
    if s.process.delivery.state = .online then some { s with bridge := .forwarding } else some s
  | .forwarding =>
    match s.channel with
    | topic :: channel => some { s with bridge := .sending topic, channel := channel }
    | [] => some { s with bridge := .listening }
  | .sending topic => some { s with bridge := .forwarding, dispatched := s.dispatched ++ [topic] }
  | .returned => none

end Subscriptions

/-- What happens next. -/
inductive Activity
  | delivery (hap : Happening)
  | subscribe (deliveryAddress : String)
  | forward
  /-- The message events are disconnected. -/
  | disconnected

/-- The client, the bridge and delivery, interleaved. -/
def subscriptions (σ : Type) [MessageStore σ] : Machine (Subscriptions σ) Activity where
  step s
    | .delivery hap => (s.process.step hap).map fun d => { s with process := d }
    | .subscribe deliveryAddress => some (s.subscribe deliveryAddress)
    | .forward => s.forwardSubscriptions
    | .disconnected =>
      if s.bridge = .listening then some { s with bridge := .returned } else none

/-- The messages of delivery in a session's history. -/
def happenings (as : List Activity) : List Happening :=
  as.filterMap fun
    | .delivery hap => some hap
    | _ => none

/-! ## What a step can do -/

namespace Subscriptions

variable {σ : Type} [MessageStore σ] {s s' : Subscriptions σ} {a : Activity}

omit [MessageStore σ] in
/-- The bridge checks and finds Online, or not; receives a topic, or finds none and is round
again; or passes the topic on. -/
theorem forward_cases (hs : s.forwardSubscriptions = some s') :
    (s.bridge = .listening ∧ s.process.delivery.state = .online ∧
      s' = { s with bridge := .forwarding }) ∨
    (s.bridge = .listening ∧ s' = s) ∨
    (∃ topic channel, s.bridge = .forwarding ∧ s.channel = topic :: channel ∧
      s' = { s with bridge := .sending topic, channel := channel }) ∨
    (s.bridge = .forwarding ∧ s.channel = [] ∧ s' = { s with bridge := .listening }) ∨
    (∃ topic, s.bridge = .sending topic ∧
      s' = { s with bridge := .forwarding, dispatched := s.dispatched ++ [topic] }) := by
  unfold Subscriptions.forwardSubscriptions at hs
  cases hb : s.bridge with
  | listening =>
    simp only [hb] at hs
    split at hs
    · next honline => exact .inl ⟨rfl, honline, (Option.some.inj hs).symm⟩
    · exact .inr (.inl ⟨rfl, (Option.some.inj hs).symm⟩)
  | forwarding =>
    simp only [hb] at hs
    cases hc : s.channel with
    | nil =>
      simp only [hc] at hs
      exact .inr (.inr (.inr (.inl ⟨rfl, rfl, (Option.some.inj hs).symm⟩)))
    | cons topic channel =>
      simp only [hc] at hs
      exact .inr (.inr (.inl ⟨topic, channel, rfl, rfl, (Option.some.inj hs).symm⟩))
  | sending topic =>
    simp only [hb] at hs
    exact .inr (.inr (.inr (.inr ⟨topic, rfl, (Option.some.inj hs).symm⟩)))
  | returned =>
    simp only [hb] at hs
    cases hs

/-- A message of delivery moves delivery and nothing else. -/
theorem step_delivery {hap : Happening} (hs : (subscriptions σ).step s (.delivery hap) = some s') :
    ∃ d, (deliveries σ).step s.process hap = some d ∧ s' = { s with process := d } := by
  obtain ⟨d, hd, rfl⟩ := Option.map_eq_some_iff.mp hs
  exact ⟨d, hd, rfl⟩

/-- The bridge leaves its loop between two turns. -/
theorem step_disconnected (hs : (subscriptions σ).step s .disconnected = some s') :
    s.bridge = .listening ∧ s' = { s with bridge := .returned } := by
  simp only [subscriptions, Option.ite_none_right_eq_some, Option.some.injEq] at hs
  exact ⟨hs.1, hs.2.symm⟩

omit [MessageStore σ] in
/-- A subscription is queued at the end, or not at all. -/
theorem subscribe_cases (deliveryAddress : String) (s : Subscriptions σ) :
    s.subscribe deliveryAddress = s ∨ ∃ topic, s.subscribe deliveryAddress =
      { s with channel := s.channel ++ [topic], queued := s.queued ++ [topic] } := by
  unfold Subscriptions.subscribe
  split
  · exact .inl rfl
  · exact .inr ⟨_, rfl⟩

/-! ## In order -/

/-- Every topic queued was passed on, is in the bridge's hands or is still queued, in this
order. -/
def InOrder (s : Subscriptions σ) : Prop :=
  s.dispatched ++ s.bridge.inHand ++ s.channel = s.queued

omit [MessageStore σ] in
theorem inOrder_spawned (d : Deliveries σ) (addresses : List String) :
    (spawned d addresses).InOrder := rfl

theorem InOrder.step (h : s.InOrder) (hs : (subscriptions σ).step s a = some s') :
    s'.InOrder := by
  cases a with
  | delivery hap =>
    obtain ⟨d, -, rfl⟩ := step_delivery hs
    exact h
  | subscribe deliveryAddress =>
    cases hs
    rcases subscribe_cases deliveryAddress s with heq | ⟨topic, heq⟩
    · rwa [heq]
    · rw [heq]
      show s.dispatched ++ s.bridge.inHand ++ (s.channel ++ [topic]) = s.queued ++ [topic]
      rw [← List.append_assoc, show s.dispatched ++ s.bridge.inHand ++ s.channel = s.queued from h]
  | forward =>
    unfold InOrder at h ⊢
    rcases forward_cases hs with
      ⟨hb, -, rfl⟩ | ⟨hb, rfl⟩ | ⟨topic, channel, hb, hc, rfl⟩ | ⟨hb, hc, rfl⟩ | ⟨topic, hb, rfl⟩
    · simpa [hb, BridgeAt.inHand] using h
    · exact h
    · simpa [hb, hc, BridgeAt.inHand] using h
    · simpa [hb, hc, BridgeAt.inHand] using h
    · simpa [hb, BridgeAt.inHand] using h
  | disconnected =>
    obtain ⟨hb, rfl⟩ := step_disconnected hs
    simpa [InOrder, hb, BridgeAt.inHand] using h

omit [MessageStore σ] in
theorem InOrder.first_queued (h : s.InOrder) : s.dispatched <+: s.queued := by
  rw [← show s.dispatched ++ s.bridge.inHand ++ s.channel = s.queued from h, List.append_assoc]
  exact List.prefix_append _ _

/-! ## Drained -/

/-- What is queued stays queued, and what is passed on stays passed on. -/
theorem grows (hs : (subscriptions σ).step s a = some s') :
    s.queued <+: s'.queued ∧ s.dispatched <+: s'.dispatched := by
  cases a with
  | delivery hap =>
    obtain ⟨d, -, rfl⟩ := step_delivery hs
    exact ⟨List.prefix_rfl, List.prefix_rfl⟩
  | subscribe deliveryAddress =>
    cases hs
    rcases subscribe_cases deliveryAddress s with heq | ⟨topic, heq⟩
    · rw [heq]
      exact ⟨List.prefix_rfl, List.prefix_rfl⟩
    · rw [heq]
      exact ⟨List.prefix_append _ _, List.prefix_rfl⟩
  | forward =>
    rcases forward_cases hs with
      ⟨-, -, rfl⟩ | ⟨-, rfl⟩ | ⟨topic, channel, -, -, rfl⟩ | ⟨-, -, rfl⟩ | ⟨topic, -, rfl⟩
    · exact ⟨List.prefix_rfl, List.prefix_rfl⟩
    · exact ⟨List.prefix_rfl, List.prefix_rfl⟩
    · exact ⟨List.prefix_rfl, List.prefix_rfl⟩
    · exact ⟨List.prefix_rfl, List.prefix_rfl⟩
    · exact ⟨List.prefix_rfl, List.prefix_append _ _⟩
  | disconnected =>
    obtain ⟨-, rfl⟩ := step_disconnected hs
    exact ⟨List.prefix_rfl, List.prefix_rfl⟩

/-- A bridge that comes out of its loop leaves nothing queued. -/
theorem drained_of_exit (h : s.InOrder) (hs : (subscriptions σ).step s a = some s')
    (hin : s.bridge.inLoop = true) (hout : s'.bridge.inLoop = false) :
    s'.dispatched = s'.queued := by
  cases a with
  | delivery hap =>
    obtain ⟨d, -, rfl⟩ := step_delivery hs
    simp [hin] at hout
  | subscribe deliveryAddress =>
    cases hs
    rcases subscribe_cases deliveryAddress s with heq | ⟨topic, heq⟩
    · simp [heq, hin] at hout
    · simp [heq, hin] at hout
  | forward =>
    rcases forward_cases hs with
      ⟨-, -, rfl⟩ | ⟨-, rfl⟩ | ⟨topic, channel, -, -, rfl⟩ | ⟨hb, hc, rfl⟩ | ⟨topic, -, rfl⟩
    · simp [BridgeAt.inLoop] at hout
    · simp [hin] at hout
    · simp [BridgeAt.inLoop] at hout
    · have hall := h
      simpa [InOrder, hb, hc, BridgeAt.inHand] using hall
    · simp [BridgeAt.inLoop] at hout
  | disconnected =>
    obtain ⟨hb, -⟩ := step_disconnected hs
    simp [hb, BridgeAt.inLoop] at hin

/-- Left alone the bridge comes out of its loop. -/
theorem exits (hin : s.bridge.inLoop = true) :
    ∃ n s', (subscriptions σ).exec s (List.replicate n .forward) = some s' ∧
      s'.bridge = .listening := by
  -- by induction on the queue, from the head of the loop
  have hloop : ∀ (channel : List String) (s : Subscriptions σ), s.bridge = .forwarding →
      s.channel = channel → ∃ n s',
        (subscriptions σ).exec s (List.replicate n .forward) = some s' ∧
          s'.bridge = .listening := by
    intro channel
    induction channel with
    | nil =>
      intro s hb hc
      refine ⟨1, { s with bridge := .listening }, ?_, rfl⟩
      simp [Machine.exec, subscriptions, Subscriptions.forwardSubscriptions, hb, hc]
    | cons topic channel ih =>
      intro s hb hc
      obtain ⟨n, s', hexec, hs'⟩ := ih
        { s with bridge := .forwarding, channel := channel,
                 dispatched := s.dispatched ++ [topic] } rfl rfl
      refine ⟨n + 2, s', ?_, hs'⟩
      simpa [List.replicate_succ, Machine.exec, subscriptions,
        Subscriptions.forwardSubscriptions, hb, hc] using hexec
  cases hb : s.bridge with
  | listening => simp [hb, BridgeAt.inLoop] at hin
  | forwarding => exact hloop s.channel s hb rfl
  | sending topic =>
    obtain ⟨n, s', hexec, hs'⟩ := hloop s.channel
      { s with bridge := .forwarding, dispatched := s.dispatched ++ [topic] } rfl rfl
    refine ⟨n + 1, s', ?_, hs'⟩
    simpa [List.replicate_succ, Machine.exec, subscriptions,
      Subscriptions.forwardSubscriptions, hb] using hexec
  | returned => simp [hb, BridgeAt.inLoop] at hin

end Subscriptions

/-! ## After the start -/

section Started

variable {σ : Type} [MessageStore σ] {d d' d₀ : Deliveries σ} {s s' : Subscriptions σ}
  {a : Activity} {as : List Activity}

/-- Without a session delivery is not Online. -/
theorem not_online_of_step {hap : Happening}
    (h : d.world.module = none → d.delivery.state ≠ .online)
    (hstep : (deliveries σ).step d hap = some d') :
    d'.world.module = none → d'.delivery.state ≠ .online := by
  cases hap with
  | init config env =>
    rcases step_init_cases hstep with
      ⟨-, g, ms, -, heq⟩ | ⟨hm, -, heq⟩ | ⟨-, -, heq⟩ | ⟨-, -, heq⟩
    · rw [heq]
      exact fun hnone => nomatch hnone
    · rw [heq]
      intro hnone
      change d.world.module = none at hnone
      simp [hnone] at hm
    · rwa [heq]
    · rwa [heq]
  | shutdown =>
    cases hstep
    intro _
    cases hm : d.world.module with
    | none => simpa [Deliveries.delivery, shutdown_of_none hm] using h hm
    | some ms =>
      rw [Deliveries.delivery, shutdown_display (w := d.world) (by simp [hm])]
      exact nofun
  | answer i res =>
    obtain ⟨b, call, -, -, -, -, -, hw, hd⟩ := step_answer hstep
    intro hnone
    rw [hw, answered_module] at hnone
    rw [hd]
    cases call <;> cases res
    case createNode.ok | createNode.error | getNodeInfo.ok | start.ok => exact h hnone
    all_goals exact nofun
  | nodeStarted success message =>
    obtain ⟨hm, -, -, -, hmod, -⟩ := step_nodeStarted hstep
    intro hnone
    rw [← hmod, hnone] at hm
    cases hm
  | connectionStateChanged text =>
    obtain ⟨hm, heq⟩ := step_connectionStateChanged hstep
    rw [heq]
    intro hnone
    change d.world.module = none at hnone
    simp [hnone] at hm

/-- The session goes on. -/
def InSession (_ : Subscriptions σ) (a : Activity) : Prop := a ≠ .delivery .shutdown

/-- The display is not seeded yet: the client and the bridge are there, the messages of
delivery are not. -/
def BeforeSeed (_ : Subscriptions σ) (a : Activity) : Prop := ∀ hap, a ≠ .delivery hap

/-- A session whose bridge passes its check, or has passed a topic on, has its own start
behind it. -/
structure Ready (d₀ : Deliveries σ) (as : List Activity) (s : Subscriptions σ) : Prop where
  session : Session d₀ (happenings as) s.process
  inOrder : s.InOrder
  inLoop : s.bridge.inLoop = true → Handshake d₀ (happenings as) s.process
  dispatched : s.dispatched ≠ [] → Handshake d₀ (happenings as) s.process

/-- A step of the client or of the bridge leaves the session's history as it is. -/
theorem happenings_snoc (hno : ∀ hap, a ≠ .delivery hap) :
    happenings (as ++ [a]) = happenings as := by
  cases a with
  | delivery hap => exact absurd rfl (hno hap)
  | subscribe _ | forward | disconnected => simp [happenings]

theorem ready_step (h : Ready d₀ as s) (hgo : InSession s a)
    (hs : (subscriptions σ).step s a = some s') : Ready d₀ (as ++ [a]) s' := by
  have horder := h.inOrder.step hs
  cases a with
  | delivery hap =>
    obtain ⟨d, hd, rfl⟩ := Subscriptions.step_delivery hs
    have hhap : happenings (as ++ [.delivery hap]) = happenings as ++ [hap] := by
      simp [happenings]
    have hno : NoShutdown s.process hap := fun heq => hgo (by rw [heq])
    have hsnoc : Handshake d₀ (happenings as) s.process →
        Handshake d₀ (happenings (as ++ [.delivery hap])) d := by
      intro hshake
      rw [hhap]
      exact hshake.snoc hno hd
    refine ⟨?_, horder, fun hin => hsnoc (h.inLoop hin), fun hne => hsnoc (h.dispatched hne)⟩
    rw [hhap]
    exact session_step h.session hno hd
  | subscribe deliveryAddress =>
    cases hs
    have hhap : happenings (as ++ [.subscribe deliveryAddress]) = happenings as :=
      happenings_snoc (by simp)
    rcases Subscriptions.subscribe_cases deliveryAddress s with heq | ⟨topic, heq⟩
    · simp only [heq] at horder ⊢
      exact ⟨hhap ▸ h.session, horder, hhap ▸ h.inLoop, hhap ▸ h.dispatched⟩
    · simp only [heq] at horder ⊢
      exact ⟨hhap ▸ h.session, horder, hhap ▸ h.inLoop, hhap ▸ h.dispatched⟩
  | forward =>
    have hhap : happenings (as ++ [.forward]) = happenings as := happenings_snoc (by simp)
    rcases Subscriptions.forward_cases hs with
      ⟨-, honline, rfl⟩ | ⟨-, rfl⟩ | ⟨topic, channel, hb, -, rfl⟩ | ⟨-, -, rfl⟩ | ⟨topic, hb, rfl⟩
    · -- Online: the handshake is behind us, whatever delivery does next
      have hshake := h.session.started (h.session.online honline)
      exact ⟨hhap ▸ h.session, horder, hhap ▸ fun _ => hshake, hhap ▸ h.dispatched⟩
    · exact ⟨hhap ▸ h.session, horder, hhap ▸ h.inLoop, hhap ▸ h.dispatched⟩
    · have hshake := h.inLoop (by rw [hb]; rfl)
      exact ⟨hhap ▸ h.session, horder, hhap ▸ fun _ => hshake, hhap ▸ h.dispatched⟩
    · exact ⟨hhap ▸ h.session, horder, nofun, hhap ▸ h.dispatched⟩
    · have hshake := h.inLoop (by rw [hb]; rfl)
      exact ⟨hhap ▸ h.session, horder, hhap ▸ fun _ => hshake, hhap ▸ fun _ => hshake⟩
  | disconnected =>
    have hhap : happenings (as ++ [.disconnected]) = happenings as := happenings_snoc (by simp)
    obtain ⟨-, rfl⟩ := Subscriptions.step_disconnected hs
    exact ⟨hhap ▸ h.session, horder, nofun, hhap ▸ h.dispatched⟩

/-- Before the display is seeded the bridge finds delivery not Online and passes nothing on. -/
structure Waiting (d : Deliveries σ) (s : Subscriptions σ) : Prop where
  process : s.process = d
  inOrder : s.InOrder
  inLoop : s.bridge.inLoop = false
  dispatched : s.dispatched = []

theorem waiting_step (hd : d.delivery.state ≠ .online) (h : Waiting d s) (hseed : BeforeSeed s a)
    (hs : (subscriptions σ).step s a = some s') : Waiting d s' := by
  have horder := h.inOrder.step hs
  cases a with
  | delivery hap => exact absurd rfl (hseed hap)
  | subscribe deliveryAddress =>
    cases hs
    rcases Subscriptions.subscribe_cases deliveryAddress s with heq | ⟨topic, heq⟩
    · rwa [heq]
    · rw [heq] at horder ⊢
      exact ⟨h.process, horder, h.inLoop, h.dispatched⟩
  | forward =>
    have hin := h.inLoop
    rcases Subscriptions.forward_cases hs with
      ⟨-, honline, rfl⟩ | ⟨-, rfl⟩ | ⟨topic, channel, hb, -, rfl⟩ | ⟨hb, -, rfl⟩ | ⟨topic, hb, rfl⟩
    · rw [h.process] at honline
      exact absurd honline hd
    · exact h
    · simp [hb, BridgeAt.inLoop] at hin
    · simp [hb, BridgeAt.inLoop] at hin
    · simp [hb, BridgeAt.inLoop] at hin
  | disconnected =>
    obtain ⟨-, rfl⟩ := Subscriptions.step_disconnected hs
    exact ⟨h.process, horder, rfl, h.dispatched⟩

/-- A check that finds Online is followed, when the bridge is out of its loop, by everything
passed on that was queued before it. -/
theorem drained_of_online {s₁ s₂ : Subscriptions σ} (h : s.InOrder)
    (hb : s.bridge = .listening) (honline : s.process.delivery.state = .online)
    (hs : (subscriptions σ).step s .forward = some s₁)
    (hrun : (subscriptions σ).Run InSession s₁ as s₂) (hout : s₂.bridge.inLoop = false) :
    s.queued <+: s₂.dispatched := by
  have hkept : s₂.InOrder ∧ s.queued <+: s₂.queued ∧
      (s₂.bridge.inLoop = false → s.queued <+: s₂.dispatched) := by
    refine hrun.invariant (I := fun x => x.InOrder ∧ s.queued <+: x.queued ∧
      (x.bridge.inLoop = false → s.queued <+: x.dispatched)) ?_ ?_
    · intro x a x' _ hstep ⟨hx, hqueued, hpassed⟩
      obtain ⟨hq, hd⟩ := Subscriptions.grows hstep
      refine ⟨hx.step hstep, hqueued.trans hq, ?_⟩
      intro hxout
      cases hin : x.bridge.inLoop with
      | true =>
        rw [Subscriptions.drained_of_exit hx hstep hin hxout]
        exact hqueued.trans hq
      | false => exact (hpassed hin).trans hd
    · have hfirst : s₁ = { s with bridge := .forwarding } := by
        simpa [subscriptions, Subscriptions.forwardSubscriptions, hb, honline] using hs.symm
      refine ⟨h.step hs, ?_, ?_⟩
      · rw [hfirst]
      · rw [hfirst]
        exact nofun
  exact hkept.2.2 hout

end Started

/-! ## Every session -/

section Runs

variable {σ : Type} [MessageStore σ]

/-- The topics of a session at a moment `s`, its display seeded at `d₀`. -/
structure PassedInOrder (d₀ : Deliveries σ) (as : List Activity) (s : Subscriptions σ) :
    Prop where
  /-- Those passed to delivery_module are the first that were queued, each once. -/
  inOrder : s.dispatched <+: s.queued
  /-- None was before the session's own start. -/
  started : s.dispatched ≠ [] → Handshake d₀ (happenings as) s.process
  /-- A turn of the bridge that finds Online leaves nothing that was queued before it. -/
  drained : s.bridge = .listening → s.process.delivery.state = .online → ∀ s₁ bs s₂,
    (subscriptions σ).step s .forward = some s₁ → (subscriptions σ).Run InSession s₁ bs s₂ →
      s₂.bridge.inLoop = false → s.queued <+: s₂.dispatched
  /-- And such a turn, left alone, comes to its end. -/
  ends : s.bridge.inLoop = true → ∃ n s',
    (subscriptions σ).exec s (List.replicate n .forward) = some s' ∧ s'.bridge = .listening

/-- A process comes to a session: its bridge is spawned, it runs `pre` before the display is
seeded and `as` after, in every order of the subscriptions, the bridge's steps and the messages
of delivery. Nothing is passed on before, and everything in order after. -/
theorem subscriptions_in_order {file : ChatDb σ} {own : Option String} {past : List Happening}
    {d d₀ : Deliveries σ} {config : ChatConfig} {env : Environment} {addresses : List String}
    {pre as : List Activity} {s₁ s : Subscriptions σ}
    (history : (deliveries σ).Run (fun _ _ => True) (.start file own) past d)
    (hm : d.world.module = none)
    (before : (subscriptions σ).Run BeforeSeed (.spawned d addresses) pre s₁)
    (hinit : (deliveries σ).step d (.init config env) = some d₀) (hm₀ : d₀.world.module.isSome)
    (run : (subscriptions σ).Run InSession (s₁.seeded d₀) as s) :
    s₁.dispatched = [] ∧ PassedInOrder d₀ as s := by
  have hoffline : d.world.module = none → d.delivery.state ≠ .online :=
    history.invariant (fun d hap d' _ hstep h => not_online_of_step h hstep) (fun _ => nofun)
  have hwaiting : Waiting d s₁ :=
    before.invariant (fun s a s' hseed hs h => waiting_step (hoffline hm) h hseed hs)
      ⟨rfl, Subscriptions.inOrder_spawned d addresses, rfl, rfl⟩
  have hready : Ready d₀ as s := by
    refine run.history (fun as s a s' h hgo hs => ready_step h hgo hs) ?_
    refine ⟨session_begin hm hinit hm₀, hwaiting.inOrder, ?_, ?_⟩
    · intro hin
      have hin : s₁.bridge.inLoop = true := hin
      simp [hwaiting.inLoop] at hin
    · intro hne
      exact absurd hwaiting.dispatched hne
  refine ⟨hwaiting.dispatched, hready.inOrder.first_queued, hready.dispatched, ?_, ?_⟩
  · intro hb honline s₁ bs s₂ hs hrun hout
    exact drained_of_online hready.inOrder hb honline hs hrun hout
  · exact Subscriptions.exits

/-- Delivery is lost between the check and the first topic passed on. -/
def lostMeanwhile : List Activity :=
  [.delivery (.answer 0 (.ok ())), .delivery (.nodeStarted true ""), .forward, .forward,
    .delivery (.connectionStateChanged "Disconnected"), .subscribe "late", .forward]

theorem subscriptions_in_order_lost :
    ∃ (d d₀ : Deliveries LogStore) (s₁ s : Subscriptions LogStore),
    d = .start Persistence.emptyDb none ∧
      (deliveries LogStore).step d (.init ⟨none⟩ (.up ⟨"name", "addr"⟩ [])) = some d₀ ∧
      (subscriptions LogStore).exec (.spawned d ["a"]) [.forward] = some s₁ ∧
      (subscriptions LogStore).exec (s₁.seeded d₀) lostMeanwhile = some s ∧
      s.process.delivery.state = .error ∧
      s.dispatched = [contentTopicFor "a"] ∧
      s.queued = [contentTopicFor "a", contentTopicFor "late"] ∧
      Handshake d₀ (happenings lostMeanwhile) s.process := by
  have hsteps : ∃ (d d₀ : Deliveries LogStore) (s₁ s : Subscriptions LogStore),
      d = .start Persistence.emptyDb none ∧
      (deliveries LogStore).step d (.init ⟨none⟩ (.up ⟨"name", "addr"⟩ [])) = some d₀ ∧
      (subscriptions LogStore).exec (.spawned d ["a"]) [.forward] = some s₁ ∧
      (subscriptions LogStore).exec (s₁.seeded d₀) lostMeanwhile = some s ∧
      s.process.delivery.state = .error ∧ s.dispatched = [contentTopicFor "a"] ∧
      s.queued = [contentTopicFor "a", contentTopicFor "late"] ∧ d₀.world.module.isSome :=
    ⟨_, _, _, _, rfl, rfl, rfl, rfl, rfl, rfl, rfl, rfl⟩
  obtain ⟨d, d₀, s₁, s, hd, hinit, hpre, hexec, herror, hdispatched, hqueued, hm₀⟩ := hsteps
  have before : (subscriptions LogStore).Run BeforeSeed (.spawned d ["a"]) [.forward] s₁ :=
    (Machine.run_of_exec hpre).imp (by simp [BeforeSeed])
  have run : (subscriptions LogStore).Run InSession (s₁.seeded d₀) lostMeanwhile s :=
    (Machine.run_of_exec hexec).imp (by simp [lostMeanwhile, InSession])
  have history : (deliveries LogStore).Run (fun _ _ => True) (.start Persistence.emptyDb none)
      [] d := hd ▸ .nil _
  have hm : d.world.module = none := by
    rw [hd]
    rfl
  obtain ⟨-, hpassed⟩ := subscriptions_in_order history hm before hinit hm₀ run
  exact ⟨d, d₀, s₁, s, hd, hinit, hpre, hexec, herror, hdispatched, hqueued,
    hpassed.started (by simp [hdispatched])⟩

end Runs

end ChatModule
