import Mathlib.Logic.Function.Basic
import ChatModule.Inbound
import ChatModule.Actions.Lifecycle
import ChatModule.Lib.Machine

/-!
# Delivery, message by message

Inits and shutdowns one at a time, and in any order between them the answers to the
calls made to delivery_module, the `nodeStarted` events of any consumer's start and
the connectivity events. An answer may come at any time after its call, also when
the session that made the call is over; the bridge that brings the two kinds of
events lives from an init to the shutdown of its session.

The bootstraps are numbered in the order they begin. `Boot` records of each what the
module itself does not keep: which session began it, with which preset, how it came
by its node and how far it is.
-/

namespace ChatModule

open Actions Inbound

/-! ## States -/

/-- How a bootstrap came by its node: its own `createNode` was answered Ok, or an
existing node answered `getNodeInfo`, created with another preset than its own or by
someone else when `differs`. -/
inductive Origin
  | created
  | joined (differs : Bool)
deriving DecidableEq

/-- The call a bootstrap waits for, or `concluded`. -/
inductive BootPhase
  | creating
  | joining
  | starting
  | concluded
deriving DecidableEq

/-- A bootstrap: the chain of calls begun by one `start_delivery_bootstrap`. -/
structure Boot where
  session : ℕ
  preset : String
  origin : Option Origin
  phase : BootPhase
deriving DecidableEq

/-- A bootstrap as it begins. -/
def Boot.begun (session : ℕ) (preset : String) : Boot := ⟨session, preset, none, .creating⟩

/-- What the answer to one of its calls makes of a bootstrap. -/
def Boot.answered (boot : Boot) (call : Pending) (res : Answer) (own : Option String) : Boot :=
  match call, res with
  | .createNode _, .ok () => { boot with origin := some .created, phase := .starting }
  | .createNode _, .error _ => { boot with phase := .joining }
  | .getNodeInfo _ _, .ok () =>
    { boot with origin := some (.joined (own ≠ some boot.preset)), phase := .starting }
  | .getNodeInfo _ _, .error _ => { boot with phase := .concluded }
  -- it waits on, for a `nodeStarted`
  | .start, .ok () => boot
  | .start, .error _ => { boot with phase := .concluded }

/-- What an accepted `nodeStarted` makes of a bootstrap. -/
def Boot.accepted (boot : Boot) : Boot :=
  if boot.phase = .starting then { boot with phase := .concluded } else boot

section Boot

variable (boot : Boot)

@[simp] theorem Boot.session_answered (call : Pending) (res : Answer) (own : Option String) :
    (boot.answered call res own).session = boot.session := by
  cases call <;> cases res <;> rfl

@[simp] theorem Boot.session_accepted : boot.accepted.session = boot.session := by
  unfold Boot.accepted
  split <;> rfl

@[simp] theorem Boot.origin_accepted : boot.accepted.origin = boot.origin := by
  unfold Boot.accepted
  split <;> rfl

theorem Boot.accepted_of_ne {boot : Boot} (h : boot.phase ≠ .starting) : boot.accepted = boot := by
  simp [Boot.accepted, h]

end Boot

/-- The process, the number of sessions so far, the calls not yet answered with the
bootstrap each belongs to, and the bootstraps, of which `begun` have begun. -/
structure Deliveries (σ : Type) where
  world : World σ
  sessions : ℕ
  calls : List (ℕ × Pending)
  begun : ℕ
  boot : ℕ → Boot

namespace Deliveries

variable {σ : Type}

/-- The delivery state on display. -/
abbrev delivery (s : Deliveries σ) : DeliveryState := s.world.guarded.display.deliveryState

/-- The process as it starts. -/
def start (file : ChatDb σ) (ownNodePreset : Option String) : Deliveries σ where
  world := World.start file ownNodePreset
  sessions := 0
  calls := []
  begun := 0
  boot _ := .begun 0 ""

/-- A bootstrap begins with the call it makes. -/
def begin (s : Deliveries σ) (preset : String) (call : Pending) : Deliveries σ :=
  { s with
    calls := s.calls ++ [(s.begun, call)]
    begun := s.begun + 1
    boot := Function.update s.boot s.begun (.begun s.sessions preset) }

/-- A bootstrap of an earlier session. -/
def Stale (s : Deliveries σ) (b : ℕ) : Prop := (s.boot b).session ≠ s.sessions

/-- A bootstrap of this session that has not concluded. -/
def Unconcluded (s : Deliveries σ) (b : ℕ) : Prop :=
  b < s.begun ∧ ¬ s.Stale b ∧ (s.boot b).phase ≠ .concluded

end Deliveries

/-! ## Steps -/

/-- What can happen to delivery. -/
inductive Happening
  | init (config : ChatConfig) (env : Environment)
  | shutdown
  /-- The `i`-th call made to delivery_module is answered. -/
  | answer (i : ℕ) (res : Answer)
  | nodeStarted (success : Bool) (message : String)
  | connectionStateChanged (status : String)

section Step

variable {σ : Type} [MessageStore σ]

/-- One step. -/
def Deliveries.step (s : Deliveries σ) : Happening → Option (Deliveries σ)
  | .init config env =>
    let out := Actions.init config env s.world
    -- a session is counted when its state is installed, before its first bootstrap
    let newSessions := if s.world.module.isNone && out.world.module.isSome then 1 else 0
    let s := { s with world := out.world, sessions := s.sessions + newSessions }
    match out.dispatched with
    | some call => some (s.begin (presetOf config) call)
    | none => some s
  | .shutdown => some { s with world := Actions.shutdown s.world }
  | .answer i res =>
    match s.calls[i]? with
    | none => none
    | some (b, call) =>
      -- the callback knows what it captured; `b` is only ours to remember
      let (w, next) := answered call res s.world
      some { s with
        world := w
        calls := s.calls.eraseIdx i ++ (next.map (b, ·)).toList
        boot := Function.update s.boot b ((s.boot b).answered call res s.world.ownNodePreset) }
  -- without a session the bridge that hears the events is gone
  | .nodeStarted success message =>
    if s.world.module.isNone then none
    else some { s with
      world := { s.world with guarded := recordNodeStarted success message s.world.guarded }
      boot := fun b => if s.delivery.starting then (s.boot b).accepted else s.boot b }
  | .connectionStateChanged status =>
    if s.world.module.isNone then none
    else some { s with
      world := { s.world with guarded := handleConnectionState status s.world.guarded } }

end Step

/-- The machine of inits, shutdowns and messages. -/
def deliveries (σ : Type) [MessageStore σ] : Machine (Deliveries σ) Happening :=
  ⟨Deliveries.step⟩

/-! ## What a step can do -/

section Cases

variable {σ : Type} [MessageStore σ] {s s' : Deliveries σ} {config : ChatConfig}
  {env : Environment} {i : ℕ} {res : Answer} {success : Bool} {message status : String}

/-- An init installs a session and begins a bootstrap, or claims a retry and begins
one, or finds nothing to do, or fails. -/
theorem step_init_cases (h : s.step (.init config env) = some s') :
    (s.world.module = none ∧ ∃ g ms, initializeModule env s.world.guarded = .ok (g, ms) ∧
      s' = { s with world := { s.world with module := some ms, guarded := g },
                    sessions := s.sessions + 1 }.begin (presetOf config)
                      (startDeliveryBootstrap (presetOf config))) ∨
    (s.world.module.isSome ∧ (claimDeliveryRetry s.world.guarded).2 = true ∧
      s' = { s with world := { s.world with guarded := (claimDeliveryRetry s.world.guarded).1 }
            }.begin (presetOf config) (startDeliveryBootstrap (presetOf config))) ∨
    (s.world.module.isSome ∧ (claimDeliveryRetry s.world.guarded).2 = false ∧ s' = s) ∨
    (s.world.module = none ∧ (∃ e, initializeModule env s.world.guarded = .error e) ∧ s' = s) := by
  simp only [Deliveries.step] at h
  rcases init_cases config env s.world with
    ⟨hm, g, ms, hinit, heq⟩ | ⟨hm, heq⟩ | ⟨hm, e, hinit, heq⟩
  · simp only [heq, hm] at h
    cases h
    exact Or.inl ⟨hm, g, ms, hinit, rfl⟩
  · have hsame : (s.world.module.isNone && s.world.module.isSome) = false := by
      cases s.world.module <;> rfl
    simp only [heq, hsame] at h
    cases hc : (claimDeliveryRetry s.world.guarded).2 with
    | true =>
      simp only [hc] at h
      cases h
      exact Or.inr (Or.inl ⟨hm, rfl, rfl⟩)
    | false =>
      simp only [hc, claimDeliveryRetry_of_false hc] at h
      cases h
      exact Or.inr (Or.inr (Or.inl ⟨hm, rfl, rfl⟩))
  · simp only [heq, hm] at h
    cases h
    exact Or.inr (Or.inr (Or.inr ⟨hm, ⟨e, hinit⟩, rfl⟩))

/-- An init that installs a session begins its first bootstrap, with a fresh display. -/
theorem step_install {s₀ : Deliveries σ} (hm : s.world.module = none)
    (hstep : s.step (.init config env) = some s₀) (hm₀ : s₀.world.module.isSome) :
    ∃ w : World σ, w.guarded.display.deliveryState = .initialising ∧ w.module.isSome ∧
      s₀ = { s with world := w, sessions := s.sessions + 1 }.begin (presetOf config)
        (startDeliveryBootstrap (presetOf config)) := by
  rcases step_init_cases hstep with
    ⟨-, g, ms, hinit, heq⟩ | ⟨hsome, -⟩ | ⟨hsome, -⟩ | ⟨-, -, heq⟩
  · obtain ⟨live, state, -, -, rfl⟩ := initializeModule_ok_iff.mp hinit
    exact ⟨_, rfl, rfl, heq⟩
  · simp [hm] at hsome
  · simp [hm] at hsome
  · rw [heq, hm] at hm₀
    cases hm₀

/-- An answer moves its bootstrap and the display on, and may make the next call. -/
theorem step_answer (h : s.step (.answer i res) = some s') :
    ∃ b call, s.calls[i]? = some (b, call) ∧
      s'.calls = s.calls.eraseIdx i ++ ((answered call res s.world).2.map (b, ·)).toList ∧
      s'.boot = Function.update s.boot b ((s.boot b).answered call res s.world.ownNodePreset) ∧
      s'.begun = s.begun ∧ s'.sessions = s.sessions ∧
      s'.world = (answered call res s.world).1 ∧
      s'.delivery = answeredDelivery call res s.world.ownNodePreset s.delivery := by
  simp only [Deliveries.step] at h
  split at h
  · cases h
  · next b call hcall =>
    cases h
    exact ⟨b, call, hcall, rfl, rfl, rfl, rfl, rfl, answered_delivery call res s.world⟩

/-- A `nodeStarted` concludes the starts that wait for it, when one does. -/
theorem step_nodeStarted (h : s.step (.nodeStarted success message) = some s') :
    s.world.module.isSome ∧ s'.calls = s.calls ∧ s'.begun = s.begun ∧
      s'.sessions = s.sessions ∧ s'.world.module = s.world.module ∧
      (s'.boot = fun b => if s.delivery.starting then (s.boot b).accepted else s.boot b) ∧
      s'.delivery = (recordNodeStarted success message s.world.guarded).display.deliveryState := by
  simp only [Deliveries.step] at h
  split at h
  · cases h
  · next hm =>
    cases h
    exact ⟨by simpa [Option.isSome_iff_ne_none] using hm, rfl, rfl, rfl, rfl, rfl, rfl⟩

/-- A connectivity event reaches the display only. -/
theorem step_connectionStateChanged (h : s.step (.connectionStateChanged status) = some s') :
    s.world.module.isSome ∧
      s' = { s with world := { s.world with
        guarded := handleConnectionState status s.world.guarded } } := by
  simp only [Deliveries.step] at h
  split at h
  · cases h
  · next hm =>
    cases h
    exact ⟨by simpa [Option.isSome_iff_ne_none] using hm, rfl⟩

/-! ## What a step leaves of the delivery state -/

omit [MessageStore σ] in
/-- A claimed retry starts over. -/
theorem delivery_of_retry {preset : String} {call : Pending}
    (hclaim : (claimDeliveryRetry s.world.guarded).2 = true)
    (heq : s' = { s with world := { s.world with
      guarded := (claimDeliveryRetry s.world.guarded).1 } }.begin preset call) :
    s'.delivery = { s.delivery with state := .initialising, detail := "" } := by
  have hd := claimDeliveryRetry_delivery s.world.guarded
  rw [if_pos hclaim] at hd
  rw [heq]
  exact hd

omit [MessageStore σ] in
/-- A retry is claimed when the Error of a bootstrap that never started is displayed. -/
theorem claim_iff : (claimDeliveryRetry s.world.guarded).2 = true ↔
    s.delivery.state = .error ∧ s.delivery.started = false :=
  claimDeliveryRetry_true_iff s.world.guarded

/-- A `nodeStarted` that no start awaits changes nothing. -/
theorem nodeStarted_of_not_starting (h : s.delivery.starting = false)
    (hstep : s.step (.nodeStarted success message) = some s') : s' = s := by
  simp only [Deliveries.step] at hstep
  split at hstep
  · cases hstep
  · cases hstep
    simp [h, recordNodeStarted_of_not_starting h]

/-- One that a start awaits ends the wait, Online or Error. -/
theorem nodeStarted_of_starting (h : s.delivery.starting = true)
    (hstep : s.step (.nodeStarted success message) = some s') :
    (s'.boot = fun b => (s.boot b).accepted) ∧ s'.delivery =
      if success then
        { s.delivery with starting := false, started := true, state := .online, detail := "" }
      else
        { s.delivery with
          starting := false, state := .error
          detail := "delivery_module.start failed: " ++ message } := by
  obtain ⟨-, -, -, -, -, hboot, hd⟩ := step_nodeStarted hstep
  rw [recordNodeStarted_delivery, if_neg (by simp [h])] at hd
  refine ⟨?_, hd⟩
  rw [hboot]
  simp [h]

/-- Connectivity is not heard before the node is started. -/
theorem connectionStateChanged_of_not_started (h : s.delivery.started = false)
    (hstep : s.step (.connectionStateChanged status) = some s') : s' = s := by
  rw [(step_connectionStateChanged hstep).2, handleConnectionState_of_not_started h]

/-- Afterwards it is what is displayed. -/
theorem connectionStateChanged_of_started (h : s.delivery.started = true)
    (hstep : s.step (.connectionStateChanged status) = some s') :
    s'.delivery = { s.delivery with state := mapConnectionStatus status, detail := "" } := by
  have hd := handleConnectionState_delivery s.world.guarded status
  rw [if_pos h] at hd
  rw [(step_connectionStateChanged hstep).2]
  exact hd

/-! ## While a session goes on -/

/-- The session goes on. -/
def NoShutdown (_ : Deliveries σ) (hap : Happening) : Prop := hap ≠ .shutdown

/-- While a session goes on its state is installed. -/
theorem installed_of_step {hap : Happening} (hm : s.world.module.isSome) (hgo : NoShutdown s hap)
    (hstep : s.step hap = some s') : s'.world.module.isSome := by
  cases hap with
  | init config env =>
    rcases step_init_cases hstep with
      ⟨hnone, -⟩ | ⟨-, -, heq⟩ | ⟨-, -, heq⟩ | ⟨hnone, -⟩
    · simp [hnone] at hm
    · rw [heq]
      exact hm
    · rwa [heq]
    · simp [hnone] at hm
  | shutdown => exact absurd rfl hgo
  | answer i res =>
    obtain ⟨b, call, -, -, -, -, -, hworld, -⟩ := step_answer hstep
    rw [hworld, answered_module]
    exact hm
  | nodeStarted success message =>
    obtain ⟨-, -, -, -, hmod, -⟩ := step_nodeStarted hstep
    rwa [hmod]
  | connectionStateChanged status =>
    rw [(step_connectionStateChanged hstep).2]
    exact hm

end Cases

end ChatModule
