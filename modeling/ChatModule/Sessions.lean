import ChatModule.Actions.Conversations
import ChatModule.Deliveries

/-!
# Answers that outlive their session

A callback writes the display it finds; nothing says which session made the call. So
an answer that comes after its session's shutdown, or in a later session, is kept
from that session's delivery state only by what it happens to write: nothing, or
what is there already. `Contained` says when that is so, step by step, and a run
keeps its sessions apart exactly when all its steps meet it (`kept_iff_contained`).
-/

namespace ChatModule

open Actions Inbound

/-! ## What an answer writes -/

/-- An answer that fails its bootstrap. -/
def FailsOn : Pending → Answer → Prop
  | .getNodeInfo _ _, .error _ => True
  | .start, .error _ => True
  | _, _ => False

/-- An answer that writes what the delivery state says already. -/
def Repeats (call : Pending) (res : Answer) (own : Option String) (ds : DeliveryState) : Prop :=
  match call, res with
  | .createNode _, .ok () => ds.starting = true
  | .createNode _, .error _ => True
  | .getNodeInfo preset _, .ok () => ds.adopted = decide (own ≠ some preset) ∧ ds.starting = true
  | .getNodeInfo _ reason, .error _ =>
    ds.state = .error ∧ ds.detail = "delivery_module.createNode failed: " ++ reason
  | .start, .ok () => True
  | .start, .error e =>
    ds.starting = false ∧ ds.state = .error ∧ ds.detail = "delivery_module.start failed: " ++ e

theorem answeredDelivery_eq_self_iff {call : Pending} {res : Answer} {own : Option String}
    {ds : DeliveryState} : answeredDelivery call res own ds = ds ↔ Repeats call res own ds := by
  obtain ⟨state, detail, starting, started, adopted⟩ := ds
  cases call <;> cases res <;>
    simp only [answeredDelivery, Repeats, DeliveryState.mk.injEq, true_and, and_true] <;> tauto

/-- Only a failure leaves `stopped`. -/
theorem answeredDelivery_stopped_iff {call : Pending} {res : Answer} {own : Option String}
    {ds : DeliveryState} (h : ds.state = .stopped ∧ ds.detail = "") :
    ((answeredDelivery call res own ds).state = .stopped ∧
      (answeredDelivery call res own ds).detail = "") ↔ ¬ FailsOn call res := by
  cases call <;> cases res <;> simp [answeredDelivery, FailsOn, h]

theorem asStr_eq_stopped_iff {k : DeliveryStateKind} : k.asStr = "stopped" ↔ k = .stopped := by
  cases k <;> decide

/-! ## Sessions kept apart -/

section Sessions

variable {σ : Type} [MessageStore σ] {s s' : Deliveries σ} {hap : Happening}
  {haps : List Happening}

/-- `status` reports a stopped delivery. -/
def Stopped (s : Deliveries σ) : Prop :=
  (status s.world.guarded).deliveryState = "stopped" ∧ (status s.world.guarded).detail = ""

/-- A step after which delivery is stopped if no session is installed, and which
changes no later session's delivery state when it is an answer. -/
def Kept (s : Deliveries σ) (hap : Happening) : Prop :=
  ∀ s', (deliveries σ).step s hap = some s' →
    (s'.world.module = none → Stopped s') ∧
    ∀ i res b call, hap = .answer i res → s.calls[i]? = some (b, call) →
      s.world.module.isSome → s.Stale b → s'.delivery = s.delivery

/-- An answer that comes while no session is installed fails no bootstrap, and one
that comes in a later session repeats what is there. -/
def Contained (s : Deliveries σ) (hap : Happening) : Prop :=
  ∀ i res b call, hap = .answer i res → s.calls[i]? = some (b, call) →
    (s.world.module = none → ¬ FailsOn call res) ∧
    (s.world.module.isSome → s.Stale b → Repeats call res s.world.ownNodePreset s.delivery)

omit [MessageStore σ] in
theorem stopped_iff : Stopped s ↔ s.delivery.state = .stopped ∧ s.delivery.detail = "" := by
  unfold Stopped
  rw [show (status s.world.guarded).deliveryState = s.delivery.state.asStr from rfl,
    asStr_eq_stopped_iff]
  rfl

omit [MessageStore σ] in
/-- An answer due to the session that is installed is contained. -/
theorem contained_of_own {i b : ℕ} {call : Pending} {res : Answer} (hm : s.world.module.isSome)
    (hcall : s.calls[i]? = some (b, call)) (hown : ¬ s.Stale b) :
    Contained s (.answer i res) := by
  intro i' res' b' call' heq hcall'
  cases heq
  rw [hcall] at hcall'
  cases hcall'
  exact ⟨fun hnone => by simp [hnone] at hm, fun _ hstale => absurd hstale hown⟩

/-- Between sessions only an answer moves anything. -/
theorem stopped_of_step (h : s.world.module = none → Stopped s)
    (hno : ∀ i res, hap ≠ .answer i res) (hstep : (deliveries σ).step s hap = some s') :
    s'.world.module = none → Stopped s' := by
  cases hap with
  | init config env =>
    rcases step_init_cases hstep with ⟨-, g, ms, -, heq⟩ | ⟨hm, -, heq⟩ | ⟨-, -, heq⟩ | ⟨-, -, heq⟩
    · rw [heq]
      exact fun hnone => nomatch hnone
    · rw [heq]
      intro hnone
      change s.world.module = none at hnone
      simp [hnone] at hm
    · rwa [heq]
    · rwa [heq]
  | shutdown =>
    cases hstep
    intro _
    cases hm : s.world.module with
    | none => simpa [Stopped, shutdown_of_none hm] using h hm
    | some ms =>
      rw [stopped_iff, Deliveries.delivery, shutdown_display (w := s.world) (by simp [hm])]
      exact ⟨rfl, rfl⟩
  | answer i res => exact absurd rfl (hno i res)
  | nodeStarted success message =>
    obtain ⟨hm, -, -, -, hmod, -⟩ := step_nodeStarted hstep
    intro hnone
    rw [← hmod, hnone] at hm
    cases hm
  | connectionStateChanged text =>
    obtain ⟨hm, heq⟩ := step_connectionStateChanged hstep
    rw [heq]
    intro hnone
    change s.world.module = none at hnone
    simp [hnone] at hm

/-- A step keeps delivery stopped between sessions, and the state of a later session where it
is, exactly when the answer it brings is contained. -/
theorem kept_step_iff (h : s.world.module = none → Stopped s)
    (hstep : (deliveries σ).step s hap = some s') : Kept s hap ↔ Contained s hap := by
  by_cases hans : ∃ i res, hap = .answer i res
  · obtain ⟨i, res, rfl⟩ := hans
    obtain ⟨b, call, hcall, -, -, -, -, hworld, hd⟩ := step_answer hstep
    have hmod : s'.world.module = s.world.module := by rw [hworld, answered_module]
    have hstopped : s.world.module = none → (Stopped s' ↔ ¬ FailsOn call res) := by
      intro hm
      rw [stopped_iff, hd]
      exact answeredDelivery_stopped_iff (stopped_iff.mp (h hm))
    have hsame : s'.delivery = s.delivery ↔ Repeats call res s.world.ownNodePreset s.delivery := by
      rw [hd]
      exact answeredDelivery_eq_self_iff
    -- the display after an answer is `answeredDelivery` of the one before
    constructor
    · intro hkept i' res' b' call' heq hcall'
      cases heq
      rw [hcall] at hcall'
      cases hcall'
      obtain ⟨h₁, h₂⟩ := hkept s' hstep
      exact ⟨fun hm => (hstopped hm).mp (h₁ (hmod.trans hm)),
        fun hm hstale => hsame.mp (h₂ i res b call rfl hcall hm hstale)⟩
    · intro hcont s'' hstep'
      rw [hstep] at hstep'
      cases hstep'
      obtain ⟨h₁, h₂⟩ := hcont i res b call rfl hcall
      refine ⟨fun hm => (hstopped (hmod ▸ hm)).mpr (h₁ (hmod ▸ hm)), ?_⟩
      intro i' res' b' call' heq hcall' hm hstale
      cases heq
      rw [hcall] at hcall'
      cases hcall'
      exact hsame.mpr (h₂ hm hstale)
  · have hno : ∀ i res, hap ≠ .answer i res := fun i res heq => hans ⟨i, res, heq⟩
    constructor
    · intro _ i res b call heq
      exact absurd heq (hno i res)
    · intro _ s'' hstep'
      exact ⟨stopped_of_step h hno hstep', fun i res b call heq => absurd heq (hno i res)⟩

theorem stopped_step (hcont : Contained s hap) (hstep : (deliveries σ).step s hap = some s')
    (h : s.world.module = none → Stopped s) : s'.world.module = none → Stopped s' :=
  ((kept_step_iff h hstep).mpr hcont s' hstep).1

/-- A run of inits, shutdowns and messages keeps its sessions apart, at every step,
exactly when every answer in it is contained. -/
theorem kept_iff_contained {file : ChatDb σ} {own : Option String} :
    (deliveries σ).Run Kept (.start file own) haps s ↔
      (deliveries σ).Run Contained (.start file own) haps s :=
  Machine.Run.congr (fun _ _ _ h hstep => kept_step_iff h hstep)
    (fun _ _ _ hcont hstep h => stopped_step hcont hstep h) (fun _ => ⟨rfl, rfl⟩)

end Sessions

section Runs

/-- The init of these runs. -/
def initUp : Happening := .init ⟨none⟩ (.up ⟨"name", "addr"⟩ [])

/-- The answers to a session's calls, after its shutdown: a refusal without a node
shows while nothing is installed, a node created is awaited by the next session. -/
theorem late_answers_cross :
    (∃ s : Deliveries LogStore, (deliveries LogStore).exec (.start Persistence.emptyDb none)
      [initUp, .shutdown, .answer 0 (.error "no"), .answer 0 (.error "no")] = some s ∧
      s.world.module = none ∧ (status s.world.guarded).deliveryState = "error" ∧ ¬ Stopped s) ∧
    (∃ s s' : Deliveries LogStore, (deliveries LogStore).exec (.start Persistence.emptyDb none)
      [initUp, .shutdown, initUp] = some s ∧
      (deliveries LogStore).step s (.answer 0 (.ok ())) = some s' ∧
      s.calls[0]? = some (0, .createNode "logos.test") ∧ s.world.module.isSome ∧ s.Stale 0 ∧
      s.delivery.starting = false ∧ s'.delivery.starting = true) := by
  refine ⟨⟨_, rfl, rfl, rfl, ?_⟩, ⟨_, _, rfl, rfl, rfl, rfl, ?_, rfl, rfl⟩⟩
  · rintro ⟨h, -⟩
    exact absurd h (by decide)
  · exact fun h => nomatch h

end Runs

end ChatModule
