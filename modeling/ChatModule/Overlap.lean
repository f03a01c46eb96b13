import ChatModule.Actions.Lifecycle
import ChatModule.Lib.Machine

/-!
# Overlapping inits and shutdowns

Inits and shutdowns are called from any thread. An init installs a state and seeds
the display in one section of the module lock, or finds a state and, in a section of
the display lock, claims a retry. A shutdown takes the state in one section of the
module lock and resets the display later, with no module lock held, once the workers
are joined.

The two locks agree in every quiet state as long as no init installs a state between
another thread's take and its reset (`Settled`, `quiet_together`); a reset that comes
after such an init wipes the display the init seeded (`reset_splits`).
-/

namespace ChatModule

open Actions Persistence

/-- The process, the inits before their claim, the shutdowns before their reset, and
the display the last init to install a state seeded. -/
structure Lifecycles (σ : Type) where
  world : World σ
  claiming : ℕ
  resetting : ℕ
  seeded : Display

/-- The next section of an init or of a shutdown. -/
inductive Phase
  /-- An init, in the module lock. -/
  | install (env : Environment)
  /-- An init that found a state installed. -/
  | claim
  /-- A shutdown, in the module lock. -/
  | take
  /-- A shutdown that took a state, its workers joined. -/
  | reset

namespace Lifecycles

variable {σ : Type}

def start (file : ChatDb σ) (ownNodePreset : Option String) : Lifecycles σ where
  world := World.start file ownNodePreset
  claiming := 0
  resetting := 0
  seeded := Display.default

/-- No init or shutdown is in progress. -/
def Quiet (s : Lifecycles σ) : Prop := s.claiming = 0 ∧ s.resetting = 0

/-- The display is the one the installed state's init seeded, or the default. -/
def Together (s : Lifecycles σ) : Prop :=
  match s.world.module with
  | some _ => s.world.guarded.display = s.seeded ∧ s.seeded.chatDb.isSome ∧
      s.seeded.deliveryState.state ≠ .stopped
  | none => s.world.guarded.display = Display.default

/-- Once a state is installed and its display seeded. -/
def installed (s : Lifecycles σ) (w : World σ) : Lifecycles σ :=
  { s with world := w, seeded := w.guarded.display }

/-- Once a shutdown has reset the display. -/
def resetDone (s : Lifecycles σ) : Lifecycles σ :=
  let g := resetDisplay s.world.guarded
  { s with world := { s.world with guarded := g }, resetting := s.resetting - 1 }

variable [MessageStore σ]

/-- One section. -/
def step (s : Lifecycles σ) : Phase → Option (Lifecycles σ)
  | .install env =>
    match s.world.installWith (initializeModule env) with
    | (w, .ok .installed) => some (s.installed w)
    | (w, .ok .alreadyInstalled) => some { s with world := w, claiming := s.claiming + 1 }
    | (w, .error _) => some { s with world := w }
  | .claim =>
    if s.claiming = 0 then none
    else
      let g := (claimDeliveryRetry s.world.guarded).1
      some { s with world := { s.world with guarded := g }, claiming := s.claiming - 1 }
  | .take =>
    match s.world.take with
    | (w, some _) => some { s with world := w, resetting := s.resetting + 1 }
    | (w, none) => some { s with world := w }
  | .reset => if s.resetting = 0 then none else some s.resetDone

end Lifecycles

/-- Inits and shutdowns in any interleaving. -/
def overlapping (σ : Type) [MessageStore σ] : Machine (Lifecycles σ) Phase := ⟨Lifecycles.step⟩

/-! ## While no init overtakes a reset -/

section Settled

variable {σ : Type} [MessageStore σ] {s s' : Lifecycles σ} {ph : Phase} {phs : List Phase}

/-- An init that will install a state finds no reset outstanding. -/
def Settled (s : Lifecycles σ) : Phase → Prop
  | .install env => s.world.module = none → (∃ client live, env.Up client live) → s.resetting = 0
  | _ => True

/-- What holds between the sections of any number of calls. -/
structure Paired (s : Lifecycles σ) : Prop where
  calm : s.world.guarded.display.deliveryState.state ≠ .error
  installed : s.world.module.isSome → s.resetting = 0 ∧ s.world.guarded.display = s.seeded ∧
    s.seeded.chatDb.isSome ∧ s.seeded.deliveryState.state = .initialising
  ended : s.world.module = none → s.resetting = 0 → s.world.guarded.display = Display.default

omit [MessageStore σ] in
theorem paired_start (file : ChatDb σ) (own : Option String) : Paired (Lifecycles.start file own) :=
  ⟨by simp [Lifecycles.start, World.start, Display.default, DeliveryState.stopped],
    fun h => by simp [Lifecycles.start, World.start] at h, fun _ _ => rfl⟩

omit [MessageStore σ] in
theorem Paired.together (h : Paired s) (hquiet : s.Quiet) : s.Together := by
  unfold Lifecycles.Together
  cases hm : s.world.module with
  | none => exact h.ended hm hquiet.2
  | some ms =>
    obtain ⟨-, hd, hdb, hstate⟩ := h.installed (by simp [hm])
    exact ⟨hd, hdb, by simp [hstate]⟩

omit [MessageStore σ] in
/-- With no failed bootstrap on display there is nothing to retry. -/
theorem claimDeliveryRetry_of_calm {g : Guarded σ} (h : g.display.deliveryState.state ≠ .error) :
    claimDeliveryRetry g = (g, false) := by
  simp [claimDeliveryRetry, h]

variable [LawfulMessageStore σ]

theorem paired_step (hsettled : Settled s ph) (hstep : s.step ph = some s') (h : Paired s) :
    Paired s' := by
  cases ph with
  | install env =>
    simp only [Lifecycles.step, World.installWith] at hstep
    cases hm : s.world.module with
    | some ms =>
      simp only [hm] at hstep
      cases hstep
      exact ⟨h.calm, h.installed, h.ended⟩
    | none =>
      cases hinit : initializeModule env s.world.guarded with
      | error e =>
        simp only [hm, hinit] at hstep
        cases hstep
        exact ⟨h.calm, h.installed, h.ended⟩
      | ok p =>
        obtain ⟨g, ms⟩ := p
        simp only [hm, hinit] at hstep
        cases hstep
        obtain ⟨live, hup, hseeded⟩ := initializeModule_ok hinit
        -- nothing is left that could wipe what is seeded here
        have hreset : s.resetting = 0 := hsettled hm ⟨_, live, hup⟩
        have hstate : g.display.deliveryState.state = .initialising := by
          rw [hseeded.delivery]
          rfl
        have hcalm : g.display.deliveryState.state ≠ .error := by simp [hstate]
        have hdb : g.display.chatDb.isSome := by simp [hseeded.chatDb]
        exact ⟨hcalm, fun _ => ⟨hreset, rfl, hdb, hstate⟩,
          fun hnone => nomatch hnone⟩
  | claim =>
    simp only [Lifecycles.step, claimDeliveryRetry_of_calm h.calm] at hstep
    split at hstep
    · cases hstep
    · cases hstep
      exact ⟨h.calm, h.installed, h.ended⟩
  | take =>
    simp only [Lifecycles.step, World.take] at hstep
    cases hm : s.world.module with
    | some ms =>
      simp only [hm] at hstep
      cases hstep
      exact ⟨h.calm, fun hsome => (nomatch hsome), fun _ hzero => (nomatch hzero)⟩
    | none =>
      simp only [hm] at hstep
      cases hstep
      exact ⟨h.calm, fun hsome => (nomatch hsome), fun _ hzero => h.ended hm hzero⟩
  | reset =>
    simp only [Lifecycles.step] at hstep
    split at hstep
    · cases hstep
    · next hne =>
      cases hstep
      have hcalm : Display.default.deliveryState.state ≠ .error := by decide
      refine ⟨hcalm, ?_, fun _ _ => rfl⟩
      -- a reset is outstanding, so no state is installed
      intro hsome
      exact absurd (h.installed hsome).1 hne

/-- Concurrent inits and shutdowns keep the two locks' states together, as long as
no init installs a state while a shutdown has yet to reset the display. -/
theorem quiet_together {file : ChatDb σ} {own : Option String}
    (hrun : (overlapping σ).Run Settled (Lifecycles.start file own) phs s) (hquiet : s.Quiet) :
    s.Together := by
  have hpaired := hrun.invariant (fun _ _ _ hsettled hstep h => paired_step hsettled hstep h)
    (paired_start file own)
  exact hpaired.together hquiet

/-! ## When an init overtakes a reset -/

omit [LawfulMessageStore σ] in
/-- The resets that are outstanding, one after the other. -/
theorem run_resets : ∀ {n : ℕ} {s : Lifecycles σ}, s.resetting = n + 1 →
    ∃ s', (overlapping σ).Run (fun _ _ => True) s (List.replicate (n + 1) .reset) s' ∧
      s'.claiming = s.claiming ∧ s'.resetting = 0 ∧ s'.world.module = s.world.module ∧
      s'.world.guarded.display = Display.default
  | 0, s, h => by
      have hstep : (overlapping σ).step s .reset = some s.resetDone := by
        simp [overlapping, Lifecycles.step, h]
      exact ⟨s.resetDone, .single trivial hstep, rfl, by simp [Lifecycles.resetDone, h], rfl, rfl⟩
  | n + 1, s, h => by
      have hstep : (overlapping σ).step s .reset = some s.resetDone := by
        simp [overlapping, Lifecycles.step, h]
      have hrest : s.resetDone.resetting = n + 1 := by simp [Lifecycles.resetDone, h]
      obtain ⟨s', hrun, hc, hr, hm, hd⟩ := run_resets hrest
      exact ⟨s', .cons trivial hstep hrun, hc, hr, hm, hd⟩

/-- An init that installs a state while a reset is outstanding loses its display: once
the resets are through, the state is installed over the default display. -/
theorem reset_splits {env : Environment} {client : Client} {live : List String} {n : ℕ}
    (hm : s.world.module = none) (hup : env.Up client live) (hclaim : s.claiming = 0)
    (hreset : s.resetting = n + 1) :
    ∃ s', (overlapping σ).Run (fun _ _ => True) s
      (.install env :: List.replicate (n + 1) .reset) s' ∧ s'.Quiet ∧ ¬ s'.Together := by
  obtain ⟨g, hinit, hseeded⟩ := initializeModule_up hup s.world.guarded
  let w : World σ := { s.world with module := some ⟨client⟩, guarded := g }
  have hstep : (overlapping σ).step s (.install env) = some (s.installed w) := by
    simp [overlapping, Lifecycles.step, World.installWith, hm, hinit, w]
  have hreset' : (s.installed w).resetting = n + 1 := hreset
  obtain ⟨s', hrun, hc, hr, hm', hd⟩ := run_resets hreset'
  refine ⟨s', .cons trivial hstep hrun, ⟨hc.trans hclaim, hr⟩, ?_⟩
  unfold Lifecycles.Together
  rw [hm']
  rintro ⟨heq, hdb, -⟩
  rw [← heq, hd] at hdb
  cases hdb

end Settled

section Runs

/-- The environment in which every init succeeds. -/
abbrev upEnv : Environment := .up ⟨"name", "addr"⟩ []

theorem quiet_together_after_restart : ∃ s : Lifecycles LogStore,
    (overlapping LogStore).exec (.start emptyDb none)
      [.install upEnv, .take, .reset, .install upEnv] = some s ∧ s.Together := by
  have hsteps : ∃ s₁ s₂ s₃ s₄ : Lifecycles LogStore,
      (overlapping LogStore).step (.start emptyDb none) (.install upEnv) = some s₁ ∧
        (overlapping LogStore).step s₁ .take = some s₂ ∧
        (overlapping LogStore).step s₂ .reset = some s₃ ∧
        (overlapping LogStore).step s₃ (.install upEnv) = some s₄ ∧
        s₃.resetting = 0 ∧ s₄.Quiet :=
    ⟨_, _, _, _, rfl, rfl, rfl, rfl, rfl, rfl, rfl⟩
  obtain ⟨s₁, s₂, s₃, s₄, h₁, h₂, h₃, h₄, hreset, hquiet⟩ := hsteps
  have hrun : (overlapping LogStore).Run Settled (.start emptyDb none)
      [.install upEnv, .take, .reset, .install upEnv] s₄ :=
    .cons (fun _ _ => rfl) h₁ (.cons trivial h₂ (.cons trivial h₃
      (.cons (fun _ _ => hreset) h₄ (.nil s₄))))
  exact ⟨s₄, by simp [Machine.exec, h₁, h₂, h₃, h₄], quiet_together hrun hquiet⟩

/-- An init between the take and the reset of a shutdown: the state it installs is
left with the default display. -/
theorem overtaken_reset_splits : ∃ s : Lifecycles LogStore,
    (overlapping LogStore).exec (.start emptyDb none)
      [.install upEnv, .take, .install upEnv, .reset] = some s ∧
      s.Quiet ∧ s.world.module.isSome ∧ s.world.guarded.display.chatDb = none ∧
      s.world.guarded.display.deliveryState.state = .stopped ∧ ¬ s.Together := by
  refine ⟨_, rfl, ⟨rfl, rfl⟩, rfl, rfl, rfl, ?_⟩
  rintro ⟨h, -⟩
  exact absurd (congrArg (fun d : Display => d.chatDb.isSome) h) (by decide)

end Runs

end ChatModule
