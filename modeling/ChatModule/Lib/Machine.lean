import Mathlib.Data.List.Basic

/-!
# Labelled machines and their runs

A machine moves from a state, under a label, to at most one state: a label that
is not enabled has no step. Nondeterminism (an answer from outside, a write that
fails, which thread moves next) lives in the label, so a run is the list of its
labels and the machine itself can be executed.

A run carries a predicate `P` on its steps, read in the state before each step.
`Run (fun _ _ => True)` is any run; a stronger `P` singles out the runs whose
environment keeps a promise.

* `Run.invariant` — an inductive invariant holds at the end of a run;
* `Run.congr` — predicates that agree wherever an invariant holds have the same runs;
* `Run.and_of_forall` — what each step of a run meets, the run meets;
* `Run.history` — the same for an invariant that may speak of the labels so far;
* `Run.simulation` — a relation kept by each step is kept by a run;
* `Run.accumulates` — an invariant over what the steps of a run have put out;
* `Run.simulation_accumulates`, `Run.simulation_output` — a simulation whose matching steps
  are what a run puts out;
* `run_of_exec`, `Run.exec` — an executed list of labels is a run, and a run executes.
-/

/-- A machine: the state a label leads to, if it is enabled. -/
structure Machine (State : Type*) (Label : Type*) where
  step : State → Label → Option State

namespace Machine

variable {State Label : Type*} (M : Machine State Label)

/-- A run from a state to a state: every step is enabled and meets `P`. -/
inductive Run (P : State → Label → Prop) : State → List Label → State → Prop
  | nil (s : State) : Run P s [] s
  | cons {s s₁ s' : State} {l : Label} {ls : List Label} :
      P s l → M.step s l = some s₁ → Run P s₁ ls s' → Run P s (l :: ls) s'

variable {M} {P Q : State → Label → Prop} {s s₁ s' : State} {l : Label} {ls ls' : List Label}

namespace Run

/-- A single step is a run. -/
theorem single (hP : P s l) (hs : M.step s l = some s') : M.Run P s [l] s' :=
  .cons hP hs (.nil s')

/-- A run may be read under another predicate that its labels meet. -/
theorem imp (hr : M.Run P s ls s') (h : ∀ l ∈ ls, ∀ s, P s l → Q s l) : M.Run Q s ls s' := by
  induction hr with
  | nil s => exact .nil s
  | cons hP hs _ ih =>
    refine .cons (h _ List.mem_cons_self _ hP) hs (ih ?_)
    intro l hl
    exact h l (List.mem_cons_of_mem _ hl)

/-- Two predicates that agree at every step of a run have the same runs. -/
theorem congr {I : State → Prop}
    (hiff : ∀ s l s', I s → M.step s l = some s' → (P s l ↔ Q s l))
    (hstep : ∀ s l s', Q s l → M.step s l = some s' → I s → I s') (h : I s) :
    M.Run P s ls s' ↔ M.Run Q s ls s' := by
  constructor
  · intro hr
    induction hr with
    | nil s => exact .nil s
    | cons hP hs _ ih =>
      have hQ := (hiff _ _ _ h hs).mp hP
      exact .cons hQ hs (ih (hstep _ _ _ hQ hs h))
  · intro hr
    induction hr with
    | nil s => exact .nil s
    | cons hQ hs _ ih => exact .cons ((hiff _ _ _ h hs).mpr hQ) hs (ih (hstep _ _ _ hQ hs h))

/-- A run meets another predicate as well when each of its steps does. -/
theorem and_of_forall (hr : M.Run P s ls s')
    (h : ∀ pre l post s₁ s₂, ls = pre ++ l :: post → M.Run P s pre s₁ → P s₁ l →
      M.step s₁ l = some s₂ → M.Run P s₂ post s' → Q s₁ l) :
    M.Run (fun s l => P s l ∧ Q s l) s ls s' := by
  induction hr with
  | nil s => exact .nil s
  | cons hP hs hr ih =>
    refine .cons ⟨hP, h [] _ _ _ _ rfl (.nil _) hP hs hr⟩ hs (ih ?_)
    intro pre l post s₁ s₂ heq hpre
    exact h (_ :: pre) l post s₁ s₂ (by rw [heq]; rfl) (.cons hP hs hpre)

/-- Runs compose. -/
theorem append (h₁ : M.Run P s ls s₁) (h₂ : M.Run P s₁ ls' s') : M.Run P s (ls ++ ls') s' := by
  induction h₁ with
  | nil s => exact h₂
  | cons hP hs _ ih => exact .cons hP hs (ih h₂)

/-- A run splits wherever its list of labels does. -/
theorem split : ∀ {ls : List Label} {s : State}, M.Run P s (ls ++ ls') s' →
    ∃ s₁, M.Run P s ls s₁ ∧ M.Run P s₁ ls' s'
  | [], s, h => ⟨s, .nil s, h⟩
  | l :: ls, s, h => by
      cases h with
      | cons hP hs hr =>
        obtain ⟨s₁, h₁, h₂⟩ := split hr
        exact ⟨s₁, .cons hP hs h₁, h₂⟩

/-- The last step of a run. -/
theorem last (h : M.Run P s (ls ++ [l]) s') :
    ∃ s₁, M.Run P s ls s₁ ∧ P s₁ l ∧ M.step s₁ l = some s' := by
  obtain ⟨s₁, h₁, h₂⟩ := split h
  cases h₂ with
  | cons hP hs hr =>
    cases hr
    exact ⟨s₁, h₁, hP, hs⟩

/-- Inductive invariance: what each step preserves, a run preserves. -/
theorem invariant {I : State → Prop}
    (hstep : ∀ s l s', P s l → M.step s l = some s' → I s → I s')
    (hr : M.Run P s ls s') (h : I s) : I s' := by
  induction hr with
  | nil s => exact h
  | cons hP hs _ ih => exact ih (hstep _ _ _ hP hs h)

/-- Inductive invariance with history: the invariant may mention the labels of
the run so far. The induction appends at the end, where the step is. -/
theorem history {I : List Label → State → Prop}
    (hstep : ∀ pre s l s', I pre s → P s l → M.step s l = some s' → I (pre ++ [l]) s')
    (h : I [] s) (hr : M.Run P s ls s') : I ls s' := by
  have key : ∀ {ls : List Label} {s s' : State}, M.Run P s ls s' →
      ∀ pre, I pre s → I (pre ++ ls) s' := by
    intro ls s s' hr
    induction hr with
    | nil s =>
      intro pre hpre
      simpa using hpre
    | cons hP hs _ ih =>
      intro pre hpre
      have hnext := ih (pre ++ [_]) (hstep _ _ _ _ hpre hP hs)
      simpa using hnext
  simpa using key hr [] h

/-- Forward simulation: if every step of `M` that meets `P` is matched by a list
of steps of `N`, so is every run. -/
theorem simulation {State' Label' : Type*} {N : Machine State' Label'}
    {R : State → State' → Prop}
    (hstep : ∀ s l s' t, P s l → M.step s l = some s' → R s t →
      ∃ ms t', N.Run (fun _ _ => True) t ms t' ∧ R s' t')
    (hr : M.Run P s ls s') {t : State'} (h : R s t) :
    ∃ ms t', N.Run (fun _ _ => True) t ms t' ∧ R s' t' := by
  induction hr generalizing t with
  | nil s => exact ⟨[], t, .nil t, h⟩
  | cons hP hs _ ih =>
    obtain ⟨ms, t₁, h₁, hR₁⟩ := hstep _ _ _ _ hP hs h
    obtain ⟨ms', t', h₂, hR'⟩ := ih hR₁
    exact ⟨ms ++ ms', t', h₁.append h₂, hR'⟩

end Run

/-! ## What a run puts out -/

/-- What the steps of an execution put out, one after the other, when a step under `l`
from `s` puts out `f s l`. -/
def output {α : Type*} (M : Machine State Label) (f : State → Label → List α) :
    State → List Label → List α
  | _, [] => []
  | s, l :: ls => f s l ++ ((M.step s l).elim [] fun s₁ => M.output f s₁ ls)

section Output

variable {α : Type*} {f : State → Label → List α}

theorem output_cons (hs : M.step s l = some s₁) :
    M.output f s (l :: ls) = f s l ++ M.output f s₁ ls := by
  simp [output, hs]

/-- A run puts out what its first part does, and then what the rest does. -/
theorem Run.output_append (hr : M.Run P s ls s₁) :
    M.output f s (ls ++ ls') = M.output f s ls ++ M.output f s₁ ls' := by
  induction hr with
  | nil s => rfl
  | cons _ hs _ ih => rw [List.cons_append, output_cons hs, output_cons hs, ih, List.append_assoc]

/-- Inductive invariance over what has been put out so far. -/
theorem Run.accumulates {I : List α → State → Prop}
    (hstep : ∀ out s l s', P s l → M.step s l = some s' → I out s → I (out ++ f s l) s')
    (hr : M.Run P s ls s') (h : I [] s) : I (M.output f s ls) s' := by
  have key : ∀ {ls : List Label} {s s' : State}, M.Run P s ls s' →
      ∀ out, I out s → I (out ++ M.output f s ls) s' := by
    intro ls s s' hr
    induction hr with
    | nil s =>
      intro out hout
      simpa [output] using hout
    | cons hP hs _ ih =>
      intro out hout
      have hnext := ih _ (hstep _ _ _ _ hP hs hout)
      rwa [List.append_assoc, ← output_cons hs] at hnext
  simpa using key hr [] h

/-- Forward simulation in which the matching steps are given and the relation may speak of
what has been put out so far: what a run of `M` puts out under `f` is a run of `N`. -/
theorem Run.simulation_accumulates {State' Label' : Type*} {N : Machine State' Label'}
    {Q' : State' → Label' → Prop} {R : List α → State → State' → Prop}
    {f : State → Label → List Label'} {g : State → Label → List α}
    (hstep : ∀ out s l s' t, P s l → M.step s l = some s' → R out s t →
      ∃ t', N.Run Q' t (f s l) t' ∧ R (out ++ g s l) s' t')
    (hr : M.Run P s ls s') (out : List α) {t : State'} (h : R out s t) :
    ∃ t', N.Run Q' t (M.output f s ls) t' ∧ R (out ++ M.output g s ls) s' t' := by
  induction hr generalizing out t with
  | nil s => exact ⟨t, .nil t, by rwa [output, List.append_nil]⟩
  | cons hP hs _ ih =>
    obtain ⟨t₁, h₁, hR₁⟩ := hstep _ _ _ _ _ hP hs h
    obtain ⟨t', h₂, hR'⟩ := ih _ hR₁
    rw [output_cons hs, output_cons hs, ← List.append_assoc]
    exact ⟨t', h₁.append h₂, hR'⟩

/-- The same for a relation between the states alone. -/
theorem Run.simulation_output {State' Label' : Type*} {N : Machine State' Label'}
    {Q' : State' → Label' → Prop} {R : State → State' → Prop} {f : State → Label → List Label'}
    (hstep : ∀ s l s' t, P s l → M.step s l = some s' → R s t →
      ∃ t', N.Run Q' t (f s l) t' ∧ R s' t')
    (hr : M.Run P s ls s') {t : State'} (h : R s t) :
    ∃ t', N.Run Q' t (M.output f s ls) t' ∧ R s' t' :=
  hr.simulation_accumulates (R := fun (_ : List Unit) s t => R s t) (g := fun _ _ => [])
    (fun _ s l s' t => hstep s l s' t) [] h

end Output

/-! ## Execution -/

/-- Execute a list of labels, stopping at the first that is not enabled. -/
def exec (M : Machine State Label) : State → List Label → Option State
  | s, [] => some s
  | s, l :: ls => (M.step s l).bind fun s₁ => M.exec s₁ ls

/-- What executes is a run. -/
theorem run_of_exec : ∀ {ls : List Label} {s : State}, M.exec s ls = some s' →
    M.Run (fun _ _ => True) s ls s'
  | [], s, h => by
      simp only [exec, Option.some.injEq] at h
      subst h
      exact .nil s
  | l :: ls, s, h => by
      simp only [exec] at h
      obtain ⟨s₁, hs, hr⟩ := Option.bind_eq_some_iff.mp h
      exact .cons trivial hs (run_of_exec hr)

/-- A run is what its labels execute to. -/
theorem Run.exec (hr : M.Run P s ls s') : M.exec s ls = some s' := by
  induction hr with
  | nil s => rfl
  | cons _ hs _ ih => rw [Machine.exec, hs, Option.bind_some, ih]

end Machine
