import ChatModule.Bootstraps

/-!
# Retries

An init that finds a session installed runs the bootstrap again when the displayed
state is Error and the node was not started. Both are read off the display, which
every callback of the session writes, so two things are asked of the guard: that it
does not let a retry in beside a bootstrap that is under way (`alone_iff_timely`), and
that it lets one in after every failure (`retry_claimed_iff`).

Both fail on the same message: the Err answer to a start whose bootstrap a
`nodeStarted` has concluded already. The callback writes Error without looking at
`starting`, as `record_node_started` does. What the guard reads in `started` is
whether a `nodeStarted` was accepted in the session (`started_iff_handshake`).
-/

namespace ChatModule

open Actions Inbound

variable {σ : Type} [MessageStore σ]

/-! ## Beside a bootstrap under way -/

/-- A retry is claimed only with every bootstrap concluded, and one at most is not. -/
structure Alone (s : Deliveries σ) : Prop where
  claim : (claimDeliveryRetry s.world.guarded).2 = true → ∀ b, ¬ s.Unconcluded b
  unique : ∀ b b', s.Unconcluded b → s.Unconcluded b' → b = b'

/-- A step that leaves it so. -/
def LeavesAlone (s : Deliveries σ) (hap : Happening) : Prop :=
  ∀ s', (deliveries σ).step s hap = some s' → Alone s'

/-- When a start of the session is answered Err though its bootstrap is concluded,
every bootstrap is. -/
def Timely (s : Deliveries σ) (hap : Happening) : Prop :=
  ∀ i e b, hap = .answer i (.error e) → s.calls[i]? = some (b, .start) → ¬ s.Stale b →
    (s.boot b).phase = .concluded → ∀ b', ¬ s.Unconcluded b'

/-- What guards a bootstrap under way: the displayed state is not Error. -/
structure Exclusive (first : ℕ) (s : Deliveries σ) : Prop where
  chained : Chained first s
  installed : s.world.module.isSome
  underway : ∀ b, s.Unconcluded b →
    s.delivery.state = .initialising ∧ s.delivery.started = false

section Exclusive

variable {first : ℕ} {s s' : Deliveries σ} {hap : Happening}

omit [MessageStore σ] in
theorem Exclusive.alone (h : Exclusive first s) : Alone s where
  claim := by
    intro hclaim b hb
    -- a claim reads Error off the display, a bootstrap under way initialising
    have herror := (claim_iff.mp hclaim).1
    rw [(h.underway b hb).1] at herror
    cases herror
  unique := by
    intro b b' hb hb'
    have := h.chained.last hb
    have := h.chained.last hb'
    omega

/-- The claim keeps the bootstraps apart. -/
theorem Exclusive.apart (h : Exclusive first s) : Apart s hap := by
  rintro ⟨config, env, -, hbegins⟩
  refine h.alone.claim ?_
  rcases init_cases config env s.world with ⟨hnone, -⟩ | ⟨-, hout⟩ | ⟨hnone, -, -, hout⟩
  · simpa [hnone] using h.installed
  · by_contra hclaim
    simp [hout, hclaim] at hbegins
  · simpa [hnone] using h.installed

theorem underway_init {config : ChatConfig} {env : Environment} (h : Exclusive first s)
    (hstep : (deliveries σ).step s (.init config env) = some s') {b : ℕ} (hb : s'.Unconcluded b) :
    s'.delivery.state = .initialising ∧ s'.delivery.started = false := by
  rcases step_init_cases hstep with ⟨hnone, -⟩ | ⟨-, hclaim, heq⟩ | ⟨-, -, heq⟩ | ⟨hnone, -⟩
  · simpa [hnone] using h.installed
  · rw [delivery_of_retry hclaim heq]
    exact ⟨rfl, (claim_iff.mp hclaim).2⟩
  · subst heq
    exact h.underway b hb
  · simpa [hnone] using h.installed

theorem underway_answer {i : ℕ} {res : Answer} (h : Exclusive first s)
    (hcont : Contained s (.answer i res)) (htimely : Timely s (.answer i res))
    (hstep : (deliveries σ).step s (.answer i res) = some s') {b' : ℕ} (hb' : s'.Unconcluded b') :
    s'.delivery.state = .initialising ∧ s'.delivery.started = false := by
  obtain ⟨b, call, ha, hd⟩ := step_answers hstep
  by_cases hstale : s.Stale b
  · have hne : b' ≠ b := by
      rintro rfl
      exact hb'.2.1 ((ha.stale_iff b').mpr hstale)
    rw [hd, hcont.delivery_eq ha.call h.installed hstale]
    exact h.underway b' (ha.unconcluded hne hb')
  · have hfirst : first ≤ b := by
      have := h.chained.stale b (h.chained.numbered.due _ ha.mem)
      simpa [this] using hstale
    have hkeep := h.underway b'
    have hb : call ≠ .start → s.Unconcluded b := fun hcall =>
      h.chained.unconcluded_of_setup ha.mem (isSetup_iff.mpr ⟨hfirst, hcall⟩)
    have hwas : call ≠ .start → s.Unconcluded b' := by
      intro hcall
      by_cases hne : b' = b
      · exact hne ▸ hb hcall
      · exact ha.unconcluded hne hb'
    cases call with
    | createNode preset =>
      rw [hd]
      cases res with
      | ok u => exact hkeep (hwas (nomatch ·))
      | error e => exact hkeep (hwas (nomatch ·))
    | getNodeInfo preset reason =>
      cases res with
      | ok u =>
        rw [hd]
        exact hkeep (hwas (nomatch ·))
      | error e =>
        -- its bootstrap was the one unconcluded
        have hphase : (s'.boot b).phase = .concluded := by
          rw [ha.boot_self]
          rfl
        have hne : b' ≠ b := by
          rintro rfl
          exact hb'.2.2 hphase
        have := h.chained.last (ha.unconcluded hne hb')
        have := h.chained.last (hb (nomatch ·))
        omega
    | start =>
      cases res with
      | ok u =>
        rw [hd]
        refine hkeep ?_
        obtain ⟨hlt, hown, hphase⟩ := hb'
        rw [ha.begun] at hlt
        rw [ha.stale_iff] at hown
        rw [ha.boot, show (s.boot b).answered .start (.ok u) _ = s.boot b from rfl,
          Function.update_eq_self] at hphase
        exact ⟨hlt, hown, hphase⟩
      | error e =>
        have hphase : (s'.boot b).phase = .concluded := by
          rw [ha.boot_self]
          rfl
        have hne : b' ≠ b := by
          rintro rfl
          exact hb'.2.2 hphase
        have hbefore := ha.unconcluded hne hb'
        rcases h.chained.starts b hfirst ha.mem with hstart | hdone
        · have hb : s.Unconcluded b := h.chained.unconcluded_iff.mpr
            ⟨hfirst, h.chained.numbered.due _ ha.mem, by simp [hstart]⟩
          have := h.chained.last hb
          have := h.chained.last hbefore
          omega
        · -- a nodeStarted had concluded it: the one case the condition is about
          exact absurd hbefore (htimely i e b rfl ha.call hstale hdone b')

theorem underway_nodeStarted {success : Bool} {message : String} (h : Exclusive first s)
    (hstep : (deliveries σ).step s (.nodeStarted success message) = some s') {b : ℕ}
    (hb : s'.Unconcluded b) :
    s'.delivery.state = .initialising ∧ s'.delivery.started = false := by
  cases hs : s.delivery.starting with
  | false =>
    obtain rfl := nodeStarted_of_not_starting hs hstep
    exact h.underway b hb
  | true =>
    -- the start that was awaited was the unconcluded bootstrap's, and is concluded
    obtain ⟨-, -, hbegun, hsessions, -, -, -⟩ := step_nodeStarted hstep
    have hboot := (nodeStarted_of_starting hs hstep).1
    obtain ⟨b', hb', hphase'⟩ := h.chained.unconcluded_of_starting hs
    obtain ⟨hlt, hown, hphase⟩ := hb
    rw [hbegun] at hlt
    simp only [Deliveries.Stale, hboot, hsessions, Boot.session_accepted] at hown hphase
    have hnot : (s.boot b).phase ≠ .starting := by
      intro hstarting
      simp [Boot.accepted, hstarting] at hphase
    rw [Boot.accepted_of_ne hnot] at hphase
    have := h.chained.last ⟨hlt, hown, hphase⟩
    have := h.chained.last hb'
    obtain rfl : b = b' := by omega
    exact absurd hphase' hnot

theorem exclusive_step (h : Exclusive first s) (hgo : Undisturbed s hap) (htimely : Timely s hap)
    (hstep : (deliveries σ).step s hap = some s') : Exclusive first s' where
  chained := chained_step h.chained h.installed hgo h.apart hstep
  installed := installed_of_step h.installed hgo.1 hstep
  underway := by
    intro b hb
    cases hap with
    | init config env => exact underway_init h hstep hb
    | shutdown => exact absurd rfl hgo.1
    | answer i res => exact underway_answer h hgo.2 htimely hstep hb
    | nodeStarted success message => exact underway_nodeStarted h hstep hb
    | connectionStateChanged status =>
      -- connectivity is heard only once the node is started
      have hb₀ : s.Unconcluded b := by
        rw [(step_connectionStateChanged hstep).2] at hb
        exact hb
      obtain rfl := connectionStateChanged_of_not_started (h.underway b hb₀).2 hstep
      exact h.underway b hb₀

/-- An Err answer that is not timely lets a retry in beside the bootstrap under way. -/
theorem claim_of_not_timely {i b b' : ℕ} {e : String} (h : Exclusive first s)
    (hstep : (deliveries σ).step s (.answer i (.error e)) = some s')
    (hcall : s.calls[i]? = some (b, .start)) (hphase : (s.boot b).phase = .concluded)
    (hb' : s.Unconcluded b') :
    (claimDeliveryRetry s'.world.guarded).2 = true ∧ s'.Unconcluded b' := by
  obtain ⟨b₁, call, ha, hd⟩ := step_answers hstep
  obtain ⟨rfl, rfl⟩ : b₁ = b ∧ call = .start := by
    have := ha.call.symm.trans hcall
    simpa using this
  have hne : b' ≠ b₁ := by
    rintro rfl
    exact hb'.2.2 hphase
  constructor
  · rw [claim_iff, hd]
    exact ⟨rfl, (h.underway b' hb').2⟩
  · obtain ⟨hlt, hown, hphase'⟩ := hb'
    exact ⟨by rwa [ha.begun], by rwa [ha.stale_iff], by rwa [ha.boot_of_ne hne]⟩

theorem leavesAlone_iff (h : Exclusive first s) (hgo : Undisturbed s hap)
    (hstep : (deliveries σ).step s hap = some s') : LeavesAlone s hap ↔ Timely s hap := by
  constructor
  · rintro halone i e b rfl hcall - hphase b' hb'
    obtain ⟨hclaim, hb''⟩ := claim_of_not_timely h hstep hcall hphase hb'
    exact (halone s' hstep).claim hclaim b' hb''
  · intro htimely s'' hstep'
    exact (exclusive_step h hgo htimely hstep').alone

theorem exclusive_install {config : ChatConfig} {env : Environment} {s₀ : Deliveries σ}
    (h : Numbered s) (hm : s.world.module = none)
    (hinit : (deliveries σ).step s (.init config env) = some s₀) (hm₀ : s₀.world.module.isSome) :
    Exclusive s.begun s₀ where
  chained := chained_install h hm hinit hm₀
  installed := hm₀
  underway := by
    intro b _
    obtain ⟨w, hw, -, heq⟩ := step_install hm hinit hm₀
    rw [heq]
    change w.guarded.display.deliveryState.state = _ ∧ w.guarded.display.deliveryState.started = _
    rw [hw]
    exact ⟨rfl, rfl⟩

end Exclusive

section Runs

variable {s s₀ s' : Deliveries σ} {before haps : List Happening}

/-- In any session of any run, undisturbed by earlier ones, and every order of its
messages: retries are claimed only beside concluded bootstraps, after every step,
exactly when no start whose bootstrap is concluded is answered Err while another
bootstrap is under way. -/
theorem alone_iff_timely {file : ChatDb σ} {own : Option String} {config : ChatConfig}
    {env : Environment}
    (hreach : (deliveries σ).Run (fun _ _ => True) (.start file own) before s)
    (hm : s.world.module = none) (hinit : (deliveries σ).step s (.init config env) = some s₀)
    (hm₀ : s₀.world.module.isSome) :
    Alone s₀ ∧
      ((deliveries σ).Run (fun s hap => Undisturbed s hap ∧ LeavesAlone s hap) s₀ haps s' ↔
        (deliveries σ).Run (fun s hap => Undisturbed s hap ∧ Timely s hap) s₀ haps s') := by
  have h := exclusive_install (numbered_run hreach) hm hinit hm₀
  refine ⟨h.alone, Machine.Run.congr ?_ ?_ h⟩
  · intro s hap s' h hstep
    constructor
    · rintro ⟨hgo, halone⟩
      exact ⟨hgo, (leavesAlone_iff h hgo hstep).mp halone⟩
    · rintro ⟨hgo, htimely⟩
      exact ⟨hgo, (leavesAlone_iff h hgo hstep).mpr htimely⟩
  · rintro s hap s' ⟨hgo, htimely⟩ hstep h
    exact exclusive_step h hgo htimely hstep

/-- One session: its node is created, its start fails by a `nodeStarted`, and init is
called again. -/
def failedThenRetried : List Happening :=
  [.answer 0 (.ok ()), .nodeStarted false "no", initUp]

theorem alone_iff_timely_retried : ∃ s₀ s : Deliveries LogStore,
    (deliveries LogStore).step (.start Persistence.emptyDb none) initUp = some s₀ ∧
      (deliveries LogStore).exec s₀ failedThenRetried = some s ∧
      (deliveries LogStore).Run (fun s hap => Undisturbed s hap ∧ LeavesAlone s hap)
        s₀ failedThenRetried s := by
  have hsteps : ∃ s₀ s₁ s₂ s₃ : Deliveries LogStore,
      (deliveries LogStore).step (.start Persistence.emptyDb none) initUp = some s₀ ∧
        (deliveries LogStore).step s₀ (.answer 0 (.ok ())) = some s₁ ∧
        (deliveries LogStore).step s₁ (.nodeStarted false "no") = some s₂ ∧
        (deliveries LogStore).step s₂ initUp = some s₃ ∧
        s₀.world.module.isSome ∧ s₀.calls[0]? = some (0, .createNode "logos.test") ∧
        ¬ s₀.Stale 0 :=
    ⟨_, _, _, _, rfl, rfl, rfl, rfl, rfl, rfl, fun h => h rfl⟩
  obtain ⟨s₀, s₁, s₂, s₃, hinit, h₁, h₂, h₃, hm₀, hcall, hown⟩ := hsteps
  have hcont : Contained s₀ (.answer 0 (.ok ())) := contained_of_own hm₀ hcall hown
  have hrun : (deliveries LogStore).Run (fun s hap => Undisturbed s hap ∧ Timely s hap)
      s₀ failedThenRetried s₃ :=
    .cons ⟨⟨(nomatch ·), hcont⟩, fun _ _ _ heq => nomatch heq⟩ h₁
      (.cons ⟨⟨(nomatch ·), fun _ _ _ _ heq => nomatch heq⟩, fun _ _ _ heq => nomatch heq⟩ h₂
        (.single ⟨⟨(nomatch ·), fun _ _ _ _ heq => nomatch heq⟩, fun _ _ _ heq => nomatch heq⟩ h₃))
  exact ⟨s₀, s₃, hinit, by simp [Machine.exec, failedThenRetried, h₁, h₂, h₃],
    (alone_iff_timely (.nil _) rfl hinit hm₀).2.mpr hrun⟩

/-- The failed start is answered Err after the retry has begun: a second retry is
claimed beside it. -/
theorem late_start_claims_twice : ∃ s₀ s s' : Deliveries LogStore,
    (deliveries LogStore).step (.start Persistence.emptyDb none) initUp = some s₀ ∧
      (deliveries LogStore).exec s₀ (failedThenRetried ++ [.answer 0 (.error "late")]) = some s ∧
      (claimDeliveryRetry s.world.guarded).2 = true ∧ s.Unconcluded 1 ∧
      (deliveries LogStore).step s initUp = some s' ∧ s'.Unconcluded 1 ∧ s'.Unconcluded 2 :=
  ⟨_, _, _, rfl, rfl, rfl, ⟨by decide, fun h => h rfl, by decide⟩, rfl,
    ⟨by decide, fun h => h rfl, by decide⟩, ⟨by decide, fun h => h rfl, by decide⟩⟩

end Runs

/-! ## After a failure -/

/-- A step that reports a bootstrap step as failed: a `getNodeInfo` or a start is
answered Err, or the `nodeStarted` a start awaits is unsuccessful. -/
def Fails (s : Deliveries σ) (hap : Happening) : Prop :=
  (∃ i res b call, hap = .answer i res ∧ s.calls[i]? = some (b, call) ∧ FailsOn call res) ∨
  (∃ message, hap = .nodeStarted false message ∧ s.delivery.starting = true)

/-- The session goes on and the displayed state and detail stay. -/
def Standing (s : Deliveries σ) (hap : Happening) : Prop :=
  NoShutdown s hap ∧ ∀ s', (deliveries σ).step s hap = some s' →
    s'.delivery.state = s.delivery.state ∧ s'.delivery.detail = s.delivery.detail

section Fails

variable {s s' : Deliveries σ} {hap : Happening}

/-- A failure shows, and leaves `started` as it finds it. -/
theorem fails_step (hfails : Fails s hap) (hstep : (deliveries σ).step s hap = some s') :
    s'.delivery.state = .error ∧ s'.delivery.started = s.delivery.started := by
  rcases hfails with ⟨i, res, b, call, rfl, hcall, hfail⟩ | ⟨message, rfl, hstarting⟩
  · obtain ⟨b', call', ha, hd⟩ := step_answers hstep
    obtain ⟨rfl, rfl⟩ : b' = b ∧ call' = call := by
      have := ha.call.symm.trans hcall
      simpa using this
    rw [hd]
    cases call' <;> cases res <;> first | exact hfail.elim | exact ⟨rfl, rfl⟩
  · rw [(nodeStarted_of_starting hstarting hstep).2, if_neg (by simp)]
    exact ⟨rfl, rfl⟩

/-- While an Error stands nothing sets `started`. -/
theorem started_of_standing (herror : s.delivery.state = .error) (hstand : Standing s hap)
    (hstep : (deliveries σ).step s hap = some s') :
    s'.delivery.state = .error ∧ s'.delivery.started = s.delivery.started := by
  have hstate : s'.delivery.state = .error := (hstand.2 s' hstep).1.trans herror
  refine ⟨hstate, ?_⟩
  cases hap with
  | init config env =>
    -- an init that does anything replaces the Error
    rcases step_init_cases hstep with ⟨hnone, g, ms, hok, heq⟩ | ⟨-, hclaim, heq⟩ | ⟨-, -, heq⟩ |
      ⟨-, -, heq⟩
    · have hm : s'.world.module.isSome := by rw [heq]; rfl
      obtain ⟨w, hw, -, heq⟩ := step_install hnone hstep hm
      rw [heq] at hstate
      change w.guarded.display.deliveryState.state = _ at hstate
      rw [hw] at hstate
      cases hstate
    · rw [delivery_of_retry hclaim heq] at hstate
      cases hstate
    · rw [heq]
    · rw [heq]
  | shutdown => exact absurd rfl hstand.1
  | answer i res =>
    obtain ⟨b, call, -, hd⟩ := step_answers hstep
    rw [hd]
    cases call <;> cases res <;> rfl
  | nodeStarted success message =>
    cases hs : s.delivery.starting with
    | false => rw [nodeStarted_of_not_starting hs hstep]
    | true =>
      obtain ⟨-, hd⟩ := nodeStarted_of_starting hs hstep
      cases success with
      | true =>
        rw [hd] at hstate
        cases hstate
      | false => rw [hd, if_neg (by simp)]
  | connectionStateChanged status =>
    cases hs : s.delivery.started with
    | false => rw [connectionStateChanged_of_not_started hs hstep, hs]
    | true =>
      rw [connectionStateChanged_of_started hs hstep]
      exact hs

end Fails

section Claims

variable {s₁ s₂ s₃ : Deliveries σ} {hap : Happening} {haps : List Happening}

/-- From any state, whatever comes in any order: while the Error that a failed
bootstrap step reported stands, a retry is claimed exactly when the node had not been
accepted as started before the report. -/
theorem retry_claimed_iff (hfails : Fails s₁ hap)
    (hstep : (deliveries σ).step s₁ hap = some s₂)
    (hstand : (deliveries σ).Run Standing s₂ haps s₃) :
    s₃.delivery.state = .error ∧
      ((claimDeliveryRetry s₃.world.guarded).2 = true ↔ s₁.delivery.started = false) := by
  obtain ⟨hstate, hstarted⟩ := fails_step hfails hstep
  have hkeep : ∀ s hap s', Standing s hap → (deliveries σ).step s hap = some s' →
      s.delivery.state = .error ∧ s.delivery.started = s₁.delivery.started →
      s'.delivery.state = .error ∧ s'.delivery.started = s₁.delivery.started := by
    rintro s hap s' hP hstep ⟨herror, hsame⟩
    obtain ⟨herror', hsame'⟩ := started_of_standing herror hP hstep
    exact ⟨herror', hsame'.trans hsame⟩
  have hrun := hstand.invariant hkeep ⟨hstate, hstarted⟩
  refine ⟨hrun.1, ?_⟩
  rw [claim_iff, hrun.2]
  exact and_iff_right hrun.1

/-- A node refused, and no node to join. -/
theorem retry_claimed_iff_refused : ∃ s₁ s₂ s₃ : Deliveries LogStore,
    (deliveries LogStore).exec (.start Persistence.emptyDb none)
      [initUp, .answer 0 (.error "no")] = some s₁ ∧
      (deliveries LogStore).step s₁ (.answer 0 (.error "none")) = some s₂ ∧
      (deliveries LogStore).step s₂ (.connectionStateChanged "Connected") = some s₃ ∧
      (claimDeliveryRetry s₃.world.guarded).2 = true := by
  have hsteps : ∃ s₁ s₂ s₃ : Deliveries LogStore,
      (deliveries LogStore).exec (.start Persistence.emptyDb none)
        [initUp, .answer 0 (.error "no")] = some s₁ ∧
        (deliveries LogStore).step s₁ (.answer 0 (.error "none")) = some s₂ ∧
        (deliveries LogStore).step s₂ (.connectionStateChanged "Connected") = some s₃ ∧
        s₁.calls[0]? = some (0, .getNodeInfo "logos.test" "no") ∧
        s₁.delivery.started = false ∧ s₂.delivery.started = false :=
    ⟨_, _, _, rfl, rfl, rfl, rfl, rfl, rfl⟩
  obtain ⟨s₁, s₂, s₃, hexec, hfail, hconn, hcall, hnot, hnot₂⟩ := hsteps
  have hfails : Fails s₁ (.answer 0 (.error "none")) :=
    Or.inl ⟨0, .error "none", 0, _, rfl, hcall, trivial⟩
  have hstand : Standing s₂ (.connectionStateChanged "Connected") := by
    refine ⟨(nomatch ·), fun s' hstep => ?_⟩
    rw [connectionStateChanged_of_not_started hnot₂ hstep]
    exact ⟨rfl, rfl⟩
  exact ⟨s₁, s₂, s₃, hexec, hfail, hconn,
    (retry_claimed_iff hfails hfail (.single hstand hconn)).2.mpr hnot⟩

/-- The node is accepted as started, and then its start is answered Err: an Error
that no init retries. -/
theorem late_start_error_unclaimed : ∃ s₁ s₂ : Deliveries LogStore,
    (deliveries LogStore).exec (.start Persistence.emptyDb none)
      [initUp, .answer 0 (.ok ()), .nodeStarted true ""] = some s₁ ∧
      s₁.delivery.state = .online ∧ s₁.calls[0]? = some (0, .start) ∧
      (deliveries LogStore).step s₁ (.answer 0 (.error "late")) = some s₂ ∧
      s₂.delivery.state = .error ∧ (claimDeliveryRetry s₂.world.guarded).2 = false ∧
      (deliveries LogStore).step s₂ initUp = some s₂ :=
  ⟨_, _, rfl, rfl, rfl, rfl, rfl, rfl, rfl⟩

end Claims

end ChatModule
