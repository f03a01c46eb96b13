import ChatModule.Bootstraps

/-!
# Whose node it is

`adopted` is one bit for a history: whether the node the session's last bootstrap
found was created with another preset than its own, or by someone else. It is written
when a bootstrap joins a node and at no other time, so it describes the last bootstrap
as long as one that creates its node finds the bit unset (`adopted_truthful`). After a
bootstrap that joined a node and failed, one that creates its own is described by
what the first left (`untruthful_of_adopted`): in a session the bit is set exactly when
the last node that was joined is adopted (`adopted_iff_joins`).
-/

namespace ChatModule

open Actions Inbound

variable {σ : Type}

/-- Whether a node of this origin is adopted. -/
def Origin.adopted : Origin → Bool
  | .created => false
  | .joined differs => differs

/-- Online, `adopted` tells how the session's most recent bootstrap came by its node. -/
def Truthful (s : Deliveries σ) : Prop :=
  s.delivery.state = .online → ∃ b o, b + 1 = s.begun ∧ ¬ s.Stale b ∧
    (s.boot b).origin = some o ∧ s.delivery.adopted = o.adopted

/-- A bootstrap of the session that creates its node finds `adopted` unset. -/
def Unadopted (s : Deliveries σ) (hap : Happening) : Prop :=
  ∀ i b preset, hap = .answer i (.ok ()) → s.calls[i]? = some (b, .createNode preset) →
    ¬ s.Stale b → s.delivery.adopted = false

/-- What `adopted` stands for. -/
structure Described (first : ℕ) (s : Deliveries σ) : Prop where
  chained : Chained first s
  installed : s.world.module.isSome
  origin : ∀ b o, first ≤ b → b + 1 = s.begun → (s.boot b).origin = some o →
    s.delivery.adopted = o.adopted
  /-- A started node is the last bootstrap's. -/
  started : s.delivery.started = true →
    ∃ b, first ≤ b ∧ b + 1 = s.begun ∧ (s.boot b).origin.isSome
  online : s.delivery.state = .online → s.delivery.started = true

section Described

variable {first : ℕ} {s s' : Deliveries σ}

theorem Described.truthful (h : Described first s) : Truthful s := by
  intro honline
  obtain ⟨b, hfirst, hlast, hsome⟩ := h.started (h.online honline)
  obtain ⟨o, ho⟩ := Option.isSome_iff_exists.mp hsome
  refine ⟨b, o, hlast, ?_, ho, h.origin b o hfirst hlast ho⟩
  rw [h.chained.stale b (by omega)]
  omega

/-- A step that leaves the origins of the session's bootstraps and the bit alone. -/
theorem Described.keep (h : Described first s) (hchained : Chained first s')
    (hm : s'.world.module.isSome) (hbegun : s'.begun = s.begun)
    (horigin : ∀ b, first ≤ b → (s'.boot b).origin = (s.boot b).origin)
    (hadopted : s'.delivery.adopted = s.delivery.adopted)
    (hstarted : s'.delivery.started = true →
      ∃ b, first ≤ b ∧ b + 1 = s.begun ∧ (s.boot b).origin.isSome)
    (honline : s'.delivery.state = .online → s'.delivery.started = true) :
    Described first s' where
  chained := hchained
  installed := hm
  origin := by
    intro b o hfirst hlast ho
    rw [hbegun] at hlast
    rw [horigin b hfirst] at ho
    rw [hadopted]
    exact h.origin b o hfirst hlast ho
  started := by
    intro hs
    obtain ⟨b, hfirst, hlast, hsome⟩ := hstarted hs
    exact ⟨b, hfirst, by rw [hbegun]; exact hlast, by rw [horigin b hfirst]; exact hsome⟩
  online := honline

/-- The last bootstrap comes by its node, and the bit says how. -/
theorem Described.settle {i b : ℕ} {call : Pending} {boot' : Boot} {next : Option Pending}
    {o : Origin} (h : Described first s) (hchained : Chained first s')
    (hm : s'.world.module.isSome) (ha : Answers s s' i b call boot' next) (hfirst : first ≤ b)
    (hlast : b + 1 = s.begun) (ho : boot'.origin = some o)
    (hadopted : s'.delivery.adopted = o.adopted)
    (hstarted : s'.delivery.started = s.delivery.started)
    (hstate : s'.delivery.state = s.delivery.state) :
    Described first s' where
  chained := hchained
  installed := hm
  origin := by
    intro b' o' _ hlast' ho'
    rw [ha.begun] at hlast'
    obtain rfl : b' = b := by omega
    rw [ha.boot_self, ho, Option.some_inj] at ho'
    exact ho' ▸ hadopted
  started := fun _ => ⟨b, hfirst, by rw [ha.begun]; exact hlast, by rw [ha.boot_self, ho]; rfl⟩
  online := by
    rw [hstate, hstarted]
    exact h.online

end Described

/-! ## A step -/

section Steps

variable [MessageStore σ] {first : ℕ} {s s' : Deliveries σ} {hap : Happening}

theorem described_init {config : ChatConfig} {env : Environment} (h : Described first s)
    (hchained : Chained first s')
    (hstep : (deliveries σ).step s (.init config env) = some s') : Described first s' := by
  rcases step_init_cases hstep with ⟨hnone, -⟩ | ⟨hm, hclaim, heq⟩ | ⟨-, -, heq⟩ | ⟨hnone, -⟩
  · simpa [hnone] using h.installed
  · -- the new bootstrap has no node yet, and nothing is started
    have hd := delivery_of_retry hclaim heq
    have hnot := (claim_iff.mp hclaim).2
    refine ⟨hchained, by rw [heq]; exact hm, ?_, ?_, ?_⟩
    · intro b o _ hlast ho
      rw [heq] at hlast ho
      rw [begin_boot_last hlast] at ho
      cases ho
    · rw [hd]
      intro hs
      change s.delivery.started = true at hs
      rw [hnot] at hs
      cases hs
    · rw [hd]
      exact fun ho => nomatch ho
  · rwa [heq]
  · simpa [hnone] using h.installed

theorem described_answer {i : ℕ} {res : Answer} (h : Described first s)
    (hcont : Contained s (.answer i res)) (hunadopted : Unadopted s (.answer i res))
    (hchained : Chained first s') (hm : s'.world.module.isSome)
    (hstep : (deliveries σ).step s (.answer i res) = some s') : Described first s' := by
  obtain ⟨b, call, ha, hd⟩ := step_answers hstep
  have hstale := h.chained.stale b (h.chained.numbered.due _ ha.mem)
  rcases Nat.lt_or_ge b first with hlt | hge
  · rw [hcont.delivery_eq ha.call h.installed (hstale.mpr hlt)] at hd
    refine h.keep hchained hm ha.begun ?_ (by rw [hd]) (by rw [hd]; exact h.started)
      (by rw [hd]; exact h.online)
    exact fun b' hb' => by rw [ha.boot_of_ne (by omega)]
  · have hown : ¬ s.Stale b := by
      rw [hstale]
      omega
    have hkeep : ((s.boot b).answered call res s.world.ownNodePreset).origin =
        (s.boot b).origin → ∀ b', first ≤ b' → (s'.boot b').origin = (s.boot b').origin := by
      intro hsame b' _
      by_cases hne : b' = b
      · subst hne
        rw [ha.boot_self, hsame]
      · rw [ha.boot_of_ne hne]
    cases call with
    | createNode preset =>
      have hs : isSetup first (b, .createNode preset) = true := isSetup_iff.mpr ⟨hge, by simp⟩
      cases res with
      | ok u =>
        -- the callback does not write the bit; that it is unset is the condition
        refine h.settle (o := .created) hchained hm ha hge (h.chained.expects _ ha.mem hs).1 rfl
          ?_ (by rw [hd]; rfl) (by rw [hd]; rfl)
        rw [hd]
        exact hunadopted i b preset rfl ha.call hown
      | error e =>
        exact h.keep hchained hm ha.begun (hkeep rfl) (by rw [hd]; rfl)
          (by rw [hd]; exact h.started) (by rw [hd]; exact h.online)
    | getNodeInfo preset reason =>
      have hs : isSetup first (b, .getNodeInfo preset reason) = true :=
        isSetup_iff.mpr ⟨hge, by simp⟩
      obtain ⟨hlast, hexp⟩ := h.chained.expects _ ha.mem hs
      cases res with
      | ok u =>
        refine h.settle hchained hm ha hge hlast rfl ?_ (by rw [hd]; rfl) (by rw [hd]; rfl)
        rw [hd, ← hexp.1]
        rfl
      | error e =>
        exact h.keep hchained hm ha.begun (hkeep rfl) (by rw [hd]; rfl)
          (by rw [hd]; exact h.started) (by rw [hd]; exact fun ho => nomatch ho)
    | start =>
      cases res with
      | ok u =>
        exact h.keep hchained hm ha.begun (hkeep rfl) (by rw [hd]; rfl)
          (by rw [hd]; exact h.started) (by rw [hd]; exact h.online)
      | error e =>
        exact h.keep hchained hm ha.begun (hkeep rfl) (by rw [hd]; rfl)
          (by rw [hd]; exact h.started) (by rw [hd]; exact fun ho => nomatch ho)

theorem described_nodeStarted {success : Bool} {message : String} (h : Described first s)
    (hchained : Chained first s') (hm : s'.world.module.isSome)
    (hstep : (deliveries σ).step s (.nodeStarted success message) = some s') :
    Described first s' := by
  cases hs : s.delivery.starting with
  | false => rwa [nodeStarted_of_not_starting hs hstep]
  | true =>
    obtain ⟨-, -, hbegun, -, -, -, -⟩ := step_nodeStarted hstep
    obtain ⟨hboot, hd⟩ := nodeStarted_of_starting hs hstep
    have horigin : ∀ b, first ≤ b → (s'.boot b).origin = (s.boot b).origin := by
      intro b _
      rw [hboot, Boot.origin_accepted]
    cases success with
    | true =>
      rw [if_pos rfl] at hd
      refine h.keep hchained hm hbegun horigin (by rw [hd]) ?_ (by rw [hd]; exact fun _ => rfl)
      -- the start that is awaited is the last bootstrap's
      intro _
      obtain ⟨b, hfirst, hlast, hphase⟩ := h.chained.awaited hs
      exact ⟨b, hfirst, hlast, h.chained.origin b hfirst (by omega) hphase⟩
    | false =>
      rw [if_neg (by simp)] at hd
      exact h.keep hchained hm hbegun horigin (by rw [hd]) (by rw [hd]; exact h.started)
        (by rw [hd]; exact fun ho => nomatch ho)

theorem described_connectionStateChanged {status : String} (h : Described first s)
    (hchained : Chained first s') (hm : s'.world.module.isSome)
    (hstep : (deliveries σ).step s (.connectionStateChanged status) = some s') :
    Described first s' := by
  cases hs : s.delivery.started with
  | false => rwa [connectionStateChanged_of_not_started hs hstep]
  | true =>
    have heq := (step_connectionStateChanged hstep).2
    have hd := connectionStateChanged_of_started hs hstep
    exact h.keep hchained hm (by rw [heq]) (fun _ _ => by rw [heq]) (by rw [hd])
      (fun _ => h.started hs) (by rw [hd]; exact fun _ => hs)

theorem described_step (h : Described first s) (hgo : Undisturbed s hap) (hapart : Apart s hap)
    (hunadopted : Unadopted s hap) (hstep : (deliveries σ).step s hap = some s') :
    Described first s' := by
  have hchained := chained_step h.chained h.installed hgo hapart hstep
  have hm := installed_of_step h.installed hgo.1 hstep
  cases hap with
  | init config env => exact described_init h hchained hstep
  | shutdown => exact absurd rfl hgo.1
  | answer i res => exact described_answer h hgo.2 hunadopted hchained hm hstep
  | nodeStarted success message => exact described_nodeStarted h hchained hm hstep
  | connectionStateChanged status => exact described_connectionStateChanged h hchained hm hstep

theorem described_install {config : ChatConfig} {env : Environment} {s₀ : Deliveries σ}
    (h : Numbered s) (hm : s.world.module = none)
    (hinit : (deliveries σ).step s (.init config env) = some s₀) (hm₀ : s₀.world.module.isSome) :
    Described s.begun s₀ := by
  have hchained := chained_install h hm hinit hm₀
  obtain ⟨w, hw, -, heq⟩ := step_install hm hinit hm₀
  have hd : s₀.delivery = .initialising := by
    rw [heq]
    exact hw
  refine ⟨hchained, hm₀, ?_, ?_, ?_⟩
  · intro b o _ hlast ho
    rw [heq] at hlast ho
    rw [begin_boot_last hlast] at ho
    cases ho
  · rw [hd]
    exact fun hs => nomatch hs
  · rw [hd]
    exact fun ho => nomatch ho

/-- When a bootstrap that creates its node finds `adopted` set, its `nodeStarted` is the
next thing to show it untrue. -/
theorem untruthful_of_adopted {i b : ℕ} {preset : String} {s₁ s₂ : Deliveries σ}
    (h : Described first s) (hcall : s.calls[i]? = some (b, .createNode preset))
    (hown : ¬ s.Stale b) (hadopted : s.delivery.adopted = true)
    (h₁ : (deliveries σ).step s (.answer i (.ok ())) = some s₁)
    (h₂ : (deliveries σ).step s₁ (.nodeStarted true "") = some s₂) : ¬ Truthful s₂ := by
  obtain ⟨b', call, ha, hd₁⟩ := step_answers h₁
  obtain ⟨rfl, rfl⟩ : b' = b ∧ call = .createNode preset := by
    have := ha.call.symm.trans hcall
    simpa using this
  have hb := h.chained.numbered.due _ ha.mem
  have hfirst : first ≤ b' := by
    have := h.chained.stale b' hb
    simpa [this] using hown
  have hlast := (h.chained.expects _ ha.mem (isSetup_iff.mpr ⟨hfirst, by simp⟩)).1
  have hstarting : s₁.delivery.starting = true := by rw [hd₁]; rfl
  obtain ⟨-, -, hbegun, -, -, -, -⟩ := step_nodeStarted h₂
  obtain ⟨hboot, hd₂⟩ := nodeStarted_of_starting hstarting h₂
  rw [if_pos rfl] at hd₂
  intro htruthful
  obtain ⟨c, o, hc, -, ho, htrue⟩ := htruthful (by rw [hd₂])
  rw [hbegun, ha.begun] at hc
  obtain rfl : c = b' := by
    simp only at hlast
    omega
  -- the node is its own, the bit says adopted
  have horigin : (s₂.boot c).origin = some .created := by
    simp only [hboot, Boot.origin_accepted, ha.boot_self]
    rfl
  rw [horigin, Option.some_inj] at ho
  subst ho
  rw [hd₂] at htrue
  change s₁.delivery.adopted = false at htrue
  rw [hd₁] at htrue
  change s.delivery.adopted = false at htrue
  rw [hadopted] at htrue
  cases htrue

end Steps

/-! ## What the bit remembers -/

/-- How a bootstrap of the session joins a node in a step. -/
def joins (s : Deliveries σ) : Happening → List Origin
  | .answer i (.ok ()) =>
    match s.calls[i]? with
    | some (b, .getNodeInfo preset _) =>
      if (s.boot b).session = s.sessions then [.joined (s.world.ownNodePreset ≠ some preset)]
      else []
    | _ => []
  | _ => []

section Joins

variable [MessageStore σ] {s s₀ s' : Deliveries σ} {hap : Happening} {haps : List Happening}

omit [MessageStore σ] in
theorem joins_answer {i b : ℕ} {call : Pending} {res : Answer}
    (hcall : s.calls[i]? = some (b, call))
    (hother : s.Stale b ∨ ∀ preset reason, call = .getNodeInfo preset reason → res ≠ .ok ()) :
    joins s (.answer i res) = [] := by
  cases res with
  | error e => rfl
  | ok u =>
    simp only [joins, hcall]
    cases call with
    | getNodeInfo preset reason =>
      rcases hother with hstale | hno
      · exact if_neg hstale
      · exact absurd rfl (hno preset reason rfl)
    | _ => rfl

/-- Only a join writes the bit. -/
theorem adopted_step (hm : s.world.module.isSome) (hgo : Undisturbed s hap)
    (hstep : (deliveries σ).step s hap = some s') :
    (joins s hap = [] ∧ s'.delivery.adopted = s.delivery.adopted) ∨
      joins s hap = [.joined s'.delivery.adopted] := by
  cases hap with
  | init config env =>
    left
    refine ⟨rfl, ?_⟩
    rcases step_init_cases hstep with ⟨hnone, -⟩ | ⟨-, hclaim, heq⟩ | ⟨-, -, heq⟩ | ⟨hnone, -⟩
    · simp [hnone] at hm
    · rw [delivery_of_retry hclaim heq]
    · rw [heq]
    · simp [hnone] at hm
  | shutdown => exact absurd rfl hgo.1
  | answer i res =>
    obtain ⟨b, call, ha, hd⟩ := step_answers hstep
    by_cases hstale : s.Stale b
    · left
      refine ⟨joins_answer ha.call (Or.inl hstale), ?_⟩
      rw [hd, hgo.2.delivery_eq ha.call hm hstale]
    · cases call with
      | getNodeInfo preset reason =>
        cases res with
        | ok u =>
          right
          simp only [joins, ha.call]
          rw [if_pos (not_not.mp hstale), hd]
          rfl
        | error e => exact Or.inl ⟨rfl, by rw [hd]; rfl⟩
      | createNode preset =>
        left
        refine ⟨joins_answer ha.call (Or.inr fun _ _ heq => nomatch heq), ?_⟩
        rw [hd]
        cases res <;> rfl
      | start =>
        left
        refine ⟨joins_answer ha.call (Or.inr fun _ _ heq => nomatch heq), ?_⟩
        rw [hd]
        cases res <;> rfl
  | nodeStarted success message =>
    left
    refine ⟨rfl, ?_⟩
    cases hs : s.delivery.starting with
    | false => rw [nodeStarted_of_not_starting hs hstep]
    | true =>
      rw [(nodeStarted_of_starting hs hstep).2]
      split <;> rfl
  | connectionStateChanged status =>
    left
    refine ⟨rfl, ?_⟩
    cases hs : s.delivery.started with
    | false => rw [connectionStateChanged_of_not_started hs hstep]
    | true => rw [connectionStateChanged_of_started hs hstep]

/-- In a session undisturbed by earlier ones the bit is set exactly when the last node that
was joined is adopted. -/
theorem adopted_iff_joins {config : ChatConfig} {env : Environment}
    (hm : s.world.module = none) (hinit : (deliveries σ).step s (.init config env) = some s₀)
    (hm₀ : s₀.world.module.isSome) (hrun : (deliveries σ).Run Undisturbed s₀ haps s') :
    s'.delivery.adopted = true ↔
      ((deliveries σ).output joins s₀ haps).getLast? = some (.joined true) := by
  have hstart : s₀.delivery.adopted = false := by
    obtain ⟨w, hw, -, heq⟩ := step_install hm hinit hm₀
    rw [heq]
    change w.guarded.display.deliveryState.adopted = false
    rw [hw]
    rfl
  have hall : s'.world.module.isSome ∧ (s'.delivery.adopted = true ↔
      ((deliveries σ).output joins s₀ haps).getLast? = some (.joined true)) := by
    refine hrun.accumulates (f := joins) (I := fun out s => s.world.module.isSome ∧
      (s.delivery.adopted = true ↔ out.getLast? = some (Origin.joined true))) ?_
      ⟨hm₀, by simp [hstart]⟩
    rintro out s hap s' hgo hstep ⟨hm, hlast⟩
    refine ⟨installed_of_step hm hgo.1 hstep, ?_⟩
    rcases adopted_step hm hgo hstep with ⟨hnone, hsame⟩ | hjoins
    · rw [hnone, List.append_nil, hsame]
      exact hlast
    · rw [hjoins, List.getLast?_concat, Option.some_inj, Origin.joined.injEq]
  exact hall.2

end Joins

section Runs

variable [MessageStore σ] {s s₀ s' : Deliveries σ} {before haps : List Happening}

/-- In any session of any run, undisturbed by earlier ones, with any bootstraps that do
not overlap: Online, `adopted` tells the truth about the last of them, provided none of
them creates its node when `adopted` is set. -/
theorem adopted_truthful {file : ChatDb σ} {own : Option String} {config : ChatConfig}
    {env : Environment}
    (hreach : (deliveries σ).Run (fun _ _ => True) (.start file own) before s)
    (hm : s.world.module = none) (hinit : (deliveries σ).step s (.init config env) = some s₀)
    (hm₀ : s₀.world.module.isSome)
    (hrun : (deliveries σ).Run
      (fun s hap => Undisturbed s hap ∧ Apart s hap ∧ Unadopted s hap) s₀ haps s') :
    Truthful s' := by
  have h : Described s.begun s' :=
    hrun.invariant (fun _ _ _ hP hstep h => described_step h hP.1 hP.2.1 hP.2.2 hstep)
      (described_install (numbered_run hreach) hm hinit hm₀)
  exact h.truthful

/-- A node is refused, and one someone else created is joined and started. -/
def joinedAndStarted : List Happening :=
  [.answer 0 (.error "exists"), .answer 0 (.ok ()), .nodeStarted true ""]

theorem adopted_truthful_joined : ∃ s₀ s : Deliveries LogStore,
    (deliveries LogStore).step (.start Persistence.emptyDb none) initUp = some s₀ ∧
      (deliveries LogStore).exec s₀ joinedAndStarted = some s ∧
      s.delivery.state = .online ∧ s.delivery.adopted = true ∧ Truthful s := by
  have hsteps : ∃ s₀ s₁ s₂ s₃ : Deliveries LogStore,
      (deliveries LogStore).step (.start Persistence.emptyDb none) initUp = some s₀ ∧
        (deliveries LogStore).step s₀ (.answer 0 (.error "exists")) = some s₁ ∧
        (deliveries LogStore).step s₁ (.answer 0 (.ok ())) = some s₂ ∧
        (deliveries LogStore).step s₂ (.nodeStarted true "") = some s₃ ∧
        s₀.world.module.isSome ∧ s₁.world.module.isSome ∧
        s₀.calls[0]? = some (0, .createNode "logos.test") ∧ ¬ s₀.Stale 0 ∧
        s₁.calls[0]? = some (0, .getNodeInfo "logos.test" "exists") ∧ ¬ s₁.Stale 0 ∧
        s₃.delivery.state = .online ∧ s₃.delivery.adopted = true :=
    ⟨_, _, _, _, rfl, rfl, rfl, rfl, rfl, rfl, rfl, fun h => h rfl, rfl, fun h => h rfl, rfl, rfl⟩
  obtain ⟨s₀, s₁, s₂, s₃, hinit, h₁, h₂, h₃, hm₀, hm₁, hcall₀, hown₀, hcall₁, hown₁, honline,
    hadopted⟩ := hsteps
  have hunadopted : Unadopted s₁ (.answer 0 (.ok ())) := by
    intro i b preset heq hcall
    cases heq
    rw [hcall₁] at hcall
    cases hcall
  have hrun : (deliveries LogStore).Run
      (fun s hap => Undisturbed s hap ∧ Apart s hap ∧ Unadopted s hap) s₀ joinedAndStarted s₃ :=
    .cons ⟨⟨(nomatch ·), contained_of_own hm₀ hcall₀ hown₀⟩, apart_answer _ _ _,
        fun _ _ _ heq => nomatch heq⟩ h₁
      (.cons ⟨⟨(nomatch ·), contained_of_own hm₁ hcall₁ hown₁⟩, apart_answer _ _ _,
          hunadopted⟩ h₂
        (.single ⟨⟨(nomatch ·), fun _ _ _ _ heq => nomatch heq⟩, apart_nodeStarted _ _ _,
          fun _ _ _ heq => nomatch heq⟩ h₃))
  exact ⟨s₀, s₃, hinit, by simp [Machine.exec, joinedAndStarted, h₁, h₂, h₃], honline, hadopted,
    adopted_truthful (.nil _) rfl hinit hm₀ hrun⟩

/-- A node is joined and its start fails; the next bootstrap, which begins when the
first is concluded, creates its own. -/
def joinedThenCreated : List Happening :=
  [initUp, .answer 0 (.error "exists"), .answer 0 (.ok ()), .answer 0 (.error "no"), initUp,
    .answer 0 (.ok ()), .nodeStarted true ""]

/-- Its node is reported as someone else's. -/
theorem own_node_shown_adopted : ∃ s : Deliveries LogStore,
    (deliveries LogStore).Run Apart (.start Persistence.emptyDb none) joinedThenCreated s ∧
      s.delivery.state = .online ∧ s.delivery.adopted = true ∧ s.begun = 2 ∧
      (s.boot 1).origin = some .created ∧ ¬ Truthful s := by
  have hsteps : ∃ s₁ s₂ s₃ s₄ s₅ s₆ s₇ : Deliveries LogStore,
      (deliveries LogStore).step (.start Persistence.emptyDb none) initUp = some s₁ ∧
        (deliveries LogStore).step s₁ (.answer 0 (.error "exists")) = some s₂ ∧
        (deliveries LogStore).step s₂ (.answer 0 (.ok ())) = some s₃ ∧
        (deliveries LogStore).step s₃ (.answer 0 (.error "no")) = some s₄ ∧
        (deliveries LogStore).step s₄ initUp = some s₅ ∧
        (deliveries LogStore).step s₅ (.answer 0 (.ok ())) = some s₆ ∧
        (deliveries LogStore).step s₆ (.nodeStarted true "") = some s₇ ∧
        (s₄.begun = 1 ∧ (s₄.boot 0).phase = .concluded) ∧ s₇.delivery.state = .online ∧
        s₇.delivery.adopted = true ∧ s₇.begun = 2 ∧ (s₇.boot 1).origin = some .created :=
    ⟨_, _, _, _, _, _, _, rfl, rfl, rfl, rfl, rfl, rfl, rfl, ⟨rfl, rfl⟩, rfl, rfl, rfl, rfl⟩
  obtain ⟨s₁, s₂, s₃, s₄, s₅, s₆, s₇, h₁, h₂, h₃, h₄, h₅, h₆, h₇, ⟨hbegun₄, hphase₄⟩, honline,
    hadopted, hbegun, horigin⟩ := hsteps
  have hfirst : Apart (.start Persistence.emptyDb none : Deliveries LogStore) initUp :=
    fun _ b hb => absurd hb.1 (Nat.not_lt_zero b)
  have hsecond : Apart s₄ initUp := by
    rintro - b ⟨hlt, -, hne⟩
    obtain rfl : b = 0 := by omega
    exact hne hphase₄
  have hrun : (deliveries LogStore).Run Apart (.start Persistence.emptyDb none)
      joinedThenCreated s₇ :=
    .cons hfirst h₁ (.cons (apart_answer _ _ _) h₂ (.cons (apart_answer _ _ _) h₃
      (.cons (apart_answer _ _ _) h₄ (.cons hsecond h₅ (.cons (apart_answer _ _ _) h₆
        (.single (apart_nodeStarted _ _ _) h₇))))))
  refine ⟨s₇, hrun, honline, hadopted, hbegun, horigin, ?_⟩
  intro htruthful
  obtain ⟨b, o, hb, -, ho, htrue⟩ := htruthful honline
  obtain rfl : b = 1 := by omega
  rw [horigin, Option.some_inj] at ho
  subst ho
  rw [hadopted] at htrue
  cases htrue

end Runs

end ChatModule
