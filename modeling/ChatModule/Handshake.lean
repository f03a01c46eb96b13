import ChatModule.Deliveries

/-!
# Online means this session's own start

`starting` and `started` are two bits that summarise a history: `starting` says that a
start was dispatched since the session began and nothing has answered it since
(`Awaited`), `started` that a successful `nodeStarted` met such a start
(`Handshake`). `Session` is the invariant over histories that ties the bits to what
they stand for; every order of the messages is covered, including answers that were
still due when the session began.
-/

namespace ChatModule

open Actions Inbound

variable {σ : Type} [MessageStore σ]

/-! ## Histories of a session -/

/-- A start is awaited. -/
def Awaiting (s : Deliveries σ) (_ : Happening) : Prop := s.delivery.starting = true

/-- An answer that makes the module dispatch a start. -/
def Dispatches (s : Deliveries σ) (hap : Happening) : Prop :=
  ∃ i b call, hap = .answer i (.ok ()) ∧ s.calls[i]? = some (b, call) ∧ call ≠ .start

/-- Since `s₀` a start was dispatched, and it has been awaited from then to `s`. -/
def Awaited (s₀ : Deliveries σ) (haps : List Happening) (s : Deliveries σ) : Prop :=
  ∃ pre hap mid s₁ s₂, haps = pre ++ hap :: mid ∧ (deliveries σ).Run NoShutdown s₀ pre s₁ ∧
    Dispatches s₁ hap ∧ (deliveries σ).step s₁ hap = some s₂ ∧
    (deliveries σ).Run Awaiting s₂ mid s ∧ s.delivery.starting = true

/-- Since `s₀` a successful `nodeStarted` came while a start was awaited. -/
def Handshake (s₀ : Deliveries σ) (haps : List Happening) (s : Deliveries σ) : Prop :=
  ∃ pre message post s₁ s₂, haps = pre ++ .nodeStarted true message :: post ∧
    Awaited s₀ pre s₁ ∧ (deliveries σ).step s₁ (.nodeStarted true message) = some s₂ ∧
    (deliveries σ).Run NoShutdown s₂ post s

section Histories

variable {s₀ s s' : Deliveries σ} {haps : List Happening} {hap : Happening}

/-- A start that is dispatched is awaited. -/
theorem awaited_of_dispatches (hrun : (deliveries σ).Run NoShutdown s₀ haps s)
    (hdisp : Dispatches s hap) (hstep : (deliveries σ).step s hap = some s')
    (hstarting : s'.delivery.starting = true) : Awaited s₀ (haps ++ [hap]) s' :=
  ⟨haps, hap, [], s, s', rfl, hrun, hdisp, hstep, .nil s', hstarting⟩

theorem Awaited.snoc (h : Awaited s₀ haps s) (hstep : (deliveries σ).step s hap = some s')
    (hstarting : s'.delivery.starting = true) : Awaited s₀ (haps ++ [hap]) s' := by
  obtain ⟨pre, hap₁, mid, s₁, s₂, rfl, hpre, hdisp, hstep₁, hmid, hs⟩ := h
  refine ⟨pre, hap₁, mid ++ [hap], s₁, s₂, by simp, hpre, hdisp, hstep₁, ?_, hstarting⟩
  exact hmid.append (.single hs hstep)

theorem handshake_of_awaited {message : String} (h : Awaited s₀ haps s)
    (hstep : (deliveries σ).step s (.nodeStarted true message) = some s') :
    Handshake s₀ (haps ++ [.nodeStarted true message]) s' :=
  ⟨haps, message, [], s, s', rfl, h, hstep, .nil s'⟩

theorem Handshake.snoc (h : Handshake s₀ haps s) (hgo : NoShutdown s hap)
    (hstep : (deliveries σ).step s hap = some s') : Handshake s₀ (haps ++ [hap]) s' := by
  obtain ⟨pre, message, post, s₁, s₂, rfl, haw, hstep₁, hpost⟩ := h
  exact ⟨pre, message, post ++ [hap], s₁, s₂, by simp, haw, hstep₁,
    hpost.append (.single hgo hstep)⟩

end Histories

/-! ## The invariant -/

/-- What the two bits stand for, in a session that began at `s₀`. -/
structure Session (s₀ : Deliveries σ) (haps : List Happening) (s : Deliveries σ) : Prop where
  run : (deliveries σ).Run NoShutdown s₀ haps s
  installed : s.world.module.isSome
  starting : s.delivery.starting = true → Awaited s₀ haps s
  started : s.delivery.started = true → Handshake s₀ haps s
  online : s.delivery.state = .online → s.delivery.started = true

section Steps

variable {s₀ s s' : Deliveries σ} {haps : List Happening} {hap : Happening}

/-- A step under which both bits stay, and `online` with them. -/
theorem Session.keep (h : Session s₀ haps s) (hgo : NoShutdown s hap)
    (hstep : (deliveries σ).step s hap = some s') (hm : s'.world.module.isSome)
    (hstarting : s'.delivery.starting = true → s.delivery.starting = true)
    (hstarted : s'.delivery.started = s.delivery.started)
    (honline : s'.delivery.state = .online → s.delivery.started = true) :
    Session s₀ (haps ++ [hap]) s' where
  run := h.run.append (.single hgo hstep)
  installed := hm
  starting := fun hs => (h.starting (hstarting hs)).snoc hstep hs
  started := fun hs => (h.started (hstarted ▸ hs)).snoc hgo hstep
  online := fun ho => hstarted ▸ honline ho

theorem session_init {config : ChatConfig} {env : Environment} (h : Session s₀ haps s)
    (hstep : (deliveries σ).step s (.init config env) = some s') :
    Session s₀ (haps ++ [.init config env]) s' := by
  have hgo : NoShutdown s (.init config env) := fun heq => nomatch heq
  rcases step_init_cases hstep with
    ⟨hnone, -⟩ | ⟨hm, hclaim, heq⟩ | ⟨hm, -, heq⟩ | ⟨hnone, -⟩
  · simpa [hnone] using h.installed
  · have hd := delivery_of_retry hclaim heq
    refine h.keep hgo hstep (by rw [heq]; exact hm) ?_ ?_ ?_
    · rw [hd]
      exact id
    · rw [hd]
    · rw [hd]
      exact fun ho => nomatch ho
  · subst heq
    exact h.keep hgo hstep hm id rfl h.online
  · simpa [hnone] using h.installed

theorem session_answer {i : ℕ} {res : Answer} (h : Session s₀ haps s)
    (hstep : (deliveries σ).step s (.answer i res) = some s') :
    Session s₀ (haps ++ [.answer i res]) s' := by
  have hgo : NoShutdown s (.answer i res) := fun heq => nomatch heq
  obtain ⟨b, call, hcall, -, -, -, -, -, hd⟩ := step_answer hstep
  have hm := installed_of_step h.installed hgo hstep
  have hstarted : s'.delivery.started = s.delivery.started := by
    rw [hd]
    cases call <;> cases res <;> rfl
  have honline : s'.delivery.state = .online → s.delivery.started = true := by
    rw [hd]
    intro ho
    cases call with
    | createNode preset => cases res <;> exact h.online ho
    | getNodeInfo preset reason =>
      cases res with
      | ok u => exact h.online ho
      | error e => cases ho
    | start =>
      cases res with
      | ok u => exact h.online ho
      | error e => cases ho
  by_cases hdisp : Dispatches s (.answer i res)
  · exact ⟨h.run.append (.single hgo hstep), hm,
      fun hs => awaited_of_dispatches h.run hdisp hstep hs,
      fun hs => (h.started (hstarted ▸ hs)).snoc hgo hstep, fun ho => hstarted ▸ honline ho⟩
  · -- no start is dispatched, so none is awaited that was not
    refine h.keep hgo hstep hm ?_ hstarted honline
    rw [hd]
    intro hs
    cases call with
    | createNode preset =>
      cases res with
      | ok u => exact absurd ⟨i, b, _, rfl, hcall, fun heq => nomatch heq⟩ hdisp
      | error e => exact hs
    | getNodeInfo preset reason =>
      cases res with
      | ok u => exact absurd ⟨i, b, _, rfl, hcall, fun heq => nomatch heq⟩ hdisp
      | error e => exact hs
    | start =>
      cases res with
      | ok u => exact hs
      | error e => cases hs

theorem session_nodeStarted {success : Bool} {message : String} (h : Session s₀ haps s)
    (hstep : (deliveries σ).step s (.nodeStarted success message) = some s') :
    Session s₀ (haps ++ [.nodeStarted success message]) s' := by
  have hgo : NoShutdown s (.nodeStarted success message) := fun heq => nomatch heq
  have hm := installed_of_step h.installed hgo hstep
  cases hs : s.delivery.starting with
  | false =>
    obtain rfl := nodeStarted_of_not_starting hs hstep
    exact h.keep hgo hstep hm id rfl h.online
  | true =>
    obtain ⟨-, hd⟩ := nodeStarted_of_starting hs hstep
    cases success with
    | true =>
      -- the one step that sets `started`: a start is awaited, by the invariant ours
      rw [if_pos rfl] at hd
      refine ⟨h.run.append (.single hgo hstep), hm, ?_, ?_, ?_⟩
      · rw [hd]
        exact fun hs => nomatch hs
      · exact fun _ => handshake_of_awaited (h.starting hs) hstep
      · intro _
        rw [hd]
    | false =>
      rw [if_neg (by simp)] at hd
      refine h.keep hgo hstep hm ?_ ?_ ?_
      · rw [hd]
        exact fun hs => nomatch hs
      · rw [hd]
      · rw [hd]
        exact fun ho => nomatch ho

theorem session_connectionStateChanged {status : String} (h : Session s₀ haps s)
    (hstep : (deliveries σ).step s (.connectionStateChanged status) = some s') :
    Session s₀ (haps ++ [.connectionStateChanged status]) s' := by
  have hgo : NoShutdown s (.connectionStateChanged status) := fun heq => nomatch heq
  have hm := installed_of_step h.installed hgo hstep
  cases hs : s.delivery.started with
  | false =>
    obtain rfl := connectionStateChanged_of_not_started hs hstep
    exact h.keep hgo hstep hm id rfl h.online
  | true =>
    have hd := connectionStateChanged_of_started hs hstep
    exact h.keep hgo hstep hm (by rw [hd]; exact id) (by rw [hd]) (fun _ => hs)

theorem session_step (h : Session s₀ haps s) (hgo : NoShutdown s hap)
    (hstep : (deliveries σ).step s hap = some s') : Session s₀ (haps ++ [hap]) s' := by
  cases hap with
  | init config env => exact session_init h hstep
  | shutdown => exact absurd rfl hgo
  | answer i res => exact session_answer h hstep
  | nodeStarted success message => exact session_nodeStarted h hstep
  | connectionStateChanged status => exact session_connectionStateChanged h hstep

/-- A session begins with nothing awaited and nothing started, whatever is still due
from the one before. -/
theorem session_begin {config : ChatConfig} {env : Environment} (hm : s.world.module = none)
    (hstep : (deliveries σ).step s (.init config env) = some s₀) (hm₀ : s₀.world.module.isSome) :
    Session s₀ [] s₀ := by
  have hd : s₀.delivery = .initialising := by
    obtain ⟨w, hw, -, heq⟩ := step_install hm hstep hm₀
    rw [heq]
    exact hw
  refine ⟨.nil s₀, hm₀, ?_, ?_, ?_⟩ <;> rw [hd] <;> exact fun h => nomatch h

end Steps

/-! ## What the bits do -/

/-- Online, connectivity and `nodeStarted` in a session whose history since `s₀` is
`haps`. -/
structure OwnStart (s₀ : Deliveries σ) (haps : List Happening) (s : Deliveries σ) : Prop where
  /-- Online is this session's own handshake. -/
  online : s.delivery.state = .online → Handshake s₀ haps s
  /-- Before it connectivity changes nothing. -/
  connectivity : ¬ Handshake s₀ haps s → ∀ status s',
    (deliveries σ).step s (.connectionStateChanged status) = some s' → s' = s
  /-- A `nodeStarted` that no start awaits changes nothing. -/
  unawaited : ¬ Awaited s₀ haps s → ∀ success message s',
    (deliveries σ).step s (.nodeStarted success message) = some s' → s' = s
  /-- Once `started` is set it stays. -/
  started : s.delivery.started = true → ∀ hap s', hap ≠ .shutdown →
    (deliveries σ).step s hap = some s' → s'.delivery.started = true
  /-- And no init dispatches anything any more. -/
  settled : s.delivery.started = true → ∀ config env s',
    (deliveries σ).step s (.init config env) = some s' → s' = s

section OwnStart

variable {s₀ s s' : Deliveries σ} {haps : List Happening}

/-- No message takes `started` back. -/
theorem started_of_step {hap : Happening} (h : s.delivery.started = true)
    (hm : s.world.module.isSome) (hgo : hap ≠ .shutdown)
    (hstep : (deliveries σ).step s hap = some s') : s'.delivery.started = true := by
  cases hap with
  | init config env =>
    rcases step_init_cases hstep with
      ⟨hnone, -⟩ | ⟨-, hclaim, -⟩ | ⟨-, -, heq⟩ | ⟨hnone, -⟩
    · simp [hnone] at hm
    · have hnot := ((claimDeliveryRetry_true_iff _).mp hclaim).2
      rw [h] at hnot
      cases hnot
    · rwa [heq]
    · simp [hnone] at hm
  | shutdown => exact absurd rfl hgo
  | answer i res =>
    obtain ⟨b, call, -, -, -, -, -, -, hd⟩ := step_answer hstep
    rw [hd]
    cases call <;> cases res <;> exact h
  | nodeStarted success message =>
    cases hs : s.delivery.starting with
    | false => rwa [nodeStarted_of_not_starting hs hstep]
    | true =>
      rw [(nodeStarted_of_starting hs hstep).2]
      split
      · rfl
      · exact h
  | connectionStateChanged status =>
    rw [connectionStateChanged_of_started h hstep]
    exact h

theorem init_of_started {config : ChatConfig} {env : Environment} (h : s.delivery.started = true)
    (hm : s.world.module.isSome) (hstep : (deliveries σ).step s (.init config env) = some s') :
    s' = s := by
  rcases step_init_cases hstep with ⟨hnone, -⟩ | ⟨-, hclaim, -⟩ | ⟨-, -, heq⟩ | ⟨hnone, -⟩
  · simp [hnone] at hm
  · have hnot := ((claimDeliveryRetry_true_iff _).mp hclaim).2
    rw [h] at hnot
    cases hnot
  · exact heq
  · simp [hnone] at hm

theorem Session.ownStart (h : Session s₀ haps s) : OwnStart s₀ haps s where
  -- each law is a bit being set or not, read through the invariant
  online := fun ho => h.started (h.online ho)
  connectivity := by
    intro hno status s' hstep
    exact connectionStateChanged_of_not_started
      (Bool.eq_false_iff.mpr fun hs => hno (h.started hs)) hstep
  unawaited := by
    intro hno success message s' hstep
    exact nodeStarted_of_not_starting
      (Bool.eq_false_iff.mpr fun hs => hno (h.starting hs)) hstep
  started := fun hs hap s' hgo hstep => started_of_step hs h.installed hgo hstep
  settled := fun hs config env s' hstep => init_of_started hs h.installed hstep

theorem Awaited.run (h : Awaited s₀ haps s) :
    (deliveries σ).Run (fun _ _ => True) s₀ haps s := by
  obtain ⟨pre, hap, mid, s₁, s₂, rfl, hpre, -, hstep, hmid, -⟩ := h
  have hfirst := hpre.imp (Q := fun _ _ => True) fun _ _ _ _ => trivial
  have hrest := hmid.imp (Q := fun _ _ => True) fun _ _ _ _ => trivial
  exact hfirst.append (.cons trivial hstep hrest)

theorem Awaited.starting (h : Awaited s₀ haps s) : s.delivery.starting = true := by
  obtain ⟨-, -, -, -, -, -, -, -, -, -, hs⟩ := h
  exact hs

/-- A handshake sets `started` for as long as the session goes on. -/
theorem Handshake.started (h : Handshake s₀ haps s) (hm₀ : s₀.world.module.isSome)
    (hrun : (deliveries σ).Run NoShutdown s₀ haps s) : s.delivery.started = true := by
  obtain ⟨pre, message, post, s₁, s₂, rfl, hawaited, hstep, hpost⟩ := h
  have hm₁ : s₁.world.module.isSome := by
    -- the run that was awaited is the beginning of this one
    obtain ⟨s₁', hpre, -⟩ := hrun.split
    obtain rfl : s₁' = s₁ := Option.some.inj (hpre.exec.symm.trans hawaited.run.exec)
    exact hpre.invariant (I := fun s => s.world.module.isSome)
      (fun _ _ _ hgo hs hm => installed_of_step hm hgo hs) hm₀
  have haccepted : s₂.world.module.isSome ∧ s₂.delivery.started = true := by
    have hgo : NoShutdown s₁ (.nodeStarted true message) := fun heq => nomatch heq
    refine ⟨installed_of_step hm₁ hgo hstep, ?_⟩
    rw [(nodeStarted_of_starting hawaited.starting hstep).2]
    rfl
  have hkeeps := hpost.invariant
    (I := fun s => s.world.module.isSome ∧ s.delivery.started = true)
    (fun _ _ _ hgo hs h => ⟨installed_of_step h.1 hgo hs, started_of_step h.2 h.1 hgo hs⟩)
    haccepted
  exact hkeeps.2

/-- In a session `started` is set exactly when a successful `nodeStarted` has been accepted
since it began. -/
theorem started_iff_handshake {s : Deliveries σ} {config : ChatConfig} {env : Environment}
    (hm : s.world.module = none) (hinit : (deliveries σ).step s (.init config env) = some s₀)
    (hm₀ : s₀.world.module.isSome) (hrun : (deliveries σ).Run NoShutdown s₀ haps s') :
    s'.delivery.started = true ↔ Handshake s₀ haps s' := by
  constructor
  · exact (hrun.history (fun _ _ _ _ h hgo hstep => session_step h hgo hstep)
      (session_begin hm hinit hm₀)).started
  · exact fun h => h.started hm₀ hrun

/-- From the init that installs a session to its shutdown, in every order of the
messages: online is the session's own start handshake, and nothing else is taken for
it or takes it back. -/
theorem online_after_handshake {s : Deliveries σ} {config : ChatConfig} {env : Environment}
    (hm : s.world.module = none) (hinit : (deliveries σ).step s (.init config env) = some s₀)
    (hm₀ : s₀.world.module.isSome) (hrun : (deliveries σ).Run NoShutdown s₀ haps s') :
    OwnStart s₀ haps s' :=
  -- the invariant speaks of the labels so far, so the induction appends at the end
  (hrun.history (fun _ _ _ _ h hgo hstep => session_step h hgo hstep)
    (session_begin hm hinit hm₀)).ownStart

end OwnStart

section Runs

/-- A node created and started. -/
def bootstrapped : List Happening := [.answer 0 (.ok ()), .nodeStarted true ""]

theorem online_after_handshake_bootstrapped : ∃ s₀ s : Deliveries LogStore,
    (deliveries LogStore).step (.start Persistence.emptyDb none)
      (.init ⟨none⟩ (.up ⟨"name", "addr"⟩ [])) = some s₀ ∧
      (deliveries LogStore).exec s₀ bootstrapped = some s ∧ s.delivery.state = .online ∧
      Handshake s₀ bootstrapped s := by
  have hsteps : ∃ s₀ s : Deliveries LogStore,
      (deliveries LogStore).step (.start Persistence.emptyDb none)
        (.init ⟨none⟩ (.up ⟨"name", "addr"⟩ [])) = some s₀ ∧
        (deliveries LogStore).exec s₀ bootstrapped = some s ∧ s.delivery.state = .online ∧
        s₀.world.module.isSome :=
    ⟨_, _, rfl, rfl, rfl, rfl⟩
  obtain ⟨s₀, s, hinit, hexec, honline, hm⟩ := hsteps
  have hrun : (deliveries LogStore).Run NoShutdown s₀ bootstrapped s :=
    (Machine.run_of_exec hexec).imp (by simp [bootstrapped, NoShutdown])
  exact ⟨s₀, s, hinit, hexec, honline, (online_after_handshake rfl hinit hm hrun).online honline⟩

end Runs

end ChatModule
