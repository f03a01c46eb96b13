import ChatModule.Following
import ChatModule.Sessions

/-!
# A copy of the status kept from the events

A consumer reads `status` once and then overwrites its copy with every
`delivery_state_changed`. All that moves the delivery state within a session goes
through `set_delivery_state`, which raises every change and nothing else, so the copy
follows. The display an init seeds and the one a shutdown resets are written directly,
and so is `delivery_adopted`; `Spoken` are the steps at which none of that shows, and the
copy agrees after every step of a run exactly when all its steps meet it
(`copy_follows_iff`).
-/

namespace ChatModule

open Actions Inbound

variable {σ : Type}

/-! ## The consumer -/

/-- What a consumer keeps of the delivery state. -/
structure StatusCopy where
  deliveryState : String
  detail : String
  deliveryAdopted : Bool
deriving DecidableEq

namespace StatusCopy

/-- What it reads in `status`. -/
def ofStatus (st : Status) : StatusCopy := ⟨st.deliveryState, st.detail, st.deliveryAdopted⟩

/-- It overwrites its copy with a `delivery_state_changed`. -/
def hear (copy : StatusCopy) : PluginEvent → StatusCopy
  | .deliveryStateChanged deliveryState detail deliveryAdopted =>
    ⟨deliveryState, detail, deliveryAdopted⟩
  | _ => copy

/-- It hears some events in turn. -/
def hearAll (copy : StatusCopy) (events : List PluginEvent) : StatusCopy := events.foldl hear copy

/-- Whether some events, heard in turn, never repeat what the copy has. -/
def Unrepeated (copy : StatusCopy) : List PluginEvent → Prop
  | [] => True
  | event :: events =>
    (∀ deliveryState detail deliveryAdopted,
      event = .deliveryStateChanged deliveryState detail deliveryAdopted →
        (deliveryState, detail) ≠ (copy.deliveryState, copy.detail)) ∧
      (copy.hear event).Unrepeated events

/-- The copy says what `status` does, of `delivery_adopted` when the state is online. -/
structure Agrees (copy : StatusCopy) (st : Status) : Prop where
  deliveryState : copy.deliveryState = st.deliveryState
  detail : copy.detail = st.detail
  adopted : st.deliveryState = "online" → copy.deliveryAdopted = st.deliveryAdopted

end StatusCopy

/-- The process and the consumer, which hears what each step raises. -/
structure Watched (σ : Type) where
  process : Deliveries σ
  copy : StatusCopy

/-- What the consumer hears of a step. -/
def heardOf (s s' : Deliveries σ) : List PluginEvent := since s.world s'.world

variable [MessageStore σ]

/-- The process goes on, and the consumer hears what it raises. -/
def Watched.step (w : Watched σ) (hap : Happening) : Option (Watched σ) :=
  (w.process.step hap).map fun s => ⟨s, w.copy.hearAll (heardOf w.process s)⟩

/-- The machine of a process that is listened to. -/
def watched (σ : Type) [MessageStore σ] : Machine (Watched σ) Happening := ⟨Watched.step⟩

/-- A consumer that has just read the status. -/
def Watched.read (s : Deliveries σ) : Watched σ := ⟨s, .ofStatus (status s.world.guarded)⟩

/-! ## What is asked of a step -/

/-- After a step the copy agrees with the status, and no event of it repeated what the
copy had. -/
def CopyFollows (w : Watched σ) (hap : Happening) : Prop :=
  ∀ w', (watched σ).step w hap = some w' →
    w'.copy.Agrees (status w'.process.world.guarded) ∧
      w.copy.Unrepeated (heardOf w.process w'.process)

/-- No init installs a session, no shutdown ends one, and no `getNodeInfo` answered Ok
changes `delivery_adopted` while delivery is online. -/
def Spoken (s : Deliveries σ) : Happening → Prop
  | .init _ env => s.world.module.isSome ∨ ∃ e, initializeModule env s.world.guarded = .error e
  | .shutdown => s.world.module = none
  | .answer i res => ∀ b preset reason, s.calls[i]? = some (b, .getNodeInfo preset reason) →
    res = .ok () → s.delivery.state = .online →
      s.delivery.adopted = decide (s.world.ownNodePreset ≠ some preset)
  | _ => True

/-! ## Changes through `set_delivery_state` -/

/-- A section after which every copy that agreed has heard what it needs. -/
def Conveys (g g' : Guarded σ) : Prop :=
  ∃ events, g'.raised = g.raised ++ events ∧ ∀ copy : StatusCopy, copy.Agrees (status g) →
    (copy.hearAll events).Agrees (status g') ∧ copy.Unrepeated events

section Conveys

variable {g g' : Guarded σ}

omit [MessageStore σ]

theorem Conveys.refl (g : Guarded σ) : Conveys g g :=
  ⟨[], by simp, fun _ h => ⟨h, trivial⟩⟩

theorem asStr_inj {k k' : DeliveryStateKind} : k.asStr = k'.asStr ↔ k = k' := by
  cases k <;> cases k' <;> decide

/-- Fields no consumer sees may be written directly. -/
theorem Conveys.of_setDelivery {ds : DeliveryState} (h : Conveys (g.setDelivery ds) g')
    (hstate : ds.state = g.display.deliveryState.state)
    (hdetail : ds.detail = g.display.deliveryState.detail)
    (hadopted : ds.adopted = g.display.deliveryState.adopted) : Conveys g g' := by
  obtain ⟨events, hraised, hagrees⟩ := h
  refine ⟨events, hraised, ?_⟩
  rintro copy ⟨h₁, h₂, h₃⟩
  apply hagrees
  constructor
  · exact h₁.trans (congrArg DeliveryStateKind.asStr hstate.symm)
  · exact h₂.trans hdetail.symm
  · intro honline
    refine (h₃ ?_).trans hadopted.symm
    exact (congrArg DeliveryStateKind.asStr hstate.symm).trans honline

/-- Every change that `set_delivery_state` makes is raised, and only changes are. -/
theorem conveys_setDeliveryState (k : DeliveryStateKind) (detail : String) (g : Guarded σ) :
    Conveys g (setDeliveryState k detail g) := by
  by_cases hsame : g.display.deliveryState.state = k ∧ g.display.deliveryState.detail = detail
  · unfold setDeliveryState
    rw [if_pos hsame]
    exact .refl g
  · unfold setDeliveryState
    rw [if_neg hsame]
    refine ⟨[_], rfl, ?_⟩
    rintro copy ⟨h₁, h₂, -⟩
    refine ⟨⟨rfl, rfl, fun _ => rfl⟩, ?_, trivial⟩
    rintro _ _ _ heq hrepeat
    cases heq
    rw [h₁, h₂, Prod.mk.injEq] at hrepeat
    exact hsame ⟨(asStr_inj.mp hrepeat.1).symm, hrepeat.2.symm⟩

theorem conveys_recordNodeStarted (success : Bool) (message : String) (g : Guarded σ) :
    Conveys g (recordNodeStarted success message g) := by
  unfold recordNodeStarted
  simp only
  split
  · exact .refl g
  · split
    · exact (conveys_setDeliveryState _ _ _).of_setDelivery rfl rfl rfl
    · exact (conveys_setDeliveryState _ _ _).of_setDelivery rfl rfl rfl

theorem conveys_claimDeliveryRetry (g : Guarded σ) : Conveys g (claimDeliveryRetry g).1 := by
  unfold claimDeliveryRetry
  simp only
  split
  · exact .refl g
  · exact conveys_setDeliveryState _ _ g

theorem conveys_handleConnectionState (text : String) (g : Guarded σ) :
    Conveys g (handleConnectionState text g) := by
  unfold handleConnectionState
  split
  · exact conveys_setDeliveryState _ _ g
  · exact .refl g

/-- Only `getNodeInfo` answered Ok writes what a consumer sees without raising it. -/
theorem conveys_answered {call : Pending} {res : Answer} {w : World σ}
    (h : ∀ preset reason, call = .getNodeInfo preset reason → res ≠ .ok ()) :
    Conveys w.guarded (answered call res w).1.guarded := by
  cases call with
  | createNode preset =>
    cases res with
    | ok u => exact (Conveys.refl _).of_setDelivery rfl rfl rfl
    | error reason => exact .refl _
  | getNodeInfo preset reason =>
    cases res with
    | ok u => exact absurd rfl (h preset reason rfl)
    | error e => exact conveys_setDeliveryState _ _ _
  | start =>
    cases res with
    | ok u => exact .refl _
    | error e => exact (conveys_setDeliveryState _ _ _).of_setDelivery rfl rfl rfl

end Conveys

/-! ## Steps -/

/-- Without a session delivery is stopped or, by an answer that came late, failed; with
one it is not stopped. -/
structure Placed (s : Deliveries σ) : Prop where
  idle : s.world.module = none → s.delivery.state = .stopped ∨ s.delivery.state = .error
  up : s.world.module.isSome → s.delivery.state ≠ .stopped

section Steps

variable {s s' : Deliveries σ} {hap : Happening} {w w' : Watched σ} {haps : List Happening}

theorem placed_step (hstep : s.step hap = some s') (h : Placed s) : Placed s' := by
  cases hap with
  | init config env =>
    rcases step_init_cases hstep with
      ⟨-, g, ms, hinit, heq⟩ | ⟨hm, hclaim, heq⟩ | ⟨-, -, heq⟩ | ⟨-, -, heq⟩
    · obtain ⟨live, state, -, -, rfl⟩ := initializeModule_ok_iff.mp hinit
      have hd : s'.delivery = .initialising := by
        rw [heq]
        rfl
      have hm' : s'.world.module.isSome := by
        rw [heq]
        rfl
      refine ⟨fun hnone => by simp [hnone] at hm', fun _ => ?_⟩
      simp [hd, DeliveryState.initialising]
    · have hd := delivery_of_retry hclaim heq
      have hm' : s'.world.module.isSome := by
        rw [heq]
        exact hm
      refine ⟨fun hnone => by simp [hnone] at hm', fun _ => ?_⟩
      simp [hd]
    · rwa [heq]
    · rwa [heq]
  | shutdown =>
    cases hstep
    refine ⟨fun _ => ?_, fun hm => by simp at hm⟩
    cases hm : s.world.module with
    | none =>
      simp only [Deliveries.delivery, shutdown_of_none hm]
      exact h.idle hm
    | some ms =>
      left
      rw [Deliveries.delivery, shutdown_display (w := s.world) (by simp [hm])]
      rfl
  | answer i res =>
    obtain ⟨b, call, -, -, -, -, -, hworld, hd⟩ := step_answer hstep
    have hmod : s'.world.module = s.world.module := by rw [hworld, answered_module]
    -- an answer leaves the state or makes it an Error
    have hstate : s'.delivery.state = s.delivery.state ∨ s'.delivery.state = .error := by
      rw [hd]
      cases call <;> cases res <;> simp [answeredDelivery]
    refine ⟨fun hnone => ?_, fun hsome => ?_⟩
    · rcases hstate with hsame | herror
      · rw [hsame]
        exact h.idle (hmod ▸ hnone)
      · exact Or.inr herror
    · rcases hstate with hsame | herror
      · rw [hsame]
        exact h.up (hmod ▸ hsome)
      · simp [herror]
  | nodeStarted success message =>
    obtain ⟨hm, -, -, -, hmod, -, -⟩ := step_nodeStarted hstep
    have hup := h.up hm
    refine ⟨fun hnone => by simp [hmod ▸ hnone] at hm, fun _ => ?_⟩
    cases hstarting : s.delivery.starting with
    | false => rwa [nodeStarted_of_not_starting hstarting hstep]
    | true =>
      rw [(nodeStarted_of_starting hstarting hstep).2]
      cases success <;> simp
  | connectionStateChanged text =>
    obtain ⟨hm, heq⟩ := step_connectionStateChanged hstep
    have hup := h.up hm
    have hmod : s'.world.module = s.world.module := by rw [heq]
    refine ⟨fun hnone => by simp [hmod ▸ hnone] at hm, fun _ => ?_⟩
    cases hstarted : s.delivery.started with
    | false => rwa [connectionStateChanged_of_not_started hstarted hstep]
    | true =>
      rw [connectionStateChanged_of_started hstarted hstep]
      simp only [mapConnectionStatus]
      split <;> simp

/-- A step whose change is conveyed. -/
theorem follows_of_conveys (h : w.copy.Agrees (status w.process.world.guarded))
    (hs : w.process.step hap = some s)
    (hconveys : Conveys w.process.world.guarded s.world.guarded) : CopyFollows w hap := by
  intro w' hstep
  obtain ⟨s', hs', rfl⟩ := Option.map_eq_some_iff.mp hstep
  obtain rfl : s = s' := Option.some.inj (hs.symm.trans hs')
  obtain ⟨events, hraised, hagrees⟩ := hconveys
  rw [show heardOf w.process s = events from since_eq events hraised]
  exact hagrees w.copy h

/-- A step that changes nothing. -/
theorem follows_of_same (h : w.copy.Agrees (status w.process.world.guarded))
    (hs : w.process.step hap = some s)
    (hsame : s.world.guarded = w.process.world.guarded) : CopyFollows w hap := by
  refine follows_of_conveys h hs ?_
  rw [hsame]
  exact .refl _

omit [MessageStore σ] in
theorem heardOf_of_raised {s s' : Deliveries σ}
    (hraised : s'.world.guarded.raised = s.world.guarded.raised) : heardOf s s' = [] :=
  since_eq [] (by rw [hraised, List.append_nil])

/-- The copy follows a step that raises nothing only if the delivery state stays. -/
theorem state_of_follows (h : w.copy.Agrees (status w.process.world.guarded))
    (hs : w.process.step hap = some s)
    (hraised : s.world.guarded.raised = w.process.world.guarded.raised)
    (hfollows : CopyFollows w hap) : w.process.delivery.state = s.delivery.state := by
  have hstep : (watched σ).step w hap =
      some ⟨s, w.copy.hearAll (heardOf w.process s)⟩ := by
    show w.step hap = _
    rw [Watched.step, hs, Option.map_some]
  have hagrees := (hfollows _ hstep).1.deliveryState
  rw [heardOf_of_raised hraised] at hagrees
  exact asStr_inj.mp (h.deliveryState.symm.trans hagrees)

/-- One step: the copy follows when the step is spoken of. -/
theorem follows_step_iff (h : w.copy.Agrees (status w.process.world.guarded))
    (hplaced : Placed w.process) (hstep : (watched σ).step w hap = some w') :
    CopyFollows w hap ↔ Spoken w.process hap := by
  obtain ⟨s', hs, rfl⟩ := Option.map_eq_some_iff.mp hstep
  cases hap with
  | init config env =>
    rcases step_init_cases hs with
      ⟨hm, g, ms, hinit, heq⟩ | ⟨hm, -, heq⟩ | ⟨hm, -, heq⟩ | ⟨-, hfail, heq⟩
    · -- nothing is raised, and what was displayed was not initialising
      obtain ⟨live, state, -, -, rfl⟩ := initializeModule_ok_iff.mp hinit
      refine iff_of_false ?_ ?_
      · intro hfollows
        have hstate : w.process.delivery.state = .initialising := by
          rw [state_of_follows h hs (by rw [heq]; rfl) hfollows, heq]
          rfl
        rcases hplaced.idle hm with hs | hs <;> simp [hstate] at hs
      · rintro (hsome | ⟨e, he⟩)
        · simp [hm] at hsome
        · rw [hinit] at he
          cases he
    · refine iff_of_true (follows_of_conveys h hs ?_) (Or.inl hm)
      rw [heq]
      exact conveys_claimDeliveryRetry _
    · refine iff_of_true (follows_of_same h hs ?_) (Or.inl hm)
      rw [heq]
    · refine iff_of_true (follows_of_same h hs ?_) (Or.inr hfail)
      rw [heq]
  | shutdown =>
    have heq : Actions.shutdown w.process.world = s'.world := by
      cases hs
      rfl
    cases hm : w.process.world.module with
    | none =>
      refine iff_of_true (follows_of_same h hs ?_) hm
      rw [← heq, shutdown_of_none hm]
    | some ms =>
      refine iff_of_false ?_ ?_
      · intro hfollows
        have hstate : w.process.delivery.state = .stopped := by
          rw [state_of_follows h hs (by rw [← heq, shutdown_raised]) hfollows,
            Deliveries.delivery, ← heq, shutdown_display (by simp [hm])]
          rfl
        exact hplaced.up (by simp [hm]) hstate
      · intro hnone
        simp [Spoken, hm] at hnone
  | answer i res =>
    obtain ⟨b, call, hcall, -, -, -, -, hworld, -⟩ := step_answer hs
    by_cases hjoins : ∃ preset reason, call = .getNodeInfo preset reason ∧ res = .ok ()
    · obtain ⟨preset, reason, rfl, rfl⟩ := hjoins
      have hsilent : heardOf w.process s' = [] := heardOf_of_raised (by
        rw [hworld]
        rfl)
      -- `adopted` is all of the status that changes
      have hstatus : status s'.world.guarded = { status w.process.world.guarded with
          deliveryAdopted := decide (w.process.world.ownNodePreset ≠ some preset) } := by
        rw [hworld]
        rfl
      have honline : (status w.process.world.guarded).deliveryState = "online" ↔
          w.process.delivery.state = .online := by
        show _ = DeliveryStateKind.asStr .online ↔ _
        exact asStr_inj
      constructor
      · intro hfollows b' preset' reason' hcall' _ hstate
        rw [hcall] at hcall'
        cases hcall'
        have hafter := (hfollows _ hstep).1.adopted
        simp only [hsilent, hstatus] at hafter
        exact (h.adopted (honline.mpr hstate)).symm.trans (hafter (honline.mpr hstate))
      · intro hspoken w'' hstep'
        rw [hstep] at hstep'
        cases hstep'
        simp only [hsilent, hstatus]
        refine ⟨⟨h.deliveryState, h.detail, ?_⟩, trivial⟩
        intro hnow
        exact (h.adopted hnow).trans (hspoken b preset reason hcall rfl (honline.mp hnow))
    · refine iff_of_true (follows_of_conveys h hs ?_) ?_
      · rw [hworld]
        refine conveys_answered ?_
        intro preset reason hcall' hok
        exact hjoins ⟨preset, reason, hcall', hok⟩
      · intro b' preset reason hcall' hok
        rw [hcall] at hcall'
        cases hcall'
        exact absurd ⟨preset, reason, rfl, hok⟩ hjoins
  | nodeStarted success message =>
    refine iff_of_true (follows_of_conveys h hs ?_) trivial
    simp only [Deliveries.step] at hs
    split at hs <;> cases hs
    exact conveys_recordNodeStarted _ _ _
  | connectionStateChanged text =>
    refine iff_of_true (follows_of_conveys h hs ?_) trivial
    rw [(step_connectionStateChanged hs).2]
    exact conveys_handleConnectionState _ _

/-- From the moment it reads the status on, whenever that is, a consumer's copy agrees
with the status after every step and no event repeats what the copy has, exactly when no
init installs a session, no shutdown ends one, and `delivery_adopted` is not changed while
delivery is online. -/
theorem copy_follows_iff {file : ChatDb σ} {own : Option String} {pre : List Happening}
    (hpre : (deliveries σ).Run (fun _ _ => True) (.start file own) pre s) :
    (watched σ).Run CopyFollows (.read s) haps w ↔
      (watched σ).Run (fun w hap => Spoken w.process hap) (.read s) haps w := by
  have hplaced : Placed s :=
    hpre.invariant (fun _ _ _ _ hs h => placed_step hs h)
      ⟨fun _ => Or.inl rfl, fun hm => nomatch hm⟩
  refine Machine.Run.congr
    (I := fun w => w.copy.Agrees (status w.process.world.guarded) ∧ Placed w.process) ?_ ?_ ?_
  · intro w hap w' h hstep
    exact follows_step_iff h.1 h.2 hstep
  · intro w hap w' hspoken hstep h
    refine ⟨((follows_step_iff h.1 h.2 hstep).mpr hspoken w' hstep).1, ?_⟩
    obtain ⟨s', hs, rfl⟩ := Option.map_eq_some_iff.mp hstep
    exact placed_step hs h.2
  · exact ⟨⟨rfl, rfl, fun _ => rfl⟩, hplaced⟩

end Steps

/-- The node starts, goes offline and comes back. -/
def reconnecting : List Happening := [
  .nodeStarted true "",
  .connectionStateChanged "Disconnected",
  .connectionStateChanged "Connected"]

theorem copy_follows_reconnecting : ∃ (s : Deliveries LogStore) (w : Watched LogStore),
    (deliveries LogStore).exec (.start Persistence.emptyDb none) [initUp] = some s ∧
      (watched LogStore).Run CopyFollows (.read s) (.answer 0 (.ok ()) :: reconnecting) w ∧
      w.copy = ⟨"online", "", false⟩ := by
  have hexec : ∃ (s : Deliveries LogStore) (w₁ w : Watched LogStore),
      (deliveries LogStore).exec (.start Persistence.emptyDb none) [initUp] = some s ∧
        (watched LogStore).step (.read s) (.answer 0 (.ok ())) = some w₁ ∧
        (watched LogStore).exec w₁ reconnecting = some w ∧
        s.calls[0]? = some (0, .createNode "logos.test") ∧ w.copy = ⟨"online", "", false⟩ :=
    ⟨_, _, _, rfl, rfl, rfl, rfl, rfl⟩
  obtain ⟨s, w₁, w, hinit, hanswer, hrest, hcall, hcopy⟩ := hexec
  have hcreated : Spoken s (.answer 0 (.ok ())) := by
    intro b preset reason hcall'
    rw [hcall] at hcall'
    cases hcall'
  have hspoken : ∀ hap ∈ reconnecting, ∀ w : Watched LogStore, True → Spoken w.process hap := by
    intro hap hmem w _
    simp only [reconnecting, List.mem_cons, List.not_mem_nil, or_false] at hmem
    rcases hmem with rfl | rfl | rfl <;> exact trivial
  refine ⟨s, w, hinit, ?_, hcopy⟩
  rw [copy_follows_iff (Machine.run_of_exec hinit)]
  exact .cons hcreated hanswer ((Machine.run_of_exec hrest).imp hspoken)

/-- A consumer that has read the status before init is not told of it, and one that has
read it online is not told of a shutdown. -/
theorem unspoken_init_and_shutdown :
    (∃ w : Watched LogStore, (watched LogStore).exec (.read (.start Persistence.emptyDb none))
        [initUp] = some w ∧ w.copy.deliveryState = "stopped" ∧
      (status w.process.world.guarded).deliveryState = "initialising") ∧
    ∃ (s : Deliveries LogStore) (w : Watched LogStore),
      (deliveries LogStore).exec (.start Persistence.emptyDb none)
        [initUp, .answer 0 (.ok ()), .nodeStarted true ""] = some s ∧
      (watched LogStore).exec (.read s) [.shutdown] = some w ∧ w.copy.deliveryState = "online" ∧
      (status w.process.world.guarded).deliveryState = "stopped" :=
  ⟨⟨_, rfl, rfl, rfl⟩, ⟨_, _, rfl, rfl, rfl, rfl⟩⟩

end ChatModule
