import ChatModule.Module

/-!
# Delivery: bootstrap and node start

A bootstrap is a chain of asynchronous calls to delivery_module: `createNode`,
then `start`, or `getNodeInfo` and then `start` when `createNode` is refused. Each
call returns at once; its answer arrives later, in a callback that knows what it
captured when the call was made (`Pending`) and nothing about what has happened
since. The callback writes the display and may make the next call of the chain.

An answer is what `delivery_outcome` makes of delivery_module's result: success,
or the reason it gave.

Of what the display lock guards, every function here changes the delivery state
and the events raised, nothing else; each has one lemma that gives the new
`DeliveryState` from the old one.
-/

namespace ChatModule.Actions

variable {σ : Type}

/-- Update delivery state and emit a plugin event. No-op if `state` and `detail`
match the current ones. -/
def setDeliveryState (state : DeliveryStateKind) (detail : String) (g : Guarded σ) : Guarded σ :=
  let ds := g.display.deliveryState
  if ds.state = state ∧ ds.detail = detail then g
  else
    (g.setDelivery { ds with state := state, detail := detail }).emit
      (.deliveryStateChanged state.asStr detail ds.adopted)

/-- Record delivery's `nodeStarted` as the outcome of the start this init
dispatched. One this init is not waiting for is ignored. -/
def recordNodeStarted (success : Bool) (message : String) (g : Guarded σ) : Guarded σ :=
  let ds := g.display.deliveryState
  -- another consumer's start, or one answered Err already
  if !ds.starting then g
  else if success then
    setDeliveryState .online "" (g.setDelivery { ds with starting := false, started := true })
  else
    setDeliveryState .error ("delivery_module.start failed: " ++ message)
      (g.setDelivery { ds with starting := false })

/-- Whether to run the bootstrap again: true once for a bootstrap that failed
before the node started, which moves delivery_state back to initialising. -/
def claimDeliveryRetry (g : Guarded σ) : Guarded σ × Bool :=
  let ds := g.display.deliveryState
  -- once started, connectivity alone moves the state
  if ds.state ≠ .error ∨ ds.started then (g, false)
  else (setDeliveryState .initialising "" g, true)

/-! ## The bootstrap chain -/

/-- A call made to delivery_module, with what its callback captured. -/
inductive Pending
  | createNode (preset : String)
  | getNodeInfo (preset reason : String)
  | start
deriving DecidableEq, Repr

/-- What `delivery_outcome` makes of an answer; the value of a success is not
read. -/
abbrev Answer := Except String Unit

/-- `start_delivery_bootstrap`: call `createNode`. -/
def startDeliveryBootstrap (preset : String) : Pending := .createNode preset

/-- `start_node`: await the node's start, then call `start`. -/
def startNode (w : World σ) : World σ × Pending :=
  let ds := w.guarded.display.deliveryState
  ({ w with guarded := w.guarded.setDelivery { ds with starting := true } }, .start)

/-- The callback of `createNode`: start the node, or look for the existing one. -/
def createNodeAnswered (preset : String) (res : Answer) (w : World σ) : World σ × Option Pending :=
  match res with
  | .ok () =>
    -- the node is this process's own; `adopted` is left as it is
    let (w, call) := startNode { w with ownNodePreset := some preset }
    (w, some call)
  | .error reason => (w, some (.getNodeInfo preset reason))

/-- The callback of `join_existing_node`: start the node that exists, adopted
unless this process created it with `preset`, or fail with createNode's reason. -/
def nodeInfoAnswered (preset reason : String) (res : Answer) (w : World σ) :
    World σ × Option Pending :=
  match res with
  | .ok () =>
    let adopted : Bool := w.ownNodePreset ≠ some preset
    let ds := w.guarded.display.deliveryState
    let g := w.guarded.setDelivery { ds with adopted := adopted }
    let (w, call) := startNode { w with guarded := g }
    (w, some call)
  | .error _ =>
    let g := setDeliveryState .error ("delivery_module.createNode failed: " ++ reason) w.guarded
    ({ w with guarded := g }, none)

/-- The callback of `start`. -/
def startAnswered (res : Answer) (w : World σ) : World σ × Option Pending :=
  match res with
  -- an accepted start is reported by `nodeStarted`
  | .ok () => (w, none)
  | .error e =>
    -- written whether or not this start is still awaited
    let ds := w.guarded.display.deliveryState
    let g := setDeliveryState .error ("delivery_module.start failed: " ++ e)
      (w.guarded.setDelivery { ds with starting := false })
    ({ w with guarded := g }, none)

/-- What the answer to a call does, and the call its callback makes next. -/
def answered (call : Pending) (res : Answer) (w : World σ) : World σ × Option Pending :=
  match call with
  | .createNode preset => createNodeAnswered preset res w
  | .getNodeInfo preset reason => nodeInfoAnswered preset reason res w
  | .start => startAnswered res w

/-! ## The next delivery state -/

section Delivery

variable (g : Guarded σ)

@[simp] theorem setDeliveryState_delivery (k : DeliveryStateKind) (d : String) :
    (setDeliveryState k d g).display.deliveryState =
      { g.display.deliveryState with state := k, detail := d } := by
  unfold setDeliveryState
  by_cases h : g.display.deliveryState.state = k ∧ g.display.deliveryState.detail = d
  · obtain ⟨rfl, rfl⟩ := h
    simp
  · simp [h]

theorem recordNodeStarted_delivery (success : Bool) (message : String) :
    (recordNodeStarted success message g).display.deliveryState =
      if !g.display.deliveryState.starting then g.display.deliveryState
      else if success then
        { g.display.deliveryState with
          starting := false, started := true, state := .online, detail := "" }
      else
        { g.display.deliveryState with
          starting := false, state := .error
          detail := "delivery_module.start failed: " ++ message } := by
  unfold recordNodeStarted
  cases h : g.display.deliveryState.starting with
  | false => simp [h]
  | true => cases success <;> simp [h]

/-- A `nodeStarted` nothing is waiting for changes nothing. -/
theorem recordNodeStarted_of_not_starting {g : Guarded σ} {success : Bool} {message : String}
    (h : g.display.deliveryState.starting = false) : recordNodeStarted success message g = g := by
  simp [recordNodeStarted, h]

theorem claimDeliveryRetry_true_iff :
    (claimDeliveryRetry g).2 = true ↔
      g.display.deliveryState.state = .error ∧ g.display.deliveryState.started = false := by
  unfold claimDeliveryRetry
  by_cases hs : g.display.deliveryState.state = .error
  · cases hd : g.display.deliveryState.started <;> simp [hs, hd]
  · simp [hs]

theorem claimDeliveryRetry_delivery :
    (claimDeliveryRetry g).1.display.deliveryState =
      if (claimDeliveryRetry g).2 then
        { g.display.deliveryState with state := .initialising, detail := "" }
      else g.display.deliveryState := by
  unfold claimDeliveryRetry
  by_cases h : g.display.deliveryState.state ≠ .error ∨ g.display.deliveryState.started = true
  · simp only [if_pos h]
    rfl
  · simp [if_neg h]

/-- A retry that is not claimed changes nothing. -/
theorem claimDeliveryRetry_of_false {g : Guarded σ} (h : (claimDeliveryRetry g).2 = false) :
    (claimDeliveryRetry g).1 = g := by
  unfold claimDeliveryRetry at h ⊢
  by_cases hc : g.display.deliveryState.state ≠ .error ∨ g.display.deliveryState.started = true
  · simp [if_pos hc]
  · simp [if_neg hc] at h

/-- A claimed retry shows another delivery state and nothing else. -/
theorem claimDeliveryRetry_state :
    (claimDeliveryRetry g).1.display.state = g.display.state ∧
      (claimDeliveryRetry g).1.display.chatDb = g.display.chatDb := by
  unfold claimDeliveryRetry setDeliveryState
  simp only
  split
  · exact ⟨rfl, rfl⟩
  · split <;> exact ⟨rfl, rfl⟩

end Delivery

/-- What an answer makes of the delivery state it finds. -/
def answeredDelivery (call : Pending) (res : Answer) (own : Option String) (ds : DeliveryState) :
    DeliveryState :=
  match call, res with
  | .createNode _, .ok () => { ds with starting := true }
  | .createNode _, .error _ => ds
  | .getNodeInfo preset _, .ok () => { ds with adopted := own ≠ some preset, starting := true }
  | .getNodeInfo _ reason, .error _ =>
    { ds with state := .error, detail := "delivery_module.createNode failed: " ++ reason }
  | .start, .ok () => ds
  | .start, .error e =>
    { ds with starting := false, state := .error, detail := "delivery_module.start failed: " ++ e }

theorem answered_delivery (call : Pending) (res : Answer) (w : World σ) :
    (answered call res w).1.guarded.display.deliveryState =
      answeredDelivery call res w.ownNodePreset w.guarded.display.deliveryState := by
  cases call with
  | createNode preset => cases res <;> rfl
  | getNodeInfo preset reason =>
    cases res with
    | ok u => rfl
    | error e => exact setDeliveryState_delivery _ _ _
  | start =>
    cases res with
    | ok u => rfl
    | error e => exact setDeliveryState_delivery _ _ _

/-- The call a callback makes next. -/
theorem answered_next (call : Pending) (res : Answer) (w : World σ) :
    (answered call res w).2 = match call, res with
      | .createNode _, .ok () => some .start
      | .createNode preset, .error reason => some (.getNodeInfo preset reason)
      | .getNodeInfo _ _, .ok () => some .start
      | _, _ => none := by
  cases call <;> cases res <;> rfl

@[simp] theorem answered_module (call : Pending) (res : Answer) (w : World σ) :
    (answered call res w).1.module = w.module := by
  cases call <;> cases res <;> rfl

end ChatModule.Actions
