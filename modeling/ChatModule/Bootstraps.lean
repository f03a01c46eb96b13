import ChatModule.Handshake
import ChatModule.Sessions

/-!
# Bootstraps one after the other

When a session begins a bootstrap only once the ones before it are concluded, the
calls that are due are easy to survey: at most one is a `createNode` or a
`getNodeInfo`, it is the last bootstrap's, and every other is a `start`, which may be
answered long after its bootstrap is concluded. `Chained` is that invariant; it
leaves open what keeps the bootstraps apart.

The session may be any of a run. Calls made before it may still be answered, as long
as the answers do not reach its delivery state (`Undisturbed`).
-/

namespace ChatModule

open Actions Inbound

variable {σ : Type}

/-! ## Numbers -/

/-- What every run keeps of the numbering. -/
structure Numbered (s : Deliveries σ) : Prop where
  /-- A call that is due belongs to a bootstrap that has begun. -/
  due : ∀ c ∈ s.calls, c.1 < s.begun
  /-- A bootstrap belongs to a session that has begun. -/
  sessions : ∀ b, b < s.begun → (s.boot b).session ≤ s.sessions

section Numbered

variable {s s' : Deliveries σ}

theorem numbered_start (file : ChatDb σ) (own : Option String) :
    Numbered (Deliveries.start file own) :=
  ⟨fun c h => by simp [Deliveries.start] at h, fun b h => by simp [Deliveries.start] at h⟩

theorem begin_boot_of_lt {preset : String} {call : Pending} {b : ℕ} (h : b < s.begun) :
    (s.begin preset call).boot b = s.boot b :=
  Function.update_of_ne (by omega) _ _

theorem begin_boot_self {preset : String} {call : Pending} :
    (s.begin preset call).boot s.begun = .begun s.sessions preset :=
  Function.update_self _ _ _

theorem begin_boot_last {preset : String} {call : Pending} {b : ℕ}
    (h : b + 1 = (s.begin preset call).begun) :
    (s.begin preset call).boot b = .begun s.sessions preset := by
  change b + 1 = s.begun + 1 at h
  obtain rfl : b = s.begun := by omega
  exact begin_boot_self

theorem mem_begin_calls {preset : String} {call : Pending} {c : ℕ × Pending} :
    c ∈ (s.begin preset call).calls ↔ c ∈ s.calls ∨ c = (s.begun, call) := by
  simp [Deliveries.begin]

theorem Numbered.begin (h : Numbered s) (preset : String) (call : Pending) :
    Numbered (s.begin preset call) where
  due := by
    intro c hc
    change c.1 < s.begun + 1
    rcases mem_begin_calls.mp hc with hc | rfl
    · have := h.due c hc
      omega
    · exact Nat.lt_succ_self _
  sessions := by
    intro b hb
    change b < s.begun + 1 at hb
    change _ ≤ s.sessions
    rcases Nat.lt_or_ge b s.begun with hlt | hge
    · rw [begin_boot_of_lt hlt]
      exact h.sessions b hlt
    · obtain rfl : b = s.begun := by omega
      rw [begin_boot_self]
      exact le_refl _

/-- The numbering reads the calls and the sessions of the bootstraps. -/
theorem Numbered.congr (h : Numbered s) (hcalls : ∀ c ∈ s'.calls, c.1 < s.begun)
    (hbegun : s'.begun = s.begun) (hsession : ∀ b, (s'.boot b).session = (s.boot b).session)
    (hsessions : s.sessions ≤ s'.sessions) : Numbered s' where
  due := by
    rw [hbegun]
    exact hcalls
  sessions := by
    rw [hbegun]
    intro b hb
    rw [hsession]
    exact (h.sessions b hb).trans hsessions

end Numbered

/-- The `i`-th call, which bootstrap `b` made, is answered: that makes `boot'` of the
bootstrap, which may make the next call. -/
structure Answers (s s' : Deliveries σ) (i b : ℕ) (call : Pending) (boot' : Boot)
    (next : Option Pending) : Prop where
  call : s.calls[i]? = some (b, call)
  calls : s'.calls = s.calls.eraseIdx i ++ (next.map (b, ·)).toList
  boot : s'.boot = Function.update s.boot b boot'
  session : boot'.session = (s.boot b).session
  begun : s'.begun = s.begun
  sessions : s'.sessions = s.sessions

section Answers

variable {s s' : Deliveries σ} {i b : ℕ} {call : Pending} {boot' : Boot} {next : Option Pending}

theorem Answers.mem (h : Answers s s' i b call boot' next) : (b, call) ∈ s.calls :=
  List.mem_of_getElem? h.call

theorem Answers.boot_self (h : Answers s s' i b call boot' next) : s'.boot b = boot' := by
  rw [h.boot, Function.update_self]

theorem Answers.boot_of_ne (h : Answers s s' i b call boot' next) {b' : ℕ} (hne : b' ≠ b) :
    s'.boot b' = s.boot b' := by
  rw [h.boot, Function.update_of_ne hne]

theorem Answers.session_boot (h : Answers s s' i b call boot' next) (b' : ℕ) :
    (s'.boot b').session = (s.boot b').session := by
  by_cases hne : b' = b
  · subst hne
    rw [h.boot_self, h.session]
  · rw [h.boot_of_ne hne]

theorem Answers.stale_iff (h : Answers s s' i b call boot' next) (b' : ℕ) :
    s'.Stale b' ↔ s.Stale b' := by
  unfold Deliveries.Stale
  rw [h.session_boot, h.sessions]

/-- Away from the bootstrap that is answered nothing becomes unconcluded. -/
theorem Answers.unconcluded {i b b' : ℕ} {call : Pending} {boot' : Boot} {next : Option Pending}
    (ha : Answers s s' i b call boot' next) (hne : b' ≠ b) (hb' : s'.Unconcluded b') :
    s.Unconcluded b' := by
  obtain ⟨hlt, hown, hphase⟩ := hb'
  rw [ha.begun] at hlt
  rw [ha.stale_iff] at hown
  rw [ha.boot_of_ne hne] at hphase
  exact ⟨hlt, hown, hphase⟩

/-- What is due afterwards was due, or is the next call. -/
theorem Answers.mem_calls (h : Answers s s' i b call boot' next) {c : ℕ × Pending}
    (hc : c ∈ s'.calls) : c ∈ s.calls.eraseIdx i ∨ (c.1 = b ∧ next = some c.2) := by
  rw [h.calls, List.mem_append] at hc
  rcases hc with hc | hc
  · exact Or.inl hc
  · obtain ⟨call', hcall', rfl⟩ : ∃ call', next = some call' ∧ (b, call') = c := by
      simpa [Option.map_eq_some_iff] using hc
    exact Or.inr ⟨rfl, hcall'⟩

theorem Answers.numbered (h : Answers s s' i b call boot' next) (hn : Numbered s) :
    Numbered s' := by
  refine hn.congr ?_ h.begun h.session_boot (le_of_eq h.sessions.symm)
  intro c hc
  rcases h.mem_calls hc with hc | ⟨hb, -⟩
  · exact hn.due c (List.mem_of_mem_eraseIdx hc)
  · rw [hb]
    exact hn.due _ h.mem

end Answers

section NumberedRuns

variable [MessageStore σ] {s s' : Deliveries σ} {hap : Happening}

theorem step_answers {i : ℕ} {res : Answer}
    (hstep : (deliveries σ).step s (.answer i res) = some s') :
    ∃ b call, Answers s s' i b call ((s.boot b).answered call res s.world.ownNodePreset)
        (answered call res s.world).2 ∧
      s'.delivery = answeredDelivery call res s.world.ownNodePreset s.delivery := by
  obtain ⟨b, call, hcall, hcalls, hboot, hbegun, hsessions, -, hd⟩ := step_answer hstep
  exact ⟨b, call, ⟨hcall, hcalls, hboot, Boot.session_answered _ _ _ _, hbegun, hsessions⟩, hd⟩

theorem numbered_step (hstep : (deliveries σ).step s hap = some s') (h : Numbered s) :
    Numbered s' := by
  cases hap with
  | init config env =>
    rcases step_init_cases hstep with ⟨-, g, ms, -, heq⟩ | ⟨-, -, heq⟩ | ⟨-, -, heq⟩ | ⟨-, -, heq⟩
    · rw [heq]
      apply Numbered.begin
      exact h.congr h.due rfl (fun _ => rfl) (Nat.le_succ _)
    · rw [heq]
      apply Numbered.begin
      exact h.congr h.due rfl (fun _ => rfl) (le_refl _)
    · rwa [heq]
    · rwa [heq]
  | shutdown =>
    cases hstep
    exact h.congr h.due rfl (fun _ => rfl) (le_refl _)
  | answer i res =>
    obtain ⟨b, call, ha, -⟩ := step_answers hstep
    exact ha.numbered h
  | nodeStarted success message =>
    obtain ⟨-, hcalls, hbegun, hsessions, -, hboot, -⟩ := step_nodeStarted hstep
    refine h.congr (hcalls ▸ h.due) hbegun ?_ (le_of_eq hsessions.symm)
    intro b
    rw [hboot]
    split <;> simp
  | connectionStateChanged status =>
    rw [(step_connectionStateChanged hstep).2]
    exact h.congr h.due rfl (fun _ => rfl) (le_refl _)

theorem numbered_run {file : ChatDb σ} {own : Option String} {haps : List Happening}
    {P : Deliveries σ → Happening → Prop} (hrun : (deliveries σ).Run P (.start file own) haps s) :
    Numbered s :=
  hrun.invariant (fun _ _ _ _ hstep h => numbered_step hstep h) (numbered_start file own)

end NumberedRuns

/-! ## One bootstrap at a time -/

/-- A call a bootstrap of the session makes before its start; the session's first
bootstrap is `first`. -/
def isSetup (first : ℕ) (c : ℕ × Pending) : Bool := first ≤ c.1 ∧ c.2 ≠ .start

/-- The call a bootstrap waits for before its start. -/
def Boot.Expects (boot : Boot) : Pending → Prop
  | .createNode preset => preset = boot.preset ∧ boot.phase = .creating
  | .getNodeInfo preset _ => preset = boot.preset ∧ boot.phase = .joining
  | .start => False

/-- The bootstraps of a session, from `first` on, one at a time. -/
structure Chained (first : ℕ) (s : Deliveries σ) : Prop where
  le : first ≤ s.begun
  numbered : Numbered s
  stale : ∀ b, b < s.begun → (s.Stale b ↔ b < first)
  /-- Only the last bootstrap may be under way. -/
  earlier : ∀ b, first ≤ b → b + 1 < s.begun → (s.boot b).phase = .concluded
  /-- One call at most is due before a start. -/
  setup : s.calls.countP (isSetup first) ≤ 1
  /-- It is the last bootstrap's. -/
  expects : ∀ c ∈ s.calls, isSetup first c = true →
    c.1 + 1 = s.begun ∧ (s.boot c.1).Expects c.2
  /-- A bootstrap whose start is due has dispatched it. -/
  starts : ∀ b, first ≤ b → (b, .start) ∈ s.calls →
    (s.boot b).phase = .starting ∨ (s.boot b).phase = .concluded
  /-- A bootstrap that dispatched its start has its node. -/
  origin : ∀ b, first ≤ b → b < s.begun → (s.boot b).phase = .starting →
    (s.boot b).origin.isSome
  /-- A start that is awaited is the last bootstrap's. -/
  awaited : s.delivery.starting = true →
    ∃ b, first ≤ b ∧ b + 1 = s.begun ∧ (s.boot b).phase = .starting

theorem isSetup_iff {first : ℕ} {c : ℕ × Pending} :
    isSetup first c = true ↔ first ≤ c.1 ∧ c.2 ≠ .start := by
  simp [isSetup]

theorem Boot.Expects.waits {boot : Boot} {call : Pending} (h : boot.Expects call) :
    boot.phase ≠ .starting ∧ boot.phase ≠ .concluded := by
  cases call with
  | createNode preset => simp [h.2]
  | getNodeInfo preset reason => simp [h.2]
  | start => exact h.elim

section Chained

variable {first : ℕ} {s s' : Deliveries σ} {i b : ℕ} {call : Pending} {boot' : Boot}
  {next : Option Pending}

theorem Chained.unconcluded_iff (h : Chained first s) :
    s.Unconcluded b ↔ first ≤ b ∧ b < s.begun ∧ (s.boot b).phase ≠ .concluded := by
  unfold Deliveries.Unconcluded
  constructor
  · rintro ⟨hb, hown, hphase⟩
    rw [h.stale b hb] at hown
    exact ⟨by omega, hb, hphase⟩
  · rintro ⟨hfirst, hb, hphase⟩
    rw [h.stale b hb]
    exact ⟨hb, by omega, hphase⟩

/-- Only the last bootstrap can be unconcluded. -/
theorem Chained.last (h : Chained first s) (hb : s.Unconcluded b) : b + 1 = s.begun := by
  obtain ⟨hfirst, hlt, hphase⟩ := h.unconcluded_iff.mp hb
  by_contra hne
  exact hphase (h.earlier b hfirst (by omega))

/-- A bootstrap that waits for a call before its start is unconcluded. -/
theorem Chained.unconcluded_of_setup (h : Chained first s) {c : ℕ × Pending} (hc : c ∈ s.calls)
    (hs : isSetup first c = true) : s.Unconcluded c.1 := by
  obtain ⟨-, hexp⟩ := h.expects c hc hs
  exact h.unconcluded_iff.mpr ⟨(isSetup_iff.mp hs).1, h.numbered.due c hc, hexp.waits.2⟩

/-- A start that is awaited is an unconcluded bootstrap's. -/
theorem Chained.unconcluded_of_starting (h : Chained first s)
    (hs : s.delivery.starting = true) :
    ∃ b, s.Unconcluded b ∧ (s.boot b).phase = .starting := by
  obtain ⟨b, hfirst, hb, hphase⟩ := h.awaited hs
  exact ⟨b, h.unconcluded_iff.mpr ⟨hfirst, by omega, by simp [hphase]⟩, hphase⟩

/-- A bootstrap begins. -/
theorem Chained.begin {w : World σ} {preset : String} (h : Chained first s)
    (hall : ∀ b, ¬ s.Unconcluded b)
    (hd : w.guarded.display.deliveryState.starting = true → s.delivery.starting = true) :
    Chained first ({ s with world := w }.begin preset (startDeliveryBootstrap preset)) := by
  have hold : ∀ b, b < s.begun →
      ({ s with world := w }.begin preset (startDeliveryBootstrap preset)).boot b = s.boot b :=
    fun b hb => begin_boot_of_lt hb
  have hself : ({ s with world := w }.begin preset (startDeliveryBootstrap preset)).boot s.begun =
      .begun s.sessions preset := begin_boot_self
  have hnone : ∀ c ∈ s.calls, ¬ isSetup first c = true :=
    fun c hc hs => hall c.1 (h.unconcluded_of_setup hc hs)
  constructor
  · exact h.le.trans (Nat.le_succ _)
  · apply Numbered.begin
    exact h.numbered.congr h.numbered.due rfl (fun _ => rfl) (le_refl _)
  · intro b hb
    change b < s.begun + 1 at hb
    unfold Deliveries.Stale
    rcases Nat.lt_or_ge b s.begun with hlt | hge
    · rw [hold b hlt]
      exact h.stale b hlt
    · obtain rfl : b = s.begun := by omega
      rw [hself]
      simp [Boot.begun, Deliveries.begin, h.le]
  · intro b hb hlt
    change b + 1 < s.begun + 1 at hlt
    rw [hold b (by omega)]
    by_contra hne
    exact hall b (h.unconcluded_iff.mpr ⟨hb, by omega, hne⟩)
  · have hzero := List.countP_eq_zero.mpr hnone
    simpa [Deliveries.begin, List.countP_append, hzero] using
      List.countP_le_length (p := isSetup first) (l := [(s.begun, startDeliveryBootstrap preset)])
  · intro c hc hs
    rcases mem_begin_calls.mp hc with hc | rfl
    · exact absurd hs (hnone c hc)
    · refine ⟨rfl, ?_⟩
      rw [hself]
      exact ⟨rfl, rfl⟩
  · intro b hb hc
    rcases mem_begin_calls.mp hc with hc | hc
    · rw [hold b (h.numbered.due _ hc)]
      exact h.starts b hb hc
    · cases hc
  · intro b hb hlt hphase
    change b < s.begun + 1 at hlt
    rcases Nat.lt_or_ge b s.begun with hlt | hge
    · rw [hold b hlt] at hphase ⊢
      exact h.origin b hb hlt hphase
    · obtain rfl : b = s.begun := by omega
      rw [hself] at hphase
      cases hphase
  · intro hs
    obtain ⟨b, hb, -⟩ := h.unconcluded_of_starting (hd hs)
    exact absurd hb (hall b)

/-- A bootstrap's call before its start is answered: it dispatches its start, or makes
the other such call, or concludes. -/
theorem Chained.setupAnswered (h : Chained first s) (ha : Answers s s' i b call boot' next)
    (hs : isSetup first (b, call) = true)
    (hnext : (next = some .start ∧ boot'.phase = .starting ∧ boot'.origin.isSome) ∨
      (s'.delivery.starting = s.delivery.starting ∧ boot'.phase ≠ .starting ∧
        ∀ call', next = some call' → boot'.Expects call')) :
    Chained first s' := by
  obtain ⟨hlast, hexp⟩ := h.expects _ ha.mem hs
  have hfirst : first ≤ b := (isSetup_iff.mp hs).1
  -- what is left are starts of the session and calls of earlier ones
  have hrest : (s.calls.eraseIdx i).countP (isSetup first) = 0 := by
    have hcount := List.countP_eraseIdx (isSetup first) ha.call
    rw [if_pos hs] at hcount
    have := h.setup
    omega
  constructor
  · rw [ha.begun]
    exact h.le
  · exact ha.numbered h.numbered
  · intro b' hb'
    rw [ha.begun] at hb'
    rw [ha.stale_iff]
    exact h.stale b' hb'
  · intro b' hb' hlt
    rw [ha.begun] at hlt
    rw [ha.boot_of_ne (by omega)]
    exact h.earlier b' hb' hlt
  · rw [ha.calls, List.countP_append, hrest]
    cases next with
    | none => simp
    | some call' =>
      simpa using List.countP_le_length (p := isSetup first) (l := [(b, call')])
  · intro c hc hsc
    rcases ha.mem_calls hc with hc | ⟨rfl, hcall'⟩
    · exact absurd hsc (List.countP_eq_zero.mp hrest c hc)
    · refine ⟨by rw [ha.begun]; exact hlast, ?_⟩
      rw [ha.boot_self]
      rcases hnext with ⟨hstart, -, -⟩ | ⟨-, -, hexp'⟩
      · rw [hstart, Option.some_inj] at hcall'
        exact absurd hcall'.symm (isSetup_iff.mp hsc).2
      · exact hexp' c.2 hcall'
  · intro b' hb' hc
    rcases ha.mem_calls hc with hc | ⟨rfl, hcall'⟩
    · have hphase := h.starts b' hb' (List.mem_of_mem_eraseIdx hc)
      have hne : b' ≠ b := by
        rintro rfl
        rcases hphase with hphase | hphase
        · exact hexp.waits.1 hphase
        · exact hexp.waits.2 hphase
      rwa [ha.boot_of_ne hne]
    · rw [ha.boot_self]
      rcases hnext with ⟨-, hphase, -⟩ | ⟨-, -, hexp'⟩
      · exact Or.inl hphase
      · exact (hexp' _ hcall').elim
  · intro b' hb' hlt hphase
    rw [ha.begun] at hlt
    by_cases hne : b' = b
    · subst hne
      rw [ha.boot_self] at hphase ⊢
      rcases hnext with ⟨-, -, horigin⟩ | ⟨-, hphase', -⟩
      · exact horigin
      · exact absurd hphase hphase'
    · rw [ha.boot_of_ne hne] at hphase ⊢
      exact h.origin b' hb' hlt hphase
  · intro hst
    rcases hnext with ⟨-, hphase, -⟩ | ⟨hsame, -, -⟩
    · exact ⟨b, hfirst, by rw [ha.begun]; exact hlast, by rw [ha.boot_self]; exact hphase⟩
    · -- the last bootstrap has not dispatched its start
      rw [hsame] at hst
      obtain ⟨b', -, hb', hphase⟩ := h.awaited hst
      obtain rfl : b' = b := by
        simp only at hlast
        omega
      exact absurd hphase hexp.waits.1

/-- A step that makes no call and at most concludes bootstraps that have dispatched
their start. -/
theorem Chained.shrink (h : Chained first s) (hnumbered : Numbered s')
    (hbegun : s'.begun = s.begun) (hstale : ∀ b, s'.Stale b ↔ s.Stale b)
    (hcalls : ∀ c ∈ s'.calls, first ≤ c.1 → c ∈ s.calls)
    (hcount : s'.calls.countP (isSetup first) ≤ s.calls.countP (isSetup first))
    (hboot : ∀ b, first ≤ b → s'.boot b = s.boot b ∨
      (((s.boot b).phase = .starting ∨ (s.boot b).phase = .concluded) ∧
        (s'.boot b).phase = .concluded))
    (hst : s'.delivery.starting = true →
      s.delivery.starting = true ∧ ∀ b, first ≤ b → s'.boot b = s.boot b) :
    Chained first s' where
  le := hbegun ▸ h.le
  numbered := hnumbered
  stale := by
    intro b hb
    rw [hbegun] at hb
    rw [hstale]
    exact h.stale b hb
  earlier := by
    intro b hb hlt
    rw [hbegun] at hlt
    rcases hboot b hb with heq | ⟨-, hphase⟩
    · rw [heq]
      exact h.earlier b hb hlt
    · exact hphase
  setup := hcount.trans h.setup
  expects := by
    intro c hc hs
    have hfirst := (isSetup_iff.mp hs).1
    obtain ⟨hlast, hexp⟩ := h.expects c (hcalls c hc hfirst) hs
    rcases hboot c.1 hfirst with heq | ⟨hphase | hphase, -⟩
    · rw [heq, hbegun]
      exact ⟨hlast, hexp⟩
    · exact absurd hphase hexp.waits.1
    · exact absurd hphase hexp.waits.2
  starts := by
    intro b hb hc
    rcases hboot b hb with heq | ⟨-, hphase⟩
    · rw [heq]
      exact h.starts b hb (hcalls _ hc hb)
    · exact Or.inr hphase
  origin := by
    intro b hb hlt hphase
    rw [hbegun] at hlt
    rcases hboot b hb with heq | ⟨-, hphase'⟩
    · rw [heq] at hphase ⊢
      exact h.origin b hb hlt hphase
    · rw [hphase'] at hphase
      cases hphase
  awaited := by
    intro hs
    obtain ⟨hs', hsame⟩ := hst hs
    obtain ⟨b, hb, hlast, hphase⟩ := h.awaited hs'
    exact ⟨b, hb, by rw [hbegun]; exact hlast, by rw [hsame b hb]; exact hphase⟩

/-- Answering a call before its start is all that adds one. -/
theorem Answers.count_le (ha : Answers s s' i b call boot' next)
    (hnext : ∀ call', next = some call' → ¬ isSetup first (b, call') = true) :
    s'.calls.countP (isSetup first) ≤ s.calls.countP (isSetup first) := by
  have herase : (s.calls.eraseIdx i).countP (isSetup first) ≤ s.calls.countP (isSetup first) :=
    (List.eraseIdx_sublist s.calls i).countP_le
  rw [ha.calls, List.countP_append]
  cases next with
  | none => simpa using herase
  | some call' =>
    have hno := hnext call' rfl
    simpa [List.countP_cons, hno] using herase

/-- A call of an earlier session is answered, unnoticed. -/
theorem Chained.staleAnswered (h : Chained first s) (ha : Answers s s' i b call boot' next)
    (hb : b < first) (hd : s'.delivery = s.delivery) : Chained first s' := by
  have hsame : ∀ b', first ≤ b' → s'.boot b' = s.boot b' :=
    fun b' hb' => ha.boot_of_ne (by omega)
  refine h.shrink (ha.numbered h.numbered) ha.begun ha.stale_iff ?_ (ha.count_le ?_)
    (fun b' hb' => Or.inl (hsame b' hb')) (by rw [hd]; exact fun hs => ⟨hs, hsame⟩)
  · intro c hc hfirst
    rcases ha.mem_calls hc with hc | ⟨rfl, -⟩
    · exact List.mem_of_mem_eraseIdx hc
    · omega
  · intro call' _ hs
    have := (isSetup_iff.mp hs).1
    simp only at this
    omega

/-- A start is answered: Ok changes nothing, Err concludes its bootstrap and ends any
wait. -/
theorem Chained.startAnswered (h : Chained first s) (ha : Answers s s' i b .start boot' none)
    (hb : first ≤ b)
    (hnext : (boot' = s.boot b ∧ s'.delivery.starting = s.delivery.starting) ∨
      (boot'.phase = .concluded ∧ s'.delivery.starting = false)) :
    Chained first s' := by
  refine h.shrink (ha.numbered h.numbered) ha.begun ha.stale_iff ?_ (ha.count_le ?_) ?_ ?_
  · intro c hc _
    rcases ha.mem_calls hc with hc | ⟨-, hnone⟩
    · exact List.mem_of_mem_eraseIdx hc
    · cases hnone
  · exact fun call' hnone => nomatch hnone
  · intro b' hb'
    by_cases hne : b' = b
    · subst hne
      rw [ha.boot_self]
      rcases hnext with ⟨heq, -⟩ | ⟨hphase, -⟩
      · exact Or.inl heq
      · exact Or.inr ⟨h.starts b' hb ha.mem, hphase⟩
    · exact Or.inl (ha.boot_of_ne hne)
  · intro hs
    rcases hnext with ⟨heq, hst⟩ | ⟨-, hfalse⟩
    · rw [hst] at hs
      refine ⟨hs, fun b' _ => ?_⟩
      rw [ha.boot, heq, Function.update_eq_self]
    · rw [hfalse] at hs
      cases hs

/-- The starts that were awaited are concluded. -/
theorem Chained.accepted (h : Chained first s) (hnumbered : Numbered s')
    (hcalls : s'.calls = s.calls) (hboot : s'.boot = fun b => (s.boot b).accepted)
    (hbegun : s'.begun = s.begun) (hsessions : s'.sessions = s.sessions)
    (hst : s'.delivery.starting = false) : Chained first s' := by
  refine h.shrink hnumbered hbegun ?_ ?_ (le_of_eq (by rw [hcalls])) ?_ ?_
  · intro b
    unfold Deliveries.Stale
    simp [hboot, hsessions]
  · intro c hc _
    rwa [hcalls] at hc
  · intro b _
    rw [hboot]
    by_cases hphase : (s.boot b).phase = .starting
    · exact Or.inr ⟨Or.inl hphase, by simp [Boot.accepted, hphase]⟩
    · exact Or.inl (Boot.accepted_of_ne hphase)
  · intro hs
    rw [hst] at hs
    cases hs

end Chained

/-! ## A step -/

/-- An answer due to an earlier session changes nothing. -/
theorem Contained.delivery_eq {s : Deliveries σ} {i b : ℕ} {call : Pending} {res : Answer}
    (hcont : Contained s (.answer i res)) (hcall : s.calls[i]? = some (b, call))
    (hm : s.world.module.isSome) (hstale : s.Stale b) :
    answeredDelivery call res s.world.ownNodePreset s.delivery = s.delivery :=
  answeredDelivery_eq_self_iff.mpr ((hcont i res b call rfl hcall).2 hm hstale)

section Steps

variable [MessageStore σ] {first : ℕ} {s s' : Deliveries σ} {hap : Happening}

/-- The session goes on, and no answer due to an earlier one changes its delivery
state. -/
def Undisturbed (s : Deliveries σ) (hap : Happening) : Prop := NoShutdown s hap ∧ Contained s hap

/-- A step that begins a bootstrap. -/
def Begins (s : Deliveries σ) (hap : Happening) : Prop :=
  ∃ config env, hap = .init config env ∧ (Actions.init config env s.world).dispatched.isSome

/-- A bootstrap begins only once those before it are concluded. -/
def Apart (s : Deliveries σ) (hap : Happening) : Prop := Begins s hap → ∀ b, ¬ s.Unconcluded b

/-- Only inits begin bootstraps. -/
theorem apart_answer (s : Deliveries σ) (i : ℕ) (res : Answer) : Apart s (.answer i res) :=
  fun ⟨_, _, heq, _⟩ => nomatch heq

theorem apart_nodeStarted (s : Deliveries σ) (success : Bool) (message : String) :
    Apart s (.nodeStarted success message) :=
  fun ⟨_, _, heq, _⟩ => nomatch heq

/-- A session's first bootstrap begins. -/
theorem chained_install {config : ChatConfig} {env : Environment} {s₀ : Deliveries σ}
    (h : Numbered s) (hm : s.world.module = none)
    (hstep : (deliveries σ).step s (.init config env) = some s₀) (hm₀ : s₀.world.module.isSome) :
    Chained s.begun s₀ := by
  obtain ⟨w, hw, -, heq⟩ := step_install hm hstep hm₀
  have hfalse : w.guarded.display.deliveryState.starting = false := by rw [hw]; rfl
  -- before it the session has neither bootstraps nor calls
  have hempty : Chained s.begun { s with world := w, sessions := s.sessions + 1 } := by
    constructor
    · exact le_refl _
    · exact h.congr h.due rfl (fun _ => rfl) (Nat.le_succ _)
    · intro b hb
      have := h.sessions b hb
      exact iff_of_true (by simp only [Deliveries.Stale]; omega) hb
    · exact fun b hb hlt => by simp only at hlt; omega
    · refine le_trans (le_of_eq (List.countP_eq_zero.mpr ?_)) (Nat.zero_le 1)
      intro c hc hs
      have := h.due c hc
      have := (isSetup_iff.mp hs).1
      omega
    · intro c hc hs
      have := h.due c hc
      have := (isSetup_iff.mp hs).1
      omega
    · intro b hb hc
      have := h.due _ hc
      simp only at this
      omega
    · exact fun b hb hlt => by simp only at hlt; omega
    · intro hs
      rw [Deliveries.delivery, hfalse] at hs
      cases hs
  rw [heq]
  refine hempty.begin ?_ id
  intro b hb
  obtain ⟨hb, hlt, -⟩ := hempty.unconcluded_iff.mp hb
  simp only at hlt
  omega

theorem begins_of_claim {config : ChatConfig} {env : Environment} (hm : s.world.module.isSome)
    (hclaim : (claimDeliveryRetry s.world.guarded).2 = true) : Begins s (.init config env) := by
  refine ⟨config, env, rfl, ?_⟩
  rcases init_cases config env s.world with ⟨hnone, -⟩ | ⟨-, hout⟩ | ⟨hnone, -⟩
  · simp [hnone] at hm
  · simp [hout, hclaim]
  · simp [hnone] at hm

theorem chained_init {config : ChatConfig} {env : Environment} (h : Chained first s)
    (hm : s.world.module.isSome) (hapart : Apart s (.init config env))
    (hstep : (deliveries σ).step s (.init config env) = some s') : Chained first s' := by
  rcases step_init_cases hstep with ⟨hnone, -⟩ | ⟨-, hclaim, heq⟩ | ⟨-, -, heq⟩ | ⟨hnone, -⟩
  · simp [hnone] at hm
  · rw [heq]
    refine h.begin (hapart (begins_of_claim hm hclaim)) ?_
    rw [claimDeliveryRetry_delivery, if_pos hclaim]
    exact id
  · rwa [heq]
  · simp [hnone] at hm

theorem chained_answer {i : ℕ} {res : Answer} (h : Chained first s) (hm : s.world.module.isSome)
    (hcont : Contained s (.answer i res))
    (hstep : (deliveries σ).step s (.answer i res) = some s') : Chained first s' := by
  obtain ⟨b, call, ha, hd⟩ := step_answers hstep
  rcases Nat.lt_or_ge b first with hlt | hge
  · have hstale := (h.stale b (h.numbered.due _ ha.mem)).mpr hlt
    exact h.staleAnswered ha hlt (hd.trans (hcont.delivery_eq ha.call hm hstale))
  · rw [answered_next] at ha
    cases call with
    | createNode preset =>
      have hs : isSetup first (b, .createNode preset) = true := isSetup_iff.mpr ⟨hge, by simp⟩
      obtain ⟨-, hexp⟩ := h.expects _ ha.mem hs
      cases res with
      | ok u => exact h.setupAnswered ha hs (Or.inl ⟨rfl, rfl, rfl⟩)
      | error e =>
        refine h.setupAnswered ha hs (Or.inr ⟨by rw [hd]; rfl, (nomatch ·), ?_⟩)
        rintro call' hcall'
        cases hcall'
        exact ⟨hexp.1, rfl⟩
    | getNodeInfo preset reason =>
      have hs : isSetup first (b, .getNodeInfo preset reason) = true :=
        isSetup_iff.mpr ⟨hge, by simp⟩
      cases res with
      | ok u => exact h.setupAnswered ha hs (Or.inl ⟨rfl, rfl, rfl⟩)
      | error e =>
        exact h.setupAnswered ha hs
          (Or.inr ⟨by rw [hd]; rfl, (nomatch ·), fun call' hnone => nomatch hnone⟩)
    | start =>
      cases res with
      | ok u => exact h.startAnswered ha hge (Or.inl ⟨rfl, by rw [hd]; rfl⟩)
      | error e => exact h.startAnswered ha hge (Or.inr ⟨rfl, by rw [hd]; rfl⟩)

theorem chained_nodeStarted {success : Bool} {message : String} (h : Chained first s)
    (hstep : (deliveries σ).step s (.nodeStarted success message) = some s') :
    Chained first s' := by
  have hnumbered := numbered_step hstep h.numbered
  cases hs : s.delivery.starting with
  | false => rwa [nodeStarted_of_not_starting hs hstep]
  | true =>
    obtain ⟨-, hcalls, hbegun, hsessions, -, -, -⟩ := step_nodeStarted hstep
    obtain ⟨hboot, hd⟩ := nodeStarted_of_starting hs hstep
    refine h.accepted hnumbered hcalls hboot hbegun hsessions ?_
    rw [hd]
    split <;> rfl

theorem chained_connectionStateChanged {status : String} (h : Chained first s)
    (hstep : (deliveries σ).step s (.connectionStateChanged status) = some s') :
    Chained first s' := by
  have hnumbered := numbered_step hstep h.numbered
  obtain ⟨-, heq⟩ := step_connectionStateChanged hstep
  rw [heq] at hnumbered ⊢
  refine h.shrink hnumbered rfl (fun _ => Iff.rfl) (fun _ hc _ => hc) (le_refl _)
    (fun _ _ => Or.inl rfl) ?_
  intro hs
  refine ⟨?_, fun _ _ => rfl⟩
  simp only [Deliveries.delivery, handleConnectionState_delivery] at hs
  split at hs <;> exact hs

/-- Whatever keeps the bootstraps of a session apart keeps them chained. -/
theorem chained_step (h : Chained first s) (hm : s.world.module.isSome)
    (hgo : Undisturbed s hap) (hapart : Apart s hap)
    (hstep : (deliveries σ).step s hap = some s') : Chained first s' := by
  cases hap with
  | init config env => exact chained_init h hm hapart hstep
  | shutdown => exact absurd rfl hgo.1
  | answer i res => exact chained_answer h hm hgo.2 hstep
  | nodeStarted success message => exact chained_nodeStarted h hstep
  | connectionStateChanged status => exact chained_connectionStateChanged h hstep

end Steps

end ChatModule
