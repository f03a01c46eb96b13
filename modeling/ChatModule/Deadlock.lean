import ChatModule.Locks
import ChatModule.Lib.Waits

/-!
# No deadlock

Who waits for whom: a thread at a taken lock for its holder, a thread that joins a worker for
that worker while it runs, and an event worker with nothing to do for the threads that will
drop its client. What a thread still has to do is `Safe`: it takes locks in the order module
lock, then display or preset lock, gives back what it took, and joins, with no lock held, only
workers of a session it has taken out of the module, the event worker after its client is gone.
Every step keeps each thread's code safe, so the rank of what a thread waits for goes down
along every wait.
-/

namespace ChatModule.Locks

open Relation

/-! ## Who waits for whom -/

/-- The thread may come to drop this client. -/
def Code.Drops (n : ℕ) : Code → Prop
  | .ret | .jump _ => False
  | .lock _ next | .unlock _ next | .work next => next.Drops n
  | .install _ next | .stop _ next | .join _ next => next.Drops n
  | .either a b | .installed a b | .stopped _ a b | .recv _ a b => a.Drops n ∨ b.Drops n
  | .take found nothing => (∃ m, (found m).Drops n) ∨ nothing.Drops n
  | .spawn next => ∃ m, (next m).Drops n
  | .dropClient m next => m = n ∨ next.Drops n

/-- `t` cannot go on before `u` does. -/
inductive Waits (s : State) : Thread → Thread → Prop
  | lock {t u : Thread} {l : Lock} {next : Code} :
      s.code t = .lock l next → s.holder l = some u → Waits s t u
  | join {t u : Thread} {next : Code} :
      s.code t = .join u next → s.code u ≠ .ret → Waits s t u
  | recv {t u : Thread} {n : ℕ} {event closed : Code} :
      s.code t = .recv n event closed → s.Idle n → (s.code u).Drops n → Waits s t u

/-- The thread can take a step. -/
def CanStep (s : State) (t : Thread) : Prop := ∃ left, (advance s t left).isSome

/-- A call that has not returned, an answer being dealt with, a worker that is not merely
waiting for its client's next event. -/
def Busy (s : State) (t : Thread) : Prop :=
  s.code t ≠ .ret ∧ ∀ n event closed, s.code t = .recv n event closed → ¬ s.Idle n

/-! ## Safe code -/

/-- The lock order: a lock is taken only under locks of a higher rank. -/
def Lock.rank : Lock → ℕ
  | .module => 2
  | .display | .ownNodePreset => 1

/-- A thread at a lock waits with the lock's rank, one at a join above all locks, an idle
event worker above all else. -/
def rank (s : State) (t : Thread) : ℕ :=
  match s.code t with
  | .lock l _ => l.rank
  | .join _ _ => 3
  | .recv n _ _ => if s.Idle n then 4 else 0
  | _ => 0

def Thread.isCaller : Thread → Prop
  | .caller _ => True
  | _ => False

/-- The thread that runs a loop. -/
def Proc.thread : Proc → Thread
  | .runBridge n | .drainNodeStarted n | .drainConn n => .bridge n
  | .forwardSubscriptions n | .drainTopics n => .bridge n
  | .runEvents n => .events n

/-- A worker that may be joined: a bridge, or the event worker of a dropped client. -/
def Joinable (dropped : ℕ → Bool) : Thread → Prop
  | .bridge _ => True
  | .events n => dropped n = true
  | _ => False

/-- What `t` may still do, holding the locks in `held`. -/
def Safe (t : Thread) : (ℕ → Bool) → Set Lock → Code → Prop
  | _, held, .ret => held = ∅
  | d, held, .lock l next => (∀ l' ∈ held, l.rank < l'.rank) ∧ Safe t d (insert l held) next
  | d, held, .unlock l next => l ∈ held ∧ Safe t d (held \ {l}) next
  | d, held, .work next => Safe t d held next
  | d, held, .either a b => Safe t d held a ∧ Safe t d held b
  | d, held, .installed yes no => Safe t d held yes ∧ Safe t d held no
  | d, held, .take found nothing =>
    t.isCaller ∧ (∀ n, Safe t d held (found n)) ∧ Safe t d held nothing
  | d, held, .spawn next => t.isCaller ∧ ∀ n, Safe t d held (next n)
  | d, held, .install _ next => Safe t d held next
  | d, held, .stop _ next => Safe t d held next
  | d, held, .stopped _ yes no => Safe t d held yes ∧ Safe t d held no
  | d, held, .join u next => held = ∅ ∧ t.isCaller ∧ Joinable d u ∧ Safe t d held next
  | d, held, .dropClient n next => t.isCaller ∧ Safe t (Function.update d n true) held next
  | d, held, .recv n event closed =>
    held = ∅ ∧ t = .events n ∧ Safe t d held event ∧ Safe t d held closed
  | _, held, .jump p => held = ∅ ∧ t = p.thread

section Safe

variable {t : Thread} {d d' : ℕ → Bool} {held : Set Lock}

/-- A client once dropped stays dropped, and code safe before it was is safe after. -/
theorem Safe.mono {c : Code} (hd : ∀ n, d n = true → d' n = true) (h : Safe t d held c) :
    Safe t d' held c := by
  induction c generalizing d d' held with
  | ret => exact h
  | jump p => exact h
  | lock l next ih | unlock l next ih => exact ⟨h.1, ih hd h.2⟩
  | work next ih | install n next ih | stop n next ih => exact ih hd h
  | either a b iha ihb | installed a b iha ihb | stopped n a b iha ihb =>
    exact ⟨iha hd h.1, ihb hd h.2⟩
  | take found nothing ihf ihn => exact ⟨h.1, fun n => ihf n hd (h.2.1 n), ihn hd h.2.2⟩
  | spawn next ih => exact ⟨h.1, fun n => ih n hd (h.2 n)⟩
  | join u next ih =>
    obtain ⟨hheld, ht, hu, hnext⟩ := h
    refine ⟨hheld, ht, ?_, ih hd hnext⟩
    cases u with
    | bridge n => exact trivial
    | events n => exact hd n hu
    | caller n | callback n => exact hu
  | dropClient n next ih =>
    refine ⟨h.1, ih ?_ h.2⟩
    intro m
    by_cases hm : m = n
    · simp [hm]
    · simpa [hm] using hd m
  | recv n event closed ihe ihc => exact ⟨h.1, h.2.1, ihe hd h.2.2.1, ihc hd h.2.2.2⟩

/-- Only a caller drops a client. -/
theorem Safe.isCaller_of_drops {c : Code} {n : ℕ} (h : Safe t d held c) (hc : c.Drops n) :
    t.isCaller := by
  induction c generalizing d held with
  | ret => exact hc.elim
  | jump p => exact hc.elim
  | lock l next ih | unlock l next ih => exact ih h.2 hc
  | work next ih | install m next ih | stop m next ih => exact ih h hc
  | either a b iha ihb | installed a b iha ihb | stopped m a b iha ihb =>
    rcases hc with hc | hc
    · exact iha h.1 hc
    · exact ihb h.2 hc
  | take found nothing ihf ihn => exact h.1
  | spawn next ih => exact h.1
  | join u next ih => exact h.2.1
  | dropClient m next ih => exact h.1
  | recv m event closed ihe ihc =>
    rcases hc with hc | hc
    · exact ihe h.2.2.1 hc
    · exact ihc h.2.2.2 hc

/-! ### The module's code -/

/-- A section under `l` is safe where `l` may be taken. -/
theorem safe_section {l : Lock} {next : Code} (hl : ∀ l' ∈ held, l.rank < l'.rank) :
    Safe t d held (.lock l (.work (.unlock l next))) ↔ Safe t d held next := by
  have hfree : l ∉ held := by
    intro hmem
    exact lt_irrefl _ (hl l hmem)
  constructor
  · rintro ⟨-, -, hnext⟩
    rwa [Set.insert_sdiff_self_of_notMem hfree] at hnext
  · intro hnext
    refine ⟨hl, Set.mem_insert l held, ?_⟩
    rwa [Set.insert_sdiff_self_of_notMem hfree]

@[simp] theorem safe_withDisplay {next : Code} :
    Safe t d ∅ (withDisplay next) ↔ Safe t d ∅ next :=
  safe_section (by simp)

/-- The display lock may be taken under the module lock. -/
@[simp] theorem safe_withDisplay_module {next : Code} :
    Safe t d {.module} (withDisplay next) ↔ Safe t d {.module} next :=
  safe_section (by simp [Lock.rank])

@[simp] theorem safe_ownNodePreset {next : Code} :
    Safe t d ∅ (ownNodePreset next) ↔ Safe t d ∅ next :=
  safe_section (by simp)

@[simp] theorem safe_withClient {next : Code} :
    Safe t d ∅ (withClient next) ↔ Safe t d ∅ next := by
  simp [withClient, Safe]

@[simp] theorem safe_question {next : Code} :
    Safe t d ∅ (question next) ↔ Safe t d ∅ next := by
  simp [question, Safe]

@[simp] theorem safe_fallible {fail next : Code} :
    Safe t d held (fallible fail next) ↔ Safe t d held fail ∧ Safe t d held next := .rfl

@[simp] theorem safe_drain {again next : Code} :
    Safe t d ∅ (drain again next) ↔ Safe t d ∅ again ∧ Safe t d ∅ next := by
  simp [drain, Safe]
  tauto

/-- A session taken out of the module is shut down safely. -/
theorem safe_shutdownOf {session : ℕ} (ht : t.isCaller) : Safe t d ∅ (shutdownOf session) := by
  simp [shutdownOf, Safe, Joinable, ht]

theorem safe_method (m : Method) (n : ℕ) : Safe (.caller n) d ∅ m.code := by
  have hn : (Thread.caller n).isCaller := trivial
  cases m with
  | init => simp [Method.code, init, initializeModule, claimDeliveryRetry,
      startDeliveryBootstrap, Safe, hn]
  | shutdown => simp [Method.code, shutdown, Safe, hn, safe_shutdownOf hn]
  | getLogPath | health => simp [Method.code, Safe]
  | getInstallationName | setInstallationName | getAddress => simp [Method.code, Safe]
  | createConversation | createGroupConversation =>
    simp [Method.code, createConversation, emit, Safe]
  | addGroupMember => simp [Method.code, addGroupMember, checkLive, emit, Safe]
  | listConversations | getMessages | status => simp [Method.code, Safe]
  | listGroupMembers => simp [Method.code, listGroupMembers, checkLive, Safe]
  | sendMessage => simp [Method.code, sendMessage, checkLive, emit, Safe]
  | setConversationNickname | deleteConversation =>
    simp [Method.code, changeConversation, emit, Safe]

theorem safe_callback (c : Callback) : Safe t d ∅ c.code := by
  cases c with
  | createNode => simp [Callback.code, startNode, joinExistingNode, Safe]
  | getNodeInfo => simp [Callback.code, startNode, setDeliveryError, Safe]
  | start | send | subscribe => simp [Callback.code, Safe]

/-- Each turn of a worker's loop is safe and ends in that worker's loops. -/
theorem safe_body (p : Proc) : Safe p.thread d ∅ p.body := by
  cases p with
  | runBridge n | drainNodeStarted n | drainConn n => simp [Proc.body, Proc.thread, Safe]
  | forwardSubscriptions n | drainTopics n => simp [Proc.body, Proc.thread, Safe]
  | runEvents n =>
    simp [Proc.body, recordConversationStarted, recordMessageReceived, recordMembersChanged,
      Proc.thread, Safe]

end Safe

/-! ## Every step keeps the code safe -/

/-- The locks a thread holds. -/
def State.holds (s : State) (t : Thread) : Set Lock := {l | s.holder l = some t}

/-- Each thread's code is safe with the locks it holds, and the workers of sessions to come
have none. -/
structure Orderly (s : State) : Prop where
  safe : ∀ t, Safe t s.dropped (s.holds t) (s.code t)
  fresh : ∀ n, s.sessions ≤ n → s.code (.bridge n) = .ret ∧ s.code (.events n) = .ret

section Steps

variable {s s' : State} {t u : Thread}

@[simp] theorem State.holds_goOn (c : Code) : (s.goOn t c).holds u = s.holds u := rfl

theorem State.holds_lock {l : Lock} (hfree : s.holder l = none) :
    (s.setHolder l t).holds t = insert l (s.holds t) ∧
      ∀ u, u ≠ t → (s.setHolder l t).holds u = s.holds u := by
  constructor
  · ext l'
    by_cases hl : l' = l
    · simp [holds, setHolder, hl]
    · simp [holds, setHolder, hl]
  · intro u hu
    ext l'
    by_cases hl : l' = l
    · simp [holds, setHolder, hl, hfree, Ne.symm hu]
    · simp [holds, setHolder, hl]

theorem State.holds_unlock {l : Lock} (hheld : l ∈ s.holds t) :
    (s.setHolder l none).holds t = s.holds t \ {l} ∧
      ∀ u, u ≠ t → (s.setHolder l none).holds u = s.holds u := by
  have hheld : s.holder l = some t := hheld
  constructor
  · ext l'
    by_cases hl : l' = l
    · simp [holds, setHolder, hl]
    · simp [holds, setHolder, hl]
  · intro u hu
    ext l'
    by_cases hl : l' = l
    · simp [holds, setHolder, hl, hheld, Ne.symm hu]
    · simp [holds, setHolder, hl]

namespace Orderly

/-- A thread with code left is no worker of a session to come. -/
theorem not_fresh (h : Orderly s) (ht : s.code t ≠ .ret) {n : ℕ} (hn : s.sessions ≤ n) :
    t ≠ .bridge n ∧ t ≠ .events n := by
  constructor
  · rintro rfl
    exact ht (h.fresh n hn).1
  · rintro rfl
    exact ht (h.fresh n hn).2

/-- A step of `t` that leaves the others their locks keeps the invariant, when what `t` has
left is safe. -/
theorem goOn {s₁ : State} {c : Code} (h : Orderly s)
    (hfresh : ∀ n, s.sessions ≤ n → t ≠ .bridge n ∧ t ≠ .events n)
    (hcode : s₁.code = s.code) (hsessions : s₁.sessions = s.sessions)
    (hdropped : ∀ n, s.dropped n = true → s₁.dropped n = true)
    (hothers : ∀ u, u ≠ t → s₁.holds u = s.holds u)
    (hc : Safe t s₁.dropped (s₁.holds t) c) : Orderly (s₁.goOn t c) where
  safe u := by
    show Safe u s₁.dropped (s₁.holds u) (Function.update s₁.code t c u)
    by_cases hu : u = t
    · subst hu
      rwa [Function.update_self]
    · rw [Function.update_of_ne hu, hothers u hu, hcode]
      exact (h.safe u).mono hdropped
  fresh n hn := by
    have hn : s.sessions ≤ n := hsessions ▸ hn
    obtain ⟨hbridge, hevents⟩ := hfresh n hn
    simpa [State.goOn, Ne.symm hbridge, Ne.symm hevents, hcode] using h.fresh n hn

/-- The same for a step that changes nothing the invariant reads but the code of `t`. -/
theorem goesOn {s₁ : State} {c : Code} (h : Orderly s) (ht : s.code t ≠ .ret)
    (hcode : s₁.code = s.code) (hsessions : s₁.sessions = s.sessions)
    (hdropped : s₁.dropped = s.dropped) (hholder : s₁.holder = s.holder)
    (hc : Safe t s.dropped (s.holds t) c) : Orderly (s₁.goOn t c) := by
  have hholds : ∀ u, s₁.holds u = s.holds u := by
    intro u
    simp [State.holds, hholder]
  refine h.goOn (fun n hn => h.not_fresh ht hn) hcode hsessions ?_ ?_ ?_
  · intro n hn
    rwa [hdropped]
  · intro u _
    exact hholds u
  · rwa [hdropped, hholds]

/-- The workers that `spawn` begins hold no lock and come round to their own loops. -/
theorem spawned (h : Orderly s) : Orderly s.spawned where
  safe u := by
    have hsafe := h.safe u
    obtain ⟨hbridge, hevents⟩ := h.fresh s.sessions le_rfl
    show Safe u s.dropped (s.holds u) (Function.update (Function.update s.code _ _) _ _ u)
    by_cases hu : u = .events s.sessions
    · subst hu
      rw [hevents] at hsafe
      rw [Function.update_self]
      exact ⟨hsafe, rfl⟩
    · rw [Function.update_of_ne hu]
      by_cases hu' : u = .bridge s.sessions
      · subst hu'
        rw [hbridge] at hsafe
        rw [Function.update_self]
        exact ⟨hsafe, rfl⟩
      · rwa [Function.update_of_ne hu']
  fresh n hn := by
    have hn : s.sessions + 1 ≤ n := hn
    have hne : n ≠ s.sessions := by omega
    simpa [State.spawned, hne] using h.fresh n (by omega)

/-- A step of a thread keeps the invariant. -/
theorem advance {left : Bool} (h : Orderly s) (hs : advance s t left = some s') :
    Orderly s' := by
  have ht := h.safe t
  have hne : s.code t ≠ .ret := by
    intro hret
    simp [Locks.advance, hret] at hs
  unfold Locks.advance at hs
  cases hc : s.code t with
  | ret => exact absurd hc hne
  | lock l next =>
    rw [hc] at hs ht
    simp only [Option.ite_none_right_eq_some, Option.some.injEq] at hs
    obtain ⟨hfree, rfl⟩ := hs
    obtain ⟨hself, hothers⟩ := State.holds_lock (t := t) hfree
    refine h.goOn (fun n hn => h.not_fresh hne hn) rfl rfl (fun n hn => hn) hothers ?_
    rw [hself]
    exact ht.2
  | unlock l next =>
    rw [hc] at hs ht
    obtain rfl := Option.some.inj hs
    obtain ⟨hself, hothers⟩ := State.holds_unlock ht.1
    refine h.goOn (fun n hn => h.not_fresh hne hn) rfl rfl (fun n hn => hn) hothers ?_
    rw [hself]
    exact ht.2
  | work next | install n next | stop n next =>
    rw [hc] at hs ht
    obtain rfl := Option.some.inj hs
    exact h.goesOn hne rfl rfl rfl rfl ht
  | either a b =>
    rw [hc] at hs ht
    obtain rfl := Option.some.inj hs
    refine h.goesOn hne rfl rfl rfl rfl ?_
    cases left
    · exact ht.2
    · exact ht.1
  | installed yes no =>
    rw [hc] at hs ht
    obtain rfl := Option.some.inj hs
    refine h.goesOn hne rfl rfl rfl rfl ?_
    cases s.installed.isSome
    · exact ht.2
    · exact ht.1
  | take found nothing =>
    rw [hc] at hs ht
    cases hi : s.installed with
    | none =>
      rw [hi] at hs
      obtain rfl := Option.some.inj hs
      exact h.goesOn hne rfl rfl rfl rfl ht.2.2
    | some n =>
      rw [hi] at hs
      obtain rfl := Option.some.inj hs
      exact h.goesOn hne rfl rfl rfl rfl (ht.2.1 n)
  | spawn next =>
    rw [hc] at hs ht
    obtain rfl := Option.some.inj hs
    refine h.spawned.goOn ?_ rfl rfl (fun n hn => hn) (fun u hu => rfl) (ht.2 s.sessions)
    intro n hn
    have hn : s.sessions + 1 ≤ n := hn
    exact h.not_fresh hne (by omega)
  | stopped n yes no =>
    rw [hc] at hs ht
    obtain rfl := Option.some.inj hs
    refine h.goesOn hne rfl rfl rfl rfl ?_
    cases s.stopped n
    · exact ht.2
    · exact ht.1
  | join u next =>
    rw [hc] at hs ht
    simp only [Option.ite_none_right_eq_some, Option.some.injEq] at hs
    obtain ⟨-, rfl⟩ := hs
    exact h.goesOn hne rfl rfl rfl rfl ht.2.2.2
  | dropClient n next =>
    rw [hc] at hs ht
    obtain rfl := Option.some.inj hs
    refine h.goOn (fun n hn => h.not_fresh hne hn) rfl rfl ?_ (fun u hu => rfl) ht.2
    intro m hm
    by_cases hmn : m = n
    · simp [hmn]
    · simpa [hmn] using hm
  | recv n event closed =>
    rw [hc] at hs ht
    by_cases hq : s.queued n = 0
    · simp only [hq, ne_eq, not_true_eq_false, ↓reduceIte, Option.ite_none_right_eq_some,
        Option.some.injEq] at hs
      obtain ⟨-, rfl⟩ := hs
      exact h.goesOn hne rfl rfl rfl rfl ht.2.2.2
    · simp only [ne_eq, hq, not_false_eq_true, ↓reduceIte, Option.some.injEq] at hs
      obtain rfl := hs
      exact h.goesOn hne rfl rfl rfl rfl ht.2.2.1
  | jump p =>
    rw [hc] at hs ht
    obtain rfl := Option.some.inj hs
    refine h.goesOn hne rfl rfl rfl rfl ?_
    rw [ht.1, ht.2]
    exact safe_body p

theorem start : Orderly .start where
  safe t := by simp [State.start, State.holds, Safe]
  fresh n _ := by simp [State.start]

/-- A thread that has returned holds no lock. -/
theorem holds_of_ret (h : Orderly s) (ht : s.code t = .ret) : s.holds t = ∅ := by
  have hsafe := h.safe t
  rwa [ht] at hsafe

/-- A call that begins, or an answer that arrives, keeps the invariant. -/
theorem begins {c : Code} (h : Orderly s) (hret : s.code t = .ret)
    (hworker : ∀ n, t ≠ .bridge n ∧ t ≠ .events n) (hc : Safe t s.dropped ∅ c) :
    Orderly (s.goOn t c) := by
  refine h.goOn (fun n _ => hworker n) rfl rfl (fun n hn => hn) (fun u hu => rfl) ?_
  rwa [h.holds_of_ret hret]

theorem step {m : Move} (h : Orderly s) (hs : threads.step s m = some s') : Orderly s' := by
  cases m with
  | call n m =>
    simp only [threads, Option.ite_none_right_eq_some, Option.some.injEq] at hs
    obtain ⟨hret, rfl⟩ := hs
    exact h.begins (Code.returned_iff.mp hret) (by simp) (safe_method m n)
  | answer n c =>
    simp only [threads, Option.ite_none_right_eq_some, Option.some.injEq] at hs
    obtain ⟨hret, rfl⟩ := hs
    exact h.begins (Code.returned_iff.mp hret) (by simp) (safe_callback c)
  | event n =>
    simp only [threads, Option.ite_none_right_eq_some, Option.some.injEq] at hs
    obtain ⟨-, rfl⟩ := hs
    exact ⟨h.safe, h.fresh⟩
  | go t left => exact h.advance hs

/-! ## The order of the waits -/

/-- A thread that holds a lock waits at most for one of a lower rank. -/
theorem rank_of_holds {l : Lock} (h : Orderly s) (hl : s.holder l = some t) :
    rank s t < l.rank := by
  have hsafe := h.safe t
  have hmem : l ∈ s.holds t := hl
  have hheld : s.holds t ≠ ∅ := Set.nonempty_iff_ne_empty.mp ⟨l, hmem⟩
  unfold rank
  cases hc : s.code t <;> rw [hc] at hsafe
  case lock l' next => exact hsafe.1 l hmem
  case join u next => exact absurd hsafe.1 hheld
  case recv n event closed => exact absurd hsafe.1 hheld
  all_goals cases l <;> simp [Lock.rank]

/-- A caller is never an idle worker. -/
theorem rank_of_isCaller (h : Orderly s) (ht : t.isCaller) : rank s t < 4 := by
  have hsafe := h.safe t
  unfold rank
  cases hc : s.code t <;> rw [hc] at hsafe
  case lock l next => cases l <;> simp [Lock.rank]
  case recv n event closed =>
    obtain ⟨-, rfl, -⟩ := hsafe
    exact ht.elim
  all_goals simp

/-- A worker takes no part in any join, and with its client gone it is not idle. -/
theorem rank_of_joinable (h : Orderly s) (ht : Joinable s.dropped t) : rank s t < 3 := by
  have hsafe := h.safe t
  have hworker : ¬ t.isCaller := by
    cases t <;> simp_all [Joinable, Thread.isCaller]
  unfold rank
  cases hc : s.code t <;> rw [hc] at hsafe
  case lock l next => cases l <;> simp [Lock.rank]
  case join u next => exact absurd hsafe.2.1 hworker
  case recv n event closed =>
    obtain ⟨-, rfl, -⟩ := hsafe
    have hdropped : s.dropped n = true := ht
    simp [State.Idle, hdropped]
  all_goals simp

/-- The rank goes down along every wait. -/
theorem rank_lt (h : Orderly s) (hw : Waits s t u) : rank s u < rank s t := by
  cases hw with
  | lock hc hl =>
    have hlt := h.rank_of_holds hl
    simpa [rank, hc] using hlt
  | join hc hu =>
    have hsafe := h.safe t
    rw [hc] at hsafe
    have hlt := h.rank_of_joinable hsafe.2.2.1
    simpa [rank, hc] using hlt
  | recv hc hidle hdrops =>
    have hcaller := (h.safe u).isCaller_of_drops hdrops
    have hlt := h.rank_of_isCaller hcaller
    simpa [rank, hc, hidle] using hlt

/-- The holder of a lock has not returned, and does not wait for events. -/
theorem busy_of_holds {l : Lock} (h : Orderly s) (hl : s.holder l = some t) : Busy s t := by
  have hmem : l ∈ s.holds t := hl
  have hheld : s.holds t ≠ ∅ := Set.nonempty_iff_ne_empty.mp ⟨l, hmem⟩
  have hsafe := h.safe t
  constructor
  · intro hret
    exact hheld (h.holds_of_ret hret)
  · intro n event closed hc
    rw [hc] at hsafe
    exact absurd hsafe.1 hheld

/-- A worker that is joined has events left or is about to end. -/
theorem busy_of_joinable (h : Orderly s) (ht : Joinable s.dropped t) (hret : s.code t ≠ .ret) :
    Busy s t := by
  have hsafe := h.safe t
  refine ⟨hret, ?_⟩
  intro n event closed hc hidle
  rw [hc] at hsafe
  obtain ⟨-, rfl, -⟩ := hsafe
  have hdropped : s.dropped n = true := ht
  simp [State.Idle, hdropped] at hidle

/-- A busy thread can step, or waits for a busy one. -/
theorem busy_goes (h : Orderly s) (hb : Busy s t) :
    CanStep s t ∨ ∃ u, Waits s t u ∧ Busy s u := by
  have hsafe := h.safe t
  cases hc : s.code t with
  | ret => exact absurd hc hb.1
  | lock l next =>
    cases hl : s.holder l with
    | none => exact .inl ⟨true, by simp [Locks.advance, hc, hl]⟩
    | some u => exact .inr ⟨u, .lock hc hl, h.busy_of_holds hl⟩
  | join u next =>
    rw [hc] at hsafe
    by_cases hu : s.code u = .ret
    · exact .inl ⟨true, by simp [Locks.advance, hc, Code.returned_iff.mpr hu]⟩
    · exact .inr ⟨u, .join hc hu, h.busy_of_joinable hsafe.2.2.1 hu⟩
  | recv n event closed =>
    have hbusy := hb.2 n event closed hc
    left
    refine ⟨true, ?_⟩
    by_cases hq : s.queued n = 0
    · have hdropped : s.dropped n = true := by simpa [State.Idle, hq] using hbusy
      simp [Locks.advance, hc, hq, hdropped]
    · simp [Locks.advance, hc, hq]
  | take found nothing =>
    cases hi : s.installed with
    | none => exact .inl ⟨true, by simp [Locks.advance, hc, hi]⟩
    | some n => exact .inl ⟨true, by simp [Locks.advance, hc, hi]⟩
  | _ => exact .inl ⟨true, by simp [Locks.advance, hc]⟩

/-- A call that has not returned is busy. -/
theorem busy_of_call {n : ℕ} (h : Orderly s) (hret : s.code (.caller n) ≠ .ret) :
    Busy s (.caller n) := by
  have hsafe := h.safe (.caller n)
  refine ⟨hret, ?_⟩
  intro m event closed hc
  rw [hc] at hsafe
  exact absurd hsafe.2.1 (by simp)

end Orderly

end Steps

/-! ## Runs -/

/-- In every state the threads can reach: a call that has not returned is busy; from each busy
thread a chain of waits leads to a thread that can step, itself where it need not wait; and no
chain of waits comes back to where it began. -/
theorem no_deadlock {ms : List Move} {s : State}
    (run : threads.Run (fun _ _ => True) .start ms s) :
    (∀ n, s.code (.caller n) ≠ .ret → Busy s (.caller n)) ∧
      (∀ t, Busy s t → ∃ u, ReflTransGen (Waits s) t u ∧ CanStep s u) ∧
      ∀ t, ¬ TransGen (Waits s) t t := by
  have horderly : Orderly s :=
    run.invariant (fun s m s' _ hs h => h.step hs) .start
  have hrank : ∀ t u, Waits s t u → rank s u < rank s t := by
    intro t u hw
    exact horderly.rank_lt hw
  refine ⟨?_, ?_, ?_⟩
  · intro n hret
    exact horderly.busy_of_call hret
  · intro t hb
    exact Waits.reaches hrank (fun t ht => horderly.busy_goes ht) hb
  · exact Waits.irrefl hrank

/-- A session begins, its client reports a group and its shutdown waits for the event worker,
while another `init` takes the module lock. -/
def joining : List Move :=
  .call 0 .init :: List.replicate 28 (.go (.caller 0) false) ++
    .event 0 :: List.replicate 4 (.go (.events 0) true) ++
    .call 1 .shutdown :: List.replicate 4 (.go (.caller 1) true) ++
    List.replicate 2 (.go (.bridge 0) true) ++ List.replicate 2 (.go (.caller 1) true) ++
    [.call 2 .init, .go (.caller 2) true]

/-- There the shutdown waits for the worker and the worker for the `init`. -/
theorem no_deadlock_joining :
    ∃ s, threads.exec .start joining = some s ∧
      Waits s (.caller 1) (.events 0) ∧ Waits s (.events 0) (.caller 2) ∧
      (∃ u, ReflTransGen (Waits s) (.caller 1) u ∧ CanStep s u) ∧
      ¬ TransGen (Waits s) (.caller 1) (.caller 1) := by
  obtain ⟨s, hexec, ⟨after, hjoin⟩, ⟨next, hlock⟩, hheld⟩ :
      ∃ s, threads.exec .start joining = some s ∧
        (∃ after, s.code (.caller 1) = .join (.events 0) after) ∧
        (∃ next, s.code (.events 0) = .lock .module next) ∧
        s.holder .module = some (.caller 2) :=
    ⟨_, rfl, ⟨_, rfl⟩, ⟨_, rfl⟩, rfl⟩
  obtain ⟨hcall, hbusy, hacyclic⟩ := no_deadlock (Machine.run_of_exec hexec)
  refine ⟨s, hexec, .join hjoin (by simp [hlock]), .lock hlock hheld, ?_, hacyclic _⟩
  exact hbusy _ (hcall 1 (by simp [hjoin]))

end ChatModule.Locks
