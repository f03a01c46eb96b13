import ChatModule.Announced

/-!
# A history that is read once and followed by its events

A reader takes `get_messages` at some moment of a session and hears the events from then
on. A call raises its event after it has let the display lock go, so what the reader
took may hold messages whose events it still hears, and what it hears may lag behind
what is listed.

* `heard_step` — a section lists a message and raises its event, owes it, or its call
  reports a failure;
* `read_and_heard` — over any run, what the list gains is what the events tell of, up to
  the events owed at either end and the sends that failed; what is received is told of
  in the order it is listed.
-/

namespace ChatModule

open Actions Persistence

variable {σ : Type}

/-! ## What events tell of -/

/-- The message of `id` that an event tells of. -/
def PluginEvent.tells (id : String) : PluginEvent → Option Message
  | .messageSent convoId content timestampMs =>
    if convoId = id then some ⟨true, content, timestampMs, none⟩ else none
  | .messageReceived convoId content timestampMs sender =>
    if convoId = id then some ⟨false, content, timestampMs, some sender⟩ else none
  | _ => none

/-- The messages of `id` that some events tell of. -/
def told (id : String) (events : List PluginEvent) : List Message :=
  events.filterMap (PluginEvent.tells id)

/-- The messages among some that were received. -/
def received (messages : List Message) : List Message := messages.filter fun m => !m.fromSelf

section Told

variable {id : String} {e : PluginEvent} {es : List PluginEvent}

theorem told_append (es es' : List PluginEvent) : told id (es ++ es') = told id es ++ told id es' :=
  List.filterMap_append

theorem received_append (ms ms' : List Message) :
    received (ms ++ ms') = received ms ++ received ms' :=
  List.filter_append ..

/-- An event that tells of a message is about its conversation. -/
theorem convoId_of_tells {m : Message} (h : e.tells id = some m) : e.convoId = some id := by
  cases e with
  | messageSent | messageReceived =>
    simp only [PluginEvent.tells] at h
    split at h
    · next hid => exact congrArg some hid
    · cases h
  | _ => cases h

theorem told_eq_nil (h : ∀ e ∈ es, e.convoId ≠ some id) : told id es = [] := by
  refine List.filterMap_eq_nil_iff.mpr ?_
  intro e he
  cases htells : e.tells id with
  | none => rfl
  | some m => exact absurd (convoId_of_tells htells) (h e he)

/-- Of events among which no message is received, those of sends tell the messages. -/
theorem told_sent (h : ∀ e ∈ es, ∀ m, e.tells id = some m → e.isSent = true) :
    told id (es.filter PluginEvent.isSent) = told id es := by
  unfold told
  rw [List.filterMap_filter]
  refine List.filterMap_congr ?_
  intro e he
  cases htells : e.tells id with
  | none => simp
  | some m => simp [h e he m htells]

end Told

variable [MessageStore σ]

/-- The message of a send of `id` whose section lists it and fails: the call reports the
failure, and no event follows. -/
def untold (id : String) (s : Threads σ) : Move → List Message
  | .proceed i faults _ nowMs =>
    match s.calls[i]? with
    | some (.sent convoId content) =>
      if convoId = id ∧ (sendMessageLocked faults convoId content nowMs s.guarded).2 ≠ .ok () then
        [message (sentEntry content nowMs)]
      else []
    | _ => []
  | _ => []

/-! ## Steps -/

section Steps

variable {s s' : Threads σ} {mv : Move} {id : String}

/-- Of the events raised under the display lock only that of an inbound message tells of
one: the message the section lists. -/
theorem told_heard {heard : List PluginEvent} (hdel : id ∉ s.guarded.deleted)
    (hstep : s.step mv = some s') (hraised : s'.guarded.raised = s.guarded.raised ++ heard)
    (hheard : ∀ e ∈ heard, Heard s mv e) :
    told id heard = received ((said id s mv).map message) := by
  have hnone : mv.about s = none → told id heard = [] := by
    intro habout
    refine told_eq_nil ?_
    intro e he hid
    rw [(hheard e he).about id hid] at habout
    cases habout
  have hsame : ∀ {es}, s'.guarded.raised = s.guarded.raised ++ es → heard = es := fun h =>
    List.append_cancel_left (hraised.symm.trans h)
  cases mv with
  | messageReceived faults convoId content account installation nowMs =>
    simp only [Threads.step] at hstep
    split at hstep <;> cases hstep
    rw [hsame (recordMessageReceived_raised faults convoId content account installation nowMs _)]
    by_cases hid : convoId = id
    · subst hid
      rw [if_neg hdel]
      simp [told, PluginEvent.tells, said, received, message, receivedEntry]
    · have hother : told id (if convoId ∈ s.guarded.deleted then []
          else [.messageReceived convoId (Utf8.fromUtf8Lossy content) nowMs.toInt64 account]) =
          [] := by
        split <;> simp [told, PluginEvent.tells, hid]
      simp [hother, said, hid, received]
  | conversationRecorded faults =>
    simp only [Threads.step] at hstep
    split at hstep
    · cases hstep
    · next started hstarted =>
      cases hstep
      rw [hsame (recordConversationStartedLocked_raised faults started.convoId started.kind
        started.metadata _)]
      split
      · rfl
      · split
        · split <;> rfl
        · rfl
  | membersChanged convoId =>
    simp only [Threads.step] at hstep
    split at hstep <;> cases hstep
    have hmembers : (recordMembersChanged convoId s.guarded).raised = s.guarded.raised ++
        if convoId ∈ s.guarded.deleted ∨ s.guarded.chats.contains convoId = false then []
        else [.membersChanged convoId] := by
      unfold recordMembersChanged
      split <;> simp
    rw [hsame hmembers]
    split <;> rfl
  | conversationStarted convoId kind answer =>
    simp only [Threads.step] at hstep
    split at hstep <;> cases hstep
    rw [hsame (List.append_nil _).symm]
    rfl
  | proceed i faults answer nowMs =>
    -- what a call lists is sent
    have hsent : received ((said id s (.proceed i faults answer nowMs)).map message) = [] := by
      simp only [said]
      split
      · split <;> rfl
      · rfl
    rw [hsent, hnone rfl]
  | _ => exact hnone rfl

/-- An event that falls due tells of a message only when it is that of a send. -/
theorem Falls.isSent {e : PluginEvent} (h : Falls s mv e) (hnamed : Named s) {m : Message}
    (htells : e.tells id = some m) : e.isSent = true := by
  cases h with
  | sent => rfl
  | created hmem =>
    obtain ⟨label, kind, name, desc, rfl⟩ := hnamed _ _ hmem
    cases htells
  | invited | nicknamed | deleted => cases htells

/-- A session at work, in which the calls in flight owe no event of a message received. -/
structure Announcing (s : Threads σ) : Prop where
  working : Working s
  named : Named s
  owed : ∀ id, ∀ e ∈ s.due, ∀ m, e.tells id = some m → e.isSent = true

omit [MessageStore σ] in
/-- An event that is raised is no longer due. -/
theorem due_perm_of_raising {i : ℕ} {event : PluginEvent}
    (hcall : s.calls[i]? = some (.raising event)) :
    s.due.Perm (event :: (s.calls.eraseIdx i).filterMap Call.due) := by
  obtain ⟨hlt, hget⟩ := List.getElem?_eq_some_iff.mp hcall
  have hperm := (List.getElem_cons_eraseIdx_perm hlt).filterMap Call.due
  rw [hget] at hperm
  exact hperm.symm

variable [LawfulMessageStore σ]

theorem announcing_step (hin : Within s mv) (hstep : s.step mv = some s') (h : Announcing s) :
    Announcing s' := by
  refine ⟨working_step hin hstep h.working, named_step hstep h.named, ?_⟩
  intro id e he m htells
  cases news_of_step h.named hstep with
  | raised _ hcall _ hcalls =>
    rw [Threads.due, hcalls] at he
    exact h.owed id e ((due_perm_of_raising hcall).symm.subset (List.mem_cons_of_mem _ he)) m htells
  | ran heard next _ _ hdue hfalls _ =>
    rcases List.mem_append.mp (hdue.subset he) with hnew | hold
    · exact (hfalls e hnew).isSent h.named htells
    · exact h.owed id e hold m htells

omit [LawfulMessageStore σ] in
theorem told_messageSent (id convoId content : String) (nowMs : UInt64) :
    told id [.messageSent convoId content nowMs.toInt64] =
      if convoId = id then [message (sentEntry content nowMs)] else [] := by
  unfold told
  split
  · next hid =>
    subst hid
    simp [PluginEvent.tells, message, sentEntry]
  · next hid => simp [PluginEvent.tells, hid]

/-- The section of a send that finds its conversation lists the message, and either its
event falls due or it fails. -/
theorem told_entered (hw : Working s) (hdel : id ∉ s.guarded.deleted) :
    told id (enteredSend s mv ++ lostSend s mv) ++ untold id s mv =
      ((said id s mv).map message).filter Message.fromSelf := by
  cases mv with
  | proceed i faults answer nowMs =>
    simp only [enteredSend, lostSend, untold, said]
    cases hcall : s.calls[i]? with
    | none => rfl
    | some call =>
      cases call with
      | sent convoId content =>
        dsimp only
        rw [told_append]
        by_cases hid : convoId = id
        · subst hid
          obtain ⟨session, hget⟩ : ∃ session, s.guarded.chats.get convoId = some session := by
            rcases hw.sends _ (List.mem_of_getElem? hcall) convoId rfl with hsome | hgone
            · exact Option.isSome_iff_exists.mp hsome
            · exact absurd hgone hdel
          have hok : (sendMessageLocked faults convoId content nowMs s.guarded).2 = .ok () ↔
              Entered convoId content nowMs s.guarded
                (sendMessageLocked faults convoId content nowMs s.guarded).1 :=
            sendMessageLocked_ok_iff hget
          by_cases hentered : Entered convoId content nowMs s.guarded
              (sendMessageLocked faults convoId content nowMs s.guarded).1
          · rw [if_pos hentered, told_messageSent]
            simp [hget, hok.mpr hentered, told, message, sentEntry]
          · have hfails := mt hok.mp hentered
            simp [hentered, hget, hfails, told, message, sentEntry]
        · have hother : ∀ p : Prop, [Decidable p] → told id
              (if p then [PluginEvent.messageSent convoId content nowMs.toInt64] else []) = [] := by
            intro p _
            split
            · rw [told_messageSent, if_neg hid]
            · rfl
          rw [hother, hother]
          simp [hid]
      | _ => rfl
  | messageReceived faults convoId content account installation nowMs =>
    simp only [said]
    split <;> rfl
  | _ => rfl

/-- A step lists a message and raises its event, or owes it, or the send fails. -/
theorem heard_step (h : Announcing s) (hdel : id ∉ s.guarded.deleted)
    (hstep : s.step mv = some s') :
    ∃ heard, s'.guarded.raised = s.guarded.raised ++ heard ∧
      ((said id s mv).map message ++ told id s.due).Perm
        (told id heard ++ told id s'.due ++ untold id s mv) ∧
      received ((said id s mv).map message) = received (told id heard) := by
  have hentered : _ = ((said id s mv).map message).filter Message.fromSelf :=
    told_entered h.working hdel
  cases news_of_step h.named hstep with
  | @raised i faults answer nowMs event hmv hcall hraised hcalls =>
    subst hmv
    have hsaid : said id s (.proceed i faults answer nowMs) = [] := by simp [said, hcall]
    have hnone : untold id s (.proceed i faults answer nowMs) = [] := by
      simp [untold, hcall]
    have hdue := due_perm_of_raising hcall
    refine ⟨[event], hraised, ?_, ?_⟩
    · have hleft : s'.due = (s.calls.eraseIdx i).filterMap Call.due := by
        rw [Threads.due, hcalls]
      rw [hsaid, hnone, List.append_nil, ← told_append, hleft]
      exact hdue.filterMap _
    · rw [hsaid]
      -- the event is that of a send, if it tells of a message
      cases htells : event.tells id with
      | none => simp [told, htells, received]
      | some m =>
        have hsent := h.owed id event (hdue.symm.subset List.mem_cons_self) m htells
        cases event with
        | messageSent convoId content timestampMs =>
          obtain ⟨-, rfl⟩ : convoId = id ∧ ⟨true, content, timestampMs, none⟩ = m := by
            simpa [PluginEvent.tells] using htells
          simp [told, htells, received]
        | _ => cases hsent
  | ran heard next hraised hheard hdue hfalls hsent =>
    have htold := told_heard hdel hstep hraised hheard
    have hnext : told id (next.filter PluginEvent.isSent) = told id next :=
      told_sent fun e he m htells => (hfalls e he).isSent h.named htells
    rw [← hsent, hnext] at hentered
    refine ⟨heard, hraised, ?_, ?_⟩
    · have hsplit : ((said id s mv).map message).Perm
          (told id next ++ untold id s mv ++ told id heard) := by
        rw [hentered, htold]
        exact (List.filter_append_perm _ _).symm
      have hlater : (told id s'.due).Perm (told id next ++ told id s.due) := by
        rw [← told_append]
        exact hdue.filterMap _
      rw [List.perm_iff_count]
      intro m
      simp only [List.count_append, hsplit.count_eq, hlater.count_eq]
      omega
    · rw [htold]
      simp [received, List.filter_filter]

end Steps

/-! ## Runs -/

section Runs

variable [LawfulMessageStore σ] {s s₀ s₁ s₂ : Threads σ} {before moves : List Move} {id : String}

omit [LawfulMessageStore σ] in
/-- Deletions are kept. -/
theorem deleted_run (hw : Working s₀) (hrun : (interleaved σ).Run Within s₀ moves s) :
    s₀.guarded.deleted ⊆ s.guarded.deleted := by
  have hkeeps : Working s ∧ s₀.guarded.deleted ⊆ s.guarded.deleted := by
    refine hrun.invariant (I := fun s => Working s ∧ s₀.guarded.deleted ⊆ s.guarded.deleted) ?_
      ⟨hw, Finset.Subset.refl _⟩
    rintro s mv s' hin hstep ⟨hw, hsub⟩
    obtain ⟨c, ⟨new, htouches, -⟩, -⟩ := step_touches hw hin hstep
    exact ⟨working_step hin hstep hw, hsub.trans htouches.remembers⟩
  exact hkeeps.2

/-- What a run lists of a conversation, and what is told of it. -/
theorem heard_run (h : Announcing s₀) (hrun : (interleaved σ).Run Within s₀ moves s)
    (hdel : id ∉ s.guarded.deleted) :
    ∃ heard, s.guarded.raised = s₀.guarded.raised ++ heard ∧
      (((interleaved σ).output (said id) s₀ moves).map message ++ told id s₀.due).Perm
        (told id heard ++ told id s.due ++ (interleaved σ).output (untold id) s₀ moves) ∧
      received (((interleaved σ).output (said id) s₀ moves).map message) =
        received (told id heard) := by
  induction hrun with
  | nil s => exact ⟨[], (List.append_nil _).symm, by simp [told, Machine.output], rfl⟩
  | @cons s₀ s₁ s mv moves hin hs hrun ih =>
    have hdel₀ : id ∉ s₀.guarded.deleted :=
      fun hmem => hdel (deleted_run h.working (.cons hin hs hrun) hmem)
    obtain ⟨first, hraised, hperm, hreceived⟩ := heard_step h hdel₀ hs
    obtain ⟨rest, hraised', hperm', hreceived'⟩ := ih (announcing_step hin hs h) hdel
    rw [Machine.output_cons hs, Machine.output_cons hs, List.map_append]
    refine ⟨first ++ rest, ?_, ?_, ?_⟩
    · rw [hraised', hraised, List.append_assoc]
    · -- what the first step makes due is there for the rest
      rw [List.perm_iff_count] at hperm hperm' ⊢
      intro m
      have hfirst := hperm m
      have hrest := hperm' m
      simp only [told_append, List.count_append] at hfirst hrest ⊢
      omega
    · rw [told_append, received_append, received_append, hreceived, hreceived']

/-- A session begins with nothing due. -/
theorem announcing_init {config : ChatConfig} {env : Environment} (hm : s.world.module = none)
    (hcalls : s.calls = []) (hinit : (interleaved σ).step s (.init config env) = some s₀)
    (hm₀ : s₀.world.module.isSome) : Announcing s₀ ∧ s₀.due = [] := by
  obtain ⟨hw, hcalls₀, -⟩ := working_init hm hcalls hinit hm₀
  have hidle : s₀.due = [] := by
    rw [Threads.due, hcalls₀]
    rfl
  refine ⟨⟨hw, ?_, ?_⟩, hidle⟩
  · intro session event hmem
    simp [hcalls₀] at hmem
  · intro id e he
    rw [hidle] at he
    cases he

theorem announcing_run (h : Announcing s₀) (hrun : (interleaved σ).Run Within s₀ moves s) :
    Announcing s :=
  hrun.invariant (fun _ _ _ hin hstep h => announcing_step hin hstep h) h

/-- A reader takes the messages of a conversation at any moment of a session and hears
the events from then on. What the list gains is what the events tell of, except for the
events that are due at either end and the sends that fail; and the messages received
are told of in the order they are listed. -/
theorem read_and_heard {config : ChatConfig} {env : Environment}
    (hm : s.world.module = none) (hcalls : s.calls = [])
    (hinit : (interleaved σ).step s (.init config env) = some s₀)
    (hm₀ : s₀.world.module.isSome) (hbefore : (interleaved σ).Run Within s₀ before s₁)
    (hrun : (interleaved σ).Run Within s₁ moves s₂) (hdel : id ∉ s₂.guarded.deleted) :
    ∃ heard gained, s₂.guarded.raised = s₁.guarded.raised ++ heard ∧
      getMessages s₂.guarded id = getMessages s₁.guarded id ++ gained ∧
      (gained ++ told id s₁.due).Perm
        (told id heard ++ told id s₂.due ++ (interleaved σ).output (untold id) s₁ moves) ∧
      received gained = received (told id heard) := by
  have hsession := announcing_run (announcing_init hm hcalls hinit hm₀).1 hbefore
  obtain ⟨heard, hraised, hperm, hreceived⟩ := heard_run hsession hrun hdel
  refine ⟨heard, _, hraised, ?_, hperm, hreceived⟩
  rw [getMessages_eq_shown, (logged_run hsession.working hrun id).shown hdel, List.map_append,
    ← getMessages_eq_shown]

omit [MessageStore σ] [LawfulMessageStore σ] in
/-- libchat may name a new conversation while no create is in flight. -/
theorem Within.of_create {id peerAddress : String} (hget : s.guarded.chats.get id = none)
    (hidle : s.creating = []) : Within s (.createConversation (.ok id) peerAddress) := by
  refine ⟨by simp, ?_, ?_⟩
  · intro c hc
    obtain rfl : id = c := Option.some.inj hc
    exact ⟨hget, by simp [hidle]⟩
  · intro c hc
    cases hc

omit [MessageStore σ] [LawfulMessageStore σ] in
/-- And so may a message come. -/
theorem Within.of_receive {faults : Faults} {id account installation : String}
    {content : List UInt8} {nowMs : UInt64} (hidle : s.creating = []) :
    Within s (.messageReceived faults id content account installation nowMs) := by
  refine ⟨by simp, ?_, ?_⟩
  · intro c hc
    cases hc
  · intro c _
    simp [hidle]

/-- Once a send has recorded its message, one arrives, and then the event of the send is
raised. -/
def arriving : List Move := [
  .messageReceived noFaults "c1" [104, 105] "peer" "device" 3,
  .proceed 0 noFaults (.ok ()) 0]

/-- A reader that takes the history before that hears of the message of the send again. -/
theorem read_and_heard_arriving : ∃ s₀ s₁ s₂ : Threads LogStore,
    (interleaved LogStore).step (Threads.start emptyDb none)
      (.init ⟨none⟩ (.up ⟨"name", "addr"⟩ [])) = some s₀ ∧
    (interleaved LogStore).exec s₁ arriving = some s₂ ∧
    getMessages s₁.guarded "c1" = [⟨true, "hello", 2, none⟩] ∧
    told "c1" s₁.due = [⟨true, "hello", 2, none⟩] ∧
    ∃ heard gained, s₂.guarded.raised = s₁.guarded.raised ++ heard ∧
      getMessages s₂.guarded "c1" = getMessages s₁.guarded "c1" ++ gained ∧
      (gained ++ told "c1" s₁.due).Perm (told "c1" heard) ∧
      received gained = received (told "c1" heard) := by
  have hexec : ∃ s₀ a s₁ b s₂ : Threads LogStore,
      (interleaved LogStore).step (Threads.start emptyDb none)
        (.init ⟨none⟩ (.up ⟨"name", "addr"⟩ [])) = some s₀ ∧
      (interleaved LogStore).step s₀ (.createConversation (.ok "c1") "peer") = some a ∧
      (interleaved LogStore).exec a (sendingHello ++ [.proceed 0 noFaults (.ok ()) 2]) = some s₁ ∧
      (interleaved LogStore).step s₁
        (.messageReceived noFaults "c1" [104, 105] "peer" "device" 3) = some b ∧
      (interleaved LogStore).step b (.proceed 0 noFaults (.ok ()) 0) = some s₂ ∧
      (interleaved LogStore).exec s₁ arriving = some s₂ ∧
      s₀.world.module.isSome ∧ s₀.guarded.chats.get "c1" = none ∧ s₀.creating = [] ∧
      s₁.creating = [] ∧ "c1" ∉ s₂.guarded.deleted ∧
      getMessages s₁.guarded "c1" = [⟨true, "hello", 2, none⟩] ∧
      told "c1" s₁.due = [⟨true, "hello", 2, none⟩] ∧ told "c1" s₂.due = [] ∧
      (interleaved LogStore).output (untold "c1") s₁ arriving = [] :=
    ⟨_, _, _, _, _, rfl, rfl, rfl, rfl, rfl, rfl, rfl, rfl, rfl, rfl, by decide, rfl, rfl, rfl, rfl⟩
  obtain ⟨s₀, a, s₁, b, s₂, hinit, hcreate, hsend, hrecv, hraise, hall, hm₀, hget, hnone, hidle,
    hdel, hread, hdue, hdue', hfailed⟩ := hexec
  have hsends : (interleaved LogStore).Run Within a
      (sendingHello ++ [.proceed 0 noFaults (.ok ()) 2]) s₁ := by
    refine (Machine.run_of_exec hsend).imp ?_
    intro mv hmv s _
    simp only [sendingHello, List.cons_append, List.nil_append, List.mem_cons, List.not_mem_nil,
      or_false] at hmv
    rcases hmv with rfl | rfl | rfl | rfl <;>
      exact .of_none (by simp) rfl (fun _ => rfl) s
  have hrun : (interleaved LogStore).Run Within s₁ arriving s₂ :=
    .cons (.of_receive hidle) hrecv (.single (.of_none (by simp) rfl (fun _ => rfl) b) hraise)
  obtain ⟨heard, gained, hraised, hgained, hperm, hreceived⟩ :=
    read_and_heard rfl rfl hinit hm₀ (.cons (.of_create hget hnone) hcreate hsends) hrun hdel
  rw [hdue', hfailed, List.append_nil, List.append_nil] at hperm
  exact ⟨s₀, s₁, s₂, hinit, hall, hread, hdue, heard, gained, hraised, hgained, hperm, hreceived⟩

end Runs

end ChatModule
