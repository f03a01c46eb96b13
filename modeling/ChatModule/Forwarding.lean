import ChatModule.Inbound
import ChatModule.Lib.Recency

/-!
# Inbound messages are forwarded once

The bridge hands the events of delivery_module to `forwardMessage` one by one. What
reaches the client is a sieve over the messages of chat topics, and what
`SeenMessages` holds is the window the sieve looks at: the hashes of the last
`seenCapacity` messages forwarded.
-/

namespace ChatModule.Inbound

/-! ## One sighting -/

section Sighting

variable {seen : SeenMessages} {log : List String} {hash : String}

/-- The hashes remembered are those of the last messages forwarded. -/
abbrev SeenMessages.Window (log : List String) (seen : SeenMessages) : Prop :=
  Remembers seenCapacity log seen.hashes seen.order

theorem firstSighting_of_seen (h : seen.Window log) (hash_seen : hash ∈ log.rtake seenCapacity) :
    seen.firstSighting hash = (seen, false) := by
  have hmem : hash ∈ seen.hashes := h.mem_iff.mpr hash_seen
  unfold SeenMessages.firstSighting
  rw [if_pos hmem]

/-- A first sighting moves the window on by one, whether it was full or not. -/
theorem firstSighting_of_new (h : seen.Window log) (hnew : hash ∉ log.rtake seenCapacity) :
    ∃ seen', seen.firstSighting hash = (seen', true) ∧ seen'.Window (log ++ [hash]) := by
  have hmem : hash ∉ seen.hashes := fun hmem => hnew (h.mem_iff.mp hmem)
  unfold SeenMessages.firstSighting
  rw [if_neg hmem]
  refine ⟨_, rfl, ?_⟩
  by_cases hfull : seen.order.length = seenCapacity
  · rw [if_pos hfull]
    obtain ⟨hashes, order⟩ := seen
    cases order with
    | nil =>
      -- the capacity is not zero
      simp [seenCapacity] at hfull
    | cons oldest order => exact h.evict hmem hfull
  · rw [if_neg hfull]
    exact h.push hmem hfull

end Sighting

/-! ## A sequence of events -/

section Events

variable {ε : Type} (decode : ε → Option MessageReceived)

/-- The bridge as it starts. -/
def Forwarded.start : Forwarded := ⟨.default, []⟩

/-- The events of a bridge, handed to `forwardMessage` one by one. -/
def forwardMessages (evts : List ε) : Forwarded :=
  evts.foldl (fun s evt => forwardMessage decode evt s) .start

/-- The messages among the events: those that decode and are of a chat topic. -/
def chatMessages (evts : List ε) : List MessageReceived :=
  (evts.filterMap decode).filter ofChatTopic

/-- The messages let through, once each within a window of `seenCapacity`. -/
def firstSightings (evts : List ε) : List MessageReceived :=
  (chatMessages decode evts).sift MessageReceived.messageHash seenCapacity

theorem forwardMessages_concat (evts : List ε) (evt : ε) :
    forwardMessages decode (evts ++ [evt]) =
      forwardMessage decode evt (forwardMessages decode evts) := by
  unfold forwardMessages
  rw [List.foldl_append]
  rfl

/-- An event that is no message of a chat topic leaves the sieve alone. -/
theorem firstSightings_concat_of_other (evts : List ε) (evt : ε)
    (h : ∀ msg, decode evt = some msg → ofChatTopic msg = false) :
    firstSightings decode (evts ++ [evt]) = firstSightings decode evts := by
  have hmsgs : chatMessages decode (evts ++ [evt]) = chatMessages decode evts := by
    unfold chatMessages
    rw [List.filterMap_append, List.filter_append]
    cases hdec : decode evt with
    | none => simp [hdec]
    | some msg => simp [hdec, h msg hdec]
  unfold firstSightings
  rw [hmsgs]

/-- A message of a chat topic goes through unless it did recently. -/
theorem firstSightings_concat (evts : List ε) {evt : ε} {msg : MessageReceived}
    (hdec : decode evt = some msg) (hchat : ofChatTopic msg = true) :
    firstSightings decode (evts ++ [evt]) =
      if msg.messageHash ∈ ((firstSightings decode evts).map MessageReceived.messageHash).rtake
          seenCapacity
      then firstSightings decode evts else firstSightings decode evts ++ [msg] := by
  have hmsgs : chatMessages decode (evts ++ [evt]) = chatMessages decode evts ++ [msg] := by
    unfold chatMessages
    rw [List.filterMap_append, List.filter_append]
    simp [hdec, hchat]
  unfold firstSightings
  rw [hmsgs, List.sift_concat]

/-- After any events the bridge has pushed what the sieve lets through, and remembers
the window the sieve looks at. -/
structure Sieved (evts : List ε) (s : Forwarded) : Prop where
  inbound : s.inbound = (firstSightings decode evts).map MessageReceived.payload
  window : s.seen.Window ((firstSightings decode evts).map MessageReceived.messageHash)

variable {decode} in
/-- One event more. -/
theorem Sieved.forward {evts : List ε} {s : Forwarded} (h : Sieved decode evts s) (evt : ε) :
    Sieved decode (evts ++ [evt]) (forwardMessage decode evt s) := by
  unfold forwardMessage
  cases hdec : decode evt with
  | none =>
    have hsame := firstSightings_concat_of_other decode evts evt (by simp [hdec])
    exact ⟨by rw [hsame]; exact h.inbound, by rw [hsame]; exact h.window⟩
  | some msg =>
    cases hchat : ofChatTopic msg with
    | false =>
      -- dropped before the hash is looked at
      have hsame := firstSightings_concat_of_other decode evts evt
        (by simp [hdec, hchat])
      simp only [hchat, Bool.not_false, if_true]
      exact ⟨by rw [hsame]; exact h.inbound, by rw [hsame]; exact h.window⟩
    | true =>
      have hnext := firstSightings_concat decode evts hdec hchat
      simp only [hchat, Bool.not_true, Bool.false_eq_true, if_false]
      by_cases hseen : msg.messageHash ∈
          ((firstSightings decode evts).map MessageReceived.messageHash).rtake seenCapacity
      · rw [if_pos hseen] at hnext
        rw [firstSighting_of_seen h.window hseen]
        exact ⟨by rw [hnext]; exact h.inbound, by rw [hnext]; exact h.window⟩
      · rw [if_neg hseen] at hnext
        obtain ⟨seen, hfirst, hwindow⟩ := firstSighting_of_new h.window hseen
        rw [hfirst]
        constructor
        · rw [hnext, List.map_append, h.inbound]
          rfl
        · rw [hnext, List.map_append]
          exact hwindow

theorem sieved_forwardMessages (evts : List ε) :
    Sieved decode evts (forwardMessages decode evts) := by
  induction evts using List.reverseRecOn with
  | nil => exact ⟨rfl, Remembers.nil _⟩
  | append_singleton evts evt ih =>
    rw [forwardMessages_concat]
    exact ih.forward evt

/-- The payloads pushed to the client are those of the chat messages sieved by a window
of `seenCapacity` hashes, no hash twice within it; and the set and the queue that
`SeenMessages` keeps are that window. -/
theorem forwardMessages_exact (evts : List ε) :
    (forwardMessages decode evts).inbound =
        (firstSightings decode evts).map MessageReceived.payload ∧
      (∀ i j k, i < j → j ≤ i + seenCapacity →
        ((firstSightings decode evts).map MessageReceived.messageHash)[i]? = some k →
        ((firstSightings decode evts).map MessageReceived.messageHash)[j]? ≠ some k) ∧
      (forwardMessages decode evts).seen.order =
        ((firstSightings decode evts).map MessageReceived.messageHash).rtake seenCapacity ∧
      (forwardMessages decode evts).seen.hashes =
        (forwardMessages decode evts).seen.order.toFinset ∧
      (forwardMessages decode evts).seen.order.Nodup ∧
      (forwardMessages decode evts).seen.order.length ≤ seenCapacity := by
  have hsieved := sieved_forwardMessages decode evts
  have hlen := hsieved.window.length_eq
  have hbound : (forwardMessages decode evts).seen.order.length ≤ seenCapacity :=
    hlen.trans_le (Nat.min_le_left _ _)
  refine ⟨hsieved.inbound, ?_, hsieved.window.window, hsieved.window.members,
    hsieved.window.nodup, hbound⟩
  intro i j k hij hj hi
  apply List.sift_apart _ _ _ hij hj hi

/-- A message that comes back is forwarded once, and one of another topic is not. -/
example : (forwardMessages some [⟨"0xa", "/logos-chat/1/a/proto", [1]⟩,
    ⟨"0xb", "/waku/1/a/proto", [2]⟩, ⟨"0xa", "/logos-chat/1/a/proto", [1]⟩]).inbound = [[1]] := by
  decide

end Events

end ChatModule.Inbound
