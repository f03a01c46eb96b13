import Mathlib.Data.Finset.Basic
import Mathlib.Data.Finset.Lattice.Lemmas
import ChatModule.Lib.Basic

/-!
# Remembering the most recent entries of a log

A log that only grows, of which only the last `n` entries are kept: in a queue, to
know which entry to forget next, and in a set, to ask whether an entry is kept
(`Remembers`). Keeping the two in step is two rules, `Remembers.push` while there is
room and `Remembers.evict` at capacity.

`List.sift key n` is what they are kept for: the elements of a list that are let
through when an element is dropped whose key is among the keys of the last `n`
elements let through before it.
-/

namespace List

variable {α β κ : Type*}

/-- A page of a log that has grown by one entry: the oldest entry leaves it, unless
the page had room. -/
theorem rtake_concat (l : List α) (a : α) (n : ℕ) :
    (l ++ [a]).rtake (n + 1) = l.rtake n ++ [a] := by
  unfold rtake
  have hlen : (l ++ [a]).length - (n + 1) = l.length - n := by
    rw [length_append, length_singleton]
    omega
  rw [hlen, drop_append_of_le_length (by omega)]

/-- A page without its oldest entry. -/
theorem tail_rtake {l : List α} {n : ℕ} (h : n < l.length) :
    (l.rtake (n + 1)).tail = l.rtake n := by
  unfold rtake
  rw [tail_drop]
  congr 1
  omega

/-! ## The sieve -/

section Sift

variable [DecidableEq κ] (key : β → κ) (n : ℕ)

/-- Let `b` through, after `kept`, unless its key was let through recently. -/
def siftStep (kept : List β) (b : β) : List β :=
  if key b ∈ (kept.map key).rtake n then kept else kept ++ [b]

/-- The elements let through, those dropped being the ones whose key is among the keys
of the last `n` elements let through before them. -/
def sift (l : List β) : List β := l.foldl (siftStep key n) []

@[simp] theorem sift_nil : ([] : List β).sift key n = [] := rfl

theorem sift_concat (l : List β) (b : β) :
    (l ++ [b]).sift key n =
      if key b ∈ ((l.sift key n).map key).rtake n then l.sift key n else l.sift key n ++ [b] := by
  unfold sift
  rw [foldl_append]
  rfl

/-- Nothing is let through twice within the window: equal keys are more than `n`
places apart. -/
theorem sift_apart (l : List β) {i j : ℕ} (hij : i < j) (hj : j ≤ i + n) {k : κ}
    (hi : ((l.sift key n).map key)[i]? = some k) : ((l.sift key n).map key)[j]? ≠ some k := by
  -- by induction on the list from its end, where elements are let through
  induction l using List.reverseRecOn with
  | nil => simp at hi
  | append_singleton l b ih =>
    rw [sift_concat] at hi ⊢
    split at hi
    · next hrecent =>
      rw [if_pos hrecent]
      exact ih hi
    · next hrecent =>
      rw [if_neg hrecent]
      rw [map_append, map_cons, map_nil] at hi ⊢
      intro hjk
      by_cases hold : j < ((l.sift key n).map key).length
      · rw [getElem?_append_left hold] at hjk
        rw [getElem?_append_left (by omega)] at hi
        exact ih hi hjk
      · -- `j` is the place of `b`, and its key is not in the page that `i` is in
        obtain ⟨hbound, -⟩ := List.getElem?_eq_some_iff.mp hjk
        have hlast : j = ((l.sift key n).map key).length := by
          simp only [length_append, length_singleton] at hbound
          omega
        rw [hlast, getElem?_concat_length, Option.some.injEq] at hjk
        rw [getElem?_append_left (by omega)] at hi
        refine hrecent ?_
        rw [hjk]
        rw [← getElem?_rtake (n := n) (by omega)] at hi
        exact List.mem_of_getElem? hi

end Sift

end List

/-! ## The queue and the set -/

/-- `members` and `order` are the last `n` entries of `log`, which are distinct. -/
structure Remembers {κ : Type*} [DecidableEq κ] (n : ℕ) (log : List κ) (members : Finset κ)
    (order : List κ) : Prop where
  window : order = log.rtake n
  nodup : order.Nodup
  members : members = order.toFinset

namespace Remembers

variable {κ : Type*} [DecidableEq κ] {n : ℕ} {log order : List κ} {members : Finset κ}
  {k oldest : κ}

theorem nil (n : ℕ) : Remembers n ([] : List κ) ∅ [] := ⟨by simp, List.nodup_nil, rfl⟩

/-- The set answers for the window. -/
theorem mem_iff (h : Remembers n log members order) : k ∈ members ↔ k ∈ log.rtake n := by
  rw [h.members, List.mem_toFinset, h.window]

theorem length_eq (h : Remembers n log members order) : order.length = min n log.length := by
  rw [h.window, List.length_rtake]

/-- While there is room nothing is forgotten. -/
theorem push (h : Remembers n log members order) (hk : k ∉ members) (hroom : order.length ≠ n) :
    Remembers n (log ++ [k]) (insert k members) (order ++ [k]) := by
  have hlen := h.length_eq
  have hnew : k ∉ order := by
    rwa [h.members, List.mem_toFinset] at hk
  constructor
  · -- the log is as short as the queue, so the queue is the log
    rw [h.window, List.rtake_of_length_le (by omega), List.rtake_of_length_le]
    rw [List.length_append, List.length_singleton]
    omega
  · exact List.nodup_append.mpr ⟨h.nodup, List.nodup_singleton k, by
      intro a ha b hb
      rw [List.mem_singleton.mp hb]
      rintro rfl
      exact hnew ha⟩
  · rw [h.members, List.toFinset_append]
    ext a
    simp

/-- At capacity the oldest entry makes way. -/
theorem evict (h : Remembers n log members (oldest :: order)) (hk : k ∉ members)
    (hfull : (oldest :: order).length = n) :
    Remembers n (log ++ [k]) (insert k (members.erase oldest)) (order ++ [k]) := by
  have hnodup := List.nodup_cons.mp h.nodup
  have hnew : k ∉ oldest :: order := by
    rwa [h.members, List.mem_toFinset] at hk
  have hlen := h.length_eq
  constructor
  · obtain ⟨m, rfl⟩ : ∃ m, n = m + 1 := ⟨order.length, hfull.symm⟩
    rw [List.rtake_concat, ← List.tail_rtake (by omega), ← h.window]
    rfl
  · exact List.nodup_append.mpr ⟨hnodup.2, List.nodup_singleton k, by
      intro a ha b hb
      rw [List.mem_singleton.mp hb]
      rintro rfl
      exact hnew (List.mem_cons_of_mem _ ha)⟩
  · rw [h.members, List.toFinset_cons, Finset.erase_insert (by simpa using hnodup.1),
      List.toFinset_append]
    ext a
    simp

end Remembers
