import Mathlib.Data.Finset.Max
import Mathlib.Order.Defs.LinearOrder
import Mathlib.Data.List.Pairwise

/-!
# Values grouped under ordered keys

An ordered map from keys to lists of values, grown by adding one value under one key: it
lists its groups with their keys ascending, and the values of a group in the order they
came.

The groups in front of the last `n` are those with at least `n` greater keys
(`mem_front_iff`), which is what a sweep that keeps the `n` greatest takes.
-/

/-- Lists of values under strictly ascending keys. -/
structure Grouped (κ ν : Type*) [LinearOrder κ] where
  groups : List (κ × List ν)
  ascending : (groups.map Prod.fst).Pairwise (· < ·)

namespace Grouped

variable {κ ν : Type*} [LinearOrder κ]

/-- No group. -/
def empty : Grouped κ ν := ⟨[], List.Pairwise.nil⟩

/-- Add a value at the end of its group, which may be new. -/
def pushList (k : κ) (v : ν) : List (κ × List ν) → List (κ × List ν)
  | [] => [(k, [v])]
  | (k', vs) :: rest =>
    if k < k' then (k, [v]) :: (k', vs) :: rest
    else if k = k' then (k', vs ++ [v]) :: rest
    else (k', vs) :: pushList k v rest

theorem mem_keys_pushList {k k' : κ} {v : ν} {gs : List (κ × List ν)} :
    k' ∈ (pushList k v gs).map Prod.fst ↔ k' = k ∨ k' ∈ gs.map Prod.fst := by
  induction gs with
  | nil => simp [pushList]
  | cons g rest ih =>
    obtain ⟨key, vs⟩ := g
    unfold pushList
    split
    · simp
    · split
      · next heq =>
        subst heq
        simp
      · simp only [List.map_cons, List.mem_cons, ih]
        tauto

theorem pushList_ascending {k : κ} {v : ν} {gs : List (κ × List ν)}
    (h : (gs.map Prod.fst).Pairwise (· < ·)) :
    ((pushList k v gs).map Prod.fst).Pairwise (· < ·) := by
  induction gs with
  | nil => simp [pushList]
  | cons g rest ih =>
    obtain ⟨key, vs⟩ := g
    obtain ⟨hhead, htail⟩ := List.pairwise_cons.mp h
    unfold pushList
    split
    · next hlt =>
      refine List.pairwise_cons.mpr ⟨?_, h⟩
      intro k' hk'
      rcases List.mem_cons.mp hk' with rfl | hrest
      · exact hlt
      · exact hlt.trans (hhead k' hrest)
    · next hnot =>
      split
      · exact h
      · next hne =>
        refine List.pairwise_cons.mpr ⟨?_, ih htail⟩
        intro k' hk'
        rcases mem_keys_pushList.mp hk' with rfl | hrest
        · exact lt_of_le_of_ne (not_lt.mp hnot) (Ne.symm hne)
        · exact hhead k' hrest

/-- Add a value at the end of its group. -/
def push (m : Grouped κ ν) (k : κ) (v : ν) : Grouped κ ν :=
  ⟨pushList k v m.groups, pushList_ascending m.ascending⟩

/-- The value `v` is in the group `k`. -/
def Has (m : Grouped κ ν) (k : κ) (v : ν) : Prop := ∃ vs, (k, vs) ∈ m.groups ∧ v ∈ vs

/-- The keys of the groups. -/
def keys (m : Grouped κ ν) : Finset κ := (m.groups.map Prod.fst).toFinset

/-- The values of all groups but the last `n`. -/
def front (m : Grouped κ ν) (n : ℕ) : List ν :=
  (m.groups.take (m.groups.length - n)).flatMap Prod.snd

/-! ## Adding values -/

section Push

variable {m : Grouped κ ν} {k k' : κ} {v v' : ν}

@[simp] theorem keys_empty : (empty : Grouped κ ν).keys = ∅ := rfl

@[simp] theorem not_has_empty : ¬ (empty : Grouped κ ν).Has k v := by
  rintro ⟨vs, hmem, -⟩
  cases hmem

@[simp] theorem mem_keys_push : k' ∈ (m.push k v).keys ↔ k' = k ∨ k' ∈ m.keys := by
  unfold keys push
  rw [List.mem_toFinset, List.mem_toFinset]
  exact mem_keys_pushList

theorem has_pushList {gs : List (κ × List ν)} (h : (gs.map Prod.fst).Pairwise (· < ·)) :
    (∃ vs, (k', vs) ∈ pushList k v gs ∧ v' ∈ vs) ↔
      (k' = k ∧ v' = v) ∨ ∃ vs, (k', vs) ∈ gs ∧ v' ∈ vs := by
  induction gs with
  | nil =>
    simp only [pushList, List.mem_singleton, Prod.mk.injEq, List.not_mem_nil, false_and,
      exists_false, or_false]
    constructor
    · rintro ⟨vs, ⟨rfl, rfl⟩, hv⟩
      exact ⟨rfl, List.mem_singleton.mp hv⟩
    · rintro ⟨rfl, rfl⟩
      exact ⟨_, ⟨rfl, rfl⟩, List.mem_singleton_self _⟩
  | cons g rest ih =>
    obtain ⟨key, vs⟩ := g
    have ih := ih (List.pairwise_cons.mp h).2
    unfold pushList
    split
    · constructor
      · rintro ⟨ws, hmem, hv⟩
        rcases List.mem_cons.mp hmem with heq | hold
        · obtain ⟨rfl, rfl⟩ := Prod.mk.inj heq
          exact Or.inl ⟨rfl, List.mem_singleton.mp hv⟩
        · exact Or.inr ⟨ws, hold, hv⟩
      · rintro (⟨rfl, rfl⟩ | ⟨ws, hold, hv⟩)
        · exact ⟨_, List.mem_cons_self, List.mem_singleton_self _⟩
        · exact ⟨ws, List.mem_cons_of_mem _ hold, hv⟩
    · split
      · next heq =>
        subst heq
        constructor
        · rintro ⟨ws, hmem, hv⟩
          rcases List.mem_cons.mp hmem with heq | hold
          · obtain ⟨rfl, rfl⟩ := Prod.mk.inj heq
            rcases List.mem_append.mp hv with hold | hnew
            · exact Or.inr ⟨vs, List.mem_cons_self, hold⟩
            · exact Or.inl ⟨rfl, List.mem_singleton.mp hnew⟩
          · exact Or.inr ⟨ws, List.mem_cons_of_mem _ hold, hv⟩
        · rintro (⟨rfl, rfl⟩ | ⟨ws, hmem, hv⟩)
          · exact ⟨_, List.mem_cons_self, List.mem_append_right _ (List.mem_singleton_self _)⟩
          · rcases List.mem_cons.mp hmem with heq | hold
            · obtain ⟨rfl, rfl⟩ := Prod.mk.inj heq
              exact ⟨_, List.mem_cons_self, List.mem_append_left _ hv⟩
            · exact ⟨ws, List.mem_cons_of_mem _ hold, hv⟩
      · constructor
        · rintro ⟨ws, hmem, hv⟩
          rcases List.mem_cons.mp hmem with heq | hrest
          · exact Or.inr ⟨ws, by rw [heq]; exact List.mem_cons_self, hv⟩
          · rcases ih.mp ⟨ws, hrest, hv⟩ with hnew | ⟨us, hold, hu⟩
            · exact Or.inl hnew
            · exact Or.inr ⟨us, List.mem_cons_of_mem _ hold, hu⟩
        · rintro (hnew | ⟨ws, hmem, hv⟩)
          · obtain ⟨us, hrest, hu⟩ := ih.mpr (Or.inl hnew)
            exact ⟨us, List.mem_cons_of_mem _ hrest, hu⟩
          · rcases List.mem_cons.mp hmem with heq | hold
            · exact ⟨ws, by rw [heq]; exact List.mem_cons_self, hv⟩
            · obtain ⟨us, hrest, hu⟩ := ih.mpr (Or.inr ⟨ws, hold, hv⟩)
              exact ⟨us, List.mem_cons_of_mem _ hrest, hu⟩

@[simp] theorem has_push : (m.push k v).Has k' v' ↔ (k' = k ∧ v' = v) ∨ m.Has k' v' :=
  has_pushList m.ascending

end Push

/-! ## All groups but the last -/

/-- How many elements of a set are greater than `k`. -/
def above (s : Finset κ) (k : κ) : ℕ := (s.filter (k < ·)).card

theorem above_mono {s t : Finset κ} {k : κ} (h : s ⊆ t) : above s k ≤ above t k :=
  Finset.card_le_card (Finset.filter_subset_filter _ h)

/-- In a strictly ascending list, in front of the last `n` stand those with at least `n`
greater ones. -/
theorem mem_take_sub_iff {ks : List κ} (h : ks.Pairwise (· < ·)) {k : κ} (hk : k ∈ ks) (n : ℕ) :
    k ∈ ks.take (ks.length - n) ↔ n ≤ above ks.toFinset k := by
  obtain ⟨before, after, rfl⟩ := List.append_of_mem hk
  obtain ⟨-, hafter, hacross⟩ := List.pairwise_append.mp h
  obtain ⟨hgreater, hrest⟩ := List.pairwise_cons.mp hafter
  have hless : ∀ b ∈ before, b < k := fun b hb => hacross b hb k List.mem_cons_self
  -- the greater ones are those that come after
  have hfilter : (before ++ k :: after).toFinset.filter (k < ·) = after.toFinset := by
    ext b
    simp only [Finset.mem_filter, List.mem_toFinset, List.mem_append, List.mem_cons]
    constructor
    · rintro ⟨hb | rfl | hb, hlt⟩
      · exact absurd hlt (hless b hb).asymm
      · exact absurd hlt (lt_irrefl b)
      · exact hb
    · intro hb
      exact ⟨Or.inr (Or.inr hb), hgreater b hb⟩
  have hnodup : after.Nodup := hrest.imp fun hlt => ne_of_lt hlt
  rw [above, hfilter, List.toFinset_card_of_nodup hnodup, List.length_append, List.length_cons]
  constructor
  · intro hmem
    by_contra hlt
    have hshort : before.length + (after.length + 1) - n ≤ before.length := by omega
    rw [List.take_append_of_le_length hshort] at hmem
    exact lt_irrefl k (hless k (List.mem_of_mem_take hmem))
  · intro hle
    have hsplit : before.length + (after.length + 1) - n =
        before.length + (after.length - n + 1) := by omega
    rw [hsplit, List.take_length_add_append, List.take_succ_cons]
    exact List.mem_append_right _ List.mem_cons_self

/-- At most `n` elements have fewer than `n` greater ones. -/
theorem card_greatest_le (s : Finset κ) (n : ℕ) :
    (s.filter fun k => above s k < n).card ≤ n := by
  by_contra hlt
  rw [not_le] at hlt
  -- the least of them has all the others above it
  obtain ⟨k, hk, hleast⟩ := Finset.exists_min_image _ id
    (Finset.card_pos.mp (Nat.lt_of_le_of_lt (Nat.zero_le n) hlt))
  obtain ⟨hmem, hfew⟩ := Finset.mem_filter.mp hk
  have hsub : (s.filter fun k => above s k < n).erase k ⊆ s.filter (k < ·) := by
    intro k' hk'
    obtain ⟨hne, hin⟩ := Finset.mem_erase.mp hk'
    exact Finset.mem_filter.mpr
      ⟨(Finset.mem_filter.mp hin).1, lt_of_le_of_ne (hleast k' hin) (Ne.symm hne)⟩
  have hcard := Finset.card_le_card hsub
  rw [Finset.card_erase_of_mem hk] at hcard
  change above s k < n at hfew
  change _ ≤ above s k at hcard
  omega

/-- A value is in front of the last `n` groups when its key is under at least `n` others. -/
theorem mem_front_iff {m : Grouped κ ν} {n : ℕ} {v : ν} :
    v ∈ m.front n ↔ ∃ k, m.Has k v ∧ n ≤ above m.keys k := by
  have htake : ∀ k vs, (k, vs) ∈ m.groups →
      ((k, vs) ∈ m.groups.take (m.groups.length - n) ↔ n ≤ above m.keys k) := by
    intro k vs hmem
    have hk : k ∈ m.groups.map Prod.fst := List.mem_map_of_mem hmem
    have hiff := mem_take_sub_iff m.ascending hk n
    rw [List.length_map, ← List.map_take] at hiff
    rw [keys, ← hiff]
    constructor
    · intro hin
      exact List.mem_map_of_mem hin
    · intro hin
      -- a key has one group
      obtain ⟨⟨k', ws⟩, hin', rfl⟩ := List.mem_map.mp hin
      have hinj := List.inj_on_of_nodup_map (m.ascending.imp fun hlt => ne_of_lt hlt)
      rw [hinj hmem (List.mem_of_mem_take hin') rfl]
      exact hin'
  unfold front Has
  rw [List.mem_flatMap]
  constructor
  · rintro ⟨⟨k, vs⟩, hin, hv⟩
    have hmem := List.mem_of_mem_take hin
    exact ⟨k, ⟨vs, hmem, hv⟩, (htake k vs hmem).mp hin⟩
  · rintro ⟨k, ⟨vs, hmem, hv⟩, hle⟩
    exact ⟨(k, vs), (htake k vs hmem).mpr hle, hv⟩

/-! ## The greatest elements -/

/-- The `n` greatest elements of a set. -/
def greatest (s : Finset κ) (n : ℕ) : Finset κ := s.filter fun k => above s k < n

section Greatest

variable {s : Finset κ} {k x : κ} {n : ℕ}

theorem mem_greatest : k ∈ greatest s n ↔ k ∈ s ∧ above s k < n := Finset.mem_filter

theorem above_insert [DecidableEq κ] (s : Finset κ) (k x : κ) :
    above (insert x s) k = above s k + if k < x ∧ x ∉ s then 1 else 0 := by
  unfold above
  rw [Finset.filter_insert]
  by_cases hlt : k < x
  · rw [if_pos hlt]
    by_cases hin : x ∈ s
    · rw [Finset.insert_eq_of_mem (Finset.mem_filter.mpr ⟨hin, hlt⟩)]
      simp [hin]
    · rw [Finset.card_insert_of_notMem fun hmem => hin (Finset.mem_filter.mp hmem).1]
      simp [hlt, hin]
  · simp [hlt]

/-- There are as many as there can be. -/
theorem card_greatest (s : Finset κ) (n : ℕ) : (greatest s n).card = min n s.card := by
  induction s using Finset.induction_on_max generalizing n with
  | empty => simp [greatest]
  | insert m s hmax ih =>
    have hnot : m ∉ s := fun hin => lt_irrefl m (hmax m hin)
    have habove : ∀ k ∈ s, above (insert m s) k = above s k + 1 := by
      intro k hk
      rw [above_insert, if_pos ⟨hmax k hk, hnot⟩]
    have htop : above (insert m s) m = 0 := by
      rw [above_insert, if_neg fun h => lt_irrefl m h.1, above,
        Finset.filter_eq_empty_iff.mpr fun k hk => (hmax k hk).asymm]
      rfl
    rw [Finset.card_insert_of_notMem hnot]
    cases n with
    | zero => simp [greatest]
    | succ n =>
      -- the new element is the greatest, and goes before `n` of the others
      have hsplit : greatest (insert m s) (n + 1) = insert m (greatest s n) := by
        ext k
        rw [mem_greatest, Finset.mem_insert, Finset.mem_insert, mem_greatest]
        constructor
        · rintro ⟨rfl | hk, hlt⟩
          · exact Or.inl rfl
          · rw [habove k hk] at hlt
            exact Or.inr ⟨hk, by omega⟩
        · rintro (rfl | ⟨hk, hlt⟩)
          · exact ⟨Or.inl rfl, by omega⟩
          · exact ⟨Or.inr hk, by rw [habove k hk]; omega⟩
      rw [hsplit, Finset.card_insert_of_notMem fun hin => hnot (mem_greatest.mp hin).1, ih]
      omega

/-- Of the `n` greatest, as many are above an element as there are, up to `n`. -/
theorem above_greatest (s : Finset κ) (n : ℕ) (k : κ) :
    above (greatest s n) k = min n (above s k) := by
  have hfilter : (greatest s n).filter (k < ·) = greatest (s.filter (k < ·)) n := by
    ext k'
    have habove : ∀ {k'}, k < k' → above (s.filter (k < ·)) k' = above s k' := by
      intro k' hlt
      unfold above
      rw [Finset.filter_filter]
      congr 1
      ext k''
      simp only [Finset.mem_filter]
      constructor
      · rintro ⟨hmem, -, hlt'⟩
        exact ⟨hmem, hlt'⟩
      · rintro ⟨hmem, hlt'⟩
        exact ⟨hmem, hlt.trans hlt', hlt'⟩
    rw [Finset.mem_filter, mem_greatest, mem_greatest, Finset.mem_filter]
    constructor
    · rintro ⟨⟨hmem, hfew⟩, hlt⟩
      exact ⟨⟨hmem, hlt⟩, by rwa [habove hlt]⟩
    · rintro ⟨⟨hmem, hlt⟩, hfew⟩
      rw [habove hlt] at hfew
      exact ⟨⟨hmem, hfew⟩, hlt⟩
  rw [above, hfilter, card_greatest]
  rfl

/-- What is not among the `n` greatest does not come back when an element is added. -/
theorem greatest_insert [DecidableEq κ] (s : Finset κ) (x : κ) (n : ℕ) :
    greatest (insert x (greatest s n)) n = greatest (insert x s) n := by
  ext k
  rw [mem_greatest, mem_greatest, Finset.mem_insert, Finset.mem_insert, mem_greatest,
    above_insert, above_insert, above_greatest]
  by_cases hx : x ∈ s
  · by_cases hlt : k < x
    · -- all that is above `x` is above `k`, and so is `x`
      have hmore : above s x + 1 ≤ above s k := by
        have hsub : insert x (s.filter (x < ·)) ⊆ s.filter (k < ·) := by
          intro k' hk'
          rcases Finset.mem_insert.mp hk' with rfl | hk'
          · exact Finset.mem_filter.mpr ⟨hx, hlt⟩
          · obtain ⟨hmem, hlt'⟩ := Finset.mem_filter.mp hk'
            exact Finset.mem_filter.mpr ⟨hmem, hlt.trans hlt'⟩
        have hcard := Finset.card_le_card hsub
        rw [Finset.card_insert_of_notMem fun hin => lt_irrefl x (Finset.mem_filter.mp hin).2]
          at hcard
        exact hcard
      have hne : k ≠ x := ne_of_lt hlt
      simp only [hx, hlt, hne, not_true_eq_false, and_false, if_false, false_or, add_zero,
        mem_greatest, true_and]
      by_cases hk : k ∈ s
      · simp only [hk, true_and]
        split <;> omega
      · simp [hk]
    · simp only [hlt, false_and, if_false, add_zero]
      constructor
      · rintro ⟨rfl | ⟨hk, -⟩, hfew⟩
        · exact ⟨Or.inl rfl, by omega⟩
        · exact ⟨Or.inr hk, by omega⟩
      · rintro ⟨rfl | hk, hfew⟩
        · exact ⟨Or.inl rfl, by omega⟩
        · exact ⟨Or.inr ⟨hk, by omega⟩, by omega⟩
  · have hx' : x ∉ greatest s n := fun hin => hx (mem_greatest.mp hin).1
    simp only [hx, hx', not_false_eq_true, and_true]
    -- the new element adds the same on both sides
    generalize (if k < x then 1 else 0) = added
    constructor
    · rintro ⟨rfl | ⟨hk, -⟩, hfew⟩
      · exact ⟨Or.inl rfl, by omega⟩
      · exact ⟨Or.inr hk, by omega⟩
    · rintro ⟨rfl | hk, hfew⟩
      · exact ⟨Or.inl rfl, by omega⟩
      · exact ⟨Or.inr ⟨hk, by omega⟩, by omega⟩

end Greatest

end Grouped
