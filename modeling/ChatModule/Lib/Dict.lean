import Mathlib.Data.List.Nodup

/-!
# Dictionaries that keep their order

A dictionary lists its keys in the order in which they were first assigned to: an assignment
to a key that is there replaces the value where it stands. What an operation does is said once
through `get` (`Dict.get_assign`, `Dict.get_keep`, `Dict.get_update`), and the entries are
those that `get` finds (`Dict.mem_entries_iff`).
-/

/-- A dictionary, no key of which is listed twice. -/
structure Dict (κ ν : Type*) where
  entries : List (κ × ν)
  nodup : (entries.map Prod.fst).Nodup

namespace Dict

variable {κ ν : Type*}

/-- The dictionary with nothing in it. -/
def empty : Dict κ ν := ⟨[], List.nodup_nil⟩

/-- Delete the entries of which `p` does not hold. -/
def keep (p : κ → ν → Bool) (d : Dict κ ν) : Dict κ ν where
  entries := d.entries.filter fun e => p e.1 e.2
  nodup := d.nodup.sublist (List.filter_sublist.map _)

variable [DecidableEq κ]

/-- The value of a key. -/
def get (d : Dict κ ν) (k : κ) : Option ν := (d.entries.find? (·.1 = k)).map Prod.snd

/-- `d[k] = v`. -/
def assign (d : Dict κ ν) (k : κ) (v : ν) : Dict κ ν where
  entries :=
    if k ∈ d.entries.map Prod.fst then d.entries.map fun e => if e.1 = k then (k, v) else e
    else d.entries ++ [(k, v)]
  nodup := by
    split
    · -- the keys are what they were
      have hkeys : (d.entries.map fun e => if e.1 = k then (k, v) else e).map Prod.fst =
          d.entries.map Prod.fst := by
        rw [List.map_map]
        apply List.map_congr_left
        intro e _
        by_cases he : e.1 = k
        · simp [he]
        · simp [he]
      rw [hkeys]
      exact d.nodup
    · next hnot =>
      rw [List.map_append, List.nodup_append]
      refine ⟨d.nodup, by simp, ?_⟩
      intro k₁ h₁ k₂ h₂ heq
      obtain rfl : k₂ = k := by simpa using h₂
      exact hnot (heq ▸ h₁)

/-- Assign what `p` holds of in another dictionary, in its order. -/
def update (d other : Dict κ ν) (p : κ → ν → Bool) : Dict κ ν :=
  other.entries.foldl (fun d e => if p e.1 e.2 then d.assign e.1 e.2 else d) d

/-! ## Reading back -/

section Reading

variable {d : Dict κ ν} {k k' : κ} {v : ν} {p : κ → ν → Bool}

/-- The entries are what is read. -/
theorem mem_entries_iff : (k, v) ∈ d.entries ↔ d.get k = some v := by
  obtain ⟨entries, hnodup⟩ := d
  unfold get
  induction entries with
  | nil => simp
  | cons e entries ih =>
    rw [List.map_cons, List.nodup_cons] at hnodup
    have hrest := ih hnodup.2
    by_cases he : e.1 = k
    · -- no later entry has the key
      have hnot : (k, v) ∉ entries := fun hmem =>
        hnodup.1 (he ▸ List.mem_map_of_mem (f := Prod.fst) hmem)
      rw [List.find?_cons_of_pos (by simpa using he), List.mem_cons, or_iff_left hnot,
        Option.map_some, Option.some.injEq, Prod.ext_iff]
      constructor
      · rintro ⟨-, hv⟩
        exact hv.symm
      · intro hv
        exact ⟨he.symm, hv.symm⟩
    · rw [List.find?_cons_of_neg (by simpa using he), List.mem_cons, ← hrest, or_iff_right]
      rintro rfl
      exact he rfl

theorem get_eq_none_iff : d.get k = none ↔ k ∉ d.entries.map Prod.fst := by
  unfold get
  rw [Option.map_eq_none_iff, List.find?_eq_none, List.mem_map]
  constructor
  · rintro h ⟨e, hmem, he⟩
    exact h e hmem (decide_eq_true he)
  · intro h e hmem he
    exact h ⟨e, hmem, of_decide_eq_true he⟩

@[simp] theorem get_empty (k : κ) : (empty : Dict κ ν).get k = none := rfl

theorem get_assign (d : Dict κ ν) (k k' : κ) (v : ν) :
    (d.assign k v).get k' = if k' = k then some v else d.get k' := by
  ext w
  rw [← mem_entries_iff]
  unfold assign
  by_cases hin : k ∈ d.entries.map Prod.fst
  · simp only [hin, if_true, List.mem_map]
    by_cases hk : k' = k
    · subst hk
      simp only [if_true, Option.some.injEq]
      constructor
      · rintro ⟨e, -, he⟩
        split at he
        · exact (Prod.mk.inj he).2
        · next hne => exact absurd (congrArg Prod.fst he) hne
      · rintro rfl
        obtain ⟨e, hmem, rfl⟩ := List.mem_map.mp hin
        exact ⟨e, hmem, by simp⟩
    · rw [if_neg hk, ← mem_entries_iff]
      constructor
      · rintro ⟨e, hmem, he⟩
        split at he
        · exact absurd (Prod.mk.inj he).1.symm hk
        · exact he ▸ hmem
      · intro hmem
        exact ⟨(k', w), hmem, by simp [hk]⟩
  · simp only [hin, if_false, List.mem_append, List.mem_singleton, Prod.mk.injEq]
    rw [mem_entries_iff]
    by_cases hk : k' = k
    · subst hk
      have hnone := get_eq_none_iff.mpr hin
      simp [hnone, eq_comm]
    · simp [hk]

theorem get_keep (p : κ → ν → Bool) (d : Dict κ ν) (k : κ) :
    (d.keep p).get k = (d.get k).filter (p k) := by
  ext w
  rw [← mem_entries_iff, Option.filter_eq_some_iff, ← mem_entries_iff]
  simp [keep]

/-- What `p` holds of in the other dictionary comes first. -/
theorem get_update (d other : Dict κ ν) (p : κ → ν → Bool) (k : κ) :
    (d.update other p).get k = ((other.get k).filter (p k)).or (d.get k) := by
  have hgeneral : ∀ (entries : List (κ × ν)) (hnodup : (entries.map Prod.fst).Nodup)
      (d : Dict κ ν), (entries.foldl (fun d e => if p e.1 e.2 then d.assign e.1 e.2 else d)
        d).get k = (((⟨entries, hnodup⟩ : Dict κ ν).get k).filter (p k)).or (d.get k) := by
    intro entries
    induction entries with
    | nil => simp [get]
    | cons e entries ih =>
      intro hnodup d
      obtain ⟨k₁, v₁⟩ := e
      have hnodup' := hnodup
      rw [List.map_cons, List.nodup_cons] at hnodup'
      rw [List.foldl_cons, ih hnodup'.2]
      by_cases he : k₁ = k
      · subst he
        -- no later entry has the key
        have hnone : (⟨entries, hnodup'.2⟩ : Dict κ ν).get k₁ = none :=
          get_eq_none_iff.mpr hnodup'.1
        have hself : (⟨(k₁, v₁) :: entries, hnodup⟩ : Dict κ ν).get k₁ = some v₁ := by
          simp [get]
        rw [hnone, hself]
        by_cases hp : p k₁ v₁ = true
        · simp [hp, get_assign, Option.filter_some]
        · simp [hp, Option.filter_some]
      · have hskip : (⟨(k₁, v₁) :: entries, hnodup⟩ : Dict κ ν).get k =
            (⟨entries, hnodup'.2⟩ : Dict κ ν).get k := by
          simp [get, he]
        have hkept : (if p k₁ v₁ then d.assign k₁ v₁ else d).get k = d.get k := by
          split
          · rw [get_assign, if_neg (Ne.symm he)]
          · rfl
        rw [hskip, hkept]
  exact hgeneral other.entries other.nodup d

end Reading

end Dict
