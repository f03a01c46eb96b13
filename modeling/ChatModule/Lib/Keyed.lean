import Mathlib.Data.Finmap

/-!
# Collections keyed by a field of their values

A hash map from the name of a thing to the thing itself stores the name twice:
as the map's key and inside the value. `Keyed key` is such a map with the two
tied together, so that reading a value gives its name back.

The values are a multiset, since a hash map lists them in no particular order.
Two collections that answer every `get` alike are equal (`Keyed.ext_get`), and
their values are determined by `get` (`Keyed.mem_values`, `Keyed.nodup_values`).
-/

/-- A finite map whose every value carries its own key. -/
structure Keyed {κ ν : Type*} [DecidableEq κ] (key : ν → κ) where
  map : Finmap fun _ : κ => ν
  keyed : ∀ k v, map.lookup k = some v → key v = k

namespace Keyed

variable {κ ν : Type*} [DecidableEq κ] {key : ν → κ}

/-- The value stored under `k`. -/
def get (c : Keyed key) (k : κ) : Option ν := c.map.lookup k

/-- Whether a value is stored under `k`. -/
def contains (c : Keyed key) (k : κ) : Bool := (c.get k).isSome

/-- The collection with nothing in it. -/
def empty : Keyed key := ⟨∅, by simp⟩

/-- Store `v` under its own key, in place of what was there. -/
def insert (c : Keyed key) (v : ν) : Keyed key where
  map := c.map.insert (key v) v
  keyed := by
    intro k w h
    by_cases hk : k = key v
    · subst hk
      rw [Finmap.lookup_insert, Option.some.injEq] at h
      rw [h]
    · rw [Finmap.lookup_insert_of_ne _ hk] at h
      exact c.keyed k w h

/-- Drop what is stored under `k`. -/
def remove (c : Keyed key) (k : κ) : Keyed key where
  map := c.map.erase k
  keyed := by
    intro k' w h
    by_cases hk : k' = k
    · subst hk
      simp at h
    · rw [Finmap.lookup_erase_ne hk] at h
      exact c.keyed k' w h

/-- The stored values, in no particular order. -/
def values (c : Keyed key) : Multiset ν := c.map.entries.map Sigma.snd

/-- How many values are stored. -/
def size (c : Keyed key) : ℕ := c.map.keys.card

/-! ## Reading back -/

theorem key_of_get {c : Keyed key} {k : κ} {v : ν} (h : c.get k = some v) : key v = k :=
  c.keyed k v h

/-- A value that is read under some key is read under its own. -/
theorem get_key {c : Keyed key} {k : κ} {v : ν} (h : c.get k = some v) :
    c.get (key v) = some v := by
  rw [key_of_get h]
  exact h

@[simp] theorem get_empty (k : κ) : (empty : Keyed key).get k = none := by
  simp [get, empty]

theorem get_insert (c : Keyed key) (v : ν) (k : κ) :
    (c.insert v).get k = if k = key v then some v else c.get k := by
  unfold get insert
  by_cases hk : k = key v
  · subst hk
    simp
  · simp [Finmap.lookup_insert_of_ne _ hk, hk]

@[simp] theorem get_insert_self (c : Keyed key) (v : ν) : (c.insert v).get (key v) = some v := by
  simp [get_insert]

theorem get_insert_of_ne (c : Keyed key) {v : ν} {k : κ} (h : k ≠ key v) :
    (c.insert v).get k = c.get k := by
  simp [get_insert, h]

theorem get_remove (c : Keyed key) (k k' : κ) :
    (c.remove k).get k' = if k' = k then none else c.get k' := by
  unfold get remove
  by_cases hk : k' = k
  · subst hk
    simp
  · simp [Finmap.lookup_erase_ne hk, hk]

@[ext] theorem ext_get {c c' : Keyed key} (h : ∀ k, c.get k = c'.get k) : c = c' := by
  cases c with
  | mk m hm =>
    cases c' with
    | mk m' hm' =>
      have hmap : m = m' := Finmap.ext_lookup h
      subst hmap
      rfl

/-- Storing a value that is there already changes nothing. -/
theorem insert_of_get {c : Keyed key} {k : κ} {v : ν} (h : c.get k = some v) : c.insert v = c := by
  ext1 k'
  rw [get_insert]
  split
  · next hk => rw [hk, get_key h]
  · rfl

/-- The value stored last under a key is the one that stays. -/
theorem insert_insert {c : Keyed key} {v w : ν} (h : key w = key v) :
    (c.insert v).insert w = c.insert w := by
  ext1 k
  simp only [get_insert, h]
  split <;> rfl

/-! ## The values -/

theorem mem_entries {m : Finmap fun _ : κ => ν} {k : κ} {v : ν} :
    (⟨k, v⟩ : Sigma fun _ : κ => ν) ∈ m.entries ↔ m.lookup k = some v := by
  induction m using Finmap.induction_on with
  | H a => exact (List.mem_dlookup_iff a.nodupKeys).symm

theorem mem_values {c : Keyed key} {v : ν} : v ∈ c.values ↔ c.get (key v) = some v := by
  unfold values get
  rw [Multiset.mem_map]
  constructor
  · rintro ⟨⟨k, w⟩, hmem, rfl⟩
    have hget : c.get k = some w := mem_entries.mp hmem
    exact get_key hget
  · intro h
    exact ⟨⟨key v, v⟩, mem_entries.mpr h, rfl⟩

/-- Distinct values have distinct keys. -/
theorem key_injOn_values {c : Keyed key} {v w : ν} (hv : v ∈ c.values) (hw : w ∈ c.values)
    (h : key v = key w) : v = w := by
  rw [mem_values] at hv hw
  rw [h, hw, Option.some.injEq] at hv
  exact hv.symm

theorem nodup_values (c : Keyed key) : c.values.Nodup := by
  unfold values
  refine Multiset.Nodup.map_on ?_ c.map.nodupKeys.nodup
  rintro ⟨k, v⟩ hv ⟨k', v'⟩ hv' heq
  have hk : key v = k := c.keyed k v (mem_entries.mp hv)
  have hk' : key v' = k' := c.keyed k' v' (mem_entries.mp hv')
  simp only at heq
  subst heq
  subst hk
  subst hk'
  rfl

theorem size_eq_card_values (c : Keyed key) : c.size = c.values.card := by
  unfold size values Finmap.keys
  simp [Multiset.keys]

/-! ## Reports on the values

`f` reports on a value under the value's own name. -/

section Reports

variable {τ : Type*} {f f' : ν → τ} {n : τ → κ}

theorem mem_map_values {c : Keyed key} (hf : ∀ v, n (f v) = key v) {t : τ} :
    t ∈ c.values.map f ↔ (c.get (n t)).map f = some t := by
  rw [Multiset.mem_map]
  constructor
  · rintro ⟨v, hv, rfl⟩
    rw [hf, mem_values.mp hv]
    rfl
  · intro h
    obtain ⟨v, hget, hv⟩ := Option.map_eq_some_iff.mp h
    exact ⟨v, mem_values.mpr (get_key hget), hv⟩

theorem nodup_map_values (c : Keyed key) (hf : ∀ v, n (f v) = key v) :
    (c.values.map f).Nodup := by
  refine Multiset.Nodup.map_on ?_ c.nodup_values
  intro v hv w hw heq
  refine key_injOn_values hv hw ?_
  rw [← hf v, ← hf w, heq]

/-- Two collections that report alike under every key list the same reports. -/
theorem map_values_eq {c c' : Keyed key} (hf : ∀ v, n (f v) = key v)
    (hf' : ∀ v, n (f' v) = key v) (h : ∀ k, (c'.get k).map f' = (c.get k).map f) :
    c'.values.map f' = c.values.map f := by
  refine (Multiset.Nodup.ext (nodup_map_values c' hf') (nodup_map_values c hf)).mpr ?_
  intro t
  rw [mem_map_values hf', mem_map_values hf, h]

end Reports

/-! ## Rewriting every value -/

/-- Apply `f` to every value; it may not touch the key. -/
def mapValues (c : Keyed key) (f : ν → ν) (hf : ∀ v, key (f v) = key v) : Keyed key where
  map := ⟨c.map.entries.map fun e => ⟨e.1, f e.2⟩, by
    have hkeys : (c.map.entries.map fun e : Sigma (fun _ : κ => ν) =>
        (⟨e.1, f e.2⟩ : Sigma fun _ : κ => ν)).keys = c.map.entries.keys := by
      simp [Multiset.keys]
    rw [← Multiset.nodup_keys, hkeys, Multiset.nodup_keys]
    exact c.map.nodupKeys⟩
  keyed := by
    intro k w h
    rw [← mem_entries, Multiset.mem_map] at h
    obtain ⟨⟨k', v⟩, hmem, heq⟩ := h
    obtain ⟨rfl, rfl⟩ : k' = k ∧ f v = w := by simpa using heq
    rw [hf]
    exact c.keyed k' v (mem_entries.mp hmem)

theorem get_mapValues (c : Keyed key) (f : ν → ν) (hf : ∀ v, key (f v) = key v) (k : κ) :
    (c.mapValues f hf).get k = (c.get k).map f := by
  apply Option.ext
  intro w
  have hleft : (c.mapValues f hf).get k = some w ↔
      ∃ v, c.get k = some v ∧ f v = w := by
    unfold get
    rw [← mem_entries]
    simp only [mapValues, Multiset.mem_map]
    constructor
    · rintro ⟨⟨k', v⟩, hmem, heq⟩
      obtain ⟨rfl, rfl⟩ : k' = k ∧ f v = w := by simpa using heq
      exact ⟨v, mem_entries.mp hmem, rfl⟩
    · rintro ⟨v, hget, rfl⟩
      exact ⟨⟨k, v⟩, mem_entries.mpr hget, rfl⟩
  rw [hleft, Option.map_eq_some_iff]

end Keyed
