import Mathlib.Algebra.BigOperators.Group.Finset.Basic
import Mathlib.Algebra.Order.Group.Multiset
import Mathlib.Data.Finmap

/-!
# A directory of files and its open handles

A directory gives each of its names a file, and a file is a number with a content: a
handle that has been opened is that number, and keeps writing the same file when its name
moves or goes away. A file has one name at most.

`rename` replaces what stood under the new name, as POSIX has it, and `create` empties
what stands under its name. What a name leads to after each operation, and what a file
holds, is said beside the operation; what a set of names holds together, at the end: a
rename inside the set loses what it replaces and nothing else (`held_rename`).
-/

/-- A directory: names, and files with one name at most. -/
structure Directory (ν β : Type*) [DecidableEq ν] where
  entries : Finmap fun _ : ν => ℕ
  content : ℕ → List β
  /-- The next file made is this one. -/
  fresh : ℕ
  entry_lt : ∀ name file, entries.lookup name = some file → file < fresh
  entry_inj : ∀ name name' file, entries.lookup name = some file →
    entries.lookup name' = some file → name = name'

namespace Directory

variable {ν β : Type*} [DecidableEq ν]

/-- The file a name leads to. -/
def entry (d : Directory ν β) (name : ν) : Option ℕ := d.entries.lookup name

/-- What stands under a name, nothing when there is no file. -/
def text (d : Directory ν β) (name : ν) : List β := (d.entry name).elim [] d.content

/-- The names there are. -/
def names (d : Directory ν β) : Finset ν := d.entries.keys

/-- No name and no file. -/
def empty : Directory ν β where
  entries := ∅
  content _ := []
  fresh := 0
  entry_lt := by simp
  entry_inj := by simp

theorem mem_names {d : Directory ν β} {name : ν} : name ∈ d.names ↔ d.entry name ≠ none := by
  unfold names entry
  rw [Finmap.mem_keys, Ne, Finmap.lookup_eq_none, not_not]

/-- Write at the end of a file. -/
def write (d : Directory ν β) (file : ℕ) (bytes : List β) : Directory ν β where
  entries := d.entries
  content := Function.update d.content file (d.content file ++ bytes)
  fresh := d.fresh
  entry_lt := d.entry_lt
  entry_inj := d.entry_inj

@[simp] theorem entry_write (d : Directory ν β) (file : ℕ) (bytes : List β) (name : ν) :
    (d.write file bytes).entry name = d.entry name := rfl

theorem content_write (d : Directory ν β) (file : ℕ) (bytes : List β) (f : ℕ) :
    (d.write file bytes).content f =
      if f = file then d.content f ++ bytes else d.content f := by
  show Function.update d.content file (d.content file ++ bytes) f = _
  rw [Function.update_apply]
  split
  · next h => rw [h]
  · rfl

/-- A new file, empty and under no name yet. -/
def alloc (d : Directory ν β) : Directory ν β where
  entries := d.entries
  content := Function.update d.content d.fresh []
  fresh := d.fresh + 1
  entry_lt name file h := (d.entry_lt name file h).trans (Nat.lt_succ_self _)
  entry_inj := d.entry_inj

/-- Let a name lead to a file that has none. -/
def link (d : Directory ν β) (name : ν) (file : ℕ) (hlt : file < d.fresh)
    (hfree : ∀ n, d.entry n ≠ some file) : Directory ν β where
  entries := d.entries.insert name file
  content := d.content
  fresh := d.fresh
  entry_lt := by
    intro n f h
    by_cases hn : n = name
    · subst hn
      rw [Finmap.lookup_insert, Option.some.injEq] at h
      omega
    · rw [Finmap.lookup_insert_of_ne _ hn] at h
      exact d.entry_lt n f h
  entry_inj := by
    have hold : ∀ n, n ≠ name → (d.entries.insert name file).lookup n ≠ some file := by
      intro n hn h
      rw [Finmap.lookup_insert_of_ne _ hn] at h
      exact hfree n h
    intro n n' f h h'
    by_cases hn : n = name <;> by_cases hn' : n' = name
    · rw [hn, hn']
    · subst hn
      rw [Finmap.lookup_insert, Option.some.injEq] at h
      subst h
      exact absurd h' (hold n' hn')
    · subst hn'
      rw [Finmap.lookup_insert, Option.some.injEq] at h'
      subst h'
      exact absurd h (hold n hn)
    · rw [Finmap.lookup_insert_of_ne _ hn] at h
      rw [Finmap.lookup_insert_of_ne _ hn'] at h'
      exact d.entry_inj n n' f h h'

theorem entry_ne_fresh (d : Directory ν β) (name : ν) : d.entry name ≠ some d.fresh := fun h =>
  lt_irrefl _ (d.entry_lt name _ h)

theorem entry_link {d : Directory ν β} {name : ν} {file : ℕ} {hlt : file < d.fresh}
    {hfree : ∀ n, d.entry n ≠ some file} (n : ν) :
    (d.link name file hlt hfree).entry n = if n = name then some file else d.entry n := by
  unfold entry link
  split
  · next h =>
    subst h
    exact Finmap.lookup_insert _
  · next h => exact Finmap.lookup_insert_of_ne _ h

/-- Make an empty file under a name, in place of what stood there. -/
def make (d : Directory ν β) (name : ν) : Directory ν β :=
  d.alloc.link name d.fresh (Nat.lt_succ_self _) d.entry_ne_fresh

theorem entry_make (d : Directory ν β) (name n : ν) :
    (d.make name).entry n = if n = name then some d.fresh else d.entry n :=
  entry_link n

theorem content_make (d : Directory ν β) (name : ν) (file : ℕ) :
    (d.make name).content file = if file = d.fresh then [] else d.content file := by
  show Function.update d.content d.fresh [] file = _
  rw [Function.update_apply]

/-- Making a file where there is none changes no text. -/
theorem text_make {d : Directory ν β} {name : ν} (hnone : d.entry name = none) (n : ν) :
    (d.make name).text n = d.text n := by
  unfold text
  rw [entry_make]
  split
  · next hn => simp [content_make, hn, hnone]
  · cases hentry : d.entry n with
    | none => rfl
    | some f =>
      have hne : f ≠ d.fresh := fun heq => d.entry_ne_fresh n (heq ▸ hentry)
      show (d.make name).content f = d.content f
      rw [content_make, if_neg hne]

/-- Empty files under some names. -/
def holding (names : List ν) : Directory ν β := names.foldl make empty

theorem mem_names_holding {names : List ν} {name : ν} :
    name ∈ (holding names : Directory ν β).names ↔ name ∈ names := by
  have key : ∀ (names : List ν) (d : Directory ν β),
      name ∈ (names.foldl make d).names ↔ name ∈ names ∨ name ∈ d.names := by
    intro names
    induction names with
    | nil => simp
    | cons n names ih =>
      intro d
      rw [List.foldl_cons, ih, mem_names, entry_make, List.mem_cons, mem_names]
      by_cases hn : name = n
      · simp [hn]
      · simp [hn]
  unfold holding
  rw [key]
  simp [mem_names, entry, empty]

/-- Open a file for appending, making it when there is none. -/
def openAppend (d : Directory ν β) (name : ν) : ℕ × Directory ν β :=
  match d.entry name with
  | some file => (file, d)
  | none => (d.fresh, d.make name)

/-- What is opened stands under its name, and nothing else has changed. -/
theorem openAppend_spec {d d' : Directory ν β} {name : ν} {file : ℕ}
    (h : d.openAppend name = (file, d')) :
    (∀ n, d'.entry n = if n = name then some file else d.entry n) ∧
      (∀ n, d'.text n = d.text n) ∧ d'.content file = d.text name := by
  unfold openAppend at h
  split at h
  · next old hold =>
    obtain ⟨rfl, rfl⟩ := Prod.mk.inj h
    refine ⟨?_, fun _ => rfl, by simp [text, hold]⟩
    intro n
    split
    · next hn => rw [hn, hold]
    · rfl
  · next hnone =>
    obtain ⟨rfl, rfl⟩ := Prod.mk.inj h
    exact ⟨entry_make d name, text_make hnone, by simp [content_make, text, hnone]⟩

/-- `File::create`: a file that stands there is emptied. -/
def create (d : Directory ν β) (name : ν) : ℕ × Directory ν β :=
  match d.entry name with
  | some file =>
    (file, { d with content := Function.update d.content file [] })
  | none => (d.fresh, d.make name)

/-- Take a name away. -/
def remove (d : Directory ν β) (name : ν) : Directory ν β where
  entries := d.entries.erase name
  content := d.content
  fresh := d.fresh
  entry_lt := by
    intro n file h
    by_cases hn : n = name
    · subst hn
      simp at h
    · rw [Finmap.lookup_erase_ne hn] at h
      exact d.entry_lt n file h
  entry_inj := by
    intro n n' file h h'
    by_cases hn : n = name
    · subst hn
      simp at h
    · by_cases hn' : n' = name
      · subst hn'
        simp at h'
      · rw [Finmap.lookup_erase_ne hn] at h
        rw [Finmap.lookup_erase_ne hn'] at h'
        exact d.entry_inj n n' file h h'

theorem entry_remove (d : Directory ν β) (name n : ν) :
    (d.remove name).entry n = if n = name then none else d.entry n := by
  unfold entry remove
  split
  · next h =>
    subst h
    simp
  · next h => rw [Finmap.lookup_erase_ne h]

theorem entry_remove_ne {d : Directory ν β} {name : ν} {file : ℕ} (h : d.entry name = some file)
    (n : ν) : (d.remove name).entry n ≠ some file := by
  rw [entry_remove]
  split
  · simp
  · next hn => exact fun heq => hn (d.entry_inj n name file heq h)

theorem lt_fresh_remove {d : Directory ν β} {name : ν} {file : ℕ} (h : d.entry name = some file) :
    file < (d.remove name).fresh := d.entry_lt name file h

/-- Move a file to another name, in place of what stood there; there is nothing to move
under a name that leads nowhere. -/
def rename (d : Directory ν β) (old new : ν) : Option (Directory ν β) :=
  match h : d.entry old with
  | none => none
  | some file => some ((d.remove old).link new file (lt_fresh_remove h) (entry_remove_ne h))

theorem rename_eq_none {d : Directory ν β} {old new : ν} :
    d.rename old new = none ↔ d.entry old = none := by
  unfold rename
  split
  · next h => simp [h]
  · next file h => simp [h]

/-- What is moved stands under its new name, and no other name has changed. -/
theorem rename_spec {d d' : Directory ν β} {old new : ν} (h : d.rename old new = some d') :
    ∃ file, d.entry old = some file ∧
      (∀ n, d'.entry n = if n = new then some file else if n = old then none else d.entry n) ∧
      d'.content = d.content ∧ d'.fresh = d.fresh := by
  unfold rename at h
  split at h
  · cases h
  · next file hold =>
    obtain rfl := Option.some.inj h
    refine ⟨file, hold, ?_, rfl, rfl⟩
    intro n
    rw [entry_link, entry_remove]

/-! ## What some names hold together -/

open scoped BigOperators

/-- The bytes that stand under some names. -/
def held (names : Finset ν) (d : Directory ν β) : Multiset β :=
  ∑ name ∈ names, (d.text name : Multiset β)

section Held

variable {d d' : Directory ν β} {names : Finset ν} {name old new : ν} {file : ℕ} {bytes : List β}

theorem held_congr (h : ∀ name ∈ names, d'.text name = d.text name) :
    held names d' = held names d := by
  unfold held
  refine Finset.sum_congr rfl ?_
  intro name hname
  rw [h name hname]

theorem text_write (d : Directory ν β) (file : ℕ) (bytes : List β) (name : ν) :
    (d.write file bytes).text name =
      if d.entry name = some file then d.text name ++ bytes else d.text name := by
  unfold text
  rw [entry_write]
  cases h : d.entry name with
  | none => simp
  | some f =>
    simp only [Option.elim_some, Option.some.injEq]
    exact content_write d file bytes f

/-- What is written is held by the name of its file. -/
theorem held_write (hname : name ∈ names) (hentry : d.entry name = some file) :
    held names (d.write file bytes) = held names d + (bytes : Multiset β) := by
  have hother : ∀ n ∈ names.erase name, (d.write file bytes).text n = d.text n := by
    intro n hn
    rw [text_write, if_neg]
    intro heq
    exact (Finset.mem_erase.mp hn).1 (d.entry_inj n name file heq hentry)
  unfold held
  rw [← Finset.add_sum_erase _ _ hname, ← Finset.add_sum_erase _ _ hname,
    Finset.sum_congr rfl fun n hn => by rw [hother n hn], text_write, if_pos hentry,
    ← Multiset.coe_add, add_assoc, add_assoc, add_comm (bytes : Multiset β)]

theorem text_rename (h : d.rename old new = some d') (n : ν) :
    d'.text n = if n = new then d.text old else if n = old then [] else d.text n := by
  obtain ⟨file, hold, hentry, hcontent, -⟩ := rename_spec h
  unfold text
  rw [hentry, hcontent]
  split
  · rw [hold]
  · split <;> rfl

/-- A rename loses what stood under the new name. -/
theorem held_rename (h : d.rename old new = some d') (hold : old ∈ names) (hnew : new ∈ names)
    (hne : new ≠ old) : held names d' + (d.text new : Multiset β) = held names d := by
  have hnew' : new ∈ names.erase old := Finset.mem_erase.mpr ⟨hne, hnew⟩
  have hother : ∀ n ∈ (names.erase old).erase new, d'.text n = d.text n := by
    intro n hn
    obtain ⟨hn, hrest⟩ := Finset.mem_erase.mp hn
    rw [text_rename h, if_neg hn, if_neg (Finset.mem_erase.mp hrest).1]
  unfold held
  rw [← Finset.add_sum_erase _ _ hold, ← Finset.add_sum_erase _ _ hnew',
    ← Finset.add_sum_erase (names : Finset ν) _ hold,
    ← Finset.add_sum_erase _ (fun n => (d.text n : Multiset β)) hnew',
    Finset.sum_congr rfl fun n hn => by rw [hother n hn], text_rename h, text_rename h,
    if_neg hne.symm, if_pos rfl, if_pos rfl]
  simp only [Multiset.coe_nil, zero_add]
  rw [add_assoc, add_comm _ (d.text new : Multiset β)]

end Held

end Directory
