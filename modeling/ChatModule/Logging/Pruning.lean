import Mathlib.Data.List.ReduceOption
import ChatModule.Lib.Grouped
import ChatModule.Lib.Directory
import ChatModule.Logging.Names

/-!
# Pruning the runs of an instance directory

`prune_runs` groups what it has listed by stamp and takes away the files of all groups
but the last `KEEP_RUNS`. A stamp's digits sort as its time does, so those are the oldest.

Whatever the directory lists, no slice is cut inside a character and the files asked away
are those of `Surplus` (`surplus_spec`); with everything listed and every removal granted
no other name changes (`pruneRuns_exact`).
-/

namespace ChatModule.Logging

/-- `KEEP_RUNS`. -/
def keepRuns : ℕ := 10

/-- What `fs::read_dir` gives: nothing when it fails, and for each entry its name, unless
reading the entry fails. -/
abbrev Listing := Option (List (Option Bytes))

/-- The names that were listed. -/
def listed (entries : Listing) : List Bytes := entries.elim [] List.reduceOption

/-- `name.to_str().and_then(stamp_of)`. -/
def entryStamp (name : Bytes) : Except Panic (Option Bytes) :=
  match toStr name with
  | none => .ok none
  | some text => stampOf text

/-- The loop over the entries: those that carry a stamp, by their stamp. -/
def groupRuns (runs : Grouped Bytes Bytes) : List Bytes → Except Panic (Grouped Bytes Bytes)
  | [] => .ok runs
  | name :: names =>
    match entryStamp name with
    | .error panic => .error panic
    | .ok none => groupRuns runs names
    | .ok (some stamp) => groupRuns (runs.push stamp name) names

/-- The files `prune_runs` asks to have removed. -/
def surplus (entries : Listing) : Except Panic (List Bytes) :=
  (groupRuns .empty (listed entries)).map (·.front keepRuns)

variable {β : Type*}

/-- Take away the files whose removal is granted. -/
def removeFiles (removes : Bytes → Bool) (files : List Bytes) (d : Directory Bytes β) :
    Directory Bytes β :=
  files.foldl (fun d file => if removes file then d.remove file else d) d

/-- Delete every run but the newest `KEEP_RUNS`. -/
def pruneRuns (removes : Bytes → Bool) (entries : Listing) (d : Directory Bytes β) :
    Except Panic (Directory Bytes β) :=
  (surplus entries).map fun files => removeFiles removes files d

/-! ## The runs of a directory -/

/-- The stamp of a run file. -/
def stampIn (name : Bytes) : Option Bytes :=
  match stampOf name with
  | .ok found => found
  | .error _ => none

/-- The distinct stamps of the run files among some names. -/
def stamps (names : Finset Bytes) : Finset Bytes :=
  names.biUnion fun name => (stampIn name).toFinset

/-- How many of them are greater than a stamp. -/
def later (names : Finset Bytes) (stamp : Bytes) : ℕ := Grouped.above (stamps names) stamp

/-- The stamp is among the `KEEP_RUNS` greatest. -/
def Newest (names : Finset Bytes) (stamp : Bytes) : Prop := later names stamp < keepRuns

/-- The name is that of a run file, and of a run that is not kept. -/
def Surplus (names : Finset Bytes) (name : Bytes) : Prop :=
  name ∈ names ∧ ∃ stamp, RunFile name stamp ∧ ¬ Newest names stamp

section Spec

variable {names names' : Finset Bytes} {name stamp : Bytes}

theorem stampIn_iff : stampIn name = some stamp ↔ RunFile name stamp := by
  rw [← stampOf_iff]
  unfold stampIn
  split
  · next found hfound => simp [hfound]
  · next panic hpanic => simp [hpanic]

theorem mem_stamps : stamp ∈ stamps names ↔ ∃ name ∈ names, RunFile name stamp := by
  simp only [stamps, Finset.mem_biUnion, Option.mem_toFinset, Option.mem_def, stampIn_iff]

theorem stamps_subset (h : names ⊆ names') : stamps names ⊆ stamps names' := by
  intro stamp hstamp
  obtain ⟨name, hname, hfile⟩ := mem_stamps.mp hstamp
  exact mem_stamps.mpr ⟨name, h hname, hfile⟩

theorem later_mono (h : names ⊆ names') : later names stamp ≤ later names' stamp :=
  Grouped.above_mono (stamps_subset h)

/-- The newest stamps are no more than are kept. -/
theorem card_newest_le (names : Finset Bytes) :
    ((stamps names).filter fun stamp => later names stamp < keepRuns).card ≤ keepRuns :=
  Grouped.card_greatest_le (stamps names) keepRuns

/-- What is not text carries no stamp. -/
theorem entryStamp_spec (name : Bytes) :
    ∃ found, entryStamp name = .ok found ∧ ∀ stamp, found = some stamp ↔ RunFile name stamp := by
  unfold entryStamp
  cases htext : toStr name with
  | none =>
    refine ⟨none, rfl, ?_⟩
    intro stamp
    constructor
    · intro h
      cases h
    · intro hfile
      rw [toStr_of_runFile hfile] at htext
      cases htext
  | some text =>
    obtain rfl := toStr_eq htext
    obtain ⟨found, hfound, hspec⟩ := stampOf_spec text
    refine ⟨found, hfound, ?_⟩
    intro stamp
    constructor
    · exact hspec stamp
    · intro hfile
      have heq := stampOf_of_runFile hfile
      rw [hfound] at heq
      exact Except.ok.inj heq

/-- The groups hold the run files under their stamps. -/
theorem groupRuns_spec (names : List Bytes) (runs : Grouped Bytes Bytes) :
    ∃ runs', groupRuns runs names = .ok runs' ∧
      (∀ stamp name, runs'.Has stamp name ↔
        runs.Has stamp name ∨ (name ∈ names ∧ RunFile name stamp)) ∧
      ∀ stamp, stamp ∈ runs'.keys ↔ stamp ∈ runs.keys ∨ ∃ name ∈ names, RunFile name stamp := by
  induction names generalizing runs with
  | nil => exact ⟨runs, rfl, by simp, by simp⟩
  | cons name names ih =>
    obtain ⟨found, hfound, hspec⟩ := entryStamp_spec name
    cases found with
    | none =>
      obtain ⟨runs', hrest, hhas, hkeys⟩ := ih runs
      have hnot : ∀ stamp, ¬ RunFile name stamp := by
        intro stamp hfile
        cases (hspec stamp).mpr hfile
      refine ⟨runs', ?_, ?_, ?_⟩
      · rw [groupRuns, hfound]
        exact hrest
      · intro stamp n
        rw [hhas, List.mem_cons]
        constructor
        · rintro (hold | ⟨hmem, hfile⟩)
          · exact Or.inl hold
          · exact Or.inr ⟨Or.inr hmem, hfile⟩
        · rintro (hold | ⟨rfl | hmem, hfile⟩)
          · exact Or.inl hold
          · exact absurd hfile (hnot stamp)
          · exact Or.inr ⟨hmem, hfile⟩
      · intro stamp
        simp [hkeys, hnot]
    | some stamp =>
      obtain ⟨runs', hrest, hhas, hkeys⟩ := ih (runs.push stamp name)
      have hfile := (hspec stamp).mp rfl
      refine ⟨runs', ?_, ?_, ?_⟩
      · rw [groupRuns, hfound]
        exact hrest
      · intro stamp' n
        rw [hhas, Grouped.has_push, List.mem_cons]
        constructor
        · rintro ((⟨rfl, rfl⟩ | hold) | ⟨hmem, hfile'⟩)
          · exact Or.inr ⟨Or.inl rfl, hfile⟩
          · exact Or.inl hold
          · exact Or.inr ⟨Or.inr hmem, hfile'⟩
        · rintro (hold | ⟨rfl | hmem, hfile'⟩)
          · exact Or.inl (Or.inr hold)
          · exact Or.inl (Or.inl ⟨hfile'.unique hfile, rfl⟩)
          · exact Or.inr ⟨hmem, hfile'⟩
      · intro stamp'
        rw [hkeys, Grouped.mem_keys_push]
        constructor
        · rintro ((rfl | hold) | ⟨n, hmem, hfile'⟩)
          · exact Or.inr ⟨name, List.mem_cons_self, hfile⟩
          · exact Or.inl hold
          · exact Or.inr ⟨n, List.mem_cons_of_mem _ hmem, hfile'⟩
        · rintro (hold | ⟨n, hmem, hfile'⟩)
          · exact Or.inl (Or.inr hold)
          · rcases List.mem_cons.mp hmem with rfl | hrest'
            · exact Or.inl (Or.inl (hfile'.unique hfile))
            · exact Or.inr ⟨n, hrest', hfile'⟩

/-- Nothing panics, and the files asked away are those of the runs not kept. -/
theorem surplus_spec (entries : Listing) :
    ∃ files, surplus entries = .ok files ∧
      ∀ name, name ∈ files ↔ Surplus (listed entries).toFinset name := by
  obtain ⟨runs, hgroup, hhas, hkeys⟩ := groupRuns_spec (listed entries) .empty
  have hstamps : runs.keys = stamps (listed entries).toFinset := by
    ext stamp
    rw [hkeys, mem_stamps]
    simp
  refine ⟨runs.front keepRuns, by rw [surplus, hgroup]; rfl, ?_⟩
  intro name
  rw [Grouped.mem_front_iff, hstamps]
  unfold Surplus Newest later
  constructor
  · rintro ⟨stamp, hin, hle⟩
    rcases (hhas stamp name).mp hin with hnone | ⟨hmem, hfile⟩
    · exact absurd hnone Grouped.not_has_empty
    · exact ⟨List.mem_toFinset.mpr hmem, stamp, hfile, not_lt.mpr hle⟩
  · rintro ⟨hmem, stamp, hfile, hle⟩
    exact ⟨stamp, (hhas stamp name).mpr (Or.inr ⟨List.mem_toFinset.mp hmem, hfile⟩), not_lt.mp hle⟩

end Spec

/-! ## What is left of the directory -/

section Removing

variable {d d' : Directory Bytes β} {removes : Bytes → Bool} {entries : Listing}
  {files : List Bytes} {name : Bytes}

theorem entry_removeFiles : ∀ {d : Directory Bytes β},
    (removeFiles removes files d).entry name =
      if name ∈ files ∧ removes name then none else d.entry name := by
  induction files with
  | nil => simp [removeFiles]
  | cons file files ih =>
    intro d
    show (removeFiles removes files (if removes file then d.remove file else d)).entry name = _
    rw [ih]
    by_cases hin : name ∈ files ∧ removes name
    · rw [if_pos hin, if_pos ⟨List.mem_cons_of_mem _ hin.1, hin.2⟩]
    · rw [if_neg hin]
      by_cases hname : name = file
      · subst hname
        by_cases hremoves : removes name = true
        · simp [hremoves, Directory.entry_remove]
        · simp [hremoves]
      · have hcons : ¬ (name ∈ file :: files ∧ removes name) := by
          rintro ⟨hmem, hremoves⟩
          rcases List.mem_cons.mp hmem with heq | hrest
          · exact hname heq
          · exact hin ⟨hrest, hremoves⟩
        rw [if_neg hcons]
        split
        · rw [Directory.entry_remove, if_neg hname]
        · rfl

theorem content_removeFiles : ∀ {d : Directory Bytes β},
    (removeFiles removes files d).content = d.content := by
  induction files with
  | nil => exact rfl
  | cons file files ih =>
    intro d
    show (removeFiles removes files (if removes file then d.remove file else d)).content = _
    rw [ih]
    split <;> rfl

/-- Pruning returns, and what it takes away are files of runs that are not kept. -/
theorem pruneRuns_spec (removes : Bytes → Bool) (entries : Listing) (d : Directory Bytes β) :
    ∃ d', pruneRuns removes entries d = .ok d' ∧ d'.content = d.content ∧ ∀ name,
      (Surplus (listed entries).toFinset name ∧ removes name → d'.entry name = none) ∧
        (¬ (Surplus (listed entries).toFinset name ∧ removes name) →
          d'.entry name = d.entry name) := by
  obtain ⟨files, hfiles, hspec⟩ := surplus_spec entries
  refine ⟨removeFiles removes files d, by rw [pruneRuns, hfiles]; rfl, content_removeFiles, ?_⟩
  intro name
  rw [entry_removeFiles, ← hspec]
  constructor
  · intro h
    rw [if_pos h]
  · intro h
    rw [if_neg h]

/-- A pruning that returned took away the listed files of runs that are not kept. -/
theorem pruned_spec (hprune : pruneRuns removes entries d = .ok d') :
    d'.content = d.content ∧ ∀ name,
      (Surplus (listed entries).toFinset name ∧ removes name → d'.entry name = none) ∧
        (¬ (Surplus (listed entries).toFinset name ∧ removes name) →
          d'.entry name = d.entry name) := by
  obtain ⟨d₁, hd₁, hspec⟩ := pruneRuns_spec removes entries d
  obtain rfl : d₁ = d' := Except.ok.inj (hd₁.symm.trans hprune)
  exact hspec

/-- The listing has every name of the directory. -/
def Complete (entries : Listing) (d : Directory Bytes β) : Prop :=
  ∃ names : List Bytes, entries = some (names.map some) ∧ ∀ name, name ∈ names ↔ name ∈ d.names

theorem listed_of_complete (h : Complete entries d) : (listed entries).toFinset = d.names := by
  obtain ⟨names, rfl, hmem⟩ := h
  ext name
  rw [List.mem_toFinset, ← hmem]
  show name ∈ (names.map some).reduceOption ↔ _
  rw [List.reduceOption_mem_iff, List.mem_map]
  simp

/-- Pruning deletes exactly the runs that are not among the newest. -/
theorem pruneRuns_exact (entries : Listing) (d : Directory Bytes β) (hlisted : Complete entries d) :
    ∃ d', pruneRuns (fun _ => true) entries d = .ok d' ∧ d'.content = d.content ∧ ∀ name,
      (Surplus d.names name → d'.entry name = none) ∧
        (¬ Surplus d.names name → d'.entry name = d.entry name) := by
  obtain ⟨d', hd', hcontent, hentry⟩ := pruneRuns_spec (fun _ => true) entries d
  rw [listed_of_complete hlisted] at hentry
  refine ⟨d', hd', hcontent, ?_⟩
  intro name
  obtain ⟨hgone, hkept⟩ := hentry name
  constructor
  · intro h
    exact hgone ⟨h, rfl⟩
  · intro h
    exact hkept fun hand => h hand.1

theorem complete_holding (names : List Bytes) :
    Complete (some (names.map some)) (Directory.holding names : Directory Bytes β) :=
  ⟨names, rfl, fun _ => Directory.mem_names_holding.symm⟩

/-- The runs of eleven days of July. -/
def julyRuns : List Bytes :=
  (List.range 11).map fun day => runName (Utf8.asBytes "202607" ++ padded 2 (day + 1) ++
    Utf8.asBytes "_142811")

theorem pruneRuns_july :
    ∃ d', pruneRuns (fun _ => true) (some (julyRuns.map some))
        (Directory.holding julyRuns : Directory Bytes UInt8) = .ok d' ∧
      d'.content = (Directory.holding julyRuns : Directory Bytes UInt8).content ∧ ∀ name,
      (Surplus (Directory.holding julyRuns : Directory Bytes UInt8).names name →
          d'.entry name = none) ∧
        (¬ Surplus (Directory.holding julyRuns : Directory Bytes UInt8).names name →
          d'.entry name = (Directory.holding julyRuns : Directory Bytes UInt8).entry name) :=
  pruneRuns_exact _ _ (complete_holding julyRuns)

end Removing

end ChatModule.Logging
