import ChatModule.Logging.Pruning

/-!
# The log of a run

`RunLog::open` opens `<stem>_<stamp>.log` in the instance directory, under the local time,
and prunes the directory after that. `append` writes at the end of the open file and, once
`ROTATE_AFTER_LINES` lines were written, `rotate` moves it aside and makes a fresh one
under the same name.

What the host and the file system answer is an argument: whether there is an instance
directory, which calls fail, what is listed and which files may be removed. Writing to the
open file succeeds.

The pruning keeps the run just opened as long as fewer than `KEEP_RUNS` runs in the
directory have a later stamp (`opensKept_iff`), which a clock set back may not leave.
-/

namespace ChatModule.Logging

/-- `ROTATE_AFTER_LINES`. -/
def rotateAfterLines : ℕ := 10000

/-- The file a run is writing, and what rotating it takes. The path is a name in the
instance directory, the one the run's stamp gives. -/
structure OpenLog where
  file : ℕ
  path : Bytes
  stamp : Bytes
  lines : ℕ
  rotations : UInt32
  named : path = runName stamp

/-- What the host and the file system answer while a log is opened: the error of a call
that fails, and what `prune_runs` meets. -/
structure OpenAnswers where
  instancePersistencePath : Option String
  createDirAll : Option String
  openFile : Option String
  entries : Listing
  removes : Bytes → Bool

/-- `directory.join(name)`, as it is displayed. -/
def displayed (directory : String) (name : Bytes) : String :=
  (if directory.endsWith "/" then directory else directory ++ "/") ++ Utf8.fromUtf8Lossy name

variable {β : Type*}

/-- `RunLog::open`. -/
def openLog (answers : OpenAnswers) (now : LocalTime) (d : Directory Bytes β) :
    Except Panic (Except String (OpenLog × Directory Bytes β)) :=
  match answers.instancePersistencePath.filter (· ≠ "") with
  | none => .ok (.error "the host assigned no instance directory")
  | some directory =>
    match answers.createDirAll with
    | some e => .ok (.error ("cannot create " ++ directory ++ ": " ++ e))
    | none =>
      let stamp := stampAt now
      let path := runName stamp
      match answers.openFile with
      | some e => .ok (.error ("cannot write " ++ displayed directory path ++ ": " ++ e))
      | none =>
        let (file, d) := d.openAppend path
        (pruneRuns answers.removes answers.entries d).map fun d =>
          .ok (⟨file, path, stamp, 0, 0, rfl⟩, d)

/-- The call of a rotation that failed. -/
inductive IoError
  | rename
  | create
deriving DecidableEq, Repr

/-- Move the full file aside under the next ordinal and make a fresh one under the name. -/
def OpenLog.rotate (log : OpenLog) (d : Directory Bytes β) (renames creates : Bool) :
    Except IoError Unit × OpenLog × Directory Bytes β :=
  -- the budget is spent before trying
  let log := { log with lines := 0, rotations := log.rotations + 1 }
  let aside := rotationName log.stamp log.rotations
  match if renames then d.rename log.path aside else none with
  | none => (.error .rename, log, d)
  | some d =>
    if creates then
      let (file, d) := d.create log.path
      (.ok (), { log with file }, d)
    else (.error .create, log, d)

/-- Append the bytes of one event, rotating once the file is full. Of a byte only whether
it ends a line is read. -/
def OpenLog.append (isNewline : β → Bool) (log : OpenLog) (d : Directory Bytes β) (buf : List β)
    (renames creates : Bool) : Except IoError Unit × OpenLog × Directory Bytes β :=
  let d := d.write log.file buf
  let log := { log with lines := log.lines + buf.countP isNewline }
  if rotateAfterLines ≤ log.lines then log.rotate d renames creates else (.ok (), log, d)

/-! ## What opening a log leaves -/

section Opening

variable {answers : OpenAnswers} {now : LocalTime} {d d' : Directory Bytes β} {log : OpenLog}
  {names : Finset Bytes} {stamp : Bytes}

/-- The directory with the run's file in it, as `prune_runs` finds it. -/
def opened (now : LocalTime) (d : Directory Bytes β) : Directory Bytes β :=
  (d.openAppend (runName (stampAt now))).2

/-- Opening does not panic. -/
theorem openLog_ok (answers : OpenAnswers) (now : LocalTime) (d : Directory Bytes β) :
    ∃ result, openLog answers now d = .ok result := by
  unfold openLog
  split
  · exact ⟨_, rfl⟩
  · split
    · exact ⟨_, rfl⟩
    · dsimp only
      split
      · exact ⟨_, rfl⟩
      · obtain ⟨d', hprune, -⟩ := pruneRuns_spec answers.removes answers.entries (opened now d)
        unfold opened at hprune
        rw [hprune]
        exact ⟨_, rfl⟩

/-- What a log is when it has been opened. -/
theorem openLog_spec (h : openLog answers now d = .ok (.ok (log, d'))) :
    log.path = runName (stampAt now) ∧ log.stamp = stampAt now ∧ log.lines = 0 ∧
      log.rotations = 0 ∧ d.openAppend log.path = (log.file, opened now d) ∧
      pruneRuns answers.removes answers.entries (opened now d) = .ok d' := by
  unfold openLog at h
  split at h
  · cases h
  · split at h
    · cases h
    · dsimp only at h
      split at h
      · cases h
      · obtain ⟨d₁, hprune, -⟩ := pruneRuns_spec answers.removes answers.entries (opened now d)
        have hprune' := hprune
        unfold opened at hprune'
        rw [hprune'] at h
        cases h
        exact ⟨rfl, rfl, rfl, rfl, rfl, hprune⟩

/-- A log is opened when no call fails. -/
theorem openLog_of_prune (answers : OpenAnswers) {directory : String}
    (hdirectory : answers.instancePersistencePath.filter (· ≠ "") = some directory)
    (hcreate : answers.createDirAll = none) (hopen : answers.openFile = none)
    (hprune : pruneRuns answers.removes answers.entries (opened now d) = .ok d') :
    openLog answers now d = .ok (.ok
      (⟨(d.openAppend (runName (stampAt now))).1, runName (stampAt now), stampAt now, 0, 0, rfl⟩,
        d')) := by
  unfold opened at hprune
  unfold openLog
  rw [hdirectory, hcreate, hopen]
  dsimp only
  rw [hprune]
  rfl

theorem entry_opened (now : LocalTime) (d : Directory Bytes β) (name : Bytes) :
    (opened now d).entry name =
      if name = runName (stampAt now) then some (d.openAppend (runName (stampAt now))).1
      else d.entry name :=
  (Directory.openAppend_spec rfl).1 name

theorem entry_opened_path (now : LocalTime) (d : Directory Bytes β) :
    (opened now d).entry (runName (stampAt now)) =
      some (d.openAppend (runName (stampAt now))).1 := by
  rw [entry_opened, if_pos rfl]

theorem mem_names_opened {name : Bytes} :
    name ∈ (opened now d).names ↔ name = runName (stampAt now) ∨ name ∈ d.names := by
  rw [Directory.mem_names, Directory.mem_names, entry_opened]
  split
  · next h => simp [h]
  · next h => simp [h]

/-- The run's own file leaves the number of later runs as it is. -/
theorem later_opened (now : LocalTime) (d : Directory Bytes β) :
    later (opened now d).names (stampAt now) = later d.names (stampAt now) := by
  unfold later Grouped.above
  congr 1
  ext stamp
  simp only [Finset.mem_filter, mem_stamps]
  constructor
  · rintro ⟨⟨name, hname, hfile⟩, hlt⟩
    rcases mem_names_opened.mp hname with rfl | hold
    · obtain ⟨-, rfl⟩ := stamp_of_runFile hfile
      exact absurd hlt (lt_irrefl _)
    · exact ⟨⟨name, hold, hfile⟩, hlt⟩
  · rintro ⟨⟨name, hname, hfile⟩, hlt⟩
    exact ⟨⟨name, mem_names_opened.mpr (Or.inr hname), hfile⟩, hlt⟩

/-- What a listing of the directory has is in the directory. -/
def Lists (entries : Listing) (d : Directory Bytes β) : Prop :=
  ∀ name ∈ listed entries, name ∈ d.names

theorem lists_of_complete {entries : Listing} (h : Complete entries d) : Lists entries d := by
  intro name hname
  rw [← listed_of_complete h]
  exact List.mem_toFinset.mpr hname

theorem listed_subset {entries : Listing} (h : Lists entries d) :
    (listed entries).toFinset ⊆ d.names := by
  intro name hname
  exact h name (List.mem_toFinset.mp hname)

/-- Opening the log keeps the run: the file opened stands under the announced path, no
file of the run has been pruned, and of the whole directory no more runs are left than are
kept, when all of it was listed and every removal granted. -/
def OpensKept (now : LocalTime) (d : Directory Bytes β) : Prop :=
  ∀ answers log d', Lists answers.entries (opened now d) →
    openLog answers now d = .ok (.ok (log, d')) →
      d'.entry log.path = some log.file ∧
      (∀ name, RunFile name log.stamp → d'.entry name = (opened now d).entry name) ∧
      (Complete answers.entries (opened now d) → (∀ name, answers.removes name = true) →
        (stamps d'.names).card ≤ keepRuns)

/-- A run is not surplus under its own stamp. -/
theorem not_surplus_of_newest (hnewest : Newest names stamp) {name : Bytes}
    (hfile : RunFile name stamp) : ¬ Surplus names name := by
  rintro ⟨-, stamp', hfile', hnot⟩
  rw [hfile'.unique hfile] at hnot
  exact hnot hnewest

/-- What pruning leaves of a directory that was all listed are the newest runs. -/
theorem card_stamps_le {entries : Listing} {removes : Bytes → Bool}
    (hcomplete : Complete entries d) (hremoves : ∀ name, removes name = true)
    (hprune : pruneRuns removes entries d = .ok d') : (stamps d'.names).card ≤ keepRuns := by
  obtain ⟨-, hentry⟩ := pruned_spec hprune
  rw [listed_of_complete hcomplete] at hentry
  refine le_trans (Finset.card_le_card ?_) (card_newest_le d.names)
  intro stamp hstamp
  obtain ⟨name, hname, hfile⟩ := mem_stamps.mp hstamp
  rw [Directory.mem_names] at hname
  have hkept : ¬ Surplus d.names name := by
    intro hsurplus
    exact hname ((hentry name).1 ⟨hsurplus, hremoves name⟩)
  have hin : name ∈ d.names := by
    rw [Directory.mem_names, ← (hentry name).2 fun hand => hkept hand.1]
    exact hname
  refine Finset.mem_filter.mpr ⟨mem_stamps.mpr ⟨name, hin, hfile⟩, ?_⟩
  by_contra hnot
  exact hkept ⟨hin, stamp, hfile, hnot⟩

/-- Answers under which everything is listed and removed. -/
def sweeping (names : List Bytes) : OpenAnswers where
  instancePersistencePath := some "/chat"
  createDirAll := none
  openFile := none
  entries := some (names.map some)
  removes _ := true

/-- A run with `KEEP_RUNS` later ones is pruned while it is opened. -/
theorem not_opensKept (hyear : 0 ≤ now.year ∧ now.year ≤ 9999)
    (hold : ¬ Newest d.names (stampAt now)) : ¬ OpensKept now d := by
  intro hkept
  let names := (opened now d).names.toList
  have hcomplete : Complete (some (names.map some)) (opened now d) :=
    ⟨names, rfl, fun name => Finset.mem_toList⟩
  obtain ⟨d', hprune, -, hentry⟩ := pruneRuns_spec (fun _ => true) (some (names.map some))
    (opened now d)
  rw [listed_of_complete hcomplete] at hentry
  have hopen := openLog_of_prune (sweeping names) rfl rfl rfl hprune
  obtain ⟨hstands, -, -⟩ := hkept _ _ _ (lists_of_complete hcomplete) hopen
  -- the file just opened is one of those pruned
  have hsurplus : Surplus (opened now d).names (runName (stampAt now)) := by
    refine ⟨mem_names_opened.mpr (Or.inl rfl), _, runFile_runName (isStamp_stampAt hyear), ?_⟩
    unfold Newest
    rw [later_opened]
    exact hold
  rw [(hentry _).1 ⟨hsurplus, rfl⟩] at hstands
  cases hstands

/-- Opening keeps its run when fewer than `KEEP_RUNS` runs of the directory are later, and
only then. A year with a sign gives the file a name the pruner does not know. -/
theorem opensKept_iff (now : LocalTime) (d : Directory Bytes β) :
    OpensKept now d ↔ (0 ≤ now.year ∧ now.year ≤ 9999 → Newest d.names (stampAt now)) := by
  have hlater := later_opened now d
  constructor
  · intro hkept hyear
    by_contra hold
    exact not_opensKept hyear hold hkept
  · intro hnewest answers log d' hlists hopen
    obtain ⟨hpath, hstamp, -, -, hopened, hprune⟩ := openLog_spec hopen
    obtain ⟨-, hentry⟩ := pruned_spec hprune
    have hmono : later (listed answers.entries).toFinset (stampAt now) ≤ _ :=
      later_mono (listed_subset hlists)
    have hkeep : ∀ name, RunFile name (stampAt now) →
        ¬ Surplus (listed answers.entries).toFinset name := by
      intro name hfile
      apply not_surplus_of_newest _ hfile
      have hlt := hnewest (year_of_isStamp hfile.1)
      unfold Newest at hlt ⊢
      omega
    refine ⟨?_, ?_, fun hcomplete hremoves => card_stamps_le hcomplete hremoves hprune⟩
    · have hstands := entry_opened_path now d
      rw [hpath] at hopened ⊢
      rw [hopened] at hstands
      rw [← hstands]
      refine (hentry _).2 ?_
      rintro ⟨hsurplus, -⟩
      obtain ⟨-, stamp, hfile, -⟩ := id hsurplus
      obtain ⟨hnow, -⟩ := stamp_of_runFile hfile
      exact hkeep _ (runFile_runName hnow) hsurplus
    · intro name hfile
      rw [hstamp] at hfile
      exact (hentry name).2 fun hand => hkeep name hfile hand.1

/-- Half past two on the 30th of July 2026. -/
def afternoon : LocalTime := ⟨2026, 7, 30, 14, 28, 11, by decide, by decide⟩

/-- Ten runs of a year later, from before the clock was set back. -/
def nextYear : List Bytes :=
  (List.range 10).map fun day => runName (Utf8.asBytes "202707" ++ padded 2 (day + 1) ++
    Utf8.asBytes "_142811")

/-- The run of a clock that was set back is pruned while it is opened. -/
theorem pruned_while_opened :
    ¬ OpensKept afternoon (Directory.holding nextYear : Directory Bytes UInt8) := by
  apply not_opensKept (by decide)
  unfold Newest
  decide

end Opening

end ChatModule.Logging
