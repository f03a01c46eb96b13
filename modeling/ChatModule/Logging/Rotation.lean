import ChatModule.Lib.Machine
import ChatModule.Logging.RunLog

/-!
# Rotating the log

The state is the open log and its directory, and a step appends one buffer under what the
rename and the create of a rotation answer. What a step can do is `append_cases`.

A rotation whose rename happened and whose create failed leaves the run writing a file
that no longer stands under the announced path, and leaves no file there to rotate: the log
is in order at the end of every append exactly as long as that does not happen
(`inOrder_iff`).
-/

namespace ChatModule.Logging

/-- The open log and the instance directory. -/
structure Writing (β : Type*) where
  log : OpenLog
  dir : Directory Bytes β

/-- A buffer that is appended, and whether a rotation's calls are let through. -/
structure Appending (β : Type*) where
  buf : List β
  renames : Bool
  creates : Bool

variable {β : Type*} (isNewline : β → Bool)

/-- How many lines a buffer ends. -/
def Appending.lines (l : Appending β) : ℕ := l.buf.countP isNewline

/-- The state after an append. -/
def Writing.append (s : Writing β) (l : Appending β) : Writing β :=
  let result := s.log.append isNewline s.dir l.buf l.renames l.creates
  ⟨result.2.1, result.2.2⟩

/-- What the caller of the append is told. -/
def Writing.told (s : Writing β) (l : Appending β) : Except IoError Unit :=
  (s.log.append isNewline s.dir l.buf l.renames l.creates).1

/-- Buffers appended one after the other. -/
def writing : Machine (Writing β) (Appending β) := ⟨fun s l => some (s.append isNewline l)⟩

/-- The append fills the file, so a rotation is attempted. -/
def Attempts (s : Writing β) (l : Appending β) : Prop :=
  rotateAfterLines ≤ s.log.lines + l.lines isNewline

/-- The append moves the full file aside: a rotation is attempted, its rename is let through
and there is a file under the announced path. -/
def Moves (s : Writing β) (l : Appending β) : Prop :=
  Attempts isNewline s l ∧ l.renames = true ∧ s.log.path ∈ s.dir.names

/-- The name the next rotation moves the file to. -/
def OpenLog.aside (log : OpenLog) : Bytes := rotationName log.stamp (log.rotations + 1)

/-- The log once a rotation has been attempted. -/
def OpenLog.spent (log : OpenLog) : OpenLog :=
  { log with lines := 0, rotations := log.rotations + 1 }

section Steps

variable {isNewline} {s : Writing β} {l : Appending β}

theorem aside_ne_path (log : OpenLog) : log.aside ≠ log.path := by
  rw [log.named]
  exact rotationName_ne_runName _

/-- What an append can do. -/
theorem append_cases (s : Writing β) (l : Appending β) :
    (¬ Attempts isNewline s l ∧ s.told isNewline l = .ok () ∧
      s.append isNewline l =
        ⟨{ s.log with lines := s.log.lines + l.lines isNewline }, s.dir.write s.log.file l.buf⟩) ∨
    (Attempts isNewline s l ∧ (l.renames = false ∨ s.dir.entry s.log.path = none) ∧
      s.append isNewline l = ⟨s.log.spent, s.dir.write s.log.file l.buf⟩) ∨
    (Attempts isNewline s l ∧ l.renames = true ∧ ∃ d,
      (s.dir.write s.log.file l.buf).rename s.log.path s.log.aside = some d ∧
      ((l.creates = false ∧ s.append isNewline l = ⟨s.log.spent, d⟩) ∨
        (l.creates = true ∧ s.told isNewline l = .ok () ∧ s.append isNewline l =
          ⟨{ s.log.spent with file := d.fresh }, d.make s.log.path⟩))) := by
  by_cases hfull : Attempts isNewline s l
  · right
    have hfull' : rotateAfterLines ≤ s.log.lines + l.buf.countP isNewline := hfull
    cases hrenames : l.renames with
    | false =>
      left
      refine ⟨hfull, Or.inl rfl, ?_⟩
      simp [Writing.append, OpenLog.append, OpenLog.rotate, hfull', hrenames, OpenLog.spent]
    | true =>
      cases hrename : (s.dir.write s.log.file l.buf).rename s.log.path s.log.aside with
      | none =>
        left
        have hnone := Directory.rename_eq_none.mp hrename
        rw [Directory.entry_write] at hnone
        refine ⟨hfull, Or.inr hnone, ?_⟩
        unfold OpenLog.aside at hrename
        simp [Writing.append, OpenLog.append, OpenLog.rotate, hfull', hrenames, OpenLog.spent,
          hrename]
      | some d =>
        right
        refine ⟨hfull, rfl, d, rfl, ?_⟩
        have hrename' := hrename
        unfold OpenLog.aside at hrename'
        cases hcreates : l.creates with
        | false =>
          left
          refine ⟨rfl, ?_⟩
          simp [Writing.append, OpenLog.append, OpenLog.rotate, hfull', hrenames, OpenLog.spent,
            hrename', hcreates]
        | true =>
          right
          -- nothing stands under the path any more, so the file made is a new one
          have hnone : d.entry s.log.path = none := by
            obtain ⟨_, -, hentry, -⟩ := Directory.rename_spec hrename
            rw [hentry, if_neg (aside_ne_path s.log).symm, if_pos rfl]
          have hcreate : d.create s.log.path = (d.fresh, d.make s.log.path) := by
            unfold Directory.create
            rw [hnone]
          refine ⟨rfl, ?_, ?_⟩
          · simp [Writing.told, OpenLog.append, OpenLog.rotate, hfull', hrenames, hrename',
              hcreates]
          · simp [Writing.append, OpenLog.append, OpenLog.rotate, hfull', hrenames, OpenLog.spent,
              hrename', hcreates, hcreate]
  · left
    have hnot : ¬ rotateAfterLines ≤ s.log.lines + l.buf.countP isNewline := hfull
    refine ⟨hfull, ?_, ?_⟩
    · simp [Writing.told, OpenLog.append, hnot]
    · simp [Writing.append, OpenLog.append, hnot, Appending.lines]

theorem stamp_append (s : Writing β) (l : Appending β) :
    (s.append isNewline l).log.stamp = s.log.stamp := by
  rcases append_cases s l with ⟨-, -, happend⟩ | ⟨-, -, happend⟩ |
    ⟨-, -, d, -, ⟨-, happend⟩ | ⟨-, -, happend⟩⟩
  · rw [happend]
  · rw [happend]
    rfl
  · rw [happend]
    rfl
  · rw [happend]
    rfl

theorem path_append (s : Writing β) (l : Appending β) :
    (s.append isNewline l).log.path = s.log.path := by
  rw [OpenLog.named, OpenLog.named, stamp_append]

/-- An append moves no name, or the file being written to the next rotation. -/
theorem entry_append (isNewline : β → Bool) (s : Writing β) (l : Appending β) :
    (¬ Moves isNewline s l ∧
      ∀ name, (s.append isNewline l).dir.entry name = s.dir.entry name) ∨
    (Moves isNewline s l ∧ s.log.aside ∈ (s.append isNewline l).dir.names ∧
      ∀ name, name ≠ s.log.path → name ≠ s.log.aside →
        (s.append isNewline l).dir.entry name = s.dir.entry name) := by
  rcases append_cases s l with ⟨hnot, -, happend⟩ | ⟨-, hstays, happend⟩ |
    ⟨hfull, hrenames, d, hrename, hcreates⟩
  · left
    refine ⟨fun hmoves => hnot hmoves.1, ?_⟩
    intro name
    rw [happend, Directory.entry_write]
  · left
    constructor
    · rintro ⟨-, hrenames, hpath⟩
      rcases hstays with hrefused | hnone
      · rw [hrenames] at hrefused
        cases hrefused
      · exact Directory.mem_names.mp hpath hnone
    · intro name
      rw [happend, Directory.entry_write]
  · right
    obtain ⟨file, hpath, hentry, -, -⟩ := Directory.rename_spec hrename
    rw [Directory.entry_write] at hpath
    have hmoved : d.entry s.log.aside = some file := by rw [hentry, if_pos rfl]
    refine ⟨⟨hfull, hrenames, by simp [Directory.mem_names, hpath]⟩, ?_⟩
    rcases hcreates with ⟨-, happend⟩ | ⟨-, -, happend⟩
    · rw [happend]
      refine ⟨by simp [Directory.mem_names, hmoved], ?_⟩
      intro name hne hne'
      rw [hentry, if_neg hne', if_neg hne, Directory.entry_write]
    · rw [happend]
      refine ⟨by simp [Directory.mem_names, Directory.entry_make, aside_ne_path, hmoved], ?_⟩
      intro name hne hne'
      rw [Directory.entry_make, if_neg hne, hentry, if_neg hne', if_neg hne, Directory.entry_write]

end Steps

/-! ## The log in order -/

instance (s : Writing β) (l : Appending β) : Decidable (Attempts isNewline s l) :=
  Nat.decLe _ _

/-- The log, with the lines written since it was opened or a rotation was last attempted. -/
structure Counting (β : Type*) where
  now : Writing β
  since : ℕ

/-- The counted state after an append. -/
def Counting.append (c : Counting β) (l : Appending β) : Counting β where
  now := c.now.append isNewline l
  since := if Attempts isNewline c.now l then 0 else c.since + l.lines isNewline

/-- Buffers appended one after the other, with their lines counted. -/
def counting : Machine (Counting β) (Appending β) := ⟨fun c l => some (c.append isNewline l)⟩

/-- The open handle is the file under the announced path. -/
def Writing.Stands (s : Writing β) : Prop := s.dir.entry s.log.path = some s.log.file

/-- The rotation happened: the full file stands aside and an empty one is open. -/
def Rotated (s : Writing β) (l : Appending β) : Prop :=
  s.told isNewline l = .ok () ∧
    (s.append isNewline l).dir.entry s.log.aside = some s.log.file ∧
    (s.append isNewline l).dir.content (s.append isNewline l).log.file = []

/-- An append leaves the log in order. -/
structure InOrder (c : Counting β) (l : Appending β) : Prop where
  stands : (c.now.append isNewline l).Stands
  below : (c.now.append isNewline l).log.lines < rotateAfterLines
  due : Attempts isNewline c.now l → rotateAfterLines ≤ c.since + l.lines isNewline
  succeeds : Attempts isNewline c.now l → l.renames = true → l.creates = true →
    Rotated isNewline c.now l

/-- A rotation whose rename is let through and whose create is not. -/
def Breaks (s : Writing β) (l : Appending β) : Prop :=
  Attempts isNewline s l ∧ l.renames = true ∧ l.creates = false

/-- What holds of the log between two appends. -/
structure Poised (c : Counting β) : Prop where
  stands : c.now.Stands
  below : c.now.log.lines < rotateAfterLines
  counted : c.now.log.lines = c.since

section InOrder

variable {isNewline} {c c' : Counting β} {l : Appending β} {s : Writing β}

theorem rotateAfterLines_pos : 0 < rotateAfterLines := by decide

/-- A rename of a log that stands moves its file aside; only the create is left to fail. -/
theorem renamed_of_stands (hstands : s.Stands) (hfull : Attempts isNewline s l)
    (hrenames : l.renames = true) :
    ∃ d, d.entry s.log.aside = some s.log.file ∧ d.entry s.log.path = none ∧
      ((l.creates = false ∧ s.append isNewline l = ⟨s.log.spent, d⟩) ∨
        (l.creates = true ∧ s.told isNewline l = .ok () ∧ s.append isNewline l =
          ⟨{ s.log.spent with file := d.fresh }, d.make s.log.path⟩)) := by
  rcases append_cases s l with ⟨hnot, -⟩ | ⟨-, hfails, -⟩ | ⟨-, -, d, hrename, hcase⟩
  · exact absurd hfull hnot
  · rcases hfails with hfalse | hnone
    · rw [hrenames] at hfalse
      cases hfalse
    · rw [hstands] at hnone
      cases hnone
  · obtain ⟨file, hold, hentry, -⟩ := Directory.rename_spec hrename
    obtain rfl : s.log.file = file := by
      rw [Directory.entry_write, hstands] at hold
      exact Option.some.inj hold
    refine ⟨d, ?_, ?_, hcase⟩
    · rw [hentry, if_pos rfl]
    · rw [hentry, if_neg (aside_ne_path s.log).symm, if_pos rfl]

/-- A rotation that is let through happens. -/
theorem rotated_of_stands (hstands : s.Stands) (hfull : Attempts isNewline s l)
    (hrenames : l.renames = true) (hcreates : l.creates = true) : Rotated isNewline s l := by
  obtain ⟨d, haside, -, ⟨hfalse, -⟩ | ⟨-, htold, heq⟩⟩ :=
    renamed_of_stands hstands hfull hrenames
  · rw [hcreates] at hfalse
    cases hfalse
  · refine ⟨htold, ?_, ?_⟩
    · rw [heq]
      show (d.make s.log.path).entry s.log.aside = _
      rw [Directory.entry_make, if_neg (aside_ne_path s.log), haside]
    · rw [heq]
      show (d.make s.log.path).content d.fresh = []
      rw [Directory.content_make, if_pos rfl]

/-- A rotation that is cut in two leaves nothing under the announced path. -/
theorem entry_path_of_breaks (hstands : s.Stands) (hbreaks : Breaks isNewline s l) :
    (s.append isNewline l).dir.entry s.log.path = none := by
  obtain ⟨hfull, hrenames, hcreates⟩ := hbreaks
  obtain ⟨d, -, hpath, ⟨-, heq⟩ | ⟨htrue, -⟩⟩ := renamed_of_stands hstands hfull hrenames
  · rw [heq]
    exact hpath
  · rw [hcreates] at htrue
    cases htrue

/-- One step: unless a rotation is cut in two, the handle stays the file under the path
and the budget stays unspent. -/
theorem stands_append (h : s.Stands) (hwhole : ¬ Breaks isNewline s l) :
    (s.append isNewline l).Stands ∧ (s.append isNewline l).log.lines < rotateAfterLines ∧
      (s.append isNewline l).log.lines =
        if Attempts isNewline s l then 0 else s.log.lines + l.lines isNewline := by
  rcases append_cases s l with ⟨hnot, -, heq⟩ | ⟨hfull, -, heq⟩ | ⟨hfull, hrenames, d, -, hcase⟩
  · rw [heq, if_neg hnot]
    exact ⟨h, not_le.mp hnot, rfl⟩
  · rw [heq, if_pos hfull]
    exact ⟨h, rotateAfterLines_pos, rfl⟩
  · rcases hcase with ⟨hfalse, -⟩ | ⟨-, -, heq⟩
    · exact absurd ⟨hfull, hrenames, hfalse⟩ hwhole
    · rw [heq, if_pos hfull]
      refine ⟨?_, rotateAfterLines_pos, rfl⟩
      show (d.make s.log.path).entry s.log.path = some d.fresh
      rw [Directory.entry_make, if_pos rfl]

theorem poised_step (h : Poised c) (hwhole : ¬ Breaks isNewline c.now l) :
    Poised (c.append isNewline l) := by
  obtain ⟨hstands, hbelow, hlines⟩ := stands_append h.stands hwhole
  refine ⟨hstands, hbelow, ?_⟩
  show (c.now.append isNewline l).log.lines = if _ then _ else _
  rw [hlines, h.counted]

/-- From a log in order, an append keeps it so unless it cuts a rotation in two. -/
theorem inOrder_step_iff (h : Poised c) :
    InOrder isNewline c l ↔ ¬ Breaks isNewline c.now l := by
  constructor
  · intro horder hbreaks
    have hstands := horder.stands
    unfold Writing.Stands at hstands
    rw [path_append, entry_path_of_breaks h.stands hbreaks] at hstands
    cases hstands
  · intro hwhole
    obtain ⟨hstands, hbelow, -⟩ := stands_append h.stands hwhole
    refine ⟨hstands, hbelow, ?_, fun hfull hrenames hcreates =>
      rotated_of_stands h.stands hfull hrenames hcreates⟩
    intro hfull
    rw [← h.counted]
    exact hfull

/-! ### From the opening on -/

variable {answers : OpenAnswers} {now : LocalTime} {d d' : Directory Bytes β} {log : OpenLog}
  {ls : List (Appending β)}

/-- The run's own file is pruned while it is opened. -/
def PrunesItself (answers : OpenAnswers) (now : LocalTime) : Prop :=
  Surplus (listed answers.entries).toFinset (runName (stampAt now)) ∧
    answers.removes (runName (stampAt now)) = true

theorem stands_opened_iff (hopen : openLog answers now d = .ok (.ok (log, d'))) :
    (⟨log, d'⟩ : Writing β).Stands ↔ ¬ PrunesItself answers now := by
  obtain ⟨hpath, -, -, -, hopened, hprune⟩ := openLog_spec hopen
  obtain ⟨-, hentry⟩ := pruned_spec hprune
  have hfile := entry_opened_path now d
  rw [hpath] at hopened
  rw [hopened] at hfile
  unfold Writing.Stands
  rw [hpath]
  constructor
  · intro hstands hprunes
    rw [(hentry _).1 hprunes] at hstands
    cases hstands
  · intro hnot
    rw [(hentry _).2 hnot, hfile]

theorem poised_opened (hopen : openLog answers now d = .ok (.ok (log, d')))
    (hstands : (⟨log, d'⟩ : Writing β).Stands) : Poised (⟨⟨log, d'⟩, 0⟩ : Counting β) := by
  obtain ⟨-, -, hlines, -⟩ := openLog_spec hopen
  refine ⟨hstands, ?_, hlines⟩
  show log.lines < rotateAfterLines
  rw [hlines]
  exact rotateAfterLines_pos

/-- A log is in order from its opening on exactly when the opening does not prune it and no
rotation is cut in two. -/
theorem inOrder_iff (hopen : openLog answers now d = .ok (.ok (log, d'))) :
    ((⟨log, d'⟩ : Writing β).Stands ∧
        (counting isNewline).Run (InOrder isNewline) ⟨⟨log, d'⟩, 0⟩ ls c') ↔
      (¬ PrunesItself answers now ∧
        (counting isNewline).Run (fun c l => ¬ Breaks isNewline c.now l) ⟨⟨log, d'⟩, 0⟩ ls c') := by
  rw [stands_opened_iff hopen]
  refine and_congr_right fun hkept => ?_
  have hpoised := poised_opened hopen ((stands_opened_iff hopen).mpr hkept)
  refine Machine.Run.congr ?_ ?_ hpoised
  · intro c l c' h _
    exact inOrder_step_iff h
  · intro c l c' hwhole hstep h
    obtain rfl := Option.some.inj hstep
    exact poised_step h hwhole

end InOrder

/-! ### A rotation that is cut in two -/

/-- The newline of the code's bytes. -/
def isLf (b : UInt8) : Bool := b == 0x0A

/-- A buffer that fills a file. -/
def fullBuffer : List UInt8 := List.replicate 10000 0x0A

/-- No call fails, and some names are listed. -/
def quiet (names : List Bytes) : OpenAnswers where
  instancePersistencePath := some "/chat"
  createDirAll := none
  openFile := none
  entries := some (names.map some)
  removes _ := true

theorem openLog_quiet (names : List Bytes) (d : Directory Bytes UInt8) :
    ∃ log d', openLog (quiet names) afternoon d = .ok (.ok (log, d')) := by
  obtain ⟨d', hprune, -⟩ := pruneRuns_spec (quiet names).removes (quiet names).entries
    (opened afternoon d)
  exact ⟨_, d', openLog_of_prune (quiet names) rfl rfl rfl hprune⟩

/-- The names a run of the afternoon has after one rotation. -/
def twoFiles : List Bytes := [runName (stampAt afternoon), rotationName (stampAt afternoon) 1]

theorem newest_twoFiles :
    Newest (listed (quiet twoFiles).entries).toFinset (stampAt afternoon) := by
  unfold Newest
  decide

theorem not_prunesItself_quiet : ¬ PrunesItself (quiet twoFiles) afternoon := by
  rintro ⟨hsurplus, -⟩
  obtain ⟨-, stamp, hfile, -⟩ := id hsurplus
  obtain ⟨hnow, -⟩ := stamp_of_runFile hfile
  exact not_surplus_of_newest newest_twoFiles (runFile_runName hnow) hsurplus

theorem inOrder_quiet :
    ∃ (log : OpenLog) (d' : Directory Bytes UInt8) (c' : Counting UInt8),
      openLog (quiet twoFiles) afternoon Directory.empty = .ok (.ok (log, d')) ∧
      (⟨log, d'⟩ : Writing UInt8).Stands ∧
      (counting isLf).Run (InOrder isLf) ⟨⟨log, d'⟩, 0⟩ [⟨fullBuffer, true, true⟩] c' := by
  obtain ⟨log, d', hopen⟩ := openLog_quiet twoFiles Directory.empty
  have hwhole : ¬ Breaks isLf (⟨log, d'⟩ : Writing UInt8) ⟨fullBuffer, true, true⟩ := by
    rintro ⟨-, -, hcreates⟩
    cases hcreates
  have hrun : (counting isLf).Run (fun c l => ¬ Breaks isLf c.now l) ⟨⟨log, d'⟩, 0⟩
      [⟨fullBuffer, true, true⟩] _ := Machine.Run.single hwhole rfl
  exact ⟨log, d', _, hopen, (inOrder_iff hopen).mpr ⟨not_prunesItself_quiet, hrun⟩⟩

theorem attempts_full {s : Writing UInt8} {renames creates : Bool} :
    Attempts isLf s ⟨fullBuffer, renames, creates⟩ := by
  have hlines : (⟨fullBuffer, renames, creates⟩ : Appending UInt8).lines isLf = 10000 := by
    unfold Appending.lines fullBuffer
    rw [List.countP_replicate]
    rfl
  unfold Attempts
  rw [hlines]
  exact Nat.le_add_left _ _

/-- After a rename that happens and a create that fails, the log writes a file that does
not stand under the announced path. -/
theorem disorder_after_cut :
    ∃ (log : OpenLog) (d' : Directory Bytes UInt8),
      openLog (quiet twoFiles) afternoon Directory.empty = .ok (.ok (log, d')) ∧
      (⟨log, d'⟩ : Writing UInt8).Stands ∧
      ∀ c', ¬ (counting isLf).Run (InOrder isLf) ⟨⟨log, d'⟩, 0⟩ [⟨fullBuffer, true, false⟩] c' := by
  obtain ⟨log, d', hopen⟩ := openLog_quiet twoFiles Directory.empty
  have hstands := (stands_opened_iff hopen).mpr not_prunesItself_quiet
  refine ⟨log, d', hopen, hstands, ?_⟩
  intro c' hrun
  cases hrun with
  | cons horder _ _ =>
    exact (inOrder_step_iff (poised_opened hopen hstands)).mp horder ⟨attempts_full, rfl, rfl⟩

end ChatModule.Logging
