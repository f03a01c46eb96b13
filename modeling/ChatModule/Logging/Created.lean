import Mathlib.Data.List.Nodup
import ChatModule.Logging.Rotation

/-!
# The names a run makes

A run makes the name its log is opened under and, with every rename of a rotation that
happens, the name the full file is moved to. An attempt whose rename is refused spends an
ordinal and makes no name, so the names are told by the number of their attempt
(`created_eq`); no other name comes up in the directory (`created_of_new`).

The ordinal is a counter of 32 bits written with at least three digits, and the pruner reads
exactly three. It reads all that a run has made, and drops it with the run, exactly when no
file was moved at an attempt the three digits cannot tell, nor two at attempts they tell
alike (`recognised_iff`). In a run of fewer than 2³² attempts that is: no file was moved
after the 999th (`recognised_iff_of_lt`).
-/

namespace ChatModule.Logging

variable {β : Type*} (isNewline : β → Bool)

instance (s : Writing β) (l : Appending β) : Decidable (Moves isNewline s l) :=
  inferInstanceAs (Decidable (_ ∧ _ ∧ _))

/-- The log, with the rotations attempted since it was opened. -/
structure Trying (β : Type*) where
  now : Writing β
  attempts : ℕ

/-- The state after an append, with the attempt counted if there was one. -/
def Trying.append (t : Trying β) (l : Appending β) : Trying β where
  now := t.now.append isNewline l
  attempts := if Attempts isNewline t.now l then t.attempts + 1 else t.attempts

/-- Buffers appended one after the other, with the attempted rotations counted. -/
def trying : Machine (Trying β) (Appending β) := ⟨fun t l => some (t.append isNewline l)⟩

/-- The rotation with which an append moves the file aside: the number of the attempt, and
the name the file is moved to. -/
def moved (t : Trying β) (l : Appending β) : List (ℕ × Bytes) :=
  if Moves isNewline t.now l then [(t.attempts + 1, t.now.log.aside)] else []

/-- The numbers of the attempts at which the file was moved. -/
def numbers (t : Trying β) (ls : List (Appending β)) : List ℕ :=
  ((trying isNewline).output (moved isNewline) t ls).map Prod.fst

/-- The names a run has made: the one its log was opened under, and those its files were
moved to. -/
def created (t : Trying β) (ls : List (Appending β)) : List Bytes :=
  t.now.log.path :: ((trying isNewline).output (moved isNewline) t ls).map Prod.snd

/-- Every name is read back under its stamp, no two are the same, and a pruning that drops
the run takes away all of them that it is shown and may remove. -/
structure Recognised (β : Type*) (stamp : Bytes) (names : List Bytes) : Prop where
  read : ∀ name ∈ names, stampOf name = .ok (some stamp)
  distinct : names.Nodup
  pruned : ∀ (entries : Listing) (removes : Bytes → Bool) (d d' : Directory Bytes β),
    pruneRuns removes entries d = .ok d' → ¬ Newest (listed entries).toFinset stamp →
    ∀ name ∈ names, name ∈ listed entries → removes name = true → d'.entry name = none

/-- A log before its first rotation, as `RunLog::open` leaves it, under any stamp. -/
structure OpenLog.Unrotated (log : OpenLog) : Prop where
  stamp : IsStamp log.stamp
  rotations : log.rotations = 0

theorem unrotated_of_openLog {answers : OpenAnswers} {now : LocalTime}
    {d d' : Directory Bytes β} {log : OpenLog} (hyear : 0 ≤ now.year ∧ now.year ≤ 9999)
    (hopen : openLog answers now d = .ok (.ok (log, d'))) : log.Unrotated := by
  obtain ⟨-, hstamp, -, hrotations, -⟩ := openLog_spec hopen
  refine ⟨?_, hrotations⟩
  rw [hstamp]
  exact isStamp_stampAt hyear

/-! ## The names of some ordinals -/

section Ordinals

variable {stamp : Bytes} {k k' : ℕ} {ks : List ℕ}

theorem toNat_ordinal (k : ℕ) : (UInt32.ofNat k).toNat = k % 2 ^ 32 := UInt32.toNat_ofNat'

theorem rotationName_ordinal_inj :
    rotationName stamp (UInt32.ofNat k) = rotationName stamp (UInt32.ofNat k') ↔
      k % 2 ^ 32 = k' % 2 ^ 32 := by
  rw [← toNat_ordinal, ← toNat_ordinal, UInt32.toNat_inj]
  constructor
  · exact rotationName_injective
  · intro heq
    rw [heq]

/-- The names of a run and of its rotations under some attempts. -/
def namesAt (stamp : Bytes) (ks : List ℕ) : List Bytes :=
  runName stamp :: ks.map fun k => rotationName stamp (UInt32.ofNat k)

theorem nodup_namesAt : (namesAt stamp ks).Nodup ↔ (ks.map (· % 2 ^ 32)).Nodup := by
  unfold namesAt
  rw [List.nodup_cons, List.Nodup, List.Nodup, List.pairwise_map, List.pairwise_map]
  have hfront : runName stamp ∉ ks.map fun k => rotationName stamp (UInt32.ofNat k) := by
    intro hmem
    obtain ⟨k, -, heq⟩ := List.mem_map.mp hmem
    exact rotationName_ne_runName _ heq
  simp only [hfront, not_false_eq_true, true_and, ne_eq, rotationName_ordinal_inj]

theorem runFile_namesAt (hstamp : IsStamp stamp) :
    (∀ name ∈ namesAt stamp ks, RunFile name stamp) ↔ ∀ k ∈ ks, k % 2 ^ 32 ≤ 999 := by
  unfold namesAt
  rw [List.forall_mem_cons, List.forall_mem_map]
  simp only [runFile_runName hstamp, runFile_rotationName_iff hstamp, toNat_ordinal, true_and]

theorem recognised_namesAt (hstamp : IsStamp stamp) :
    Recognised β stamp (namesAt stamp ks) ↔
      (∀ k ∈ ks, k % 2 ^ 32 ≤ 999) ∧ (ks.map (· % 2 ^ 32)).Nodup := by
  rw [← runFile_namesAt hstamp, ← nodup_namesAt]
  constructor
  · intro h
    exact ⟨fun name hname => stampOf_iff.mp (h.read name hname), h.distinct⟩
  · rintro ⟨hfiles, hnodup⟩
    refine ⟨fun name hname => stampOf_of_runFile (hfiles name hname), hnodup, ?_⟩
    intro entries removes d d' hprune hdropped name hname hlisted hremoves
    obtain ⟨-, hentry⟩ := pruned_spec hprune
    have hsurplus : Surplus (listed entries).toFinset name :=
      ⟨List.mem_toFinset.mpr hlisted, stamp, hfiles name hname, hdropped⟩
    exact (hentry name).1 ⟨hsurplus, hremoves⟩

end Ordinals

/-! ## The names of a run -/

section Runs

variable {isNewline} {t₀ t t' : Trying β} {l : Appending β} {ls : List (Appending β)}
  {out : List (ℕ × Bytes)}

theorem rotations_append (s : Writing β) (l : Appending β) :
    (s.append isNewline l).log.rotations =
      if Attempts isNewline s l then s.log.rotations + 1 else s.log.rotations := by
  rcases append_cases s l with ⟨hnot, -, happend⟩ | ⟨hfull, -, happend⟩ |
    ⟨hfull, -, d, -, ⟨-, happend⟩ | ⟨-, -, happend⟩⟩
  · rw [happend, if_neg hnot]
  · rw [happend, if_pos hfull]
    rfl
  · rw [happend, if_pos hfull]
    rfl
  · rw [happend, if_pos hfull]
    rfl

/-- What the moves so far have come to. -/
structure Traced (t₀ : Trying β) (out : List (ℕ × Bytes)) (t : Trying β) : Prop where
  stamp : t.now.log.stamp = t₀.now.log.stamp
  ordinal : t.now.log.rotations = UInt32.ofNat t.attempts
  named : ∀ p ∈ out, p.2 = rotationName t₀.now.log.stamp (UInt32.ofNat p.1)
  increasing : (out.map Prod.fst).Pairwise (· < ·)
  counted : ∀ p ∈ out, p.1 ≤ t.attempts
  names : ∀ name ∈ t.now.dir.names,
    name ∈ t₀.now.dir.names ∨ name = t₀.now.log.path ∨ name ∈ out.map Prod.snd

theorem traced_start (h : t₀.now.log.Unrotated) (hattempts : t₀.attempts = 0) :
    Traced t₀ [] t₀ := by
  refine ⟨rfl, ?_, by simp, List.Pairwise.nil, by simp, fun _ hname => Or.inl hname⟩
  rw [h.rotations, hattempts]
  rfl

/-- The next name is that of the next attempt. -/
theorem Traced.aside (h : Traced t₀ out t) :
    t.now.log.aside = rotationName t₀.now.log.stamp (UInt32.ofNat (t.attempts + 1)) := by
  unfold OpenLog.aside
  rw [h.stamp, h.ordinal, UInt32.ofNat_add]
  rfl

theorem Traced.path (h : Traced t₀ out t) : t.now.log.path = t₀.now.log.path := by
  rw [OpenLog.named, OpenLog.named, h.stamp]

/-- One step: an append that moves the file brings up the name of its attempt, and no
append brings up another. -/
theorem traced_step (h : Traced t₀ out t) :
    Traced t₀ (out ++ moved isNewline t l) (t.append isNewline l) := by
  have hsame : (t.now.append isNewline l).log.stamp = t.now.log.stamp := stamp_append t.now l
  have hstamp := hsame.trans h.stamp
  have hordinal : (t.append isNewline l).now.log.rotations =
      UInt32.ofNat (t.append isNewline l).attempts := by
    -- an attempt spends an ordinal whether it is let through or not
    show (t.now.append isNewline l).log.rotations = UInt32.ofNat (if _ then _ else _)
    rw [rotations_append, h.ordinal]
    split
    · rw [UInt32.ofNat_add]
      rfl
    · rfl
  have hle : t.attempts ≤ (t.append isNewline l).attempts := by
    show t.attempts ≤ if _ then _ else _
    split
    · exact Nat.le_succ _
    · exact le_rfl
  rcases entry_append isNewline t.now l with ⟨hstays, hsame⟩ | ⟨hmoves, -, hother⟩
  · rw [moved, if_neg hstays, List.append_nil]
    refine ⟨hstamp, hordinal, h.named, h.increasing, fun p hp => (h.counted p hp).trans hle, ?_⟩
    intro name hname
    apply h.names
    rw [Directory.mem_names] at hname ⊢
    rwa [← hsame]
  · rw [moved, if_pos hmoves]
    have hnext : (t.append isNewline l).attempts = t.attempts + 1 := if_pos hmoves.1
    refine ⟨hstamp, hordinal, ?_, ?_, ?_, ?_⟩
    · intro p hp
      rcases List.mem_append.mp hp with hold | hnew
      · exact h.named p hold
      · rw [List.mem_singleton.mp hnew, h.aside]
    · -- the numbers so far are of earlier attempts
      rw [List.map_append]
      refine List.pairwise_append.mpr ⟨h.increasing, List.pairwise_singleton _ _, ?_⟩
      intro k hk k' hk'
      obtain ⟨p, hp, rfl⟩ := List.mem_map.mp hk
      obtain rfl := List.mem_singleton.mp hk'
      exact Nat.lt_succ_of_le (h.counted p hp)
    · intro p hp
      rw [hnext]
      rcases List.mem_append.mp hp with hold | hnew
      · exact (h.counted p hold).trans (Nat.le_succ _)
      · rw [List.mem_singleton.mp hnew]
    · intro name hname
      by_cases hpath : name = t.now.log.path
      · exact Or.inr (Or.inl (hpath.trans h.path))
      by_cases haside : name = t.now.log.aside
      · right
        right
        rw [List.map_append, haside]
        exact List.mem_append_right _ List.mem_cons_self
      · have hold : name ∈ t.now.dir.names := by
          rw [Directory.mem_names] at hname ⊢
          rwa [← hother name hpath haside]
        rcases h.names name hold with hstart | hopened | hmade
        · exact Or.inl hstart
        · exact Or.inr (Or.inl hopened)
        · refine Or.inr (Or.inr ?_)
          rw [List.map_append]
          exact List.mem_append_left _ hmade

/-- What a run's moves have come to. -/
theorem traced_run (h : t₀.now.log.Unrotated) (hattempts : t₀.attempts = 0)
    (hr : (trying isNewline).Run (fun _ _ => True) t₀ ls t) :
    Traced t₀ ((trying isNewline).output (moved isNewline) t₀ ls) t := by
  refine hr.accumulates (I := Traced t₀) ?_ (traced_start h hattempts)
  intro out t l t' _ hstep htraced
  obtain rfl := Option.some.inj hstep
  exact traced_step htraced

variable {log : OpenLog} {d : Directory Bytes β}

/-- The names a run has made are those of the attempts at which its file was moved. -/
theorem created_eq (h : log.Unrotated)
    (hr : (trying isNewline).Run (fun _ _ => True) ⟨⟨log, d⟩, 0⟩ ls t) :
    created isNewline ⟨⟨log, d⟩, 0⟩ ls =
      namesAt log.stamp (numbers isNewline ⟨⟨log, d⟩, 0⟩ ls) := by
  have htraced := traced_run h rfl hr
  unfold created namesAt numbers
  rw [List.map_map]
  congr 1
  · exact log.named
  · refine List.map_congr_left ?_
    exact htraced.named

/-- What a run has added to the directory it has made. -/
theorem created_of_new (h : log.Unrotated)
    (hr : (trying isNewline).Run (fun _ _ => True) ⟨⟨log, d⟩, 0⟩ ls t) :
    ∀ name ∈ t.now.dir.names, name ∈ d.names ∨ name ∈ created isNewline ⟨⟨log, d⟩, 0⟩ ls := by
  intro name hname
  rcases (traced_run h rfl hr).names name hname with hold | hpath | hmade
  · exact Or.inl hold
  · exact Or.inr (List.mem_cons.mpr (Or.inl hpath))
  · exact Or.inr (List.mem_cons_of_mem _ hmade)

/-- The pruner reads what a run has made exactly when each file was moved at an attempt whose
ordinal has three digits, no two under one ordinal. -/
theorem recognised_iff (h : log.Unrotated)
    (hr : (trying isNewline).Run (fun _ _ => True) ⟨⟨log, d⟩, 0⟩ ls t) :
    Recognised β log.stamp (created isNewline ⟨⟨log, d⟩, 0⟩ ls) ↔
      (∀ k ∈ numbers isNewline ⟨⟨log, d⟩, 0⟩ ls, k % 2 ^ 32 ≤ 999) ∧
        ((numbers isNewline ⟨⟨log, d⟩, 0⟩ ls).map (· % 2 ^ 32)).Nodup := by
  rw [created_eq h hr]
  exact recognised_namesAt h.stamp

/-- The three digits tell the attempts of a run that has not made 2³² of them up to the 999th. -/
theorem recognised_iff_of_lt (h : log.Unrotated)
    (hr : (trying isNewline).Run (fun _ _ => True) ⟨⟨log, d⟩, 0⟩ ls t)
    (hfew : t.attempts < 2 ^ 32) :
    Recognised β log.stamp (created isNewline ⟨⟨log, d⟩, 0⟩ ls) ↔
      ∀ k ∈ numbers isNewline ⟨⟨log, d⟩, 0⟩ ls, k ≤ 999 := by
  have htraced := traced_run h rfl hr
  rw [created_eq h hr, recognised_namesAt h.stamp]
  have hsame : ∀ k ∈ numbers isNewline ⟨⟨log, d⟩, 0⟩ ls, k % 2 ^ 32 = k := by
    intro k hk
    obtain ⟨p, hp, rfl⟩ := List.mem_map.mp hk
    exact Nat.mod_eq_of_lt (lt_of_le_of_lt (htraced.counted p hp) hfew)
  rw [List.map_congr_left hsame, List.map_id']
  have hnodup : (numbers isNewline ⟨⟨log, d⟩, 0⟩ ls).Nodup :=
    htraced.increasing.imp fun hlt => hlt.ne
  constructor
  · rintro ⟨hdigits, -⟩ k hk
    rw [← hsame k hk]
    exact hdigits k hk
  · intro hle
    refine ⟨fun k hk => ?_, hnodup⟩
    rw [hsame k hk]
    exact hle k hk

/-! ### Runs of full buffers -/

section Full

variable {t : Trying UInt8}

/-- An append whose buffer fills the file, and whose rename is let through or not. -/
def full (renames : Bool) : Appending UInt8 := ⟨fullBuffer, renames, true⟩

theorem run_full (t : Trying UInt8) (ls : List (Appending UInt8)) :
    ∃ t', (trying isLf).Run (fun _ _ => True) t ls t' := by
  induction ls generalizing t with
  | nil => exact ⟨t, .nil t⟩
  | cons l ls ih =>
    obtain ⟨t', hr⟩ := ih (t.append isLf l)
    exact ⟨t', .cons trivial rfl hr⟩

theorem stands_full {renames : Bool} (hstands : t.now.Stands) :
    (t.append isLf (full renames)).now.Stands := by
  refine (stands_append hstands ?_).1
  rintro ⟨-, -, hcreates⟩
  cases hcreates

theorem attempts_of_full {s : Writing UInt8} {renames : Bool} : Attempts isLf s (full renames) :=
  attempts_full

theorem attempts_append_full {renames : Bool} :
    (t.append isLf (full renames)).attempts = t.attempts + 1 := by
  unfold Trying.append
  rw [if_pos attempts_of_full]

/-- A refused rename spends an ordinal and moves nothing. -/
theorem numbers_refused {ls : List (Appending UInt8)} :
    numbers isLf t (full false :: ls) = numbers isLf (t.append isLf (full false)) ls := by
  have hstays : ¬ Moves isLf t.now (full false) := by
    rintro ⟨-, hrenames, -⟩
    cases hrenames
  unfold numbers
  rw [Machine.output_cons rfl, moved, if_neg hstays, List.nil_append]

/-- Every full buffer moves the file of a log that stands. -/
theorem numbers_full {n : ℕ} (hstands : t.now.Stands) :
    numbers isLf t (List.replicate n (full true)) = List.range' (t.attempts + 1) n := by
  induction n generalizing t with
  | zero => rfl
  | succ n ih =>
    have hpath : t.now.log.path ∈ t.now.dir.names := by
      rw [Directory.mem_names, hstands]
      exact Option.some_ne_none _
    have hmoves : Moves isLf t.now (full true) := ⟨attempts_of_full, rfl, hpath⟩
    have hstands' : (t.append isLf (full true)).now.Stands := stands_full hstands
    have hrest := ih hstands'
    rw [attempts_append_full] at hrest
    unfold numbers at hrest ⊢
    rw [List.replicate_succ, Machine.output_cons rfl, moved, if_pos hmoves, List.map_append,
      hrest, List.range'_succ]
    rfl

/-- A log of the afternoon, opened in an empty directory. -/
theorem opened_afternoon : ∃ (log : OpenLog) (d' : Directory Bytes UInt8),
    openLog (quiet twoFiles) afternoon Directory.empty = .ok (.ok (log, d')) ∧
      log.Unrotated ∧ (⟨log, d'⟩ : Writing UInt8).Stands ∧ log.stamp = stampAt afternoon := by
  obtain ⟨log, d', hopen⟩ := openLog_quiet twoFiles Directory.empty
  exact ⟨log, d', hopen, unrotated_of_openLog (by decide) hopen,
    (stands_opened_iff hopen).mpr not_prunesItself_quiet, (openLog_spec hopen).2.1⟩

/-- A first rotation that is refused and 998 that happen. -/
theorem recognised_afternoon : ∃ (log : OpenLog) (d' : Directory Bytes UInt8),
    openLog (quiet twoFiles) afternoon Directory.empty = .ok (.ok (log, d')) ∧
      (created isLf ⟨⟨log, d'⟩, 0⟩ (full false :: List.replicate 998 (full true))).length = 999 ∧
      Recognised UInt8 log.stamp
        (created isLf ⟨⟨log, d'⟩, 0⟩ (full false :: List.replicate 998 (full true))) := by
  obtain ⟨log, d', hopen, hnew, hstands, -⟩ := opened_afternoon
  obtain ⟨t, hr⟩ := run_full ⟨⟨log, d'⟩, 0⟩ (full false :: List.replicate 998 (full true))
  have hnumbers : numbers isLf ⟨⟨log, d'⟩, 0⟩ (full false :: List.replicate 998 (full true)) =
      List.range' 2 998 := by
    rw [numbers_refused, numbers_full (stands_full hstands), attempts_append_full]
  refine ⟨log, d', hopen, ?_, (recognised_iff hnew hr).mpr ?_⟩
  · rw [created_eq hnew hr, hnumbers, namesAt, List.length_cons, List.length_map,
      List.length_range']
  · rw [hnumbers]
    have hlt : ∀ k ∈ List.range' 2 998, k % 2 ^ 32 = k ∧ k ≤ 999 := by
      intro k hk
      rw [List.mem_range'_1] at hk
      omega
    constructor
    · intro k hk
      rw [(hlt k hk).1]
      exact (hlt k hk).2
    · rw [List.map_congr_left fun k hk => (hlt k hk).1, List.map_id']
      exact List.nodup_range'

/-- The file of the thousandth rotation is none of the module's to the pruner. -/
theorem unread_thousandth : ∃ (log : OpenLog) (d' : Directory Bytes UInt8),
    openLog (quiet twoFiles) afternoon Directory.empty = .ok (.ok (log, d')) ∧
      rotationName (stampAt afternoon) 1000 ∈
        created isLf ⟨⟨log, d'⟩, 0⟩ (List.replicate 1000 (full true)) ∧
      stampOf (rotationName (stampAt afternoon) 1000) = .ok none ∧
      ¬ Recognised UInt8 log.stamp
        (created isLf ⟨⟨log, d'⟩, 0⟩ (List.replicate 1000 (full true))) := by
  obtain ⟨log, d', hopen, hnew, hstands, hstamp⟩ := opened_afternoon
  obtain ⟨t, hr⟩ := run_full ⟨⟨log, d'⟩, 0⟩ (List.replicate 1000 (full true))
  have hmem : rotationName (stampAt afternoon) 1000 ∈
      created isLf ⟨⟨log, d'⟩, 0⟩ (List.replicate 1000 (full true)) := by
    rw [created_eq hnew hr, numbers_full hstands, hstamp]
    apply List.mem_cons_of_mem
    have hlast : 1000 ∈ List.range' (0 + 1) 1000 := by
      rw [List.mem_range'_1]
      omega
    exact List.mem_map.mpr ⟨1000, hlast, rfl⟩
  have hunread : stampOf (rotationName (stampAt afternoon) 1000) = .ok none := by decide
  refine ⟨log, d', hopen, hmem, hunread, ?_⟩
  intro h
  have hread := h.read _ hmem
  rw [hunread] at hread
  cases hread

end Full

end Runs

end ChatModule.Logging
