import Mathlib.Data.Prod.Lex
import ChatModule.Lib.Machine
import ChatModule.Logging.Rotation

/-!
# The runs an instance directory keeps

A stamp has the fields of its time with the greatest first, each in as many digits, so that
stamps sort as texts the way times do (`stampAt_lt_iff`).

Over any number of runs, of which each opens its log, prunes and then writes and rotates, the
runs that have files left are the `KEEP_RUNS` of the latest seconds among all there ever were
(`newest_kept`): what one pruning has dropped no later one would keep
(`Grouped.greatest_insert`), and a run that writes neither makes a run nor ends one. The clock
may have been set back in between; then it is a run just begun that is not among them.
-/

namespace ChatModule.Logging

/-! ## Stamps sort as times do -/

section Stamps

variable {digits digits' : Bytes} {now now' : LocalTime}

/-- Texts of one length are compared part by part. -/
theorem append_lt_append_iff {a a' b b' : Bytes} (h : a.length = a'.length) :
    a ++ b < a' ++ b' ↔ a < a' ∨ a = a' ∧ b < b' := by
  induction a generalizing a' with
  | nil =>
    obtain rfl := List.length_eq_zero_iff.mp h.symm
    simp
  | cons c a ih =>
    cases a' with
    | nil => simp at h
    | cons c' a' =>
      have hrest := ih (Nat.succ.inj h)
      rw [List.cons_append, List.cons_append, List.cons_lt_cons_iff, List.cons_lt_cons_iff, hrest,
        List.cons.injEq]
      tauto

theorem toNat_of_isAsciiDigit {b : UInt8} (h : isAsciiDigit b) :
    48 ≤ b.toNat ∧ b.toNat ≤ 57 := by
  simp only [isAsciiDigit, Bool.and_eq_true, decide_eq_true_eq, UInt8.le_iff_toNat_le] at h
  exact h

/-- The number spelled with some digits in front. -/
def spelledFrom (n : ℕ) (digits : Bytes) : ℕ := digits.foldl (fun n b => 10 * n + (b.toNat - 48)) n

/-- A smaller number in front stays smaller. -/
theorem spelledFrom_lt {n n' : ℕ} (hlt : n < n') (hlength : digits.length = digits'.length)
    (hdigits : ∀ b ∈ digits, isAsciiDigit b) :
    spelledFrom n digits < spelledFrom n' digits' := by
  induction digits generalizing n n' digits' with
  | nil =>
    obtain rfl := List.length_eq_zero_iff.mp hlength.symm
    exact hlt
  | cons b digits ih =>
    cases digits' with
    | nil => simp at hlength
    | cons b' digits' =>
      have hb := toNat_of_isAsciiDigit (hdigits b List.mem_cons_self)
      have hnext : 10 * n + (b.toNat - 48) < 10 * n' + (b'.toNat - 48) := by omega
      have hsame : digits.length = digits'.length := Nat.succ.inj hlength
      have hless := ih hnext hsame fun c hc => hdigits c (List.mem_cons_of_mem _ hc)
      exact hless

/-- Digits sort as the numbers they spell. -/
theorem lt_iff_spelledFrom {n : ℕ} (hlength : digits.length = digits'.length)
    (hdigits : ∀ b ∈ digits, isAsciiDigit b) (hdigits' : ∀ b ∈ digits', isAsciiDigit b) :
    digits < digits' ↔ spelledFrom n digits < spelledFrom n digits' := by
  induction digits generalizing n digits' with
  | nil =>
    obtain rfl := List.length_eq_zero_iff.mp hlength.symm
    simp [spelledFrom]
  | cons b digits ih =>
    cases digits' with
    | nil => simp at hlength
    | cons b' digits' =>
      have hb := toNat_of_isAsciiDigit (hdigits b List.mem_cons_self)
      have hb' := toNat_of_isAsciiDigit (hdigits' b' List.mem_cons_self)
      have hrest : ∀ c ∈ digits, isAsciiDigit c := fun c hc => hdigits c (List.mem_cons_of_mem _ hc)
      have hrest' : ∀ c ∈ digits', isAsciiDigit c :=
        fun c hc => hdigits' c (List.mem_cons_of_mem _ hc)
      have hsame : digits.length = digits'.length := Nat.succ.inj hlength
      show _ ↔ spelledFrom (10 * n + (b.toNat - 48)) digits <
        spelledFrom (10 * n + (b'.toNat - 48)) digits'
      rw [List.cons_lt_cons_iff, UInt8.lt_iff_toNat_lt]
      rcases lt_trichotomy b.toNat b'.toNat with hlt | heq | hgt
      · have hnext : 10 * n + (b.toNat - 48) < 10 * n + (b'.toNat - 48) := by omega
        have hless := spelledFrom_lt hnext hsame hrest
        simp [hlt, hless]
      · obtain rfl := UInt8.toNat_inj.mp heq
        simpa using ih hsame hrest hrest'
      · have hnext : 10 * n + (b'.toNat - 48) < 10 * n + (b.toNat - 48) := by omega
        have hless := spelledFrom_lt hnext hsame.symm hrest'
        have hne : b ≠ b' := by
          rintro rfl
          exact lt_irrefl _ hgt
        simp [hgt.asymm, hne, hless.asymm]

theorem padded_lt_iff {width n n' : ℕ} (hwidth : 0 < width) (hn : n < 10 ^ width)
    (hn' : n' < 10 ^ width) : padded width n < padded width n' ↔ n < n' := by
  have hlength : (padded width n).length = (padded width n').length := by
    rw [(length_padded_iff hwidth).mpr hn, (length_padded_iff hwidth).mpr hn']
  rw [lt_iff_spelledFrom hlength (padded_digits _ _) (padded_digits _ _)]
  show spelled _ < spelled _ ↔ _
  rw [spelled_padded, spelled_padded]

/-- The fields of a time, from the year down. -/
def LocalTime.fields (t : LocalTime) : ℤ ×ₗ ℕ ×ₗ ℕ ×ₗ ℕ ×ₗ ℕ ×ₗ ℕ :=
  toLex (t.year, toLex (t.month, toLex (t.day, toLex (t.hour, toLex (t.minute, t.second)))))

theorem fields_injective : Function.Injective LocalTime.fields := by
  intro t t' h
  obtain ⟨year, month, day, hour, minute, second, hdate, htime⟩ := t
  obtain ⟨year', month', day', hour', minute', second', hdate', htime'⟩ := t'
  simp only [LocalTime.fields, EmbeddingLike.apply_eq_iff_eq, Prod.mk.injEq] at h
  simpa using h

/-- A time is before another when it is in the first field in which they differ. -/
instance linearOrderLocalTime : LinearOrder LocalTime :=
  LinearOrder.lift' LocalTime.fields fields_injective

theorem lt_iff_fields : now < now' ↔ now.year < now'.year ∨ now.year = now'.year ∧
    (now.month < now'.month ∨ now.month = now'.month ∧ (now.day < now'.day ∨ now.day = now'.day ∧
      (now.hour < now'.hour ∨ now.hour = now'.hour ∧ (now.minute < now'.minute ∨
        now.minute = now'.minute ∧ now.second < now'.second)))) := by
  show now.fields < now'.fields ↔ _
  simp only [LocalTime.fields, Prod.Lex.toLex_lt_toLex]

/-- Years of four digits. -/
def LocalTime.FourDigits (t : LocalTime) : Prop := 0 ≤ t.year ∧ t.year ≤ 9999

/-- A stamp sorts the way its time does. -/
theorem stampAt_lt_iff (h : now.FourDigits) (h' : now'.FourDigits) :
    stampAt now < stampAt now' ↔ now < now' := by
  obtain ⟨⟨hmonth, hday⟩, hhour, hminute, hsecond⟩ := And.intro now.date_le now.time_le
  obtain ⟨⟨hmonth', hday'⟩, hhour', hminute', hsecond'⟩ := And.intro now'.date_le now'.time_le
  have hlength : ∀ {width n n'}, 0 < width → n < 10 ^ width → n' < 10 ^ width →
      (padded width n).length = (padded width n').length := by
    intro width n n' hwidth hn hn'
    rw [(length_padded_iff hwidth).mpr hn, (length_padded_iff hwidth).mpr hn']
  have hinj : ∀ {width n n'}, padded width n = padded width n' ↔ n = n' := by
    intro width n n'
    constructor
    · intro heq
      rw [← spelled_padded width n, heq, spelled_padded]
    · rintro rfl
      rfl
  obtain ⟨hfrom, hto⟩ := h
  obtain ⟨hfrom', hto'⟩ := h'
  have hyear : now.year.toNat < 10 ^ 4 ∧ now'.year.toNat < 10 ^ 4 := by omega
  simp only [stampAt, yearText, if_pos (And.intro hfrom hto), if_pos (And.intro hfrom' hto'),
    List.append_assoc]
  rw [append_lt_append_iff (hlength (by decide) hyear.1 hyear.2),
    append_lt_append_iff (hlength (by decide) (by omega) (by omega)),
    append_lt_append_iff (hlength (by decide) (by omega) (by omega)),
    List.cons_lt_cons_iff,
    append_lt_append_iff (hlength (by decide) (by omega) (by omega)),
    append_lt_append_iff (hlength (by decide) (by omega) (by omega)),
    padded_lt_iff (by decide) hyear.1 hyear.2,
    padded_lt_iff (by decide) (by omega) (by omega),
    padded_lt_iff (by decide) (by omega) (by omega),
    padded_lt_iff (by decide) (by omega) (by omega),
    padded_lt_iff (by decide) (by omega) (by omega),
    padded_lt_iff (by decide) (by omega) (by omega)]
  simp only [hinj, lt_irrefl, true_and, false_or]
  have hless : now.year.toNat < now'.year.toNat ↔ now.year < now'.year := by omega
  have hsame : now.year.toNat = now'.year.toNat ↔ now.year = now'.year := by omega
  rw [lt_iff_fields, hless, hsame]

theorem stampAt_inj (h : now.FourDigits) (h' : now'.FourDigits) :
    stampAt now = stampAt now' ↔ now = now' := by
  constructor
  · intro heq
    apply le_antisymm
    · rw [← not_lt, ← stampAt_lt_iff h' h, heq]
      exact lt_irrefl _
    · rw [← not_lt, ← stampAt_lt_iff h h', heq]
      exact lt_irrefl _
  · rintro rfl
    rfl

end Stamps

/-! ## What opening and appending do to the runs -/

section Runs

variable {β : Type*} {isNewline : β → Bool} {d d' : Directory Bytes β} {now : LocalTime}
  {entries : Listing} {removes : Bytes → Bool} {s : Writing β} {l : Appending β}

theorem stamps_opened (hyear : now.FourDigits) (d : Directory Bytes β) :
    stamps (opened now d).names = insert (stampAt now) (stamps d.names) := by
  ext stamp
  rw [Finset.mem_insert, mem_stamps, mem_stamps]
  constructor
  · rintro ⟨name, hname, hfile⟩
    rcases mem_names_opened.mp hname with rfl | hold
    · exact Or.inl (stamp_of_runFile hfile).2
    · exact Or.inr ⟨name, hold, hfile⟩
  · rintro (rfl | ⟨name, hold, hfile⟩)
    · exact ⟨_, mem_names_opened.mpr (Or.inl rfl), runFile_runName (isStamp_stampAt hyear)⟩
    · exact ⟨name, mem_names_opened.mpr (Or.inr hold), hfile⟩

/-- Pruning a directory that is all listed leaves the greatest stamps. -/
theorem stamps_pruned (hcomplete : Complete entries d) (hremoves : ∀ name, removes name = true)
    (hprune : pruneRuns removes entries d = .ok d') :
    stamps d'.names = Grouped.greatest (stamps d.names) keepRuns := by
  obtain ⟨-, hentry⟩ := pruned_spec hprune
  rw [listed_of_complete hcomplete] at hentry
  ext stamp
  rw [Grouped.mem_greatest, mem_stamps, mem_stamps]
  constructor
  · rintro ⟨name, hname, hfile⟩
    rw [Directory.mem_names] at hname
    have hkept : ¬ Surplus d.names name := by
      intro hsurplus
      exact hname ((hentry name).1 ⟨hsurplus, hremoves name⟩)
    have hin : name ∈ d.names := by
      rw [Directory.mem_names, ← (hentry name).2 fun hand => hkept hand.1]
      exact hname
    refine ⟨⟨name, hin, hfile⟩, ?_⟩
    by_contra hnot
    exact hkept ⟨hin, stamp, hfile, hnot⟩
  · rintro ⟨⟨name, hname, hfile⟩, hnewest⟩
    refine ⟨name, ?_, hfile⟩
    have hkept := not_surplus_of_newest hnewest hfile
    rw [Directory.mem_names, (hentry name).2 fun hand => hkept hand.1]
    exact Directory.mem_names.mp hname

/-- Files that come and go under two names of one run leave the runs as they are. -/
theorem stamps_moved {old new stamp : Bytes} (hold : RunFile old stamp) (hnew : RunFile new stamp)
    (hbefore : old ∈ d.names) (hafter : new ∈ d'.names)
    (hother : ∀ name, name ≠ old → name ≠ new → d'.entry name = d.entry name) :
    stamps d'.names = stamps d.names := by
  ext stamp'
  rw [mem_stamps, mem_stamps]
  constructor
  · rintro ⟨name, hname, hfile⟩
    by_cases hrun : RunFile name stamp
    · obtain rfl := hfile.unique hrun
      exact ⟨old, hbefore, hold⟩
    · refine ⟨name, ?_, hfile⟩
      rw [Directory.mem_names] at hname ⊢
      rwa [← hother name (by rintro rfl; exact hrun hold) (by rintro rfl; exact hrun hnew)]
  · rintro ⟨name, hname, hfile⟩
    by_cases hrun : RunFile name stamp
    · obtain rfl := hfile.unique hrun
      exact ⟨new, hafter, hnew⟩
    · refine ⟨name, ?_, hfile⟩
      rw [Directory.mem_names] at hname ⊢
      rwa [hother name (by rintro rfl; exact hrun hold) (by rintro rfl; exact hrun hnew)]

/-- The names of a run that has not rotated too often can be told. -/
theorem runFile_aside {log : OpenLog} (hstamp : IsStamp log.stamp)
    (hfew : log.rotations.toNat < 999) : RunFile log.aside log.stamp := by
  refine (runFile_rotationName_iff hstamp).mpr ?_
  rw [UInt32.toNat_add, Nat.mod_eq_of_lt]
  · exact hfew
  · exact lt_of_le_of_lt (Nat.succ_le_of_lt hfew) (by decide)

theorem runFile_path {log : OpenLog} (hstamp : IsStamp log.stamp) :
    RunFile log.path log.stamp := by
  rw [log.named]
  exact runFile_runName hstamp

/-- An append leaves the runs as they are. -/
theorem stamps_append (hstamp : IsStamp s.log.stamp)
    (hfew : Attempts isNewline s l → s.log.rotations.toNat < 999) :
    stamps (s.append isNewline l).dir.names = stamps s.dir.names := by
  rcases entry_append isNewline s l with ⟨-, hsame⟩ | ⟨⟨hfull, -, hbefore⟩, hafter, hother⟩
  · congr 1
    ext name
    rw [Directory.mem_names, Directory.mem_names, hsame]
  · exact stamps_moved (runFile_path hstamp) (runFile_aside hstamp (hfew hfull)) hbefore hafter
      hother

end Runs

/-! ## The directory over the runs -/

/-- The instance directory, and the log of the run that is writing. -/
structure Keeping (β : Type*) where
  dir : Directory Bytes β
  /-- None while the log is inert. -/
  log : Option OpenLog
  /-- When the runs that opened a log did. -/
  began : List LocalTime

inductive KeepingMove (β : Type*)
  /-- A run begins. -/
  | start (answers : OpenAnswers) (now : LocalTime)
  /-- It writes. -/
  | append (l : Appending β)

section Keeping

variable {β : Type*} (isNewline : β → Bool)

def Keeping.step (s : Keeping β) : KeepingMove β → Option (Keeping β)
  | .start answers now =>
    match openLog answers now s.dir with
    | .ok (.ok (log, dir)) => some ⟨dir, some log, s.began ++ [now]⟩
    | .ok (.error _) => some { s with log := none }
    | .error _ => none
  | .append l => some <| s.log.elim s fun log =>
    let after := (⟨log, s.dir⟩ : Writing β).append isNewline l
    { s with dir := after.dir, log := some after.log }

/-- The runs of a module, one after the other. -/
def keeping : Machine (Keeping β) (KeepingMove β) := ⟨Keeping.step isNewline⟩

/-- The year has four digits, the directory is listed and removals are granted; a run does not
rotate more often than its names can tell. The clock may be set back. -/
def Regular (s : Keeping β) : KeepingMove β → Prop
  | .start answers now => now.FourDigits ∧ Complete answers.entries (opened now s.dir) ∧
    ∀ name, answers.removes name = true
  | .append l => ∀ log ∈ s.log, Attempts isNewline ⟨log, s.dir⟩ l → log.rotations.toNat < 999

/-- The runs of the directory are the greatest of all, and no other name has changed. -/
structure Retains (d : Directory Bytes β) (s : Keeping β) : Prop where
  stamps : stamps s.dir.names = Grouped.greatest (s.began.toFinset.image stampAt) keepRuns
  years : ∀ t ∈ s.began, t.FourDigits
  log : ∀ log ∈ s.log, IsStamp log.stamp
  others : ∀ name, (∀ stamp, ¬ RunFile name stamp) → s.dir.entry name = d.entry name

variable {isNewline} {d : Directory Bytes β} {s s' : Keeping β} {mv : KeepingMove β}
  {moves : List (KeepingMove β)}

theorem retains_start {answers : OpenAnswers} {now : LocalTime} {log : OpenLog}
    {dir : Directory Bytes β} (hgo : Regular isNewline s (.start answers now))
    (hopen : openLog answers now s.dir = .ok (.ok (log, dir))) (h : Retains d s) :
    Retains d ⟨dir, some log, s.began ++ [now]⟩ := by
  obtain ⟨hyear, hcomplete, hremoves⟩ := hgo
  obtain ⟨-, hstamp, -, -, -, hprune⟩ := openLog_spec hopen
  have hisStamp := isStamp_stampAt hyear
  constructor
  · -- the directory had the greatest before, and the new one has been added
    have himage : (s.began ++ [now]).toFinset.image stampAt =
        insert (stampAt now) (s.began.toFinset.image stampAt) := by
      ext stamp
      simp [eq_comm]
    show ChatModule.Logging.stamps dir.names = _
    rw [stamps_pruned hcomplete hremoves hprune, stamps_opened hyear, h.stamps,
      Grouped.greatest_insert, himage]
  · intro t ht
    rcases List.mem_append.mp ht with ht | ht
    · exact h.years t ht
    · obtain rfl := List.mem_singleton.mp ht
      exact hyear
  · intro log' hlog
    obtain rfl := Option.some.inj hlog
    rw [hstamp]
    exact hisStamp
  · intro name hno
    obtain ⟨-, hentry⟩ := pruned_spec hprune
    have hkept : ¬ Surplus (listed answers.entries).toFinset name := by
      rintro ⟨-, stamp, hfile, -⟩
      exact hno stamp hfile
    rw [(hentry name).2 fun hand => hkept hand.1, entry_opened, if_neg]
    · exact h.others name hno
    · rintro rfl
      exact hno _ (runFile_runName hisStamp)

theorem retains_append {log : OpenLog} {l : Appending β} (hgo : Regular isNewline s (.append l))
    (hlog : s.log = some log) (h : Retains d s) :
    Retains d { s with
      dir := ((⟨log, s.dir⟩ : Writing β).append isNewline l).dir
      log := some ((⟨log, s.dir⟩ : Writing β).append isNewline l).log } := by
  have hstamp := h.log log hlog
  have hfew := hgo log hlog
  refine ⟨?_, h.years, ?_, ?_⟩
  · exact (stamps_append hstamp hfew).trans h.stamps
  · intro log' hlog'
    obtain rfl := Option.some.inj hlog'
    rw [stamp_append]
    exact hstamp
  · intro name hno
    refine Eq.trans ?_ (h.others name hno)
    rcases entry_append isNewline ⟨log, s.dir⟩ l with ⟨-, hsame⟩ | ⟨⟨hfull, -⟩, -, hother⟩
    · exact hsame name
    · -- the names that are moved are those of a run
      apply hother
      · rintro rfl
        exact hno _ (runFile_path hstamp)
      · rintro rfl
        exact hno _ (runFile_aside hstamp (hfew hfull))

theorem retains_step (hgo : Regular isNewline s mv) (hstep : s.step isNewline mv = some s')
    (h : Retains d s) : Retains d s' := by
  cases mv with
  | start answers now =>
    obtain ⟨result, hopen⟩ := openLog_ok answers now s.dir
    simp only [Keeping.step, hopen] at hstep
    cases result with
    | ok opened =>
      cases hstep
      exact retains_start hgo hopen h
    | error e =>
      cases hstep
      exact ⟨h.stamps, h.years, by rintro log ⟨⟩, h.others⟩
  | append l =>
    cases hlog : s.log with
    | none =>
      simp only [Keeping.step, hlog, Option.elim_none, Option.some.injEq] at hstep
      exact hstep ▸ h
    | some log =>
      simp only [Keeping.step, hlog, Option.elim_some, Option.some.injEq] at hstep
      subst hstep
      exact retains_append hgo hlog h

/-- How many runs began later, by their stamps and by their times. -/
theorem above_stampAt {began : List LocalTime} {t : LocalTime} (hyears : ∀ t ∈ began, t.FourDigits)
    (ht : t.FourDigits) : Grouped.above (began.toFinset.image stampAt) (stampAt t) =
      (began.toFinset.filter (t < ·)).card := by
  have himage : Grouped.above (began.toFinset.image stampAt) (stampAt t) =
      ((began.toFinset.filter (t < ·)).image stampAt).card := by
    unfold Grouped.above
    congr 1
    ext stamp
    simp only [Finset.mem_filter, Finset.mem_image, List.mem_toFinset]
    constructor
    · rintro ⟨⟨t', ht', rfl⟩, hlt⟩
      exact ⟨t', ⟨ht', (stampAt_lt_iff ht (hyears t' ht')).mp hlt⟩, rfl⟩
    · rintro ⟨t', ⟨ht', hlt⟩, rfl⟩
      exact ⟨⟨t', ht', rfl⟩, (stampAt_lt_iff ht (hyears t' ht')).mpr hlt⟩
  rw [himage, Finset.card_image_of_injOn]
  intro t₁ h₁ t₂ h₂ heq
  have hyear : ∀ t' ∈ (began.toFinset.filter (t < ·) : Set LocalTime), t'.FourDigits :=
    fun t' ht' => hyears t' (List.mem_toFinset.mp (Finset.mem_filter.mp ht').1)
  exact (stampAt_inj (hyear t₁ h₁) (hyear t₂ h₂)).mp heq

/-- Stamps sort as their times do, and in a directory that had no run, the runs that have a
file are those that fewer than `KEEP_RUNS` runs of later seconds have followed, however the
clock was set and whatever was written; other writers' files stand where they did. -/
theorem newest_kept (hnone : stamps d.names = ∅)
    (hr : (keeping isNewline).Run (Regular isNewline) ⟨d, none, []⟩ moves s) :
    (∀ t t' : LocalTime, t.FourDigits → t'.FourDigits → (stampAt t < stampAt t' ↔ t < t')) ∧
    (∀ stamp, (∃ name ∈ s.dir.names, RunFile name stamp) ↔ ∃ t ∈ s.began,
      stamp = stampAt t ∧ (s.began.toFinset.filter (t < ·)).card < keepRuns) ∧
    ∀ name, (∀ stamp, ¬ RunFile name stamp) → s.dir.entry name = d.entry name := by
  have hinitial : Retains d ⟨d, none, []⟩ := by
    refine ⟨?_, by rintro t ⟨⟩, by rintro log ⟨⟩, fun _ _ => rfl⟩
    rw [hnone]
    rfl
  have h : Retains d s := hr.invariant
    (fun _ _ _ hgo hs h => retains_step hgo hs h) hinitial
  refine ⟨fun t t' ht ht' => stampAt_lt_iff ht ht', ?_, h.others⟩
  intro stamp
  rw [← mem_stamps, h.stamps, Grouped.mem_greatest, Finset.mem_image]
  constructor
  · rintro ⟨⟨t, ht, rfl⟩, hfew⟩
    rw [List.mem_toFinset] at ht
    rw [above_stampAt h.years (h.years t ht)] at hfew
    exact ⟨t, ht, rfl, hfew⟩
  · rintro ⟨t, ht, rfl, hfew⟩
    refine ⟨⟨t, List.mem_toFinset.mpr ht, rfl⟩, ?_⟩
    rwa [above_stampAt h.years (h.years t ht)]

/-- A run begins, its directory all listed. -/
theorem run_start (isNewline : β → Bool) {now : LocalTime} (hyear : now.FourDigits)
    (s : Keeping β) :
    ∃ mv log dir, (keeping isNewline).Run (Regular isNewline) s [mv]
      ⟨dir, some log, s.began ++ [now]⟩ ∧ log.rotations = 0 := by
  let names := (opened now s.dir).names.toList
  have hcomplete : Complete (some (names.map some)) (opened now s.dir) :=
    ⟨names, rfl, fun name => Finset.mem_toList⟩
  obtain ⟨d', hprune, -⟩ := pruneRuns_spec (fun _ => true) (some (names.map some))
    (opened now s.dir)
  have hopen := openLog_of_prune (sweeping names) rfl rfl rfl hprune
  have hregular : Regular isNewline s (.start (sweeping names) now) :=
    ⟨hyear, hcomplete, fun _ => rfl⟩
  refine ⟨_, _, d', .single hregular ?_, (openLog_spec hopen).2.2.2.1⟩
  show Keeping.step isNewline s (.start (sweeping names) now) = _
  rw [Keeping.step, hopen]

/-- Runs begin one after the other. -/
theorem run_starts (isNewline : β → Bool) {nows : List LocalTime}
    (hyears : ∀ now ∈ nows, now.FourDigits) {s : Keeping β}
    (hlog : ∀ log ∈ s.log, log.rotations = 0) :
    ∃ moves s', (keeping isNewline).Run (Regular isNewline) s moves s' ∧
      s'.began = s.began ++ nows ∧ ∀ log ∈ s'.log, log.rotations = 0 := by
  induction nows generalizing s with
  | nil => exact ⟨[], s, .nil s, (List.append_nil _).symm, hlog⟩
  | cons now nows ih =>
    obtain ⟨mv, log, dir, hstart, hrotations⟩ :=
      run_start isNewline (hyears now List.mem_cons_self) s
    have hnext : ∀ log' ∈ some log, log'.rotations = 0 := by
      rintro log' ⟨⟩
      exact hrotations
    obtain ⟨moves, s', hr, hbegan, hlast⟩ :=
      ih (fun t ht => hyears t (List.mem_cons_of_mem _ ht)) (s := ⟨dir, _, _⟩) hnext
    refine ⟨mv :: moves, s', hstart.append hr, ?_, hlast⟩
    rw [hbegan, List.append_assoc]
    rfl

/-- An append begins no run. -/
theorem step_append (isNewline : β → Bool) (s : Keeping β) (l : Appending β) :
    ∃ s', s.step isNewline (.append l) = some s' ∧ s'.began = s.began := by
  refine ⟨_, rfl, ?_⟩
  cases s.log <;> rfl

theorem date_august (day : Fin 11) : 8 ≤ 12 ∧ day.val + 1 ≤ 31 := by omega

/-- The afternoons of eleven days of August. -/
def august : List LocalTime :=
  (List.finRange 11).map fun day =>
    { afternoon with month := 8, day := day.val + 1, date_le := date_august day }

/-- Eleven runs of which the last rotates its log, and one after the clock has been set back
to July, of which no file is left. -/
theorem newest_kept_setBack : ∃ (moves : List (KeepingMove UInt8)) (s : Keeping UInt8),
    (keeping isLf).Run (Regular isLf) ⟨Directory.empty, none, []⟩ moves s ∧
    .append ⟨fullBuffer, true, true⟩ ∈ moves ∧ s.began = august ++ [afternoon] ∧
    (¬ ∃ name ∈ s.dir.names, RunFile name (stampAt afternoon)) ∧
    (∀ t t' : LocalTime, t.FourDigits → t'.FourDigits → (stampAt t < stampAt t' ↔ t < t')) ∧
    (∀ stamp, (∃ name ∈ s.dir.names, RunFile name stamp) ↔ ∃ t ∈ s.began,
      stamp = stampAt t ∧ (s.began.toFinset.filter (t < ·)).card < keepRuns) ∧
    ∀ name, (∀ stamp, ¬ RunFile name stamp) →
      s.dir.entry name = (Directory.empty : Directory Bytes UInt8).entry name := by
  have hyears : ∀ t ∈ august, t.FourDigits := by
    intro t ht
    obtain ⟨day, -, rfl⟩ := List.mem_map.mp ht
    show (0 : ℤ) ≤ 2026 ∧ (2026 : ℤ) ≤ 9999
    decide
  obtain ⟨starts, s₁, hstarts, hbegan₁, hlog₁⟩ :=
    run_starts isLf hyears (s := ⟨Directory.empty, none, []⟩) (by rintro log ⟨⟩)
  have hafternoon : afternoon.FourDigits := ⟨by decide, by decide⟩
  -- the last of the runs rotates
  have hregular : Regular isLf s₁ (.append ⟨fullBuffer, true, true⟩) := by
    intro log hlog _
    rw [hlog₁ log hlog]
    decide
  obtain ⟨s₂, hrotate, hbegan₂⟩ := step_append isLf s₁ ⟨fullBuffer, true, true⟩
  obtain ⟨mv, log, dir, hback, -⟩ := run_start isLf hafternoon s₂
  have hr := hstarts.append ((Machine.Run.single hregular hrotate).append hback)
  have hnone : stamps (Directory.empty : Directory Bytes UInt8).names = ∅ := rfl
  have hbegan : s₂.began ++ [afternoon] = august ++ [afternoon] := by
    rw [hbegan₂, hbegan₁]
    rfl
  have hkept := newest_kept hnone hr
  refine ⟨_, _, hr, List.mem_append_right _ List.mem_cons_self, hbegan, ?_, hkept⟩
  rw [hkept.2.1]
  rintro ⟨t, ht, hstamp, hfew⟩
  dsimp only at ht hfew
  rw [hbegan] at ht hfew
  obtain rfl : afternoon = t := by
    rw [← stampAt_inj hafternoon, hstamp]
    rcases List.mem_append.mp ht with haugust | hlast
    · exact hyears t haugust
    · rw [List.mem_singleton.mp hlast]
      exact hafternoon
  exact absurd hfew (by decide)

end Keeping

end ChatModule.Logging
