import ChatModule.Logging.Rotation

/-!
# The lines of a run

The files of a run are the one being written and its rotations, whatever made them. From
the opening of the log on, every byte that stood in one of them and every byte appended
since stands in exactly one of them, and the rotations in the order of their ordinals and
then the file being written give what was appended in its order (`whole_of_clear`).

That is so as long as the opening prunes nothing of the run and no rotation is let through
onto a file that holds something, which an earlier process under the same stamp may have
left, its ordinals having started at one too. Ordinals are counted in 32 bits and may not
wrap. A rotation onto a file loses its bytes (`lost_of_overwrite`).
-/

namespace ChatModule.Logging

open Directory

/-- The names of a run's files. -/
def family (stamp : Bytes) : Finset Bytes :=
  insert (runName stamp)
    ((Finset.range (2 ^ 32)).image fun r => rotationName stamp (UInt32.ofNat r))

theorem mem_family {stamp name : Bytes} :
    name ∈ family stamp ↔ name = runName stamp ∨ ∃ r, name = rotationName stamp r := by
  unfold family
  rw [Finset.mem_insert, Finset.mem_image]
  refine or_congr_right ?_
  constructor
  · rintro ⟨r, -, rfl⟩
    exact ⟨_, rfl⟩
  · rintro ⟨r, rfl⟩
    exact ⟨r.toNat, Finset.mem_range.mpr r.toNat_lt, by rw [UInt32.ofNat_toNat]⟩

theorem path_mem_family (log : OpenLog) : log.path ∈ family log.stamp := by
  rw [log.named]
  exact mem_family.mpr (Or.inl rfl)

theorem aside_mem_family (log : OpenLog) : log.aside ∈ family log.stamp :=
  mem_family.mpr (Or.inr ⟨_, rfl⟩)

variable {β : Type*} (isNewline : β → Bool)

/-- The rotations that stand, apart from the file being written, in the order of their
ordinals. -/
def Reads (s : Writing β) (rs : List UInt32) : Prop :=
  rs.Pairwise (fun r r' => r.toNat < r'.toNat) ∧
    ∀ r, r ∈ rs ↔ ∃ file, s.dir.entry (rotationName s.log.stamp r) = some file ∧ file ≠ s.log.file

/-- The bytes of some rotations, one after the other. -/
def Writing.rotated (s : Writing β) (rs : List UInt32) : List β :=
  rs.flatMap fun r => s.dir.text (rotationName s.log.stamp r)

/-- Of a run that found the directory `d`, nothing is lost and what was appended is read
in order. -/
structure Whole (d : Directory Bytes β) (appended : List β) (s : Writing β) : Prop where
  held : held (family s.log.stamp) s.dir = held (family s.log.stamp) d + (appended : Multiset β)
  order : ∃ rs, Reads s rs ∧ appended.Sublist (s.rotated rs ++ s.dir.content s.log.file)

/-- A rotation is let through only onto a name that holds nothing, and the ordinals do not
wrap. -/
def Clear (s : Writing β) (l : Appending β) : Prop :=
  Attempts isNewline s l →
    s.log.rotations.toNat + 1 < 2 ^ 32 ∧
      (l.renames = true → s.dir.entry s.log.path ≠ none → s.dir.text s.log.aside = [])

/-! ## The invariant -/

/-- The ordinals up to the last one this run has spent. -/
def spentOf (log : OpenLog) (rs : List UInt32) : List UInt32 :=
  rs.filter fun r => r.toNat ≤ log.rotations.toNat

/-- What holds of the run's files between two appends. The order is that of the ordinals
this run has spent: later ones hold nothing that was appended. -/
structure Lossless (d : Directory Bytes β) (appended : List β) (s : Writing β) : Prop where
  home : ∃ name ∈ family s.log.stamp, s.dir.entry name = some s.log.file
  path : s.dir.entry s.log.path = none ∨ s.dir.entry s.log.path = some s.log.file
  held : held (family s.log.stamp) s.dir = held (family s.log.stamp) d + (appended : Multiset β)
  order : ∃ rs, Reads s rs ∧
    appended.Sublist (s.rotated (spentOf s.log rs) ++ s.dir.content s.log.file)

section Steps

variable {isNewline} {d d' : Directory Bytes β} {appended buf : List β} {s : Writing β}
  {l : Appending β} {log log' : OpenLog} {dir : Directory Bytes β}

theorem Lossless.whole (h : Lossless d appended s) : Whole d appended s := by
  obtain ⟨rs, hreads, hsub⟩ := h.order
  refine ⟨h.held, rs, hreads, hsub.trans ?_⟩
  apply List.Sublist.append_right
  exact List.filter_sublist.flatMap _

/-- The log before a buffer is counted. -/
def Writing.written (s : Writing β) (buf : List β) : Writing β :=
  ⟨s.log, s.dir.write s.log.file buf⟩

/-- What is appended goes to the end of the file being written. -/
theorem lossless_write (buf : List β) (h : Lossless d appended s) :
    Lossless d (appended ++ buf) (s.written buf) := by
  obtain ⟨name, hname, hentry⟩ := h.home
  refine ⟨⟨name, hname, hentry⟩, h.path, ?_, ?_⟩
  · show Directory.held (family s.log.stamp) (s.dir.write s.log.file buf) =
      Directory.held (family s.log.stamp) d + _
    rw [held_write hname hentry, h.held, add_assoc, Multiset.coe_add]
  · obtain ⟨rs, hreads, hsub⟩ := h.order
    refine ⟨rs, hreads, ?_⟩
    -- the other rotations keep their bytes
    have hrotated : (s.written buf).rotated (spentOf s.log rs) =
        s.rotated (spentOf s.log rs) := by
      refine List.flatMap_congr ?_
      intro r hr
      obtain ⟨file, hfile, hne⟩ := (hreads.2 r).mp (List.mem_filter.mp hr).1
      show (s.dir.write s.log.file buf).text (rotationName s.log.stamp r) = _
      rw [text_write, if_neg]
      rw [hfile]
      exact fun heq => hne (Option.some.inj heq)
    show (appended ++ buf).Sublist ((s.written buf).rotated (spentOf s.log rs) ++
      (s.dir.write s.log.file buf).content s.log.file)
    rw [hrotated, content_write, if_pos rfl, ← List.append_assoc]
    exact hsub.append_right buf

/-- A log whose counters moved on keeps its files. -/
theorem lossless_log (h : Lossless d appended ⟨log, dir⟩) (hfile : log'.file = log.file)
    (hstamp : log'.stamp = log.stamp) (hle : log.rotations.toNat ≤ log'.rotations.toNat) :
    Lossless d appended ⟨log', dir⟩ := by
  have hpath : log'.path = log.path := by rw [log.named, log'.named, hstamp]
  obtain ⟨home, path, held, rs, hreads, hsub⟩ := h
  dsimp only at home path held
  refine ⟨?_, ?_, ?_, rs, ?_, hsub.trans ?_⟩
  · dsimp only
    rwa [hfile, hstamp]
  · dsimp only
    rwa [hfile, hpath]
  · dsimp only
    rwa [hstamp]
  · unfold Reads at hreads ⊢
    dsimp only at hreads ⊢
    rwa [hstamp, hfile]
  · unfold Writing.rotated
    dsimp only
    rw [hstamp, hfile]
    apply List.Sublist.append_right
    apply List.Sublist.flatMap
    apply List.monotone_filter_right
    intro r hr
    simp only [decide_eq_true_eq] at hr ⊢
    exact hr.trans hle

/-- Names that are not those of the file being moved lead where they did. -/
theorem entry_moved (hrename : s.dir.rename s.log.path s.log.aside = some d') {r : UInt32}
    (hne : r ≠ s.log.rotations + 1) :
    d'.entry (rotationName s.log.stamp r) = s.dir.entry (rotationName s.log.stamp r) := by
  obtain ⟨_, -, hentry, -⟩ := rename_spec hrename
  have haside : rotationName s.log.stamp r ≠ s.log.aside :=
    fun heq => hne (rotationName_injective heq)
  have hpath : rotationName s.log.stamp r ≠ s.log.path := by
    rw [s.log.named]
    exact rotationName_ne_runName r
  rw [hentry, if_neg haside, if_neg hpath]

theorem text_moved (hrename : s.dir.rename s.log.path s.log.aside = some d') {r : UInt32}
    (hne : r ≠ s.log.rotations + 1) :
    d'.text (rotationName s.log.stamp r) = s.dir.text (rotationName s.log.stamp r) := by
  obtain ⟨_, -, -, hcontent, -⟩ := rename_spec hrename
  unfold Directory.text
  rw [entry_moved hrename hne, hcontent]

/-- The file that is moved is the one being written. -/
theorem entry_path_of_rename (h : Lossless d appended s)
    (hrename : s.dir.rename s.log.path s.log.aside = some d') :
    s.dir.entry s.log.path = some s.log.file := by
  obtain ⟨file, hold, -⟩ := rename_spec hrename
  rcases h.path with hnone | hsome
  · rw [hold] at hnone
    cases hnone
  · exact hsome

theorem toNat_next {rotations : UInt32} (hwrap : rotations.toNat + 1 < 2 ^ 32) :
    (rotations + 1).toNat = rotations.toNat + 1 := by
  rw [UInt32.toNat_add]
  exact Nat.mod_eq_of_lt hwrap

theorem ne_next_of_spent {rs : List UInt32} (hwrap : s.log.rotations.toNat + 1 < 2 ^ 32)
    {r : UInt32} (hr : r ∈ spentOf s.log rs) : r ≠ s.log.rotations + 1 := by
  rintro rfl
  have hle := (List.mem_filter.mp hr).2
  rw [decide_eq_true_eq, toNat_next hwrap] at hle
  omega

/-- The next ordinal is none of those spent so far. -/
theorem spent_filter {rs : List UInt32} (hwrap : s.log.rotations.toNat + 1 < 2 ^ 32) :
    spentOf s.log.spent (rs.filter (· ≠ s.log.rotations + 1)) = spentOf s.log rs := by
  unfold spentOf
  rw [List.filter_filter]
  apply List.filter_congr
  intro r _
  have hnext : s.log.spent.rotations.toNat = s.log.rotations.toNat + 1 := toNat_next hwrap
  have hiff : r = s.log.rotations + 1 ↔ r.toNat = s.log.rotations.toNat + 1 := by
    rw [← UInt32.toNat_inj, ← hnext]
    rfl
  rw [hnext]
  simp only [ne_eq, hiff, ← Bool.decide_and, decide_eq_decide]
  omega

/-- A rename that is cut off from its create keeps every byte, the file being written under
its new name. -/
theorem lossless_moved (h : Lossless d appended s)
    (hwrap : s.log.rotations.toNat + 1 < 2 ^ 32) (hclear : s.dir.text s.log.aside = [])
    (hrename : s.dir.rename s.log.path s.log.aside = some d') :
    Lossless d appended ⟨s.log.spent, d'⟩ := by
  have hpath := entry_path_of_rename h hrename
  obtain ⟨file, hold, hentry, hcontent, -⟩ := rename_spec hrename
  obtain rfl : s.log.file = file := Option.some.inj (hpath.symm.trans hold)
  have haside : d'.entry s.log.aside = some s.log.file := by rw [hentry, if_pos rfl]
  have hgone : d'.entry s.log.path = none := by
    rw [hentry, if_neg (aside_ne_path s.log).symm, if_pos rfl]
  refine ⟨⟨_, aside_mem_family s.log, haside⟩, Or.inl hgone, ?_, ?_⟩
  · have hheld := held_rename hrename (path_mem_family s.log) (aside_mem_family s.log)
      (aside_ne_path s.log)
    rw [hclear, Multiset.coe_nil, add_zero] at hheld
    exact hheld.trans h.held
  · obtain ⟨rs, ⟨hsorted, hmem⟩, hsub⟩ := h.order
    refine ⟨rs.filter (· ≠ s.log.rotations + 1), ⟨hsorted.filter _, ?_⟩, ?_⟩
    · intro r
      rw [List.mem_filter, hmem]
      by_cases hr : r = s.log.rotations + 1
      · subst hr
        constructor
        · rintro ⟨-, hne⟩
          simp at hne
        · rintro ⟨file, hfile, hne⟩
          exact absurd (Option.some.inj (hfile.symm.trans haside)) hne
      · simp only [ne_eq, hr, not_false_eq_true, decide_true, and_true]
        exact Iff.of_eq (by rw [← entry_moved hrename hr]; rfl)
    · rw [spent_filter hwrap]
      have hrotated : Writing.rotated ⟨s.log.spent, d'⟩ (spentOf s.log rs) =
          s.rotated (spentOf s.log rs) := by
        refine List.flatMap_congr ?_
        intro r hr
        exact text_moved hrename (ne_next_of_spent hwrap hr)
      rw [hrotated]
      show appended.Sublist (_ ++ d'.content s.log.file)
      rw [hcontent]
      exact hsub

/-- The rotations once the full file stands among them: what a rename and its create make
of the list. -/
def withNext (log : OpenLog) (rs : List UInt32) : List UInt32 :=
  rs.filter (fun r => r.toNat < (log.rotations + 1).toNat) ++
    (log.rotations + 1) :: rs.filter fun r => (log.rotations + 1).toNat < r.toNat

theorem pairwise_withNext {rs : List UInt32} (h : rs.Pairwise fun r r' => r.toNat < r'.toNat) :
    (withNext log rs).Pairwise fun r r' => r.toNat < r'.toNat := by
  refine List.pairwise_append.mpr ⟨h.filter _, List.pairwise_cons.mpr ⟨?_, h.filter _⟩, ?_⟩
  · intro r hr
    exact of_decide_eq_true (List.mem_filter.mp hr).2
  · intro r hr r' hr'
    have hlt : r.toNat < (log.rotations + 1).toNat :=
      of_decide_eq_true (List.mem_filter.mp hr).2
    rcases List.mem_cons.mp hr' with rfl | hlater
    · exact hlt
    · exact hlt.trans (of_decide_eq_true (List.mem_filter.mp hlater).2)

theorem mem_withNext {rs : List UInt32} {r : UInt32} :
    r ∈ withNext log rs ↔ r = log.rotations + 1 ∨ r ∈ rs ∧ r ≠ log.rotations + 1 := by
  unfold withNext
  rw [List.mem_append, List.mem_cons, List.mem_filter, List.mem_filter, decide_eq_true_eq,
    decide_eq_true_eq, Ne, ← UInt32.toNat_inj (a := r)]
  by_cases hmem : r ∈ rs
  · simp only [hmem, true_and]
    omega
  · simp only [hmem, false_and, or_false, false_or]

theorem spent_withNext {rs : List UInt32} (hwrap : log.rotations.toNat + 1 < 2 ^ 32) :
    spentOf log.spent (withNext log rs) = spentOf log rs ++ [log.rotations + 1] := by
  have hnext := toNat_next hwrap
  have hspent : log.spent.rotations = log.rotations + 1 := rfl
  unfold spentOf withNext
  rw [hspent, List.filter_append, List.filter_cons, if_pos (by simp), List.filter_filter,
    List.filter_filter]
  congr 1
  · apply List.filter_congr
    intro r _
    rw [hnext, ← Bool.decide_and, decide_eq_decide]
    omega
  · congr 1
    rw [List.filter_eq_nil_iff]
    intro r _
    rw [← Bool.decide_and, decide_eq_true_eq]
    omega

/-- A rotation keeps every byte: the full file stands under its ordinal, and the one being
written is empty. -/
theorem lossless_made (h : Lossless d appended s)
    (hwrap : s.log.rotations.toNat + 1 < 2 ^ 32) (hclear : s.dir.text s.log.aside = [])
    (hrename : s.dir.rename s.log.path s.log.aside = some d') :
    Lossless d appended ⟨{ s.log.spent with file := d'.fresh }, d'.make s.log.path⟩ := by
  have hpath := entry_path_of_rename h hrename
  obtain ⟨file, hold, hentry, hcontent, -⟩ := rename_spec hrename
  obtain rfl : s.log.file = file := Option.some.inj (hpath.symm.trans hold)
  have haside : d'.entry s.log.aside = some s.log.file := by rw [hentry, if_pos rfl]
  have hgone : d'.entry s.log.path = none := by
    rw [hentry, if_neg (aside_ne_path s.log).symm, if_pos rfl]
  have hfresh : (d'.make s.log.path).entry s.log.path = some d'.fresh := by
    rw [entry_make, if_pos rfl]
  have hrotation : ∀ r, rotationName s.log.stamp r ≠ s.log.path := by
    intro r
    rw [s.log.named]
    exact rotationName_ne_runName r
  refine ⟨⟨_, path_mem_family s.log, hfresh⟩, Or.inr hfresh, ?_, ?_⟩
  · have hheld := (lossless_moved h hwrap hclear hrename).held
    exact (held_congr fun name _ => text_make hgone name).trans hheld
  · obtain ⟨rs, ⟨hsorted, hmem⟩, hsub⟩ := h.order
    refine ⟨withNext s.log rs, ⟨pairwise_withNext hsorted, ?_⟩, ?_⟩
    · intro r
      show _ ↔ ∃ f, (d'.make s.log.path).entry (rotationName s.log.stamp r) = some f ∧ f ≠ d'.fresh
      rw [entry_make, if_neg (hrotation r), mem_withNext, hmem]
      by_cases hr : r = s.log.rotations + 1
      · subst hr
        simp only [true_or, true_iff]
        exact ⟨_, haside, fun heq => d'.entry_ne_fresh _ (heq ▸ haside)⟩
      · simp only [hr, false_or, ne_eq, not_false_eq_true, and_true]
        rw [entry_moved hrename hr]
        -- no other name leads to the file being written, or to the new one
        constructor
        · rintro ⟨f, hf, -⟩
          refine ⟨f, hf, ?_⟩
          rintro rfl
          exact d'.entry_ne_fresh _ ((entry_moved hrename hr).trans hf)
        · rintro ⟨f, hf, -⟩
          refine ⟨f, hf, ?_⟩
          rintro rfl
          exact hrotation r (s.dir.entry_inj _ _ _ hf hpath)
    · have hrotated : ∀ r ∈ spentOf s.log rs,
          (d'.make s.log.path).text (rotationName s.log.stamp r) =
            s.dir.text (rotationName s.log.stamp r) := by
        intro r hr
        rw [text_make hgone, text_moved hrename (ne_next_of_spent hwrap hr)]
      have hfull : (d'.make s.log.path).text (rotationName s.log.stamp (s.log.rotations + 1)) =
          s.dir.content s.log.file := by
        rw [text_make hgone, ← hcontent]
        show (d'.entry s.log.aside).elim [] d'.content = _
        rw [haside]
        rfl
      show appended.Sublist (((spentOf s.log.spent (withNext s.log rs)).flatMap fun r =>
        (d'.make s.log.path).text (rotationName s.log.stamp r)) ++
          (d'.make s.log.path).content d'.fresh)
      rw [spent_withNext hwrap, List.flatMap_append, List.flatMap_congr hrotated,
        List.flatMap_singleton, hfull, content_make, if_pos rfl, List.append_nil]
      exact hsub

/-- The bytes under the next name are not touched by a write. -/
theorem text_aside_write (hpath : s.dir.entry s.log.path = some s.log.file) :
    (s.dir.write s.log.file buf).text s.log.aside = s.dir.text s.log.aside := by
  rw [text_write, if_neg]
  intro heq
  exact aside_ne_path s.log (s.dir.entry_inj _ _ _ heq hpath)

/-- One step. -/
theorem lossless_append (h : Lossless d appended s) (hclear : Clear isNewline s l) :
    Lossless d (appended ++ l.buf) (s.append isNewline l) := by
  have hwrite := lossless_write l.buf h
  rcases append_cases s l with ⟨-, -, heq⟩ | ⟨hfull, -, heq⟩ | ⟨hfull, hrenames, d', hrename, hcase⟩
  · rw [heq]
    exact lossless_log hwrite rfl rfl (le_refl _)
  · rw [heq]
    obtain ⟨hwrap, -⟩ := hclear hfull
    refine lossless_log hwrite rfl rfl ?_
    show _ ≤ (s.log.rotations + 1).toNat
    rw [toNat_next hwrap]
    exact Nat.le_succ _
  · obtain ⟨hwrap, hfree⟩ := hclear hfull
    have hpath := entry_path_of_rename (s := s.written l.buf) hwrite hrename
    change s.dir.entry s.log.path = some s.log.file at hpath
    have haside : (s.dir.write s.log.file l.buf).text s.log.aside = [] := by
      rw [text_aside_write hpath]
      refine hfree hrenames ?_
      rw [hpath]
      exact Option.some_ne_none _
    rcases hcase with ⟨-, heq⟩ | ⟨-, -, heq⟩
    · rw [heq]
      exact lossless_moved (s := s.written l.buf) hwrite hwrap haside hrename
    · rw [heq]
      exact lossless_made (s := s.written l.buf) hwrite hwrap haside hrename

/-- A rotation onto a file that holds something loses it. -/
theorem lost_of_overwrite (h : Lossless d appended s) (hfull : Attempts isNewline s l)
    (hrenames : l.renames = true) (hstands : s.dir.entry s.log.path ≠ none)
    (htaken : s.dir.text s.log.aside ≠ []) :
    ¬ Whole d (appended ++ l.buf) (s.append isNewline l) := by
  have hwrite := lossless_write l.buf h
  rcases append_cases s l with ⟨hnot, -⟩ | ⟨-, hfails, -⟩ | ⟨-, -, d', hrename, hcase⟩
  · exact absurd hfull hnot
  · rcases hfails with hfalse | hnone
    · rw [hrenames] at hfalse
      cases hfalse
    · exact absurd hnone hstands
  · have hpath : s.dir.entry s.log.path = some s.log.file :=
      entry_path_of_rename (s := s.written l.buf) hwrite hrename
    have hlost := held_rename hrename (path_mem_family s.log) (aside_mem_family s.log)
      (aside_ne_path s.log)
    rw [text_aside_write hpath] at hlost
    have hgone : d'.entry s.log.path = none := by
      obtain ⟨_, -, hentry, -⟩ := rename_spec hrename
      rw [hentry, if_neg (aside_ne_path s.log).symm, if_pos rfl]
    have hheld : held (family s.log.stamp) (s.append isNewline l).dir =
        held (family s.log.stamp) d' := by
      rcases hcase with ⟨-, heq⟩ | ⟨-, -, heq⟩
      · rw [heq]
      · rw [heq]
        exact held_congr fun name _ => text_make hgone name
    have hstamp : (s.append isNewline l).log.stamp = s.log.stamp := by
      rcases hcase with ⟨-, heq⟩ | ⟨-, -, heq⟩ <;> rw [heq] <;> rfl
    intro hwhole
    have hsame := hwhole.held
    rw [hstamp, hheld] at hsame
    have hzero : (s.dir.text s.log.aside : Multiset β) = 0 := by
      refine add_left_cancel (a := held (family s.log.stamp) d') ?_
      rw [hlost, add_zero, hsame]
      exact hwrite.held
    exact htaken ((Multiset.coe_eq_zero _).mp hzero)

end Steps

/-! ## From the opening on -/

section Runs

variable {isNewline} {answers : OpenAnswers} {now : LocalTime} {d d' : Directory Bytes β}
  {log : OpenLog} {s : Writing β} {ls : List (Appending β)}

/-- The pruning takes nothing of the run that holds something, and not the file just
opened. -/
def Spares (answers : OpenAnswers) (now : LocalTime) (d : Directory Bytes β) : Prop :=
  ∀ name ∈ family (stampAt now), Surplus (listed answers.entries).toFinset name →
    answers.removes name = true → name ≠ runName (stampAt now) ∧ d.text name = []

theorem stamp_of_family {name stamp : Bytes} (hname : name ∈ family (stampAt now))
    (hfile : RunFile name stamp) : stamp = stampAt now := by
  rcases mem_family.mp hname with rfl | ⟨r, rfl⟩
  · exact (stamp_of_runFile hfile).2
  · unfold rotationName at hfile
    rw [List.append_assoc] at hfile
    exact (stamp_of_runFile hfile).2

theorem not_surplus_of_family {names : Finset Bytes} {name : Bytes}
    (h : Newest names (stampAt now)) (hname : name ∈ family (stampAt now)) :
    ¬ Surplus names name := by
  rintro ⟨-, stamp, hfile, hnot⟩
  rw [stamp_of_family hname hfile] at hnot
  exact hnot h

/-- A run that is among the newest is spared. -/
theorem spares_of_newest (h : Newest (listed answers.entries).toFinset (stampAt now)) :
    Spares answers now d := by
  intro name hname hsurplus _
  exact absurd hsurplus (not_surplus_of_family h hname)

/-- What is not pruned holds what it held before the opening. -/
theorem text_opened (hopen : openLog answers now d = .ok (.ok (log, d'))) (name : Bytes) :
    (Surplus (listed answers.entries).toFinset name ∧ answers.removes name = true →
        d'.text name = []) ∧
      (¬ (Surplus (listed answers.entries).toFinset name ∧ answers.removes name = true) →
        d'.text name = d.text name) := by
  obtain ⟨-, -, -, -, hopened, hprune⟩ := openLog_spec hopen
  obtain ⟨hcontent, hentry⟩ := pruned_spec hprune
  obtain ⟨-, htext, -⟩ := openAppend_spec hopened
  constructor
  · intro hpruned
    unfold Directory.text
    rw [(hentry name).1 hpruned]
    rfl
  · intro hnot
    rw [← htext name]
    unfold Directory.text
    rw [(hentry name).2 hnot, hcontent]

theorem exists_reads (s : Writing β) : ∃ rs, Reads s rs := by
  classical
  refine ⟨((List.range (2 ^ 32)).map UInt32.ofNat).filter fun r =>
    ∃ file, s.dir.entry (rotationName s.log.stamp r) = some file ∧ file ≠ s.log.file, ?_, ?_⟩
  · apply List.Pairwise.filter
    rw [List.pairwise_map]
    refine List.pairwise_lt_range.imp_of_mem ?_
    intro n m hn hm hlt
    rw [List.mem_range] at hn hm
    rw [UInt32.toNat_ofNat', UInt32.toNat_ofNat', Nat.mod_eq_of_lt hn, Nat.mod_eq_of_lt hm]
    exact hlt
  · intro r
    rw [List.mem_filter, decide_eq_true_eq]
    refine and_iff_right ?_
    exact List.mem_map.mpr ⟨r.toNat, List.mem_range.mpr r.toNat_lt, UInt32.ofNat_toNat⟩

theorem lossless_opened (hopen : openLog answers now d = .ok (.ok (log, d')))
    (hspares : Spares answers now d) : Lossless d [] ⟨log, d'⟩ := by
  obtain ⟨hpath, hstamp, -⟩ := openLog_spec hopen
  have hstands : (⟨log, d'⟩ : Writing β).Stands := by
    rw [stands_opened_iff hopen]
    rintro ⟨hsurplus, hremoves⟩
    exact (hspares _ (mem_family.mpr (Or.inl rfl)) hsurplus hremoves).1 rfl
  refine ⟨⟨_, path_mem_family log, hstands⟩, Or.inr hstands, ?_, ?_⟩
  · rw [Multiset.coe_nil, add_zero]
    apply held_congr
    intro name hname
    dsimp only at hname
    rw [hstamp] at hname
    obtain ⟨hgone, hkept⟩ := text_opened hopen name
    by_cases hpruned : Surplus (listed answers.entries).toFinset name ∧ answers.removes name = true
    · rw [(hspares name hname hpruned.1 hpruned.2).2]
      exact hgone hpruned
    · exact hkept hpruned
  · obtain ⟨rs, hreads⟩ := exists_reads (⟨log, d'⟩ : Writing β)
    exact ⟨rs, hreads, List.nil_sublist _⟩

/-- From the opening on, in every run whose rotations are clear, every byte of the run's
files and every byte appended stands in exactly one of them, and they are read in order. -/
theorem whole_of_clear (hopen : openLog answers now d = .ok (.ok (log, d')))
    (hspares : Spares answers now d)
    (hrun : (writing isNewline).Run (Clear isNewline) ⟨log, d'⟩ ls s) :
    Whole d (ls.flatMap Appending.buf) s := by
  have hstep : ∀ pre s l s', Lossless d (pre.flatMap Appending.buf) s → Clear isNewline s l →
      (writing isNewline).step s l = some s' →
      Lossless d ((pre ++ [l]).flatMap Appending.buf) s' := by
    intro pre s l s' h hclear hs
    obtain rfl := Option.some.inj hs
    rw [List.flatMap_append, List.flatMap_singleton]
    exact lossless_append h hclear
  exact (Machine.Run.history hstep (lossless_opened hopen hspares) hrun).whole

end Runs

/-! ### An earlier rotation of the same stamp -/

theorem text_aside_quiet {d d' : Directory Bytes UInt8} {log : OpenLog}
    (hopen : openLog (quiet twoFiles) afternoon d = .ok (.ok (log, d'))) :
    d'.text log.aside = d.text (rotationName (stampAt afternoon) 1) := by
  obtain ⟨-, hstamp, -, hrotations, -⟩ := openLog_spec hopen
  have haside : log.aside = rotationName (stampAt afternoon) 1 := by
    unfold OpenLog.aside
    rw [hstamp, hrotations]
    rfl
  rw [haside]
  refine (text_opened hopen _).2 ?_
  rintro ⟨hsurplus, -⟩
  exact not_surplus_of_family newest_twoFiles (mem_family.mpr (Or.inr ⟨1, rfl⟩)) hsurplus

theorem whole_quiet :
    ∃ (log : OpenLog) (d' : Directory Bytes UInt8) (s : Writing UInt8),
      openLog (quiet twoFiles) afternoon Directory.empty = .ok (.ok (log, d')) ∧
      Whole Directory.empty ([⟨fullBuffer, true, true⟩].flatMap Appending.buf) s := by
  obtain ⟨log, d', hopen⟩ := openLog_quiet twoFiles Directory.empty
  have hclear : Clear isLf (⟨log, d'⟩ : Writing UInt8) ⟨fullBuffer, true, true⟩ := by
    intro _
    obtain ⟨-, -, -, hrotations, -⟩ := openLog_spec hopen
    refine ⟨?_, fun _ _ => text_aside_quiet hopen⟩
    show log.rotations.toNat + 1 < 2 ^ 32
    rw [hrotations]
    decide
  exact ⟨log, d', _, hopen,
    whole_of_clear hopen (spares_of_newest newest_twoFiles) (Machine.Run.single hclear rfl)⟩

/-- The directory after a process that rotated its log and stopped within the second. -/
def rotatedBefore : Directory Bytes UInt8 :=
  (Directory.empty.make (rotationName (stampAt afternoon) 1)).write 0 [0x41]

/-- The first rotation of a run loses the first one of an earlier process under the same
stamp. -/
theorem rotation_replaces :
    ∃ (log : OpenLog) (d' : Directory Bytes UInt8),
      openLog (quiet twoFiles) afternoon rotatedBefore = .ok (.ok (log, d')) ∧
      ¬ Whole rotatedBefore fullBuffer
        ((⟨log, d'⟩ : Writing UInt8).append isLf ⟨fullBuffer, true, true⟩) := by
  obtain ⟨log, d', hopen⟩ := openLog_quiet twoFiles rotatedBefore
  have hspares : Spares (quiet twoFiles) afternoon rotatedBefore := spares_of_newest newest_twoFiles
  have hstands := (stands_opened_iff hopen).mpr not_prunesItself_quiet
  refine ⟨log, d', hopen, ?_⟩
  apply lost_of_overwrite (lossless_opened hopen hspares) attempts_full rfl
  · exact fun hnone => Option.some_ne_none _ (hstands.symm.trans hnone)
  · show d'.text log.aside ≠ []
    rw [text_aside_quiet hopen]
    decide

end ChatModule.Logging
