import Mathlib.Algebra.Group.Nat.Defs
import Mathlib.Data.Bool.AllAny
import Mathlib.Data.List.Lex
import ChatModule.Utf8

/-!
# The names of the log files

`<stem>_<stamp>.log` is the file a run is writing, `<stem>_<stamp>.NNN.log` a rotation of
it. A name is a list of bytes, as the directory has it; text is a list of bytes that
`OsStr::to_str` has found to be UTF-8, and is cut at byte offsets that must not fall
inside a character (`isCharBoundary`).

`stampOf` is the recogniser, `runName` and `rotationName` make the names. The recogniser
reads exactly the names of `RunFile` (`stampOf_iff`) and cuts no character in two
(`stampOf_spec`); of the names made, those of the file being written and of the first 999
rotations (`runFile_rotationName_iff`).
-/

/-- Bytes are ordered by their value. -/
instance linearOrderByte : LinearOrder UInt8 where
  le := (· ≤ ·)
  lt := (· < ·)
  le_refl _ := UInt8.le_refl _
  le_trans _ _ _ := UInt8.le_trans
  le_antisymm _ _ := UInt8.le_antisymm
  le_total := UInt8.le_total
  lt_iff_le_not_ge a b := by
    rw [UInt8.lt_iff_toNat_lt, UInt8.le_iff_toNat_le, UInt8.le_iff_toNat_le]
    omega
  toDecidableLE := inferInstance
  toDecidableEq := inferInstance
  toDecidableLT := inferInstance

namespace ChatModule.Logging

/-- A file name or a text, as its bytes. -/
abbrev Bytes := List UInt8

/-! ## The standard library's part -/

/-- A slice that would cut a character in two panics. -/
inductive Panic
  | notCharBoundary
deriving DecidableEq, Repr

/-- `OsStr::to_str`: the text a name is, when it is UTF-8. -/
def toStr (name : Bytes) : Option Bytes :=
  if Utf8.asBytes (Utf8.fromUtf8Lossy name) = name then some name else none

/-- `str::is_char_boundary`: the start, the end, or a byte that does not continue a
character. -/
def isCharBoundary (s : Bytes) (i : ℕ) : Bool :=
  match s[i]? with
  | some b => i == 0 || !Utf8.isCont b
  | none => i == s.length

/-- `s.get(..n)`. -/
def getTo (s : Bytes) (n : ℕ) : Option Bytes := if isCharBoundary s n then some (s.take n) else none

/-- `&s[n..]`. -/
def sliceFrom (s : Bytes) (n : ℕ) : Except Panic Bytes :=
  if isCharBoundary s n then .ok (s.drop n) else .error .notCharBoundary

/-- `s.split_once(sep)`, for an ASCII `sep`. -/
def splitOnce (s : Bytes) (sep : UInt8) : Option (Bytes × Bytes) :=
  match s with
  | [] => none
  | b :: s =>
    if b = sep then some ([], s)
    else (splitOnce s sep).map fun (before, after) => (b :: before, after)

/-- `u8::is_ascii_digit`. -/
def isAsciiDigit (b : UInt8) : Bool := 0x30 ≤ b && b ≤ 0x39

/-! ## Constants -/

/-- `STEM`. -/
def stem : Bytes := Utf8.asBytes "chat_module"

/-- The byte of '_'. -/
def underscore : UInt8 := 0x5F

/-- The byte of '.'. -/
def dot : UInt8 := 0x2E

/-- The extension of every log. -/
def logExt : Bytes := Utf8.asBytes ".log"

/-- `STAMP_LEN`. -/
def stampLen : ℕ := 15

/-! ## Reading names -/

/-- Whether what follows a stamp names the file being written or one of its rotations. -/
def isRunSuffix (suffix : Bytes) : Bool :=
  if suffix = logExt then true
  else
    suffix.length == (Utf8.asBytes ".000.log").length &&
      suffix[0]? == some dot &&
      logExt.isSuffixOf suffix &&
      ((suffix.drop 1).take 3).all isAsciiDigit

/-- The stamp a run file's name carries, or none when the name is not one of this
module's. -/
def stampOf (fileName : Bytes) : Except Panic (Option Bytes) :=
  match (stem.isPrefixOf? fileName).bind ([underscore].isPrefixOf? ·) with
  | none => .ok none
  | some rest =>
    match getTo rest stampLen with
    | none => .ok none
    | some stamp =>
      match splitOnce stamp underscore with
      | none => .ok none
      | some (date, time) =>
        if date.length != 8 || time.length != 6 || !date.all isAsciiDigit ||
            !time.all isAsciiDigit then
          .ok none
        else do
          let suffix ← sliceFrom rest stampLen
          pure (if isRunSuffix suffix then some stamp else none)

/-! ## Making names -/

/-- A number in decimal digits, with zeros in front up to a width. -/
def padded (width n : ℕ) : Bytes :=
  let digits := Nat.toDigits 10 n
  (List.replicate (width - digits.length) '0' ++ digits).map Char.toUInt8

/-- What `Local::now` reads off the clock. The second of a leap second is 60. -/
structure LocalTime where
  year : ℤ
  month : ℕ
  day : ℕ
  hour : ℕ
  minute : ℕ
  second : ℕ
  date_le : month ≤ 12 ∧ day ≤ 31
  time_le : hour ≤ 23 ∧ minute ≤ 59 ∧ second ≤ 60

/-- `%Y`: four digits, and a sign in front of a year that has no four. -/
def yearText (year : ℤ) : Bytes :=
  if 0 ≤ year ∧ year ≤ 9999 then padded 4 year.toNat
  else (if year < 0 then 0x2D else 0x2B) :: padded 4 year.natAbs

/-- A time under `STAMP_FORMAT`. -/
def stampAt (now : LocalTime) : Bytes :=
  (yearText now.year ++ padded 2 now.month ++ padded 2 now.day) ++
    underscore :: (padded 2 now.hour ++ padded 2 now.minute ++ padded 2 now.second)

/-- The name of the file a run is writing. -/
def runName (stamp : Bytes) : Bytes := stem ++ underscore :: stamp ++ logExt

/-- The name of a rotation of it. -/
def rotationName (stamp : Bytes) (rotations : UInt32) : Bytes :=
  stem ++ underscore :: stamp ++ dot :: padded 3 rotations.toNat ++ logExt

/-! ## What a name says -/

/-- Eight digits, an underscore and six digits. -/
def IsStamp (stamp : Bytes) : Prop :=
  ∃ date time, date.length = 8 ∧ time.length = 6 ∧ (∀ b ∈ date, isAsciiDigit b) ∧
    (∀ b ∈ time, isAsciiDigit b) ∧ stamp = date ++ underscore :: time

/-- `.log`, or a dot, three digits and `.log`. -/
def IsSuffix (suffix : Bytes) : Prop :=
  suffix = logExt ∨
    ∃ digits, digits.length = 3 ∧ (∀ b ∈ digits, isAsciiDigit b) ∧
      suffix = dot :: digits ++ logExt

/-- The name of a file of the run `stamp`. -/
def RunFile (name stamp : Bytes) : Prop :=
  IsStamp stamp ∧ ∃ suffix, IsSuffix suffix ∧ name = stem ++ underscore :: stamp ++ suffix

section Reading

variable {name stamp suffix rest s : Bytes} {b : UInt8}

theorem isAsciiDigit_lt (h : isAsciiDigit b) : b < 0x80 := by
  simp only [isAsciiDigit, Bool.and_eq_true, decide_eq_true_eq] at h
  exact lt_of_le_of_lt h.2 (by decide)

theorem isAsciiDigit_ne (h : isAsciiDigit b) : b ≠ underscore := by
  rintro rfl
  revert h
  decide

/-- The suffixes recognised. -/
theorem isRunSuffix_iff : isRunSuffix suffix = true ↔ IsSuffix suffix := by
  unfold isRunSuffix IsSuffix
  by_cases hlog : suffix = logExt
  · simp [hlog]
  · rw [if_neg hlog]
    simp only [Bool.and_eq_true, beq_iff_eq, List.isSuffixOf_iff_suffix, List.all_eq_true, hlog,
      false_or]
    constructor
    · rintro ⟨⟨⟨hlength, hdot⟩, front, rfl⟩, hdigits⟩
      have hfront : front.length = 4 := by
        have hext : logExt.length = 4 := by decide
        have hall : (Utf8.asBytes ".000.log").length = 8 := by decide
        rw [List.length_append, hext, hall] at hlength
        omega
      cases front with
      | nil => simp at hfront
      | cons c digits =>
        have hthree : digits.length = 3 := by simpa using hfront
        obtain rfl : c = dot := by simpa using hdot
        refine ⟨digits, hthree, ?_, rfl⟩
        intro b hb
        refine hdigits b ?_
        rw [List.cons_append, List.drop_succ_cons, List.drop_zero, ← hthree, List.take_left]
        exact hb
    · rintro ⟨digits, hthree, hdigits, rfl⟩
      refine ⟨⟨⟨?_, rfl⟩, ⟨dot :: digits, rfl⟩⟩, ?_⟩
      · have hext : logExt.length = 4 := by decide
        have hall : (Utf8.asBytes ".000.log").length = 8 := by decide
        rw [List.length_append, List.length_cons, hext, hall, hthree]
      · rw [List.cons_append, List.drop_succ_cons, List.drop_zero, ← hthree, List.take_left]
        exact hdigits

/-- The stem and the underscore come off in front. -/
theorem stripped_iff :
    (stem.isPrefixOf? name).bind ([underscore].isPrefixOf? ·) = some rest ↔
      name = stem ++ underscore :: rest := by
  simp only [Option.bind_eq_some_iff, List.isPrefixOf?_eq_some_iff_append_eq]
  constructor
  · rintro ⟨after, rfl, rfl⟩
    rfl
  · rintro rfl
    exact ⟨underscore :: rest, rfl, rfl⟩

theorem getTo_iff {n : ℕ} :
    getTo s n = some stamp ↔ isCharBoundary s n = true ∧ stamp = s.take n := by
  unfold getTo
  split
  · next h => simp [h, eq_comm]
  · next h => simp [h]

/-- The split is at the first separator. -/
theorem splitOnce_iff {sep : UInt8} {before after : Bytes} :
    splitOnce s sep = some (before, after) ↔ sep ∉ before ∧ s = before ++ sep :: after := by
  induction s generalizing before with
  | nil => simp [splitOnce]
  | cons b s ih =>
    by_cases hb : b = sep
    · subst hb
      rw [splitOnce, if_pos rfl]
      constructor
      · intro heq
        cases heq
        exact ⟨List.not_mem_nil, rfl⟩
      · rintro ⟨hnot, heq⟩
        cases before with
        | nil => simp_all
        | cons c before =>
          obtain ⟨rfl, -⟩ := List.cons.inj heq
          simp at hnot
    · rw [splitOnce, if_neg hb, Option.map_eq_some_iff]
      constructor
      · rintro ⟨⟨front, back⟩, hsplit, heq⟩
        cases heq
        obtain ⟨hnot, rfl⟩ := ih.mp hsplit
        exact ⟨by simp [hnot, Ne.symm hb], rfl⟩
      · rintro ⟨hnot, heq⟩
        cases before with
        | nil =>
          obtain ⟨rfl, -⟩ := List.cons.inj heq
          exact absurd rfl hb
        | cons c before =>
          obtain ⟨rfl, rfl⟩ := List.cons.inj heq
          exact ⟨(before, after), ih.mpr ⟨fun hmem => hnot (List.mem_cons_of_mem _ hmem), rfl⟩, rfl⟩

theorem IsStamp.length (h : IsStamp stamp) : stamp.length = stampLen := by
  obtain ⟨date, time, hdate, htime, -, -, rfl⟩ := h
  simp [hdate, htime, stampLen]

theorem IsSuffix.head (h : IsSuffix suffix) : suffix[0]? = some dot := by
  rcases h with rfl | ⟨digits, -, -, rfl⟩
  · decide
  · rfl

/-- A stamp ends where a character does. -/
theorem boundary_of_stamp (hstamp : IsStamp stamp) (hsuffix : IsSuffix suffix) :
    isCharBoundary (stamp ++ suffix) stampLen = true := by
  unfold isCharBoundary
  rw [← hstamp.length, List.getElem?_append_right (le_refl _), Nat.sub_self, hsuffix.head]
  simp only [show Utf8.isCont dot = false from by decide, Bool.not_false, Bool.or_true]

/-- A run file's name is recognised. -/
theorem stampOf_of_runFile (h : RunFile name stamp) : stampOf name = .ok (some stamp) := by
  obtain ⟨hstamp, suffix, hsuffix, rfl⟩ := h
  have hboundary := boundary_of_stamp hstamp hsuffix
  have hstrip : (stem.isPrefixOf? (stem ++ underscore :: stamp ++ suffix)).bind
      ([underscore].isPrefixOf? ·) = some (stamp ++ suffix) := stripped_iff.mpr (by simp)
  have hget : getTo (stamp ++ suffix) stampLen = some stamp := by
    rw [getTo_iff, ← hstamp.length, List.take_left]
    exact ⟨by rw [hstamp.length]; exact hboundary, rfl⟩
  have hslice : sliceFrom (stamp ++ suffix) stampLen = .ok suffix := by
    unfold sliceFrom
    rw [if_pos hboundary, ← hstamp.length, List.drop_left]
  unfold stampOf
  obtain ⟨date, time, hdate, htime, hdates, htimes, heq⟩ := hstamp
  have hsplit : splitOnce stamp underscore = some (date, time) := by
    rw [splitOnce_iff]
    exact ⟨fun hmem => isAsciiDigit_ne (hdates _ hmem) rfl, heq⟩
  have hdates' : date.all isAsciiDigit = true := List.all_eq_true.mpr hdates
  have htimes' : time.all isAsciiDigit = true := List.all_eq_true.mpr htimes
  simp only [hstrip, hget, hsplit, hdate, htime, hdates', htimes', hslice]
  simp [bind, Except.bind, pure, Except.pure, isRunSuffix_iff.mpr hsuffix]

/-- No slice falls inside a character, and what is recognised is a run file's name. -/
theorem stampOf_spec (name : Bytes) :
    ∃ found, stampOf name = .ok found ∧ ∀ stamp ∈ found, RunFile name stamp := by
  unfold stampOf
  cases hstrip : (stem.isPrefixOf? name).bind ([underscore].isPrefixOf? ·) with
  | none => exact ⟨none, rfl, by simp⟩
  | some rest =>
    dsimp only
    cases hget : getTo rest stampLen with
    | none => exact ⟨none, rfl, by simp⟩
    | some stamp =>
      dsimp only
      cases hsplit : splitOnce stamp underscore with
      | none => exact ⟨none, rfl, by simp⟩
      | some parts =>
        obtain ⟨date, time⟩ := parts
        dsimp only
        split
        · exact ⟨none, rfl, by simp⟩
        · next hshape =>
          obtain ⟨hboundary, htake⟩ := getTo_iff.mp hget
          -- the slice is cut where `get` has looked already
          have hslice : sliceFrom rest stampLen = .ok (rest.drop stampLen) := by
            unfold sliceFrom
            rw [if_pos hboundary]
          simp only [hslice, bind, Except.bind, pure, Except.pure]
          refine ⟨_, rfl, ?_⟩
          split
          · next hsuffix =>
            rintro _ ⟨⟩
            simp only [Bool.or_eq_true, bne_iff_ne, ne_eq, Bool.not_eq_true', not_or, not_not,
              Bool.not_eq_false, List.all_eq_true] at hshape
            obtain ⟨⟨⟨hdate, htime⟩, hdates⟩, htimes⟩ := hshape
            refine ⟨⟨date, time, hdate, htime, hdates, htimes, (splitOnce_iff.mp hsplit).2⟩,
              rest.drop stampLen, isRunSuffix_iff.mp hsuffix, ?_⟩
            rw [stripped_iff.mp hstrip, htake]
            simp
          · simp

/-- The recogniser reads the names of run files and no others. -/
theorem stampOf_iff : stampOf name = .ok (some stamp) ↔ RunFile name stamp := by
  constructor
  · intro h
    obtain ⟨found, hfound, hspec⟩ := stampOf_spec name
    rw [h] at hfound
    cases hfound
    exact hspec stamp rfl
  · exact stampOf_of_runFile

/-- A name carries one stamp. -/
theorem RunFile.unique {stamp' : Bytes} (h : RunFile name stamp) (h' : RunFile name stamp') :
    stamp = stamp' := by
  have heq := (stampOf_of_runFile h).symm.trans (stampOf_of_runFile h')
  simpa using heq

/-! ### Run files are text -/

/-- ASCII is UTF-8. -/
theorem toStr_of_ascii (h : ∀ b ∈ name, b < 0x80) : toStr name = some name := by
  have hchar : ∀ n < 128, String.utf8EncodeChar (Char.ofNat n) = [UInt8.ofNat n] := by decide
  have htext : Utf8.asBytes (String.ofList (name.map fun b => Char.ofNat b.toNat)) = name := by
    rw [Utf8.asBytes_eq, String.toList_ofList]
    induction name with
    | nil => rfl
    | cons b name ih =>
      have hb : String.utf8EncodeChar (Char.ofNat b.toNat) = [b] := by
        have heq := hchar b.toNat (h b List.mem_cons_self)
        rwa [UInt8.ofNat_toNat] at heq
      have hrest := ih fun c hc => h c (List.mem_cons_of_mem _ hc)
      rw [List.map_cons, List.flatMap_cons, hb, hrest]
      rfl
  unfold toStr
  rw [if_pos]
  rw [← htext, Utf8.fromUtf8Lossy_asBytes]

theorem IsStamp.ascii (h : IsStamp stamp) : ∀ b ∈ stamp, b < 0x80 := by
  obtain ⟨date, time, -, -, hdates, htimes, rfl⟩ := h
  intro b hb
  rcases List.mem_append.mp hb with hdate | hrest
  · exact isAsciiDigit_lt (hdates b hdate)
  · rcases List.mem_cons.mp hrest with rfl | htime
    · decide
    · exact isAsciiDigit_lt (htimes b htime)

theorem IsSuffix.ascii (h : IsSuffix suffix) : ∀ b ∈ suffix, b < 0x80 := by
  have hext : ∀ b ∈ logExt, b < 0x80 := List.all_iff_forall_prop.mp (by decide)
  rcases h with rfl | ⟨digits, -, hdigits, rfl⟩
  · exact hext
  · intro b hb
    rcases List.mem_append.mp hb with hfront | hback
    · rcases List.mem_cons.mp hfront with rfl | hdigit
      · decide
      · exact isAsciiDigit_lt (hdigits b hdigit)
    · exact hext b hback

theorem toStr_of_runFile (h : RunFile name stamp) : toStr name = some name := by
  have hstem : ∀ b ∈ stem, b < 0x80 := List.all_iff_forall_prop.mp (by decide)
  obtain ⟨hstamp, suffix, hsuffix, rfl⟩ := h
  apply toStr_of_ascii
  intro b hb
  rcases List.mem_append.mp hb with hfront | hback
  · rcases List.mem_append.mp hfront with hleft | hright
    · exact hstem b hleft
    · rcases List.mem_cons.mp hright with rfl | hmem
      · decide
      · exact hstamp.ascii b hmem
  · exact hsuffix.ascii b hback

theorem toStr_eq {text : Bytes} (h : toStr name = some text) : text = name := by
  unfold toStr at h
  split at h
  · exact (Option.some.inj h).symm
  · cases h

end Reading

/-! ## The names made -/

section Making

variable {stamp : Bytes}

/-- The number some digits spell. -/
def spelled (digits : Bytes) : ℕ := digits.foldl (fun n b => 10 * n + (b.toNat - 48)) 0

theorem isDigit_padding {n k : ℕ} : ∀ c ∈ List.replicate k '0' ++ Nat.toDigits 10 n, c.isDigit := by
  intro c hc
  rcases List.mem_append.mp hc with hzero | hdigit
  · rw [List.eq_of_mem_replicate hzero]
    decide
  · exact Nat.isDigit_of_mem_toDigits (by decide) (by decide) hdigit

theorem toNat_toUInt8_of_isDigit {c : Char} (h : c.isDigit) : c.toUInt8.toNat = c.toNat := by
  have hlt : c.toNat ≤ 57 := by
    simp only [Char.isDigit, Bool.and_eq_true, decide_eq_true_eq] at h
    exact h.2
  rw [Char.toUInt8, UInt32.toNat_toUInt8]
  exact Nat.mod_eq_of_lt (by change c.toNat < 256; omega)

theorem padded_digits (width n : ℕ) : ∀ b ∈ padded width n, isAsciiDigit b := by
  intro b hb
  obtain ⟨c, hc, rfl⟩ := List.mem_map.mp hb
  have hdigit := isDigit_padding c hc
  have hval := toNat_toUInt8_of_isDigit hdigit
  simp only [Char.isDigit, Bool.and_eq_true, decide_eq_true_eq] at hdigit
  simp only [isAsciiDigit, Bool.and_eq_true, decide_eq_true_eq, UInt8.le_iff_toNat_le, hval]
  exact hdigit

theorem length_padded (width n : ℕ) :
    (padded width n).length = max width (Nat.toDigits 10 n).length := by
  simp only [padded, List.length_map, List.length_append, List.length_replicate]
  omega

/-- Digits are enough for what they can count. -/
theorem length_padded_iff {width n : ℕ} (hwidth : 0 < width) :
    (padded width n).length = width ↔ n < 10 ^ width := by
  rw [length_padded, ← Nat.length_toDigits_le_iff (by decide) hwidth]
  omega

theorem spelled_map {cs : List Char} (h : ∀ c ∈ cs, c.isDigit) :
    spelled (cs.map Char.toUInt8) = Nat.ofDigitChars 10 cs 0 := by
  have key : ∀ (cs : List Char) (n : ℕ), (∀ c ∈ cs, c.isDigit) →
      (cs.map Char.toUInt8).foldl (fun n b => 10 * n + (b.toNat - 48)) n =
        Nat.ofDigitChars 10 cs n := by
    intro cs
    induction cs with
    | nil => simp
    | cons c cs ih =>
      intro n h
      rw [List.map_cons, List.foldl_cons, Nat.ofDigitChars_cons,
        toNat_toUInt8_of_isDigit (h c List.mem_cons_self)]
      exact ih _ fun d hd => h d (List.mem_cons_of_mem _ hd)
  exact key cs 0 h

/-- Zeros in front do not change the number spelled. -/
theorem spelled_padded (width n : ℕ) : spelled (padded width n) = n := by
  unfold padded
  rw [spelled_map isDigit_padding, Nat.ofDigitChars_append, Nat.ofDigitChars_replicate_zero,
    Nat.mul_zero, Nat.ofDigitChars_ten_toDigits]

theorem rotationName_injective {r r' : UInt32} (h : rotationName stamp r = rotationName stamp r') :
    r = r' := by
  have hpadded : padded 3 r.toNat = padded 3 r'.toNat := by
    have hcut := List.append_cancel_left (List.append_cancel_right h)
    exact (List.cons.inj hcut).2
  have hspelled := congrArg spelled hpadded
  rw [spelled_padded, spelled_padded] at hspelled
  exact UInt32.toNat_inj.mp hspelled

/-- No rotation takes the name of the file being written. -/
theorem rotationName_ne_runName (r : UInt32) : rotationName stamp r ≠ runName stamp := by
  intro h
  have hlength := congrArg List.length h
  simp only [rotationName, runName, List.length_append, List.length_cons, length_padded] at hlength
  omega

theorem runFile_runName (h : IsStamp stamp) : RunFile (runName stamp) stamp :=
  ⟨h, logExt, Or.inl rfl, rfl⟩

/-- A year of four digits makes a stamp. -/
theorem isStamp_stampAt {now : LocalTime} (h : 0 ≤ now.year ∧ now.year ≤ 9999) :
    IsStamp (stampAt now) := by
  obtain ⟨⟨hmonth, hday⟩, hhour, hminute, hsecond⟩ := And.intro now.date_le now.time_le
  have htwo : ∀ n ≤ 99, (padded 2 n).length = 2 := by
    intro n hn
    exact (length_padded_iff (by decide)).mpr (by omega)
  have hfour : (padded 4 now.year.toNat).length = 4 :=
    (length_padded_iff (by decide)).mpr (by omega)
  refine ⟨_, _, ?_, ?_, ?_, ?_, rfl⟩
  · rw [yearText, if_pos h, List.length_append, List.length_append, hfour, htwo _ (by omega),
      htwo _ (by omega)]
  · rw [List.length_append, List.length_append, htwo _ (by omega), htwo _ (by omega),
      htwo _ (by omega)]
  · intro b hb
    rw [yearText, if_pos h, List.mem_append, List.mem_append] at hb
    rcases hb with (hb | hb) | hb <;> exact padded_digits _ _ b hb
  · intro b hb
    rw [List.mem_append, List.mem_append] at hb
    rcases hb with (hb | hb) | hb <;> exact padded_digits _ _ b hb

/-- A year with a sign makes none: the first byte would be a sign and a digit. -/
theorem year_of_runFile {now : LocalTime} {suffix : Bytes}
    (h : RunFile (stem ++ underscore :: stampAt now ++ suffix) stamp) :
    0 ≤ now.year ∧ now.year ≤ 9999 := by
  by_contra hsign
  obtain ⟨⟨date, time, hdate, -, hdates, -, rfl⟩, suffix', -, heq⟩ := h
  rw [List.append_assoc, List.append_assoc] at heq
  have hcut := (List.cons.inj (List.append_cancel_left heq)).2
  cases date with
  | nil => simp at hdate
  | cons b date =>
    have hdigit := hdates b List.mem_cons_self
    rw [stampAt, yearText, if_neg hsign] at hcut
    have hfirst := (List.cons.inj hcut).1
    rw [← hfirst] at hdigit
    split at hdigit <;> exact absurd hdigit (by decide)

/-- A file named after a time is a file of that run, if of any. -/
theorem stamp_of_runFile {now : LocalTime} {suffix : Bytes}
    (h : RunFile (stem ++ underscore :: stampAt now ++ suffix) stamp) :
    IsStamp (stampAt now) ∧ stamp = stampAt now := by
  have hnow := isStamp_stampAt (year_of_runFile h)
  obtain ⟨hstamp, suffix', -, heq⟩ := h
  rw [List.append_assoc, List.append_assoc] at heq
  have hcut := (List.cons.inj (List.append_cancel_left heq)).2
  have hlength : (stampAt now).length = stamp.length := by rw [hnow.length, hstamp.length]
  exact ⟨hnow, (List.append_inj_left hcut hlength).symm⟩

theorem year_of_isStamp {now : LocalTime} (h : IsStamp (stampAt now)) :
    0 ≤ now.year ∧ now.year ≤ 9999 :=
  year_of_runFile (runFile_runName h)

/-- The recogniser wants three digits, and the padding stops at three. -/
theorem runFile_rotationName_iff (h : IsStamp stamp) {r : UInt32} :
    RunFile (rotationName stamp r) stamp ↔ r.toNat ≤ 999 := by
  have hlength : (padded 3 r.toNat).length = 3 ↔ r.toNat ≤ 999 := by
    rw [length_padded_iff (by decide)]
    omega
  rw [← hlength]
  constructor
  · rintro ⟨-, suffix, hsuffix, heq⟩
    have hcut : dot :: padded 3 r.toNat ++ logExt = suffix := by
      unfold rotationName at heq
      rw [List.append_assoc (stem ++ underscore :: stamp)] at heq
      exact List.append_cancel_left heq
    rcases hsuffix with rfl | ⟨digits, hthree, -, rfl⟩
    · exfalso
      have hlength := congrArg List.length hcut
      rw [List.length_append, List.length_cons] at hlength
      omega
    · have hdigits := List.append_cancel_right hcut
      rw [List.cons.injEq] at hdigits
      rw [hdigits.2, hthree]
  · intro hthree
    refine ⟨h, dot :: padded 3 r.toNat ++ logExt, Or.inr ⟨_, hthree, padded_digits _ _, rfl⟩, ?_⟩
    simp [rotationName]

end Making

end ChatModule.Logging
