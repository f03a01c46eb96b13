import Mathlib.Data.List.SplitBy
import Mathlib.Data.List.TakeWhile
import ChatModule.Lib.Words
import ChatModule.Docs.Rendering

/-!
# The layout of the reference

The renderer makes lines of what it writes: tabs and line breaks become spaces, the spaces at
the ends of a line go, and a line break and an indent come in. A line is cut at a space
(`Cut`), so that nothing of this touches a word: the words of a file are those of its
directives and of what documents them, in order (`words_render`).
-/

namespace ChatModule.Docs

open Words (words_append words_blanks words_blanks_append words_append_blanks words_between)

/-- `str.split()`. -/
abbrev words (text : Text) : List Text := Words.words isSpace text

/-! ## Whitespace -/

section Spaces

variable {text : Text} {c : Char}

theorem isSpace_space : isSpace ' ' := by decide

theorem respaced_expandtabs (column : ℕ) (text : Text) :
    Words.Respaced isSpace text (expandtabsFrom column text) := by
  induction text generalizing column with
  | nil => exact .nil
  | cons c text ih =>
    rw [expandtabsFrom]
    split
    · next htab =>
      -- up to the next tab stop there is a column at least
      have hlt := Nat.mod_lt column (show 0 < 8 by decide)
      subst htab
      refine .blanks (by decide) ?_ ?_ (ih _)
      · intro hnil
        have hlength := congrArg List.length hnil
        rw [List.length_replicate, List.length_nil] at hlength
        omega
      · intro b hb
        rw [List.eq_of_mem_replicate hb]
        exact isSpace_space
    · exact .keep c (ih _)

theorem respaced_spaces (text : Text) : Words.Respaced isSpace text
    (text.map fun c => if c ∈ ['\t', '\n', '\x0b', '\x0c', '\r'] then ' ' else c) := by
  induction text with
  | nil => exact .nil
  | cons c text ih =>
    rw [List.map_cons]
    split
    · next hspace =>
      have hc : isSpace c := by
        simp only [List.mem_cons, List.not_mem_nil, or_false] at hspace
        rcases hspace with rfl | rfl | rfl | rfl | rfl
        all_goals decide
      exact Words.Respaced.blanks hc (List.cons_ne_nil ' ' []) (by simp [isSpace_space]) ih
    · exact .keep c ih

theorem words_mungeWhitespace (text : Text) : words (mungeWhitespace text) = words text := by
  rw [mungeWhitespace, words, ← (respaced_spaces _).words, ← (respaced_expandtabs 0 text).words]

/-- Nothing is left of a text of blanks only. -/
theorem isSpace_of_strip (h : strip text = []) : ∀ c ∈ text, isSpace c := by
  rw [strip, List.reverse_eq_nil_iff, List.dropWhile_eq_nil_iff] at h
  have hdropped : text.dropWhile isSpace = [] := by
    by_contra hne
    -- what is left would begin with a blank
    have hhead := List.head_dropWhile_not isSpace hne
    rw [h _ (List.mem_reverse.mpr (List.head_mem hne))] at hhead
    cases hhead
  exact List.dropWhile_eq_nil_iff.mp hdropped

end Spaces

/-! ## Wrapping -/

/-- Chunks that are cut where a blank is, and of which none is empty. -/
structure Cut (chunks : List Text) : Prop where
  meet : chunks.IsChain (Words.Meet isSpace)
  nonempty : [] ∉ chunks

section Wrapping

variable {width : ℕ} {initial subsequent : Text} {begun : Bool} {chunks before after : List Text}

theorem cut_splitChunks (text : Text) : Cut (splitChunks text) := by
  refine ⟨?_, List.nil_notMem_splitBy _ text⟩
  refine (List.isChain_getLast_head_splitBy _ text).imp ?_
  rintro a b ⟨ha, hb, hr⟩
  -- of the characters on either side one is a space and the other is not
  by_cases hlast : a.getLast ha = ' '
  · left
    intro c hc
    rw [List.getLast?_eq_getLast_of_ne_nil ha] at hc
    obtain rfl := Option.some.inj hc
    rw [hlast]
    exact isSpace_space
  · right
    intro c hc
    rw [List.head?_eq_some_head hb] at hc
    obtain rfl := Option.some.inj hc
    have hhead : b.head hb = ' ' := by
      by_contra hne
      simp [hlast, hne] at hr
    rw [hhead]
    exact isSpace_space

theorem Cut.append (h : Cut (before ++ after)) : Cut before ∧ Cut after := by
  obtain ⟨hmeet, hnonempty⟩ := h
  rw [List.isChain_append] at hmeet
  rw [List.mem_append, not_or] at hnonempty
  exact ⟨⟨hmeet.1, hnonempty.1⟩, ⟨hmeet.2.1, hnonempty.2⟩⟩

/-- No word goes over a cut. -/
theorem Cut.words_append (h : Cut (before ++ after)) :
    words (before.flatten ++ after.flatten) = words before.flatten ++ words after.flatten := by
  obtain ⟨hmeet, hnonempty⟩ := h
  apply Words.words_append
  rcases List.eq_nil_or_concat before with rfl | ⟨before, a, rfl⟩
  · exact Or.inl (by simp)
  · cases after with
    | nil => exact Or.inr (by simp)
    | cons b after =>
      have hne : a ≠ [] ∧ b ≠ [] := by
        constructor
        · rintro rfl
          exact hnonempty (by simp)
        · rintro rfl
          exact hnonempty (by simp)
      rw [List.isChain_append] at hmeet
      have hab : Words.Meet isSpace a b := hmeet.2.2 a (by simp) b (by simp)
      rcases hab with hlast | hhead
      · left
        intro c hc
        rw [List.concat_eq_append, List.flatten_append, List.flatten_singleton,
          List.getLast?_append_of_ne_nil _ hne.1] at hc
        exact hlast c hc
      · right
        intro c hc
        rw [List.flatten_cons, List.head?_append_of_ne_nil _ hne.2] at hc
        exact hhead c hc

theorem cut_dropFirstBlank (h : Cut chunks) : Cut (dropFirstBlank begun chunks) := by
  rw [dropFirstBlank]
  split
  · exact ⟨h.meet.tail, fun hmem => h.nonempty (List.mem_of_mem_tail hmem)⟩
  · exact h

theorem words_dropFirstBlank (begun : Bool) (chunks : List Text) :
    words (dropFirstBlank begun chunks).flatten = words chunks.flatten := by
  rw [dropFirstBlank]
  split
  · next hblank =>
    cases chunks with
    | nil => rfl
    | cons chunk chunks =>
      have hstrip : strip chunk = [] := by simpa using (Bool.and_eq_true_iff.mp hblank).2
      rw [List.tail_cons, List.flatten_cons]
      exact (words_blanks_append (isSpace_of_strip hstrip) _).symm
  · rfl

theorem words_dropLastBlank (line : List Text) :
    words (dropLastBlank line).flatten = words line.flatten := by
  rw [dropLastBlank]
  split
  · next hblank =>
    rcases List.eq_nil_or_concat line with rfl | ⟨line, chunk, rfl⟩
    · rfl
    · have hstrip : strip chunk = [] := by simpa using hblank
      rw [List.concat_eq_append, List.dropLast_concat, List.flatten_append,
        List.flatten_singleton]
      exact (words_append_blanks (isSpace_of_strip hstrip) _).symm
  · rfl

/-- The lines have the words of the chunks. -/
theorem words_wrapFrom (hi : ∀ c ∈ initial, isSpace c) (hs : ∀ c ∈ subsequent, isSpace c)
    (hcut : Cut chunks) : (wrapFrom width initial subsequent begun chunks).flatMap words =
      words chunks.flatten := by
  induction hn : chunks.length using Nat.strong_induction_on generalizing begun chunks with
  | _ n ih =>
    subst hn
    rw [wrapFrom]
    split
    · next hnil =>
      rw [hnil]
      exact Words.words_nil.symm
    · next hne =>
      have hindent : ∀ c ∈ if begun then subsequent else initial, isSpace c := by
        split
        · exact hs
        · exact hi
      dsimp only
      generalize (if begun then subsequent else initial) = indent at hindent ⊢
      have hlt := takeLine_lt (width - indent.length) begun hne
      have happend := takeLine_append (width - indent.length) (dropFirstBlank begun chunks)
      generalize htaken : takeLine (width - indent.length) (dropFirstBlank begun chunks) = taken
        at happend hlt ⊢
      have hcuts : Cut (taken.1 ++ taken.2) := by
        rw [happend]
        exact cut_dropFirstBlank hcut
      have hsplit : words chunks.flatten = words taken.1.flatten ++ words taken.2.flatten := by
        rw [← words_dropFirstBlank begun chunks, ← happend, List.flatten_append]
        exact hcuts.words_append
      split
      · next hline =>
        -- a line of one blank chunk is left out
        have hblank : words taken.1.flatten = [] := by
          rw [← words_dropLastBlank, hline]
          exact Words.words_nil
        rw [ih _ hlt hcuts.append.2 rfl, hsplit, hblank, List.nil_append]
      · rw [List.flatMap_cons, ih _ hlt hcuts.append.2 rfl, hsplit]
        congr 1
        exact (words_blanks_append hindent _).trans (words_dropLastBlank _)

/-- Wrapping keeps the words, in order and each whole. -/
theorem words_wrap (text : Text) (hi : ∀ c ∈ initial, isSpace c)
    (hs : ∀ c ∈ subsequent, isSpace c) : words (wrap text initial subsequent) = words text := by
  have hbreak : ∀ c ∈ ['\n'], isSpace c := List.all_eq_true.mp (by decide)
  rw [wrap, join, words, Words.words_intercalate (List.cons_ne_nil _ _) hbreak]
  show (wrapFrom 79 initial subsequent false _).flatMap words = _
  rw [words_wrapFrom hi hs (cut_splitChunks _), splitChunks, List.flatten_splitBy,
    words_mungeWhitespace]

end Wrapping

/-! ## The words of a file -/

section Files

variable {A : Alphabet} {comments : List (ℕ × Comment)}

/-- The words of some paragraphs. -/
def proseWords (A : Alphabet) (paragraphs : List Text) : List Text :=
  paragraphs.flatMap fun paragraph => words (rstText A paragraph)

/-- What a field begins with. -/
def bullet (field : Field) : Text :=
  let ftype := field.type.dropWhile (· == '?')
  let marker := if field.optional then "``".toList ++ ftype ++ "``, optional".toList
    else "``".toList ++ ftype ++ "``".toList
  "- ``".toList ++ field.name ++ "`` (".toList ++ marker ++ [')']

/-- The words of a field, and of what documents it behind two dashes. -/
def fieldWords (A : Alphabet) (comments : List (ℕ × Comment)) (field : Field) : List Text :=
  words (bullet field) ++
    if docFor field.line comments = [] then []
    else "--".toList :: proseWords A (docFor field.line comments)

def callableWords (A : Alphabet) (comments : List (ℕ × Comment)) (keyword : Keyword)
    (decl : Callable) : List Text :=
  words (directive keyword.objtype ++ signature decl) ++
    proseWords A (docFor decl.line comments)

def recordWords (A : Alphabet) (comments : List (ℕ × Comment)) (decl : Record) : List Text :=
  words (directive Keyword.type.objtype ++ decl.name) ++
    proseWords A (docFor decl.line comments) ++ decl.fields.flatMap (fieldWords A comments)

theorem words_join (parts : List Text) : words (join ['\n'] parts) = parts.flatMap words :=
  Words.words_intercalate (List.cons_ne_nil _ _) (List.all_eq_true.mp (by decide)) parts

theorem isSpace_three : ∀ c ∈ "   ".toList, isSpace c := List.all_eq_true.mp (by decide)

theorem isSpace_five : ∀ c ∈ "     ".toList, isSpace c := List.all_eq_true.mp (by decide)

/-- A text and a blank line. -/
theorem words_blankLine (text : Text) : [text, []].flatMap words = words text := by
  rw [List.flatMap_cons, List.flatMap_singleton]
  exact List.append_nil _

theorem words_paragraphs {initial subsequent : Text} (hi : ∀ c ∈ initial, isSpace c)
    (hs : ∀ c ∈ subsequent, isSpace c) (paragraphs : List Text) :
    (paragraphs.flatMap fun paragraph =>
      [wrap (rstText A paragraph) initial subsequent, []]).flatMap words =
        proseWords A paragraphs := by
  rw [List.flatMap_assoc, proseWords]
  congr 1
  funext paragraph
  rw [words_blankLine, words_wrap _ hi hs]

theorem words_renderCallable (A : Alphabet) (comments : List (ℕ × Comment)) (keyword : Keyword)
    (decl : Callable) :
    words (renderCallable A decl comments keyword.objtype) =
      callableWords A comments keyword decl := by
  rw [renderCallable, words_join, List.flatMap_append, words_blankLine,
    words_paragraphs isSpace_three isSpace_three]
  rfl

theorem words_dashes (front text : Text) :
    words (front ++ " -- ".toList ++ text) = words front ++ "--".toList :: words text := by
  have hone : Words.words isSpace "--".toList = ["--".toList] := by decide
  have hdashes : words ("--".toList ++ ' ' :: text) = "--".toList :: words text := by
    rw [words, Words.words_append_cons isSpace_space, hone]
    rfl
  rw [← hdashes, List.append_assoc]
  exact Words.words_append_cons isSpace_space front _

theorem words_renderField (field : Field) :
    (renderField A field comments).flatMap words = fieldWords A comments field := by
  rw [fieldWords, renderField]
  cases hdocs : docFor field.line comments with
  | nil =>
    show ([wrap (bullet field) "   ".toList "     ".toList, []]).flatMap words = _
    rw [words_blankLine, words_wrap _ isSpace_three isSpace_five]
    exact (List.append_nil _).symm
  | cons paragraph extras =>
    show ([wrap (bullet field ++ " -- ".toList ++ rstText A paragraph) "   ".toList
      "     ".toList] ++ (extras.flatMap fun extra =>
        [[], wrap (rstText A extra) "     ".toList "     ".toList]) ++ [[]]).flatMap words = _
    have hextras : (extras.flatMap fun extra =>
        [[], wrap (rstText A extra) "     ".toList "     ".toList]).flatMap words =
          proseWords A extras := by
      rw [List.flatMap_assoc, proseWords]
      congr 1
      funext extra
      rw [List.flatMap_cons, List.flatMap_singleton, words_wrap _ isSpace_five isSpace_five]
      exact List.nil_append _
    rw [List.flatMap_append, List.flatMap_append, hextras, List.flatMap_singleton,
      List.flatMap_singleton, words_wrap _ isSpace_three isSpace_five, words_dashes,
      show words [] = [] from Words.words_nil, List.append_nil, List.append_assoc]
    rfl

theorem words_renderRecord (A : Alphabet) (comments : List (ℕ × Comment)) (decl : Record) :
    words (renderRecord A decl comments) = recordWords A comments decl := by
  have hfields : (decl.fields.flatMap fun field => renderField A field comments).flatMap words =
      decl.fields.flatMap (fieldWords A comments) := by
    rw [List.flatMap_assoc]
    congr 1
    funext field
    exact words_renderField field
  rw [renderRecord, words_join, List.flatMap_append, List.flatMap_append, hfields,
    words_blankLine, words_paragraphs isSpace_three isSpace_three]
  rfl

theorem words_file {α : Type} (sourceName : Text) (decls : List α) {block : α → Text}
    {contents : α → List Text} (h : ∀ decl, words (block decl) = contents decl) :
    words (header sourceName ++ join ['\n'] (decls.map block)) =
      words (header sourceName) ++ decls.flatMap contents := by
  have hmeet : Words.Meet isSpace (header sourceName) (join ['\n'] (decls.map block)) := by
    left
    intro c hc
    have hlast : (header sourceName).getLast? = some '\n' := List.getLast?_concat
    obtain rfl := Option.some.inj (hlast.symm.trans hc)
    decide
  have hblocks : words (join ['\n'] (decls.map block)) = decls.flatMap contents := by
    rw [words_join, List.flatMap_map, ← funext h]
  exact (Words.words_append hmeet).trans (congrArg (words (header sourceName) ++ ·) hblocks)

/-- The files have the words of the header and then, declaration by declaration, those of the
directive and of what documents it: filling lines drops, cuts, joins and moves no word. -/
theorem words_render (A : Alphabet) (module : Contract) (comments : List (ℕ × Comment))
    (sourceName : Text) :
    (render A module comments sourceName).map (fun file => (file.1, words file.2)) =
      [(Keyword.method.file, words (header sourceName) ++
          module.methods.flatMap (callableWords A comments .method)),
       (Keyword.event.file, words (header sourceName) ++
          module.events.flatMap (callableWords A comments .event)),
       (Keyword.type.file, words (header sourceName) ++
          module.types.flatMap (recordWords A comments))] := by
  have hmethods := words_file sourceName module.methods
    (words_renderCallable A comments .method)
  have hevents := words_file sourceName module.events
    (words_renderCallable A comments .event)
  have htypes := words_file sourceName module.types
    (words_renderRecord A comments)
  rw [← hmethods, ← hevents, ← htypes]
  rfl

end Files

end ChatModule.Docs
