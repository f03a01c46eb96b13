import Mathlib.Data.List.SplitBy
import ChatModule.Docs.Parser

/-!
# The rendered reference

`render` writes a directive for every method, event and record of a contract, with the
comments around the declaration below it as wrapped and indented paragraphs. `main` reads a
contract, compares the number of declarations with a count made without the parser, and
renders.

Only a directive stands at the beginning of a line (`lines_renderCallable`,
`lines_renderRecord`), so that what is declared in a file can be read off its lines.
-/

namespace ChatModule.Docs

/-! ## Comments -/

/-- `-{2,}`. -/
def dashes : Regex Char Empty := .seq (.one (· == '-')) (.plus (.one (· == '-')))

/-- `SECTION_MARKER`. -/
def SECTION_MARKER : Regex Char Empty := .seq dashes (.seq (.star (.one (· != '\n'))) dashes)

def isSectionMarker (text : Text) : Bool := (SECTION_MARKER.fullmatch? text).isSome

/-- The comments on lines of their own right above a line, the lowest first. -/
def blockAbove (comments : List (ℕ × Comment)) : ℕ → List Text
  | 0 => []
  | probe + 1 =>
    match comments.lookup probe with
    | some comment =>
      if comment.ownLine && !isSectionMarker comment.text then
        comment.text :: blockAbove comments probe
      else []
    | none => []

/-- The texts of a block joined to paragraphs, `current` the texts of the one begun. -/
def paragraphsFrom (current : List Text) : List Text → List Text
  | [] => if current = [] then [] else [join [' '] current]
  | text :: block =>
    if text ≠ [] then paragraphsFrom (current ++ [text]) block
    else if current ≠ [] then join [' '] current :: paragraphsFrom [] block
    else paragraphsFrom [] block

/-- `doc_for`. -/
def docFor (line : ℕ) (comments : List (ℕ × Comment)) : List Text :=
  let block := (blockAbove comments line).reverse
  match comments.lookup line with
  | some trailing =>
    if !trailing.ownLine && !isSectionMarker trailing.text then
      paragraphsFrom [] (block ++ [[], trailing.text])
    else paragraphsFrom [] block
  | none => paragraphsFrom [] block

/-! ## Texts -/

def backtick : Char := '\x60'

def escape (text : Text) : Text :=
  text.flatMap fun c => if c ∈ ['\\', '*', '|', '_', backtick] then ['\\', c] else [c]

/-- `rst_text`. -/
def rstText (A : Alphabet) (text : Text) : Text :=
  let parts := text.splitOn backtick
  if parts.length % 2 = 0 then escape text
  else parts.zipIdx.flatMap fun (part, i) =>
    if i % 2 = 1 then [backtick, backtick] ++ part ++ [backtick, backtick]
    -- a literal is not followed by a word at once
    else (if 0 < i ∧ (part.take 1).any A.isAlnum then "\\ ".toList else []) ++ escape part

/-- `str.expandtabs`, the column in front. -/
def expandtabsFrom (column : ℕ) : Text → Text
  | [] => []
  | c :: cs =>
    if c = '\t' then
      List.replicate (8 - column % 8) ' ' ++ expandtabsFrom (column + (8 - column % 8)) cs
    else c :: expandtabsFrom (if c = '\n' ∨ c = '\r' then 0 else column + 1) cs

/-- The text `textwrap` cuts: tabs expanded, ASCII whitespace made to spaces. -/
def mungeWhitespace (text : Text) : Text :=
  (expandtabsFrom 0 text).map fun c => if c ∈ ['\t', '\n', '\x0b', '\x0c', '\r'] then ' ' else c

/-- Runs of spaces, and of other characters. -/
def splitChunks (text : Text) : List Text := text.splitBy fun a b => (a == ' ') == (b == ' ')

/-- The chunks that fit on a line of which some is used, and the chunks after them. -/
def fitting (width used : ℕ) : List Text → List Text × List Text
  | [] => ([], [])
  | chunk :: chunks =>
    if used + chunk.length ≤ width then
      let (line, rest) := fitting width (used + chunk.length) chunks
      (chunk :: line, rest)
    else ([], chunk :: chunks)

/-- The chunks of a line, of which one too long for any line is the only one. -/
def takeLine (width : ℕ) (chunks : List Text) : List Text × List Text :=
  match fitting width 0 chunks with
  | ([], chunk :: rest) => ([chunk], rest)
  | (line, rest) => (line, rest)

theorem fitting_append (width used : ℕ) (chunks : List Text) :
    (fitting width used chunks).1 ++ (fitting width used chunks).2 = chunks := by
  induction chunks generalizing used with
  | nil => rfl
  | cons chunk chunks ih =>
    rw [fitting]
    split
    · exact congrArg (chunk :: ·) (ih _)
    · rfl

theorem takeLine_append (width : ℕ) (chunks : List Text) :
    (takeLine width chunks).1 ++ (takeLine width chunks).2 = chunks := by
  have happend := fitting_append width 0 chunks
  rw [takeLine]
  split
  · next heq =>
    rw [heq] at happend
    exact happend
  · next heq =>
    rw [heq] at happend
    exact happend

/-- The chunks ahead without a blank one in front, where a line has been made. -/
def dropFirstBlank (begun : Bool) (chunks : List Text) : List Text :=
  if begun && chunks.head?.any (strip · = []) then chunks.tail else chunks

/-- A line takes a chunk at least. -/
theorem takeLine_lt (width : ℕ) (begun : Bool) {chunks : List Text} (h : chunks ≠ []) :
    (takeLine width (dropFirstBlank begun chunks)).2.length < chunks.length := by
  rw [dropFirstBlank]
  split
  · have hle : (takeLine width chunks.tail).2.length ≤ chunks.tail.length := by
      rw [← congrArg List.length (takeLine_append width chunks.tail), List.length_append]
      exact Nat.le_add_left _ _
    have hpos := List.length_pos_of_ne_nil h
    rw [List.length_tail] at hle
    omega
  · have happend := congrArg List.length (takeLine_append width chunks)
    have hpos : 0 < (takeLine width chunks).1.length := by
      rw [takeLine]
      split
      · exact Nat.one_pos
      · next line rest hno heq =>
        apply List.length_pos_of_ne_nil
        rintro rfl
        have hfit := fitting_append width 0 chunks
        rw [heq] at hfit
        cases rest with
        | nil => exact h hfit.symm
        | cons chunk rest => exact hno chunk rest rfl rfl
    rw [List.length_append] at happend
    omega

/-- A line without a blank chunk at its end. -/
def dropLastBlank (line : List Text) : List Text :=
  if line.getLast?.any (strip · = []) then line.dropLast else line

/-- The loop of `textwrap`, which has `begun` when there is a line. -/
def wrapFrom (width : ℕ) (initial subsequent : Text) (begun : Bool) (chunks : List Text) :
    List Text :=
  if h : chunks = [] then []
  else
    let indent := if begun then subsequent else initial
    let taken := takeLine (width - indent.length) (dropFirstBlank begun chunks)
    have := takeLine_lt (width - indent.length) begun h
    let line := dropLastBlank taken.1
    if line = [] then wrapFrom width initial subsequent begun taken.2
    else (indent ++ line.flatten) :: wrapFrom width initial subsequent true taken.2
termination_by chunks.length

/-- `wrap`. -/
def wrap (text initial subsequent : Text) : Text :=
  join ['\n'] (wrapFrom 79 initial subsequent false (splitChunks (mungeWhitespace text)))

/-! ## Directives -/

/-- The declarations, by their keywords. -/
inductive Keyword
  | type
  | method
  | event
deriving DecidableEq, Repr

def Keyword.text : Keyword → Text
  | .type => "type".toList
  | .method => "method".toList
  | .event => "event".toList

/-- The directive of a declaration. -/
def Keyword.objtype : Keyword → Text
  | .type => "record".toList
  | .method => "method".toList
  | .event => "event".toList

/-- The file its declarations are rendered to. -/
def Keyword.file : Keyword → Text
  | .type => "records.rst".toList
  | .method => "methods.rst".toList
  | .event => "events.rst".toList

/-- What stands in front of the signature. -/
def directive (objtype : Text) : Text := ".. lidl:".toList ++ objtype ++ ":: ".toList

def signature (decl : Callable) : Text :=
  let params := join ", ".toList (decl.params.map fun p => p.name ++ ": ".toList ++ p.type)
  let sig := decl.name ++ ['('] ++ params ++ [')']
  match decl.returns with
  | some returns => if returns ≠ [] then sig ++ " -> ".toList ++ returns else sig
  | none => sig

/-- A signature is a name, something in parentheses, and perhaps an arrow and a type. -/
theorem signature_eq (decl : Callable) :
    signature decl = decl.name ++ ['('] ++
      join ", ".toList (decl.params.map fun p => p.name ++ ": ".toList ++ p.type) ++ [')'] ++
      (match decl.returns with
        | some returns => if returns ≠ [] then " -> ".toList ++ returns else []
        | none => []) := by
  rw [signature]
  cases decl.returns with
  | none => simp
  | some returns =>
    dsimp only
    split
    · simp
    · simp

def renderCallable (A : Alphabet) (decl : Callable) (comments : List (ℕ × Comment))
    (objtype : Text) : Text :=
  join ['\n'] ([directive objtype ++ signature decl, []] ++
    (docFor decl.line comments).flatMap fun paragraph =>
      [wrap (rstText A paragraph) "   ".toList "   ".toList, []])

/-- The lines of a field in `render_record`. -/
def renderField (A : Alphabet) (field : Field) (comments : List (ℕ × Comment)) : List Text :=
  let ftype := field.type.dropWhile (· == '?')
  let marker := if field.optional then "``".toList ++ ftype ++ "``, optional".toList
    else "``".toList ++ ftype ++ "``".toList
  let bullet := "- ``".toList ++ field.name ++ "`` (".toList ++ marker ++ [')']
  match docFor field.line comments with
  | [] => [wrap bullet "   ".toList "     ".toList, []]
  | paragraph :: extras =>
    [wrap (bullet ++ " -- ".toList ++ rstText A paragraph) "   ".toList "     ".toList] ++
      extras.flatMap (fun extra => [[], wrap (rstText A extra) "     ".toList "     ".toList]) ++
      [[]]

def renderRecord (A : Alphabet) (decl : Record) (comments : List (ℕ × Comment)) : Text :=
  join ['\n'] ([directive "record".toList ++ decl.name, []] ++
    (docFor decl.line comments).flatMap (fun paragraph =>
      [wrap (rstText A paragraph) "   ".toList "   ".toList, []]) ++
    decl.fields.flatMap fun field => renderField A field comments)

/-- `HEADER` with the name of the contract, and a blank line. -/
def header (sourceName : Text) : Text :=
  ".. Generated by docs/lidl2rst.py from ".toList ++ sourceName ++
    " -- do not edit.\n".toList ++ ['\n']

/-- `render`. -/
def render (A : Alphabet) (module : Contract) (comments : List (ℕ × Comment))
    (sourceName : Text) : List (Text × Text) :=
  [("methods.rst".toList, header sourceName ++ join ['\n']
      (module.methods.map (renderCallable A · comments "method".toList))),
   ("events.rst".toList, header sourceName ++ join ['\n']
      (module.events.map (renderCallable A · comments "event".toList))),
   ("records.rst".toList, header sourceName ++ join ['\n']
      (module.types.map (renderRecord A · comments)))]

/-! ## The program -/

/-- One more kind of declaration under a name. -/
def noteAnchor (seen : List (Text × List Text)) (name kind : Text) : List (Text × List Text) :=
  if seen.any (·.1 = name) then
    seen.map fun (name', kinds) => (name', if name' = name then kinds ++ [kind] else kinds)
  else seen ++ [(name, [kind])]

/-- `clashing_anchors`. -/
def clashingAnchors (module : Contract) : List (Text × List Text) :=
  let methods := module.methods.foldl (fun seen m => noteAnchor seen m.name "method".toList) []
  let seen := module.events.foldl (fun seen e => noteAnchor seen e.name "event".toList) methods
  seen.filter fun (_, kinds) => 1 < kinds.length

/-- `re.findall` of a pattern from the beginning of a line on, counted, with the characters of
the last match that are still to pass. -/
def countMatches (r : Regex Char Empty) (lineStart : Bool) (skip : ℕ) : Text → ℕ
  | [] => 0
  | c :: cs =>
    match skip with
    | skip + 1 => countMatches r (c == '\n') skip cs
    | 0 =>
      match if lineStart then r.match? (c :: cs) else none with
      | some m => countMatches r (c == '\n') (cs.length - m.rest.length) cs + 1
      | none => countMatches r (c == '\n') 0 cs

/-- `^\s*keyword\s+\w`, without the beginning of the line. -/
def declarationPattern (A : Alphabet) (keyword : Keyword) : Regex Char Empty :=
  .seq (.star (.one isSpace)) (.seq (.lit keyword.text)
    (.seq (.plus (.one isSpace)) (.one A.isWord)))

/-- A number for each keyword. -/
structure Counts where
  type : ℕ
  method : ℕ
  event : ℕ
deriving DecidableEq, Repr

/-- `count_declarations`. -/
def countDeclarations (A : Alphabet) (source : Text) : Counts :=
  let code := (splitComments source).1
  ⟨countMatches (declarationPattern A .type) true 0 code,
   countMatches (declarationPattern A .method) true 0 code,
   countMatches (declarationPattern A .event) true 0 code⟩

/-- What `main` ends with instead of rendering. -/
inductive Exit
  | lidl (error : LidlError)
  | miscounted (actual expected : Counts)
  | clashes (clashes : List (Text × List Text))
  | crashed (raised : Raised)
deriving DecidableEq, Repr

/-- The contract in a source, and its comments. -/
def readContract (source : Text) : Except Raised (Contract × List (ℕ × Comment)) := do
  let (code, comments) := splitComments source
  let tokens ← tokenize code
  let (module, _) ← parseModule.run tokens
  return (module, comments)

/-- `main`, from the source it reads to the files it writes. -/
def main (A : Alphabet) (sourceName source : Text) : Except Exit (List (Text × Text)) :=
  match readContract source with
  | .error (.lidl error) => .error (.lidl error)
  | .error raised => .error (.crashed raised)
  | .ok (module, comments) =>
    let expected := countDeclarations A source
    let actual := ⟨module.types.length, module.methods.length, module.events.length⟩
    if expected ≠ actual then .error (.miscounted actual expected)
    else if clashingAnchors module ≠ [] then .error (.clashes (clashingAnchors module))
    else .ok (render A module comments sourceName)

/-! ## The lines of a rendering -/

def lines (text : Text) : List Text := text.splitOn '\n'

/-- Blank, or not at the beginning of the line. -/
def Indented (line : Text) : Prop := ∀ c ∈ line.head?, c = ' '

/-- Nothing stands at the beginning of a line. -/
def Undeclared (text : Text) : Prop := ∀ line ∈ lines text, Indented line

theorem lines_of_not_mem {text : Text} (h : '\n' ∉ text) : lines text = [text] :=
  List.splitOn_eq_singleton h

theorem lines_join {parts : List Text} (h : parts ≠ []) :
    lines (join ['\n'] parts) = parts.flatMap lines := by
  induction parts with
  | nil => exact absurd rfl h
  | cons part parts ih =>
    cases parts with
    | nil => simp [join]
    | cons next parts =>
      have hjoin : join ['\n'] (part :: next :: parts) =
          part ++ '\n' :: join ['\n'] (next :: parts) := by
        simp [join, List.intercalate]
      rw [hjoin, List.flatMap_cons, ← ih (by simp)]
      exact List.splitOn_append_cons_self _ _

theorem not_mem_mungeWhitespace (text : Text) : '\n' ∉ mungeWhitespace text := by
  rw [mungeWhitespace, List.mem_map]
  rintro ⟨c, -, hc⟩
  split at hc
  · cases hc
  · next hno =>
    subst hc
    exact hno (by decide)

theorem mem_of_mem_splitChunks {text chunk : Text} {c : Char} (h : chunk ∈ splitChunks text)
    (hc : c ∈ chunk) : c ∈ text := by
  rw [← List.flatten_splitBy (fun a b => (a == ' ') == (b == ' ')) text]
  exact List.mem_flatten.mpr ⟨chunk, h, hc⟩

theorem mem_of_mem_takeLine {width : ℕ} {begun : Bool} {chunks : List Text} {chunk : Text}
    (h : chunk ∈ (takeLine width (dropFirstBlank begun chunks)).1 ∨
      chunk ∈ (takeLine width (dropFirstBlank begun chunks)).2) : chunk ∈ chunks := by
  rw [← List.mem_append, takeLine_append, dropFirstBlank] at h
  split at h
  · exact List.mem_of_mem_tail h
  · exact h

theorem mem_of_mem_dropLastBlank {line : List Text} {chunk : Text}
    (h : chunk ∈ dropLastBlank line) : chunk ∈ line := by
  rw [dropLastBlank] at h
  split at h
  · exact List.dropLast_subset _ h
  · exact h

/-- What may stand in front of a wrapped line. -/
def Indent (indent : Text) : Prop := '\n' ∉ indent ∧ ∃ l, indent = ' ' :: l

/-- What is wrapped stays within its lines, and these are indented. -/
theorem wrapFrom_lines {width : ℕ} {initial subsequent : Text} {begun : Bool}
    {chunks : List Text} (hi : Indent initial) (hs : Indent subsequent)
    (hc : ∀ chunk ∈ chunks, '\n' ∉ chunk) :
    ∀ line ∈ wrapFrom width initial subsequent begun chunks, Indent line := by
  induction hn : chunks.length using Nat.strong_induction_on generalizing begun chunks with
  | _ n ih =>
    subst hn
    rw [wrapFrom]
    split
    · simp
    · next hne =>
      have hindent : Indent (if begun then subsequent else initial) := by
        split
        · exact hs
        · exact hi
      dsimp only
      generalize (if begun then subsequent else initial) = indent at hindent ⊢
      have hlt := takeLine_lt (width - indent.length) begun hne
      have hrest : ∀ chunk ∈ (takeLine (width - indent.length) (dropFirstBlank begun chunks)).2,
          '\n' ∉ chunk :=
        fun chunk hchunk => hc chunk (mem_of_mem_takeLine (Or.inr hchunk))
      split
      · exact ih _ hlt hrest rfl
      · intro line hline
        rcases List.mem_cons.mp hline with rfl | hline
        · obtain ⟨hno, l, hl⟩ := hindent
          constructor
          · rw [List.mem_append, List.mem_flatten]
            rintro (hmem | ⟨chunk, hchunk, hmem⟩)
            · exact hno hmem
            · exact hc chunk (mem_of_mem_takeLine (Or.inl (mem_of_mem_dropLastBlank hchunk))) hmem
          · rw [hl]
            exact ⟨_, rfl⟩
        · exact ih _ hlt hrest rfl line hline

theorem undeclared_nil : Undeclared [] := by
  intro line hline
  obtain rfl : line = [] := List.mem_singleton.mp hline
  simp [Indented]

theorem undeclared_wrap {text initial subsequent : Text} (hi : Indent initial)
    (hs : Indent subsequent) : Undeclared (wrap text initial subsequent) := by
  have hwrapped : ∀ line ∈ wrapFrom 79 initial subsequent false
      (splitChunks (mungeWhitespace text)), Indent line := by
    apply wrapFrom_lines hi hs
    intro chunk hchunk hmem
    exact not_mem_mungeWhitespace text (mem_of_mem_splitChunks hchunk hmem)
  rw [wrap]
  generalize wrapFrom 79 initial subsequent false (splitChunks (mungeWhitespace text)) = wrapped
    at hwrapped
  by_cases hnil : wrapped = []
  · rw [hnil]
    exact undeclared_nil
  · intro line hline
    rw [lines_join hnil, List.mem_flatMap] at hline
    obtain ⟨whole, hwhole, hline⟩ := hline
    obtain ⟨hno, l, rfl⟩ := hwrapped whole hwhole
    rw [lines_of_not_mem hno, List.mem_singleton] at hline
    subst hline
    simp [Indented]

theorem indent_three : Indent "   ".toList := ⟨by decide, _, rfl⟩

theorem indent_five : Indent "     ".toList := ⟨by decide, _, rfl⟩

theorem undeclared_paragraphs {A : Alphabet} {paragraphs : List Text} {part : Text}
    (h : part ∈ paragraphs.flatMap fun paragraph =>
      [wrap (rstText A paragraph) "   ".toList "   ".toList, []]) : Undeclared part := by
  rw [List.mem_flatMap] at h
  obtain ⟨paragraph, -, hpart⟩ := h
  rcases List.mem_pair.mp hpart with rfl | rfl
  · exact undeclared_wrap indent_three indent_three
  · exact undeclared_nil

theorem undeclared_field {A : Alphabet} {field : Field} {comments : List (ℕ × Comment)}
    {part : Text} (h : part ∈ renderField A field comments) : Undeclared part := by
  rw [renderField] at h
  split at h
  · rcases List.mem_pair.mp h with rfl | rfl
    · exact undeclared_wrap indent_three indent_five
    · exact undeclared_nil
  · rw [List.mem_append, List.mem_append, List.mem_singleton, List.mem_singleton,
      List.mem_flatMap] at h
    rcases h with (rfl | ⟨extra, -, hpart⟩) | rfl
    · exact undeclared_wrap indent_three indent_five
    · rcases List.mem_pair.mp hpart with rfl | rfl
      · exact undeclared_nil
      · exact undeclared_wrap indent_five indent_five
    · exact undeclared_nil

/-- Below its first line a block holds nothing at the beginning of a line. -/
theorem lines_block {first : Text} {parts : List Text} (hfirst : '\n' ∉ first)
    (hparts : ∀ part ∈ parts, Undeclared part) :
    ∃ below, lines (join ['\n'] (first :: parts)) = first :: below ∧
      ∀ line ∈ below, Indented line := by
  refine ⟨parts.flatMap lines, ?_, ?_⟩
  · rw [lines_join (by simp), List.flatMap_cons, lines_of_not_mem hfirst]
    rfl
  · intro line hline
    obtain ⟨part, hpart, hline⟩ := List.mem_flatMap.mp hline
    exact hparts part hpart line hline

theorem lines_renderCallable (A : Alphabet) {decl : Callable} (comments : List (ℕ × Comment))
    {objtype : Text} (h : '\n' ∉ directive objtype ++ signature decl) :
    ∃ below, lines (renderCallable A decl comments objtype) =
        (directive objtype ++ signature decl) :: below ∧ ∀ line ∈ below, Indented line := by
  apply lines_block h
  intro part hpart
  rcases List.mem_cons.mp hpart with rfl | hpart
  · exact undeclared_nil
  · exact undeclared_paragraphs hpart

theorem lines_renderRecord (A : Alphabet) {decl : Record} (comments : List (ℕ × Comment))
    (h : '\n' ∉ directive "record".toList ++ decl.name) :
    ∃ below, lines (renderRecord A decl comments) =
        (directive "record".toList ++ decl.name) :: below ∧ ∀ line ∈ below, Indented line := by
  apply lines_block h
  intro part hpart
  rcases List.mem_cons.mp hpart with rfl | hpart
  · exact undeclared_nil
  · rcases List.mem_append.mp hpart with hpart | hpart
    · exact undeclared_paragraphs hpart
    · obtain ⟨field, -, hpart⟩ := List.mem_flatMap.mp hpart
      exact undeclared_field hpart

end ChatModule.Docs
