import ChatModule.Lib.Regex

/-!
# The tokens of a contract

A contract's text, as Python reads it: a list of code points with every line ending turned
into a newline. `split_comments` takes the `;` comments off, line by line, and `tokenize`
cuts what is left by the expression TOKEN.

A token's value is of the form its kind says (`tokenize_wellFormed`), so a value that is a
word is an identifier's and one that is a bracket is a mark's.
-/

namespace ChatModule.Docs

/-- A Python string. -/
abbrev Text := List Char

/-! ## What Python knows of characters -/

/-- `str.isspace`, and `\s`. -/
def isSpace (c : Char) : Bool :=
  c.toNat ∈ [0x09, 0x0A, 0x0B, 0x0C, 0x0D, 0x1C, 0x1D, 0x1E, 0x1F, 0x20, 0x85, 0xA0, 0x1680,
    0x2000, 0x2001, 0x2002, 0x2003, 0x2004, 0x2005, 0x2006, 0x2007, 0x2008, 0x2009, 0x200A,
    0x2028, 0x2029, 0x202F, 0x205F, 0x3000]

/-- The letters and digits of Unicode, of which only the ASCII ones are known here. -/
structure Alphabet where
  /-- `str.isalnum`. -/
  isAlnum : Char → Bool
  ascii : ∀ c : Char, c.toNat < 128 → isAlnum c = c.isAlphanum

/-- `\w`. -/
def Alphabet.isWord (A : Alphabet) (c : Char) : Bool := A.isAlnum c || c == '_'

/-- The ASCII letters and digits and no others. -/
def Alphabet.latin : Alphabet := ⟨Char.isAlphanum, fun _ _ => rfl⟩

/-- Where `str.splitlines` ends a line. -/
def isLineBreak (c : Char) : Bool :=
  c.toNat ∈ [0x0A, 0x0B, 0x0C, 0x0D, 0x1C, 0x1D, 0x1E, 0x85, 0x2028, 0x2029]

/-- `str.splitlines`, the line so far in front. -/
def splitlinesFrom (line : Text) : Text → List Text
  | [] => if line = [] then [] else [line]
  | '\r' :: '\n' :: s => line :: splitlinesFrom [] s
  | c :: s => if isLineBreak c then line :: splitlinesFrom [] s else splitlinesFrom (line ++ [c]) s

def splitlines (s : Text) : List Text := splitlinesFrom [] s

/-- `str.strip`. -/
def strip (s : Text) : Text := ((s.dropWhile isSpace).reverse.dropWhile isSpace).reverse

/-- `sep.join`. -/
def join (sep : Text) (parts : List Text) : Text := List.intercalate sep parts

/-! ## Comments -/

/-- A comment, and whether nothing else was on its line. -/
structure Comment where
  text : Text
  ownLine : Bool
deriving DecidableEq, Repr

/-- A line in front of its comment, and the comment. -/
def cutComment (inString escaped : Bool) : Text → Option (Text × Text)
  | [] => none
  | c :: cs =>
    if escaped then (cutComment inString false cs).map fun (before, after) => (c :: before, after)
    else if c = '\\' ∧ inString then
      (cutComment inString true cs).map fun (before, after) => (c :: before, after)
    else if c = '"' then
      (cutComment (!inString) false cs).map fun (before, after) => (c :: before, after)
    else if c = ';' ∧ !inString then some ([], cs)
    else (cutComment inString false cs).map fun (before, after) => (c :: before, after)

/-- The code of each line, and the comments by their line. -/
def splitCommentsFrom (lineno : ℕ) : List Text → List Text × List (ℕ × Comment)
  | [] => ([], [])
  | line :: lines =>
    let (code, comments) := splitCommentsFrom (lineno + 1) lines
    match cutComment false false line with
    | none => (line :: code, comments)
    | some (before, after) =>
      (before :: code, (lineno, ⟨strip after, strip before = []⟩) :: comments)

/-- `split_comments`. -/
def splitComments (source : Text) : Text × List (ℕ × Comment) :=
  let (code, comments) := splitCommentsFrom 1 (splitlines source)
  (join ['\n'] code, comments)

/-! ## Tokens -/

/-- What a token is, by the group of TOKEN that matched. -/
inductive Kind
  | ws
  | str
  | ident
  | punct
  | eof
deriving DecidableEq, Repr

/-- A token and the line it starts on. -/
structure Token where
  kind : Kind
  value : Text
  line : ℕ
deriving DecidableEq, Repr

/-- What the parser complains about. The text of a message is left out. -/
inductive LidlError
  | unexpectedCharacter (line : ℕ) (c : Char)
  | expected (line : ℕ) (kind : Kind) (value : Option Text) (found : Text)
  | unclosedModule
  | unexpectedDeclaration (line : ℕ) (value : Text)
  | expectedType (line : ℕ) (found : Text)
deriving DecidableEq, Repr

/-- What stops the program: its own error, reading past the last token, or a recursion that
is too deep. -/
inductive Raised
  | lidl (error : LidlError)
  | indexError
  | recursionError
deriving DecidableEq, Repr

/-- `[A-Za-z_]`. -/
def identStart (c : Char) : Bool := c.isAlpha || c == '_'

/-- `[A-Za-z0-9_]`. -/
def identPart (c : Char) : Bool := c.isAlphanum || c == '_'

/-- The marks of a single character. -/
def marks : Text := ['{', '}', '[', ']', '(', ')', ',', ':', '?']

/-- `TOKEN`. -/
def TOKEN : Regex Char Kind :=
  .alt (.group .ws (.plus (.one isSpace)))
    (.alt (.group .str (.seq (.one (· == '"')) (.seq (.star (.alt
        (.seq (.one (· == '\\')) (.one (· != '\n')))
        (.one fun c => c != '"' && c != '\\')))
      (.one (· == '"')))))
    (.alt (.group .ident (.seq (.one identStart) (.star (.one identPart))))
      (.group .punct (.alt (.lit "->".toList) (.one (· ∈ marks))))))

/-- The loop of `tokenize`, with the characters of the last match that are still to pass. -/
def tokenizeFrom (skip line : ℕ) : Text → Except Raised (List Token)
  | [] => .ok [⟨.eof, [], line⟩]
  | c :: cs =>
    match skip with
    | skip + 1 => tokenizeFrom skip line cs
    | 0 =>
      match TOKEN.match? (c :: cs) with
      | some ⟨_, [(kind, value)]⟩ =>
        (tokenizeFrom (value.length - 1) (line + value.count '\n') cs).map fun tokens =>
          if kind = .ws then tokens else ⟨kind, value, line⟩ :: tokens
      | _ => .error (.lidl (.unexpectedCharacter line c))

/-- `tokenize`. -/
def tokenize (code : Text) : Except Raised (List Token) := tokenizeFrom 0 1 code

/-! ## What a token holds -/

/-- An identifier. -/
def IsIdent (w : Text) : Prop := ∃ c cs, w = c :: cs ∧ identStart c ∧ ∀ d ∈ cs, identPart d

/-- The value is of the form the kind says. -/
def WellFormed : Kind → Text → Prop
  | .ws, w => ∀ c ∈ w, isSpace c
  | .str, w => ∃ v, w = '"' :: v
  | .ident, w => IsIdent w
  | .punct, w => w = "->".toList ∨ ∃ c ∈ marks, w = [c]
  | .eof, w => w = []

/-- TOKEN captures all it matches under the group of one alternative. -/
theorem token_match {s : Text} {m : Regex.Found Char Kind} (h : TOKEN.match? s = some m) :
    ∃ kind w, m.groups = [(kind, w)] ∧ s = w ++ m.rest ∧ w ≠ [] ∧ kind ≠ .eof ∧
      WellFormed kind w := by
  have hmem : m ∈ TOKEN.tries s := List.mem_of_head? h
  rw [TOKEN, Regex.mem_tries_alt, Regex.mem_tries_alt, Regex.mem_tries_alt] at hmem
  rcases hmem with hws | hstr | hident | hpunct
  · obtain ⟨m₁, hm₁, w, rfl, rfl⟩ := Regex.mem_tries_group hws
    have hgroups := Regex.groups_of_plain rfl _ m₁ hm₁
    obtain ⟨m₂, hm₂, m₃, hm₃, rfl⟩ := Regex.mem_tries_seq.mp hm₁
    obtain ⟨c, hc, heq, -⟩ := Regex.mem_tries_one.mp hm₂
    obtain ⟨-, v, hv, hspaces⟩ := Regex.mem_tries_star_one.mp hm₃
    rw [hv] at heq
    obtain rfl : w = c :: v := List.append_cancel_right heq
    refine ⟨.ws, c :: v, by simp [hgroups], rfl, by simp, by simp, ?_⟩
    intro d hd
    rcases List.mem_cons.mp hd with rfl | hd
    · exact hc
    · exact hspaces d hd
  · obtain ⟨m₁, hm₁, w, rfl, rfl⟩ := Regex.mem_tries_group hstr
    have hgroups := Regex.groups_of_plain rfl _ m₁ hm₁
    obtain ⟨m₂, hm₂, m₃, hm₃, rfl⟩ := Regex.mem_tries_seq.mp hm₁
    obtain ⟨c, hc, heq, -⟩ := Regex.mem_tries_one.mp hm₂
    obtain rfl : c = '"' := by simpa using hc
    obtain ⟨v, hv⟩ := Regex.suffix_of_mem _ _ _ hm₃
    rw [← hv] at heq
    obtain rfl : w = '"' :: v := List.append_cancel_right heq
    exact ⟨.str, '"' :: v, by simp [hgroups], rfl, by simp, by simp, v, rfl⟩
  · obtain ⟨m₁, hm₁, w, rfl, rfl⟩ := Regex.mem_tries_group hident
    have hgroups := Regex.groups_of_plain rfl _ m₁ hm₁
    obtain ⟨m₂, hm₂, m₃, hm₃, rfl⟩ := Regex.mem_tries_seq.mp hm₁
    obtain ⟨c, hc, heq, -⟩ := Regex.mem_tries_one.mp hm₂
    obtain ⟨-, v, hv, hparts⟩ := Regex.mem_tries_star_one.mp hm₃
    rw [hv] at heq
    obtain rfl : w = c :: v := List.append_cancel_right heq
    exact ⟨.ident, c :: v, by simp [hgroups], rfl, by simp, by simp, c, v, rfl, hc, hparts⟩
  · obtain ⟨m₁, hm₁, w, rfl, rfl⟩ := Regex.mem_tries_group hpunct
    have hgroups := Regex.groups_of_plain rfl _ m₁ hm₁
    refine ⟨.punct, w, by simp [hgroups], rfl, ?_⟩
    rcases Regex.mem_tries_alt.mp hm₁ with harrow | hmark
    · obtain rfl : w = "->".toList := List.append_cancel_right (Regex.eq_of_mem_lit harrow)
      exact ⟨by decide, by simp, Or.inl rfl⟩
    · obtain ⟨c, hc, heq, -⟩ := Regex.mem_tries_one.mp hmark
      obtain rfl : w = [c] := List.append_cancel_right heq
      exact ⟨by simp, by simp, Or.inr ⟨c, of_decide_eq_true hc, rfl⟩⟩

/-- A token as the tokenizer makes them. -/
def Token.Ok (t : Token) : Prop := t.kind ≠ .ws ∧ WellFormed t.kind t.value

theorem tokenizeFrom_ok {s : Text} {skip line : ℕ} {ts : List Token}
    (h : tokenizeFrom skip line s = .ok ts) : ∀ t ∈ ts, t.Ok := by
  induction s generalizing skip line ts with
  | nil =>
    obtain rfl := Except.ok.inj h
    intro t ht
    rw [List.mem_singleton] at ht
    subst ht
    exact ⟨by simp, rfl⟩
  | cons c s ih =>
    cases skip with
    | succ skip => exact ih h
    | zero =>
      rw [tokenizeFrom] at h
      split at h
      · next rest kind value hmatch =>
        obtain ⟨kind', w, hgroups, -, -, -, hform⟩ := token_match hmatch
        obtain ⟨rfl, rfl⟩ := Prod.mk.inj (List.cons.inj hgroups).1
        cases hrest : tokenizeFrom (value.length - 1) (line + value.count '\n') s with
        | error e =>
          rw [hrest] at h
          cases h
        | ok tokens =>
          rw [hrest] at h
          obtain rfl := Except.ok.inj h
          intro t ht
          split at ht
          · exact ih hrest t ht
          · next hkind =>
            rcases List.mem_cons.mp ht with rfl | ht
            · exact ⟨hkind, hform⟩
            · exact ih hrest t ht
      · cases h

/-- A token's value is of the form its kind says. -/
theorem tokenize_wellFormed {code : Text} {ts : List Token} (h : tokenize code = .ok ts) :
    ∀ t ∈ ts, t.Ok :=
  tokenizeFrom_ok h

end ChatModule.Docs
