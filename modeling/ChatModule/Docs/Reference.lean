import Mathlib.Data.Bool.AllAny
import ChatModule.Docs.Declarations
import ChatModule.Docs.Rendering

/-!
# What the reference leaves out

A declaration is a keyword with a name after it, directly inside the body of a
`module name { … }`, wherever in the source that stands. `declarations` finds them by the
tokens alone, with no grammar: it keeps the brackets that are open and looks back at the two
tokens before. A keyword after an arrow or a question mark is the name of a type and declares
nothing.

The parser stops at the brace that closes the first module. The count that is to catch what
it leaves out only looks at the beginnings of lines, so that a declaration it overlooks in the
first module makes up for one in a second module. The reference is complete just when
everything is declared in the first module (`complete_iff`).
-/

namespace ChatModule.Docs

/-! ## The declarations of a source -/

/-- A declaration, and how many modules were begun before the one it stands in. -/
structure Declaration where
  keyword : Keyword
  name : Text
  module : ℕ
deriving DecidableEq, Repr

/-- A bracket that is open: around the body of a module, or any other. -/
inductive Frame
  | body (number : ℕ)
  | other
deriving DecidableEq, Repr

/-- A reading of the tokens. -/
structure Scan where
  /-- The tokens read, the last one first. -/
  before : List Token
  stack : List Frame
  modules : ℕ
  found : List Declaration

def Keyword.of (w : Text) : Option Keyword :=
  if w = "type".toList then some .type
  else if w = "method".toList then some .method
  else if w = "event".toList then some .event
  else none

/-- After these tokens, the last one first, a type has to follow. -/
def typeAfter (before : List Token) : Bool :=
  before.head?.any fun q => q.value = "->".toList ∨ q.value = ['?']

/-- The keyword read last, if it stands where no type does. -/
def Scan.keyword (s : Scan) : Option Keyword :=
  match s.before with
  | k :: before => if typeAfter before then none else Keyword.of k.value
  | [] => none

/-- What the next token declares. -/
def Scan.declares (s : Scan) (t : Token) : List Declaration :=
  match s.stack, s.keyword with
  | .body number :: _, some keyword => if t.kind = .ident then [⟨keyword, t.value, number⟩] else []
  | _, _ => []

/-- A brace now opens the body of a module. -/
def Scan.opens (s : Scan) : Bool :=
  match s.before with
  | n :: m :: _ => n.kind = .ident && m.value = "module".toList
  | _ => false

def Scan.step (s : Scan) (t : Token) : Scan where
  before := t :: s.before
  stack :=
    if t.value = ['{'] ∧ s.opens then .body s.modules :: s.stack
    else if t.value = ['{'] ∨ t.value = ['['] ∨ t.value = ['('] then .other :: s.stack
    else if t.value = ['}'] ∨ t.value = [']'] ∨ t.value = [')'] then s.stack.tail
    else s.stack
  modules := if t.value = ['{'] ∧ s.opens then s.modules + 1 else s.modules
  found := s.found ++ s.declares t

/-- The declarations of a source, in order. -/
def declarations (source : Text) : List Declaration :=
  match tokenize (splitComments source).1 with
  | .ok ts => (ts.foldl Scan.step ⟨[], [], 0, []⟩).found
  | .error _ => []

/-- The names a source declares by a keyword. -/
def declared (keyword : Keyword) (source : Text) : List Text :=
  ((declarations source).filter (·.keyword = keyword)).map (·.name)

/-! ## The declarations of a reference -/

/-- The name a line declares with a directive. -/
def directiveName (objtype line : Text) : Option Text :=
  if directive objtype <+: line then
    some ((line.drop (directive objtype).length).takeWhile identPart)
  else none

/-- The names a rendered text declares. -/
def directiveNames (objtype text : Text) : List Text :=
  (lines text).filterMap (directiveName objtype)

/-- The names that the file for a keyword declares below its header. -/
def shown (sourceName : Text) (keyword : Keyword) (files : List (Text × Text)) : List Text :=
  match files.lookup keyword.file with
  | some text => directiveNames keyword.objtype (text.drop (header sourceName).length)
  | none => []

/-! ## A reading step by step -/

section Steps

variable {s s' s'' : Scan} {t : Token} {stack : List Frame}

theorem declares_of_keyword (h : s.keyword = none) : s.declares t = [] := by
  rw [Scan.declares, h]
  split
  · next heq => cases heq
  · rfl

theorem declares_of_kind (h : t.kind ≠ .ident) : s.declares t = [] := by
  rw [Scan.declares]
  split
  · rw [if_neg h]
  · rfl

theorem declares_of_other (h : s.stack = .other :: stack) : s.declares t = [] := by
  rw [Scan.declares, h]

theorem declares_of_body {number : ℕ} {keyword : Keyword} (hstack : s.stack = .body number :: stack)
    (hkeyword : s.keyword = some keyword) (hkind : t.kind = .ident) :
    s.declares t = [⟨keyword, t.value, number⟩] := by
  rw [Scan.declares, hstack, hkeyword]
  exact if_pos hkind

/-- Nothing is opened, closed or declared. -/
structure Kept (s s' : Scan) : Prop where
  stack : s'.stack = s.stack
  modules : s'.modules = s.modules
  found : s'.found = s.found

theorem Kept.trans (h : Kept s s') (h' : Kept s' s'') : Kept s s'' :=
  ⟨h'.stack.trans h.stack, h'.modules.trans h.modules, h'.found.trans h.found⟩

/-- A token is no bracket. -/
def Plain (w : Text) : Prop := w ∉ [['{'], ['['], ['('], ['}'], [']'], [')']]

instance (w : Text) : Decidable (Plain w) := inferInstanceAs (Decidable (_ ∉ _))

theorem step_stack (hplain : Plain t.value) :
    (s.step t).stack = s.stack ∧ (s.step t).modules = s.modules := by
  simp only [Plain, List.mem_cons, List.not_mem_nil, or_false, not_or] at hplain
  obtain ⟨h₁, h₂, h₃, h₄, h₅, h₆⟩ := hplain
  constructor
  · simp [Scan.step, h₁, h₂, h₃, h₄, h₅, h₆]
  · simp [Scan.step, h₁]

theorem step_plain (hplain : Plain t.value) (hnone : s.declares t = []) : Kept s (s.step t) := by
  obtain ⟨hstack, hmodules⟩ := step_stack (s := s) hplain
  refine ⟨hstack, hmodules, ?_⟩
  show s.found ++ s.declares t = s.found
  rw [hnone, List.append_nil]

/-- A bracket that opens, but no body, goes on the stack. -/
theorem step_open (hopen : t.value ∈ [['{'], ['['], ['(']])
    (hno : t.value = ['{'] → s.opens = false) (hnone : s.declares t = []) :
    (s.step t).stack = .other :: s.stack ∧ (s.step t).modules = s.modules ∧
      (s.step t).found = s.found := by
  have hnot : ¬ (t.value = ['{'] ∧ s.opens) := by
    rintro ⟨heq, hopens⟩
    rw [hno heq] at hopens
    cases hopens
  have hopen' : t.value = ['{'] ∨ t.value = ['['] ∨ t.value = ['('] := by simpa using hopen
  refine ⟨?_, ?_, ?_⟩
  · simp only [Scan.step, if_neg hnot, if_pos hopen']
  · simp only [Scan.step, if_neg hnot]
  · simp only [Scan.step, hnone, List.append_nil]

theorem step_close (hclose : t.value ∈ [['}'], [']'], [')']]) (hnone : s.declares t = []) :
    (s.step t).stack = s.stack.tail ∧ (s.step t).modules = s.modules ∧
      (s.step t).found = s.found := by
  have hclose' : t.value = ['}'] ∨ t.value = [']'] ∨ t.value = [')'] := by simpa using hclose
  have hnot : ¬ (t.value = ['{'] ∨ t.value = ['['] ∨ t.value = ['(']) := by
    rcases hclose' with h | h | h
    all_goals
      rw [h]
      decide
  have hbody : ¬ (t.value = ['{'] ∧ s.opens) := fun h => hnot (Or.inl h.1)
  refine ⟨?_, ?_, ?_⟩
  · simp only [Scan.step, if_neg hbody, if_neg hnot, if_pos hclose']
  · simp only [Scan.step, if_neg hbody]
  · simp only [Scan.step, hnone, List.append_nil]

/-- What stands between brackets of another kind keeps what is around them. -/
theorem kept_between {ts : List Token} {o c : Token} (hopen : o.value ∈ [['{'], ['['], ['(']])
    (hno : o.value = ['{'] → s.opens = false) (ho : s.declares o = [])
    (hinner : Kept (s.step o) (ts.foldl Scan.step (s.step o)))
    (hclose : c.value ∈ [['}'], [']'], [')']]) :
    Kept s ((o :: (ts ++ [c])).foldl Scan.step s) := by
  obtain ⟨hstack, hmodules, hfound⟩ := step_open hopen hno ho
  have hother : (ts.foldl Scan.step (s.step o)).stack = .other :: s.stack :=
    hinner.stack.trans hstack
  obtain ⟨hstack', hmodules', hfound'⟩ := step_close hclose (declares_of_other hother)
  rw [List.foldl_cons, List.foldl_append, List.foldl_cons, List.foldl_nil]
  constructor
  · rw [hstack', hother]
    rfl
  · rw [hmodules', hinner.modules, hmodules]
  · rw [hfound', hinner.found, hfound]

end Steps

/-! ## Types, parameters and fields declare nothing -/

section Phrases

variable {s : Scan} {t : Token} {ts : List Token}

theorem IsIdent.ne_cons {w cs : Text} {c : Char} (h : IsIdent w) (hc : identStart c = false) :
    w ≠ c :: cs := by
  obtain ⟨d, ds, rfl, hd, -⟩ := h
  intro heq
  obtain ⟨rfl, -⟩ := List.cons.inj heq
  rw [hc] at hd
  cases hd

theorem Token.Ok.kind_ne_ident {c : Char} {cs : Text} (h : t.Ok) (hvalue : t.value = c :: cs)
    (hc : identStart c = false) : t.kind ≠ .ident :=
  fun hkind => (h.isIdent hkind).ne_cons hc hvalue

theorem plain_of_isIdent {w : Text} (h : IsIdent w) : Plain w := by
  have hne : ∀ c cs, identStart c = false → w ≠ c :: cs := fun c cs hc => h.ne_cons hc
  simp only [Plain, List.mem_cons, List.not_mem_nil, or_false, not_or]
  exact ⟨hne _ _ rfl, hne _ _ rfl, hne _ _ rfl, hne _ _ rfl, hne _ _ rfl, hne _ _ rfl⟩

theorem not_typeAfter_of_isIdent {w : Text} (h : IsIdent w) : w ∉ ["->".toList, ['?']] := by
  have hne : ∀ c cs, identStart c = false → w ≠ c :: cs := fun c cs hc => h.ne_cons hc
  simp only [List.mem_cons, List.not_mem_nil, or_false, not_or]
  exact ⟨hne _ _ rfl, hne _ _ rfl⟩

/-- What stands in front of a type. -/
def typeMarks : List Text := [[':'], ['?'], ['['], ['{'], "->".toList]

/-- The next token is the first one of a type. -/
def Scan.AtType (s : Scan) : Prop :=
  ∃ b bs, s.before = b :: bs ∧ b.kind ≠ .ident ∧ Keyword.of b.value = none

theorem Token.Ok.typeMark (h : t.Ok) (hmark : t.value ∈ typeMarks) :
    t.kind ≠ .ident ∧ Keyword.of t.value = none := by
  simp only [typeMarks, List.mem_cons, List.not_mem_nil, or_false] at hmark
  rcases hmark with hv | hv | hv | hv | hv
  all_goals
    constructor
    · exact h.kind_ne_ident hv (by decide)
    · rw [hv]
      rfl

theorem atType_step (hok : t.Ok) (hmark : t.value ∈ typeMarks) : (s.step t).AtType :=
  ⟨t, s.before, rfl, hok.typeMark hmark⟩

theorem Scan.AtType.keyword (h : s.AtType) : s.keyword = none := by
  obtain ⟨b, bs, hbefore, -, hof⟩ := h
  rw [Scan.keyword, hbefore]
  simp [hof]

theorem Scan.AtType.opens (h : s.AtType) : s.opens = false := by
  obtain ⟨b, bs, hbefore, hkind, -⟩ := h
  rw [Scan.opens, hbefore]
  cases bs with
  | nil => rfl
  | cons m bs => simp [hkind]

/-- What follows is a new declaration. -/
structure Scan.Between (s : Scan) : Prop where
  keyword : s.keyword = none
  notType : typeAfter s.before = false

theorem between_step (hof : Keyword.of t.value = none) (hno : t.value ∉ ["->".toList, ['?']]) :
    (s.step t).Between := by
  constructor
  · show (if typeAfter s.before then none else Keyword.of t.value) = none
    rw [hof, ite_self]
  · apply decide_eq_false
    simpa using hno

theorem between_concat {c : Token} (ts : List Token) (hof : Keyword.of c.value = none)
    (hno : c.value ∉ ["->".toList, ['?']]) : ((ts ++ [c]).foldl Scan.step s).Between := by
  rw [List.foldl_concat]
  exact between_step hof hno

theorem between_of_typeAfter (hafter : typeAfter s.before = true)
    (hno : t.value ∉ ["->".toList, ['?']]) : (s.step t).Between := by
  constructor
  · show (if typeAfter s.before then none else Keyword.of t.value) = none
    rw [if_pos hafter]
  · apply decide_eq_false
    simpa using hno

/-- A type that follows an arrow or a question mark can be the last of a declaration. -/
theorem scan_type {type : Text} (h : TypeOf ts type) (hok : ∀ t ∈ ts, t.Ok) (hat : s.AtType) :
    Kept s (ts.foldl Scan.step s) ∧
      (typeAfter s.before = true → (ts.foldl Scan.step s).Between) := by
  induction h generalizing s with
  | @name t hkind =>
    have hident := (hok t List.mem_cons_self).isIdent hkind
    refine ⟨step_plain (plain_of_isIdent hident) (declares_of_keyword hat.keyword), ?_⟩
    intro hafter
    exact between_of_typeAfter hafter (not_typeAfter_of_isIdent hident)
  | @optional q ts type hq _ ih =>
    have hstep : Kept s (s.step q) :=
      step_plain (by rw [hq]; decide) (declares_of_keyword hat.keyword)
    obtain ⟨hkept, hbetween⟩ := ih (fun t ht => hok t (List.mem_cons_of_mem _ ht))
      (atType_step (s := s) (hok q List.mem_cons_self) (by rw [hq]; decide))
    refine ⟨hstep.trans hkept, fun _ => hbetween ?_⟩
    exact decide_eq_true (by rw [hq]; decide)
  | @list o c ts inner ho _ hc ih =>
    obtain ⟨hkept, -⟩ := ih (fun t ht => hok t (by simp [ht]))
      (atType_step (s := s) (hok o (by simp)) (by rw [ho]; decide))
    refine ⟨kept_between (by rw [ho]; decide) (fun _ => hat.opens)
      (declares_of_keyword hat.keyword) hkept (by rw [hc]; decide), fun _ => ?_⟩
    exact between_concat (o :: ts) (by rw [hc]; rfl) (by rw [hc]; decide)
  | @map o m c ks vs key val ho _ hm _ hc ihk ihv =>
    obtain ⟨hkey, -⟩ := ihk (fun t ht => hok t (by simp [ht]))
      (atType_step (s := s) (hok o (by simp)) (by rw [ho]; decide))
    have hcolon := hok m (by simp)
    have hm' : m.value ∈ typeMarks := by
      rw [hm]
      decide
    have hstep := step_plain (s := ks.foldl Scan.step (s.step o)) (t := m) (by rw [hm]; decide)
      (declares_of_kind (hcolon.typeMark hm').1)
    obtain ⟨hval, -⟩ := ihv (fun t ht => hok t (by simp [ht]))
      (atType_step (s := ks.foldl Scan.step (s.step o)) hcolon hm')
    have hinner : Kept (s.step o) ((ks ++ m :: vs).foldl Scan.step (s.step o)) := by
      rw [List.foldl_append, List.foldl_cons]
      exact (hkey.trans hstep).trans hval
    rw [show ks ++ m :: (vs ++ [c]) = (ks ++ m :: vs) ++ [c] by simp]
    refine ⟨kept_between (by rw [ho]; decide) (fun _ => hat.opens)
      (declares_of_keyword hat.keyword) hinner (by rw [hc]; decide), fun _ => ?_⟩
    exact between_concat (o :: (ks ++ m :: vs)) (by rw [hc]; rfl) (by rw [hc]; decide)

theorem step_colon (hok : t.Ok) (hv : t.value = [':']) :
    Kept s (s.step t) ∧ (s.step t).AtType := by
  have hmark : t.value ∈ typeMarks := by
    rw [hv]
    decide
  exact ⟨step_plain (by rw [hv]; decide) (declares_of_kind (hok.typeMark hmark).1),
    atType_step hok hmark⟩

/-- Inside a bracket that is no body some tokens declare nothing, and close what they open. -/
def Inside (ts : List Token) : Prop :=
  ∀ (s : Scan) (stack : List Frame), s.stack = .other :: stack → Kept s (ts.foldl Scan.step s)

section Inner

variable {stack : List Frame}

/-- Inside a bracket that is no body a name, a comma and a question mark change nothing. -/
theorem step_inner (hstack : s.stack = .other :: stack) (hplain : Plain t.value) :
    Kept s (s.step t) ∧ (s.step t).stack = .other :: stack := by
  have hkept := step_plain hplain (declares_of_other (t := t) hstack)
  exact ⟨hkept, hkept.stack.trans hstack⟩

theorem steps_inner (ts : List Token) (hstack : s.stack = .other :: stack)
    (hplain : ∀ t ∈ ts, Plain t.value) :
    Kept s (ts.foldl Scan.step s) ∧ (ts.foldl Scan.step s).stack = .other :: stack := by
  induction ts generalizing s with
  | nil => exact ⟨⟨rfl, rfl, rfl⟩, hstack⟩
  | cons t ts ih =>
    obtain ⟨hkept, hstack'⟩ := step_inner hstack (hplain t List.mem_cons_self)
    obtain ⟨hkept', hstack''⟩ := ih hstack' fun t ht => hplain t (List.mem_cons_of_mem _ ht)
    exact ⟨hkept.trans hkept', hstack''⟩

/-- A name, a colon and a type. -/
theorem scan_named {n c : Token} {type : Text} (hstack : s.stack = .other :: stack)
    (hident : n.kind = .ident) (hc : c.value = [':']) (htype : TypeOf ts type)
    (hok : ∀ t ∈ n :: c :: ts, t.Ok) :
    Kept s ((n :: c :: ts).foldl Scan.step s) := by
  obtain ⟨hname, -⟩ := step_inner hstack
    (plain_of_isIdent ((hok n (by simp)).isIdent hident))
  obtain ⟨hcolon, hat⟩ := step_colon (s := s.step n) (hok c (by simp)) hc
  obtain ⟨hrest, -⟩ := scan_type htype (fun t ht => hok t (by simp [ht])) hat
  exact (hname.trans hcolon).trans hrest

theorem inside_params {params : List Param} (h : ParamsOf ts params) (hok : ∀ t ∈ ts, t.Ok) :
    Inside ts := by
  intro s stack hstack
  induction h generalizing s with
  | nil => exact ⟨rfl, rfl, rfl⟩
  | @cons n c sep ts more type params hident hc htype hsep _ ih =>
    have hnamed := scan_named hstack hident hc htype fun t ht => hok t (by
      simp only [List.mem_cons, List.mem_append] at ht ⊢
      tauto)
    obtain ⟨hcomma, hstack'⟩ := steps_inner sep.toList (hnamed.stack.trans hstack) (by
      intro t ht
      rw [hsep t (Option.mem_toList.mp ht)]
      decide)
    have hmore := ih (fun t ht => hok t (by simp [ht])) _ hstack'
    have hall := (hnamed.trans hcomma).trans hmore
    simp only [← List.foldl_append] at hall
    simpa using hall

theorem inside_fields {fields : List Field} (h : FieldsOf ts fields) (hok : ∀ t ∈ ts, t.Ok) :
    Inside ts := by
  intro s stack hstack
  induction h generalizing s with
  | nil => exact ⟨rfl, rfl, rfl⟩
  | @cons q n c ts more type fields hq hident hc htype _ ih =>
    obtain ⟨hmark, hstack'⟩ := steps_inner q.toList hstack (by
      intro t ht
      rw [hq t (Option.mem_toList.mp ht)]
      decide)
    have hnamed := scan_named hstack' hident hc htype fun t ht => hok t (by
      simp only [List.mem_cons, List.mem_append] at ht ⊢
      tauto)
    have hmore := ih (fun t ht => hok t (by simp [ht])) _ (hnamed.stack.trans hstack')
    have hall := (hmark.trans hnamed).trans hmore
    simp only [← List.foldl_append] at hall
    simpa using hall

end Inner

end Phrases

/-! ## Items -/

/-- What an item of a body declares. -/
def Item.declarations (number : ℕ) : Item → List Declaration
  | .property => []
  | .depends => []
  | .type r => [⟨.type, r.name, number⟩]
  | .method m => [⟨.method, m.name, number⟩]
  | .event e => [⟨.event, e.name, number⟩]

/-- A reading between two items, and after an item that declared something. -/
structure Scan.Read (s s' : Scan) (more : List Declaration) : Prop where
  stack : s'.stack = s.stack
  modules : s'.modules = s.modules
  found : s'.found = s.found ++ more
  between : s'.Between

section Items

variable {s : Scan} {ts : List Token} {number : ℕ} {stack : List Frame}

theorem Keyword.of_text (keyword : Keyword) : Keyword.of keyword.text = some keyword := by
  cases keyword <;> rfl

/-- A keyword and the name after it. -/
theorem scan_name {k n : Token} {keyword : Keyword} (hbetween : s.Between)
    (hstack : s.stack = .body number :: stack) (hk : k.value = keyword.text)
    (hident : n.kind = .ident) (hok : n.Ok) :
    ((s.step k).step n).stack = s.stack ∧ ((s.step k).step n).modules = s.modules ∧
      ((s.step k).step n).found = s.found ++ [⟨keyword, n.value, number⟩] ∧
      ((s.step k).step n).opens = false := by
  have hplain : Plain k.value := by
    rw [hk]
    cases keyword <;> decide
  have hkept := step_plain hplain (declares_of_keyword (t := k) hbetween.keyword)
  have hkeyword : (s.step k).keyword = some keyword := by
    show (if typeAfter s.before then none else Keyword.of k.value) = _
    rw [hbetween.notType, hk, Keyword.of_text]
    rfl
  have hname := step_stack (s := s.step k) (plain_of_isIdent (hok.isIdent hident))
  refine ⟨hname.1.trans hkept.stack, hname.2.trans hkept.modules, ?_, ?_⟩
  · show (s.step k).found ++ (s.step k).declares n = _
    rw [hkept.found, declares_of_body (hkept.stack.trans hstack) hkeyword hident]
  · have hne : keyword.text ≠ "module".toList := by cases keyword <;> decide
    show (decide (n.kind = .ident) && decide (k.value = "module".toList)) = false
    rw [hk, decide_eq_false hne, Bool.and_false]

/-- A keyword, a name, and brackets that declare nothing. -/
theorem scan_declaration {k n o c : Token} (keyword : Keyword) (hbetween : s.Between)
    (hstack : s.stack = .body number :: stack) (hk : k.value = keyword.text)
    (hident : n.kind = .ident) (hok : n.Ok) (ho : o.value ∈ [['{'], ['(']]) (hook : o.Ok)
    (hinner : Inside ts) (hc : c.value ∈ [['}'], [')']]) :
    s.Read ((k :: n :: o :: (ts ++ [c])).foldl Scan.step s) [⟨keyword, n.value, number⟩] := by
  obtain ⟨hstack', hmodules, hfound, hopens⟩ := scan_name hbetween hstack hk hident hok
  have ho' : o.value ∈ [['{'], ['['], ['(']] := by
    simp only [List.mem_cons, List.not_mem_nil, or_false] at ho ⊢
    tauto
  have hno : o.kind ≠ .ident := by
    rcases List.mem_pair.mp ho with h | h
    · exact hook.kind_ne_ident h (by decide)
    · exact hook.kind_ne_ident h (by decide)
  have hkept := kept_between ho' (fun _ => hopens) (declares_of_kind hno)
    (hinner _ _ (step_open ho' (fun _ => hopens) (declares_of_kind hno)).1)
    (show c.value ∈ [['}'], [']'], [')']] by
      simp only [List.mem_cons, List.not_mem_nil, or_false] at hc ⊢
      tauto)
  refine ⟨hkept.stack.trans hstack', hkept.modules.trans hmodules, hkept.found.trans hfound, ?_⟩
  rcases List.mem_pair.mp hc with h | h
  · exact between_concat (k :: n :: o :: ts) (by rw [h]; rfl) (by rw [h]; decide)
  · exact between_concat (k :: n :: o :: ts) (by rw [h]; rfl) (by rw [h]; decide)

/-- A token that is neither a bracket nor a keyword. -/
theorem step_between {t : Token} (hbetween : s.Between) (hplain : Plain t.value)
    (hof : Keyword.of t.value = none) (hno : t.value ∉ ["->".toList, ['?']]) :
    Kept s (s.step t) ∧ (s.step t).Between :=
  ⟨step_plain hplain (declares_of_keyword hbetween.keyword), between_step hof hno⟩

/-- A property and its text. -/
theorem scan_property {k v : Token} (hbetween : s.Between)
    (hk : k.value ∈ ["version".toList, "description".toList, "category".toList])
    (hv : v.kind = .str) (hok : v.Ok) : s.Read ([k, v].foldl Scan.step s) [] := by
  have hk' : Plain k.value ∧ Keyword.of k.value = none ∧ k.value ∉ ["->".toList, ['?']] := by
    simp only [List.mem_cons, List.not_mem_nil, or_false] at hk
    rcases hk with hk | hk | hk
    all_goals
      rw [hk]
      decide
  -- a string starts with its quote
  have hv' : Plain v.value ∧ Keyword.of v.value = none ∧ v.value ∉ ["->".toList, ['?']] := by
    have hform := hok.2
    rw [hv] at hform
    obtain ⟨w, hw⟩ := hform
    rw [hw]
    simp [Plain, Keyword.of]
  obtain ⟨hkept, hbetween'⟩ := step_between hbetween hk'.1 hk'.2.1 hk'.2.2
  obtain ⟨hkept', hbetween''⟩ := step_between hbetween' hv'.1 hv'.2.1 hv'.2.2
  have hall := hkept.trans hkept'
  exact ⟨hall.stack, hall.modules, hall.found.trans (List.append_nil _).symm, hbetween''⟩

/-- A list of dependencies. -/
theorem scan_depends {k o c : Token} (hbetween : s.Between)
    (hk : k.value ∈ ["depends".toList, "optional_depends".toList]) (ho : o.value = ['['])
    (hts : ∀ t ∈ ts, t.kind = .ident ∨ t.value = [',']) (hok : ∀ t ∈ ts, t.Ok)
    (hc : c.value = [']']) : s.Read ((k :: o :: (ts ++ [c])).foldl Scan.step s) [] := by
  have hk' : Plain k.value ∧ Keyword.of k.value = none ∧ k.value ∉ ["->".toList, ['?']] := by
    simp only [List.mem_cons, List.not_mem_nil, or_false] at hk
    rcases hk with hk | hk
    all_goals
      rw [hk]
      decide
  obtain ⟨hkept, hbetween'⟩ := step_between hbetween hk'.1 hk'.2.1 hk'.2.2
  have ho' : o.value ∈ [['{'], ['['], ['(']] := by
    rw [ho]
    decide
  have hno : o.value = ['{'] → (s.step k).opens = false := by
    rw [ho]
    exact fun heq => absurd heq (by decide)
  have hnone := declares_of_keyword (t := o) hbetween'.keyword
  obtain ⟨hinner, -⟩ := steps_inner ts (step_open ho' hno hnone).1 (by
    intro t ht
    rcases hts t ht with hident | hcomma
    · exact plain_of_isIdent ((hok t ht).isIdent hident)
    · rw [hcomma]
      decide)
  have hall := hkept.trans (kept_between ho' hno hnone hinner (by rw [hc]; decide))
  exact ⟨hall.stack, hall.modules, hall.found.trans (List.append_nil _).symm,
    between_concat (k :: o :: ts) (by rw [hc]; rfl) (by rw [hc]; decide)⟩

/-- The type a method returns declares nothing more. -/
theorem Scan.Read.returning {s' : Scan} {a : Token} {type : Text} {more : List Declaration}
    (h : s.Read s' more) (ha : a.value = "->".toList) (htype : TypeOf ts type)
    (hok : ∀ t ∈ a :: ts, t.Ok) : s.Read ((a :: ts).foldl Scan.step s') more := by
  have harrow : Kept s' (s'.step a) :=
    step_plain (by rw [ha]; decide) (declares_of_keyword h.between.keyword)
  have hafter : typeAfter (s'.step a).before = true := decide_eq_true (by rw [ha]; decide)
  obtain ⟨hkept, hlast⟩ := scan_type (s := s'.step a) htype (fun t ht => hok t (by simp [ht]))
    (atType_step (hok a (by simp)) (by rw [ha]; decide))
  have hall := harrow.trans hkept
  exact ⟨hall.stack.trans h.stack, hall.modules.trans h.modules, hall.found.trans h.found,
    hlast hafter⟩

theorem scan_item {item : Item} (h : ItemOf ts item) (hok : ∀ t ∈ ts, t.Ok)
    (hbetween : s.Between) (hstack : s.stack = .body number :: stack) :
    s.Read (ts.foldl Scan.step s) (item.declarations number) := by
  cases h with
  | property hk hv => exact scan_property hbetween hk hv (hok _ (by simp))
  | depends hk ho hts hc =>
    exact scan_depends hbetween hk ho hts (fun t ht => hok t (by simp [ht])) hc
  | @type k n o c ts fields hk hident ho hfields hc =>
    have hinside := inside_fields hfields fun t ht => hok t (by simp [ht])
    exact scan_declaration .type hbetween hstack hk hident (hok n (by simp))
      (by rw [ho]; decide) (hok o (by simp)) hinside (by rw [hc]; decide)
  | @method k n o c ts params hk hident ho hparams hc =>
    have hinside := inside_params hparams fun t ht => hok t (by simp [ht])
    exact scan_declaration .method hbetween hstack hk hident (hok n (by simp))
      (by rw [ho]; decide) (hok o (by simp)) hinside (by rw [hc]; decide)
  | @methodReturning k n o c a ts rs params returns hk hident ho hparams hc ha hreturns =>
    have hinside := inside_params hparams fun t ht => hok t (by simp [ht])
    have hmethod := scan_declaration .method hbetween hstack hk hident (hok n (by simp))
      (by rw [ho]; decide) (hok o (by simp)) hinside (by rw [hc]; decide : c.value ∈ _)
    have hsplit : k :: n :: o :: (ts ++ c :: a :: rs) =
        (k :: n :: o :: (ts ++ [c])) ++ (a :: rs) := by simp
    rw [hsplit, List.foldl_append]
    exact hmethod.returning ha hreturns fun t ht => hok t (by
      simp only [List.mem_cons, List.mem_append] at ht ⊢
      tauto)
  | @event k n o c ts params hk hident ho hparams hc =>
    have hinside := inside_params hparams fun t ht => hok t (by simp [ht])
    exact scan_declaration .event hbetween hstack hk hident (hok n (by simp))
      (by rw [ho]; decide) (hok o (by simp)) hinside (by rw [hc]; decide)

theorem scan_items {items : List Item} (h : ItemsOf ts items) (hok : ∀ t ∈ ts, t.Ok)
    (hbetween : s.Between) (hstack : s.stack = .body number :: stack) :
    s.Read (ts.foldl Scan.step s) (items.flatMap (Item.declarations number)) := by
  induction h generalizing s with
  | nil => exact ⟨rfl, rfl, (List.append_nil _).symm, hbetween⟩
  | @cons ts more item items hitem _ ih =>
    have hfirst := scan_item hitem (fun t ht => hok t (List.mem_append_left _ ht)) hbetween hstack
    have hrest := ih (fun t ht => hok t (List.mem_append_right _ ht)) hfirst.between
      (hfirst.stack.trans hstack)
    rw [List.foldl_append, List.flatMap_cons]
    refine ⟨hrest.stack.trans hfirst.stack, hrest.modules.trans hfirst.modules, ?_, hrest.between⟩
    rw [hrest.found, hfirst.found, List.append_assoc]

end Items

/-! ## A contract has what its first module declares -/

/-- The first module has been left. -/
structure Scan.Later (s : Scan) : Prop where
  modules : 1 ≤ s.modules
  stack : ∀ number, .body number ∈ s.stack → 1 ≤ number

theorem Scan.Later.step {s : Scan} (h : s.Later) (t : Token) : (s.step t).Later := by
  constructor
  · show 1 ≤ if t.value = ['{'] ∧ s.opens then s.modules + 1 else s.modules
    have hmodules := h.modules
    split
    · omega
    · exact hmodules
  · intro number hmem
    simp only [Scan.step] at hmem
    split at hmem
    · rcases List.mem_cons.mp hmem with heq | hmem
      · obtain rfl := Frame.body.inj heq
        exact h.modules
      · exact h.stack number hmem
    · split at hmem
      · rcases List.mem_cons.mp hmem with heq | hmem
        · cases heq
        · exact h.stack number hmem
      · split at hmem
        · exact h.stack number (List.mem_of_mem_tail hmem)
        · exact h.stack number hmem

theorem Scan.Later.declares {s : Scan} (h : s.Later) (t : Token) :
    ∀ d ∈ s.declares t, d.module ≠ 0 := by
  intro d hd
  rw [Scan.declares] at hd
  split at hd
  · next number stack keyword hstack _ =>
    split at hd
    · obtain rfl := List.mem_singleton.mp hd
      have hpos := h.stack number (by rw [hstack]; exact List.mem_cons_self)
      exact Nat.one_le_iff_ne_zero.mp hpos
    · cases hd
  · cases hd

/-- Nothing more is found in the first module. -/
theorem scan_later {s : Scan} (ts : List Token) (h : s.Later) :
    ∃ later, (ts.foldl Scan.step s).found = s.found ++ later ∧ ∀ d ∈ later, d.module ≠ 0 := by
  induction ts generalizing s with
  | nil => exact ⟨[], (List.append_nil _).symm, by simp⟩
  | cons t ts ih =>
    obtain ⟨later, hfound, hlater⟩ := ih (h.step t)
    refine ⟨s.declares t ++ later, ?_, ?_⟩
    · rw [List.foldl_cons, hfound]
      exact List.append_assoc _ _ _
    · intro d hd
      rcases List.mem_append.mp hd with hd | hd
      · exact h.declares t d hd
      · exact hlater d hd

/-- The names of the declarations of a contract. -/
def Contract.names (module : Contract) : Keyword → List Text
  | .type => module.types.map (·.name)
  | .method => module.methods.map (·.name)
  | .event => module.events.map (·.name)

theorem names_foldl (items : List Item) (number : ℕ) (module : Contract) (keyword : Keyword) :
    (items.foldl Contract.add module).names keyword = module.names keyword ++
      ((items.flatMap (Item.declarations number)).filter (·.keyword = keyword)).map (·.name) := by
  induction items generalizing module with
  | nil => simp
  | cons item items ih =>
    have hadd : (module.add item).names keyword = module.names keyword ++
        ((item.declarations number).filter (·.keyword = keyword)).map (·.name) := by
      cases item <;> cases keyword <;> simp [Contract.add, Contract.names, Item.declarations]
    rw [List.foldl_cons, ih, hadd, List.flatMap_cons, List.filter_append, List.map_append,
      List.append_assoc]

theorem module_of_mem_flatMap {items : List Item} {number : ℕ} {d : Declaration}
    (h : d ∈ items.flatMap (Item.declarations number)) : d.module = number := by
  obtain ⟨item, -, hd⟩ := List.mem_flatMap.mp h
  cases item with
  | property => cases hd
  | depends => cases hd
  | type _ =>
    obtain rfl := List.mem_singleton.mp hd
    rfl
  | method _ =>
    obtain rfl := List.mem_singleton.mp hd
    rfl
  | event _ =>
    obtain rfl := List.mem_singleton.mp hd
    rfl

theorem readContract_ok {source : Text} {module : Contract} {comments : List (ℕ × Comment)}
    (h : readContract source = .ok (module, comments)) :
    ∃ ts ts', tokenize (splitComments source).1 = .ok ts ∧
      parseModule.run ts = .ok (module, ts') := by
  rw [readContract] at h
  cases htokens : tokenize (splitComments source).1 with
  | error e =>
    simp only [htokens] at h
    cases h
  | ok ts =>
    simp only [htokens] at h
    cases hmodule : parseModule.run ts with
    | error e =>
      simp only [bind, Except.bind, hmodule] at h
      cases h
    | ok r =>
      simp only [bind, Except.bind, hmodule] at h
      obtain ⟨rfl, -⟩ := Prod.mk.inj (Except.ok.inj h)
      exact ⟨ts, r.2, rfl, hmodule⟩

/-- Up to its brace a module declares nothing. -/
theorem scan_begin {k n o : Token} (hk : k.value = "module".toList) (hident : n.kind = .ident)
    (hok : n.Ok) (ho : o.value = ['{']) :
    ∃ s, [k, n, o].foldl Scan.step ⟨[], [], 0, []⟩ = s ∧ s.stack = [.body 0] ∧ s.modules = 1 ∧
      s.found = [] ∧ s.Between := by
  have hkeyword : Kept ⟨[], [], 0, []⟩ (Scan.step ⟨[], [], 0, []⟩ k) :=
    step_plain (by rw [hk]; decide) rfl
  generalize hs : Scan.step ⟨[], [], 0, []⟩ k = s at hkeyword
  have hbefore : s.before = [k] := by
    rw [← hs]
    rfl
  obtain ⟨hstack, hmodules⟩ := step_stack (s := s) (plain_of_isIdent (hok.isIdent hident))
  have hfound : (s.step n).found = [] := by
    show s.found ++ s.declares n = []
    have hnone : s.declares n = [] := by
      rw [Scan.declares, hkeyword.stack]
    rw [hnone, hkeyword.found]
    rfl
  have hopens : (s.step n).opens = true := by
    show (match n :: s.before with
      | n :: m :: _ => n.kind = .ident && m.value = "module".toList
      | _ => false) = true
    rw [hbefore]
    simp [hident, hk]
  have hdeclares : (s.step n).declares o = [] := by
    rw [Scan.declares, hstack, hkeyword.stack]
  refine ⟨_, by rw [List.foldl_cons, hs], ?_, ?_, ?_, ?_⟩
  · show (if o.value = ['{'] ∧ (s.step n).opens then _ else _) = _
    rw [if_pos ⟨ho, hopens⟩, hstack, hmodules, hkeyword.stack, hkeyword.modules]
  · show (if o.value = ['{'] ∧ (s.step n).opens then _ else _) = _
    rw [if_pos ⟨ho, hopens⟩, hmodules, hkeyword.modules]
  · show (s.step n).found ++ (s.step n).declares o = []
    rw [hfound, hdeclares]
    rfl
  · exact between_step (by rw [ho]; rfl) (by rw [ho]; decide)

/-- What the parser keeps are the declarations of the first module. -/
theorem declarations_spec {source : Text} {module : Contract} {comments : List (ℕ × Comment)}
    (h : readContract source = .ok (module, comments)) :
    ∃ first later, declarations source = first ++ later ∧ (∀ d ∈ first, d.module = 0) ∧
      (∀ d ∈ later, d.module ≠ 0) ∧
      ∀ keyword, (first.filter (·.keyword = keyword)).map (·.name) = module.names keyword := by
  obtain ⟨ts, ts', htokens, hmodule⟩ := readContract_ok h
  have hok := tokenize_wellFormed htokens
  obtain ⟨k, n, o, used, c, items, rfl, hk, hident, ho, hc, hitems, rfl⟩ :=
    parseModule_spec hmodule
  obtain ⟨s, hs, hstack, hmodules, hfound, hbetween⟩ := scan_begin hk hident (hok n (by simp)) ho
  have hbody := scan_items hitems (fun t ht => hok t (by simp [ht])) hbetween hstack
  have hbrace : c.value ∈ [['}'], [']'], [')']] := by
    rw [hc]
    decide
  obtain ⟨hstack', hmodules', hfound'⟩ :=
    step_close hbrace (declares_of_keyword (t := c) hbody.between.keyword)
  -- the brace leaves nothing open, and the number of the first module is taken
  have hlater : ((used.foldl Scan.step s).step c).Later := by
    constructor
    · rw [hmodules', hbody.modules, hmodules]
    · intro number hmem
      rw [hstack', hbody.stack, hstack] at hmem
      cases hmem
  obtain ⟨later, hrest, hnot⟩ := scan_later ts' hlater
  have hdeclarations : declarations source =
      items.flatMap (Item.declarations 0) ++ later := by
    have hsplit : k :: n :: o :: (used ++ c :: ts') = [k, n, o] ++ (used ++ c :: ts') := rfl
    rw [declarations, htokens, hsplit]
    dsimp only
    rw [List.foldl_append, hs, List.foldl_append, List.foldl_cons, hrest, hfound', hbody.found,
      hfound, List.nil_append]
  refine ⟨_, later, hdeclarations, fun d hd => module_of_mem_flatMap hd, hnot, ?_⟩
  intro keyword
  rw [names_foldl items 0]
  cases keyword <;> rfl

/-! ## A reference shows what the contract has -/

theorem mem_join {sep : Text} {parts : List Text} {c : Char} (h : c ∈ join sep parts) :
    c ∈ sep ∨ ∃ part ∈ parts, c ∈ part := by
  induction parts with
  | nil => cases h
  | cons part parts ih =>
    cases parts with
    | nil =>
      rw [join, List.intercalate_singleton] at h
      exact Or.inr ⟨part, List.mem_cons_self, h⟩
    | cons next parts =>
      rw [join, List.intercalate_cons_cons, List.mem_append, List.mem_append] at h
      rcases h with (h | h) | h
      · exact Or.inr ⟨part, List.mem_cons_self, h⟩
      · exact Or.inl h
      · rcases ih h with h | ⟨p, hp, h⟩
        · exact Or.inl h
        · exact Or.inr ⟨p, List.mem_cons_of_mem _ hp, h⟩

/-- The text of the parameters. -/
theorem mem_params {params : List Param} {c : Char}
    (hok : ∀ p ∈ params, IsIdent p.name ∧ IsType p.type)
    (h : c ∈ join ", ".toList (params.map fun p => p.name ++ ": ".toList ++ p.type)) :
    typeChar c ∨ c = ',' := by
  rcases mem_join h with hsep | ⟨part, hpart, hc⟩
  · have hall : ∀ c ∈ ", ".toList, typeChar c ∨ c = ',' :=
      List.all_iff_forall_prop.mp (by decide)
    exact hall c hsep
  · left
    obtain ⟨p, hp, rfl⟩ := List.mem_map.mp hpart
    rw [List.mem_append, List.mem_append] at hc
    rcases hc with (hc | hc) | hc
    · exact typeChar_of_identPart ((hok p hp).1.identPart_of_mem c hc)
    · have hall : ∀ c ∈ ": ".toList, typeChar c := List.all_iff_forall_prop.mp (by decide)
      exact hall c hc
    · exact (hok p hp).2.typeChar_of_mem c hc

theorem not_mem_signature {decl : Callable} (h : decl.Ok) : '\n' ∉ signature decl := by
  have hno : ¬ typeChar '\n' := by decide
  rw [signature_eq, List.mem_append, List.mem_append, List.mem_append, List.mem_append]
  rintro ((((hc | hc) | hc) | hc) | hc)
  · exact hno (typeChar_of_identPart (h.name.identPart_of_mem _ hc))
  · exact absurd hc (by decide)
  · rcases mem_params h.params hc with hc | hc
    · exact hno hc
    · exact absurd hc (by decide)
  · exact absurd hc (by decide)
  · split at hc
    · next returns hreturns =>
      split at hc
      · rcases List.mem_append.mp hc with hc | hc
        · exact absurd hc (by decide)
        · exact hno ((h.returns returns hreturns).typeChar_of_mem _ hc)
      · cases hc
    · cases hc

/-- A directive at the beginning of a line declares the name after it. -/
theorem directiveName_directive {objtype name more : Text} (hname : IsIdent name)
    (hmore : ∀ c ∈ more.head?, identPart c = false) :
    directiveName objtype (directive objtype ++ (name ++ more)) = some name := by
  rw [directiveName, if_pos (List.prefix_append _ _), List.drop_left]
  congr 1
  rw [List.takeWhile_append_of_pos hname.identPart_of_mem]
  cases more with
  | nil => simp
  | cons c more => simp [hmore c (by simp)]

theorem directiveName_indented {objtype line : Text} (h : Indented line) :
    directiveName objtype line = none := by
  rw [directiveName, if_neg]
  rintro ⟨more, rfl⟩
  have hdot : '.' = ' ' := h '.' rfl
  cases hdot

/-- A block declares what its first line does. -/
theorem directiveNames_block {objtype text first name : Text} {below : List Text}
    (hlines : lines text = first :: below) (hfirst : directiveName objtype first = some name)
    (hbelow : ∀ line ∈ below, Indented line) : directiveNames objtype text = [name] := by
  have hnone : below.filterMap (directiveName objtype) = [] :=
    List.filterMap_eq_nil_iff.mpr fun line hline => directiveName_indented (hbelow line hline)
  rw [directiveNames, hlines, List.filterMap_cons, hfirst, hnone]

theorem directiveNames_join (objtype : Text) (blocks : List Text) :
    directiveNames objtype (join ['\n'] blocks) = blocks.flatMap (directiveNames objtype) := by
  by_cases hnil : blocks = []
  · subst hnil
    have hblank : directiveName objtype [] = none := directiveName_indented (by simp [Indented])
    show [[]].filterMap (directiveName objtype) = []
    rw [List.filterMap_cons, hblank]
    rfl
  · rw [directiveNames, lines_join hnil, List.filterMap_flatMap]
    rfl

section Shown

variable {A : Alphabet} {comments : List (ℕ × Comment)} {sourceName : Text}

theorem directiveNames_callable {decl : Callable} {keyword : Keyword} (h : decl.Ok) :
    directiveNames keyword.objtype (renderCallable A decl comments keyword.objtype) =
      [decl.name] := by
  have hno : '\n' ∉ directive keyword.objtype ++ signature decl := by
    rw [List.mem_append]
    rintro (hmem | hmem)
    · cases keyword <;> exact absurd hmem (by decide)
    · exact not_mem_signature h hmem
  obtain ⟨below, hlines, hbelow⟩ := lines_renderCallable A comments hno
  refine directiveNames_block hlines ?_ hbelow
  rw [signature_eq]
  simp only [List.append_assoc]
  exact directiveName_directive h.name (by rintro c ⟨⟩; decide)

theorem directiveNames_record {decl : Record} (h : IsIdent decl.name) :
    directiveNames "record".toList (renderRecord A decl comments) = [decl.name] := by
  have hno : '\n' ∉ directive "record".toList ++ decl.name := by
    rw [List.mem_append]
    rintro (hmem | hmem)
    · exact absurd hmem (by decide)
    · exact absurd (h.identPart_of_mem _ hmem) (by decide)
  obtain ⟨below, hlines, hbelow⟩ := lines_renderRecord A comments hno
  refine directiveNames_block hlines ?_ hbelow
  have hname : directiveName "record".toList (directive "record".toList ++ (decl.name ++ [])) =
      some decl.name := directiveName_directive h (by simp)
  rwa [List.append_nil] at hname

/-- Blocks that declare one name each. -/
theorem directiveNames_blocks {α : Type} {objtype : Text} {decls : List α} {block name : α → Text}
    (h : ∀ decl ∈ decls, directiveNames objtype (block decl) = [name decl]) :
    directiveNames objtype (join ['\n'] (decls.map block)) = decls.map name := by
  rw [directiveNames_join, List.flatMap_map]
  induction decls with
  | nil => rfl
  | cons decl decls ih =>
    rw [List.flatMap_cons, h decl List.mem_cons_self,
      ih fun decl hmem => h decl (List.mem_cons_of_mem _ hmem)]
    rfl

/-- Every declaration of a contract is shown once, in order. -/
theorem shown_render {module : Contract} (hrecords : ∀ r ∈ module.types, IsIdent r.name)
    (hdecls : ∀ decl ∈ module.methods ++ module.events, decl.Ok) (keyword : Keyword) :
    shown sourceName keyword (render A module comments sourceName) = module.names keyword := by
  have hshown : ∀ text, directiveNames keyword.objtype
      ((header sourceName ++ text).drop (header sourceName).length) =
        directiveNames keyword.objtype text := fun text => by rw [List.drop_left]
  cases keyword with
  | type =>
    refine (hshown _).trans (directiveNames_blocks ?_)
    exact fun r hr => directiveNames_record (hrecords r hr)
  | method =>
    refine (hshown _).trans (directiveNames_blocks ?_)
    exact fun m hm => directiveNames_callable (hdecls m (List.mem_append_left _ hm))
  | event =>
    refine (hshown _).trans (directiveNames_blocks ?_)
    exact fun e he => directiveNames_callable (hdecls e (List.mem_append_right _ he))

end Shown

/-! ## When the reference is complete -/

theorem main_ok {A : Alphabet} {sourceName source : Text} {files : List (Text × Text)}
    (h : main A sourceName source = .ok files) :
    ∃ module comments, readContract source = .ok (module, comments) ∧
      files = render A module comments sourceName := by
  rw [main] at h
  split at h
  · cases h
  · cases h
  · next module comments hread =>
    dsimp only at h
    split at h
    · cases h
    · split at h
      · cases h
      · exact ⟨module, comments, hread, (Except.ok.inj h).symm⟩

/-- The files show every declaration of the source, each as often as it is declared and in
order, if and only if nothing is declared after the first module. -/
theorem complete_iff {A : Alphabet} {sourceName source : Text} {files : List (Text × Text)}
    (h : main A sourceName source = .ok files) :
    (∀ keyword, shown sourceName keyword files = declared keyword source) ↔
      ∀ d ∈ declarations source, d.module = 0 := by
  obtain ⟨module, comments, hread, rfl⟩ := main_ok h
  obtain ⟨ts, ts', htokens, hmodule⟩ := readContract_ok hread
  obtain ⟨hrecords, hdecls⟩ := parseModule_ok (tokenize_wellFormed htokens) hmodule
  obtain ⟨first, later, hall, hfirst, hlater, hnames⟩ := declarations_spec hread
  have hdeclared : ∀ keyword, declared keyword source =
      module.names keyword ++ (later.filter (·.keyword = keyword)).map (·.name) := by
    intro keyword
    rw [declared, hall, List.filter_append, List.map_append, hnames]
  constructor
  · intro hshown
    have hnone : later = [] := by
      rw [List.eq_nil_iff_forall_not_mem]
      intro d hd
      have heq := hshown d.keyword
      rw [shown_render hrecords hdecls, hdeclared, List.self_eq_append_right, List.map_eq_nil_iff,
        List.filter_eq_nil_iff] at heq
      exact heq d hd (decide_eq_true rfl)
    rw [hall, hnone, List.append_nil]
    exact hfirst
  · intro hmodule keyword
    have hnone : later = [] := by
      rw [List.eq_nil_iff_forall_not_mem]
      intro d hd
      exact hlater d hd (hmodule d (by rw [hall]; exact List.mem_append_right _ hd))
    rw [shown_render hrecords hdecls, hdeclared, hnone]
    simp

/-- A module with a record, two methods and an event. -/
def oneModule : Text :=
  ("module a \x7b\n  type R \x7b x: T \x7d\n" ++
    "  method f(x: R) -> T\n  method g()\n  event e(x: R)\n\x7d").toList

def oneContract : Contract where
  name := ['a']
  line := 1
  types := [⟨['R'], 2, [⟨['x'], ['T'], false, 2⟩]⟩]
  methods := [⟨['f'], 3, [⟨['x'], ['R']⟩], some ['T']⟩, ⟨['g'], 4, [], none⟩]
  events := [⟨['e'], 5, [⟨['x'], ['R']⟩], none⟩]

theorem readContract_oneModule : readContract oneModule = .ok (oneContract, []) := by
  decide +kernel

theorem main_oneModule : main .latin "chat_module.lidl".toList oneModule =
    .ok (render .latin oneContract [] "chat_module.lidl".toList) := by
  have hcount : countDeclarations .latin oneModule = ⟨oneContract.types.length,
      oneContract.methods.length, oneContract.events.length⟩ := by
    decide +kernel
  have hclashes : clashingAnchors oneContract = [] := by decide
  rw [main, readContract_oneModule]
  dsimp only
  rw [hcount, if_neg (not_not.mpr rfl), if_neg (not_not.mpr hclashes)]

theorem declarations_oneModule : (declarations oneModule).map (fun d => (d.keyword, d.name)) =
      [(.type, ['R']), (.method, ['f']), (.method, ['g']), (.event, ['e'])] ∧
    ∀ d ∈ declarations oneModule, d.module = 0 := by
  decide +kernel

theorem complete_oneModule : ∃ files, main .latin "chat_module.lidl".toList oneModule = .ok files ∧
    (declarations oneModule).map (fun d => (d.keyword, d.name)) =
      [(.type, ['R']), (.method, ['f']), (.method, ['g']), (.event, ['e'])] ∧
    ∀ keyword, shown "chat_module.lidl".toList keyword files = declared keyword oneModule :=
  ⟨_, main_oneModule, declarations_oneModule.1,
    (complete_iff main_oneModule).mpr declarations_oneModule.2⟩

/-- Two modules, `module a { method f() }` with the method on the line of the brace, and
`module b { method h() }` with the method on a line of its own. -/
def twoModules : Text :=
  "module a \x7b method f()\n\x7d\nmodule b \x7b\n  method h()\n\x7d".toList

/-- The one declaration at the beginning of a line is counted and the other one is parsed, so
that the numbers agree, and `h` is left out. -/
theorem incomplete_twoModules :
    ∃ files, main .latin "chat_module.lidl".toList twoModules = .ok files ∧
      ¬ ∀ keyword, shown "chat_module.lidl".toList keyword files = declared keyword twoModules := by
  have hmain : main .latin "chat_module.lidl".toList twoModules =
      .ok (render .latin ⟨['a'], 1, [], [⟨['f'], 1, [], none⟩], []⟩ []
        "chat_module.lidl".toList) := by
    decide +kernel
  refine ⟨_, hmain, ?_⟩
  intro hshown
  exact absurd (hshown .method) (by decide +kernel)

end ChatModule.Docs
