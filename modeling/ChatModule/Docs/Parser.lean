import ChatModule.Docs.Lexer

/-!
# The contract parser

The parser is a state, the tokens ahead, that its methods move on. A loop and the recursion
on types run on a budget, which each takes from the number of tokens ahead and which always
suffices (`parseModule_recurses`).

What a declaration may be is `TypeOf`, `ParamsOf`, `FieldsOf` and `ItemOf`, and what a module
may be `ModuleOf`, a grammar over tokens. What the parser reads it has derived
(`parseModule_derived`), in order and with nothing left out up to the closing brace of the
module (`parseModule_spec`).
-/

namespace ChatModule.Docs

/-! ## The tree -/

/-- A field of a record. -/
structure Field where
  name : Text
  type : Text
  optional : Bool
  line : ℕ
deriving DecidableEq, Repr

/-- A `type` declaration. -/
structure Record where
  name : Text
  line : ℕ
  fields : List Field
deriving DecidableEq, Repr

/-- A parameter. -/
structure Param where
  name : Text
  type : Text
deriving DecidableEq, Repr

/-- A `method` or `event` declaration. An event returns nothing. -/
structure Callable where
  name : Text
  line : ℕ
  params : List Param
  returns : Option Text
deriving DecidableEq, Repr

/-- What `parse_module` returns. -/
structure Contract where
  name : Text
  line : ℕ
  types : List Record
  methods : List Callable
  events : List Callable
deriving DecidableEq, Repr

/-! ## The parser's state -/

/-- A method of the parser, which holds the tokens ahead. -/
abbrev Parser := StateT (List Token) (Except Raised)

def peek : Parser Token
  | [] => .error .indexError
  | t :: ts => .ok (t, t :: ts)

def next : Parser Token
  | [] => .error .indexError
  | t :: ts => .ok (t, ts)

def expect (kind : Kind) (value : Option Text) : Parser (Text × ℕ) := do
  let t ← next
  if t.kind ≠ kind ∨ value.any (· ≠ t.value) then
    throw (.lidl (.expected t.line kind value t.value))
  else
    return (t.value, t.line)

def accept (value : Text) : Parser Bool := do
  let t ← peek
  if t.value = value then
    let _ ← next
    return true
  return false

/-- How many tokens are ahead. -/
def ahead : Parser ℕ := fun ts => .ok (ts.length, ts)

/-! ## Declarations -/

/-- `parse_type_expr`. -/
def parseTypeExprIn : ℕ → Parser Text
  | 0 => throw .recursionError
  | depth + 1 => do
    let t ← next
    if t.value = ['?'] then
      return '?' :: (← parseTypeExprIn depth)
    if t.value = ['['] then
      let inner ← parseTypeExprIn depth
      let _ ← expect .punct (some [']'])
      return '[' :: inner ++ [']']
    if t.value = ['{'] then
      let key ← parseTypeExprIn depth
      let _ ← expect .punct (some [':'])
      let val ← parseTypeExprIn depth
      let _ ← expect .punct (some ['}'])
      return '{' :: key ++ ':' :: ' ' :: val ++ ['}']
    if t.kind = .ident then
      return t.value
    throw (.lidl (.expectedType t.line t.value))

def parseTypeExpr : Parser Text := do parseTypeExprIn ((← ahead) + 1)

/-- The loop of `parse_params`. -/
def parseParamsIn : ℕ → List Param → Parser (List Param)
  | 0, _ => throw .recursionError
  | turns + 1, params => do
    if ← accept [')'] then
      return params
    let (pname, _) ← expect .ident none
    let _ ← expect .punct (some [':'])
    let type ← parseTypeExpr
    let _ ← accept [',']
    parseParamsIn turns (params ++ [⟨pname, type⟩])

def parseParams : Parser (List Param) := do
  let _ ← expect .punct (some ['('])
  parseParamsIn ((← ahead) + 1) []

/-- The loop of `parse_type`. -/
def parseFieldsIn : ℕ → List Field → Parser (List Field)
  | 0, _ => throw .recursionError
  | turns + 1, fields => do
    if ← accept ['}'] then
      return fields
    let optional ← accept ['?']
    let (fname, fline) ← expect .ident none
    let _ ← expect .punct (some [':'])
    let ftype ← parseTypeExpr
    parseFieldsIn turns (fields ++ [⟨fname, ftype, optional || ftype.head? = some '?', fline⟩])

/-- `parse_type`. -/
def parseType : Parser Record := do
  let (_, line) ← expect .ident (some "type".toList)
  let (name, _) ← expect .ident none
  let _ ← expect .punct (some ['{'])
  let fields ← parseFieldsIn ((← ahead) + 1) []
  return ⟨name, line, fields⟩

/-- `parse_method`. -/
def parseMethod : Parser Callable := do
  let (_, line) ← expect .ident (some "method".toList)
  let (name, _) ← expect .ident none
  let params ← parseParams
  if ← accept "->".toList then
    let returns ← parseTypeExpr
    return ⟨name, line, params, some returns⟩
  return ⟨name, line, params, none⟩

/-- `parse_event`. -/
def parseEvent : Parser Callable := do
  let (_, line) ← expect .ident (some "event".toList)
  let (name, _) ← expect .ident none
  let params ← parseParams
  return ⟨name, line, params, none⟩

/-- The loop over a list of dependencies. -/
def parseDependsIn : ℕ → Parser Unit
  | 0 => throw .recursionError
  | turns + 1 => do
    if ← accept [']'] then
      return
    let _ ← expect .ident none
    let _ ← accept [',']
    parseDependsIn turns

/-- The loop of `parse_module`. -/
def parseItemsIn : ℕ → Contract → Parser Contract
  | 0, _ => throw .recursionError
  | turns + 1, module => do
    if ← accept ['}'] then
      return module
    let t ← peek
    if t.kind = .eof then
      throw (.lidl .unclosedModule)
    else if t.value ∈ ["version".toList, "description".toList, "category".toList] then
      let _ ← next
      let _ ← expect .str none
      parseItemsIn turns module
    else if t.value ∈ ["depends".toList, "optional_depends".toList] then
      let _ ← next
      let _ ← expect .punct (some ['['])
      parseDependsIn ((← ahead) + 1)
      parseItemsIn turns module
    else if t.value = "type".toList then
      let record ← parseType
      parseItemsIn turns { module with types := module.types ++ [record] }
    else if t.value = "method".toList then
      let method ← parseMethod
      parseItemsIn turns { module with methods := module.methods ++ [method] }
    else if t.value = "event".toList then
      let event ← parseEvent
      parseItemsIn turns { module with events := module.events ++ [event] }
    else
      throw (.lidl (.unexpectedDeclaration t.line t.value))

/-- `parse_module`. -/
def parseModule : Parser Contract := do
  let _ ← expect .ident (some "module".toList)
  let (name, line) ← expect .ident none
  let _ ← expect .punct (some ['{'])
  parseItemsIn ((← ahead) + 1) ⟨name, line, [], [], []⟩

/-! ## What is read -/

section Reading

variable {α β : Type} {ts ts' : List Token}

theorem bind_ok {x : Parser α} {f : α → Parser β} {b : β} :
    (x >>= f).run ts = .ok (b, ts') ↔
      ∃ a ts₁, x.run ts = .ok (a, ts₁) ∧ (f a).run ts₁ = .ok (b, ts') := by
  rw [StateT.run_bind]
  cases x.run ts with
  | error e => simp [bind, Except.bind]
  | ok r =>
    obtain ⟨a, ts₁⟩ := r
    simp [bind, Except.bind]

theorem pure_ok {a b : α} : (pure a : Parser α).run ts = .ok (b, ts') ↔ b = a ∧ ts' = ts := by
  rw [StateT.run_pure]
  show Except.ok (a, ts) = .ok (b, ts') ↔ _
  simp [eq_comm]

theorem not_throw_ok {e : Raised} {b : α} : ¬ (throw e : Parser α).run ts = .ok (b, ts') := by
  simp [throw, throwThe, MonadExceptOf.throw, StateT.run, StateT.lift, bind, Except.bind]

theorem next_ok {t : Token} : next.run ts = .ok (t, ts') ↔ ts = t :: ts' := by
  cases ts with
  | nil => simp [next, StateT.run]
  | cons u us => simp [next, StateT.run]

theorem peek_ok {t : Token} : peek.run ts = .ok (t, ts') ↔ ∃ us, ts = t :: us ∧ ts' = ts := by
  cases ts with
  | nil => simp [peek, StateT.run]
  | cons u us =>
    simp [peek, StateT.run, eq_comm]

theorem ahead_ok {n : ℕ} : ahead.run ts = .ok (n, ts') ↔ n = ts.length ∧ ts' = ts := by
  simp [ahead, StateT.run, eq_comm]

theorem expect_ok {kind : Kind} {value : Option Text} {r : Text × ℕ} :
    (expect kind value).run ts = .ok (r, ts') ↔
      ∃ t, ts = t :: ts' ∧ t.kind = kind ∧ (∀ v ∈ value, t.value = v) ∧ r = (t.value, t.line) := by
  unfold expect
  rw [bind_ok]
  constructor
  · rintro ⟨t, ts₁, hnext, h⟩
    split at h
    · exact absurd h not_throw_ok
    · next hnot =>
      obtain ⟨rfl, rfl⟩ := pure_ok.mp h
      refine ⟨t, next_ok.mp hnext, ?_, ?_, rfl⟩
      · by_contra hkind
        exact hnot (Or.inl hkind)
      · rintro v rfl
        by_contra hv
        exact hnot (Or.inr (decide_eq_true (Ne.symm hv)))
  · rintro ⟨t, rfl, hkind, hvalue, rfl⟩
    refine ⟨t, ts', next_ok.mpr rfl, ?_⟩
    rw [if_neg]
    · exact pure_ok.mpr ⟨rfl, rfl⟩
    · rintro (hne | hany)
      · exact hne hkind
      · cases value with
        | none => cases hany
        | some v => exact of_decide_eq_true hany (hvalue v rfl).symm

theorem accept_ok {v : Text} {b : Bool} : (accept v).run ts = .ok (b, ts') ↔
    ∃ t us, ts = t :: us ∧
      (b = true ∧ t.value = v ∧ ts' = us ∨ b = false ∧ t.value ≠ v ∧ ts' = ts) := by
  unfold accept
  rw [bind_ok]
  constructor
  · rintro ⟨t, ts₁, hpeek, h⟩
    obtain ⟨us, rfl, rfl⟩ := peek_ok.mp hpeek
    refine ⟨t, us, rfl, ?_⟩
    split at h
    · next hv =>
      obtain ⟨t', ts₂, hnext, h⟩ := bind_ok.mp h
      obtain ⟨rfl, rfl⟩ := pure_ok.mp h
      obtain ⟨rfl, rfl⟩ := List.cons.inj (next_ok.mp hnext)
      exact Or.inl ⟨rfl, hv, rfl⟩
    · next hv =>
      obtain ⟨rfl, rfl⟩ := pure_ok.mp h
      exact Or.inr ⟨rfl, hv, rfl⟩
  · rintro ⟨t, us, rfl, hcase⟩
    refine ⟨t, _, peek_ok.mpr ⟨us, rfl, rfl⟩, ?_⟩
    rcases hcase with ⟨rfl, hv, rfl⟩ | ⟨rfl, hv, rfl⟩
    · rw [if_pos hv, bind_ok]
      exact ⟨t, _, next_ok.mpr rfl, pure_ok.mpr ⟨rfl, rfl⟩⟩
    · rw [if_neg hv]
      exact pure_ok.mpr ⟨rfl, rfl⟩

end Reading

/-! ## The grammar -/

/-- The tokens of a type, and the text it is kept as. -/
inductive TypeOf : List Token → Text → Prop
  | name {t : Token} : t.kind = .ident → TypeOf [t] t.value
  | optional {q : Token} {ts : List Token} {type : Text} :
      q.value = ['?'] → TypeOf ts type → TypeOf (q :: ts) ('?' :: type)
  | list {o c : Token} {ts : List Token} {inner : Text} :
      o.value = ['['] → TypeOf ts inner → c.value = [']'] →
      TypeOf (o :: (ts ++ [c])) ('[' :: inner ++ [']'])
  | map {o m c : Token} {ks vs : List Token} {key val : Text} :
      o.value = ['{'] → TypeOf ks key → m.value = [':'] → TypeOf vs val → c.value = ['}'] →
      TypeOf (o :: (ks ++ m :: (vs ++ [c]))) ('{' :: key ++ ':' :: ' ' :: val ++ ['}'])

/-- The tokens between the parentheses of a method or event. -/
inductive ParamsOf : List Token → List Param → Prop
  | nil : ParamsOf [] []
  | cons {n c : Token} {sep : Option Token} {ts more : List Token} {type : Text}
      {params : List Param} :
      n.kind = .ident → c.value = [':'] → TypeOf ts type → (∀ t ∈ sep, t.value = [',']) →
      ParamsOf more params →
      ParamsOf (n :: c :: (ts ++ (sep.toList ++ more))) (⟨n.value, type⟩ :: params)

/-- The tokens between the braces of a record. -/
inductive FieldsOf : List Token → List Field → Prop
  | nil : FieldsOf [] []
  | cons {q : Option Token} {n c : Token} {ts more : List Token} {type : Text}
      {fields : List Field} :
      (∀ t ∈ q, t.value = ['?']) → n.kind = .ident → c.value = [':'] → TypeOf ts type →
      FieldsOf more fields →
      FieldsOf (q.toList ++ n :: c :: (ts ++ more))
        (⟨n.value, type, q.isSome || type.head? = some '?', n.line⟩ :: fields)

/-- What stands in the body of a module. -/
inductive Item
  | property
  | depends
  | type (record : Record)
  | method (method : Callable)
  | event (event : Callable)

/-- The tokens of an item. -/
inductive ItemOf : List Token → Item → Prop
  | property {k s : Token} :
      k.value ∈ ["version".toList, "description".toList, "category".toList] → s.kind = .str →
      ItemOf [k, s] .property
  | depends {k o c : Token} {ts : List Token} :
      k.value ∈ ["depends".toList, "optional_depends".toList] → o.value = ['['] →
      (∀ t ∈ ts, t.kind = .ident ∨ t.value = [',']) → c.value = [']'] →
      ItemOf (k :: o :: (ts ++ [c])) .depends
  | type {k n o c : Token} {ts : List Token} {fields : List Field} :
      k.value = "type".toList → n.kind = .ident → o.value = ['{'] → FieldsOf ts fields →
      c.value = ['}'] → ItemOf (k :: n :: o :: (ts ++ [c])) (.type ⟨n.value, k.line, fields⟩)
  | method {k n o c : Token} {ts : List Token} {params : List Param} :
      k.value = "method".toList → n.kind = .ident → o.value = ['('] → ParamsOf ts params →
      c.value = [')'] →
      ItemOf (k :: n :: o :: (ts ++ [c])) (.method ⟨n.value, k.line, params, none⟩)
  | methodReturning {k n o c a : Token} {ts rs : List Token} {params : List Param}
      {returns : Text} :
      k.value = "method".toList → n.kind = .ident → o.value = ['('] → ParamsOf ts params →
      c.value = [')'] → a.value = "->".toList → TypeOf rs returns →
      ItemOf (k :: n :: o :: (ts ++ c :: a :: rs))
        (.method ⟨n.value, k.line, params, some returns⟩)
  | event {k n o c : Token} {ts : List Token} {params : List Param} :
      k.value = "event".toList → n.kind = .ident → o.value = ['('] → ParamsOf ts params →
      c.value = [')'] →
      ItemOf (k :: n :: o :: (ts ++ [c])) (.event ⟨n.value, k.line, params, none⟩)

/-- The tokens of a body. -/
inductive ItemsOf : List Token → List Item → Prop
  | nil : ItemsOf [] []
  | cons {ts more : List Token} {item : Item} {items : List Item} :
      ItemOf ts item → ItemsOf more items → ItemsOf (ts ++ more) (item :: items)

/-- An item read, added to the contract. -/
def Contract.add (module : Contract) : Item → Contract
  | .property => module
  | .depends => module
  | .type record => { module with types := module.types ++ [record] }
  | .method method => { module with methods := module.methods ++ [method] }
  | .event event => { module with events := module.events ++ [event] }

/-- The tokens between the brackets of a list of dependencies, exactly: the names stand with at
most one comma after each, which `ItemOf` leaves open. -/
inductive NamesOf : List Token → Prop
  | nil : NamesOf []
  | cons {n : Token} {sep : Option Token} {more : List Token} :
      n.kind = .ident → (∀ t ∈ sep, t.value = [',']) → NamesOf more →
      NamesOf (n :: (sep.toList ++ more))

/-- The tokens of a body, with its dependencies exactly. -/
inductive BodyOf : List Token → List Item → Prop
  | nil : BodyOf [] []
  | item {ts more : List Token} {item : Item} {items : List Item} :
      ItemOf ts item → item ≠ .depends → BodyOf more items → BodyOf (ts ++ more) (item :: items)
  | depends {k o c : Token} {ts more : List Token} {items : List Item} :
      k.value ∈ ["depends".toList, "optional_depends".toList] → o.value = ['['] → NamesOf ts →
      c.value = [']'] → BodyOf more items →
      BodyOf (k :: o :: (ts ++ c :: more)) (.depends :: items)

/-- The tokens of a module. -/
inductive ModuleOf : List Token → Contract → Prop
  | intro {k n o c : Token} {ts : List Token} {items : List Item} :
      k.value = "module".toList → n.kind = .ident → o.value = ['{'] → BodyOf ts items →
      c.value = ['}'] →
      ModuleOf (k :: n :: o :: (ts ++ [c])) (items.foldl Contract.add ⟨n.value, n.line, [], [], []⟩)

theorem NamesOf.separated {ts : List Token} (h : NamesOf ts) :
    ∀ t ∈ ts, t.kind = .ident ∨ t.value = [','] := by
  induction h with
  | nil => simp
  | cons hident hsep _ ih =>
    intro t ht
    rcases List.mem_cons.mp ht with rfl | ht
    · exact Or.inl hident
    · rcases List.mem_append.mp ht with ht | ht
      · exact Or.inr (hsep t (Option.mem_toList.mp ht))
      · exact ih t ht

theorem BodyOf.itemsOf {ts : List Token} {items : List Item} (h : BodyOf ts items) :
    ItemsOf ts items := by
  induction h with
  | nil => exact .nil
  | item hitem _ _ ih => exact .cons hitem ih
  | @depends k o c ts more items hk ho hnames hc _ ih =>
    have hassoc : k :: o :: (ts ++ c :: more) = k :: o :: (ts ++ [c]) ++ more := by simp
    rw [hassoc]
    exact .cons (.depends hk ho hnames.separated hc) ih

/-! ## What is read has been derived -/

section Spec

variable {ts ts' : List Token}

theorem parseTypeExprIn_spec {depth : ℕ} {type : Text}
    (h : (parseTypeExprIn depth).run ts = .ok (type, ts')) :
    ∃ used, ts = used ++ ts' ∧ TypeOf used type := by
  induction depth generalizing ts ts' type with
  | zero => exact absurd h not_throw_ok
  | succ depth ih =>
    rw [parseTypeExprIn, bind_ok] at h
    obtain ⟨t, ts₁, hnext, h⟩ := h
    obtain rfl := next_ok.mp hnext
    split at h
    · next hq =>
      rw [bind_ok] at h
      obtain ⟨inner, ts₂, hinner, h⟩ := h
      obtain ⟨rfl, rfl⟩ := pure_ok.mp h
      obtain ⟨used, rfl, htype⟩ := ih hinner
      exact ⟨t :: used, rfl, .optional hq htype⟩
    split at h
    · next ho =>
      rw [bind_ok] at h
      obtain ⟨inner, ts₂, hinner, h⟩ := h
      rw [bind_ok] at h
      obtain ⟨_, ts₃, hclose, h⟩ := h
      obtain ⟨rfl, rfl⟩ := pure_ok.mp h
      obtain ⟨c, rfl, -, hc, -⟩ := expect_ok.mp hclose
      obtain ⟨used, rfl, htype⟩ := ih hinner
      exact ⟨t :: (used ++ [c]), by simp, .list ho htype (hc _ rfl)⟩
    split at h
    · next ho =>
      rw [bind_ok] at h
      obtain ⟨key, ts₂, hkey, h⟩ := h
      rw [bind_ok] at h
      obtain ⟨_, ts₃, hcolon, h⟩ := h
      rw [bind_ok] at h
      obtain ⟨val, ts₄, hval, h⟩ := h
      rw [bind_ok] at h
      obtain ⟨_, ts₅, hclose, h⟩ := h
      obtain ⟨rfl, rfl⟩ := pure_ok.mp h
      obtain ⟨c, rfl, -, hc, -⟩ := expect_ok.mp hclose
      obtain ⟨vs, rfl, hvs⟩ := ih hval
      obtain ⟨m, rfl, -, hm, -⟩ := expect_ok.mp hcolon
      obtain ⟨ks, rfl, hks⟩ := ih hkey
      exact ⟨t :: (ks ++ m :: (vs ++ [c])), by simp, .map ho hks (hm _ rfl) hvs (hc _ rfl)⟩
    split at h
    · next hident =>
      obtain ⟨rfl, rfl⟩ := pure_ok.mp h
      exact ⟨[t], rfl, .name hident⟩
    · exact absurd h not_throw_ok

theorem parseTypeExpr_spec {type : Text} (h : parseTypeExpr.run ts = .ok (type, ts')) :
    ∃ used, ts = used ++ ts' ∧ TypeOf used type := by
  rw [parseTypeExpr, bind_ok] at h
  obtain ⟨n, ts₁, hn, h⟩ := h
  obtain ⟨rfl, rfl⟩ := ahead_ok.mp hn
  exact parseTypeExprIn_spec h

theorem parseParamsIn_spec {turns : ℕ} {params params' : List Param}
    (h : (parseParamsIn turns params).run ts = .ok (params', ts')) :
    ∃ used c more, ts = used ++ c :: ts' ∧ c.value = [')'] ∧ ParamsOf used more ∧
      params' = params ++ more := by
  induction turns generalizing ts params with
  | zero => exact absurd h not_throw_ok
  | succ turns ih =>
    rw [parseParamsIn, bind_ok] at h
    obtain ⟨b, ts₁, haccept, h⟩ := h
    obtain ⟨t, us, rfl, ⟨rfl, hclose, rfl⟩ | ⟨rfl, -, rfl⟩⟩ := accept_ok.mp haccept
    · obtain ⟨rfl, rfl⟩ := pure_ok.mp h
      exact ⟨[], t, [], rfl, hclose, .nil, by simp⟩
    · rw [if_neg Bool.false_ne_true, bind_ok] at h
      obtain ⟨⟨pname, pline⟩, ts₂, hname, h⟩ := h
      rw [bind_ok] at h
      obtain ⟨_, ts₃, hcolon, h⟩ := h
      rw [bind_ok] at h
      obtain ⟨type, ts₄, htype, h⟩ := h
      rw [bind_ok] at h
      obtain ⟨b, ts₅, hsep, h⟩ := h
      obtain ⟨n, hcons, hident, -, hr⟩ := expect_ok.mp hname
      obtain ⟨rfl, rfl⟩ := List.cons.inj hcons
      obtain ⟨rfl, rfl⟩ := Prod.mk.inj hr
      obtain ⟨c, rfl, -, hc, -⟩ := expect_ok.mp hcolon
      obtain ⟨used, rfl, hused⟩ := parseTypeExpr_spec htype
      obtain ⟨rest, close, more, heq, hclose, hmore, rfl⟩ := ih h
      obtain ⟨s, us, rfl, ⟨rfl, hs, rfl⟩ | ⟨rfl, -, rfl⟩⟩ := accept_ok.mp hsep
      · refine ⟨t :: c :: (used ++ ((some s).toList ++ rest)), close, ⟨t.value, type⟩ :: more, ?_,
          hclose, .cons hident (hc _ rfl) hused ?_ hmore, by simp⟩
        · rw [heq]
          simp
        · rintro s' ⟨⟩
          exact hs
      · refine ⟨t :: c :: (used ++ ((none : Option Token).toList ++ rest)), close,
          ⟨t.value, type⟩ :: more, ?_, hclose, .cons hident (hc _ rfl) hused (by simp) hmore,
          by simp⟩
        rw [heq]
        simp

theorem parseParams_spec {params : List Param} (h : parseParams.run ts = .ok (params, ts')) :
    ∃ o used c, ts = o :: (used ++ c :: ts') ∧ o.value = ['('] ∧ c.value = [')'] ∧
      ParamsOf used params := by
  rw [parseParams, bind_ok] at h
  obtain ⟨_, ts₁, hopen, h⟩ := h
  rw [bind_ok] at h
  obtain ⟨n, ts₂, hn, h⟩ := h
  obtain ⟨rfl, rfl⟩ := ahead_ok.mp hn
  obtain ⟨o, rfl, -, ho, -⟩ := expect_ok.mp hopen
  obtain ⟨used, c, more, rfl, hc, hmore, rfl⟩ := parseParamsIn_spec h
  exact ⟨o, used, c, rfl, ho _ rfl, hc, hmore⟩

theorem parseFieldsIn_spec {turns : ℕ} {fields fields' : List Field}
    (h : (parseFieldsIn turns fields).run ts = .ok (fields', ts')) :
    ∃ used c more, ts = used ++ c :: ts' ∧ c.value = ['}'] ∧ FieldsOf used more ∧
      fields' = fields ++ more := by
  induction turns generalizing ts fields with
  | zero => exact absurd h not_throw_ok
  | succ turns ih =>
    rw [parseFieldsIn, bind_ok] at h
    obtain ⟨b, ts₁, haccept, h⟩ := h
    obtain ⟨t, us, rfl, ⟨rfl, hclose, rfl⟩ | ⟨rfl, -, rfl⟩⟩ := accept_ok.mp haccept
    · obtain ⟨rfl, rfl⟩ := pure_ok.mp h
      exact ⟨[], t, [], rfl, hclose, .nil, by simp⟩
    · rw [if_neg Bool.false_ne_true, bind_ok] at h
      obtain ⟨optional, ts₂, hoptional, h⟩ := h
      rw [bind_ok] at h
      obtain ⟨⟨fname, fline⟩, ts₃, hname, h⟩ := h
      rw [bind_ok] at h
      obtain ⟨_, ts₄, hcolon, h⟩ := h
      rw [bind_ok] at h
      obtain ⟨type, ts₅, htype, h⟩ := h
      obtain ⟨rest, close, more, rfl, hclose, hmore, rfl⟩ := ih h
      obtain ⟨used, rfl, hused⟩ := parseTypeExpr_spec htype
      obtain ⟨c, rfl, -, hc, -⟩ := expect_ok.mp hcolon
      obtain ⟨n, rfl, hident, -, hr⟩ := expect_ok.mp hname
      obtain ⟨rfl, rfl⟩ := Prod.mk.inj hr
      obtain ⟨q, us', hcons, ⟨rfl, hq, heq⟩ | ⟨rfl, -, heq⟩⟩ := accept_ok.mp hoptional
      · obtain ⟨rfl, rfl⟩ := List.cons.inj hcons
        refine ⟨(some t).toList ++ n :: c :: (used ++ rest), close, _, ?_, hclose,
          .cons ?_ hident (hc _ rfl) hused hmore, by simp⟩
        · rw [← heq]
          simp
        · rintro q' ⟨⟩
          exact hq
      · refine ⟨(none : Option Token).toList ++ n :: c :: (used ++ rest), close, _, ?_, hclose,
          .cons (by simp) hident (hc _ rfl) hused hmore, by simp⟩
        rw [← heq]
        simp

theorem parseType_spec {record : Record} (h : parseType.run ts = .ok (record, ts')) :
    ∃ used, ts = used ++ ts' ∧ ItemOf used (.type record) := by
  rw [parseType, bind_ok] at h
  obtain ⟨⟨kw, line⟩, ts₁, hkw, h⟩ := h
  rw [bind_ok] at h
  obtain ⟨⟨name, nline⟩, ts₂, hname, h⟩ := h
  rw [bind_ok] at h
  obtain ⟨_, ts₃, hopen, h⟩ := h
  rw [bind_ok] at h
  obtain ⟨n, ts₄, hn, h⟩ := h
  rw [bind_ok] at h
  obtain ⟨fields, ts₅, hfields, h⟩ := h
  obtain ⟨rfl, rfl⟩ := pure_ok.mp h
  obtain ⟨rfl, rfl⟩ := ahead_ok.mp hn
  obtain ⟨used, c, more, rfl, hc, hmore, rfl⟩ := parseFieldsIn_spec hfields
  obtain ⟨o, rfl, -, ho, -⟩ := expect_ok.mp hopen
  obtain ⟨m, rfl, hident, -, hr⟩ := expect_ok.mp hname
  obtain ⟨rfl, rfl⟩ := Prod.mk.inj hr
  obtain ⟨k, rfl, -, hk, hr⟩ := expect_ok.mp hkw
  obtain ⟨rfl, rfl⟩ := Prod.mk.inj hr
  exact ⟨k :: m :: o :: (used ++ [c]), by simp, .type (hk _ rfl) hident (ho _ rfl) hmore hc⟩

theorem parseMethod_spec {method : Callable} (h : parseMethod.run ts = .ok (method, ts')) :
    ∃ used, ts = used ++ ts' ∧ ItemOf used (.method method) := by
  rw [parseMethod, bind_ok] at h
  obtain ⟨⟨kw, line⟩, ts₁, hkw, h⟩ := h
  rw [bind_ok] at h
  obtain ⟨⟨name, nline⟩, ts₂, hname, h⟩ := h
  rw [bind_ok] at h
  obtain ⟨params, ts₃, hparams, h⟩ := h
  rw [bind_ok] at h
  obtain ⟨b, ts₄, harrow, h⟩ := h
  obtain ⟨o, used, c, rfl, ho, hc, hused⟩ := parseParams_spec hparams
  obtain ⟨m, rfl, hident, -, hr⟩ := expect_ok.mp hname
  obtain ⟨rfl, rfl⟩ := Prod.mk.inj hr
  obtain ⟨k, rfl, -, hk, hr⟩ := expect_ok.mp hkw
  obtain ⟨rfl, rfl⟩ := Prod.mk.inj hr
  obtain ⟨a, us, rfl, ⟨rfl, ha, rfl⟩ | ⟨rfl, -, rfl⟩⟩ := accept_ok.mp harrow
  · rw [if_pos rfl, bind_ok] at h
    obtain ⟨returns, ts₅, hreturns, h⟩ := h
    obtain ⟨rfl, rfl⟩ := pure_ok.mp h
    obtain ⟨rs, rfl, hrs⟩ := parseTypeExpr_spec hreturns
    exact ⟨k :: m :: o :: (used ++ c :: a :: rs), by simp,
      .methodReturning (hk _ rfl) hident ho hused hc ha hrs⟩
  · rw [if_neg Bool.false_ne_true] at h
    obtain ⟨rfl, rfl⟩ := pure_ok.mp h
    exact ⟨k :: m :: o :: (used ++ [c]), by simp, .method (hk _ rfl) hident ho hused hc⟩

theorem parseEvent_spec {event : Callable} (h : parseEvent.run ts = .ok (event, ts')) :
    ∃ used, ts = used ++ ts' ∧ ItemOf used (.event event) := by
  rw [parseEvent, bind_ok] at h
  obtain ⟨⟨kw, line⟩, ts₁, hkw, h⟩ := h
  rw [bind_ok] at h
  obtain ⟨⟨name, nline⟩, ts₂, hname, h⟩ := h
  rw [bind_ok] at h
  obtain ⟨params, ts₃, hparams, h⟩ := h
  obtain ⟨rfl, rfl⟩ := pure_ok.mp h
  obtain ⟨o, used, c, rfl, ho, hc, hused⟩ := parseParams_spec hparams
  obtain ⟨m, rfl, hident, -, hr⟩ := expect_ok.mp hname
  obtain ⟨rfl, rfl⟩ := Prod.mk.inj hr
  obtain ⟨k, rfl, -, hk, hr⟩ := expect_ok.mp hkw
  obtain ⟨rfl, rfl⟩ := Prod.mk.inj hr
  exact ⟨k :: m :: o :: (used ++ [c]), by simp, .event (hk _ rfl) hident ho hused hc⟩

theorem parseDependsIn_spec {turns : ℕ} (h : (parseDependsIn turns).run ts = .ok ((), ts')) :
    ∃ used c, ts = used ++ c :: ts' ∧ c.value = [']'] ∧ NamesOf used := by
  induction turns generalizing ts with
  | zero => exact absurd h not_throw_ok
  | succ turns ih =>
    rw [parseDependsIn, bind_ok] at h
    obtain ⟨b, ts₁, haccept, h⟩ := h
    obtain ⟨t, us, rfl, ⟨rfl, hclose, rfl⟩ | ⟨rfl, -, rfl⟩⟩ := accept_ok.mp haccept
    · obtain ⟨-, rfl⟩ := pure_ok.mp h
      exact ⟨[], t, rfl, hclose, .nil⟩
    · rw [if_neg Bool.false_ne_true, bind_ok] at h
      obtain ⟨_, ts₂, hname, h⟩ := h
      rw [bind_ok] at h
      obtain ⟨b, ts₃, hsep, h⟩ := h
      obtain ⟨used, c, rfl, hc, hused⟩ := ih h
      obtain ⟨n, hcons, hident, -, -⟩ := expect_ok.mp hname
      obtain ⟨rfl, rfl⟩ := List.cons.inj hcons
      obtain ⟨s, us', rfl, ⟨rfl, hs, heq⟩ | ⟨rfl, -, heq⟩⟩ := accept_ok.mp hsep
      · refine ⟨t :: ((some s).toList ++ used), c, by rw [← heq]; rfl, hc, .cons hident ?_ hused⟩
        rintro s' ⟨⟩
        exact hs
      · exact ⟨t :: ((none : Option Token).toList ++ used), c, by rw [← heq]; rfl, hc,
          .cons hident (by simp) hused⟩

theorem parseItemsIn_spec {turns : ℕ} {module module' : Contract}
    (h : (parseItemsIn turns module).run ts = .ok (module', ts')) :
    ∃ used c items, ts = used ++ c :: ts' ∧ c.value = ['}'] ∧ BodyOf used items ∧
      module' = items.foldl Contract.add module := by
  induction turns generalizing ts module with
  | zero => exact absurd h not_throw_ok
  | succ turns ih =>
    -- an item that a method of the parser reads, and the rest of the body
    have hread : ∀ {front ts₁ : List Token} {item : Item}, ts = front ++ ts₁ → ItemOf front item →
        item ≠ .depends → (parseItemsIn turns (module.add item)).run ts₁ = .ok (module', ts') →
        ∃ used c items, ts = used ++ c :: ts' ∧ c.value = ['}'] ∧ BodyOf used items ∧
          module' = items.foldl Contract.add module := by
      intro front ts₁ item hfront hitem hno hrest
      obtain ⟨used, c, items, rfl, hc, hbody, rfl⟩ := ih hrest
      exact ⟨front ++ used, c, item :: items, by rw [hfront]; simp, hc, .item hitem hno hbody, rfl⟩
    rw [parseItemsIn, bind_ok] at h
    obtain ⟨b, ts₁, haccept, h⟩ := h
    obtain ⟨t, us, rfl, ⟨rfl, hclose, rfl⟩ | ⟨rfl, -, rfl⟩⟩ := accept_ok.mp haccept
    · obtain ⟨rfl, rfl⟩ := pure_ok.mp h
      exact ⟨[], t, [], rfl, hclose, .nil, rfl⟩
    rw [if_neg Bool.false_ne_true, bind_ok] at h
    obtain ⟨t', ts₂, hpeek, h⟩ := h
    obtain ⟨us', hcons, rfl⟩ := peek_ok.mp hpeek
    obtain ⟨rfl, rfl⟩ := List.cons.inj hcons
    split at h
    · exact absurd h not_throw_ok
    split at h
    · next hkw =>
      rw [bind_ok] at h
      obtain ⟨k, ts₃, hnext, h⟩ := h
      rw [bind_ok] at h
      obtain ⟨_, ts₄, hstr, h⟩ := h
      obtain ⟨rfl, rfl⟩ := List.cons.inj (next_ok.mp hnext)
      obtain ⟨s, rfl, hs, -, -⟩ := expect_ok.mp hstr
      have hfront : t :: s :: ts₄ = [t, s] ++ ts₄ := rfl
      exact hread hfront (.property hkw hs) (by simp) h
    split at h
    · next hkw =>
      rw [bind_ok] at h
      obtain ⟨k, ts₃, hnext, h⟩ := h
      rw [bind_ok] at h
      obtain ⟨_, ts₄, hopen, h⟩ := h
      rw [bind_ok] at h
      obtain ⟨n, ts₅, hn, h⟩ := h
      rw [bind_ok] at h
      obtain ⟨_, ts₆, hdepends, h⟩ := h
      obtain ⟨rfl, rfl⟩ := List.cons.inj (next_ok.mp hnext)
      obtain ⟨rfl, rfl⟩ := ahead_ok.mp hn
      obtain ⟨names, e, rfl, he, hnames⟩ := parseDependsIn_spec hdepends
      obtain ⟨o, rfl, -, ho, -⟩ := expect_ok.mp hopen
      obtain ⟨used, c, items, rfl, hc, hbody, rfl⟩ := ih h
      exact ⟨t :: o :: (names ++ e :: used), c, .depends :: items, by simp, hc,
        .depends hkw (ho _ rfl) hnames he hbody, rfl⟩
    split at h
    · rw [bind_ok] at h
      obtain ⟨record, ts₃, hrecord, h⟩ := h
      obtain ⟨front, hfront, hitem⟩ := parseType_spec hrecord
      exact hread hfront hitem (by simp) h
    split at h
    · rw [bind_ok] at h
      obtain ⟨method, ts₃, hmethod, h⟩ := h
      obtain ⟨front, hfront, hitem⟩ := parseMethod_spec hmethod
      exact hread hfront hitem (by simp) h
    split at h
    · rw [bind_ok] at h
      obtain ⟨event, ts₃, hevent, h⟩ := h
      obtain ⟨front, hfront, hitem⟩ := parseEvent_spec hevent
      exact hread hfront hitem (by simp) h
    · exact absurd h not_throw_ok

theorem parseModule_derived {module : Contract} (h : parseModule.run ts = .ok (module, ts')) :
    ∃ used, ts = used ++ ts' ∧ ModuleOf used module := by
  rw [parseModule, bind_ok] at h
  obtain ⟨_, ts₁, hkw, h⟩ := h
  rw [bind_ok] at h
  obtain ⟨⟨name, line⟩, ts₂, hname, h⟩ := h
  rw [bind_ok] at h
  obtain ⟨_, ts₃, hopen, h⟩ := h
  rw [bind_ok] at h
  obtain ⟨n, ts₄, hn, h⟩ := h
  obtain ⟨rfl, rfl⟩ := ahead_ok.mp hn
  obtain ⟨used, c, items, rfl, hc, hbody, rfl⟩ := parseItemsIn_spec h
  obtain ⟨o, rfl, -, ho, -⟩ := expect_ok.mp hopen
  obtain ⟨m, rfl, hident, -, hr⟩ := expect_ok.mp hname
  obtain ⟨rfl, rfl⟩ := Prod.mk.inj hr
  obtain ⟨k, rfl, -, hk, -⟩ := expect_ok.mp hkw
  exact ⟨k :: m :: o :: (used ++ [c]), by simp, .intro (hk _ rfl) hident (ho _ rfl) hbody hc⟩

/-- A contract is its first module up to the brace that closes it, and has every item of
its body in order. -/
theorem parseModule_spec {module : Contract} (h : parseModule.run ts = .ok (module, ts')) :
    ∃ k n o used c items, ts = k :: n :: o :: (used ++ c :: ts') ∧ k.value = "module".toList ∧
      n.kind = .ident ∧ o.value = ['{'] ∧ c.value = ['}'] ∧ ItemsOf used items ∧
      module = items.foldl Contract.add ⟨n.value, n.line, [], [], []⟩ := by
  obtain ⟨used, rfl, hmodule⟩ := parseModule_derived h
  cases hmodule with
  | @intro k n o c ts items hk hident ho hbody hc =>
    exact ⟨k, n, o, ts, c, items, by simp, hk, hident, ho, hc, hbody.itemsOf, rfl⟩

end Spec

/-! ## The budgets suffice -/

/-- With at most `n` tokens ahead the budget does not run out, and at most `m` are ahead
afterwards. -/
def Within {α : Type} (n : ℕ) (x : Parser α) (m : ℕ) : Prop :=
  ∀ ts, ts.length ≤ n → x.run ts ≠ .error .recursionError ∧
    ∀ a ts', x.run ts = .ok (a, ts') → ts'.length ≤ m

section Budget

variable {α β : Type} {n m k depth turns : ℕ}

theorem within_bind {x : Parser α} {f : α → Parser β} (hx : Within n x m)
    (hf : ∀ a, Within m (f a) k) : Within n (x >>= f) k := by
  intro ts hts
  obtain ⟨hno, hok⟩ := hx ts hts
  rw [StateT.run_bind]
  cases hrun : x.run ts with
  | error e =>
    refine ⟨fun heq => hno ?_, fun b ts' heq => by cases heq⟩
    rw [hrun]
    exact congrArg _ (Except.error.inj heq)
  | ok r =>
    obtain ⟨a, ts₁⟩ := r
    exact hf a ts₁ (hok a ts₁ hrun)

theorem within_mono {x : Parser α} (h : Within n x m) (hle : m ≤ k) : Within n x k := by
  intro ts hts
  obtain ⟨hno, hok⟩ := h ts hts
  exact ⟨hno, fun a ts' heq => Nat.le_trans (hok a ts' heq) hle⟩

theorem within_pure (a : α) : Within n (pure a : Parser α) n := by
  intro ts hts
  constructor
  · rw [StateT.run_pure]
    exact fun heq => by cases heq
  · intro b ts' heq
    obtain ⟨-, rfl⟩ := pure_ok.mp heq
    exact hts

theorem within_throw {e : Raised} (h : e ≠ .recursionError) : Within n (throw e : Parser α) m := by
  intro ts _
  refine ⟨?_, fun b ts' heq => absurd heq not_throw_ok⟩
  intro heq
  exact h (Except.error.inj heq)

theorem within_ite {c : Prop} [Decidable c] {x y : Parser α} (hx : c → Within n x m)
    (hy : ¬ c → Within n y m) : Within n (if c then x else y) m := by
  split
  · next h => exact hx h
  · next h => exact hy h

theorem within_next : Within n next (n - 1) := by
  intro ts hts
  cases ts with
  | nil => exact ⟨by simp [next, StateT.run], fun a ts' heq => by cases heq⟩
  | cons t ts =>
    refine ⟨by simp [next, StateT.run], ?_⟩
    intro a ts' heq
    obtain ⟨rfl, rfl⟩ := List.cons.inj (next_ok.mp heq)
    rw [List.length_cons] at hts
    omega

theorem within_peek : Within n peek n := by
  intro ts hts
  cases ts with
  | nil => exact ⟨by simp [peek, StateT.run], fun a ts' heq => by cases heq⟩
  | cons t ts =>
    refine ⟨by simp [peek, StateT.run], ?_⟩
    intro a ts' heq
    obtain ⟨_, -, rfl⟩ := peek_ok.mp heq
    exact hts

theorem within_expect {kind : Kind} {value : Option Text} :
    Within n (expect kind value) (n - 1) := by
  refine within_bind within_next ?_
  intro t
  exact within_ite (fun _ => within_throw (by simp)) fun _ => within_pure _

theorem within_accept {value : Text} : Within n (accept value) n := by
  refine within_bind within_peek ?_
  intro t
  refine within_ite (fun _ => within_bind within_next fun _ => ?_) fun _ => within_pure _
  exact within_mono (within_pure _) (Nat.sub_le n 1)

/-- A budget of one more than the tokens ahead. -/
theorem within_ahead {f : ℕ → Parser α} (h : ∀ n' ≤ n, Within n' (f n') m) :
    Within n (ahead >>= f) m := by
  intro ts hts
  have hrun : (ahead >>= f).run ts = (f ts.length).run ts := rfl
  rw [hrun]
  exact h ts.length hts ts (Nat.le_refl _)

/-- Without a token the parser stops at once. -/
theorem within_zero {x : Parser α} (h : x.run [] = .error .indexError) : Within 0 x m := by
  intro ts hts
  obtain rfl := List.length_eq_zero_iff.mp (Nat.le_zero.mp hts)
  rw [h]
  exact ⟨by simp, fun a ts' heq => by cases heq⟩

theorem within_parseTypeExprIn (h : n < depth) : Within n (parseTypeExprIn depth) (n - 1) := by
  induction depth generalizing n with
  | zero => omega
  | succ depth ih =>
    cases n with
    | zero => exact within_zero rfl
    | succ n =>
      have hinner : Within n (parseTypeExprIn depth) n :=
        within_mono (ih (by omega)) (Nat.sub_le n 1)
      have hexpect : ∀ kind value, Within n (expect kind value) n := fun _ _ =>
        within_mono within_expect (Nat.sub_le n 1)
      refine within_bind within_next fun t => ?_
      refine within_ite (fun _ => within_bind hinner fun _ => within_pure _) fun _ => ?_
      refine within_ite (fun _ => within_bind hinner fun _ => within_bind (hexpect _ _) fun _ =>
        within_pure _) fun _ => ?_
      refine within_ite (fun _ => within_bind hinner fun _ => within_bind (hexpect _ _) fun _ =>
        within_bind hinner fun _ => within_bind (hexpect _ _) fun _ => within_pure _) fun _ => ?_
      exact within_ite (fun _ => within_pure _) fun _ => within_throw (by simp)

theorem within_parseTypeExpr : Within n parseTypeExpr n :=
  within_ahead fun n' hle => within_mono (within_parseTypeExprIn (Nat.lt_succ_self n')) (by omega)

theorem within_parseParamsIn {params : List Param} (h : n < turns) :
    Within n (parseParamsIn turns params) n := by
  induction turns generalizing n params with
  | zero => omega
  | succ turns ih =>
    cases n with
    | zero => exact within_zero rfl
    | succ n =>
      refine within_bind within_accept fun _ => within_ite (fun _ => within_pure _) fun _ => ?_
      refine within_bind within_expect fun _ => ?_
      refine within_bind (within_mono within_expect (Nat.sub_le n 1)) fun _ => ?_
      refine within_bind within_parseTypeExpr fun _ => within_bind within_accept fun _ => ?_
      exact within_mono (ih (by omega)) (Nat.le_succ n)

theorem within_parseParams : Within n parseParams n :=
  within_bind (within_mono within_expect (Nat.sub_le n 1)) fun _ => within_ahead fun n' hle =>
    within_mono (within_parseParamsIn (Nat.lt_succ_self n')) hle

theorem within_parseFieldsIn {fields : List Field} (h : n < turns) :
    Within n (parseFieldsIn turns fields) n := by
  induction turns generalizing n fields with
  | zero => omega
  | succ turns ih =>
    cases n with
    | zero => exact within_zero rfl
    | succ n =>
      refine within_bind within_accept fun _ => within_ite (fun _ => within_pure _) fun _ => ?_
      refine within_bind within_accept fun _ => within_bind within_expect fun _ => ?_
      refine within_bind (within_mono within_expect (Nat.sub_le n 1)) fun _ => ?_
      refine within_bind within_parseTypeExpr fun _ => ?_
      exact within_mono (ih (by omega)) (Nat.le_succ n)

theorem within_parseDependsIn (h : n < turns) : Within n (parseDependsIn turns) n := by
  induction turns generalizing n with
  | zero => omega
  | succ turns ih =>
    cases n with
    | zero => exact within_zero rfl
    | succ n =>
      refine within_bind within_accept fun _ => within_ite (fun _ => within_pure _) fun _ => ?_
      refine within_bind within_expect fun _ => within_bind within_accept fun _ => ?_
      exact within_mono (ih (by omega)) (Nat.le_succ n)

theorem within_parseType : Within n parseType (n - 1) := by
  refine within_bind within_expect fun _ => ?_
  refine within_bind (within_mono within_expect (Nat.sub_le _ 1)) fun _ => ?_
  refine within_bind (within_mono within_expect (Nat.sub_le _ 1)) fun _ => ?_
  refine within_ahead fun n' hle => within_bind ?_ fun _ => within_pure _
  exact within_mono (within_parseFieldsIn (Nat.lt_succ_self n')) hle

theorem within_parseMethod : Within n parseMethod (n - 1) := by
  refine within_bind within_expect fun _ => ?_
  refine within_bind (within_mono within_expect (Nat.sub_le _ 1)) fun _ => ?_
  refine within_bind within_parseParams fun _ => within_bind within_accept fun _ => ?_
  exact within_ite (fun _ => within_bind within_parseTypeExpr fun _ => within_pure _)
    fun _ => within_pure _

theorem within_parseEvent : Within n parseEvent (n - 1) := by
  refine within_bind within_expect fun _ => ?_
  refine within_bind (within_mono within_expect (Nat.sub_le _ 1)) fun _ => ?_
  exact within_bind within_parseParams fun _ => within_pure _

theorem within_parseItemsIn {module : Contract} (h : n < turns) :
    Within n (parseItemsIn turns module) n := by
  induction turns generalizing n module with
  | zero => omega
  | succ turns ih =>
    cases n with
    | zero => exact within_zero rfl
    | succ n =>
      have hrest : ∀ module, Within n (parseItemsIn turns module) (n + 1) := fun module =>
        within_mono (ih (by omega)) (Nat.le_succ n)
      refine within_bind within_accept fun _ => within_ite (fun _ => within_pure _) fun _ => ?_
      refine within_bind within_peek fun t => ?_
      refine within_ite (fun _ => within_throw (by simp)) fun _ => ?_
      refine within_ite (fun _ => within_bind within_next fun _ => within_bind
        (within_mono within_expect (Nat.sub_le n 1)) fun _ => hrest _) fun _ => ?_
      refine within_ite (fun _ => within_bind within_next fun _ => within_bind
        (within_mono within_expect (Nat.sub_le n 1)) fun _ => ?_) fun _ => ?_
      · refine within_ahead fun n' hle => within_bind ?_ fun _ => hrest _
        exact within_mono (within_parseDependsIn (Nat.lt_succ_self n')) hle
      refine within_ite (fun _ => within_bind within_parseType fun _ => hrest _) fun _ => ?_
      refine within_ite (fun _ => within_bind within_parseMethod fun _ => hrest _) fun _ => ?_
      refine within_ite (fun _ => within_bind within_parseEvent fun _ => hrest _) fun _ => ?_
      exact within_throw (by simp)

/-- The parser never runs out of its budget. -/
theorem parseModule_recurses (ts : List Token) : parseModule.run ts ≠ .error .recursionError := by
  have hwithin : Within ts.length parseModule ts.length := by
    refine within_bind (within_mono within_expect (Nat.sub_le _ 1)) fun _ => ?_
    refine within_bind (within_mono within_expect (Nat.sub_le _ 1)) fun _ => ?_
    refine within_bind (within_mono within_expect (Nat.sub_le _ 1)) fun _ => ?_
    exact within_ahead fun n' hle => within_mono (within_parseItemsIn (Nat.lt_succ_self n')) hle
  exact (hwithin ts (Nat.le_refl _)).1

end Budget

end ChatModule.Docs
