import ChatModule.Docs.Reference
import ChatModule.Docs.Signature

/-!
# The contract parser accepts its grammar

The parser looks one token ahead and never goes back. What it reads has been derived
(`parseModule_derived`); here the converse, that it refuses nothing the grammar derives, for
tokens whose values are of the form their kinds say.

* `read_iff` — a source is read exactly when its tokens begin with a module, and as that;
* `main_refuses` — of any other source the program says what is wrong with it. It never reads
  past the last token.
-/

namespace ChatModule.Docs

variable {ts ts' used rest : List Token} {t c : Token}

/-! ## Tokens by their values -/

/-- The words a declaration begins with, and that of the module. -/
def keywords : List Text :=
  ["module".toList, "version".toList, "description".toList, "category".toList, "depends".toList,
    "optional_depends".toList, "type".toList, "method".toList, "event".toList]

/-- The words an item may begin with. -/
def Item.words : Item → List Text
  | .property => ["version".toList, "description".toList, "category".toList]
  | .depends => ["depends".toList, "optional_depends".toList]
  | .type _ => ["type".toList]
  | .method _ => ["method".toList]
  | .event _ => ["event".toList]

theorem Item.keyword (item : Item) : ∀ {w : Text}, w ∈ item.words → w ∈ keywords := by
  have hsub : ∀ words ∈ [["version".toList, "description".toList, "category".toList],
      ["depends".toList, "optional_depends".toList], ["type".toList], ["method".toList],
      ["event".toList]], words ⊆ keywords := List.all_iff_forall_prop.mp (by decide)
  intro w hw
  cases item <;> exact hsub _ (by simp [words]) hw

theorem isIdent_of_keyword {w : Text} (h : w ∈ keywords) : IsIdent w := by
  have hall : ∀ w ∈ keywords, w.head?.any identStart = true ∧ w.tail.all identPart = true :=
    List.all_iff_forall_prop.mp (by decide)
  obtain ⟨hhead, htail⟩ := hall w h
  cases w with
  | nil => cases hhead
  | cons d ds => exact ⟨d, ds, rfl, hhead, List.all_eq_true.mp htail⟩

/-- A token whose value is a word is an identifier. -/
theorem Token.Ok.kind_eq_ident (h : t.Ok) (hw : IsIdent t.value) : t.kind = .ident := by
  obtain ⟨d, ds, hvalue, hstart, -⟩ := hw
  have hnot : ∀ c ∈ ['"', '-'], identStart c = false := List.all_iff_forall_prop.mp (by decide)
  obtain ⟨hws, hform⟩ := h
  cases hkind : t.kind with
  | ws => exact absurd hkind hws
  | str =>
    rw [hkind, hvalue] at hform
    obtain ⟨v, hv⟩ := hform
    obtain ⟨rfl, -⟩ := List.cons.inj hv
    rw [hnot '"' (by simp)] at hstart
    cases hstart
  | ident => rfl
  | punct =>
    have hmarks : ∀ c ∈ marks, identStart c = false := List.all_iff_forall_prop.mp (by decide)
    rw [hkind, hvalue] at hform
    rcases hform with harrow | ⟨m, hm, hmark⟩
    · have hdash : d :: ds = ['-', '>'] := harrow
      obtain ⟨rfl, -⟩ := List.cons.inj hdash
      rw [hnot '-' (by simp)] at hstart
      cases hstart
    · obtain ⟨rfl, -⟩ := List.cons.inj hmark
      rw [hmarks d hm] at hstart
      cases hstart
  | eof =>
    rw [hkind, hvalue] at hform
    cases hform

theorem Token.Ok.keyword (h : t.Ok) {w : Text} (hvalue : t.value = w) (hw : w ∈ keywords) :
    t.kind = .ident :=
  h.kind_eq_ident (hvalue ▸ isIdent_of_keyword hw)

/-- An identifier is no mark. -/
theorem Token.Ok.ne_mark (h : t.Ok) (hkind : t.kind = .ident) {m : Char} {w : Text}
    (hm : identStart m = false) : t.value ≠ m :: w :=
  (h.isIdent hkind).ne_cons hm

/-! ## What the methods do -/

theorem expect_of {kind : Kind} {value : Option Text} (hkind : t.kind = kind)
    (hvalue : ∀ v ∈ value, t.value = v) :
    (expect kind value).run (t :: ts) = .ok ((t.value, t.line), ts) :=
  expect_ok.mpr ⟨t, rfl, hkind, hvalue, rfl⟩

/-- A mark is where it is expected. -/
theorem expect_mark (hok : t.Ok) {m : Char} (hm : m ∈ marks) (hvalue : t.value = [m]) :
    (expect .punct (some [m])).run (t :: ts) = .ok ((t.value, t.line), ts) :=
  expect_of (hok.kind_eq_punct hvalue hm) (by rintro v ⟨⟩; exact hvalue)

theorem accept_of {v : Text} (hvalue : t.value = v) : (accept v).run (t :: ts) = .ok (true, ts) :=
  accept_ok.mpr ⟨t, ts, rfl, Or.inl ⟨rfl, hvalue, rfl⟩⟩

theorem accept_of_ne {v : Text} (hvalue : t.value ≠ v) :
    (accept v).run (t :: ts) = .ok (false, t :: ts) :=
  accept_ok.mpr ⟨t, ts, rfl, Or.inr ⟨rfl, hvalue, rfl⟩⟩

theorem ahead_of : ahead.run ts = .ok (ts.length, ts) := rfl

/-! ## What is derived is read -/

section Complete

theorem parseTypeExprIn_of {type : Text} (h : TypeOf used type) (hok : ∀ t ∈ used, t.Ok)
    {depth : ℕ} (hdepth : used.length ≤ depth) (rest : List Token) :
    (parseTypeExprIn depth).run (used ++ rest) = .ok (type, rest) := by
  induction h generalizing depth rest with
  | @name t hkind =>
    obtain ⟨depth, rfl⟩ : ∃ d, depth = d + 1 :=
      ⟨depth - 1, by rw [List.length_cons] at hdepth; omega⟩
    have htok := hok t List.mem_cons_self
    rw [parseTypeExprIn, bind_ok]
    refine ⟨t, rest, next_ok.mpr rfl, ?_⟩
    rw [if_neg (htok.ne_mark hkind (by decide)), if_neg (htok.ne_mark hkind (by decide)),
      if_neg (htok.ne_mark hkind (by decide)), if_pos hkind]
    exact pure_ok.mpr ⟨rfl, rfl⟩
  | @optional q ts type hq _ ih =>
    obtain ⟨depth, rfl⟩ : ∃ d, depth = d + 1 :=
      ⟨depth - 1, by rw [List.length_cons] at hdepth; omega⟩
    rw [parseTypeExprIn, bind_ok]
    refine ⟨q, ts ++ rest, next_ok.mpr rfl, ?_⟩
    rw [if_pos hq, bind_ok]
    refine ⟨type, rest, ih (fun t ht => hok t (List.mem_cons_of_mem _ ht)) ?_ rest,
      pure_ok.mpr ⟨rfl, rfl⟩⟩
    simpa using hdepth
  | @list o c ts inner ho _ hc ih =>
    obtain ⟨depth, rfl⟩ : ∃ d, depth = d + 1 :=
      ⟨depth - 1, by rw [List.length_cons] at hdepth; omega⟩
    rw [parseTypeExprIn, bind_ok]
    refine ⟨o, ts ++ [c] ++ rest, next_ok.mpr (by simp), ?_⟩
    rw [if_neg (by rw [ho]; decide), if_pos ho, bind_ok]
    refine ⟨inner, c :: rest, ?_, ?_⟩
    · rw [List.append_assoc]
      refine ih (fun t ht => hok t (by simp [ht])) ?_ (c :: rest)
      rw [List.length_cons, List.length_append] at hdepth
      omega
    · rw [bind_ok]
      exact ⟨_, rest, expect_mark (hok c (by simp)) (by decide) hc, pure_ok.mpr ⟨rfl, rfl⟩⟩
  | @map o m c ks vs key val ho _ hm _ hc ihk ihv =>
    obtain ⟨depth, rfl⟩ : ∃ d, depth = d + 1 :=
      ⟨depth - 1, by rw [List.length_cons] at hdepth; omega⟩
    simp only [List.length_cons, List.length_append, List.length_nil] at hdepth
    rw [parseTypeExprIn, bind_ok]
    refine ⟨o, ks ++ m :: (vs ++ [c]) ++ rest, next_ok.mpr (by simp), ?_⟩
    rw [if_neg (by rw [ho]; decide), if_neg (by rw [ho]; decide), if_pos ho, bind_ok]
    refine ⟨key, m :: (vs ++ (c :: rest)), ?_, ?_⟩
    · have hkeys : ks.length ≤ depth := by omega
      have hkey := ihk (fun t ht => hok t (by simp [ht])) hkeys (m :: (vs ++ (c :: rest)))
      simpa using hkey
    · rw [bind_ok]
      refine ⟨_, vs ++ (c :: rest), expect_mark (hok m (by simp)) (by decide) hm, ?_⟩
      rw [bind_ok]
      refine ⟨val, c :: rest, ihv (fun t ht => hok t (by simp [ht])) (by omega) _, ?_⟩
      rw [bind_ok]
      exact ⟨_, rest, expect_mark (hok c (by simp)) (by decide) hc, pure_ok.mpr ⟨rfl, rfl⟩⟩

theorem parseTypeExpr_of {type : Text} (h : TypeOf used type) (hok : ∀ t ∈ used, t.Ok)
    (rest : List Token) : parseTypeExpr.run (used ++ rest) = .ok (type, rest) := by
  rw [parseTypeExpr, bind_ok]
  refine ⟨_, _, ahead_of, parseTypeExprIn_of h hok ?_ rest⟩
  rw [List.length_append]
  omega

theorem ParamsOf.head {params : List Param} (h : ParamsOf used params) :
    used = [] ∨ ∃ n us, used = n :: us ∧ n.kind = .ident := by
  cases h with
  | nil => exact Or.inl rfl
  | cons hident => exact Or.inr ⟨_, _, rfl, hident⟩

/-- A parameter or a name is followed by another one or by the closing mark. -/
theorem accept_after {v w : Text} (h : used = [] ∨ ∃ n us, used = n :: us ∧ n.kind = .ident)
    (hok : ∀ t ∈ used, t.Ok) (hc : c.value = w) (hne : w ≠ v) {m : Char} {ms : Text}
    (hv : v = m :: ms) (hm : identStart m = false) (rest : List Token) :
    (accept v).run (used ++ c :: rest) = .ok (false, used ++ c :: rest) := by
  rcases h with rfl | ⟨n, us, rfl, hident⟩
  · exact accept_of_ne (hc ▸ hne)
  · rw [hv]
    exact accept_of_ne ((hok n List.mem_cons_self).ne_mark hident hm)

theorem parseParamsIn_of {params : List Param} (h : ParamsOf used params) (hok : ∀ t ∈ used, t.Ok)
    (hc : c.value = [')']) {turns : ℕ} (hturns : used.length < turns) (acc : List Param)
    (rest : List Token) :
    (parseParamsIn turns acc).run (used ++ c :: rest) = .ok (acc ++ params, rest) := by
  induction h generalizing turns acc with
  | nil =>
    obtain ⟨turns, rfl⟩ : ∃ n, turns = n + 1 := ⟨turns - 1, by omega⟩
    rw [parseParamsIn, bind_ok]
    refine ⟨true, rest, accept_of hc, ?_⟩
    rw [if_pos rfl, List.append_nil]
    exact pure_ok.mpr ⟨rfl, rfl⟩
  | @cons n m sep ts more type params hident hm htype hsep hmore ih =>
    obtain ⟨turns, rfl⟩ : ∃ n, turns = n + 1 := ⟨turns - 1, by omega⟩
    have hokMore : ∀ t ∈ more, t.Ok := fun t ht => hok t (by simp [ht])
    have hlen : more.length < turns := by
      simp only [List.length_cons, List.length_append] at hturns
      omega
    rw [parseParamsIn, bind_ok]
    refine ⟨false, _, accept_of_ne ((hok n (by simp)).ne_mark hident (by decide)), ?_⟩
    rw [if_neg Bool.false_ne_true, bind_ok]
    refine ⟨_, _, expect_of hident (by simp), ?_⟩
    rw [bind_ok]
    refine ⟨_, _, expect_mark (hok m (by simp)) (by decide) hm, ?_⟩
    rw [bind_ok]
    refine ⟨type, sep.toList ++ (more ++ c :: rest), ?_, ?_⟩
    · have hread := parseTypeExpr_of htype (fun t ht => hok t (by simp [ht]))
        (sep.toList ++ (more ++ c :: rest))
      simpa using hread
    · rw [bind_ok]
      refine ⟨sep.isSome, more ++ c :: rest, ?_, ?_⟩
      · cases sep with
        | none => exact accept_after hmore.head hokMore hc (by decide) rfl (by decide) rest
        | some s => exact accept_of (hsep s rfl)
      · have hnext := ih hokMore hlen (acc ++ [⟨n.value, type⟩])
        simpa using hnext

theorem parseParams_of {params : List Param} {o : Token} (h : ParamsOf used params)
    (hok : ∀ t ∈ used, t.Ok) (hoOk : o.Ok) (ho : o.value = ['(']) (hc : c.value = [')'])
    (rest : List Token) :
    parseParams.run (o :: (used ++ c :: rest)) = .ok (params, rest) := by
  rw [parseParams, bind_ok]
  refine ⟨_, _, expect_mark hoOk (by decide) ho, ?_⟩
  rw [bind_ok]
  refine ⟨_, _, ahead_of, ?_⟩
  have hturns : used.length < (used ++ c :: rest).length + 1 := by
    rw [List.length_append]
    omega
  exact parseParamsIn_of h hok hc hturns [] rest

theorem parseFieldsIn_of {fields : List Field} (h : FieldsOf used fields) (hok : ∀ t ∈ used, t.Ok)
    (hc : c.value = ['}']) {turns : ℕ} (hturns : used.length < turns) (acc : List Field)
    (rest : List Token) :
    (parseFieldsIn turns acc).run (used ++ c :: rest) = .ok (acc ++ fields, rest) := by
  induction h generalizing turns acc with
  | nil =>
    obtain ⟨turns, rfl⟩ : ∃ n, turns = n + 1 := ⟨turns - 1, by omega⟩
    rw [parseFieldsIn, bind_ok]
    refine ⟨true, rest, accept_of hc, ?_⟩
    rw [if_pos rfl, List.append_nil]
    exact pure_ok.mpr ⟨rfl, rfl⟩
  | @cons q n m ts more type fields hq hident hm htype hmore ih =>
    obtain ⟨turns, rfl⟩ : ∃ n, turns = n + 1 := ⟨turns - 1, by omega⟩
    have hnOk : n.Ok := hok n (by simp)
    have hlen : more.length < turns := by
      simp only [List.length_cons, List.length_append] at hturns
      omega
    have hafter : (accept ['?']).run (q.toList ++ n :: m :: (ts ++ more) ++ c :: rest) =
          .ok (q.isSome, n :: m :: (ts ++ (more ++ c :: rest))) ∧
        (accept ['}']).run (q.toList ++ n :: m :: (ts ++ more) ++ c :: rest) =
          .ok (false, q.toList ++ n :: m :: (ts ++ more) ++ c :: rest) := by
      cases q with
      | none =>
        refine ⟨?_, accept_of_ne (hnOk.ne_mark hident (by decide))⟩
        have hmiss : (accept ['?']).run (n :: m :: (ts ++ (more ++ c :: rest))) = _ :=
          accept_of_ne (hnOk.ne_mark hident (by decide))
        simpa using hmiss
      | some t =>
        have hvalue : t.value = ['?'] := hq t rfl
        refine ⟨?_, accept_of_ne (by rw [hvalue]; decide)⟩
        have hhit : (accept ['?']).run (t :: n :: m :: (ts ++ (more ++ c :: rest))) = _ :=
          accept_of hvalue
        simpa using hhit
    rw [parseFieldsIn, bind_ok]
    refine ⟨false, _, hafter.2, ?_⟩
    rw [if_neg Bool.false_ne_true, bind_ok]
    refine ⟨_, _, hafter.1, ?_⟩
    rw [bind_ok]
    refine ⟨_, _, expect_of hident (by simp), ?_⟩
    rw [bind_ok]
    refine ⟨_, _, expect_mark (hok m (by simp)) (by decide) hm, ?_⟩
    rw [bind_ok]
    refine ⟨type, _, parseTypeExpr_of htype (fun t ht => hok t (by simp [ht])) _, ?_⟩
    have hnext := ih (fun t ht => hok t (by simp [ht])) hlen
      (acc ++ [⟨n.value, type, q.isSome || type.head? = some '?', n.line⟩])
    simpa using hnext

theorem NamesOf.head (h : NamesOf used) :
    used = [] ∨ ∃ n us, used = n :: us ∧ n.kind = .ident := by
  cases h with
  | nil => exact Or.inl rfl
  | cons hident => exact Or.inr ⟨_, _, rfl, hident⟩

theorem parseDependsIn_of (h : NamesOf used) (hok : ∀ t ∈ used, t.Ok) (hc : c.value = [']'])
    {turns : ℕ} (hturns : used.length < turns) (rest : List Token) :
    (parseDependsIn turns).run (used ++ c :: rest) = .ok ((), rest) := by
  induction h generalizing turns with
  | nil =>
    obtain ⟨turns, rfl⟩ : ∃ n, turns = n + 1 := ⟨turns - 1, by omega⟩
    rw [parseDependsIn, bind_ok]
    refine ⟨true, rest, accept_of hc, ?_⟩
    rw [if_pos rfl]
    exact pure_ok.mpr ⟨rfl, rfl⟩
  | @cons n sep more hident hsep hmore ih =>
    obtain ⟨turns, rfl⟩ : ∃ n, turns = n + 1 := ⟨turns - 1, by omega⟩
    have hokMore : ∀ t ∈ more, t.Ok := fun t ht => hok t (by simp [ht])
    have hlen : more.length < turns := by
      simp only [List.length_cons, List.length_append] at hturns
      omega
    rw [parseDependsIn, bind_ok]
    refine ⟨false, _, accept_of_ne ((hok n (by simp)).ne_mark hident (by decide)), ?_⟩
    rw [if_neg Bool.false_ne_true, bind_ok]
    refine ⟨_, _, expect_of hident (by simp), ?_⟩
    rw [bind_ok]
    refine ⟨sep.isSome, more ++ c :: rest, ?_, ih hokMore hlen⟩
    cases sep with
    | none => exact accept_after hmore.head hokMore hc (by decide) rfl (by decide) rest
    | some s => exact accept_of (hsep s rfl)

theorem parseType_of {record : Record} (h : ItemOf used (.type record)) (hok : ∀ t ∈ used, t.Ok)
    (rest : List Token) : parseType.run (used ++ rest) = .ok (record, rest) := by
  cases h with
  | @type k n o c ts fields hk hident ho hfields hc =>
    have hkind := (hok k (by simp)).keyword hk (by decide)
    rw [parseType, bind_ok]
    refine ⟨_, _, expect_of hkind (by rintro v ⟨⟩; exact hk), ?_⟩
    rw [bind_ok]
    refine ⟨_, _, expect_of hident (by simp), ?_⟩
    rw [bind_ok]
    refine ⟨_, _, expect_mark (hok o (by simp)) (by decide) ho, ?_⟩
    rw [bind_ok]
    refine ⟨_, _, ahead_of, ?_⟩
    rw [bind_ok]
    refine ⟨fields, rest, ?_, pure_ok.mpr ⟨rfl, rfl⟩⟩
    have hturns : ts.length < (ts ++ [c] ++ rest).length + 1 := by
      rw [List.append_assoc, List.length_append]
      omega
    have hread := parseFieldsIn_of hfields (fun t ht => hok t (by simp [ht])) hc hturns [] rest
    simpa using hread

theorem parseMethod_of {method : Callable} (h : ItemOf used (.method method))
    (hok : ∀ t ∈ used, t.Ok) (hnext : t.value ≠ "->".toList) (rest : List Token) :
    parseMethod.run (used ++ t :: rest) = .ok (method, t :: rest) := by
  cases h with
  | @method k n o c ts params hk hident ho hparams hc =>
    have hkind := (hok k (by simp)).keyword hk (by decide)
    have hread := parseParams_of hparams (fun t ht => hok t (by simp [ht])) (hok o (by simp)) ho hc
      (t :: rest)
    rw [parseMethod, bind_ok]
    refine ⟨_, _, expect_of hkind (by rintro v ⟨⟩; exact hk), ?_⟩
    rw [bind_ok]
    refine ⟨_, _, expect_of hident (by simp), ?_⟩
    rw [bind_ok]
    refine ⟨params, t :: rest, by simpa using hread, ?_⟩
    rw [bind_ok]
    exact ⟨false, t :: rest, accept_of_ne hnext, pure_ok.mpr ⟨rfl, rfl⟩⟩
  | @methodReturning k n o c a ts rs params returns hk hident ho hparams hc ha hreturns =>
    have hkind := (hok k (by simp)).keyword hk (by decide)
    have hread := parseParams_of hparams (fun t ht => hok t (by simp [ht])) (hok o (by simp)) ho hc
      (a :: (rs ++ t :: rest))
    rw [parseMethod, bind_ok]
    refine ⟨_, _, expect_of hkind (by rintro v ⟨⟩; exact hk), ?_⟩
    rw [bind_ok]
    refine ⟨_, _, expect_of hident (by simp), ?_⟩
    rw [bind_ok]
    refine ⟨params, a :: (rs ++ t :: rest), by simpa using hread, ?_⟩
    rw [bind_ok]
    refine ⟨true, _, accept_of ha, ?_⟩
    rw [if_pos rfl, bind_ok]
    exact ⟨returns, t :: rest, parseTypeExpr_of hreturns (fun t ht => hok t (by simp [ht])) _,
      pure_ok.mpr ⟨rfl, rfl⟩⟩

theorem parseEvent_of {event : Callable} (h : ItemOf used (.event event))
    (hok : ∀ t ∈ used, t.Ok) (rest : List Token) :
    parseEvent.run (used ++ rest) = .ok (event, rest) := by
  cases h with
  | @event k n o c ts params hk hident ho hparams hc =>
    have hkind := (hok k (by simp)).keyword hk (by decide)
    have hread := parseParams_of hparams (fun t ht => hok t (by simp [ht])) (hok o (by simp)) ho hc
      rest
    rw [parseEvent, bind_ok]
    refine ⟨_, _, expect_of hkind (by rintro v ⟨⟩; exact hk), ?_⟩
    rw [bind_ok]
    refine ⟨_, _, expect_of hident (by simp), ?_⟩
    rw [bind_ok]
    exact ⟨params, rest, by simpa using hread, pure_ok.mpr ⟨rfl, rfl⟩⟩

/-- An item begins with one of its words. -/
theorem ItemOf.head {item : Item} (h : ItemOf used item) :
    ∃ k us, used = k :: us ∧ k.value ∈ item.words := by
  cases h with
  | property hk | depends hk => exact ⟨_, _, rfl, hk⟩
  | type hk | method hk | methodReturning hk | event hk =>
    exact ⟨_, _, rfl, List.mem_singleton.mpr hk⟩

/-- A body, and what closes it, begin with a keyword or the closing mark. -/
theorem BodyOf.head {items : List Item} (h : BodyOf used items) (c : Token) (rest : List Token) :
    ∃ t us, used ++ c :: rest = t :: us ∧ (t.value ∈ keywords ∨ t = c) := by
  cases h with
  | nil => exact ⟨c, rest, rfl, Or.inr rfl⟩
  | @item ts more item items hitem =>
    obtain ⟨k, us, rfl, hk⟩ := hitem.head
    exact ⟨k, _, rfl, Or.inl (item.keyword hk)⟩
  | depends hk => exact ⟨_, _, rfl, Or.inl (Item.depends.keyword hk)⟩

theorem parseItemsIn_of {items : List Item} (h : BodyOf used items) (hok : ∀ t ∈ used, t.Ok)
    (hc : c.value = ['}']) {turns : ℕ} (hturns : used.length < turns) (module : Contract)
    (rest : List Token) : (parseItemsIn turns module).run (used ++ c :: rest) =
      .ok (items.foldl Contract.add module, rest) := by
  induction h generalizing turns module with
  | nil =>
    obtain ⟨turns, rfl⟩ : ∃ n, turns = n + 1 := ⟨turns - 1, by omega⟩
    rw [parseItemsIn, bind_ok]
    refine ⟨true, rest, accept_of hc, ?_⟩
    rw [if_pos rfl]
    exact pure_ok.mpr ⟨rfl, rfl⟩
  | @item ts more item items hitem hno hbody ih =>
    obtain ⟨turns, rfl⟩ : ∃ n, turns = n + 1 := ⟨turns - 1, by omega⟩
    obtain ⟨k, us, heq, hk⟩ := hitem.head
    have hkOk : k.Ok := hok k (by simp [heq])
    have hident := hkOk.keyword rfl (item.keyword hk)
    have hokItem : ∀ t ∈ ts, t.Ok := fun t ht => hok t (by simp [ht])
    have hlen : more.length < turns := by
      have hpos : 0 < ts.length := by simp [heq]
      simp only [List.length_append] at hturns
      omega
    have hrest := ih (fun t ht => hok t (by simp [ht])) hlen
    have haccept : (accept ['}']).run (ts ++ (more ++ c :: rest)) =
        .ok (false, ts ++ (more ++ c :: rest)) := by
      rw [heq]
      exact accept_of_ne (hkOk.ne_mark hident (by decide))
    have hpeek : peek.run (ts ++ (more ++ c :: rest)) = .ok (k, ts ++ (more ++ c :: rest)) := by
      rw [heq]
      rfl
    rw [List.append_assoc, parseItemsIn, bind_ok]
    refine ⟨false, _, haccept, ?_⟩
    rw [if_neg Bool.false_ne_true, bind_ok]
    refine ⟨k, _, hpeek, ?_⟩
    rw [if_neg (by rw [hident]; decide)]
    cases item with
    | property =>
      cases hitem with
      | @property k' s hword hs =>
        obtain ⟨rfl, -⟩ := List.cons.inj heq
        rw [if_pos hword, bind_ok]
        refine ⟨_, _, next_ok.mpr rfl, ?_⟩
        rw [bind_ok]
        exact ⟨_, _, expect_of hs (by simp), hrest module⟩
    | depends => exact absurd rfl hno
    | type record =>
      obtain hk : k.value = "type".toList := List.mem_singleton.mp hk
      rw [if_neg (by rw [hk]; decide), if_neg (by rw [hk]; decide), if_pos hk, bind_ok]
      exact ⟨_, _, parseType_of hitem hokItem _, hrest _⟩
    | method method =>
      obtain hk : k.value = "method".toList := List.mem_singleton.mp hk
      obtain ⟨t, us', hnext, ht⟩ := hbody.head c rest
      have harrow : t.value ≠ "->".toList := by
        rcases ht with ht | rfl
        · intro heq
          rw [heq] at ht
          revert ht
          decide
        · rw [hc]
          decide
      rw [if_neg (by rw [hk]; decide), if_neg (by rw [hk]; decide), if_neg (by rw [hk]; decide),
        if_pos hk, bind_ok]
      refine ⟨method, more ++ c :: rest, ?_, hrest _⟩
      rw [hnext]
      exact parseMethod_of hitem hokItem harrow us'
    | event event =>
      obtain hk : k.value = "event".toList := List.mem_singleton.mp hk
      rw [if_neg (by rw [hk]; decide), if_neg (by rw [hk]; decide), if_neg (by rw [hk]; decide),
        if_neg (by rw [hk]; decide), if_pos hk, bind_ok]
      exact ⟨_, _, parseEvent_of hitem hokItem _, hrest _⟩
  | @depends k o b ts more items hk ho hnames hb hbody ih =>
    obtain ⟨turns, rfl⟩ : ∃ n, turns = n + 1 := ⟨turns - 1, by omega⟩
    have hkOk : k.Ok := hok k (by simp)
    have hident := hkOk.keyword rfl (Item.depends.keyword hk)
    have hlen : more.length < turns := by
      simp only [List.length_cons, List.length_append] at hturns
      omega
    have hdisjoint : ∀ w ∈ ["depends".toList, "optional_depends".toList],
        w ∉ ["version".toList, "description".toList, "category".toList] :=
      List.all_iff_forall_prop.mp (by decide)
    have hassoc : k :: o :: (ts ++ b :: more) ++ c :: rest =
        k :: o :: (ts ++ b :: (more ++ c :: rest)) := by simp
    rw [hassoc, parseItemsIn, bind_ok]
    refine ⟨false, _, accept_of_ne (hkOk.ne_mark hident (by decide)), ?_⟩
    rw [if_neg Bool.false_ne_true, bind_ok]
    refine ⟨k, _, peek_ok.mpr ⟨_, rfl, rfl⟩, ?_⟩
    rw [if_neg (by rw [hident]; decide), if_neg (hdisjoint _ hk), if_pos hk, bind_ok]
    refine ⟨_, _, next_ok.mpr rfl, ?_⟩
    rw [bind_ok]
    refine ⟨_, _, expect_mark (hok o (by simp)) (by decide) ho, ?_⟩
    rw [bind_ok]
    refine ⟨_, _, ahead_of, ?_⟩
    rw [bind_ok]
    refine ⟨(), more ++ c :: rest, ?_, ih (fun t ht => hok t (by simp [ht])) hlen module⟩
    exact parseDependsIn_of hnames (fun t ht => hok t (by simp [ht])) hb
      (by rw [List.length_append]; omega) _

/-- What the grammar derives is read, up to the brace that closes it. -/
theorem parseModule_of {module : Contract} (h : ModuleOf used module) (hok : ∀ t ∈ used, t.Ok)
    (rest : List Token) : parseModule.run (used ++ rest) = .ok (module, rest) := by
  cases h with
  | @intro k n o c ts items hk hident ho hbody hc =>
    have hkind := (hok k (by simp)).keyword hk (by decide)
    have hassoc : k :: n :: o :: (ts ++ [c]) ++ rest = k :: n :: o :: (ts ++ c :: rest) := by simp
    rw [hassoc, parseModule, bind_ok]
    refine ⟨_, _, expect_of hkind (by rintro v ⟨⟩; exact hk), ?_⟩
    rw [bind_ok]
    refine ⟨_, _, expect_of hident (by simp), ?_⟩
    rw [bind_ok]
    refine ⟨_, _, expect_mark (hok o (by simp)) (by decide) ho, ?_⟩
    rw [bind_ok]
    refine ⟨_, _, ahead_of, ?_⟩
    exact parseItemsIn_of hbody (fun t ht => hok t (by simp [ht])) hc
      (by rw [List.length_append]; omega) _ rest

end Complete

/-! ## What is refused -/

/-- Tokens as the tokenizer leaves them: the last one says that it is. -/
def Ended (ts : List Token) : Prop :=
  (∀ t ∈ ts, t.Ok) ∧ ∃ front e, ts = front ++ [e] ∧ e.kind = .eof

/-- From here nothing is read past the last token. -/
def Safe {α : Type} (ts : List Token) (x : Parser α) : Prop :=
  x.run ts ≠ .error .indexError ∧ ∀ a ts', x.run ts = .ok (a, ts') → Ended ts'

section Refused

variable {α β : Type}

theorem Ended.begins (h : Ended ts) : ∃ t us, ts = t :: us ∧ t.Ok ∧ (t.kind ≠ .eof → Ended us) := by
  obtain ⟨hok, front, e, rfl, he⟩ := h
  cases front with
  | nil => exact ⟨e, [], rfl, hok e (by simp), fun hne => absurd he hne⟩
  | cons t front =>
    refine ⟨t, front ++ [e], rfl, hok t (by simp), fun _ => ⟨?_, front, e, rfl, he⟩⟩
    intro u hu
    exact hok u (List.mem_cons_of_mem _ hu)

/-- What ends the tokens has no text. -/
theorem Token.Ok.kind_ne_eof (h : t.Ok) (hvalue : t.value ≠ []) : t.kind ≠ .eof := by
  intro heof
  have hform := h.2
  rw [heof] at hform
  exact hvalue hform

theorem safe_bind {x : Parser α} {f : α → Parser β} (hx : Safe ts x)
    (hf : ∀ a ts', x.run ts = .ok (a, ts') → Safe ts' (f a)) : Safe ts (x >>= f) := by
  unfold Safe
  rw [StateT.run_bind]
  cases hrun : x.run ts with
  | error e =>
    refine ⟨?_, fun b ts' heq => by cases heq⟩
    intro heq
    exact hx.1 (hrun.trans (congrArg _ (Except.error.inj heq)))
  | ok r => exact hf r.1 r.2 hrun

theorem safe_then {x : Parser α} {f : α → Parser β} (hx : Safe ts x)
    (hf : ∀ a ts', Ended ts' → Safe ts' (f a)) : Safe ts (x >>= f) :=
  safe_bind hx fun a ts' hrun => hf a ts' (hx.2 a ts' hrun)

theorem safe_pure (h : Ended ts) (a : α) : Safe ts (pure a : Parser α) := by
  constructor
  · rw [StateT.run_pure]
    exact fun heq => by cases heq
  · intro b ts' heq
    obtain ⟨-, rfl⟩ := pure_ok.mp heq
    exact h

theorem safe_throw {e : Raised} (h : e ≠ .indexError) : Safe ts (throw e : Parser α) := by
  refine ⟨?_, fun a ts' heq => absurd heq not_throw_ok⟩
  intro heq
  exact h (Except.error.inj heq)

theorem safe_ite {c : Prop} [Decidable c] {x y : Parser α} (hx : c → Safe ts x)
    (hy : ¬ c → Safe ts y) : Safe ts (if c then x else y) := by
  split
  · next h => exact hx h
  · next h => exact hy h

theorem safe_take {f : Token → Parser β} (h : Safe ts (f t)) : Safe (t :: ts) (next >>= f) := h

/-- A token is taken; what is done with the last one has to fail. -/
theorem safe_next {f : Token → Parser β} (h : Ended ts)
    (hf : ∀ t us, t.Ok → (t.kind ≠ .eof → Ended us) → Safe us (f t)) : Safe ts (next >>= f) := by
  obtain ⟨t, us, rfl, hok, hus⟩ := h.begins
  exact safe_take (hf t us hok hus)

theorem safe_expect (h : Ended ts) {kind : Kind} {value : Option Text} (hkind : kind ≠ .eof) :
    Safe ts (expect kind value) := by
  refine safe_next h fun t us hok hus => safe_ite (fun _ => safe_throw (by simp)) fun hnot => ?_
  refine safe_pure (hus ?_) _
  intro heof
  exact hnot (Or.inl (heof ▸ hkind.symm))

theorem safe_accept (h : Ended ts) {v : Text} (hv : v ≠ []) : Safe ts (accept v) := by
  obtain ⟨t, us, rfl, hok, hus⟩ := h.begins
  by_cases hvalue : t.value = v
  · refine ⟨by rw [accept_of hvalue]; simp, ?_⟩
    intro a ts' heq
    rw [accept_of hvalue] at heq
    obtain ⟨-, rfl⟩ := Prod.mk.inj (Except.ok.inj heq)
    exact hus (hok.kind_ne_eof (hvalue ▸ hv))
  · refine ⟨by rw [accept_of_ne hvalue]; simp, ?_⟩
    intro a ts' heq
    rw [accept_of_ne hvalue] at heq
    obtain ⟨-, rfl⟩ := Prod.mk.inj (Except.ok.inj heq)
    exact h

theorem safe_ahead {f : ℕ → Parser β} (hf : ∀ n, Safe ts (f n)) : Safe ts (ahead >>= f) :=
  hf ts.length

theorem safe_parseTypeExprIn (depth : ℕ) (h : Ended ts) : Safe ts (parseTypeExprIn depth) := by
  induction depth generalizing ts with
  | zero => exact safe_throw (by simp)
  | succ depth ih =>
    refine safe_next h fun t us hok hus => ?_
    have hmark : ∀ {c : Char}, t.value = [c] → Ended us := fun hvalue =>
      hus (hok.kind_ne_eof (by simp [hvalue]))
    have hpunct : ∀ {us : List Token} {value : Option Text}, Ended us →
        Safe us (expect .punct value) := fun hended => safe_expect hended (by simp)
    refine safe_ite (fun hq => safe_then (ih (hmark hq)) fun _ _ h₁ => safe_pure h₁ _) fun _ => ?_
    refine safe_ite (fun ho => safe_then (ih (hmark ho)) fun _ _ h₁ =>
      safe_then (hpunct h₁) fun _ _ h₂ => safe_pure h₂ _) fun _ => ?_
    refine safe_ite (fun ho => safe_then (ih (hmark ho)) fun _ _ h₁ =>
      safe_then (hpunct h₁) fun _ _ h₂ => safe_then (ih h₂) fun _ _ h₃ =>
      safe_then (hpunct h₃) fun _ _ h₄ => safe_pure h₄ _) fun _ => ?_
    refine safe_ite (fun hident => safe_pure (hus ?_) _) fun _ => safe_throw (by simp)
    rw [hident]
    decide

theorem safe_parseTypeExpr (h : Ended ts) : Safe ts parseTypeExpr :=
  safe_ahead fun _ => safe_parseTypeExprIn _ h

theorem safe_parseParamsIn (turns : ℕ) (params : List Param) (h : Ended ts) :
    Safe ts (parseParamsIn turns params) := by
  induction turns generalizing ts params with
  | zero => exact safe_throw (by simp)
  | succ turns ih =>
    refine safe_then (safe_accept h (by simp)) fun _ _ h₁ => ?_
    refine safe_ite (fun _ => safe_pure h₁ _) fun _ => ?_
    refine safe_then (safe_expect h₁ (by simp)) fun _ _ h₂ => ?_
    refine safe_then (safe_expect h₂ (by simp)) fun _ _ h₃ => ?_
    refine safe_then (safe_parseTypeExpr h₃) fun _ _ h₄ => ?_
    exact safe_then (safe_accept h₄ (by simp)) fun _ _ h₅ => ih _ h₅

theorem safe_parseParams (h : Ended ts) : Safe ts parseParams :=
  safe_then (safe_expect h (by simp)) fun _ _ h₁ => safe_ahead fun _ => safe_parseParamsIn _ _ h₁

theorem safe_parseFieldsIn (turns : ℕ) (fields : List Field) (h : Ended ts) :
    Safe ts (parseFieldsIn turns fields) := by
  induction turns generalizing ts fields with
  | zero => exact safe_throw (by simp)
  | succ turns ih =>
    refine safe_then (safe_accept h (by simp)) fun _ _ h₁ => ?_
    refine safe_ite (fun _ => safe_pure h₁ _) fun _ => ?_
    refine safe_then (safe_accept h₁ (by simp)) fun _ _ h₂ => ?_
    refine safe_then (safe_expect h₂ (by simp)) fun _ _ h₃ => ?_
    refine safe_then (safe_expect h₃ (by simp)) fun _ _ h₄ => ?_
    exact safe_then (safe_parseTypeExpr h₄) fun _ _ h₅ => ih _ h₅

theorem safe_parseDependsIn (turns : ℕ) (h : Ended ts) : Safe ts (parseDependsIn turns) := by
  induction turns generalizing ts with
  | zero => exact safe_throw (by simp)
  | succ turns ih =>
    refine safe_then (safe_accept h (by simp)) fun _ _ h₁ => ?_
    refine safe_ite (fun _ => safe_pure h₁ _) fun _ => ?_
    refine safe_then (safe_expect h₁ (by simp)) fun _ _ h₂ => ?_
    exact safe_then (safe_accept h₂ (by simp)) fun _ _ h₃ => ih h₃

theorem safe_parseType (h : Ended ts) : Safe ts parseType := by
  refine safe_then (safe_expect h (by simp)) fun _ _ h₁ => ?_
  refine safe_then (safe_expect h₁ (by simp)) fun _ _ h₂ => ?_
  refine safe_then (safe_expect h₂ (by simp)) fun _ _ h₃ => safe_ahead fun _ => ?_
  exact safe_then (safe_parseFieldsIn _ _ h₃) fun _ _ h₄ => safe_pure h₄ _

theorem safe_parseMethod (h : Ended ts) : Safe ts parseMethod := by
  refine safe_then (safe_expect h (by simp)) fun _ _ h₁ => ?_
  refine safe_then (safe_expect h₁ (by simp)) fun _ _ h₂ => ?_
  refine safe_then (safe_parseParams h₂) fun _ _ h₃ => ?_
  refine safe_then (safe_accept h₃ (by decide)) fun _ _ h₄ => ?_
  exact safe_ite (fun _ => safe_then (safe_parseTypeExpr h₄) fun _ _ h₅ => safe_pure h₅ _)
    fun _ => safe_pure h₄ _

theorem safe_parseEvent (h : Ended ts) : Safe ts parseEvent := by
  refine safe_then (safe_expect h (by simp)) fun _ _ h₁ => ?_
  refine safe_then (safe_expect h₁ (by simp)) fun _ _ h₂ => ?_
  exact safe_then (safe_parseParams h₂) fun _ _ h₃ => safe_pure h₃ _

theorem safe_parseItemsIn (turns : ℕ) (module : Contract) (h : Ended ts) :
    Safe ts (parseItemsIn turns module) := by
  induction turns generalizing ts module with
  | zero => exact safe_throw (by simp)
  | succ turns ih =>
    refine safe_then (safe_accept h (by simp)) fun _ ts₁ h₁ => ?_
    refine safe_ite (fun _ => safe_pure h₁ _) fun _ => ?_
    obtain ⟨t, us, rfl, -, hus⟩ := h₁.begins
    show Safe (t :: us) (if t.kind = .eof then _ else _)
    refine safe_ite (fun _ => safe_throw (by simp)) fun heof => ?_
    refine safe_ite (fun _ => safe_take ?_) fun _ => ?_
    · exact safe_then (safe_expect (hus heof) (by simp)) fun _ _ h₂ => ih _ h₂
    refine safe_ite (fun _ => safe_take ?_) fun _ => ?_
    · refine safe_then (safe_expect (hus heof) (by simp)) fun _ _ h₂ => safe_ahead fun _ => ?_
      exact safe_then (safe_parseDependsIn _ h₂) fun _ _ h₃ => ih _ h₃
    refine safe_ite (fun _ => safe_then (safe_parseType h₁) fun _ _ h₂ => ih _ h₂) fun _ => ?_
    refine safe_ite (fun _ => safe_then (safe_parseMethod h₁) fun _ _ h₂ => ih _ h₂) fun _ => ?_
    refine safe_ite (fun _ => safe_then (safe_parseEvent h₁) fun _ _ h₂ => ih _ h₂) fun _ => ?_
    exact safe_throw (by simp)

theorem safe_parseModule (h : Ended ts) : Safe ts parseModule := by
  refine safe_then (safe_expect h (by simp)) fun _ _ h₁ => ?_
  refine safe_then (safe_expect h₁ (by simp)) fun _ _ h₂ => ?_
  refine safe_then (safe_expect h₂ (by simp)) fun _ _ h₃ => safe_ahead fun _ => ?_
  exact safe_parseItemsIn _ _ h₃

/-- The last token is put at the end of the text. -/
theorem tokenizeFrom_ended {s : Text} {skip line : ℕ} (h : tokenizeFrom skip line s = .ok ts) :
    ∃ front e, ts = front ++ [e] ∧ e.kind = .eof := by
  induction s generalizing skip line ts with
  | nil =>
    obtain rfl := Except.ok.inj h
    exact ⟨[], _, rfl, rfl⟩
  | cons c s ih =>
    cases skip with
    | succ skip => exact ih h
    | zero =>
      rw [tokenizeFrom] at h
      split at h
      · next rest kind value hmatch =>
        cases hrest : tokenizeFrom (value.length - 1) (line + value.count '\n') s with
        | error e =>
          rw [hrest] at h
          cases h
        | ok tokens =>
          rw [hrest] at h
          obtain ⟨front, e, rfl, he⟩ := ih hrest
          obtain rfl := Except.ok.inj h
          split
          · exact ⟨front, e, rfl, he⟩
          · exact ⟨_ :: front, e, rfl, he⟩
      · cases h

theorem tokenizeFrom_error {s : Text} {skip line : ℕ} {raised : Raised}
    (h : tokenizeFrom skip line s = .error raised) : ∃ error, raised = .lidl error := by
  induction s generalizing skip line with
  | nil => cases h
  | cons c s ih =>
    cases skip with
    | succ skip => exact ih h
    | zero =>
      rw [tokenizeFrom] at h
      split at h
      · next rest kind value hmatch =>
        cases hrest : tokenizeFrom (value.length - 1) (line + value.count '\n') s with
        | error e =>
          rw [hrest] at h
          obtain rfl := Except.error.inj h
          exact ih hrest
        | ok tokens =>
          rw [hrest] at h
          cases h
      · exact ⟨_, (Except.error.inj h).symm⟩

end Refused

/-! ## Sources -/

/-- A source is read exactly when its tokens begin with those of a module, and then as that
module, whatever comes after it. -/
theorem read_iff {source : Text} {module : Contract} {comments : List (ℕ × Comment)} :
    readContract source = .ok (module, comments) ↔ comments = (splitComments source).2 ∧
      ∃ used rest, tokenize (splitComments source).1 = .ok (used ++ rest) ∧
        ModuleOf used module := by
  rw [readContract]
  cases htokens : tokenize (splitComments source).1 with
  | error e => simp [htokens, bind, Except.bind]
  | ok ts =>
    have hok := tokenize_wellFormed htokens
    simp only [htokens, bind, Except.bind, Except.ok.injEq]
    constructor
    · intro h
      cases hmodule : parseModule.run ts with
      | error e =>
        rw [hmodule] at h
        cases h
      | ok r =>
        rw [hmodule] at h
        obtain ⟨rfl, rfl⟩ := Prod.mk.inj (Except.ok.inj h)
        obtain ⟨used, heq, hderived⟩ := parseModule_derived hmodule
        exact ⟨rfl, used, r.2, heq, hderived⟩
    · rintro ⟨rfl, used, rest, rfl, hmodule⟩
      rw [parseModule_of hmodule (fun t ht => hok t (List.mem_append_left _ ht)) rest]
      rfl

/-- What stops the reading is a complaint about the source. -/
theorem readContract_error {source : Text} {raised : Raised}
    (h : readContract source = .error raised) : ∃ error, raised = .lidl error := by
  rw [readContract] at h
  cases htokens : tokenize (splitComments source).1 with
  | error e =>
    simp only [htokens, bind, Except.bind, Except.error.injEq] at h
    obtain rfl := h
    exact tokenizeFrom_error htokens
  | ok ts =>
    have hsafe := safe_parseModule ⟨tokenize_wellFormed htokens, tokenizeFrom_ended htokens⟩
    cases hmodule : parseModule.run ts with
    | ok r =>
      simp only [htokens, bind, Except.bind, hmodule] at h
      cases h
    | error e =>
      simp only [htokens, bind, Except.bind, hmodule, Except.error.injEq] at h
      obtain rfl := h
      cases e with
      | lidl error => exact ⟨error, rfl⟩
      | indexError => exact absurd hmodule hsafe.1
      | recursionError => exact absurd hmodule (parseModule_recurses ts)

/-- The program ends with the files or by saying what is wrong with the source. It says that
the source is no contract exactly when its tokens do not begin with a module. -/
theorem main_refuses (A : Alphabet) (sourceName source : Text) :
    (∀ raised, main A sourceName source ≠ .error (.crashed raised)) ∧
      ((∃ error, main A sourceName source = .error (.lidl error)) ↔
        ¬ ∃ used rest module, tokenize (splitComments source).1 = .ok (used ++ rest) ∧
          ModuleOf used module) := by
  unfold main
  cases hread : readContract source with
  | error e =>
    obtain ⟨error, rfl⟩ := readContract_error hread
    refine ⟨by simp, ⟨?_, fun _ => ⟨error, rfl⟩⟩⟩
    rintro - ⟨used, rest, module, htokens, hmodule⟩
    have hok := read_iff.mpr ⟨rfl, used, rest, htokens, hmodule⟩
    rw [hread] at hok
    cases hok
  | ok r =>
    obtain ⟨module, comments⟩ := r
    obtain ⟨-, used, rest, htokens, hmodule⟩ := read_iff.mp hread
    constructor
    · intro raised
      simp only
      split_ifs <;> simp
    · constructor
      · rintro ⟨error, h⟩
        simp only at h
        split_ifs at h <;> cases h
      · intro hnot
        exact absurd ⟨used, rest, module, htokens, hmodule⟩ hnot

end ChatModule.Docs
