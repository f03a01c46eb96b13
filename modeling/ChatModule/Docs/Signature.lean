import Mathlib.Data.Bool.AllAny
import ChatModule.Docs.Declarations
import ChatModule.Docs.Rendering

/-!
# Signatures read back

The documentation domain takes a rendered signature apart by the expression SIGNATURE and by
splitting at commas. `.*` in it goes to the last closing parenthesis and an arrow is looked
for after that one, so that what decides is what a type can hold: no comma, no parenthesis
and no arrow. With this a signature gives back the declaration it was rendered from
(`handleSignature_signature`), and a type the tokens it was read from (`tokenize_type`).
-/

namespace ChatModule.Docs

/-! ## The documentation domain -/

/-- The groups of SIGNATURE. -/
inductive Part
  | name
  | params
  | returns
deriving DecidableEq, Repr

/-- `SIGNATURE`, anchored at both ends. -/
def SIGNATURE (A : Alphabet) : Regex Char Part :=
  .seq (.group .name (.plus (.one A.isWord)))
    (.seq (.star (.one isSpace))
    (.seq (.opt (.seq (.one (· == '('))
      (.seq (.group .params (.star (.one fun _ => true))) (.one (· == ')')))))
    (.seq (.star (.one isSpace))
      (.opt (.seq (.lit "->".toList)
        (.seq (.star (.one isSpace)) (.group .returns (.plus (.one fun _ => true)))))))))

/-- What a declaration shows. -/
structure Signode where
  annotation : Option Text
  name : Text
  params : Option (List Text)
  returns : Option Text
deriving DecidableEq, Repr

/-- What `handle_signature` raises. -/
inductive ValueError
  | unparsable (sig : Text)
deriving DecidableEq, Repr

/-- `handle_signature`. -/
def handleSignature (A : Alphabet) (objtype sig : Text) : Except ValueError Signode :=
  match (SIGNATURE A).fullmatch? (strip sig) with
  | none => .error (.unparsable sig)
  | some m =>
    .ok {
      annotation := if objtype = "record".toList then some "type ".toList else none
      name := (m.group .name).getD []
      params := (m.group .params).map fun params =>
        ((params.splitOn ',').map strip).filter (· ≠ [])
      returns := (m.group .returns).filter (· ≠ []) }

/-! ## Edges -/

/-- No space at either end, and not empty. -/
def Trimmed (w : Text) : Prop :=
  w ≠ [] ∧ (∀ c ∈ w.head?, isSpace c = false) ∧ ∀ c ∈ w.getLast?, isSpace c = false

theorem dropWhile_of_head {s : Text} {p : Char → Bool} (h : ∀ c ∈ s.head?, p c = false) :
    s.dropWhile p = s := by
  cases s with
  | nil => rfl
  | cons c s => rw [List.dropWhile_cons_of_neg (by simp [h c rfl])]

theorem Trimmed.strip {w : Text} (h : Trimmed w) : strip w = w := by
  obtain ⟨-, hhead, hlast⟩ := h
  rw [Docs.strip, dropWhile_of_head hhead, dropWhile_of_head (by rwa [List.head?_reverse]),
    List.reverse_reverse]

theorem range_of_identPart {c : Char} (h : identPart c) : 48 ≤ c.toNat ∧ c.toNat ≤ 122 := by
  change ((c.isUpper || c.isLower) || c.isDigit) || c == '_' at h
  simp only [Bool.or_eq_true, beq_iff_eq] at h
  rcases h with ((hupper | hlower) | hdigit) | rfl
  · have hrange : 65 ≤ c.toNat ∧ c.toNat ≤ 90 := of_decide_eq_true hupper
    omega
  · obtain ⟨hfrom, hto⟩ := Bool.and_eq_true_iff.mp hlower
    have hrange : 97 ≤ c.toNat ∧ c.toNat ≤ 122 := ⟨of_decide_eq_true hfrom, of_decide_eq_true hto⟩
    omega
  · obtain ⟨hfrom, hto⟩ := Bool.and_eq_true_iff.mp hdigit
    have hrange : 48 ≤ c.toNat ∧ c.toNat ≤ 57 := ⟨of_decide_eq_true hfrom, of_decide_eq_true hto⟩
    omega
  · decide

theorem isSpace_of_identPart {c : Char} (h : identPart c) : isSpace c = false := by
  have hrange := range_of_identPart h
  by_contra hspace
  rw [Bool.not_eq_false] at hspace
  have hall : ∀ n ∈ [0x09, 0x0A, 0x0B, 0x0C, 0x0D, 0x1C, 0x1D, 0x1E, 0x1F, 0x20, 0x85, 0xA0,
      0x1680, 0x2000, 0x2001, 0x2002, 0x2003, 0x2004, 0x2005, 0x2006, 0x2007, 0x2008, 0x2009,
      0x200A, 0x2028, 0x2029, 0x202F, 0x205F, 0x3000], n < 48 ∨ 122 < n := by decide
  have hspace' := hall _ (of_decide_eq_true hspace)
  omega

theorem IsIdent.trimmed {w : Text} (h : IsIdent w) : Trimmed w := by
  refine ⟨h.ne_nil, ?_, ?_⟩
  · intro c hc
    exact isSpace_of_identPart (h.identPart_of_mem c (List.mem_of_mem_head? hc))
  · intro c hc
    exact isSpace_of_identPart (h.identPart_of_mem c (List.mem_of_mem_getLast? hc))

theorem TypeOf.trimmed {ts : List Token} {w : Text} (h : TypeOf ts w) (hok : ∀ t ∈ ts, t.Ok) :
    Trimmed w := by
  induction h with
  | @name t hkind => exact ((hok t List.mem_cons_self).isIdent hkind).trimmed
  | @optional q ts type _ _ ih =>
    obtain ⟨hne, -, hlast⟩ := ih fun t ht => hok t (List.mem_cons_of_mem _ ht)
    refine ⟨by simp, by rintro c ⟨⟩; decide, ?_⟩
    intro c hc
    rw [List.getLast?_cons_of_ne_nil hne] at hc
    exact hlast c hc
  | list | map =>
    refine ⟨by simp, by rintro c ⟨⟩; decide, ?_⟩
    intro c hc
    rw [List.getLast?_concat] at hc
    obtain rfl := Option.some.inj hc
    decide

theorem IsType.trimmed {w : Text} (h : IsType w) : Trimmed w := by
  obtain ⟨ts, htype, hok⟩ := h
  exact htype.trimmed hok

/-- Between two texts the edges are those of the one and the other. -/
theorem Trimmed.append {v w : Text} (hv : Trimmed v) (between : Text) (hw : Trimmed w) :
    Trimmed (v ++ between ++ w) := by
  obtain ⟨hvne, hvhead, -⟩ := hv
  obtain ⟨hwne, -, hwlast⟩ := hw
  refine ⟨by simp [hvne], ?_, ?_⟩
  · intro c hc
    rw [List.append_assoc, List.head?_append_of_ne_nil _ hvne] at hc
    exact hvhead c hc
  · intro c hc
    rw [List.getLast?_append_of_ne_nil _ hwne] at hc
    exact hwlast c hc

/-! ## Parameters -/

/-- A parameter, as a signature shows it. -/
def Param.text (p : Param) : Text := p.name ++ ": ".toList ++ p.type

theorem strip_space (w : Text) : strip (' ' :: w) = strip w := by
  rw [strip, List.dropWhile_cons_of_pos (by decide)]
  rfl

/-- After a comma the next part has a space in front of it. -/
theorem split_parts {parts : List Text} (hne : parts ≠ []) (htrimmed : ∀ p ∈ parts, Trimmed p)
    (hcomma : ∀ p ∈ parts, ',' ∉ p) {space : Text} (hspace : space = [] ∨ space = [' ']) :
    ((space ++ join ", ".toList parts).splitOn ',').map strip = parts := by
  induction parts generalizing space with
  | nil => exact absurd rfl hne
  | cons p parts ih =>
    have hp : strip (space ++ p) = p := by
      rcases hspace with rfl | rfl
      · exact (htrimmed p List.mem_cons_self).strip
      · exact (strip_space p).trans (htrimmed p List.mem_cons_self).strip
    have hno : ',' ∉ space ++ p := by
      rw [List.mem_append]
      rintro (hmem | hmem)
      · rcases hspace with rfl | rfl
        · cases hmem
        · exact absurd hmem (by decide)
      · exact hcomma p List.mem_cons_self hmem
    cases parts with
    | nil =>
      rw [join, List.intercalate_singleton, List.splitOn_eq_singleton hno]
      exact congrArg (fun w => [w]) hp
    | cons q parts =>
      have hjoin : space ++ join ", ".toList (p :: q :: parts) =
          (space ++ p) ++ ',' :: ([' '] ++ join ", ".toList (q :: parts)) := by
        rw [join, List.intercalate_cons_cons]
        simp [join]
      rw [hjoin, List.splitOn_append_cons_self, List.splitOn_eq_singleton hno,
        List.singleton_append, List.map_cons, hp]
      exact congrArg (p :: ·) (ih (by simp) (fun r hr => htrimmed r (List.mem_cons_of_mem _ hr))
        (fun r hr => hcomma r (List.mem_cons_of_mem _ hr)) (Or.inr rfl))

theorem split_params {parts : List Text} (htrimmed : ∀ p ∈ parts, Trimmed p)
    (hcomma : ∀ p ∈ parts, ',' ∉ p) :
    (((join ", ".toList parts).splitOn ',').map strip).filter (· ≠ []) = parts := by
  by_cases hne : parts = []
  · subst hne
    rfl
  · have hsplit : (([] ++ join ", ".toList parts).splitOn ',').map strip = parts :=
      split_parts hne htrimmed hcomma (Or.inl rfl)
    rw [List.nil_append] at hsplit
    rw [hsplit, List.filter_eq_self]
    exact fun p hp => decide_eq_true (htrimmed p hp).1

theorem Callable.Ok.trimmed_param {decl : Callable} (h : decl.Ok) {p : Param}
    (hp : p ∈ decl.params) : Trimmed p.text :=
  (h.params p hp).1.trimmed.append ": ".toList (h.params p hp).2.trimmed

theorem Callable.Ok.not_mem_param {decl : Callable} (h : decl.Ok) {p : Param}
    (hp : p ∈ decl.params) : ',' ∉ p.text := by
  have hno : ¬ typeChar ',' := by decide
  rw [Param.text, List.mem_append, List.mem_append]
  rintro ((hc | hc) | hc)
  · exact hno (typeChar_of_identPart ((h.params p hp).1.identPart_of_mem _ hc))
  · exact absurd hc (by decide)
  · exact hno ((h.params p hp).2.typeChar_of_mem _ hc)

/-! ## A signature taken apart -/

section Match

variable {A : Alphabet} {decl : Callable}

theorem isWord_of_identPart {c : Char} (h : identPart c) : A.isWord c := by
  have hrange := range_of_identPart h
  rw [Alphabet.isWord, A.ascii c (by omega)]
  exact h

theorem isWord_paren : A.isWord '(' = false := by
  rw [Alphabet.isWord, A.ascii '(' (by decide)]
  decide

/-- The part of a signature after the parentheses. -/
def returnsText : Option Text → Text
  | some returns => " -> ".toList ++ returns
  | none => []

theorem signature_ok (h : decl.Ok) : signature decl = decl.name ++
    '(' :: (join ", ".toList (decl.params.map Param.text) ++ ')' :: returnsText decl.returns) := by
  have hreturns := h.returns
  have hparams : (decl.params.map fun p => p.name ++ ": ".toList ++ p.type) =
      decl.params.map Param.text := rfl
  rw [signature_eq, hparams]
  cases hr : decl.returns with
  | none => simp [returnsText]
  | some returns =>
    have hne : returns ≠ [] := (hreturns returns (by rw [hr]; rfl)).trimmed.1
    simp [returnsText, hne]

/-- What SIGNATURE captures of the return type. -/
def returnsGroup : Option Text → List (Part × Text)
  | some returns => [(.returns, returns)]
  | none => []

/-- After the parentheses comes nothing, or an arrow and all that is left. -/
theorem fullmatch_returns {returns : Option Text} (h : ∀ r ∈ returns, IsType r) :
    (Regex.opt (.seq (.lit "->".toList)
      (.seq (.star (.one isSpace)) (.group Part.returns (.plus (.one fun _ => true)))))).fullmatch?
        ((returnsText returns).dropWhile isSpace) = some ⟨[], returnsGroup returns⟩ := by
  cases returns with
  | none => exact Regex.fullmatch?_opt_nil rfl
  | some r =>
    obtain ⟨hne, hhead, -⟩ := (h r rfl).trimmed
    have hdrop : (returnsText (some r)).dropWhile isSpace = "->".toList ++ ' ' :: r := rfl
    rw [hdrop]
    have harrow : ((Regex.lit "->".toList : Regex Char Part).tries
        ("->".toList ++ ' ' :: r)).head? = some ⟨' ' :: r, []⟩ := by
      rw [Regex.tries_lit]
      rfl
    have hspace : ((Regex.star (.one isSpace) : Regex Char Part).tries (' ' :: r)).head? =
        some ⟨r, []⟩ := by
      rw [Regex.head?_star_one, List.dropWhile_cons_of_pos (by decide), dropWhile_of_head hhead]
    have hall : ((Regex.group Part.returns (.plus (.one fun _ : Char => true))).tries
        (r ++ [])).head? = some ⟨[], [(.returns, r)]⟩ :=
      Regex.head?_group_plus hne (by simp) (by simp)
    rw [List.append_nil] at hall
    exact Regex.fullmatch?_of_head
      (Regex.head?_alt (Regex.head?_seq harrow (Regex.head?_seq hspace hall))) rfl

/-- SIGNATURE finds the name, the parameters and the return type of a signature. -/
theorem fullmatch_signature (h : decl.Ok) : (SIGNATURE A).fullmatch? (signature decl) =
    some ⟨[], (.name, decl.name) :: (.params, join ", ".toList (decl.params.map Param.text)) ::
      returnsGroup decl.returns⟩ := by
  have hno : ')' ∉ returnsText decl.returns := by
    cases hr : decl.returns with
    | none => simp [returnsText]
    | some returns =>
      have htype := (h.returns returns (by rw [hr]; rfl)).typeChar_of_mem ')'
      rw [returnsText, List.mem_append]
      rintro (hmem | hmem)
      · exact absurd hmem (by decide)
      · exact absurd (htype hmem) (by decide)
  rw [signature_ok h, SIGNATURE]
  generalize join ", ".toList (decl.params.map Param.text) = params
  have hname : ((Regex.group Part.name (.plus (.one A.isWord))).tries (decl.name ++
      '(' :: (params ++ ')' :: returnsText decl.returns))).head? =
        some ⟨'(' :: (params ++ ')' :: returnsText decl.returns), [(.name, decl.name)]⟩ :=
    Regex.head?_group_plus h.name.ne_nil
      (fun c hc => isWord_of_identPart (h.name.identPart_of_mem c hc))
      (by rintro c ⟨⟩; exact isWord_paren)
  have hspaces : ∀ s : Text, ((Regex.star (.one isSpace) : Regex Char Part).tries s).head? =
      some ⟨s.dropWhile isSpace, []⟩ := fun s => Regex.head?_star_one
  have hparams : ((Regex.seq (.one (· == '(')) (.seq (.group Part.params
      (.star (.one fun _ => true))) (.one (· == ')')))).tries
        ('(' :: (params ++ ')' :: returnsText decl.returns))).head? =
      some ⟨returnsText decl.returns, [(.params, params)]⟩ :=
    Regex.head?_seq (m := ⟨params ++ ')' :: returnsText decl.returns, []⟩) rfl
      (Regex.head?_any_then hno)
  -- the preferred ways of the parts, one after the other, take the whole signature
  exact Regex.fullmatch?_seq hname (Regex.fullmatch?_seq (hspaces _)
    (Regex.fullmatch?_seq (Regex.head?_alt hparams) (Regex.fullmatch?_seq (hspaces _)
      (fullmatch_returns h.returns))))

theorem signature_trimmed (h : decl.Ok) : Trimmed (signature decl) := by
  have hparen : Trimmed [')'] := ⟨by simp, by rintro c ⟨⟩; decide, by rintro c ⟨⟩; decide⟩
  have hfront : Trimmed (decl.name ++ '(' :: (join ", ".toList (decl.params.map Param.text) ++
      [')'])) := by
    have happend := h.name.trimmed.append
      ('(' :: join ", ".toList (decl.params.map Param.text)) hparen
    simpa using happend
  rw [signature_ok h]
  cases hr : decl.returns with
  | none => simpa [returnsText] using hfront
  | some returns =>
    have htype := (h.returns returns (by rw [hr]; rfl)).trimmed
    have happend := hfront.append " -> ".toList htype
    simpa [returnsText] using happend

/-- What a declaration shows. -/
def Callable.signode (decl : Callable) : Signode :=
  ⟨none, decl.name, some (decl.params.map Param.text), decl.returns⟩

/-- A signature gives back what it was rendered from. -/
theorem handleSignature_signature (h : decl.Ok) {objtype : Text} (hno : objtype ≠ "record".toList) :
    handleSignature A objtype (signature decl) = .ok decl.signode := by
  have hsplit : (((join ", ".toList (decl.params.map Param.text)).splitOn ',').map strip).filter
      (· ≠ []) = decl.params.map Param.text := by
    apply split_params
    · intro text htext
      obtain ⟨p, hp, rfl⟩ := List.mem_map.mp htext
      exact h.trimmed_param hp
    · intro text htext
      obtain ⟨p, hp, rfl⟩ := List.mem_map.mp htext
      exact h.not_mem_param hp
  have hreturns : (Regex.Found.group (⟨[], (.name, decl.name) ::
      (.params, join ", ".toList (decl.params.map Param.text)) :: returnsGroup decl.returns⟩ :
        Regex.Found Char Part) .returns).filter (· ≠ []) = decl.returns := by
    cases hr : decl.returns with
    | none => rfl
    | some returns =>
      have hne := (h.returns returns (by rw [hr]; rfl)).trimmed.1
      show (some returns).filter (· ≠ []) = some returns
      rw [Option.filter_some, if_pos (decide_eq_true hne)]
  have hname : (Regex.Found.group (⟨[], (.name, decl.name) ::
      (.params, join ", ".toList (decl.params.map Param.text)) :: returnsGroup decl.returns⟩ :
        Regex.Found Char Part) .name) = some decl.name := by
    cases decl.returns <;> rfl
  have hparams : (Regex.Found.group (⟨[], (.name, decl.name) ::
      (.params, join ", ".toList (decl.params.map Param.text)) :: returnsGroup decl.returns⟩ :
        Regex.Found Char Part) .params) =
      some (join ", ".toList (decl.params.map Param.text)) := by
    cases decl.returns <;> rfl
  rw [handleSignature, (signature_trimmed h).strip, fullmatch_signature h]
  dsimp only
  rw [hname, hparams, hreturns, if_neg hno, Option.map_some, hsplit]
  rfl

end Match

/-! ## A type taken apart -/

section Again

variable {s w : Text} {line : ℕ} {kind : Kind} {rest ts : List Token}

theorem tokenizeFrom_skip (v : Text) :
    tokenizeFrom v.length line (v ++ s) = tokenizeFrom 0 line s := by
  induction v with
  | nil => rfl
  | cons c v ih => exact ih

/-- A token in front of a text that is cut. -/
theorem tokenizeFrom_token (hmatch : TOKEN.match? (w ++ s) = some ⟨s, [(kind, w)]⟩) (hne : w ≠ [])
    (hline : '\n' ∉ w) (hrest : tokenizeFrom 0 line s = .ok rest) :
    tokenizeFrom 0 line (w ++ s) = .ok (if kind = .ws then rest else ⟨kind, w, line⟩ :: rest) := by
  cases w with
  | nil => exact absurd rfl hne
  | cons c w =>
    rw [List.cons_append] at hmatch ⊢
    rw [tokenizeFrom, hmatch]
    dsimp only
    rw [List.count_eq_zero_of_not_mem hline, Nat.add_zero, List.length_cons,
      Nat.add_sub_cancel, tokenizeFrom_skip, hrest]
    rfl

/-- The alternatives of TOKEN that begin with another character. -/
theorem tries_group_one {p : Char → Bool} {c : Char} {kind : Kind} {r : Regex Char Kind}
    (h : p c = false) : (Regex.group kind (.seq (.one p) r)).tries (c :: s) = [] := by
  rw [Regex.tries_group, Regex.tries_seq, Regex.tries_one_cons, if_neg (by simp [h])]
  rfl

theorem match_mark {c : Char} (hmark : c ∈ marks) :
    TOKEN.match? (c :: s) = some ⟨s, [(.punct, [c])]⟩ := by
  have hall : ∀ c ∈ marks, isSpace c = false ∧ (c == '"') = false ∧ identStart c = false ∧
      (c == '-') = false := List.all_iff_forall_prop.mp (by decide)
  obtain ⟨hspace, hquote, hstart, hdash⟩ := hall c hmark
  have hlit : (Regex.lit "->".toList : Regex Char Kind).tries (c :: s) = [] := by
    show ((Regex.one (· == '-') : Regex Char Kind).tries (c :: s)).flatMap _ = []
    rw [Regex.tries_one_cons, if_neg (by simp [hdash])]
    rfl
  have hpunct : ((Regex.alt (.lit "->".toList) (.one (· ∈ marks)) : Regex Char Kind).tries
      ([c] ++ s)).head? = some ⟨s, []⟩ := by
    rw [List.singleton_append, Regex.tries_alt_of_nil hlit, Regex.tries_one_cons,
      if_pos (decide_eq_true hmark)]
    rfl
  rw [Regex.match?, TOKEN, Regex.plus, Regex.tries_alt_of_nil (tries_group_one hspace),
    Regex.tries_alt_of_nil (tries_group_one (p := (· == '"')) hquote),
    Regex.tries_alt_of_nil (tries_group_one hstart)]
  exact Regex.head?_group (m := ⟨s, []⟩) hpunct

theorem match_ident (h : IsIdent w) (hs : ∀ c ∈ s.head?, identPart c = false) :
    TOKEN.match? (w ++ s) = some ⟨s, [(.ident, w)]⟩ := by
  have hparts := h.identPart_of_mem
  obtain ⟨c, cs, rfl, hstart, hcs⟩ := h
  have hspace : isSpace c = false := isSpace_of_identPart (hparts c List.mem_cons_self)
  have hquote : (c == '"') = false := by
    by_contra hc
    rw [Bool.not_eq_false] at hc
    rw [eq_of_beq hc] at hstart
    exact absurd hstart (by decide)
  have hone : ((Regex.one identStart : Regex Char Kind).tries (c :: (cs ++ s))).head? =
      some ⟨cs ++ s, []⟩ := by
    rw [Regex.tries_one_cons, if_pos hstart]
    rfl
  have hstar : ((Regex.star (.one identPart) : Regex Char Kind).tries (cs ++ s)).head? =
      some ⟨s, []⟩ := by
    rw [Regex.head?_star_one, Regex.dropWhile_append hcs hs]
  have hident : ((Regex.seq (.one identStart) (.star (.one identPart)) : Regex Char Kind).tries
      (c :: cs ++ s)).head? = some ⟨s, []⟩ := Regex.head?_seq hone hstar
  rw [Regex.match?, TOKEN, Regex.plus, List.cons_append,
    Regex.tries_alt_of_nil (tries_group_one hspace),
    Regex.tries_alt_of_nil (tries_group_one (p := (· == '"')) hquote)]
  exact Regex.head?_alt (Regex.head?_group (m := ⟨s, []⟩) hident)

theorem match_space (hs : ∀ c ∈ s.head?, isSpace c = false) :
    TOKEN.match? (' ' :: s) = some ⟨s, [(.ws, [' '])]⟩ := by
  have hplus : ((Regex.group Kind.ws (.plus (.one isSpace))).tries ([' '] ++ s)).head? =
      some ⟨s, [(.ws, [' '])]⟩ :=
    Regex.head?_group_plus (by simp) (List.all_iff_forall_prop.mp (by decide)) hs
  exact Regex.head?_alt hplus

/-- A token whose value is a mark is one. -/
theorem Token.Ok.kind_eq_punct {t : Token} {c : Char} (h : t.Ok) (hvalue : t.value = [c])
    (hmark : c ∈ marks) : t.kind = .punct := by
  have hall : ∀ c ∈ marks, c ≠ '"' ∧ identStart c = false :=
    List.all_iff_forall_prop.mp (by decide)
  obtain ⟨hquote, hstart⟩ := hall c hmark
  obtain ⟨hws, hform⟩ := h
  cases hkind : t.kind with
  | ws => exact absurd hkind hws
  | str =>
    rw [hkind, hvalue] at hform
    obtain ⟨v, hv⟩ := hform
    exact absurd (List.cons.inj hv).1 hquote
  | ident =>
    rw [hkind, hvalue] at hform
    obtain ⟨d, ds, heq, hd, -⟩ := hform
    obtain ⟨rfl, -⟩ := List.cons.inj heq
    rw [hstart] at hd
    cases hd
  | punct => rfl
  | eof =>
    rw [hkind, hvalue] at hform
    cases hform

/-- A token, on another line. -/
def Token.onLine (line : ℕ) (t : Token) : Token := ⟨t.kind, t.value, line⟩

theorem tokenizeFrom_mark {t : Token} {c : Char} (hok : t.Ok) (hvalue : t.value = [c])
    (hmark : c ∈ marks) (hrest : tokenizeFrom 0 line s = .ok rest) :
    tokenizeFrom 0 line (c :: s) = .ok (t.onLine line :: rest) := by
  have hline : '\n' ∉ [c] := by
    have hall : ∀ c ∈ marks, '\n' ∉ [c] := List.all_iff_forall_prop.mp (by decide)
    exact hall c hmark
  have htoken := tokenizeFrom_token (match_mark hmark) (by simp) hline hrest
  rw [Token.onLine, hok.kind_eq_punct hvalue hmark, hvalue]
  exact htoken

/-- A type in front of a text that is cut, and that does not begin within a word. -/
theorem tokenizeFrom_type {type : Text} (h : TypeOf ts type) (hok : ∀ t ∈ ts, t.Ok)
    (hs : ∀ c ∈ s.head?, identPart c = false) (hrest : tokenizeFrom 0 line s = .ok rest) :
    tokenizeFrom 0 line (type ++ s) = .ok (ts.map (Token.onLine line) ++ rest) := by
  induction h generalizing s rest with
  | @name t hkind =>
    have hident := (hok t List.mem_cons_self).isIdent hkind
    have hline : '\n' ∉ t.value := fun hmem =>
      absurd (hident.identPart_of_mem _ hmem) (by decide)
    have htoken := tokenizeFrom_token (match_ident hident hs) hident.ne_nil hline hrest
    rw [htoken, if_neg (by simp), List.map_singleton, Token.onLine, hkind]
    rfl
  | @optional q ts type hq _ ih =>
    have hinner := ih (fun t ht => hok t (List.mem_cons_of_mem _ ht)) hs hrest
    exact tokenizeFrom_mark (hok q List.mem_cons_self) hq (by decide) hinner
  | @list o c ts inner ho _ hc ih =>
    have hclose := tokenizeFrom_mark (hok c (by simp)) hc (by decide) hrest
    have hinner := ih (fun t ht => hok t (by simp [ht])) (by rintro d ⟨⟩; decide) hclose
    have hall := tokenizeFrom_mark (hok o (by simp)) ho (by decide) hinner
    simpa using hall
  | @map o m c ks vs key val ho hkey hm hval hc ihk ihv =>
    have hclose := tokenizeFrom_mark (hok c (by simp)) hc (by decide) hrest
    have hval' := ihv (fun t ht => hok t (by simp [ht])) (by rintro d ⟨⟩; decide) hclose
    have hedge := hval.trimmed fun t ht => hok t (by simp [ht])
    have hmatch : TOKEN.match? ([' '] ++ (val ++ '}' :: s)) =
        some ⟨val ++ '}' :: s, [(.ws, [' '])]⟩ := by
      have hhead : ∀ d ∈ (val ++ '}' :: s).head?, isSpace d = false := by
        intro d hd
        rw [List.head?_append_of_ne_nil _ hedge.1] at hd
        exact hedge.2.1 d hd
      exact match_space hhead
    have hspace := tokenizeFrom_token hmatch (by simp) (by decide) hval'
    rw [if_pos rfl] at hspace
    have hcolon := tokenizeFrom_mark (hok m (by simp)) hm (by decide) hspace
    have hkey' := ihk (fun t ht => hok t (by simp [ht])) (by rintro d ⟨⟩; decide) hcolon
    have hall := tokenizeFrom_mark (hok o (by simp)) ho (by decide) hkey'
    simpa using hall

/-- A type is cut to the tokens it was read from. -/
theorem tokenize_type {type : Text} (h : TypeOf ts type) (hok : ∀ t ∈ ts, t.Ok) :
    tokenize type = .ok (ts.map (Token.onLine 1) ++ [⟨.eof, [], 1⟩]) := by
  have htype : tokenizeFrom 0 1 (type ++ []) = _ := tokenizeFrom_type h hok (by simp) rfl
  rwa [List.append_nil] at htype

end Again

/-! ## What the parser reads is read back -/

/-- What is read from well-formed tokens by one declaration's parser. -/
theorem parseMethod_ok {ts ts' : List Token} {decl : Callable} (hok : ∀ t ∈ ts, t.Ok)
    (h : parseMethod.run ts = .ok (decl, ts')) : decl.Ok := by
  obtain ⟨used, rfl, hitem⟩ := parseMethod_spec h
  exact hitem.ok fun t ht => hok t (List.mem_append_left _ ht)

theorem parseEvent_ok {ts ts' : List Token} {decl : Callable} (hok : ∀ t ∈ ts, t.Ok)
    (h : parseEvent.run ts = .ok (decl, ts')) : decl.Ok := by
  obtain ⟨used, rfl, hitem⟩ := parseEvent_spec h
  exact hitem.ok fun t ht => hok t (List.mem_append_left _ ht)

/-- From the tokens of any source, at any place: the domain reads every method and event of a
contract back, whether the contract is read to its end or only the declaration is, and what a
type is written as is cut to the tokens it took. -/
theorem signatures_read_back (A : Alphabet) {code : Text} {tokens ts : List Token}
    (htokens : tokenize code = .ok tokens) (hts : ts <:+ tokens) :
    (∀ module ts', parseModule.run ts = .ok (module, ts') →
      (∀ decl ∈ module.methods,
        handleSignature A "method".toList (signature decl) = .ok decl.signode) ∧
      ∀ decl ∈ module.events,
        handleSignature A "event".toList (signature decl) = .ok decl.signode) ∧
    (∀ decl ts', parseMethod.run ts = .ok (decl, ts') →
      handleSignature A "method".toList (signature decl) = .ok decl.signode) ∧
    (∀ decl ts', parseEvent.run ts = .ok (decl, ts') →
      handleSignature A "event".toList (signature decl) = .ok decl.signode) ∧
    ∀ type ts', parseTypeExpr.run ts = .ok (type, ts') →
      ∃ used again, ts = used ++ ts' ∧ tokenize type = .ok again ∧
        again.map (fun t => (t.kind, t.value)) =
          used.map (fun t => (t.kind, t.value)) ++ [(.eof, [])] := by
  have hok : ∀ t ∈ ts, t.Ok := fun t ht => tokenize_wellFormed htokens t (hts.subset ht)
  refine ⟨?_, ?_, ?_, ?_⟩
  · intro module ts' hmodule
    obtain ⟨-, hdecls⟩ := parseModule_ok hok hmodule
    constructor
    · intro decl hdecl
      exact handleSignature_signature (hdecls decl (List.mem_append_left _ hdecl)) (by decide)
    · intro decl hdecl
      exact handleSignature_signature (hdecls decl (List.mem_append_right _ hdecl)) (by decide)
  · intro decl ts' hmethod
    exact handleSignature_signature (parseMethod_ok hok hmethod) (by decide)
  · intro decl ts' hevent
    exact handleSignature_signature (parseEvent_ok hok hevent) (by decide)
  · intro type ts' htype
    obtain ⟨used, rfl, hused⟩ := parseTypeExpr_spec htype
    refine ⟨used, _, rfl, tokenize_type hused fun t ht => hok t (List.mem_append_left _ ht), ?_⟩
    rw [List.map_append, List.map_map]
    rfl

/-- The tokens of `method m(a: ?t) -> [v]`. -/
def methodTokens : List Token :=
  [⟨.ident, "method".toList, 1⟩, ⟨.ident, ['m'], 1⟩, ⟨.punct, ['('], 1⟩, ⟨.ident, ['a'], 1⟩,
   ⟨.punct, [':'], 1⟩, ⟨.punct, ['?'], 1⟩, ⟨.ident, ['t'], 1⟩, ⟨.punct, [')'], 1⟩,
   ⟨.punct, "->".toList, 1⟩, ⟨.punct, ['['], 1⟩, ⟨.ident, ['v'], 1⟩, ⟨.punct, [']'], 1⟩,
   ⟨.eof, [], 1⟩]

theorem method_reads_back :
    handleSignature .latin "method".toList "m(a: ?t) -> [v]".toList =
      .ok ⟨none, ['m'], some ["a: ?t".toList], some "[v]".toList⟩ := by
  have htokens : tokenize "method m(a: ?t) -> [v]".toList = .ok methodTokens := by decide +kernel
  have hmethod : parseMethod.run methodTokens =
      .ok (⟨['m'], 1, [⟨['a'], "?t".toList⟩], some "[v]".toList⟩, [⟨.eof, [], 1⟩]) := by rfl
  exact (signatures_read_back .latin htokens (List.suffix_refl _)).2.1 _ _ hmethod

end ChatModule.Docs
