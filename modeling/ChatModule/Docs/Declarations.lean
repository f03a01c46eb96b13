import ChatModule.Docs.Parser

/-!
# The texts of declarations

What the parser keeps of a declaration are identifiers, and types written out again. Neither
holds a character that a reader of the reference could take for the end of it
(`IsIdent.identPart_of_mem`, `IsType.typeChar_of_mem`).
-/

namespace ChatModule.Docs

/-! ## Identifiers and types -/

section Texts

variable {w : Text} {ts : List Token}

theorem identPart_of_identStart {c : Char} (h : identStart c) : identPart c := by
  change (c.isAlpha || c == '_') = true at h
  change ((c.isAlpha || c.isDigit) || c == '_') = true
  simp only [Bool.or_eq_true] at h ⊢
  rcases h with h | h
  · exact Or.inl (Or.inl h)
  · exact Or.inr h

theorem IsIdent.identPart_of_mem (h : IsIdent w) : ∀ c ∈ w, identPart c := by
  obtain ⟨d, ds, rfl, hd, hds⟩ := h
  intro c hc
  rcases List.mem_cons.mp hc with rfl | hc
  · exact identPart_of_identStart hd
  · exact hds c hc

theorem IsIdent.ne_nil (h : IsIdent w) : w ≠ [] := by
  obtain ⟨d, ds, rfl, -, -⟩ := h
  simp

/-- A token of one kind holds what the kind says. -/
theorem Token.Ok.isIdent {t : Token} (h : t.Ok) (hkind : t.kind = .ident) : IsIdent t.value := by
  have hform := h.2
  rw [hkind] at hform
  exact hform

/-- A type, as the parser keeps it. -/
def IsType (w : Text) : Prop := ∃ ts, TypeOf ts w ∧ ∀ t ∈ ts, t.Ok

/-- What a type may hold. -/
def typeChar (c : Char) : Bool := identPart c || c ∈ ['?', '[', ']', '{', '}', ':', ' ']

theorem TypeOf.typeChar_of_mem (h : TypeOf ts w) (hok : ∀ t ∈ ts, t.Ok) :
    ∀ c ∈ w, typeChar c := by
  induction h with
  | @name t hkind =>
    intro c hc
    have hpart := ((hok t List.mem_cons_self).isIdent hkind).identPart_of_mem c hc
    simp [typeChar, hpart]
  | optional _ _ ih =>
    intro c hc
    rcases List.mem_cons.mp hc with rfl | hc
    · decide
    · exact ih (fun t ht => hok t (List.mem_cons_of_mem _ ht)) c hc
  | list _ _ _ ih =>
    intro c hc
    simp only [List.cons_append, List.mem_cons, List.mem_append, List.not_mem_nil, or_false] at hc
    rcases hc with rfl | hc | rfl
    · decide
    · exact ih (fun t ht => hok t (by simp [ht])) c hc
    · decide
  | map _ _ _ _ _ ihk ihv =>
    intro c hc
    simp only [List.cons_append, List.mem_cons, List.mem_append, List.not_mem_nil, or_false] at hc
    rcases hc with rfl | (hc | rfl | rfl | hc) | rfl
    · decide
    · exact ihk (fun t ht => hok t (by simp [ht])) c hc
    · decide
    · decide
    · exact ihv (fun t ht => hok t (by simp [ht])) c hc
    · decide

theorem IsType.typeChar_of_mem (h : IsType w) : ∀ c ∈ w, typeChar c := by
  obtain ⟨ts, htype, hok⟩ := h
  exact htype.typeChar_of_mem hok

theorem typeChar_of_identPart {c : Char} (h : identPart c) : typeChar c := by
  simp [typeChar, h]

end Texts

/-! ## Declarations -/

/-- A method or event of identifiers and types. -/
structure Callable.Ok (decl : Callable) : Prop where
  name : IsIdent decl.name
  params : ∀ p ∈ decl.params, IsIdent p.name ∧ IsType p.type
  returns : ∀ returns ∈ decl.returns, IsType returns

def Item.Ok : Item → Prop
  | .property => True
  | .depends => True
  | .type r => IsIdent r.name
  | .method m => m.Ok
  | .event e => e.Ok

section Items

variable {ts : List Token}

theorem ParamsOf.ok {params : List Param} (h : ParamsOf ts params) (hok : ∀ t ∈ ts, t.Ok) :
    ∀ p ∈ params, IsIdent p.name ∧ IsType p.type := by
  induction h with
  | nil => simp
  | cons hident _ htype _ _ ih =>
    intro p hp
    rcases List.mem_cons.mp hp with rfl | hp
    · refine ⟨(hok _ (by simp)).isIdent hident, _, htype, ?_⟩
      intro t ht
      exact hok t (by simp [ht])
    · exact ih (fun t ht => hok t (by simp [ht])) p hp

theorem ItemOf.ok {item : Item} (h : ItemOf ts item) (hok : ∀ t ∈ ts, t.Ok) : item.Ok := by
  cases h with
  | property => exact trivial
  | depends => exact trivial
  | type _ hident => exact (hok _ (by simp)).isIdent hident
  | method _ hident _ hparams =>
    exact ⟨(hok _ (by simp)).isIdent hident,
      hparams.ok fun t ht => hok t (by simp [ht]), by simp⟩
  | methodReturning _ hident _ hparams _ _ hreturns =>
    refine ⟨(hok _ (by simp)).isIdent hident, hparams.ok fun t ht => hok t (by simp [ht]), ?_⟩
    rintro returns ⟨⟩
    exact ⟨_, hreturns, fun t ht => hok t (by simp [ht])⟩
  | event _ hident _ hparams =>
    exact ⟨(hok _ (by simp)).isIdent hident,
      hparams.ok fun t ht => hok t (by simp [ht]), by simp⟩

theorem ItemsOf.ok {items : List Item} (h : ItemsOf ts items) (hok : ∀ t ∈ ts, t.Ok) :
    ∀ item ∈ items, item.Ok := by
  induction h with
  | nil => simp
  | cons hitem _ ih =>
    intro item hmem
    rcases List.mem_cons.mp hmem with rfl | hmem
    · exact hitem.ok fun t ht => hok t (List.mem_append_left _ ht)
    · exact ih (fun t ht => hok t (List.mem_append_right _ ht)) item hmem

end Items

/-! ## Contracts -/

def Item.record? : Item → Option Record
  | .type r => some r
  | _ => none

def Item.method? : Item → Option Callable
  | .method m => some m
  | _ => none

def Item.event? : Item → Option Callable
  | .event e => some e
  | _ => none

/-- A contract has the declarations of each kind in the order of the body. -/
theorem foldl_add (items : List Item) (module : Contract) :
    (items.foldl Contract.add module).types = module.types ++ items.filterMap Item.record? ∧
    (items.foldl Contract.add module).methods = module.methods ++ items.filterMap Item.method? ∧
    (items.foldl Contract.add module).events = module.events ++ items.filterMap Item.event? := by
  induction items generalizing module with
  | nil => simp
  | cons item items ih =>
    obtain ⟨htypes, hmethods, hevents⟩ := ih (module.add item)
    rw [List.foldl_cons, htypes, hmethods, hevents]
    cases item <;>
      simp [Contract.add, Item.record?, Item.method?, Item.event?, List.filterMap_cons]

/-- What a contract read from well-formed tokens declares. -/
theorem parseModule_ok {ts ts' : List Token} {module : Contract} (hok : ∀ t ∈ ts, t.Ok)
    (h : parseModule.run ts = .ok (module, ts')) :
    (∀ record ∈ module.types, IsIdent record.name) ∧
      ∀ decl ∈ module.methods ++ module.events, decl.Ok := by
  obtain ⟨k, n, o, used, c, items, rfl, -, -, -, -, hitems, rfl⟩ := parseModule_spec h
  have hall := hitems.ok fun t ht => hok t (by simp [ht])
  obtain ⟨htypes, hmethods, hevents⟩ := foldl_add items ⟨n.value, n.line, [], [], []⟩
  rw [htypes, hmethods, hevents, List.nil_append, List.nil_append, List.nil_append]
  constructor
  · intro record hmem
    obtain ⟨item, hitem, hrecord⟩ := List.mem_filterMap.mp hmem
    have hitemOk := hall item hitem
    cases item <;> cases hrecord
    exact hitemOk
  · intro decl hmem
    rcases List.mem_append.mp hmem with hmem | hmem
    · obtain ⟨item, hitem, hmethod⟩ := List.mem_filterMap.mp hmem
      have hitemOk := hall item hitem
      cases item <;> cases hmethod
      exact hitemOk
    · obtain ⟨item, hitem, hevent⟩ := List.mem_filterMap.mp hmem
      have hitemOk := hall item hitem
      cases item <;> cases hevent
      exact hitemOk

end ChatModule.Docs
