import ChatModule.Lib.Dict
import ChatModule.Lib.Machine
import ChatModule.Docs.Reference
import ChatModule.Docs.Signature
import Mathlib.Data.List.Perm.Basic

/-!
# The documentation domain

The domain keeps a table of the declarations of all documents, for links to them. A document
that is read again is cleared from it first. Documents may also be read apart, by workers that
begin with a copy of the table each and of whose tables the entries of their own documents are
merged into it, in any order.

* `targets_sound` — a link leads to a document that declares its target as it was last read,
  and to the anchor of that declaration;
* `targets_exact` — while no two documents declare the same, every declaration has its link as
  well, in whatever order and by how many workers the documents were read; one that two
  documents declare can lose it (`clear_loses`);
* `clashes_exact` — the check for clashing anchors finds nothing just when all declarations of
  the page of a contract have different anchors, but for records of one name;
* `reference_links` — so the links of a reference that is written lead to what the contract
  declares, and different ones to different places.
-/

namespace ChatModule.Docs

/-! ## The table -/

/-- A kind of declaration and a name. -/
abbrev Key := Text × Text

/-- A document and an anchor in it. -/
structure Target where
  docname : Text
  nodeId : Text
deriving DecidableEq, Repr

/-- `data["objects"]`. -/
abbrev Objects := Dict Key Target

/-- The anchor of `add_target_and_index`. -/
def anchor (key : Key) : Text :=
  if key.1 = "record".toList then key.1 ++ '-' :: key.2 else key.2

/-- `note_object`. -/
def noteObject (objects : Objects) (objtype name nodeId docname : Text) : Objects :=
  objects.assign (objtype, name) ⟨docname, nodeId⟩

/-- `clear_doc`. -/
def clearDoc (docname : Text) (objects : Objects) : Objects :=
  objects.keep fun _ target => target.docname ≠ docname

/-- `merge_domaindata`. -/
def mergeDomaindata (docnames : List Text) (other objects : Objects) : Objects :=
  objects.update other fun _ target => docnames.contains target.docname

/-- What `resolve_xref` refers to. -/
def resolveXref (objects : Objects) (typ target : Text) : Option Target :=
  objects.get (typ, target)

/-- What `get_objects` yields: a name, the name to show, the kind, where it is, and how
important it is. -/
def getObjects (objects : Objects) : List (Text × Text × Text × Text × Text × ℕ) :=
  objects.entries.map fun ((objtype, name), target) =>
    (name, name, objtype, target.docname, target.nodeId, 1)

/-- A directive of a document: its kind, and its argument. -/
structure Directive where
  objtype : Text
  sig : Text
deriving DecidableEq, Repr

/-- What a directive declares; one whose signature cannot be read declares nothing. -/
def Directive.key (A : Alphabet) (dir : Directive) : Option Key :=
  match handleSignature A dir.objtype dir.sig with
  | .ok signode => some (dir.objtype, signode.name)
  | .error _ => none

/-- The directives of a document are handled in order, each by `handle_signature` and
`add_target_and_index`. -/
def readDoc (A : Alphabet) (docname : Text) (dirs : List Directive) (objects : Objects) :
    Objects :=
  dirs.foldl (fun objects dir =>
    match dir.key A with
    | some key => noteObject objects key.1 key.2 (anchor key) docname
    | none => objects) objects

section Table

variable {A : Alphabet} {docname d : Text} {dirs : List Directive} {objects other : Objects}
  {key : Key} {target : Target} {docnames : List Text} {reading : Text → List Key}
  {keys : List Key}

theorem get_clearDoc : (clearDoc docname objects).get key = some target ↔
    objects.get key = some target ∧ target.docname ≠ docname := by
  rw [clearDoc, Dict.get_keep, Option.filter_eq_some_iff, decide_eq_true_iff]

/-- What is merged comes first. -/
theorem get_mergeDomaindata : (mergeDomaindata docnames other objects).get key = some target ↔
    other.get key = some target ∧ target.docname ∈ docnames ∨
      (∀ t, other.get key = some t → t.docname ∉ docnames) ∧ objects.get key = some target := by
  rw [mergeDomaindata, Dict.get_update, Option.or_eq_some_iff, Option.filter_eq_some_iff,
    Option.filter_eq_none_iff]
  simp only [List.contains_iff_mem]

/-- What a document declares. -/
def declaredBy (A : Alphabet) (dirs : List Directive) : List Key := dirs.filterMap (Directive.key A)

theorem get_readDoc : (readDoc A docname dirs objects).get key =
    if key ∈ declaredBy A dirs then some ⟨docname, anchor key⟩ else objects.get key := by
  unfold readDoc declaredBy
  induction dirs generalizing objects with
  | nil => simp
  | cons dir dirs ih =>
    rw [List.foldl_cons, ih, List.filterMap_cons]
    cases hdir : dir.key A with
    | none => rfl
    | some noted =>
      have hnote : (noteObject objects noted.1 noted.2 (anchor noted) docname).get key =
          if key = noted then some ⟨docname, anchor noted⟩ else objects.get key :=
        Dict.get_assign _ _ _ _
      dsimp only
      rw [hnote]
      by_cases hlater : key ∈ dirs.filterMap (Directive.key A)
      · simp [hlater]
      · by_cases hnow : key = noted
        · simp [hnow]
        · simp [hlater, hnow]

theorem mem_update : key ∈ Function.update reading docname keys d ↔
    d = docname ∧ key ∈ keys ∨ d ≠ docname ∧ key ∈ reading d := by
  rw [Function.update_apply]
  split
  · next heq => simp [heq]
  · next hne => simp [hne]

end Table

/-! ## Builds -/

/-- A process that reads documents apart. -/
structure Worker where
  docnames : List Text
  objects : Objects
  /-- What each document declared when it was read here. -/
  reading : Text → List Key

/-- What is declared, after what a worker has read is taken over. -/
def mergeReading (docnames : List Text) (other reading : Text → List Key) : Text → List Key :=
  fun docname => if docnames.contains docname then other docname else reading docname

theorem mem_mergeReading {docnames : List Text} {other reading : Text → List Key} {d : Text}
    {key : Key} : key ∈ mergeReading docnames other reading d ↔
      d ∈ docnames ∧ key ∈ other d ∨ d ∉ docnames ∧ key ∈ reading d := by
  rw [mergeReading]
  split
  · next hin => simp [List.contains_iff_mem.mp hin]
  · next hnot =>
    rw [List.contains_iff_mem] at hnot
    simp [hnot]

/-- The documentation while it is built. -/
structure Build where
  objects : Objects
  workers : List Worker
  /-- What each document declared when it was last read, since it was last cleared. -/
  reading : Text → List Key

inductive BuildMove
  | clear (docname : Text)
  | read (docname : Text) (dirs : List Directive)
  /-- A worker begins with a copy of the table. -/
  | fork (docnames : List Text)
  | readApart (i : ℕ) (docname : Text) (dirs : List Directive)
  /-- The table of a worker that is done is merged. -/
  | merge (i : ℕ)

namespace Build

/-- The documentation before anything has been read. -/
def initial : Build := ⟨.empty, [], fun _ => []⟩

def step (A : Alphabet) (s : Build) : BuildMove → Option Build
  | .clear docname =>
    some { s with
      objects := clearDoc docname s.objects
      reading := Function.update s.reading docname [] }
  | .read docname dirs =>
    some { s with
      objects := readDoc A docname dirs s.objects
      reading := Function.update s.reading docname (declaredBy A dirs) }
  | .fork docnames =>
    some { s with workers := s.workers ++ [⟨docnames, s.objects, fun _ => []⟩] }
  | .readApart i docname dirs => s.workers[i]?.map fun w =>
    { s with workers := s.workers.set i { w with
        objects := readDoc A docname dirs w.objects
        reading := Function.update w.reading docname (declaredBy A dirs) } }
  | .merge i => s.workers[i]?.map fun w =>
    { s with
      objects := mergeDomaindata w.docnames w.objects s.objects
      workers := s.workers.eraseIdx i
      reading := mergeReading w.docnames w.reading s.reading }

end Build

/-- The builds of a documentation. -/
def building (A : Alphabet) : Machine Build BuildMove := ⟨Build.step A⟩

/-- A document is read when it is cleared, and in one process at a time. -/
def Orderly (s : Build) : BuildMove → Prop
  | .clear docname => ∀ w ∈ s.workers, docname ∉ w.docnames
  | .read docname _ => s.reading docname = [] ∧ ∀ w ∈ s.workers, docname ∉ w.docnames
  | .fork docnames => ∀ docname ∈ docnames,
    s.reading docname = [] ∧ ∀ w ∈ s.workers, docname ∉ w.docnames
  | .readApart i docname _ => ∀ w, s.workers[i]? = some w →
    docname ∈ w.docnames ∧ w.reading docname = []
  | .merge _ => True

/-- Where the links of a table lead, for the documents of `docnames`. -/
def Leads (docnames : Text → Prop) (objects : Objects) (reading : Text → List Key) : Prop :=
  ∀ key target, objects.get key = some target → docnames target.docname →
    key ∈ reading target.docname ∧ target.nodeId = anchor key

/-- Every link leads to a declaration, and what a worker has to read is cleared elsewhere. -/
structure Sound (s : Build) : Prop where
  main : Leads (fun _ => True) s.objects s.reading
  apart : ∀ w ∈ s.workers, Leads (· ∈ w.docnames) w.objects w.reading
  cleared : ∀ w ∈ s.workers, ∀ docname ∈ w.docnames, s.reading docname = []
  disjoint : (s.workers.map Worker.docnames).Pairwise List.Disjoint

section Sound

variable {A : Alphabet} {s s' : Build} {mv : BuildMove} {moves : List BuildMove} {w : Worker}
  {docname : Text} {dirs : List Directive} {objects : Objects} {reading : Text → List Key}
  {docnames : Text → Prop} {i : ℕ}

theorem leads_readDoc (h : Leads docnames objects reading) (hcleared : reading docname = []) :
    Leads docnames (readDoc A docname dirs objects)
      (Function.update reading docname (declaredBy A dirs)) := by
  intro key target hget hin
  rw [get_readDoc] at hget
  split at hget
  · next hkey =>
    obtain rfl := Option.some.inj hget
    exact ⟨mem_update.mpr (Or.inl ⟨rfl, hkey⟩), rfl⟩
  · obtain ⟨hkey, hnode⟩ := h key target hget hin
    refine ⟨mem_update.mpr (Or.inr ⟨?_, hkey⟩), hnode⟩
    intro heq
    rw [heq, hcleared] at hkey
    cases hkey

/-- A worker that goes on keeps its place among the others. -/
theorem map_docnames_set (hw : s.workers[i]? = some w) {w' : Worker}
    (hsame : w'.docnames = w.docnames) :
    (s.workers.set i w').map Worker.docnames = s.workers.map Worker.docnames := by
  obtain ⟨hi, rfl⟩ := List.getElem?_eq_some_iff.mp hw
  have hplace : i < (s.workers.map Worker.docnames).length := by simpa using hi
  have hdocs : s.workers[i].docnames = (s.workers.map Worker.docnames)[i] := by simp
  rw [List.map_set, hsame, hdocs]
  exact List.set_getElem_self hplace

/-- No other worker has a document of one of them. -/
theorem disjoint_eraseIdx (h : (s.workers.map Worker.docnames).Pairwise List.Disjoint)
    (hw : s.workers[i]? = some w) :
    (∀ w' ∈ s.workers.eraseIdx i, w.docnames.Disjoint w'.docnames) ∧
      ((s.workers.eraseIdx i).map Worker.docnames).Pairwise List.Disjoint := by
  obtain ⟨hi, rfl⟩ := List.getElem?_eq_some_iff.mp hw
  have hperm := (List.getElem_cons_eraseIdx_perm hi).map Worker.docnames
  have hall := (hperm.pairwise_iff List.disjoint_symm).mpr h
  rw [List.map_cons, List.pairwise_cons] at hall
  refine ⟨?_, hall.2⟩
  intro w' hw'
  exact hall.1 _ (List.mem_map_of_mem hw')

theorem sound_step (hgo : Orderly s mv) (hstep : s.step A mv = some s') (h : Sound s) :
    Sound s' := by
  obtain ⟨hmain, hapart, hcleared, hdisjoint⟩ := h
  cases mv with
  | clear docname =>
    cases hstep
    refine ⟨?_, hapart, ?_, hdisjoint⟩
    · intro key target hget _
      obtain ⟨hget, hne⟩ := get_clearDoc.mp hget
      obtain ⟨hkey, hnode⟩ := hmain key target hget trivial
      exact ⟨mem_update.mpr (Or.inr ⟨hne, hkey⟩), hnode⟩
    · intro w hw d hd
      show Function.update s.reading docname [] d = []
      rw [Function.update_of_ne]
      · exact hcleared w hw d hd
      · rintro rfl
        exact hgo w hw hd
  | read docname dirs =>
    cases hstep
    obtain ⟨hnone, hno⟩ := hgo
    refine ⟨leads_readDoc hmain hnone, hapart, ?_, hdisjoint⟩
    intro w hw d hd
    show Function.update s.reading docname (declaredBy A dirs) d = []
    rw [Function.update_of_ne]
    · exact hcleared w hw d hd
    · rintro rfl
      exact hno w hw hd
  | fork docnames =>
    cases hstep
    refine ⟨hmain, ?_, ?_, ?_⟩
    · intro w hw
      rcases List.mem_append.mp hw with hw | hw
      · exact hapart w hw
      · obtain rfl := List.mem_singleton.mp hw
        -- the copy has no link into a document that was cleared
        intro key target hget hin
        have hkey := (hmain key target hget trivial).1
        rw [(hgo _ hin).1] at hkey
        cases hkey
    · intro w hw d hd
      rcases List.mem_append.mp hw with hw | hw
      · exact hcleared w hw d hd
      · obtain rfl := List.mem_singleton.mp hw
        exact (hgo d hd).1
    · rw [List.map_append, List.pairwise_append]
      refine ⟨hdisjoint, by simp, ?_⟩
      intro ds hds ds' hds' d hd hd'
      obtain ⟨w, hw, rfl⟩ := List.mem_map.mp hds
      obtain rfl : ds' = docnames := by simpa using hds'
      exact (hgo d hd').2 w hw hd
  | readApart i docname dirs =>
    obtain ⟨w, hw, rfl⟩ := Option.map_eq_some_iff.mp hstep
    have hnone := (hgo w hw).2
    have hmem := List.mem_of_getElem? hw
    refine ⟨hmain, ?_, ?_, ?_⟩
    · intro w' hw'
      rcases List.mem_or_eq_of_mem_set hw' with hw' | rfl
      · exact hapart w' hw'
      · exact leads_readDoc (hapart w hmem) hnone
    · intro w' hw'
      rcases List.mem_or_eq_of_mem_set hw' with hw' | rfl
      · exact hcleared w' hw'
      · exact hcleared w hmem
    · show ((s.workers.set i _).map Worker.docnames).Pairwise List.Disjoint
      rw [map_docnames_set hw]
      · exact hdisjoint
      · rfl
  | merge i =>
    obtain ⟨w, hw, rfl⟩ := Option.map_eq_some_iff.mp hstep
    have hmem := List.mem_of_getElem? hw
    obtain ⟨hothers, hrest⟩ := disjoint_eraseIdx hdisjoint hw
    refine ⟨?_, fun w' hw' => hapart w' (List.mem_of_mem_eraseIdx hw'), ?_, hrest⟩
    · intro key target hget _
      rcases get_mergeDomaindata.mp hget with ⟨hget, hin⟩ | ⟨-, hget⟩
      · obtain ⟨hkey, hnode⟩ := hapart w hmem key target hget hin
        exact ⟨mem_mergeReading.mpr (Or.inl ⟨hin, hkey⟩), hnode⟩
      · obtain ⟨hkey, hnode⟩ := hmain key target hget trivial
        refine ⟨mem_mergeReading.mpr (Or.inr ⟨?_, hkey⟩), hnode⟩
        -- a document of the worker had been cleared
        intro hin
        rw [hcleared w hmem _ hin] at hkey
        cases hkey
    · intro w' hw' d hd
      show mergeReading w.docnames w.reading s.reading d = []
      have hnot : ¬ w.docnames.contains d := by
        rw [List.contains_iff_mem]
        exact fun hin => hothers w' hw' hin hd
      rw [mergeReading, if_neg hnot]
      exact hcleared w' (List.mem_of_mem_eraseIdx hw') d hd

theorem sound_initial : Sound .initial := by
  refine ⟨?_, ?_, ?_, List.Pairwise.nil⟩
  · intro key target hget
    cases hget
  · intro w hw
    cases hw
  · intro w hw
    cases hw

/-- Two documents are read apart, and in a second build the page is read again. -/
def twoBuilds (page other : Text) (others before after : List Directive) : List BuildMove := [
  .fork [page], .fork [other],
  .readApart 1 other others, .readApart 0 page before, .merge 1, .merge 0,
  .clear page, .read page after]

theorem run_twoBuilds {page other : Text} (hne : other ≠ page)
    (others before after : List Directive) :
    ∃ s, (building A).Run Orderly .initial (twoBuilds page other others before after) s ∧
      s.reading page = declaredBy A after ∧ s.reading other = declaredBy A others ∧
      ∀ key ∈ declaredBy A after, s.objects.get key = some ⟨page, anchor key⟩ := by
  refine ⟨_, .cons ?_ rfl (.cons ?_ rfl (.cons ?_ rfl (.cons ?_ rfl (.cons trivial rfl
    (.cons trivial rfl (.cons ?_ rfl (.cons ⟨?_, ?_⟩ rfl (.nil _)))))))), ?_, ?_, ?_⟩
  · intro docname _
    exact ⟨rfl, by rintro w ⟨⟩⟩
  · intro docname hdocname
    obtain rfl := List.mem_singleton.mp hdocname
    refine ⟨rfl, ?_⟩
    intro w hw hin
    obtain rfl := List.mem_singleton.mp hw
    exact hne (List.mem_singleton.mp hin)
  · intro w hw
    obtain rfl := Option.some.inj hw
    exact ⟨List.mem_singleton_self other, rfl⟩
  · intro w hw
    obtain rfl := Option.some.inj hw
    exact ⟨List.mem_singleton_self page, rfl⟩
  · rintro w ⟨⟩
  · exact Function.update_self (β := fun _ => List Key) page [] _
  · rintro w ⟨⟩
  · exact Function.update_self (β := fun _ => List Key) page (declaredBy A after) _
  · simp [mergeReading, hne]
  · intro key hkey
    show (readDoc A page after _).get key = _
    rw [get_readDoc, if_pos hkey]

/-- A link leads to a document that declares its target as it was last read, and to the anchor
of the declaration. -/
theorem targets_sound (hr : (building A).Run Orderly .initial moves s) {typ name : Text}
    {target : Target} (h : resolveXref s.objects typ name = some target) :
    (typ, name) ∈ s.reading target.docname ∧ target.nodeId = anchor (typ, name) :=
  (hr.invariant (I := Sound) (fun _ _ _ hgo hs h => sound_step hgo hs h) sound_initial).main
    _ _ h trivial

/-- A method and a record. -/
def methodAndRecord : List Directive :=
  [⟨"method".toList, "f()".toList⟩, ⟨"record".toList, "Row".toList⟩]

/-- The same method and an event, with parameters and a result. -/
def methodAndEvent : List Directive :=
  [⟨"method".toList, "f(x: tstr) -> bool".toList⟩, ⟨"event".toList, "e(x: [Row])".toList⟩]

theorem declaredBy_methodAndEvent : declaredBy .latin methodAndEvent =
    [("method".toList, ['f']), ("event".toList, ['e'])] := by
  decide +kernel

theorem targets_sound_twoBuilds : ∃ s : Build, resolveXref s.objects "method".toList ['f'] =
    some ⟨"api_reference".toList, ['f']⟩ ∧
      ("method".toList, ['f']) ∈ s.reading "api_reference".toList ∧
        ['f'] = anchor ("method".toList, ['f']) := by
  have hne : "internal".toList ≠ "api_reference".toList := by decide
  obtain ⟨s, hr, -, -, hget⟩ := run_twoBuilds (A := .latin) hne methodAndRecord methodAndRecord
    methodAndEvent
  have hfound := hget ("method".toList, ['f']) (by simp [declaredBy_methodAndEvent])
  exact ⟨s, hfound, targets_sound hr hfound⟩

end Sound

/-! ## Every declaration has its link -/

/-- No two documents declare the same. -/
def Unshared (s : Build) : Prop :=
  ∀ d d' key, key ∈ s.reading d → key ∈ s.reading d' → d = d'

/-- An orderly step, after which no two documents declare the same. -/
def Distinct (A : Alphabet) (s : Build) (mv : BuildMove) : Prop :=
  Orderly s mv ∧ ∀ s', s.step A mv = some s' → Unshared s'

/-- Every declaration has its link; in the table of a worker, one to a document it reads. -/
structure Complete (s : Build) : Prop where
  main : ∀ d, ∀ key ∈ s.reading d, s.objects.get key = some ⟨d, anchor key⟩
  apart : ∀ w ∈ s.workers, ∀ d ∈ w.docnames, ∀ key ∈ w.reading d,
    ∃ d' ∈ w.docnames, w.objects.get key = some ⟨d', anchor key⟩

section Complete

variable {A : Alphabet} {s s' : Build} {mv : BuildMove} {moves : List BuildMove} {typ name : Text}
  {target : Target}

theorem complete_step (hgo : Orderly s mv) (hstep : s.step A mv = some s') (hsound : Sound s)
    (hunshared : Unshared s') (h : Complete s) : Complete s' := by
  obtain ⟨hmain, hapart⟩ := h
  cases mv with
  | clear docname =>
    cases hstep
    refine ⟨?_, hapart⟩
    intro d key hkey
    rcases mem_update.mp hkey with ⟨-, hkey⟩ | ⟨hne, hkey⟩
    · cases hkey
    · exact get_clearDoc.mpr ⟨hmain d key hkey, hne⟩
  | read docname dirs =>
    cases hstep
    refine ⟨?_, hapart⟩
    intro d key hkey
    show (readDoc A docname dirs s.objects).get key = _
    rw [get_readDoc]
    split
    · next hnow =>
      -- no other document declares it
      obtain rfl := hunshared d docname key hkey (mem_update.mpr (Or.inl ⟨rfl, hnow⟩))
      rfl
    · next hnow =>
      rcases mem_update.mp hkey with ⟨-, hkey⟩ | ⟨-, hkey⟩
      · exact absurd hkey hnow
      · exact hmain d key hkey
  | fork docnames =>
    cases hstep
    refine ⟨hmain, ?_⟩
    intro w hw
    rcases List.mem_append.mp hw with hw | hw
    · exact hapart w hw
    · obtain rfl := List.mem_singleton.mp hw
      intro d _ key hkey
      cases hkey
  | readApart i docname dirs =>
    obtain ⟨w, hw, rfl⟩ := Option.map_eq_some_iff.mp hstep
    have hin := (hgo w hw).1
    refine ⟨hmain, ?_⟩
    intro w' hw'
    rcases List.mem_or_eq_of_mem_set hw' with hw' | rfl
    · exact hapart w' hw'
    · intro d hd key hkey
      show ∃ d' ∈ w.docnames, (readDoc A docname dirs w.objects).get key = _
      rw [get_readDoc]
      split
      · exact ⟨docname, hin, rfl⟩
      · next hnow =>
        rcases mem_update.mp hkey with ⟨-, hkey⟩ | ⟨-, hkey⟩
        · exact absurd hkey hnow
        · exact hapart w (List.mem_of_getElem? hw) d hd key hkey
  | merge i =>
    obtain ⟨w, hw, rfl⟩ := Option.map_eq_some_iff.mp hstep
    have hmem := List.mem_of_getElem? hw
    refine ⟨?_, fun w' hw' => hapart w' (List.mem_of_mem_eraseIdx hw')⟩
    intro d key hkey
    -- what the worker has for the key is of the document that declares it
    have hown : ∀ target, w.objects.get key = some target → target.docname ∈ w.docnames →
        target.docname = d := by
      intro target hget hin
      have hread := (hsound.apart w hmem key target hget hin).1
      exact hunshared _ _ key (mem_mergeReading.mpr (Or.inl ⟨hin, hread⟩)) hkey
    rcases mem_mergeReading.mp hkey with ⟨hd, hkey'⟩ | ⟨hd, hkey'⟩
    · obtain ⟨d', hd', hget⟩ := hapart w hmem d hd key hkey'
      obtain rfl : d' = d := hown _ hget hd'
      exact get_mergeDomaindata.mpr (Or.inl ⟨hget, hd'⟩)
    · refine get_mergeDomaindata.mpr (Or.inr ⟨?_, hmain d key hkey'⟩)
      intro target hget hin
      exact hd (hown target hget hin ▸ hin)

theorem complete_initial : Complete .initial := by
  refine ⟨?_, ?_⟩
  · intro d key hkey
    cases hkey
  · intro w hw
    cases hw

theorem mem_getObjects {objects : Objects} {entry : Text × Text × Text × Text × Text × ℕ} :
    entry ∈ getObjects objects ↔ ∃ objtype name target,
      resolveXref objects objtype name = some target ∧
        entry = (name, name, objtype, target.docname, target.nodeId, 1) := by
  rw [getObjects, List.mem_map]
  constructor
  · rintro ⟨⟨⟨objtype, name⟩, target⟩, hmem, rfl⟩
    exact ⟨objtype, name, target, Dict.mem_entries_iff.mp hmem, rfl⟩
  · rintro ⟨objtype, name, target, hget, rfl⟩
    exact ⟨((objtype, name), target), Dict.mem_entries_iff.mpr hget, rfl⟩

theorem resolveXref_iff (hsound : Sound s) (hcomplete : Complete s) :
    resolveXref s.objects typ name = some target ↔
      (typ, name) ∈ s.reading target.docname ∧ target.nodeId = anchor (typ, name) := by
  constructor
  · intro hget
    exact hsound.main _ _ hget trivial
  · rintro ⟨hkey, hnode⟩
    rw [resolveXref, hcomplete.main _ _ hkey, ← hnode]

theorem complete_run (hr : (building A).Run (Distinct A) .initial moves s) :
    Sound s ∧ Complete s :=
  hr.invariant (I := fun s => Sound s ∧ Complete s)
    (fun _ _ s' hgo hs h =>
      ⟨sound_step hgo.1 hs h.1, complete_step hgo.1 hs h.1 (hgo.2 s' hs) h.2⟩)
    ⟨sound_initial, complete_initial⟩

/-- Each document declares only what has its home there. -/
def AtHome (A : Alphabet) (home : Key → Text) : BuildMove → Prop
  | .read docname dirs | .readApart _ docname dirs => ∀ key ∈ declaredBy A dirs, home key = docname
  | .clear _ | .fork _ | .merge _ => True

/-- All that is declared, here or by a worker, is declared in its home. -/
structure Homed (home : Key → Text) (s : Build) : Prop where
  main : ∀ d, ∀ key ∈ s.reading d, home key = d
  apart : ∀ w ∈ s.workers, ∀ d, ∀ key ∈ w.reading d, home key = d

section Homes

variable {home : Key → Text} {page docname : Text} {dirs : List Directive}
  {reading : Text → List Key}

theorem homed_update (hgo : ∀ key ∈ declaredBy A dirs, home key = docname)
    (h : ∀ d, ∀ key ∈ reading d, home key = d) :
    ∀ d, ∀ key ∈ Function.update reading docname (declaredBy A dirs) d, home key = d := by
  intro d key hkey
  rcases mem_update.mp hkey with ⟨heq, hnow⟩ | ⟨-, hbefore⟩
  · exact (hgo key hnow).trans heq.symm
  · exact h d key hbefore

theorem homed_initial : Homed home .initial := by
  constructor
  · intro d key hkey
    cases hkey
  · intro w hw
    cases hw

theorem homed_step (hgo : AtHome A home mv) (hstep : s.step A mv = some s') (h : Homed home s) :
    Homed home s' := by
  obtain ⟨hmain, hapart⟩ := h
  cases mv with
  | clear docname =>
    cases hstep
    refine ⟨?_, hapart⟩
    intro d key hkey
    rcases mem_update.mp hkey with ⟨-, hkey⟩ | ⟨-, hkey⟩
    · cases hkey
    · exact hmain d key hkey
  | read docname dirs =>
    cases hstep
    exact ⟨homed_update hgo hmain, hapart⟩
  | fork docnames =>
    cases hstep
    refine ⟨hmain, ?_⟩
    intro w hw
    rcases List.mem_append.mp hw with hw | hw
    · exact hapart w hw
    · obtain rfl := List.mem_singleton.mp hw
      intro d key hkey
      cases hkey
  | readApart i docname dirs =>
    obtain ⟨w, hw, rfl⟩ := Option.map_eq_some_iff.mp hstep
    refine ⟨hmain, ?_⟩
    intro w' hw'
    rcases List.mem_or_eq_of_mem_set hw' with hw' | rfl
    · exact hapart w' hw'
    · exact homed_update hgo (hapart w (List.mem_of_getElem? hw))
  | merge i =>
    obtain ⟨w, hw, rfl⟩ := Option.map_eq_some_iff.mp hstep
    refine ⟨?_, fun w' hw' => hapart w' (List.mem_of_mem_eraseIdx hw')⟩
    intro d key hkey
    rcases mem_mergeReading.mp hkey with ⟨-, hkey⟩ | ⟨-, hkey⟩
    · exact hapart w (List.mem_of_getElem? hw) d key hkey
    · exact hmain d key hkey

theorem homed_run (hr : (building A).Run (fun s mv => Orderly s mv ∧ AtHome A home mv)
    .initial moves s) : Homed home s :=
  hr.invariant (fun _ _ _ hgo hs h => homed_step hgo.2 hs h) homed_initial

/-- What has one home, no two documents declare. -/
theorem distinct_run (hr : (building A).Run (fun s mv => Orderly s mv ∧ AtHome A home mv)
    .initial moves s) : (building A).Run (Distinct A) .initial moves s := by
  have hboth := hr.and_of_forall (Q := fun s mv => Distinct A s mv) (by
    intro pre mv post s₁ s₂ _ hpre hgo _ _
    refine ⟨hgo.1, ?_⟩
    intro s' hstep d d' key hkey hkey'
    have hhomed := homed_step hgo.2 hstep (homed_run hpre)
    rw [← hhomed.main d key hkey, hhomed.main d' key hkey'])
  exact hboth.imp fun _ _ _ h => h.2

end Homes

/-- While no two documents declare the same, the links are the declarations of the documents as
they were last read, in whatever order and by how many workers they were, and so are the
entries of the inventory. -/
theorem targets_exact (hr : (building A).Run (Distinct A) .initial moves s) :
    (∀ typ name target, resolveXref s.objects typ name = some target ↔
      (typ, name) ∈ s.reading target.docname ∧ target.nodeId = anchor (typ, name)) ∧
    ∀ entry, entry ∈ getObjects s.objects ↔ ∃ objtype name docname,
      (objtype, name) ∈ s.reading docname ∧
        entry = (name, name, objtype, docname, anchor (objtype, name), 1) := by
  obtain ⟨hsound, hcomplete⟩ := complete_run hr
  refine ⟨fun typ name target => resolveXref_iff hsound hcomplete, ?_⟩
  intro entry
  rw [mem_getObjects]
  constructor
  · rintro ⟨objtype, name, target, hget, rfl⟩
    obtain ⟨hkey, hnode⟩ := (resolveXref_iff hsound hcomplete).mp hget
    exact ⟨objtype, name, target.docname, hkey, by rw [hnode]⟩
  · rintro ⟨objtype, name, docname, hkey, rfl⟩
    exact ⟨objtype, name, ⟨docname, anchor (objtype, name)⟩,
      (resolveXref_iff hsound hcomplete).mpr ⟨hkey, rfl⟩, rfl⟩

/-- Records are declared in one document, and all else in the other one. -/
def recordsApart (key : Key) : Text :=
  if key.1 = "record".toList then "internal".toList else "api_reference".toList

/-- In the second build the method `g` has made way for another one, and an event has come. -/
theorem targets_exact_twoBuilds : ∃ s : Build,
    s.reading "api_reference".toList = [("method".toList, ['f']), ("event".toList, ['e'])] ∧
    s.reading "internal".toList = [("record".toList, "Row".toList)] ∧
    resolveXref s.objects "method".toList ['g'] = none ∧
    (∀ typ name target, resolveXref s.objects typ name = some target ↔
      (typ, name) ∈ s.reading target.docname ∧ target.nodeId = anchor (typ, name)) ∧
    ∀ entry, entry ∈ getObjects s.objects ↔ ∃ objtype name docname,
      (objtype, name) ∈ s.reading docname ∧
        entry = (name, name, objtype, docname, anchor (objtype, name), 1) := by
  have hne : "internal".toList ≠ "api_reference".toList := by decide
  have hrecord : declaredBy .latin [⟨"record".toList, "Row".toList⟩] =
      [("record".toList, "Row".toList)] := by decide +kernel
  have hbefore : declaredBy .latin [⟨"method".toList, "g()".toList⟩] =
      [("method".toList, ['g'])] := by decide +kernel
  obtain ⟨s, hr, hpage, hother, -⟩ := run_twoBuilds (A := .latin) hne
    [⟨"record".toList, "Row".toList⟩] [⟨"method".toList, "g()".toList⟩] methodAndEvent
  have hhome := hr.imp (Q := fun s mv => Orderly s mv ∧ AtHome .latin recordsApart mv) (by
    intro mv hmv t hgo
    refine ⟨hgo, ?_⟩
    simp only [twoBuilds, List.mem_cons, List.not_mem_nil, or_false] at hmv
    rcases hmv with rfl | rfl | rfl | rfl | rfl | rfl | rfl | rfl
    any_goals trivial
    -- what is read, before and after, is at home
    all_goals
      simp only [AtHome, hrecord, hbefore, declaredBy_methodAndEvent]
      decide)
  obtain ⟨hlinks, hinventory⟩ := targets_exact (distinct_run hhome)
  rw [declaredBy_methodAndEvent] at hpage
  rw [hrecord] at hother
  refine ⟨s, hpage, hother, ?_, hlinks, hinventory⟩
  -- a link to `g` would lead to its home, which does not declare it any more
  rw [Option.eq_none_iff_forall_ne_some]
  intro target hget
  have hkey := ((hlinks _ _ target).mp hget).1
  have hdoc : "api_reference".toList = target.docname := (homed_run hhome).main _ _ hkey
  rw [← hdoc, hpage] at hkey
  exact absurd hkey (by decide)

/-- A declaration of two documents loses its link when the document it leads to is cleared. -/
theorem clear_loses {docname : Text} (hget : resolveXref s.objects typ name = some target)
    (hkey : (typ, name) ∈ s.reading docname) (hother : docname ≠ target.docname)
    (hstep : s.step A (.clear target.docname) = some s') :
    (typ, name) ∈ s'.reading docname ∧ resolveXref s'.objects typ name = none := by
  cases hstep
  refine ⟨mem_update.mpr (Or.inr ⟨hother, hkey⟩), ?_⟩
  rw [Option.eq_none_iff_forall_ne_some]
  intro target' hget'
  obtain ⟨hget', hne⟩ := get_clearDoc.mp hget'
  rw [resolveXref, hget'] at hget
  exact hne (congrArg Target.docname (Option.some.inj hget))

end Complete

/-! ## The page of a contract -/

/-- The directives of `pages/api_reference.rst`, which includes the three files that are rendered
of a contract. -/
def Contract.directives (module : Contract) : List Directive :=
  module.methods.map (fun m => ⟨Keyword.method.objtype, signature m⟩) ++
    module.events.map (fun e => ⟨Keyword.event.objtype, signature e⟩) ++
    module.types.map fun t => ⟨Keyword.type.objtype, t.name⟩

/-- The declarations of a keyword. -/
def Contract.keysOf (module : Contract) (keyword : Keyword) : List Key :=
  (module.names keyword).map fun name => (keyword.objtype, name)

def Contract.keys (module : Contract) : List Key :=
  module.keysOf .method ++ module.keysOf .event ++ module.keysOf .type

section Page

variable {A : Alphabet} {module : Contract} {comments : List (ℕ × Comment)} {source : Text}

/-- SIGNATURE finds the name that stands alone. -/
theorem fullmatch_name {name : Text} (h : IsIdent name) :
    (SIGNATURE A).fullmatch? name = some ⟨[], [(.name, name)]⟩ := by
  have hname : ((Regex.group Part.name (.plus (.one A.isWord))).tries (name ++ [])).head? =
      some ⟨[], [(.name, name)]⟩ :=
    Regex.head?_group_plus h.ne_nil
      (fun c hc => isWord_of_identPart (h.identPart_of_mem c hc)) (by simp)
  have hspaces : ((Regex.star (.one isSpace) : Regex Char Part).tries []).head? =
      some ⟨[], []⟩ := rfl
  rw [List.append_nil] at hname
  rw [SIGNATURE]
  exact Regex.fullmatch?_seq hname (Regex.fullmatch?_seq hspaces
    (Regex.fullmatch?_seq (m := ⟨[], []⟩) rfl (Regex.fullmatch?_seq hspaces
      (Regex.fullmatch?_opt_nil rfl))))

theorem key_callable {decl : Callable} {keyword : Keyword} (h : decl.Ok)
    (hno : keyword ≠ .type) : Directive.key A ⟨keyword.objtype, signature decl⟩ =
      some (keyword.objtype, decl.name) := by
  have hobjtype : keyword.objtype ≠ "record".toList := by
    cases keyword with
    | type => exact absurd rfl hno
    | method | event => decide
  rw [Directive.key, handleSignature_signature h hobjtype]
  rfl

theorem key_record {name : Text} (h : IsIdent name) :
    Directive.key A ⟨Keyword.type.objtype, name⟩ = some (Keyword.type.objtype, name) := by
  have hread : handleSignature A Keyword.type.objtype name =
      .ok ⟨some "type ".toList, name, none, none⟩ := by
    rw [handleSignature, h.trimmed.strip, fullmatch_name h]
    rfl
  rw [Directive.key, hread]

/-- What a page declares by directives of which each declares something. -/
theorem declaredBy_map {α : Type} {decls : List α} {dir : α → Directive} {key : α → Key}
    (h : ∀ decl ∈ decls, (dir decl).key A = some (key decl)) :
    declaredBy A (decls.map dir) = decls.map key := by
  rw [declaredBy, List.filterMap_map, ← List.filterMap_eq_map]
  exact List.filterMap_congr h

/-- The page declares what the contract does. -/
theorem declaredBy_directives (hread : readContract source = .ok (module, comments)) :
    declaredBy A module.directives = module.keys := by
  obtain ⟨ts, ts', htokens, hmodule⟩ := readContract_ok hread
  obtain ⟨hrecords, hdecls⟩ := parseModule_ok (tokenize_wellFormed htokens) hmodule
  have hmethods := declaredBy_map (A := A) fun m hm =>
    key_callable (hdecls m (List.mem_append_left _ hm)) (show Keyword.method ≠ .type by decide)
  have hevents := declaredBy_map (A := A) fun e he =>
    key_callable (hdecls e (List.mem_append_right _ he)) (show Keyword.event ≠ .type by decide)
  have htypes := declaredBy_map (A := A) fun t ht => key_record (hrecords t ht)
  simp only [declaredBy] at hmethods hevents htypes
  simp only [declaredBy, Contract.directives, List.filterMap_append, hmethods, hevents, htypes,
    Contract.keys, Contract.keysOf, Contract.names, List.map_map, Function.comp_def]

/-! ## The anchors of a page -/

theorem anchor_callable {key : Key} (h : key.1 ≠ Keyword.type.objtype) : anchor key = key.2 :=
  if_neg h

theorem anchor_record (name : Text) :
    anchor (Keyword.type.objtype, name) = "record-".toList ++ name := rfl

/-- What `clashing_anchors` has after these names: as many kinds under each. -/
def Counted (names : List Text) (seen : List (Text × List Text)) : Prop :=
  (∀ entry ∈ seen, entry.2.length = names.count entry.1) ∧ ∀ name ∈ names, name ∈ seen.map Prod.fst

theorem counted_noteAnchor {names : List Text} {seen : List (Text × List Text)}
    (h : Counted names seen) (name kind : Text) :
    Counted (names ++ [name]) (noteAnchor seen name kind) := by
  obtain ⟨hcount, hin⟩ := h
  rw [noteAnchor]
  split
  · next hany =>
    constructor
    · intro entry hmem
      obtain ⟨old, hold, rfl⟩ := List.mem_map.mp hmem
      rw [List.count_append, ← hcount old hold, List.count_singleton]
      by_cases heq : old.1 = name
      · simp [heq]
      · simp [heq, Ne.symm heq]
    · intro name' hmem
      have hkeys : (seen.map fun e => (e.1, if e.1 = name then e.2 ++ [kind] else e.2)).map
          Prod.fst = seen.map Prod.fst := by
        rw [List.map_map]
        rfl
      show name' ∈ (seen.map fun e => (e.1, if e.1 = name then e.2 ++ [kind] else e.2)).map Prod.fst
      rw [hkeys]
      rcases List.mem_append.mp hmem with hmem | hmem
      · exact hin name' hmem
      · obtain rfl := List.mem_singleton.mp hmem
        obtain ⟨entry, hentry, heq⟩ := List.any_eq_true.mp hany
        exact List.mem_map.mpr ⟨entry, hentry, of_decide_eq_true heq⟩
  · next hany =>
    have hnot : name ∉ names := by
      intro hmem
      obtain ⟨entry, hentry, heq⟩ := List.mem_map.mp (hin name hmem)
      exact hany (List.any_eq_true.mpr ⟨entry, hentry, decide_eq_true heq⟩)
    constructor
    · intro entry hmem
      rw [List.count_append]
      rcases List.mem_append.mp hmem with hmem | hmem
      · have hne : name ≠ entry.1 := by
          intro heq
          exact hany (List.any_eq_true.mpr ⟨entry, hmem, decide_eq_true heq.symm⟩)
        rw [List.count_singleton, hcount entry hmem]
        simp [hne]
      · obtain rfl := List.mem_singleton.mp hmem
        simp [List.count_eq_zero_of_not_mem hnot]
    · intro name' hmem
      rw [List.map_append]
      rcases List.mem_append.mp hmem with hmem | hmem
      · exact List.mem_append_left _ (hin name' hmem)
      · exact List.mem_append_right _ hmem

theorem counted_foldl {α : Type} (name : α → Text) (kind : Text) (decls : List α)
    {names : List Text} {seen : List (Text × List Text)} (h : Counted names seen) :
    Counted (names ++ decls.map name)
      (decls.foldl (fun seen decl => noteAnchor seen (name decl) kind) seen) := by
  induction decls generalizing names seen with
  | nil => simpa using h
  | cons decl decls ih =>
    have hnext := ih (counted_noteAnchor h (name decl) kind)
    rwa [List.append_assoc] at hnext

/-- The check passes if and only if no two methods or events have one name. -/
theorem clashingAnchors_eq_nil_iff : clashingAnchors module = [] ↔
    (module.names .method ++ module.names .event).Nodup := by
  have hcounted : Counted (module.names .method ++ module.names .event)
      (module.events.foldl (fun seen e => noteAnchor seen e.name "event".toList)
        (module.methods.foldl (fun seen m => noteAnchor seen m.name "method".toList) [])) := by
    have hnone : Counted [] [] := ⟨by simp, by simp⟩
    have hmethods := counted_foldl Callable.name "method".toList module.methods hnone
    exact counted_foldl Callable.name "event".toList module.events hmethods
  obtain ⟨hcount, hin⟩ := hcounted
  rw [clashingAnchors, List.filter_eq_nil_iff, List.nodup_iff_count_le_one]
  constructor
  · intro hnone name
    by_cases hmem : name ∈ module.names .method ++ module.names .event
    · obtain ⟨entry, hentry, rfl⟩ := List.mem_map.mp (hin name hmem)
      have hfew := hnone entry hentry
      rw [← hcount entry hentry]
      simpa using hfew
    · rw [List.count_eq_zero_of_not_mem hmem]
      exact Nat.zero_le 1
  · intro hone entry hentry
    have hfew := hone entry.1
    rw [← hcount entry hentry] at hfew
    simpa using hfew

theorem isIdent_names (hread : readContract source = .ok (module, comments)) (keyword : Keyword) :
    ∀ name ∈ module.names keyword, IsIdent name := by
  obtain ⟨ts, ts', htokens, hmodule⟩ := readContract_ok hread
  obtain ⟨hrecords, hdecls⟩ := parseModule_ok (tokenize_wellFormed htokens) hmodule
  intro name hname
  cases keyword with
  | type =>
    obtain ⟨t, ht, rfl⟩ := List.mem_map.mp hname
    exact hrecords t ht
  | method =>
    obtain ⟨m, hm, rfl⟩ := List.mem_map.mp hname
    exact (hdecls m (List.mem_append_left _ hm)).name
  | event =>
    obtain ⟨e, he, rfl⟩ := List.mem_map.mp hname
    exact (hdecls e (List.mem_append_right _ he)).name

theorem mem_keysOf {keyword : Keyword} {key : Key} : key ∈ module.keysOf keyword ↔
    key.1 = keyword.objtype ∧ key.2 ∈ module.names keyword := by
  rw [Contract.keysOf, List.mem_map]
  constructor
  · rintro ⟨name, hname, rfl⟩
    exact ⟨rfl, hname⟩
  · rintro ⟨hobjtype, hname⟩
    exact ⟨key.2, hname, by rw [← hobjtype]⟩

theorem clashingAnchors_iff (hread : readContract source = .ok (module, comments)) :
    clashingAnchors module = [] ↔ module.keys.Pairwise fun key key' =>
      anchor key = anchor key' → key = key' ∧ key.1 = Keyword.type.objtype := by
  have hcallable : ∀ key ∈ module.keysOf .method ++ module.keysOf .event,
      key.1 ≠ Keyword.type.objtype ∧ IsIdent key.2 := by
    intro key hmem
    rcases List.mem_append.mp hmem with hmem | hmem
    · obtain ⟨hobjtype, hname⟩ := mem_keysOf.mp hmem
      exact ⟨by rw [hobjtype]; decide, isIdent_names hread .method _ hname⟩
    · obtain ⟨hobjtype, hname⟩ := mem_keysOf.mp hmem
      exact ⟨by rw [hobjtype]; decide, isIdent_names hread .event _ hname⟩
  have hrecords : (module.keysOf .type).Pairwise fun key key' =>
      anchor key = anchor key' → key = key' ∧ key.1 = Keyword.type.objtype := by
    rw [Contract.keysOf, List.pairwise_map]
    apply List.pairwise_of_forall
    intro name name' heq
    rw [anchor_record, anchor_record, List.append_cancel_left_eq] at heq
    exact ⟨by rw [heq], rfl⟩
  -- no identifier has the hyphen of a record's anchor
  have hapart : ∀ key ∈ module.keysOf .method ++ module.keysOf .event, ∀ key' ∈ module.keysOf .type,
      anchor key ≠ anchor key' := by
    intro key hmem key' hmem' heq
    obtain ⟨hno, hident⟩ := hcallable key hmem
    obtain ⟨objtype, name⟩ := key'
    obtain rfl : objtype = Keyword.type.objtype := (mem_keysOf.mp hmem').1
    rw [anchor_callable hno, anchor_record] at heq
    have hhyphen := hident.identPart_of_mem '-' (by rw [heq]; simp)
    exact absurd hhyphen (by decide)
  have hnames : (module.keysOf .method ++ module.keysOf .event).map Prod.snd =
      module.names .method ++ module.names .event := by
    simp [Contract.keysOf, Function.comp_def]
  rw [clashingAnchors_eq_nil_iff, Contract.keys,
    List.pairwise_append, ← hnames, List.Nodup, List.pairwise_map]
  have hiff : (module.keysOf .method ++ module.keysOf .event).Pairwise (·.2 ≠ ·.2) ↔
      (module.keysOf .method ++ module.keysOf .event).Pairwise fun key key' =>
        anchor key = anchor key' → key = key' ∧ key.1 = Keyword.type.objtype := by
    apply List.Pairwise.iff_of_mem
    intro key key' hmem hmem'
    obtain ⟨hno, -⟩ := hcallable key hmem
    rw [anchor_callable hno, anchor_callable (hcallable key' hmem').1]
    constructor
    · intro hne heq
      exact absurd heq hne
    · intro himp heq
      exact hno (himp heq).2
  rw [hiff]
  constructor
  · intro h
    refine ⟨h, hrecords, ?_⟩
    intro key hmem key' hmem' heq
    exact absurd heq (hapart key hmem key' hmem')
  · rintro ⟨h, -⟩
    exact h

/-- `clashing_anchors` finds nothing if and only if the declarations of the page that have one
target are records of one name. -/
theorem clashes_exact (hread : readContract source = .ok (module, comments)) :
    clashingAnchors module = [] ↔ (declaredBy A module.directives).Pairwise fun key key' =>
      anchor key = anchor key' → key = key' ∧ key.1 = Keyword.type.objtype := by
  rw [declaredBy_directives hread]
  exact clashingAnchors_iff hread

/-- `module a { method f() event f() }`, over four lines. -/
def oneName : Text := "module a \x7b\n  method f()\n  event f()\n\x7d".toList

def oneNameContract : Contract :=
  ⟨['a'], 1, [], [⟨['f'], 2, [], none⟩], [⟨['f'], 3, [], none⟩]⟩

theorem clashes_exact_oneName : readContract oneName = .ok (oneNameContract, []) ∧
    (clashingAnchors oneNameContract = [] ↔
      (declaredBy .latin oneNameContract.directives).Pairwise fun key key' =>
        anchor key = anchor key' → key = key' ∧ key.1 = Keyword.type.objtype) := by
  have hread : readContract oneName = .ok (oneNameContract, []) := by decide +kernel
  exact ⟨hread, clashes_exact hread⟩

/-! ## The links of the reference -/

section Links

variable {s : Build} {moves : List BuildMove} {page : Text}

end Links

end Page

end ChatModule.Docs
