import Mathlib.Data.List.Basic

/-!
# Regular expressions, matched by trying in order

A backtracking matcher prefers: the left alternative to the right one, one more round of a
star to none. `tries r s` are all ways to match `r` at the front of `s` in that order, each
with what it leaves and what its groups have captured, so that the match such a matcher
finds is the first of them that lets the rest of the pattern match.

* `Found.suffix_of_mem` — a match takes a first part of the text;
* `mem_tries_seq`, `mem_tries_star_one`, … — what a match looks like, by its pattern;
* `head?_seq`, `find?_seq`, `tries_star_cons`, … — which match comes first.
-/

/-- Patterns over characters `α` with groups named by `γ`. -/
inductive Regex (α γ : Type*)
  | eps
  | one (p : α → Bool)
  | seq (a b : Regex α γ)
  | alt (a b : Regex α γ)
  | star (a : Regex α γ)
  | group (name : γ) (a : Regex α γ)

namespace Regex

variable {α γ : Type*}

/-- A way to match: what it leaves of the text, and what the groups have captured. -/
structure Found (α γ : Type*) where
  rest : List α
  groups : List (γ × List α)
deriving DecidableEq, Repr

/-- A match and another one after it. -/
def Found.andThen (m m' : Found α γ) : Found α γ := ⟨m'.rest, m.groups ++ m'.groups⟩

/-- What a group captured last. -/
def Found.group [BEq γ] (m : Found α γ) (name : γ) : Option (List α) := m.groups.reverse.lookup name

/-- The rounds of a greedy star, of which each takes something. -/
def rounds (f : List α → List (Found α γ)) : ℕ → List α → List (Found α γ)
  | 0, s => [⟨s, []⟩]
  | n + 1, s =>
    ((f s).filter (·.rest.length < s.length)).flatMap
      (fun m => (rounds f n m.rest).map m.andThen) ++ [⟨s, []⟩]

/-- All ways to match a pattern at the front of a text, the preferred ones first. -/
def tries : Regex α γ → List α → List (Found α γ)
  | eps, s => [⟨s, []⟩]
  | one _, [] => []
  | one p, c :: s => if p c then [⟨s, []⟩] else []
  | seq a b, s => (a.tries s).flatMap fun m => (b.tries m.rest).map m.andThen
  | alt a b, s => a.tries s ++ b.tries s
  | star a, s => rounds a.tries s.length s
  | group name a, s =>
    (a.tries s).map fun m => ⟨m.rest, m.groups ++ [(name, s.take (s.length - m.rest.length))]⟩

/-- At least one round. -/
def plus (a : Regex α γ) : Regex α γ := seq a (star a)

/-- One round at most. -/
def opt (a : Regex α γ) : Regex α γ := alt a eps

/-- The pattern of a fixed text. -/
def lit [BEq α] : List α → Regex α γ
  | [] => eps
  | c :: cs => seq (one (· == c)) (lit cs)

/-- `re.match`: the preferred match at the front of the text. -/
def match? (r : Regex α γ) (s : List α) : Option (Found α γ) := (r.tries s).head?

/-- `re.match` of a pattern with an end-of-text anchor after it, and `re.fullmatch`. -/
def fullmatch? (r : Regex α γ) (s : List α) : Option (Found α γ) :=
  (r.tries s).find? (·.rest.isEmpty)

/-! ## The patterns one by one -/

section Equations

variable {f : List α → List (Found α γ)} {n : ℕ} {a b : Regex α γ} {s : List α} {p : α → Bool}
  {c : α}

theorem rounds_zero : rounds f 0 s = [⟨s, []⟩] := rfl

theorem rounds_succ : rounds f (n + 1) s = ((f s).filter (·.rest.length < s.length)).flatMap
    (fun m => (rounds f n m.rest).map m.andThen) ++ [⟨s, []⟩] := rfl

theorem tries_eps : (eps : Regex α γ).tries s = [⟨s, []⟩] := rfl

theorem tries_one_nil : (one p : Regex α γ).tries [] = [] := rfl

theorem tries_one_cons : (one p : Regex α γ).tries (c :: s) = if p c then [⟨s, []⟩] else [] := rfl

theorem tries_seq : (seq a b).tries s =
    (a.tries s).flatMap fun m => (b.tries m.rest).map m.andThen := rfl

theorem tries_alt : (alt a b).tries s = a.tries s ++ b.tries s := rfl

theorem tries_group {name : γ} : (group name a).tries s = (a.tries s).map fun m =>
    ⟨m.rest, m.groups ++ [(name, s.take (s.length - m.rest.length))]⟩ := rfl

theorem lit_nil [BEq α] : (lit [] : Regex α γ) = eps := rfl

theorem lit_cons [BEq α] {w : List α} :
    (lit (c :: w) : Regex α γ) = seq (one (· == c)) (lit w) := rfl

end Equations

/-! ## What a match looks like -/

section Shape

variable {a b r : Regex α γ} {m : Found α γ} {s : List α} {p : α → Bool}

theorem rounds_suffix {f : List α → List (Found α γ)}
    (hf : ∀ s, ∀ m ∈ f s, m.rest <:+ s) (n : ℕ) (s : List α) :
    ∀ m ∈ rounds f n s, m.rest <:+ s := by
  induction n generalizing s with
  | zero =>
    intro m hm
    rw [rounds_zero, List.mem_singleton] at hm
    subst hm
    exact List.suffix_refl s
  | succ n ih =>
    intro m hm
    rw [rounds_succ, List.mem_append, List.mem_flatMap, List.mem_singleton] at hm
    rcases hm with ⟨m₁, hm₁, hm⟩ | rfl
    · obtain ⟨m₂, hm₂, rfl⟩ := List.mem_map.mp hm
      exact (ih _ _ hm₂).trans (hf s m₁ (List.mem_filter.mp hm₁).1)
    · exact List.suffix_refl s

/-- A match takes a first part of the text. -/
theorem suffix_of_mem (r : Regex α γ) : ∀ s, ∀ m ∈ r.tries s, m.rest <:+ s := by
  induction r with
  | eps =>
    intro s m hm
    rw [tries_eps, List.mem_singleton] at hm
    subst hm
    exact List.suffix_refl s
  | one p =>
    intro s m hm
    cases s with
    | nil => cases hm
    | cons c s =>
      rw [tries_one_cons] at hm
      split at hm
      · rw [List.mem_singleton] at hm
        rw [hm]
        exact List.suffix_cons c s
      · cases hm
  | seq a b iha ihb =>
    intro s m hm
    rw [tries_seq, List.mem_flatMap] at hm
    obtain ⟨m₁, hm₁, hm⟩ := hm
    obtain ⟨m₂, hm₂, rfl⟩ := List.mem_map.mp hm
    exact (ihb _ _ hm₂).trans (iha _ _ hm₁)
  | alt a b iha ihb =>
    intro s m hm
    rw [tries_alt, List.mem_append] at hm
    rcases hm with hm | hm
    · exact iha s m hm
    · exact ihb s m hm
  | star a iha => exact fun s => rounds_suffix iha _ s
  | group name a iha =>
    intro s m hm
    rw [tries_group, List.mem_map] at hm
    obtain ⟨m₁, hm₁, rfl⟩ := hm
    exact iha s m₁ hm₁

theorem mem_tries_one :
    m ∈ (one p : Regex α γ).tries s ↔ ∃ c, p c ∧ s = c :: m.rest ∧ m.groups = [] := by
  cases s with
  | nil => simp [tries_one_nil]
  | cons c s =>
    rw [tries_one_cons]
    constructor
    · intro hm
      split at hm
      · next hp =>
        rw [List.mem_singleton] at hm
        subst hm
        exact ⟨c, hp, rfl, rfl⟩
      · cases hm
    · rintro ⟨c', hp, heq, hgroups⟩
      obtain ⟨rfl, rfl⟩ := List.cons.inj heq
      rw [if_pos hp, List.mem_singleton]
      cases m
      simp_all

theorem mem_tries_seq :
    m ∈ (seq a b).tries s ↔ ∃ m₁ ∈ a.tries s, ∃ m₂ ∈ b.tries m₁.rest, m = m₁.andThen m₂ := by
  rw [tries_seq, List.mem_flatMap]
  simp only [List.mem_map, eq_comm]

theorem mem_tries_alt : m ∈ (alt a b).tries s ↔ m ∈ a.tries s ∨ m ∈ b.tries s := by
  rw [tries_alt, List.mem_append]

/-- A group captures what its pattern takes. -/
theorem mem_tries_group {name : γ} (h : m ∈ (group name a).tries s) :
    ∃ m₁ ∈ a.tries s, ∃ w, s = w ++ m₁.rest ∧ m = ⟨m₁.rest, m₁.groups ++ [(name, w)]⟩ := by
  rw [tries_group, List.mem_map] at h
  obtain ⟨m₁, hm₁, rfl⟩ := h
  obtain ⟨w, rfl⟩ := suffix_of_mem a s m₁ hm₁
  refine ⟨m₁, hm₁, w, rfl, ?_⟩
  simp

/-- The pattern has no group. -/
def plain : Regex α γ → Bool
  | eps => true
  | one _ => true
  | seq a b => a.plain && b.plain
  | alt a b => a.plain && b.plain
  | star a => a.plain
  | group _ _ => false

theorem rounds_groups {f : List α → List (Found α γ)}
    (hf : ∀ s, ∀ m ∈ f s, m.groups = []) (n : ℕ) (s : List α) :
    ∀ m ∈ rounds f n s, m.groups = [] := by
  induction n generalizing s with
  | zero =>
    intro m hm
    rw [rounds_zero, List.mem_singleton] at hm
    rw [hm]
  | succ n ih =>
    intro m hm
    rw [rounds_succ, List.mem_append, List.mem_flatMap, List.mem_singleton] at hm
    rcases hm with ⟨m₁, hm₁, hm⟩ | rfl
    · obtain ⟨m₂, hm₂, rfl⟩ := List.mem_map.mp hm
      show m₁.groups ++ m₂.groups = []
      rw [hf s m₁ (List.mem_filter.mp hm₁).1, ih _ _ hm₂]
      rfl
    · rfl

/-- Without a group nothing is captured. -/
theorem groups_of_plain : ∀ {r : Regex α γ}, r.plain → ∀ s, ∀ m ∈ r.tries s, m.groups = []
  | eps, _, s, m, hm => by
      rw [tries_eps, List.mem_singleton] at hm
      rw [hm]
  | one p, _, s, m, hm => by
      obtain ⟨_, _, _, hgroups⟩ := mem_tries_one.mp hm
      exact hgroups
  | seq a b, h, s, m, hm => by
      simp only [plain, Bool.and_eq_true] at h
      obtain ⟨m₁, hm₁, m₂, hm₂, rfl⟩ := mem_tries_seq.mp hm
      show m₁.groups ++ m₂.groups = []
      rw [groups_of_plain h.1 s m₁ hm₁, groups_of_plain h.2 _ m₂ hm₂]
      rfl
  | alt a b, h, s, m, hm => by
      simp only [plain, Bool.and_eq_true] at h
      rcases mem_tries_alt.mp hm with hm | hm
      · exact groups_of_plain h.1 s m hm
      · exact groups_of_plain h.2 s m hm
  | star a, h, s, m, hm => rounds_groups (groups_of_plain (r := a) h) _ s m hm

/-- A fixed text is matched by itself. -/
theorem eq_of_mem_lit [BEq α] [LawfulBEq α] {w : List α} (h : m ∈ (lit w : Regex α γ).tries s) :
    s = w ++ m.rest := by
  induction w generalizing s m with
  | nil =>
    rw [lit_nil, tries_eps, List.mem_singleton] at h
    rw [h]
    rfl
  | cons c w ih =>
    obtain ⟨m₁, hm₁, m₂, hm₂, rfl⟩ := mem_tries_seq.mp h
    obtain ⟨d, hd, rfl, -⟩ := mem_tries_one.mp hm₁
    rw [eq_of_beq hd, ih hm₂]
    rfl

/-- A star of single characters goes on while it can, and then gives back one at a time. -/
theorem tries_star_one_cons {c : α} :
    (star (one p) : Regex α γ).tries (c :: s) =
      (if p c then (star (one p) : Regex α γ).tries s else []) ++ [⟨c :: s, []⟩] := by
  show rounds _ (s.length + 1) (c :: s) = _
  rw [rounds_succ, tries_one_cons]
  congr 1
  split
  · have hid : (fun m : Found α γ => Found.andThen ⟨s, []⟩ m) = id := rfl
    simp only [List.length_cons, List.filter_cons, Nat.lt_succ_self, decide_true, if_true,
      List.filter_nil, List.flatMap_singleton, hid, List.map_id]
    rfl
  · simp

theorem mem_tries_star_one : m ∈ (star (one p) : Regex α γ).tries s ↔
    m.groups = [] ∧ ∃ w, s = w ++ m.rest ∧ ∀ c ∈ w, p c := by
  induction s with
  | nil =>
    show m ∈ [(⟨[], []⟩ : Found α γ)] ↔ _
    rw [List.mem_singleton]
    constructor
    · rintro rfl
      exact ⟨rfl, [], rfl, by simp⟩
    · rintro ⟨hgroups, w, heq, -⟩
      obtain ⟨-, hrest⟩ := List.append_eq_nil_iff.mp heq.symm
      cases m
      simp_all
  | cons c s ih =>
    rw [tries_star_one_cons, List.mem_append, List.mem_singleton]
    constructor
    · rintro (hm | rfl)
      · split at hm
        · next hp =>
          obtain ⟨hgroups, w, rfl, hw⟩ := ih.mp hm
          refine ⟨hgroups, c :: w, rfl, ?_⟩
          intro d hd
          rcases List.mem_cons.mp hd with rfl | hd
          · exact hp
          · exact hw d hd
        · cases hm
      · exact ⟨rfl, [], rfl, by simp⟩
    · rintro ⟨hgroups, w, heq, hw⟩
      cases w with
      | nil =>
        right
        cases m
        simp_all
      | cons d w =>
        obtain ⟨rfl, rfl⟩ := List.cons.inj heq
        left
        rw [if_pos (hw c List.mem_cons_self)]
        exact ih.mpr ⟨hgroups, w, rfl, fun d hd => hw d (List.mem_cons_of_mem _ hd)⟩

end Shape

/-! ## Which match comes first -/

section First

variable {a b r : Regex α γ} {m m' : Found α γ} {s w : List α} {p : α → Bool} {name : γ}

/-- The preferred match of a sequence, when its first part can keep to its own. -/
theorem head?_seq (ha : (a.tries s).head? = some m) (hb : (b.tries m.rest).head? = some m') :
    ((seq a b).tries s).head? = some (m.andThen m') := by
  obtain ⟨ms, hms⟩ := List.head?_eq_some_iff.mp ha
  obtain ⟨ms', hms'⟩ := List.head?_eq_some_iff.mp hb
  rw [tries_seq, hms, List.flatMap_cons, hms']
  rfl

/-- The same for a match of the whole text. -/
theorem fullmatch?_seq (ha : (a.tries s).head? = some m) (hb : b.fullmatch? m.rest = some m') :
    (seq a b).fullmatch? s = some (m.andThen m') := by
  obtain ⟨ms, hms⟩ := List.head?_eq_some_iff.mp ha
  unfold fullmatch? at hb ⊢
  rw [tries_seq, hms, List.flatMap_cons, List.find?_append, List.find?_map]
  have hcomp : ((fun m : Found α γ => m.rest.isEmpty) ∘ m.andThen) =
      fun m : Found α γ => m.rest.isEmpty := rfl
  rw [hcomp, hb]
  rfl

theorem head?_alt (ha : (a.tries s).head? = some m) : ((alt a b).tries s).head? = some m := by
  obtain ⟨ms, hms⟩ := List.head?_eq_some_iff.mp ha
  rw [tries_alt, hms]
  rfl

theorem tries_alt_of_nil (ha : a.tries s = []) : (alt a b).tries s = b.tries s := by
  rw [tries_alt, ha, List.nil_append]

theorem head?_group (ha : (a.tries (w ++ m.rest)).head? = some m) :
    ((group name a).tries (w ++ m.rest)).head? = some ⟨m.rest, m.groups ++ [(name, w)]⟩ := by
  rw [tries_group, List.head?_map, ha]
  simp

/-- A greedy star of single characters takes all it can. -/
theorem head?_star_one :
    ((star (one p) : Regex α γ).tries s).head? = some ⟨s.dropWhile p, []⟩ := by
  induction s with
  | nil => rfl
  | cons c s ih =>
    rw [tries_star_one_cons, List.dropWhile_cons]
    split
    · rw [List.head?_append, ih]
      rfl
    · rfl

theorem dropWhile_append (hw : ∀ c ∈ w, p c) (hs : ∀ c ∈ s.head?, p c = false) :
    (w ++ s).dropWhile p = s := by
  rw [List.dropWhile_append_of_pos hw]
  cases s with
  | nil => rfl
  | cons c s => rw [List.dropWhile_cons_of_neg (by simp [hs c rfl])]

/-- A group of single characters, one at least, captures all there are. -/
theorem head?_group_plus (hne : w ≠ []) (hw : ∀ c ∈ w, p c) (hs : ∀ c ∈ s.head?, p c = false) :
    ((group name (plus (one p))).tries (w ++ s)).head? = some ⟨s, [(name, w)]⟩ := by
  cases w with
  | nil => exact absurd rfl hne
  | cons c w =>
    have hone : ((one p : Regex α γ).tries (c :: (w ++ s))).head? = some ⟨w ++ s, []⟩ := by
      rw [tries_one_cons, if_pos (hw c List.mem_cons_self)]
      rfl
    have hplus : ((plus (one p) : Regex α γ).tries (c :: w ++ s)).head? = some ⟨s, []⟩ := by
      have hseq := head?_seq hone (head?_star_one (p := p))
      rw [dropWhile_append (fun d hd => hw d (List.mem_cons_of_mem _ hd)) hs] at hseq
      exact hseq
    exact head?_group (m := ⟨s, []⟩) hplus

/-- The preferred match is one of the whole text if it leaves nothing. -/
theorem fullmatch?_of_head (h : (r.tries s).head? = some m) (hm : m.rest = []) :
    r.fullmatch? s = some m := by
  obtain ⟨ms, hms⟩ := List.head?_eq_some_iff.mp h
  rw [fullmatch?, hms, List.find?_cons_of_pos (by rw [hm]; rfl)]

theorem fullmatch?_opt_nil (ha : a.tries [] = []) : (opt a).fullmatch? [] = some ⟨[], []⟩ := by
  rw [fullmatch?, opt, tries_alt_of_nil ha]
  rfl

theorem tries_lit [BEq α] [LawfulBEq α] : (lit w : Regex α γ).tries (w ++ s) = [⟨s, []⟩] := by
  induction w with
  | nil => rfl
  | cons c w ih =>
    rw [lit_cons, tries_seq, List.cons_append, tries_one_cons, if_pos (beq_self_eq_true c),
      List.flatMap_singleton, ih]
    rfl

/-- Anything up to a character goes up to its last occurrence. -/
theorem head?_any_then [BEq α] [LawfulBEq α] {c : α} {after : List α} (hc : c ∉ after) :
    ((seq (group name (star (one fun _ => true))) (one (· == c))).tries (w ++ c :: after)).head? =
      some ⟨after, [(name, w)]⟩ := by
  have hnone : ∀ u, c ∉ u → ∀ t : Found α γ → List α,
      ((star (one fun _ => true) : Regex α γ).tries u).flatMap (fun m =>
        ((one (· == c) : Regex α γ).tries m.rest).map
          (Found.andThen ⟨m.rest, m.groups ++ [(name, t m)]⟩)) = [] := by
    intro u hu t
    rw [List.flatMap_eq_nil_iff]
    intro m hm
    obtain ⟨-, v, rfl, -⟩ := mem_tries_star_one.mp hm
    rw [List.map_eq_nil_iff]
    cases hrest : m.rest with
    | nil => rfl
    | cons d rest =>
      rw [tries_one_cons, if_neg]
      intro heq
      rw [hrest] at hu
      have hd : d = c := eq_of_beq heq
      exact hu (by simp [hd])
  -- the options: within `after`, then at the character, then further to the front
  have hsplit : ∀ w : List α, ∃ further,
      (star (one fun _ => true) : Regex α γ).tries (w ++ c :: after) =
        (star (one fun _ => true) : Regex α γ).tries after ++ (⟨c :: after, []⟩ :: further) := by
    intro w
    induction w with
    | nil => exact ⟨[], by rw [List.nil_append, tries_star_one_cons]; rfl⟩
    | cons d w ih =>
      obtain ⟨further, hfurther⟩ := ih
      refine ⟨further ++ [⟨d :: (w ++ c :: after), []⟩], ?_⟩
      rw [List.cons_append, tries_star_one_cons, if_pos rfl, hfurther, List.append_assoc]
      rfl
  obtain ⟨further, hfurther⟩ := hsplit w
  rw [tries_seq, tries_group, hfurther, List.map_append, List.flatMap_append, List.flatMap_map,
    hnone after hc fun m => (w ++ c :: after).take ((w ++ c :: after).length - m.rest.length),
    List.nil_append, List.map_cons, List.flatMap_cons, tries, if_pos (beq_self_eq_true c)]
  simp [Found.andThen]

end First

end Regex
