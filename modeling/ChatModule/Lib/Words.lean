import Mathlib.Data.List.Basic

/-!
# Words

The words of a list are its longest parts without a blank in them. Lists that meet at a blank
keep their words apart when they are joined (`words_append`), which is what moving, adding and
leaving out blanks needs.
-/

namespace Words

variable {α : Type*} (blank : α → Bool)

/-- The parts between blanks. -/
def words (l : List α) : List (List α) := (l.splitOnP blank).filter fun w => !w.isEmpty

variable {blank} {c : α} {l m : List α}

theorem words_nil : words blank [] = [] := by simp [words, List.splitOnP_nil]

theorem words_append_cons (h : blank c) (l m : List α) :
    words blank (l ++ c :: m) = words blank l ++ words blank m := by
  unfold words
  rw [List.splitOnP_append_cons l m h, List.filter_append]

theorem words_cons (h : blank c) (l : List α) : words blank (c :: l) = words blank l := by
  have happend := words_append_cons h [] l
  rwa [words_nil, List.nil_append, List.nil_append] at happend

theorem words_concat (h : blank c) (l : List α) : words blank (l ++ [c]) = words blank l := by
  rw [words_append_cons h, words_nil, List.append_nil]

/-- Two lists meet at a blank when one of them has one there, or is empty. -/
def Meet (blank : α → Bool) (l m : List α) : Prop :=
  (∀ c ∈ l.getLast?, blank c) ∨ ∀ c ∈ m.head?, blank c

theorem words_append (h : Meet blank l m) :
    words blank (l ++ m) = words blank l ++ words blank m := by
  rcases h with hlast | hhead
  · rcases List.eq_nil_or_concat l with rfl | ⟨l, c, rfl⟩
    · simp [words_nil]
    · have hc : blank c := hlast c (by simp)
      rw [List.concat_eq_append, List.append_assoc, List.singleton_append, words_append_cons hc,
        words_concat hc]
  · cases m with
    | nil => simp [words_nil]
    | cons c m =>
      have hc : blank c := hhead c rfl
      rw [words_append_cons hc, words_cons hc]

/-- Blanks have no word. -/
theorem words_blanks (h : ∀ c ∈ l, blank c) : words blank l = [] := by
  induction l with
  | nil => exact words_nil
  | cons c l ih =>
    rw [words_cons (h c List.mem_cons_self)]
    exact ih fun d hd => h d (List.mem_cons_of_mem _ hd)

theorem words_blanks_append (h : ∀ c ∈ l, blank c) (m : List α) :
    words blank (l ++ m) = words blank m := by
  rw [words_append, words_blanks h, List.nil_append]
  exact Or.inl fun c hc => h c (List.mem_of_mem_getLast? hc)

theorem words_append_blanks (h : ∀ c ∈ m, blank c) (l : List α) :
    words blank (l ++ m) = words blank l := by
  rw [words_append, words_blanks h, List.append_nil]
  exact Or.inr fun c hc => h c (List.mem_of_mem_head? hc)

theorem words_between {sep : List α} (hne : sep ≠ []) (h : ∀ c ∈ sep, blank c) (l m : List α) :
    words blank (l ++ (sep ++ m)) = words blank l ++ words blank m := by
  obtain ⟨c, sep, rfl⟩ := List.exists_cons_of_ne_nil hne
  rw [List.cons_append, words_append_cons (h c List.mem_cons_self), words_blanks_append]
  exact fun d hd => h d (List.mem_cons_of_mem _ hd)

/-- Parts that blanks stand between. -/
theorem words_intercalate {sep : List α} (hne : sep ≠ []) (h : ∀ c ∈ sep, blank c)
    (parts : List (List α)) :
    words blank (List.intercalate sep parts) = parts.flatMap (words blank) := by
  induction parts with
  | nil => exact words_nil
  | cons part parts ih =>
    cases parts with
    | nil => simp [List.intercalate]
    | cons part' parts =>
      rw [List.intercalate_cons_cons, List.append_assoc, words_between hne h, ih]
      rfl

/-- The same list, but with some blanks in the place of each blank. -/
inductive Respaced (blank : α → Bool) : List α → List α → Prop
  | nil : Respaced blank [] []
  | keep {l m : List α} (c : α) : Respaced blank l m → Respaced blank (c :: l) (c :: m)
  | blanks {l m bs : List α} {c : α} : blank c → bs ≠ [] → (∀ b ∈ bs, blank b) →
      Respaced blank l m → Respaced blank (c :: l) (bs ++ m)

theorem Respaced.words (h : Respaced blank l m) : words blank l = words blank m := by
  -- with anything in front, so that a word may have begun
  have hfront : ∀ w, Words.words blank (w ++ l) = Words.words blank (w ++ m) := by
    induction h with
    | nil => exact fun _ => rfl
    | keep c _ ih =>
      intro w
      have hnext := ih (w ++ [c])
      rwa [List.append_assoc, List.append_assoc] at hnext
    | blanks hc hne hbs _ ih =>
      intro w
      rw [words_append_cons hc, words_between hne hbs]
      exact congrArg (Words.words blank w ++ ·) (ih [])
  exact hfront []

end Words
