import Mathlib.Data.List.DropRight

/-!
# Fallible steps, pages of a log and lists with an element taken out

Small tools used throughout: taking an `Except` computation that succeeded apart
into its steps, the end of a list (`List.rtake`) as the page of a log that a reader
is shown, and what a list counts once one of its elements is gone.
-/

/-! ## Fallible computations -/

namespace Except

/-- A sequence of two fallible steps succeeds when both do. -/
theorem bind_eq_ok_iff {ε : Type*} {α β : Type u} {x : Except ε α} {f : α → Except ε β} {b : β} :
    (x >>= f) = .ok b ↔ ∃ a, x = .ok a ∧ f a = .ok b := by
  cases x with
  | error e => simp [bind, Except.bind]
  | ok a => simp [bind, Except.bind]

theorem mapError_eq_ok_iff {ε ε' α : Type*} {f : ε → ε'} {x : Except ε α} {a : α} :
    x.mapError f = .ok a ↔ x = .ok a := by
  cases x <;> simp [Except.mapError]

end Except

namespace Option

/-- The value, or the error that says there is none. -/
def okOr {ε α : Type*} (o : Option α) (e : ε) : Except ε α :=
  match o with
  | some a => .ok a
  | none => .error e

theorem okOr_eq_ok_iff {ε α : Type*} {o : Option α} {e : ε} {a : α} :
    o.okOr e = .ok a ↔ o = some a := by
  cases o <;> simp [okOr]

end Option

/-! ## Pages -/

namespace List

variable {α β : Type*}

theorem length_rtake (l : List α) (n : ℕ) : (l.rtake n).length = min n l.length := by
  simp [rtake]
  omega

/-- A page no shorter than the log is the log. -/
theorem rtake_of_length_le {l : List α} {n : ℕ} (h : l.length ≤ n) : l.rtake n = l := by
  simp [rtake, Nat.sub_eq_zero_of_le h]

/-- Asking for no more than there may be changes nothing. -/
theorem rtake_min {l : List α} {n : ℕ} (h : l.length ≤ n) (k : ℕ) :
    l.rtake (min k n) = l.rtake k := by
  unfold rtake
  congr 1
  omega

/-- A page of a log is found in any of its ends that is long enough to hold it. -/
theorem rtake_drop {l : List α} {k n : ℕ} (hk : k ≤ l.length) (h : n ≤ l.length - k) :
    (l.drop k).rtake n = l.rtake n := by
  unfold rtake
  rw [drop_drop, length_drop]
  congr 1
  omega

/-- The page of a log and of one of its ends agree, when that end is long enough
or is the whole log. -/
theorem rtake_drop_of_window {l : List α} {k n : ℕ} (hk : k ≤ l.length)
    (h : n ≤ l.length - k ∨ k = 0) : (l.drop k).rtake n = l.rtake n := by
  rcases h with h | rfl
  · exact rtake_drop hk h
  · simp

/-- What a page shows at a position counted from the start of the log. -/
theorem getElem?_rtake {l : List α} {n p : ℕ} (hn : l.length ≤ p + n) :
    (l.rtake n)[p - (l.length - n)]? = l[p]? := by
  unfold rtake
  rw [getElem?_drop]
  congr 1
  omega

/-! ## Taking one element out -/

/-- Counting before and after an element is taken out. -/
theorem countP_eraseIdx (p : α → Bool) : ∀ {l : List α} {i : ℕ} {a : α}, l[i]? = some a →
    l.countP p = (l.eraseIdx i).countP p + if p a then 1 else 0
  | [], i, a, h => by simp at h
  | b :: l, 0, a, h => by
      obtain rfl : b = a := by simpa using h
      simp [countP_cons]
  | b :: l, i + 1, a, h => by
      have ih := countP_eraseIdx p (l := l) (i := i) (a := a) (by simpa using h)
      simp only [eraseIdx_cons_succ, countP_cons, ih]
      omega

end List
