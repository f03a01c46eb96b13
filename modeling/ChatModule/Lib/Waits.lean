import Mathlib.Logic.Relation
import Mathlib.Order.WellFounded

/-!
# Waiting without a cycle

Threads that wait for one another, as a relation: `waits t u` when `t` cannot go on
before `u` does. A rank that goes down along every wait rules out a cycle, and however
many threads there are, whoever waits then waits, through others, for one that can go on.

* `Waits.irrefl` — with a rank, no thread waits for itself through any others;
* `Waits.reaches` — with a rank, a thread with work to do is at the end of a chain of
  waits from one that can go on.
-/

namespace Waits

open Relation

variable {T α : Type*} [Preorder α] {waits : T → T → Prop} {rank : T → α}

/-- Along a chain of waits the rank goes down. -/
theorem rank_lt (hrank : ∀ t u, waits t u → rank u < rank t) {t u : T}
    (h : TransGen waits t u) : rank u < rank t := by
  induction h with
  | single htu => exact hrank _ _ htu
  | tail _ hlast ih => exact lt_trans (hrank _ _ hlast) ih

/-- No thread waits for itself. -/
theorem irrefl (hrank : ∀ t u, waits t u → rank u < rank t) (t : T) : ¬ TransGen waits t t := by
  intro h
  exact lt_irrefl _ (rank_lt hrank h)

/-- Let a thread that has work to do either go on or wait for a thread that has. Then the
waits of each lead to one that can go on. -/
theorem reaches [WellFoundedLT α] (hrank : ∀ t u, waits t u → rank u < rank t)
    {busy goes : T → Prop} (hbusy : ∀ t, busy t → goes t ∨ ∃ u, waits t u ∧ busy u)
    {t : T} (ht : busy t) : ∃ u, ReflTransGen waits t u ∧ goes u := by
  induction h : rank t using WellFoundedLT.induction generalizing t with
  | ind r ih =>
    rcases hbusy t ht with hgoes | ⟨u, hwaits, hu⟩
    · exact ⟨t, .refl, hgoes⟩
    · obtain ⟨v, hchain, hv⟩ := ih (rank u) (h ▸ hrank t u hwaits) hu rfl
      exact ⟨v, .head hwaits hchain, hv⟩

end Waits
