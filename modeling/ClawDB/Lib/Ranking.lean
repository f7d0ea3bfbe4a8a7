/-
# `ClawDB.Lib.Ranking` — the first entries of a ranking that pass a filter

A ranking is a list, best first, and `best p k` is what somebody asks of it who wants `k`
entries that pass `p`.  A searcher that sees only a window of the ranking, its first `n`
entries, filters what it sees.  That loses nothing if the window is wide enough, and
`map_best_window_iff` says when it is.
-/
import Mathlib.Data.List.Basic

namespace Ranking

variable {α : Type} (p : α → Bool) {k n : Nat} {l : List α}

/-- The first `k` entries that pass. -/
def best (k : Nat) (l : List α) : List α := (l.filter p).take k

/-- The first `n` entries have `k` that pass, or all that pass. -/
def Enough (n k : Nat) (l : List α) : Prop :=
  k ≤ ((l.take n).filter p).length ∨ ∀ a ∈ l.drop n, p a = false

instance : Decidable (Enough p n k l) := inferInstanceAs (Decidable (_ ∨ _))

theorem length_best : (best p k l).length = min k (l.filter p).length := List.length_take ..

theorem filter_window (n : Nat) (l : List α) :
    l.filter p = (l.take n).filter p ++ (l.drop n).filter p := by
  rw [← List.filter_append, List.take_append_drop]

/-- What passes in the window comes first. -/
theorem best_window_first : best p k (l.take n) <+: best p k l := by
  unfold best
  rw [filter_window p n l, List.take_append]
  exact List.prefix_append ..

variable {p}

theorem best_window_of_enough (h : Enough p n k l) : best p k (l.take n) = best p k l := by
  rcases h with hk | hnone
  · refine (best_window_first p).eq_of_length ?_
    have hall : ((l.take n).filter p).length ≤ (l.filter p).length := by
      rw [filter_window p n l, List.length_append]
      exact Nat.le_add_right ..
    rw [length_best, length_best]
    omega
  · have hrest : (l.drop n).filter p = [] := by
      refine List.filter_eq_nil_iff.mpr fun a ha => ?_
      rw [hnone a ha]
      exact Bool.false_ne_true
    unfold best
    rw [filter_window p n l, hrest, List.append_nil]

theorem enough_of_length_best (h : (best p k (l.take n)).length = (best p k l).length) :
    Enough p n k l := by
  rw [length_best, length_best, filter_window p n l, List.length_append] at h
  rcases Nat.lt_or_ge ((l.take n).filter p).length k with hlt | hge
  · -- the window is not filled: nothing that passes is left behind it
    have hrest : (l.drop n).filter p = [] := by
      refine List.eq_nil_of_length_eq_zero ?_
      omega
    refine .inr fun a ha => ?_
    exact Bool.eq_false_iff.mpr (List.filter_eq_nil_iff.mp hrest a ha)
  · exact .inl hge

/-- Searching a window is as good as searching the ranking, exactly if it is wide enough; and
that can be told from any image of what was found. -/
theorem map_best_window_iff {β : Type} (f : α → β) :
    (best p k (l.take n)).map f = (best p k l).map f ↔ Enough p n k l := by
  constructor
  · intro h
    refine enough_of_length_best ?_
    have hlength := congrArg List.length h
    rwa [List.length_map, List.length_map] at hlength
  · intro h
    rw [best_window_of_enough h]

theorem enough_of_length_le (h : l.length ≤ n) : Enough p n k l := by
  refine .inr fun a ha => ?_
  rw [List.drop_eq_nil_of_le h] at ha
  cases ha

/-- With room for `k` and for everything in it that fails, the window is wide enough. -/
theorem enough_of_failing (h : k + ((l.take n).filter fun a => !p a).length ≤ n) :
    Enough p n k l := by
  rcases Nat.lt_or_ge n l.length with hlt | hge
  · have hsplit : (l.take n).length =
        ((l.take n).filter p).length + ((l.take n).filter fun a => !p a).length :=
      List.length_eq_length_filter_add p
    rw [List.length_take] at hsplit
    refine .inl ?_
    omega
  · exact enough_of_length_le hge

end Ranking
