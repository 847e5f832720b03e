import Mathlib.Algebra.BigOperators.Intervals
import Mathlib.Algebra.Order.Group.MinMax
import Mathlib.Tactic.Abel

/-!
# Counters clamped at a capacity

A counter starts full, at `c`.  Between two withdrawals it is refilled and then cut back to
`c`; each withdrawal takes something out.  Keeping one clamped number is what an implementation
does.  A specification speaks about the whole history instead: *no window of the past may have
given out more than `c` plus what flowed in during the window*.  This file proves that the two
say the same, over any linearly ordered commutative group.

The refills are given by their running total `g`, so what flows in between withdrawals `j` and
`k` is `g k - g j`; `a k` is what withdrawal `k` takes.  `level c g a k` is the counter right
before withdrawal `k`.

## What is proved

`le_level_iff` is the crux: a bound `l` lies below the level exactly when it lies below
`c + (g k - g j) - ∑ a` for every earlier `j`.  The level is therefore the min-plus expression
over all windows ending at `k`, stated without naming a minimum.  Nothing about signs is needed:
`g` may decrease and `a` may be negative.
-/

set_option autoImplicit false

namespace UrlShortener
namespace ClampedCounter

variable {K : Type*} [AddCommGroup K] [LinearOrder K]

/-- The counter right before withdrawal `k`. -/
def level (c : K) (g a : ℕ → K) : ℕ → K
  | 0 => c
  | k + 1 => min c (level c g a k - a k + (g (k + 1) - g k))

@[simp] theorem level_zero (c : K) (g a : ℕ → K) : level c g a 0 = c := rfl

theorem level_succ (c : K) (g a : ℕ → K) (k : ℕ) :
    level c g a (k + 1) = min c (level c g a k - a k + (g (k + 1) - g k)) := rfl

/-- **The level is the minimum over all windows.**  A bound lies below the level before
withdrawal `k` exactly when, for every `j ≤ k`, it lies below the capacity plus the inflow since
`j` minus the withdrawals since `j`.  The induction is on `k`; the clamp contributes the window
that starts at `k` itself. -/
theorem le_level_iff [IsOrderedAddMonoid K] (c : K) (g a : ℕ → K) (k : ℕ) (l : K) :
    l ≤ level c g a k ↔
      ∀ j ≤ k, l + ∑ i ∈ Finset.Ico j k, a i ≤ c + (g k - g j) := by
  induction k generalizing l with
  | zero => simp
  | succ k ih =>
    have hshift : l ≤ level c g a k - a k + (g (k + 1) - g k) ↔
        l + a k - (g (k + 1) - g k) ≤ level c g a k := by
      rw [sub_add_eq_add_sub, le_sub_iff_add_le, sub_le_iff_le_add]
    have hwindow : ∀ j ≤ k,
        (l + a k - (g (k + 1) - g k) + ∑ i ∈ Finset.Ico j k, a i ≤ c + (g k - g j) ↔
          l + ∑ i ∈ Finset.Ico j (k + 1), a i ≤ c + (g (k + 1) - g j)) := by
      intro j hj
      rw [Finset.sum_Ico_succ_top hj, sub_add_eq_add_sub, sub_le_iff_le_add]
      rw [show l + a k + ∑ i ∈ Finset.Ico j k, a i = l + (∑ i ∈ Finset.Ico j k, a i + a k) by abel,
        show c + (g k - g j) + (g (k + 1) - g k) = c + (g (k + 1) - g j) by abel]
    rw [level_succ, le_min_iff, hshift, ih]
    constructor
    · rintro ⟨hc, hpast⟩ j hj
      rcases Nat.lt_or_ge k j with hkj | hjk
      · -- the window that starts now is the clamp
        obtain rfl : j = k + 1 := by omega
        simpa using hc
      · exact (hwindow j hjk).mp (hpast j hjk)
    · intro h
      refine ⟨by simpa using h (k + 1) le_rfl, fun j hj => (hwindow j hj).mpr (h j (by omega))⟩

/-- The case a limiter asks about: there is room for one more unit exactly when no window that
ends here is exhausted. -/
theorem one_le_level_iff [IsOrderedAddMonoid K] [One K] (c : K) (g a : ℕ → K) (k : ℕ) :
    1 ≤ level c g a k ↔
      ∀ j ≤ k, ∑ i ∈ Finset.Ico j k, a i + 1 ≤ c + (g k - g j) := by
  rw [le_level_iff]
  simp only [add_comm (1 : K)]

end ClampedCounter
end UrlShortener
