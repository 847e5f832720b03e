import UrlShortener.Library.Search
import Mathlib.Algebra.BigOperators.Intervals
import Mathlib.Algebra.BigOperators.Ring.Finset
import Mathlib.Algebra.GroupWithZero.Nat
import Mathlib.Data.Fintype.BigOperators
import Mathlib.Tactic.Ring

/-!
# Sampling by rejection

A search by first fit whose candidates are drawn at random is sampling by rejection, cut off at a
budget.  With finitely many candidates a row of draws is a function on the queries, all rows are
equally likely, and how likely an outcome is comes down to how many rows lead to it.

What is taken may be different at every query, as long as it does not depend on the draws.

## What is proved

* `firstFit_scheduled` connects the sampling with the search of `Library.Search`.
* `card_rows_none`: the rows that spend the budget are counted by the product of what is taken at
  the queries.
* `card_rows_some`: the rows that lead to an element are counted by a sum over the queries that may
  find it.  The element occurs in it only through the queries at which it is taken, so elements
  that stay free are found by equally many rows.
-/

set_option autoImplicit false

namespace UrlShortener
namespace Search

open Finset

variable {α β : Type*} (taken : ℕ → α → Bool)

/-- A test whose answers depend on the number of the query, and on nothing else. -/
def scheduled (x : α) (n : ℕ) : Bool × ℕ := (taken n x, n + 1)

/-- The first of a row of candidates that is free when its turn comes. -/
def firstFree : (k : ℕ) → (Fin k → α) → ℕ → Option α
  | 0, _, _ => none
  | k + 1, row, n => if taken n (row 0) then firstFree k (Fin.tail row) (n + 1) else some (row 0)

theorem firstFit_scheduled (k : ℕ) (candidate : ℕ → α) (n : ℕ) :
    (firstFit (scheduled taken) k candidate n).1 = firstFree taken k (fun i => candidate i) n := by
  induction k generalizing candidate n with
  | zero => rfl
  | succ k ih =>
    rw [firstFit, firstFree]
    change (if taken n (candidate 0) = true then
      firstFit (scheduled taken) k (fun i => candidate (i + 1)) (n + 1) else _).1 = _
    by_cases htaken : taken n (candidate 0) = true
    · rw [if_pos htaken, ih]
      exact (if_pos htaken).symm
    · rw [if_neg htaken]
      exact (if_neg htaken).symm

/-- A search among the names of things is a search among the things. -/
theorem firstFree_map (taken : ℕ → β → Bool) (f : α → β) (k : ℕ) (row : Fin k → α) (n : ℕ) :
    firstFree taken k (fun i => f (row i)) n =
      (firstFree (fun n x => taken n (f x)) k row n).map f := by
  induction k generalizing n with
  | zero => rfl
  | succ k ih =>
    rw [firstFree, firstFree]
    by_cases htaken : taken n (f (row 0)) = true
    · rw [if_pos htaken, if_pos htaken]
      exact ih (Fin.tail row) (n + 1)
    · rw [if_neg htaken, if_neg htaken, Option.map_some]

/-! ## Counting rows -/

/-- The rows with a property, by their first candidate. -/
theorem card_rows_succ [Fintype α] {k : ℕ} (p : (Fin (k + 1) → α) → Prop) [DecidablePred p] :
    #{row | p row} = ∑ x, #{row : Fin k → α | p (Fin.cons x row)} := by
  calc #{row | p row}
      = ∑ row, if p row then 1 else 0 := card_filter _ _
    _ = ∑ x : α × (Fin k → α), if p (Fin.cons x.1 x.2) then 1 else 0 :=
        (Fintype.sum_equiv (Fin.consEquiv fun _ => α) _ _ fun _ => rfl).symm
    _ = ∑ x, ∑ row : Fin k → α, if p (Fin.cons x row) then 1 else 0 := Fintype.sum_prod_type _
    _ = ∑ x, #{row : Fin k → α | p (Fin.cons x row)} := by simp only [card_filter]

variable [Fintype α] [DecidableEq α]

/-- How many rows of `k` candidates lead to an outcome, from query `n` on. -/
def rows (k n : ℕ) (outcome : Option α) : ℕ :=
  #{row : Fin k → α | firstFree taken k row n = outcome}

/-- How many elements are taken at query `n`. -/
def takenAt (n : ℕ) : ℕ := #{x | taken n x = true}

/-- A row goes on after a first candidate that is taken, and is free to be anything after one that
is not. -/
theorem card_rows_cons (k n : ℕ) (x : α) (outcome : Option α) :
    #{row : Fin k → α | firstFree taken (k + 1) (Fin.cons x row) n = outcome} =
      if taken n x then rows taken k (n + 1) outcome
      else if some x = outcome then Fintype.card α ^ k else 0 := by
  simp only [firstFree, Fin.cons_zero, Fin.tail_cons]
  by_cases htaken : taken n x = true
  · simp only [if_pos htaken]
    rfl
  · simp only [if_neg htaken]
    by_cases hfound : some x = outcome
    · simp [hfound]
    · simp [hfound]

theorem rows_succ_none (k n : ℕ) :
    rows taken (k + 1) n none = takenAt taken n * rows taken k (n + 1) none := by
  rw [rows, card_rows_succ, takenAt, card_filter, sum_mul]
  refine sum_congr rfl fun x _ => ?_
  rw [card_rows_cons]
  by_cases htaken : taken n x = true <;> simp [htaken]

theorem rows_succ_some (k n : ℕ) (x : α) :
    rows taken (k + 1) n (some x) = takenAt taken n * rows taken k (n + 1) (some x) +
      if taken n x then 0 else Fintype.card α ^ k := by
  have hfound : (if taken n x then 0 else Fintype.card α ^ k) =
      ∑ y, if y = x then (if taken n y then 0 else Fintype.card α ^ k) else 0 := by
    rw [sum_ite_eq' univ x, if_pos (mem_univ x)]
  rw [rows, card_rows_succ, takenAt, card_filter, sum_mul, hfound, ← sum_add_distrib]
  refine sum_congr rfl fun y _ => ?_
  rw [card_rows_cons]
  by_cases hxy : y = x
  · subst hxy
    by_cases htaken : taken n y = true <;> simp [htaken]
  · by_cases htaken : taken n y = true <;> simp [htaken, hxy]

/-- **The rows that spend the budget.** -/
theorem card_rows_none (k n : ℕ) :
    rows taken k n none = ∏ j ∈ range k, takenAt taken (n + j) := by
  induction k generalizing n with
  | zero => simp [rows, firstFree]
  | succ k ih =>
    rw [rows_succ_none, ih, prod_range_succ', mul_comm, Nat.add_zero]
    refine congrArg (· * _) (prod_congr rfl fun j _ => ?_)
    rw [Nat.add_right_comm, Nat.add_assoc n j 1]

/-- **The rows that lead to an element.**  Row after row, all candidates before query `j` are taken
at their turns, the candidate at query `j` is the element, and the rest is free.  The induction is
on the budget. -/
theorem card_rows_some (k n : ℕ) (x : α) :
    rows taken k n (some x) = ∑ j ∈ range k, (∏ i ∈ range j, takenAt taken (n + i)) *
      if taken (n + j) x then 0 else Fintype.card α ^ (k - 1 - j) := by
  induction k generalizing n with
  | zero => simp [rows, firstFree]
  | succ k ih =>
    have hshift : ∀ i, n + 1 + i = n + (i + 1) := fun i => by omega
    have hexponent : ∀ j, k + 1 - 1 - (j + 1) = k - 1 - j := fun j => by omega
    rw [rows_succ_some, ih, sum_range_succ', mul_sum]
    congr 1
    · refine sum_congr rfl fun j _ => ?_
      rw [prod_range_succ', ← mul_assoc, mul_comm (takenAt taken n)]
      simp only [hshift, hexponent, Nat.add_zero]
    · simp

end Search
end UrlShortener
