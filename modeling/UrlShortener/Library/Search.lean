import Mathlib.Data.List.Basic
import Mathlib.Data.Nat.Notation
import Mathlib.Order.Basic

/-!
# First fit with a stateful test

A search goes through a stream of candidates and asks a test about each, until the test says no or
the budget is spent.  The test has a state of its own: its answer may depend on everything that was
asked before, and on what has happened elsewhere in between.

`answer i` is what the test says about candidate `i` when the candidates before it have been asked
about, in order and once each.  `recorded` is the same test with a log of its queries.

## What is proved

`firstFit_of_free` and `firstFit_of_taken`: the search stops at the first candidate that is not
taken, or has asked about all candidates the budget allows.  `exists_free_or_all_taken` says that
there is no third case, and `after_recorded` what the log is at any point.
-/

set_option autoImplicit false

namespace UrlShortener
namespace Search

variable {α σ : Type*}

/-- The search.  A spent budget is `none`. -/
def firstFit (taken : α → σ → Bool × σ) : ℕ → (ℕ → α) → σ → Option α × σ
  | 0, _, s => (none, s)
  | budget + 1, candidate, s =>
      if (taken (candidate 0) s).1 then
        firstFit taken budget (fun i => candidate (i + 1)) (taken (candidate 0) s).2
      else (some (candidate 0), (taken (candidate 0) s).2)

variable (taken : α → σ → Bool × σ) (candidate : ℕ → α) (s : σ)

/-- The state of the test after its first `n` queries. -/
def after : ℕ → σ
  | 0 => s
  | n + 1 => (taken (candidate n) (after n)).2

/-- What the test says about candidate `i`. -/
def answer (i : ℕ) : Bool := (taken (candidate i) (after taken candidate s i)).1

theorem after_succ' (n : ℕ) :
    after taken candidate s (n + 1) =
      after taken (fun i => candidate (i + 1)) (taken (candidate 0) s).2 n := by
  induction n with
  | zero => rfl
  | succ n ih => rw [after, ih, after]

theorem answer_succ' (i : ℕ) :
    answer taken candidate s (i + 1) =
      answer taken (fun i => candidate (i + 1)) (taken (candidate 0) s).2 i := by
  rw [answer, after_succ', answer]

variable {taken candidate s}

/-- **The search stops at the first candidate that is not taken.**  The induction is on the
candidates before it. -/
theorem firstFit_of_free {budget i : ℕ} (hi : i < budget)
    (htaken : ∀ j < i, answer taken candidate s j = true)
    (hfree : answer taken candidate s i = false) :
    firstFit taken budget candidate s = (some (candidate i), after taken candidate s (i + 1)) := by
  induction i generalizing budget candidate s with
  | zero =>
    obtain ⟨budget, rfl⟩ := Nat.exists_eq_succ_of_ne_zero (by omega : budget ≠ 0)
    have hfirst : (taken (candidate 0) s).1 = false := hfree
    rw [firstFit, if_neg (by simp [hfirst])]
    rfl
  | succ i ih =>
    obtain ⟨budget, rfl⟩ := Nat.exists_eq_succ_of_ne_zero (by omega : budget ≠ 0)
    have hfirst : (taken (candidate 0) s).1 = true := htaken 0 (by omega)
    rw [firstFit, if_pos hfirst, ih (by omega), ← after_succ']
    · intro j hj
      rw [← answer_succ']
      exact htaken (j + 1) (by omega)
    · rw [← answer_succ']
      exact hfree

/-- **A search without a free candidate asks about everything the budget allows.** -/
theorem firstFit_of_taken {budget : ℕ} (htaken : ∀ j < budget, answer taken candidate s j = true) :
    firstFit taken budget candidate s = (none, after taken candidate s budget) := by
  induction budget generalizing candidate s with
  | zero => rfl
  | succ budget ih =>
    have hfirst : (taken (candidate 0) s).1 = true := htaken 0 (by omega)
    rw [firstFit, if_pos hfirst, ih, ← after_succ']
    intro j hj
    rw [← answer_succ']
    exact htaken (j + 1) (by omega)

variable (taken candidate s)

theorem exists_free_or_all_taken (budget : ℕ) :
    (∃ i < budget, (∀ j < i, answer taken candidate s j = true) ∧
      answer taken candidate s i = false) ∨
    ∀ j < budget, answer taken candidate s j = true := by
  induction budget with
  | zero => exact Or.inr fun j hj => by omega
  | succ budget ih =>
    rcases ih with ⟨i, hi, hfirst⟩ | hall
    · exact Or.inl ⟨i, by omega, hfirst⟩
    · cases hlast : answer taken candidate s budget with
      | false => exact Or.inl ⟨budget, by omega, hall, hlast⟩
      | true =>
        refine Or.inr fun j hj => ?_
        rcases Nat.lt_succ_iff_lt_or_eq.mp hj with hlt | rfl
        · exact hall j hlt
        · exact hlast

/-! ## The queries -/

/-- The same test, with a log of its queries. -/
def recorded (x : α) (p : σ × List α) : Bool × (σ × List α) :=
  ((taken x p.1).1, (taken x p.1).2, p.2 ++ [x])

/-- **The queries are the candidates, in order.** -/
theorem after_recorded (log : List α) (n : ℕ) :
    after (recorded taken) candidate (s, log) n =
      (after taken candidate s n, log ++ (List.range n).map candidate) := by
  induction n with
  | zero => simp [after]
  | succ n ih =>
    rw [after, ih, recorded, List.range_succ, List.map_append, List.append_assoc]
    rfl

/-- Recording the queries changes no answer. -/
theorem answer_recorded (log : List α) (i : ℕ) :
    answer (recorded taken) candidate (s, log) i = answer taken candidate s i := by
  rw [answer, after_recorded]
  rfl

variable {taken candidate s}

theorem firstFit_recorded_of_free (log : List α) {budget i : ℕ} (hi : i < budget)
    (htaken : ∀ j < i, answer taken candidate s j = true)
    (hfree : answer taken candidate s i = false) :
    firstFit (recorded taken) budget candidate (s, log) =
      (some (candidate i), after taken candidate s (i + 1),
        log ++ (List.range (i + 1)).map candidate) := by
  rw [firstFit_of_free hi
    (fun j hj => (answer_recorded taken candidate s log j).trans (htaken j hj))
    ((answer_recorded taken candidate s log i).trans hfree), after_recorded]

theorem firstFit_recorded_of_taken (log : List α) {budget : ℕ}
    (htaken : ∀ j < budget, answer taken candidate s j = true) :
    firstFit (recorded taken) budget candidate (s, log) =
      (none, after taken candidate s budget, log ++ (List.range budget).map candidate) := by
  rw [firstFit_of_taken fun j hj => (answer_recorded taken candidate s log j).trans (htaken j hj),
    after_recorded]

end Search
end UrlShortener
