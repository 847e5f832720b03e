import Mathlib.Data.List.Basic
import Mathlib.Data.List.Forall2
import Mathlib.Data.List.Induction
import Mathlib.Data.Nat.Notation

/-!
# Runs of an event system

A system is a total step function: a state and an event give the next state.  An event that is
not enabled leaves the state as it is, so every list of events is a run and nothing has to be
assumed about schedules.  `stateAt n` is the state after the first `n` events.

## What is proved

* `exec_invariant` packages the induction over runs once: what holds initially and is preserved by
  every step holds after every run.
* `stateAt_mono` does the same for relations between an earlier and a later state.
* `Once P` says that some state strictly before the last one satisfies `P`.  `Once.concat` and
  `once_concat` are how such facts are carried along a run, which is what a proof that names an
  instant needs.
* `exec_measure` is the rule for accounts: what a run adds to a measure is the sum of what its steps
  add.
* `stateAt_related` is the two-run rule: related events keep related states related.
-/

set_option autoImplicit false

namespace UrlShortener
namespace Run

variable {σ ε : Type*} (step : σ → ε → σ)

/-- The state after a list of events. -/
def exec (s : σ) (es : List ε) : σ := es.foldl step s

@[simp] theorem exec_nil (s : σ) : exec step s [] = s := rfl

@[simp] theorem exec_concat (s : σ) (es : List ε) (e : ε) :
    exec step s (es ++ [e]) = step (exec step s es) e := by
  simp [exec]

/-- **The invariant rule.** -/
theorem exec_invariant {P : σ → Prop} {s : σ} (hinit : P s) (hstep : ∀ s e, P s → P (step s e))
    (es : List ε) : P (exec step s es) := by
  induction es using List.reverseRecOn with
  | nil => exact hinit
  | append_singleton es e ih =>
    rw [exec_concat]
    exact hstep _ e ih

/-! ## The states along a run -/

/-- The state after the first `n` events. -/
def stateAt (s : σ) (es : List ε) (n : ℕ) : σ := exec step s (es.take n)

@[simp] theorem stateAt_zero (s : σ) (es : List ε) : stateAt step s es 0 = s := rfl

@[simp] theorem stateAt_length (s : σ) (es : List ε) :
    stateAt step s es es.length = exec step s es := by
  rw [stateAt, List.take_length]

theorem stateAt_concat_of_le (s : σ) (es : List ε) (e : ε) {n : ℕ} (h : n ≤ es.length) :
    stateAt step s (es ++ [e]) n = stateAt step s es n := by
  rw [stateAt, stateAt, List.take_append_of_le_length h]

/-- One event later. -/
theorem stateAt_succ (s : σ) (es : List ε) (n : ℕ) :
    stateAt step s es (n + 1) =
      match es[n]? with
      | some e => step (stateAt step s es n) e
      | none => stateAt step s es n := by
  unfold stateAt
  rw [List.take_add_one]
  cases es[n]? with
  | none => simp
  | some e => rw [Option.toList_some, exec_concat]

theorem stateAt_succ_of_getElem? {s : σ} {es : List ε} {n : ℕ} {e : ε} (h : es[n]? = some e) :
    stateAt step s es (n + 1) = step (stateAt step s es n) e := by
  rw [stateAt_succ, h]

/-- An invariant holds at every instant. -/
theorem stateAt_invariant {P : σ → Prop} {s : σ} (hinit : P s)
    (hstep : ∀ s e, P s → P (step s e)) (es : List ε) (n : ℕ) : P (stateAt step s es n) :=
  exec_invariant step hinit hstep _

/-- **A preorder that every step respects orders the instants of a run.**  The step may use an
invariant. -/
theorem stateAt_mono {P : σ → Prop} {r : σ → σ → Prop} (hrefl : ∀ s, r s s)
    (htrans : ∀ a b c, r a b → r b c → r a c) {s : σ} (hinit : P s)
    (hinv : ∀ s e, P s → P (step s e)) (hstep : ∀ s e, P s → r s (step s e)) (es : List ε)
    {m n : ℕ} (hmn : m ≤ n) : r (stateAt step s es m) (stateAt step s es n) := by
  induction n with
  | zero =>
    obtain rfl : m = 0 := by omega
    exact hrefl _
  | succ n ih =>
    rcases Nat.lt_or_ge n m with h | h
    · obtain rfl : m = n + 1 := by omega
      exact hrefl _
    · refine htrans _ _ _ (ih h) ?_
      rw [stateAt_succ]
      cases es[n]? with
      | none => exact hrefl _
      | some e => exact hstep _ e (stateAt_invariant step hinit hinv es n)

/-! ## Facts about some instant -/

/-- Some instant strictly before the end of the run satisfies `P`. -/
def Once (s : σ) (es : List ε) (P : σ → Prop) : Prop :=
  ∃ m < es.length, P (stateAt step s es m)

variable {step}

/-- An instant of a run is an instant of every longer run. -/
theorem Once.concat {s : σ} {es : List ε} {P : σ → Prop} (h : Once step s es P) (e : ε) :
    Once step s (es ++ [e]) P := by
  obtain ⟨m, hm, hP⟩ := h
  refine ⟨m, by rw [List.length_append]; omega, ?_⟩
  rw [stateAt_concat_of_le step s es e (by omega)]
  exact hP

/-- The state an event finds is an instant of the run that the event extends. -/
theorem once_concat {s : σ} {es : List ε} {P : σ → Prop} (h : P (exec step s es)) (e : ε) :
    Once step s (es ++ [e]) P := by
  refine ⟨es.length, by simp, ?_⟩
  rw [stateAt_concat_of_le step s es e (Nat.le_refl _), stateAt_length]
  exact h

/-! ## Sums over a run -/

section Total

variable (step)

/-- The sum of a quantity over the events of a run, each in the state it finds. -/
def total (f : σ → ε → ℕ) : σ → List ε → ℕ
  | _, [] => 0
  | s, e :: es => f s e + total f (step s e) es

theorem total_concat (f : σ → ε → ℕ) (s : σ) (es : List ε) (e : ε) :
    total step f s (es ++ [e]) = total step f s es + f (exec step s es) e := by
  induction es generalizing s with
  | nil => simp [total]
  | cons e' es ih =>
    rw [List.cons_append, total, total, ih, Nat.add_assoc]
    rfl

/-- **The accounting rule.**  A measure that every step raises by some quantity is raised by a run
by the sum of that quantity.  The step may use an invariant. -/
theorem exec_measure {P : σ → Prop} {μ : σ → ℕ} {f : σ → ε → ℕ} {s : σ} (hinit : P s)
    (hinv : ∀ s e, P s → P (step s e)) (hstep : ∀ s e, P s → μ (step s e) = μ s + f s e)
    (es : List ε) : μ (exec step s es) = μ s + total step f s es := by
  induction es using List.reverseRecOn with
  | nil => rfl
  | append_singleton es e ih =>
    rw [exec_concat, hstep _ e (exec_invariant step hinit hinv es), ih, total_concat, Nat.add_assoc]

/-- The sum of two quantities. -/
theorem total_add (f g : σ → ε → ℕ) (s : σ) (es : List ε) :
    total step (fun s e => f s e + g s e) s es = total step f s es + total step g s es := by
  induction es generalizing s with
  | nil => rfl
  | cons e es ih =>
    rw [total, total, total, ih]
    omega

/-- Sums compare as their quantities do. -/
theorem total_le_total {f g : σ → ε → ℕ} (h : ∀ s e, f s e ≤ g s e) (s : σ) (es : List ε) :
    total step f s es ≤ total step g s es := by
  induction es generalizing s with
  | nil => exact Nat.le_refl _
  | cons e es ih => exact Nat.add_le_add (h s e) (ih _)

end Total

/-! ## Two runs -/

/-- **The two-run rule.**  If related events take related states to related states, the states of
two runs with related events are related at every instant.  `H` is what is known about each
instant of the two runs from outside. -/
theorem stateAt_related {r : σ → σ → Prop} {q : ε → ε → Prop} {s s' : σ} {es es' : List ε}
    {H : ℕ → Prop} (hes : List.Forall₂ q es es') (hinit : r s s') (hH : ∀ n, H n)
    (hstep : ∀ n e e', es[n]? = some e → es'[n]? = some e' → q e e' → H (n + 1) →
      r (stateAt step s es n) (stateAt step s' es' n) →
      r (step (stateAt step s es n) e) (step (stateAt step s' es' n) e')) (n : ℕ) :
    r (stateAt step s es n) (stateAt step s' es' n) := by
  induction n with
  | zero => exact hinit
  | succ n ih =>
    rw [stateAt_succ, stateAt_succ]
    rcases Nat.lt_or_ge n es.length with hn | hn
    · have hn' : n < es'.length := hes.length_eq ▸ hn
      have hget := List.getElem?_eq_getElem hn
      have hget' := List.getElem?_eq_getElem hn'
      rw [hget, hget']
      exact hstep n _ _ hget hget' (hes.get hn hn') (hH (n + 1)) ih
    · have hn' : es'.length ≤ n := hes.length_eq ▸ hn
      rw [List.getElem?_eq_none hn, List.getElem?_eq_none hn']
      exact ih

end Run
end UrlShortener
