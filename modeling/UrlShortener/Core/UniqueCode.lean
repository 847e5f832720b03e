import UrlShortener.Db.Models
import UrlShortener.Library.Search
import Mathlib.Tactic.Ring

/-!
# The generator is first fit

`generateUniqueShortCode` goes through the candidates that a stream of draws spells and returns
the first one the existence check does not know, within its budget.  The check may be anything
that has a state: a query against a table that other requests write to, or a test that answers
differently when it is asked twice.

## What is proved

* `generateUniqueShortCode_eq` connects the loop with the search of `Library.Search`.
* `generateUniqueShortCode_firstFit` says which queries are made, what comes out, and that what
  comes out is a code the validator of custom codes accepts and the column stores.
-/

set_option autoImplicit false

namespace UrlShortener

open Search (after answer recorded)

/-- The candidate number `i` of a stream of draws. -/
def candidate (length : ℕ) (draws : Draws) (i : ℕ) : String :=
  String.ofList ((List.range length).map fun k => symbol (draws (i * length + k)))

/-- A stateful predicate, as an effect. -/
def effect {σ : Type} (taken : String → σ → Bool × σ) (code : String) : StateM σ Bool :=
  fun s => taken code s

theorem generateShortCode_eq_candidate {length : ℕ} (hlength : 1 ≤ length) (draws : Draws) :
    generateShortCode length draws = .ok (candidate length draws 0) := by
  rw [generateShortCode_of_pos hlength, candidate]
  simp only [Nat.zero_mul, Nat.zero_add]

/-- The next candidates are the candidates of the draws that are left. -/
theorem candidate_succ (length : ℕ) (draws : Draws) (i : ℕ) :
    candidate length draws (i + 1) = candidate length (fun k => draws (length + k)) i := by
  unfold candidate
  have hindex : ∀ k, (i + 1) * length + k = length + (i * length + k) := fun k => by ring
  simp only [hindex]

/-- What the search makes of its outcome. -/
def searchResult (exhausted : GenerationError) : Option String → Except GenerationError String
  | some code => .ok code
  | none => .error exhausted

section Search

variable {σ : Type} (taken : String → σ → Bool × σ) {length : ℕ} (draws : Draws) (s : σ)

/-- **The loop is the search**, with the candidates of its draws and its attempts as the budget.
The induction is on the attempts. -/
theorem retryLoop_eq (hlength : 1 ≤ length) (exhausted : GenerationError) (attempts : ℕ) :
    (retryLoop (effect taken) length exhausted attempts draws).run s =
      (searchResult exhausted (Search.firstFit taken attempts (candidate length draws) s).1,
        (Search.firstFit taken attempts (candidate length draws) s).2) := by
  induction attempts generalizing draws s with
  | zero => rfl
  | succ attempts ih =>
    rw [retryLoop, generateShortCode_eq_candidate hlength, Search.firstFit]
    have hstep : ∀ next : StateM σ (Except GenerationError String),
        (do if ← effect taken (candidate length draws 0) then next
            else pure (.ok (candidate length draws 0))).run s =
          if (taken (candidate length draws 0) s).1 = true then
            next.run (taken (candidate length draws 0) s).2
          else (.ok (candidate length draws 0), (taken (candidate length draws 0) s).2) := by
      intro next
      change (if (taken (candidate length draws 0) s).1 = true then next
        else pure (.ok (candidate length draws 0))).run (taken (candidate length draws 0) s).2 = _
      split <;> rfl
    refine (hstep _).trans ?_
    by_cases htaken : (taken (candidate length draws 0) s).1 = true
    · have hrest : (fun i => candidate length draws (i + 1)) =
          candidate length fun k => draws (length + k) := funext (candidate_succ length draws)
      rw [if_pos htaken, if_pos htaken, ih, hrest]
    · rw [if_neg htaken, if_neg htaken]
      rfl

end Search

/-! ## The candidates and the validator -/

theorem length_candidate (length : ℕ) (draws : Draws) (i : ℕ) :
    (candidate length draws i).length = length := by
  simp [candidate]

theorem isBase62_candidate (length : ℕ) (draws : Draws) (i : ℕ) :
    ∀ c ∈ (candidate length draws i).toList, isBase62 c = true := by
  intro c hc
  obtain ⟨k, -, rfl⟩ := List.mem_map.mp (String.toList_ofList ▸ hc)
  exact isBase62_symbol _

/-- **A candidate is a custom code.** -/
theorem validateCustomCode_candidate {length : ℕ} (hmin : 4 ≤ length) (hmax : length ≤ 10)
    (draws : Draws) (i : ℕ) :
    validateCustomCode (some (candidate length draws i)) =
      .ok (some (candidate length draws i)) := by
  have hlength := length_candidate length draws i
  exact validateCustomCode_some_iff.mpr
    ⟨rfl, by omega, by omega, isBase62_candidate length draws i⟩

/-- A candidate fits its column. -/
theorem isVarchar_candidate {length : ℕ} (hmax : length ≤ 10) (draws : Draws) (i : ℕ) :
    isVarchar 10 (candidate length draws i) = true := by
  rw [isVarchar, isText, hasNul_eq_false_of_isBase62 (isBase62_candidate length draws i),
    length_candidate]
  simpa using hmax

/-- **A custom code is a candidate** of some draws. -/
theorem exists_candidate_eq {value : String} (hpos : 0 < value.length)
    (hvalid : validateCustomCode (some value) = .ok (some value)) :
    ∃ draws, candidate value.length draws 0 = value := by
  obtain ⟨-, -, -, hchars⟩ := validateCustomCode_some_iff.mp hvalid
  obtain ⟨draws, hdraws⟩ := exists_generateShortCode hpos hchars
  rw [generateShortCode_eq_candidate hpos, Except.ok.injEq] at hdraws
  exact ⟨draws, hdraws⟩

/-! ## The generator -/

variable {σ : Type} (taken : String → σ → Bool × σ) (length : ℕ) (maxRetries : ℤ) (draws : Draws)
  (s : σ)

/-- A run of the generator, with its queries on record. -/
def generatorRun : Except GenerationError String × (σ × List String) :=
  (generateUniqueShortCode (effect (recorded taken)) length maxRetries draws).run (s, [])

/-- First fit within a budget: what the queries are and what comes of them. -/
structure IsFirstFit : Prop where
  /-- The queries are the candidates in order, once each, and no more than the budget. -/
  queries : ∃ n ≤ maxRetries.toNat, (generatorRun taken length maxRetries draws s).2 =
    (after taken (candidate length draws) s n, (List.range n).map (candidate length draws))
  /-- Candidate `i` is returned after `i + 1` queries, exactly when it is the first that is not
  taken and the budget reaches it. -/
  returns : ∀ i : ℕ, generatorRun taken length maxRetries draws s =
      (.ok (candidate length draws i), after taken (candidate length draws) s (i + 1),
        (List.range (i + 1)).map (candidate length draws)) ↔
    i < maxRetries ∧ (∀ j < i, answer taken (candidate length draws) s j = true) ∧
      answer taken (candidate length draws) s i = false
  /-- Something is raised exactly when all candidates of the budget are taken. -/
  raises : (∃ e, (generatorRun taken length maxRetries draws s).1 = .error e) ↔
    ∀ j : ℕ, j < maxRetries → answer taken (candidate length draws) s j = true
  /-- It is the error of a spent budget, after as many queries as the budget allows. -/
  raised : (∀ j : ℕ, j < maxRetries → answer taken (candidate length draws) s j = true) →
    generatorRun taken length maxRetries draws s =
      (.error (retriesExhausted length maxRetries),
        after taken (candidate length draws) s maxRetries.toNat,
        (List.range maxRetries.toNat).map (candidate length draws))
  /-- What is returned is a code the validator accepts and the column stores. -/
  valid : 4 ≤ length → length ≤ 10 → ∀ code,
    (generatorRun taken length maxRetries draws s).1 = .ok code →
      validateCustomCode (some code) = .ok (some code) ∧ isVarchar 10 code = true
  /-- And every code of that length the validator accepts may be generated. -/
  sameLanguage : 4 ≤ length → length ≤ 10 → ∀ value : String, value.length = length →
    (validateCustomCode (some value) = .ok (some value) ↔
      ∃ draws', candidate length draws' 0 = value)

section Run

variable {taken length maxRetries draws s}

theorem generatorRun_of_free (hlength : 1 ≤ length) {i : ℕ} (hi : i < maxRetries)
    (htaken : ∀ j < i, answer taken (candidate length draws) s j = true)
    (hfree : answer taken (candidate length draws) s i = false) :
    generatorRun taken length maxRetries draws s =
      (.ok (candidate length draws i), after taken (candidate length draws) s (i + 1),
        (List.range (i + 1)).map (candidate length draws)) := by
  have hbudget : i < maxRetries.toNat := by omega
  rw [generatorRun, generateUniqueShortCode, retryLoop_eq _ _ _ hlength,
    Search.firstFit_recorded_of_free [] hbudget htaken hfree]
  rfl

theorem generatorRun_of_taken (hlength : 1 ≤ length)
    (htaken : ∀ j : ℕ, j < maxRetries → answer taken (candidate length draws) s j = true) :
    generatorRun taken length maxRetries draws s =
      (.error (retriesExhausted length maxRetries),
        after taken (candidate length draws) s maxRetries.toNat,
        (List.range maxRetries.toNat).map (candidate length draws)) := by
  rw [generatorRun, generateUniqueShortCode, retryLoop_eq _ _ _ hlength,
    Search.firstFit_recorded_of_taken [] fun j hj => htaken j (by omega)]
  rfl

/-- The generator finds a free candidate within its budget, or all of them are taken. -/
theorem generatorRun_cases (taken : String → σ → Bool × σ) (maxRetries : ℤ) (draws : Draws)
    (s : σ) :
    (∃ i : ℕ, i < maxRetries ∧ (∀ j < i, answer taken (candidate length draws) s j = true) ∧
      answer taken (candidate length draws) s i = false) ∨
    ∀ j : ℕ, j < maxRetries → answer taken (candidate length draws) s j = true := by
  rcases Search.exists_free_or_all_taken taken (candidate length draws) s maxRetries.toNat with
    ⟨i, hi, hfirst⟩ | hall
  · exact Or.inl ⟨i, by omega, hfirst⟩
  · exact Or.inr fun j hj => hall j (by omega)

end Run

/-- **The generator is first fit within its budget**, for every stateful existence check, every
stream of draws, every positive length and every budget. -/
theorem generateUniqueShortCode_firstFit (hlength : 1 ≤ length) :
    IsFirstFit taken length maxRetries draws s where
  queries := by
    rcases generatorRun_cases taken maxRetries draws s with ⟨i, hi, htaken, hfree⟩ | hall
    · rw [generatorRun_of_free hlength hi htaken hfree]
      exact ⟨i + 1, by omega, rfl⟩
    · rw [generatorRun_of_taken hlength hall]
      exact ⟨maxRetries.toNat, Nat.le_refl _, rfl⟩
  returns := by
    intro i
    refine ⟨fun hrun => ?_, fun ⟨hi, htaken, hfree⟩ =>
      generatorRun_of_free hlength hi htaken hfree⟩
    rcases generatorRun_cases taken maxRetries draws s with ⟨i', hi', htaken, hfree⟩ | hall
    · -- the number of queries tells which candidate it was
      rw [generatorRun_of_free hlength hi' htaken hfree] at hrun
      have hqueries := congrArg (fun r => r.2.2.length) hrun
      simp only [List.length_map, List.length_range] at hqueries
      obtain rfl : i' = i := by omega
      exact ⟨hi', htaken, hfree⟩
    · rw [generatorRun_of_taken hlength hall] at hrun
      cases congrArg Prod.fst hrun
  raises := by
    constructor
    · rintro ⟨e, he⟩
      rcases generatorRun_cases taken maxRetries draws s with ⟨i, hi, htaken, hfree⟩ | hall
      · rw [generatorRun_of_free hlength hi htaken hfree] at he
        cases he
      · exact hall
    · intro hall
      rw [generatorRun_of_taken hlength hall]
      exact ⟨_, rfl⟩
  raised := generatorRun_of_taken hlength
  valid := by
    intro hmin hmax code hcode
    rcases generatorRun_cases taken maxRetries draws s with ⟨i, hi, htaken, hfree⟩ | hall
    · rw [generatorRun_of_free hlength hi htaken hfree] at hcode
      cases hcode
      exact ⟨validateCustomCode_candidate hmin hmax draws i, isVarchar_candidate hmax draws i⟩
    · rw [generatorRun_of_taken hlength hall] at hcode
      cases hcode
  sameLanguage := by
    rintro hmin hmax value rfl
    refine ⟨exists_candidate_eq hlength, ?_⟩
    rintro ⟨draws', hdraws'⟩
    rw [← hdraws']
    exact validateCustomCode_candidate hmin hmax draws' 0

/-- A check that knows the first two candidates only: three queries, and the third candidate. -/
theorem generateUniqueShortCode_firstFit_third :
    IsFirstFit (fun _ calls => (decide (calls < 2), calls + 1)) 7 5 (fun _ => 0) 0 ∧
      (generatorRun (fun _ calls => (decide (calls < 2), calls + 1)) 7 5 (fun _ => 0) 0).2.1 = 3 :=
  ⟨generateUniqueShortCode_firstFit _ 7 5 _ 0 (by decide), by decide +kernel⟩

end UrlShortener
