import UrlShortener.Core.Base62
import UrlShortener.Core.UniqueCode
import UrlShortener.Library.Rejection
import Mathlib.Logic.Equiv.Fin.Basic

/-!
# Generated codes cannot be guessed

Codes are random so that nobody can walk the links.  `secrets.choice` makes every draw equally
likely, but a code is only returned if it is the first one not in use, and which codes are in use
may change from one query to the next while other requests go on.  What is left of the randomness
is a matter of counting: the draws that a search may use up are a block of fixed size, all blocks
are equally likely, and the question is how many of them lead to a code.

## What is proved

`generateUniqueShortCode_fair`: the number of blocks that lead to a code, and of those that raise,
for every history of the codes in use.  A code that is free throughout the search is as likely as
any other.
-/

set_option autoImplicit false

namespace UrlShortener

open Finset

/-- The draws that a search may use up: one for every symbol of every candidate. -/
abbrev Block (length attempts : ℕ) := Fin (attempts * length) → Fin 62

/-- The stream of draws that begins with a block. -/
def Block.draws {length attempts : ℕ} (block : Block length attempts) (rest : Draws) : Draws :=
  fun k => if h : k < attempts * length then block ⟨k, h⟩ else rest k

/-- The code of a row of draws. -/
def spell {length : ℕ} (row : Fin length → Fin 62) : String :=
  String.ofList (List.ofFn fun k => symbol (row k))

/-- What the generator makes of a block, when `used n` are the codes in use at its query `n`. -/
def generated (used : ℕ → String → Bool) (length : ℕ) (maxRetries : ℤ) (rest : Draws)
    (block : Block length maxRetries.toNat) : Except GenerationError String :=
  ((generateUniqueShortCode (effect (Search.scheduled used)) length maxRetries
    (block.draws rest)).run 0).1

/-- How many codes of a length are in use at query `n`. -/
def inUse (used : ℕ → String → Bool) (length n : ℕ) : ℕ :=
  Search.takenAt (fun n (row : Fin length → Fin 62) => used n (spell row)) n

/-! ## Codes and rows -/

theorem symbol_injective : Function.Injective symbol := by
  intro d d' h
  have hvalue : ∀ d : Fin 62, charToValue (symbol d) = some d.val := fun d =>
    charToValue_digitSymbol d.isLt
  have hsame : some d.val = some d'.val := by rw [← hvalue, ← hvalue, h]
  exact Fin.ext (Option.some.inj hsame)

theorem spell_injective {length : ℕ} : Function.Injective (@spell length) := by
  intro row row' h
  have hrows := List.ofFn_injective (String.ofList_injective h)
  funext k
  exact symbol_injective (congrFun hrows k)

/-- A candidate is the code of its row of draws. -/
theorem candidate_eq_spell (length : ℕ) (draws : Draws) (i : ℕ) :
    candidate length draws i = spell fun k : Fin length => draws (i * length + k) := by
  rw [candidate, spell, List.ofFn_eq_map, ← List.map_coe_finRange_eq_range, List.map_map]
  rfl

/-- **Every code is the code of a row.** -/
theorem exists_spell {code : String} (hpos : 1 ≤ code.length)
    (hchars : ∀ c ∈ code.toList, isBase62 c = true) :
    ∃ row : Fin code.length → Fin 62, spell row = code := by
  obtain ⟨draws, hdraws⟩ := exists_generateShortCode hpos hchars
  rw [generateShortCode_eq_candidate hpos, candidate_eq_spell] at hdraws
  exact ⟨_, Except.ok.inj hdraws⟩

/-! ## Blocks and rows -/

/-- A block, cut into the rows of its candidates. -/
def rowsOf (length attempts : ℕ) : Block length attempts ≃ (Fin attempts → Fin length → Fin 62) :=
  (Equiv.arrowCongr finProdFinEquiv.symm (Equiv.refl _)).trans (Equiv.curry _ _ _)

theorem candidate_draws {length attempts : ℕ} (block : Block length attempts) (rest : Draws)
    (i : Fin attempts) :
    candidate length (block.draws rest) i = spell (rowsOf length attempts block i) := by
  rw [candidate_eq_spell]
  congr 1
  funext k
  have hindex : i * length + k = (finProdFinEquiv (i, k) : ℕ) := by
    rw [finProdFinEquiv_apply_val]
    ring
  rw [hindex, Block.draws, dif_pos (finProdFinEquiv (i, k)).isLt]
  rfl

/-- **The generator samples by rejection.** -/
theorem generated_eq (used : ℕ → String → Bool) {length : ℕ} (hlength : 1 ≤ length)
    (maxRetries : ℤ) (rest : Draws) (block : Block length maxRetries.toNat) :
    generated used length maxRetries rest block =
      searchResult (retriesExhausted length maxRetries)
        ((Search.firstFree (fun n row => used n (spell row)) maxRetries.toNat
          (rowsOf length maxRetries.toNat block) 0).map spell) := by
  rw [generated, generateUniqueShortCode, retryLoop_eq _ _ _ hlength, Search.firstFit_scheduled]
  simp only [candidate_draws]
  rw [Search.firstFree_map]

/-- The blocks whose outcome is decided by their rows are as many as the rows. -/
theorem card_blocks (used : ℕ → String → Bool) {length : ℕ} (hlength : 1 ≤ length)
    (maxRetries : ℤ) (rest : Draws) (result : Except GenerationError String)
    (outcome : Option (Fin length → Fin 62))
    (houtcome : ∀ found : Option (Fin length → Fin 62),
      searchResult (retriesExhausted length maxRetries) (found.map spell) = result ↔
        found = outcome) :
    #{block | generated used length maxRetries rest block = result} =
      Search.rows (fun n row => used n (spell row)) maxRetries.toNat 0 outcome := by
  refine card_equiv (rowsOf length maxRetries.toNat) fun block => ?_
  rw [mem_filter_univ, mem_filter_univ, generated_eq used hlength, houtcome]

/-! ## Fairness -/

/-- What a search makes of all blocks of draws. -/
structure IsFair (used : ℕ → String → Bool) (length : ℕ) (maxRetries : ℤ) (rest : Draws) :
    Prop where
  /-- The blocks that lead to a code: the candidates before query `j` are in use, the candidate at
  query `j` is the code and is not, and the other draws may be anything. -/
  returns : ∀ code : String, code.length = length → (∀ c ∈ code.toList, isBase62 c = true) →
    #{block | generated used length maxRetries rest block = .ok code} =
      ∑ j ∈ range maxRetries.toNat, (∏ n ∈ range j, inUse used length n) *
        if used j code then 0 else (62 ^ length) ^ (maxRetries.toNat - 1 - j)
  /-- The blocks that raise: all candidates are in use. -/
  raises : #{block | generated used length maxRetries rest block =
      .error (retriesExhausted length maxRetries)} =
    ∏ n ∈ range maxRetries.toNat, inUse used length n
  /-- Codes that are in use at the same queries, as those that stay free are, are equally likely. -/
  fair : ∀ code code' : String, code.length = length → (∀ c ∈ code.toList, isBase62 c = true) →
    code'.length = length → (∀ c ∈ code'.toList, isBase62 c = true) →
    (∀ n : ℕ, n < maxRetries → used n code = used n code') →
      #{block | generated used length maxRetries rest block = .ok code} =
        #{block | generated used length maxRetries rest block = .ok code'}

theorem card_generated (used : ℕ → String → Bool) (maxRetries : ℤ) (rest : Draws) {code : String}
    (hpos : 1 ≤ code.length) (hchars : ∀ c ∈ code.toList, isBase62 c = true) :
    #{block | generated used code.length maxRetries rest block = .ok code} =
      ∑ j ∈ range maxRetries.toNat, (∏ n ∈ range j, inUse used code.length n) *
        if used j code then 0 else (62 ^ code.length) ^ (maxRetries.toNat - 1 - j) := by
  obtain ⟨row, hrow⟩ := exists_spell hpos hchars
  rw [card_blocks used hpos maxRetries rest (.ok code) (some row), Search.card_rows_some]
  · simp [hrow, inUse]
  · intro found
    cases found with
    | none => simp [searchResult]
    | some row' => simp [searchResult, ← hrow, spell_injective.eq_iff]

/-- **The generator is fair**, for every history of the codes in use, every length and every
budget. -/
theorem generateUniqueShortCode_fair (used : ℕ → String → Bool) (length : ℕ) (maxRetries : ℤ)
    (rest : Draws) (hlength : 1 ≤ length) : IsFair used length maxRetries rest where
  returns := by
    rintro code rfl hchars
    exact card_generated used maxRetries rest hlength hchars
  raises := by
    rw [card_blocks used hlength maxRetries rest _ none, Search.card_rows_none]
    · simp [inUse]
    · intro found
      cases found <;> simp [searchResult]
  fair := by
    rintro code code' rfl hchars hsame hchars' hused
    have hcode' := card_generated used maxRetries rest (hsame ▸ hlength) hchars'
    rw [hsame] at hcode'
    rw [card_generated used maxRetries rest hlength hchars, hcode']
    refine sum_congr rfl fun j hj => ?_
    have hj := mem_range.mp hj
    rw [hused j (by omega)]

/-- One code of one symbol is in use, and the generator may try twice. -/
theorem generateUniqueShortCode_fair_oneInUse :
    IsFair (fun _ code => code == "0") 1 2 (fun _ => 0) ∧
      inUse (fun _ code => code == "0") 1 0 = 1 :=
  ⟨generateUniqueShortCode_fair _ 1 2 _ (by decide), by decide +kernel⟩

end UrlShortener
