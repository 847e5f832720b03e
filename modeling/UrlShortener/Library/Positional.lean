import Mathlib.Data.Nat.Digits.Lemmas

/-!
# Positional numerals

A numeral is a list of digits, the most significant one first.  Reading one is Horner's rule, and
writing one lists the remainders of repeated division backwards, except that zero is written with
one digit.  Mathlib's `Nat.digits` lists digits the other way round and writes zero with none;
the lemmas here move its results over.

## What is proved

* `horner_numeral`: reading what was written gives the number back.
* `numeral_horner`: writing what was read gives the numeral back without its leading zeros
  (`stripZeros`), which is the numeral itself exactly when it is `Canonical`.
* `length_numeral_le_iff` and `eq_of_horner_eq`: how many digits a number needs, and that numerals
  of one length are told apart by their values.
-/

set_option autoImplicit false

namespace UrlShortener
namespace Positional

/-- The value of a numeral. -/
def horner (b : ℕ) (ds : List ℕ) : ℕ := ds.foldl (fun n d => n * b + d) 0

/-- The numeral of a number. -/
def numeral (b n : ℕ) : List ℕ := if n = 0 then [0] else (Nat.digits b n).reverse

/-- A numeral without its leading zeros.  One digit is always left. -/
def stripZeros {α : Type*} [DecidableEq α] (zero : α) (ds : List α) : List α :=
  if ds.dropWhile (· = zero) = [] then [zero] else ds.dropWhile (· = zero)

/-- No leading zero, except in the numeral of zero. -/
def Canonical {α : Type*} (zero : α) (ds : List α) : Prop :=
  ds ≠ [] ∧ (ds.head? = some zero → ds = [zero])

instance {α : Type*} [DecidableEq α] (zero : α) (ds : List α) : Decidable (Canonical zero ds) := by
  unfold Canonical; infer_instance

variable {b : ℕ}

theorem horner_eq_ofDigits (b : ℕ) (ds : List ℕ) : horner b ds = Nat.ofDigits b ds.reverse := by
  rw [horner, Nat.ofDigits_eq_foldr, List.foldr_reverse]
  congr 1
  funext n d
  simp only [Nat.cast_id]
  ring

@[simp] theorem horner_singleton (b d : ℕ) : horner b [d] = d := by simp [horner]

/-- A leading zero adds nothing. -/
theorem horner_zero_cons (b : ℕ) (ds : List ℕ) : horner b (0 :: ds) = horner b ds := by
  simp [horner]

theorem horner_dropWhile (b : ℕ) (ds : List ℕ) :
    horner b (ds.dropWhile (· = 0)) = horner b ds := by
  induction ds with
  | nil => rfl
  | cons d ds ih =>
    by_cases hd : d = 0
    · rw [List.dropWhile_cons_of_pos (by simpa using hd), ih, hd, horner_zero_cons]
    · rw [List.dropWhile_cons_of_neg (by simpa using hd)]

/-! ## Leading zeros -/

section Strip

variable {α : Type*} [DecidableEq α] (zero : α)

theorem canonical_stripZeros (ds : List α) : Canonical zero (stripZeros zero ds) := by
  unfold stripZeros
  split
  · exact ⟨by simp, fun _ => rfl⟩
  · rename_i hne
    refine ⟨hne, fun hhead => ?_⟩
    have hnot := List.head?_dropWhile_not (fun d => decide (d = zero)) ds
    rw [hhead] at hnot
    simp at hnot

/-- **The canonical numerals are those without anything to strip.** -/
theorem stripZeros_eq_self_iff (ds : List α) :
    stripZeros zero ds = ds ↔ Canonical zero ds := by
  constructor
  · intro h
    exact h ▸ canonical_stripZeros zero ds
  · rintro ⟨hne, hzero⟩
    obtain ⟨d, rest, rfl⟩ := List.exists_cons_of_ne_nil hne
    by_cases hd : d = zero
    · obtain rfl : rest = [] := by simpa [hd] using hzero
      simp [stripZeros, hd]
    · have hdrop : (d :: rest).dropWhile (· = zero) = d :: rest :=
        List.dropWhile_cons_of_neg (by simpa using hd)
      rw [stripZeros, hdrop, if_neg hne]

/-- Stripping commutes with a translation of digits that tells zero from the others. -/
theorem map_stripZeros {β : Type*} [DecidableEq β] {zero : α} {zero' : β} {f : α → β}
    (hzero : f zero = zero') {ds : List α} (hf : ∀ d ∈ ds, f d = zero' → d = zero) :
    (stripZeros zero ds).map f = stripZeros zero' (ds.map f) := by
  have hdrop : (ds.dropWhile (· = zero)).map f = (ds.map f).dropWhile (· = zero') := by
    induction ds with
    | nil => rfl
    | cons d ds ih =>
      by_cases hd : d = zero
      · rw [List.dropWhile_cons_of_pos (by simpa using hd), List.map_cons,
          List.dropWhile_cons_of_pos (by simpa [hd] using hzero)]
        exact ih fun d' hd' => hf d' (List.mem_cons_of_mem _ hd')
      · have hfd : f d ≠ zero' := fun h => hd (hf d List.mem_cons_self h)
        rw [List.dropWhile_cons_of_neg (by simpa using hd), List.map_cons,
          List.dropWhile_cons_of_neg (by simpa using hfd)]
  unfold stripZeros
  rw [← hdrop]
  simp only [List.map_eq_nil_iff]
  split
  · rw [List.map_singleton, hzero]
  · rfl

end Strip

/-! ## Writing and reading -/

/-- **Reading what was written gives the number back.** -/
theorem horner_numeral (b n : ℕ) : horner b (numeral b n) = n := by
  unfold numeral
  split
  · rename_i hn
    rw [horner_singleton, hn]
  · rw [horner_eq_ofDigits, List.reverse_reverse, Nat.ofDigits_digits]

variable (hb : 1 < b)
include hb

theorem numeral_lt {n d : ℕ} (hd : d ∈ numeral b n) : d < b := by
  unfold numeral at hd
  split at hd
  · rw [List.mem_singleton] at hd
    omega
  · exact Nat.digits_lt_base hb (List.mem_reverse.mp hd)

/-- **Writing what was read gives the numeral back without its leading zeros.** -/
theorem numeral_horner {ds : List ℕ} (hds : ∀ d ∈ ds, d < b) :
    numeral b (horner b ds) = stripZeros 0 ds := by
  rw [← horner_dropWhile]
  unfold stripZeros
  cases hrest : ds.dropWhile (· = 0) with
  | nil => rfl
  | cons d rest =>
    have hlt : ∀ d' ∈ (d :: rest).reverse, d' < b := by
      intro d' hd'
      rw [List.mem_reverse, ← hrest] at hd'
      exact hds d' ((List.dropWhile_sublist _).subset hd')
    have hd : d ≠ 0 := by
      have hnot := List.head?_dropWhile_not (fun d : ℕ => decide (d = 0)) ds
      rw [hrest] at hnot
      simpa using hnot
    have hdigits : Nat.digits b (horner b (d :: rest)) = (d :: rest).reverse := by
      rw [horner_eq_ofDigits]
      refine Nat.digits_ofDigits b hb _ hlt fun _ => ?_
      rw [List.getLast_reverse, List.head_cons]
      exact hd
    have hne : horner b (d :: rest) ≠ 0 := by
      intro hzero
      rw [hzero, Nat.digits_zero] at hdigits
      simp at hdigits
    rw [numeral, if_neg hne, hdigits, List.reverse_reverse, if_neg (List.cons_ne_nil _ _)]

theorem canonical_numeral (n : ℕ) : Canonical 0 (numeral b n) := by
  rw [← stripZeros_eq_self_iff, ← numeral_horner hb fun _ => numeral_lt hb, horner_numeral]

/-- **How many digits a number needs.** -/
theorem length_numeral_le_iff {n k : ℕ} (hk : 1 ≤ k) :
    (numeral b n).length ≤ k ↔ n < b ^ k := by
  unfold numeral
  split
  · rename_i hn
    rw [hn, List.length_singleton]
    exact iff_of_true hk (by positivity)
  · rw [List.length_reverse]
    exact Nat.digits_length_le_iff hb n

/-- **Numerals of one length are told apart by their values.** -/
theorem eq_of_horner_eq {ds ds' : List ℕ} (hlength : ds.length = ds'.length)
    (hds : ∀ d ∈ ds, d < b) (hds' : ∀ d ∈ ds', d < b) (h : horner b ds = horner b ds') :
    ds = ds' := by
  rw [horner_eq_ofDigits, horner_eq_ofDigits] at h
  have hreverse := Nat.ofDigits_inj_of_len_eq hb (by simpa using hlength)
    (fun d hd => hds d (List.mem_reverse.mp hd)) (fun d hd => hds' d (List.mem_reverse.mp hd)) h
  exact List.reverse_injective hreverse

end Positional
end UrlShortener
