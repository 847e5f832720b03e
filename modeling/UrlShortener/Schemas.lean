import UrlShortener.Core.Shortener
import Mathlib.Data.Int.Notation
import Mathlib.Data.List.Dedup

/-!
# Request and response models

A `CreateUrlRequest` carries the proofs of what its validators check, so an invalid body cannot be
built.  The destination arrives as `str` of a validated URL, which is percent-encoded text; the one
fact about it that matters to the database is that it contains no NUL character.

Dates are microseconds since the epoch.
-/

set_option autoImplicit false

namespace UrlShortener

/-- Minimum length of a custom code. -/
def customCodeMinLength : ℕ := 4

/-- Maximum length of a custom code, the width of the `short_code` column. -/
def customCodeMaxLength : ℕ := 10

/-- Whether a text contains U+0000. -/
def hasNul (s : String) : Bool := s.toList.contains '\x00'

/-- The characters of a text that are not Base62, sorted and without repetition. -/
def invalidChars (value : String) : List Char :=
  ((value.toList.filter fun c => !isBase62 c).dedup).mergeSort fun a b => a ≤ b

/-- Reject custom codes that are not valid Base62 of the allowed length. -/
def validateCustomCode : Option String → Except String (Option String)
  | none => .ok none
  | some value =>
      if ¬ (customCodeMinLength ≤ value.length ∧ value.length ≤ customCodeMaxLength) then
        .error "custom_code must be 4-10 characters long"
      else if invalidChars value ≠ [] then
        .error ("custom_code contains non-Base62 characters: " ++
          String.ofList (invalidChars value))
      else .ok (some value)

/-- Body of a create request. -/
structure CreateUrlRequest where
  longUrl : String
  longUrl_valid : hasNul longUrl = false
  customCode : Option String
  customCode_valid : validateCustomCode customCode = .ok customCode
  expiresInDays : Option ℕ
  expiresInDays_valid : ∀ d ∈ expiresInDays, 0 < d ∧ d ≤ 3650

/-- Response body for URL creation. -/
structure UrlResponse where
  shortCode : String
  shortUrl : String
  longUrl : String
  expiresAt : Option ℤ
  deriving DecidableEq, Repr

/-- `str.rstrip('/')`. -/
def rstripSlash (s : String) : String :=
  String.ofList (s.toList.reverse.dropWhile (· = '/')).reverse

/-- Construct a response, composing `short_url` from the base URL. -/
def UrlResponse.build (shortCode longUrl : String) (expiresAt : Option ℤ) (baseUrl : String) :
    UrlResponse where
  shortCode := shortCode
  shortUrl := rstripSlash baseUrl ++ "/" ++ shortCode
  longUrl := longUrl
  expiresAt := expiresAt

/-- A single recent click. -/
structure ClickInfo where
  clickedAt : ℤ
  referrer : Option String
  userAgent : Option String
  deriving DecidableEq, Repr

/-- Aggregated click count for one referrer. -/
structure ReferrerCount where
  referrer : Option String
  count : ℕ
  deriving DecidableEq, Repr

/-- Response body of the stats endpoint. -/
structure StatsResponse where
  shortCode : String
  clickCount : ℕ
  recentClicks : List ClickInfo
  topReferrers : List ReferrerCount
  deriving DecidableEq, Repr

/-! ## The language of custom codes -/

theorem mem_invalidChars {value : String} {c : Char} :
    c ∈ invalidChars value ↔ c ∈ value.toList ∧ isBase62 c = false := by
  simp [invalidChars]

theorem invalidChars_eq_nil_iff {value : String} :
    invalidChars value = [] ↔ ∀ c ∈ value.toList, isBase62 c = true := by
  rw [List.eq_nil_iff_forall_not_mem]
  simp only [mem_invalidChars, not_and, Bool.not_eq_false]

/-- **What the validator accepts**: Base62 texts of four to ten characters, unchanged. -/
theorem validateCustomCode_some_iff {value : String} {r : Option String} :
    validateCustomCode (some value) = .ok r ↔
      r = some value ∧ 4 ≤ value.length ∧ value.length ≤ 10 ∧
        ∀ c ∈ value.toList, isBase62 c = true := by
  rw [validateCustomCode, customCodeMinLength, customCodeMaxLength]
  by_cases hlen : 4 ≤ value.length ∧ value.length ≤ 10
  · rw [if_neg (not_not.mpr hlen)]
    by_cases hchars : ∀ c ∈ value.toList, isBase62 c = true
    · rw [if_neg (not_not.mpr (invalidChars_eq_nil_iff.mpr hchars)), Except.ok.injEq, eq_comm]
      exact ⟨fun h => ⟨h, hlen.1, hlen.2, hchars⟩, fun h => h.1⟩
    · rw [if_pos fun h => hchars (invalidChars_eq_nil_iff.mp h)]
      simp only [reduceCtorEq, false_iff]
      exact fun h => hchars h.2.2.2
  · rw [if_pos hlen]
    simp only [reduceCtorEq, false_iff]
    exact fun h => hlen ⟨h.2.1, h.2.2.1⟩

/-- A code that can be seen to be valid. -/
theorem validateCustomCode_of_all {value : String} (hmin : 4 ≤ value.length)
    (hmax : value.length ≤ 10) (hchars : value.toList.all isBase62 = true) :
    validateCustomCode (some value) = .ok (some value) :=
  validateCustomCode_some_iff.mpr ⟨rfl, hmin, hmax, List.all_eq_true.mp hchars⟩

theorem CreateUrlRequest.customCode_spec (p : CreateUrlRequest) {code : String}
    (h : p.customCode = some code) :
    4 ≤ code.length ∧ code.length ≤ 10 ∧ ∀ c ∈ code.toList, isBase62 c = true := by
  have hvalid := p.customCode_valid
  rw [h] at hvalid
  exact (validateCustomCode_some_iff.mp hvalid).2

/-- A Base62 text contains no NUL. -/
theorem hasNul_eq_false_of_isBase62 {code : String} (h : ∀ c ∈ code.toList, isBase62 c = true) :
    hasNul code = false := by
  rw [hasNul, Bool.eq_false_iff]
  intro hnul
  have hmem : '\x00' ∈ code.toList := by simpa using hnul
  exact absurd (h _ hmem) (by decide)

end UrlShortener
