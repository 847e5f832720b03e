import Mathlib.Data.List.Basic
import Mathlib.Data.Int.Notation
import Mathlib.Data.Nat.Notation
import Mathlib.Tactic.Choose

/-!
# Short-code generation

The production path: random Base62 codes with collision handling.  Randomness is a stream of draws
from the alphabet; `secrets.choice` picks one symbol per draw, and every candidate goes on in the
stream where the one before it stopped.

The retry loop runs in whatever monad the existence check runs in.  In the request handler every
check is a query of its own that other requests may interleave with, so the handler carries the
loop as a state machine.
-/

set_option autoImplicit false

namespace UrlShortener

/-- Digits, then upper case, then lower case. -/
def base62Alphabet : String := "0123456789ABCDEFGHIJKLMNOPQRSTUVWXYZabcdefghijklmnopqrstuvwxyz"

/-- Whether a character belongs to the alphabet. -/
def isBase62 (c : Char) : Bool := base62Alphabet.toList.contains c

/-- Cap on the candidates that are tried before the keyspace counts as saturated. -/
def defaultMaxCollisionRetries : ℕ := 5

/-- The outcomes of `secrets.choice`, as positions in the alphabet. -/
abbrev Draws := ℕ → Fin 62

/-- The symbol a draw picks. -/
def symbol (d : Fin 62) : Char := base62Alphabet.toList.getD d.val '0'

/-- Generate a single random code.  A length that is not positive is a `ValueError`. -/
def generateShortCode (length : ℕ) (draws : Draws) : Except String String :=
  if length = 0 then .error "Short code length must be positive."
  else .ok (String.ofList ((List.range length).map fun k => symbol (draws k)))

/-- What the generator raises. -/
inductive GenerationError where
  /-- A `ValueError` of `generateShortCode`. -/
  | valueError : (message : String) → GenerationError
  /-- A `ShortCodeGenerationError`. -/
  | shortCodeGeneration : (message : String) → GenerationError
  deriving DecidableEq, Repr

/-- The retry loop, with the attempts that are left and the draws that are left. -/
def retryLoop {m : Type → Type} [Monad m] (codeExists : String → m Bool) (length : ℕ)
    (exhausted : GenerationError) : ℕ → Draws → m (Except GenerationError String)
  | 0, _ => pure (.error exhausted)
  | attempts + 1, draws =>
      match generateShortCode length draws with
      | .error message => pure (.error (.valueError message))
      | .ok candidate => do
          if ← codeExists candidate then
            retryLoop codeExists length exhausted attempts fun k => draws (length + k)
          else pure (.ok candidate)

/-- The error of a spent retry budget. -/
def retriesExhausted (length : ℕ) (maxRetries : ℤ) : GenerationError :=
  .shortCodeGeneration ("Failed to generate a unique short code after " ++ toString maxRetries ++
    " attempts (length=" ++ toString length ++ "); consider increasing the code length.")

/-- Generate a random code that `codeExists` does not know. -/
def generateUniqueShortCode {m : Type → Type} [Monad m] (codeExists : String → m Bool)
    (length : ℕ) (maxRetries : ℤ) (draws : Draws) : m (Except GenerationError String) :=
  retryLoop codeExists length (retriesExhausted length maxRetries) maxRetries.toNat draws

theorem isBase62_symbol (d : Fin 62) : isBase62 (symbol d) = true := by
  revert d
  decide

theorem generateShortCode_of_pos {length : ℕ} (h : 0 < length) (draws : Draws) :
    generateShortCode length draws =
      .ok (String.ofList ((List.range length).map fun k => symbol (draws k))) := by
  rw [generateShortCode, if_neg (by omega)]

/-- A generated code has the requested length. -/
theorem length_of_generateShortCode {length : ℕ} {draws : Draws} {code : String}
    (h : generateShortCode length draws = .ok code) : code.length = length := by
  unfold generateShortCode at h
  split at h
  · cases h
  · cases h
    simp

/-- A generated code is over the alphabet. -/
theorem isBase62_of_generateShortCode {length : ℕ} {draws : Draws} {code : String}
    (h : generateShortCode length draws = .ok code) : ∀ c ∈ code.toList, isBase62 c = true := by
  unfold generateShortCode at h
  split at h
  · cases h
  · cases h
    intro c hc
    obtain ⟨k, -, rfl⟩ := List.mem_map.mp (String.toList_ofList ▸ hc)
    exact isBase62_symbol _

/-- Every symbol of the alphabet is picked by some draw. -/
theorem exists_symbol {c : Char} (h : isBase62 c = true) : ∃ d, symbol d = c := by
  have hlength : base62Alphabet.toList.length = 62 := by decide
  have hmem : c ∈ base62Alphabet.toList := by simpa [isBase62] using h
  obtain ⟨k, hk, rfl⟩ := List.mem_iff_getElem.mp hmem
  refine ⟨⟨k, hlength ▸ hk⟩, ?_⟩
  rw [symbol, List.getD_eq_getElem?_getD, List.getElem?_eq_getElem hk, Option.getD_some]

/-- **The generator may return any code of its length.** -/
theorem exists_generateShortCode {code : String} (hpos : 0 < code.length)
    (hchars : ∀ c ∈ code.toList, isBase62 c = true) :
    ∃ draws, generateShortCode code.length draws = .ok code := by
  have hdraw : ∀ k : ℕ, ∃ d : Fin 62, ∀ c, code.toList[k]? = some c → symbol d = c := by
    intro k
    cases hget : code.toList[k]? with
    | none => exact ⟨0, fun c hc => by cases hc⟩
    | some c =>
      obtain ⟨d, hd⟩ := exists_symbol (hchars c (List.mem_of_getElem? hget))
      exact ⟨d, fun c' hc => Option.some.inj hc ▸ hd⟩
  choose draws hdraws using hdraw
  refine ⟨draws, ?_⟩
  have hlist : (List.range code.length).map (fun k => symbol (draws k)) = code.toList := by
    apply List.ext_getElem
    · rw [List.length_map, List.length_range, String.length_toList]
    · intro k hk hk'
      rw [List.getElem_map, List.getElem_range]
      exact hdraws k _ (List.getElem?_eq_getElem hk')
  rw [generateShortCode_of_pos hpos, hlist, String.ofList_toList]

end UrlShortener
