import UrlShortener.Core.Shortener
import UrlShortener.Library.Positional

/-!
# The Base62 codec

The reversible half of the shortener: `encodeBase62` writes a number with the symbols of the
alphabet and `decodeBase62` reads it back.  No handler calls them; the service draws its codes at
random.

The encoder divides until nothing is left and reverses the remainders it has collected, and zero
has a branch of its own.  The decoder goes through the text from the other end.  Both are numerals
in base 62 (`Positional.numeral`, `Positional.horner`) behind a translation between symbols and
digits, and the two tables of that translation are inverse to each other.

## What is proved

`base62_codec`: the codec is a bijection between the numbers and the canonical codes, and what it
does to every other text.
-/

set_option autoImplicit false

namespace UrlShortener

open Positional (horner numeral stripZeros)

/-- `_BASE`. -/
def base : ℕ := base62Alphabet.length

/-- `BASE62_ALPHABET[remainder]`. -/
def digitSymbol (remainder : ℕ) : Char := base62Alphabet.toList.getD remainder '0'

/-- `_CHAR_TO_VALUE[char]`, with `none` for the `KeyError`. -/
def charToValue (char : Char) : Option ℕ := base62Alphabet.toList.idxOf? char

/-- The `ValueError`s of the codec. -/
inductive CodecError where
  /-- Cannot Base62-encode a negative integer. -/
  | negative : CodecError
  /-- Cannot decode an empty string. -/
  | emptyString : CodecError
  /-- Invalid Base62 character. -/
  | invalidCharacter : Char → CodecError
  deriving DecidableEq, Repr

theorem one_lt_base : 1 < base := by decide

/-- The loop of the encoder: `divmod` by the base, and append the symbol of the remainder. -/
def divmodLoop (number : ℕ) (digits : List Char) : List Char :=
  if 0 < number then divmodLoop (number / base) (digits ++ [digitSymbol (number % base)])
  else digits
termination_by number
decreasing_by exact Nat.div_lt_self ‹_› one_lt_base

/-- Encode a non-negative integer.  The remainders come least-significant first, so they are
reversed. -/
def encodeBase62 (number : ℤ) : Except CodecError String :=
  if number < 0 then .error .negative
  else if number = 0 then .ok (String.singleton (digitSymbol 0))
  else .ok (String.ofList (divmodLoop number.toNat []).reverse)

/-- One round of the decoder. -/
def decodeChar (number : ℕ) (char : Char) : Except CodecError ℕ :=
  match charToValue char with
  | some value => .ok (number * base + value)
  | none => .error (.invalidCharacter char)

/-- Decode a Base62 string back into its integer value. -/
def decodeBase62 (code : String) : Except CodecError ℕ :=
  if code = "" then .error .emptyString else code.toList.foldlM decodeChar 0

/-! ## The two tables -/

theorem charToValue_digitSymbol {d : ℕ} (hd : d < base) : charToValue (digitSymbol d) = some d := by
  have hall : ∀ d < base, charToValue (digitSymbol d) = some d := by decide
  exact hall d hd

theorem digitSymbol_charToValue {c : Char} {d : ℕ} (h : charToValue c = some d) :
    d < base ∧ digitSymbol d = c := by
  unfold charToValue at h
  rw [List.idxOf?_eq_some_iff] at h
  obtain ⟨hlt, hget, -⟩ := h
  refine ⟨hlt, ?_⟩
  rw [digitSymbol, List.getD_eq_getElem?_getD, List.getElem?_eq_getElem hlt, Option.getD_some]
  simpa using hget

@[simp] theorem isSome_charToValue (c : Char) : (charToValue c).isSome = isBase62 c := by
  rw [Bool.eq_iff_iff, charToValue, List.isSome_idxOf?, isBase62, List.contains_iff_mem]

theorem digitSymbol_zero : digitSymbol 0 = '0' := by decide

theorem isBase62_digitSymbol {d : ℕ} (hd : d < base) : isBase62 (digitSymbol d) = true := by
  rw [← isSome_charToValue, charToValue_digitSymbol hd, Option.isSome_some]

/-- The digits of a text over the alphabet. -/
def values (cs : List Char) : List ℕ := cs.filterMap charToValue

theorem values_lt {cs : List Char} {d : ℕ} (hd : d ∈ values cs) : d < base := by
  obtain ⟨c, -, hc⟩ := List.mem_filterMap.mp hd
  exact (digitSymbol_charToValue hc).1

/-- From symbols to digits and back. -/
theorem map_digitSymbol_values {cs : List Char} (h : ∀ c ∈ cs, isBase62 c = true) :
    (values cs).map digitSymbol = cs := by
  induction cs with
  | nil => rfl
  | cons c cs ih =>
    obtain ⟨d, hd⟩ := Option.isSome_iff_exists.mp
      ((isSome_charToValue c).trans (h c List.mem_cons_self))
    rw [values, List.filterMap_cons_some hd, List.map_cons, (digitSymbol_charToValue hd).2]
    exact congrArg (c :: ·) (ih fun c' hc' => h c' (List.mem_cons_of_mem _ hc'))

theorem length_values {cs : List Char} (h : ∀ c ∈ cs, isBase62 c = true) :
    (values cs).length = cs.length := by
  simpa using congrArg List.length (map_digitSymbol_values h)

/-- From digits to symbols and back. -/
theorem values_map_digitSymbol {ds : List ℕ} (h : ∀ d ∈ ds, d < base) :
    values (ds.map digitSymbol) = ds := by
  induction ds with
  | nil => rfl
  | cons d ds ih =>
    rw [values, List.map_cons, List.filterMap_cons_some
      (charToValue_digitSymbol (h d List.mem_cons_self))]
    exact congrArg (d :: ·) (ih fun d' hd' => h d' (List.mem_cons_of_mem _ hd'))

/-! ## What the two functions compute -/

/-- The loop appends the digits, least-significant first.  The induction follows the recursion of
the loop. -/
theorem divmodLoop_eq (number : ℕ) (digits : List Char) :
    divmodLoop number digits = digits ++ (Nat.digits base number).map digitSymbol := by
  induction number, digits using divmodLoop.induct with
  | case1 number digits hpos ih =>
    rw [divmodLoop, if_pos hpos, ih, Nat.digits_def' one_lt_base hpos, List.map_cons,
      List.append_assoc, List.singleton_append]
  | case2 number digits hzero =>
    obtain rfl : number = 0 := by omega
    rw [divmodLoop, if_neg hzero, Nat.digits_zero, List.map_nil, List.append_nil]

/-- **What the encoder computes.** -/
theorem encodeBase62_natCast (n : ℕ) :
    encodeBase62 n = .ok (String.ofList ((numeral base n).map digitSymbol)) := by
  rw [encodeBase62, if_neg (by omega)]
  by_cases hn : n = 0
  · rw [if_pos (by exact_mod_cast hn), numeral, if_pos hn, List.map_singleton,
      String.singleton_eq_ofList]
  · rw [if_neg (by exact_mod_cast hn), numeral, if_neg hn, Int.toNat_natCast, divmodLoop_eq,
      List.nil_append, List.map_reverse]

/-- The fold of the decoder succeeds on texts over the alphabet only, and folds their digits.  The
induction is on the text. -/
theorem foldlM_decodeChar_eq_ok {cs : List Char} {number n : ℕ} :
    cs.foldlM decodeChar number = .ok n ↔
      (∀ c ∈ cs, isBase62 c = true) ∧ n = (values cs).foldl (fun n d => n * base + d) number := by
  induction cs generalizing number with
  | nil =>
    show Except.ok number = Except.ok n ↔ _
    rw [Except.ok.injEq, eq_comm]
    exact ⟨fun h => ⟨by simp, h⟩, fun h => h.2⟩
  | cons c cs ih =>
    rw [List.foldlM_cons, List.forall_mem_cons]
    cases hvalue : charToValue c with
    | none =>
      have hc : isBase62 c = false := by rw [← isSome_charToValue, hvalue]; rfl
      have hstep : decodeChar number c = .error (.invalidCharacter c) := by
        rw [decodeChar, hvalue]
      rw [hstep, hc]
      exact ⟨fun h => (by cases h), fun h => absurd h.1.1 (by decide)⟩
    | some value =>
      have hc : isBase62 c = true := by rw [← isSome_charToValue, hvalue]; rfl
      have hstep : decodeChar number c = .ok (number * base + value) := by
        rw [decodeChar, hvalue]
      have hvalues : values (c :: cs) = value :: values cs := List.filterMap_cons_some hvalue
      rw [hstep, hvalues, List.foldl_cons]
      exact ih.trans ⟨fun h => ⟨⟨hc, h.1⟩, h.2⟩, fun h => ⟨h.1.2, h.2⟩⟩

/-- **What the decoder computes.** -/
theorem decodeBase62_eq_ok {code : String} {n : ℕ} :
    decodeBase62 code = .ok n ↔
      (code ≠ "" ∧ ∀ c ∈ code.toList, isBase62 c = true) ∧
        n = horner base (values code.toList) := by
  unfold decodeBase62
  by_cases hempty : code = ""
  · rw [if_pos hempty]
    exact ⟨fun h => (by cases h), fun h => absurd hempty h.1.1⟩
  · rw [if_neg hempty, foldlM_decodeChar_eq_ok]
    exact ⟨fun h => ⟨⟨hempty, h.1⟩, h.2⟩, fun h => ⟨h.1.2, h.2⟩⟩

/-! ## Canonical codes -/

/-- The code of a number: not empty, over the alphabet, and without a leading `0` unless it is
`0`. -/
structure IsCanonical (code : String) : Prop where
  nonempty : code ≠ ""
  symbols : ∀ c ∈ code.toList, isBase62 c = true
  leading : code.toList.head? = some '0' → code = "0"

/-- A text without its leading `0` symbols, or `0` if nothing remains. -/
def stripLeadingZeros (code : String) : String := String.ofList (stripZeros '0' code.toList)

theorem isCanonical_iff {code : String} (hcode : ∀ c ∈ code.toList, isBase62 c = true) :
    IsCanonical code ↔ stripLeadingZeros code = code := by
  have hlist : stripLeadingZeros code = code ↔ stripZeros '0' code.toList = code.toList := by
    rw [stripLeadingZeros, ← String.toList_inj, String.toList_ofList]
  rw [hlist, Positional.stripZeros_eq_self_iff]
  constructor
  · rintro ⟨hne, -, hleading⟩
    refine ⟨fun hnil => hne (String.toList_eq_nil_iff.mp hnil), fun hhead => ?_⟩
    rw [hleading hhead]
    rfl
  · rintro ⟨hne, hleading⟩
    refine ⟨fun hempty => hne (String.toList_eq_nil_iff.mpr hempty), hcode, fun hhead => ?_⟩
    rw [← String.toList_inj, hleading hhead]
    rfl

/-- The codec, on numbers and on texts. -/
structure IsCodec : Prop where
  /-- Every number has a code, which is canonical and is read back as the number. -/
  encodes : ∀ n : ℕ, ∃ code, encodeBase62 n = .ok code ∧ IsCanonical code ∧
    decodeBase62 code = .ok n
  /-- Every canonical code is the code of exactly one number. -/
  bijective : ∀ code, IsCanonical code → ∃! n : ℕ, encodeBase62 n = .ok code
  /-- What can be read. -/
  decodes : ∀ code, (∃ n, decodeBase62 code = .ok n) ↔
    code ≠ "" ∧ ∀ c ∈ code.toList, isBase62 c = true
  /-- What was read is written without its leading zeros. -/
  reencodes : ∀ code n, decodeBase62 code = .ok n → encodeBase62 n = .ok (stripLeadingZeros code)
  /-- The canonical codes are those that are written as they were read. -/
  canonical : ∀ code n, decodeBase62 code = .ok n →
    (encodeBase62 n = .ok code ↔ IsCanonical code)
  /-- How long a code is. -/
  length : ∀ (n L : ℕ) code, 1 ≤ L → encodeBase62 n = .ok code →
    (code.length ≤ L ↔ n < 62 ^ L)
  /-- Codes of one length are told apart by their values. -/
  injective : ∀ code code' n, code.length = code'.length → decodeBase62 code = .ok n →
    decodeBase62 code' = .ok n → code = code'

theorem decodeBase62_numeral (n : ℕ) :
    decodeBase62 (String.ofList ((numeral base n).map digitSymbol)) = .ok n := by
  have hlt : ∀ d ∈ numeral base n, d < base := fun _ => Positional.numeral_lt one_lt_base
  rw [decodeBase62_eq_ok, String.toList_ofList, values_map_digitSymbol hlt,
    Positional.horner_numeral]
  refine ⟨⟨fun hempty => ?_, ?_⟩, rfl⟩
  · rw [← String.toList_eq_nil_iff, String.toList_ofList, List.map_eq_nil_iff] at hempty
    exact (Positional.canonical_numeral one_lt_base n).1 hempty
  · intro c hc
    obtain ⟨d, hd, rfl⟩ := List.mem_map.mp hc
    exact isBase62_digitSymbol (hlt d hd)

/-- **What was read is written without its leading zeros.** -/
theorem encodeBase62_of_decode {code : String} {n : ℕ} (h : decodeBase62 code = .ok n) :
    encodeBase62 n = .ok (stripLeadingZeros code) := by
  obtain ⟨⟨-, hsymbols⟩, rfl⟩ := decodeBase62_eq_ok.mp h
  rw [encodeBase62_natCast, Positional.numeral_horner one_lt_base fun _ => values_lt,
    Positional.map_stripZeros digitSymbol_zero, map_digitSymbol_values hsymbols,
    stripLeadingZeros]
  intro d hd hzero
  have hvalue := charToValue_digitSymbol (values_lt hd)
  rw [hzero] at hvalue
  exact Option.some.inj (hvalue.symm.trans (by decide))

theorem encode_eq_iff_isCanonical {code : String} {n : ℕ} (h : decodeBase62 code = .ok n) :
    encodeBase62 n = .ok code ↔ IsCanonical code := by
  rw [encodeBase62_of_decode h, Except.ok.injEq, isCanonical_iff (decodeBase62_eq_ok.mp h).1.2]

theorem exists_decodeBase62_iff {code : String} :
    (∃ n, decodeBase62 code = .ok n) ↔ code ≠ "" ∧ ∀ c ∈ code.toList, isBase62 c = true :=
  ⟨fun ⟨_, h⟩ => (decodeBase62_eq_ok.mp h).1, fun h => ⟨_, decodeBase62_eq_ok.mpr ⟨h, rfl⟩⟩⟩

/-- **The codec is a bijection between the numbers and the canonical codes.** -/
theorem base62_codec : IsCodec where
  encodes := by
    intro n
    have hdecode := decodeBase62_numeral n
    exact ⟨_, encodeBase62_natCast n,
      (encode_eq_iff_isCanonical hdecode).mp (encodeBase62_natCast n), hdecode⟩
  bijective := by
    intro code hcode
    obtain ⟨n, hn⟩ := exists_decodeBase62_iff.mpr ⟨hcode.nonempty, hcode.symbols⟩
    refine ⟨n, (encode_eq_iff_isCanonical hn).mpr hcode, fun n' hn' => ?_⟩
    replace hn' := (encodeBase62_natCast n').symm.trans hn'
    rw [Except.ok.injEq] at hn'
    have hn'' := decodeBase62_numeral n'
    rw [hn', hn, Except.ok.injEq] at hn''
    exact hn''.symm
  decodes := fun _ => exists_decodeBase62_iff
  reencodes := fun _ _ => encodeBase62_of_decode
  canonical := fun _ _ => encode_eq_iff_isCanonical
  length := by
    intro n L code hL hcode
    rw [encodeBase62_natCast, Except.ok.injEq] at hcode
    rw [← hcode, String.length_ofList, List.length_map]
    exact Positional.length_numeral_le_iff one_lt_base hL
  injective := by
    intro code code' n hlength hn hn'
    obtain ⟨⟨-, hsymbols⟩, hvalue⟩ := decodeBase62_eq_ok.mp hn
    obtain ⟨⟨-, hsymbols'⟩, hvalue'⟩ := decodeBase62_eq_ok.mp hn'
    have hvalues : values code.toList = values code'.toList := by
      refine Positional.eq_of_horner_eq one_lt_base ?_ (fun _ => values_lt) (fun _ => values_lt)
        (hvalue.symm.trans hvalue')
      rw [length_values hsymbols, length_values hsymbols', String.length_toList,
        String.length_toList, hlength]
    rw [← String.toList_inj, ← map_digitSymbol_values hsymbols, hvalues,
      map_digitSymbol_values hsymbols']

end UrlShortener
