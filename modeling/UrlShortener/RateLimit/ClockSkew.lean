import UrlShortener.RateLimit.Envelope
import Mathlib

/-!
# The limiter under clock skew

Several instances with skewed clocks, or a clock that is stepped back, hand the script readings
that go up and down.  The script guards the elapsed time against going negative, but it writes the
caller's reading as the time of the last refill in any case.  A reading from the past therefore
moves the stored time back, and the next reading from the present credits the same stretch of
clock time a second time.

## What is proved

* `creditedIntervals_none`: the stretches the script credits are the forward moves of the clock
  from one check to the next, wherever they lie.
* `admitted_le_credited`: whatever the clock does, admissions are paid for by the capacity and the
  credited stretches.  Disjoint stretches inside the span of the readings are no longer than the
  span (`totalLength_le`), so the limit holds when no stretch is crossed forward twice.
* `exists_admitted_ge`: a clock that goes back by a single millisecond again and again makes the
  bucket admit any number of requests, for every capacity and every rate.
* `skewSafe_iff_forwardOnce` puts the two together.
-/

set_option autoImplicit false

namespace UrlShortener
namespace RateLimit

/-! ## What the limit means under skew -/

/-- The largest clock reading minus the smallest. -/
def clockSpan : List ℤ → ℤ
  | [] => 0
  | t :: ts => ts.foldl max t - ts.foldl min t

/-- The stretch of clock time that a check credits to the bucket, if any. -/
def credited (nowMs : ℤ) : Option Bucket → Option (ℤ × ℤ)
  | none => none
  | some b => if 0 < elapsedMs nowMs b.ts then some (b.ts, nowMs) else none

/-- The stretches that a sequence of checks credits. -/
def creditedIntervals (capacity refillPerMinute : ℕ) : Option Bucket → List ℤ → List (ℤ × ℤ)
  | _, [] => []
  | state, nowMs :: rest =>
      (credited nowMs state).toList ++
        creditedIntervals capacity refillPerMinute
          (some (tokenBucket capacity refillPerMinute nowMs 1 state).2) rest

/-- Two stretches share no time. -/
def Apart (i j : ℤ × ℤ) : Prop := i.2 ≤ j.1 ∨ j.2 ≤ i.1

instance (i j : ℤ × ℤ) : Decidable (Apart i j) := by unfold Apart; infer_instance

/-- The number of admissions is within the envelope of the whole span. -/
def WithinEnvelope (capacity refillPerMinute : ℕ) (times : List ℤ) : Prop :=
  (admitted (replies capacity refillPerMinute none times) : ℚ) ≤
    capacity + clockSpan times * refillPerMinute / 60000

/-- No stretch of clock time is credited twice. -/
def NoDoubleCredit (capacity refillPerMinute : ℕ) (times : List ℤ) : Prop :=
  (creditedIntervals capacity refillPerMinute none times).Pairwise Apart

/-- The limit holds under clock skew and reordering. -/
def SkewSafe (capacity refillPerMinute : ℕ) (times : List ℤ) : Prop :=
  WithinEnvelope capacity refillPerMinute times ∧ NoDoubleCredit capacity refillPerMinute times

/-! ## The moves of the clock -/

/-- The forward moves of the clock between consecutive checks. -/
def forwardMoves : List ℤ → List (ℤ × ℤ)
  | [] => []
  | [_] => []
  | a :: b :: rest => (if a < b then [(a, b)] else []) ++ forwardMoves (b :: rest)

/-- No stretch of clock time is crossed forward twice. -/
def ForwardOnce (times : List ℤ) : Prop := (forwardMoves times).Pairwise Apart

/-- The clock never goes back by more than `δ` milliseconds between consecutive checks. -/
def BacksteppedBy (δ : ℕ) (times : List ℤ) : Prop := times.IsChain fun a b : ℤ => a - δ ≤ b

variable (capacity refillPerMinute : ℕ)

theorem creditedIntervals_some (b : Bucket) (times : List ℤ) :
    creditedIntervals capacity refillPerMinute (some b) times = forwardMoves (b.ts :: times) := by
  induction times generalizing b with
  | nil => rfl
  | cons t times ih =>
    rw [creditedIntervals, ih, tokenBucket_ts, forwardMoves]
    congr 1
    rw [credited]
    by_cases h : b.ts < t
    · rw [if_pos h, if_pos (by rw [elapsedMs_of_le h.le]; omega), Option.toList_some]
    · rw [if_neg h, if_neg, Option.toList_none]
      unfold elapsedMs
      split <;> omega

/-- **The script credits the forward moves of the clock.** -/
theorem creditedIntervals_none (times : List ℤ) :
    creditedIntervals capacity refillPerMinute none times = forwardMoves times := by
  cases times with
  | nil => rfl
  | cons t times =>
    rw [creditedIntervals, credited, Option.toList_none, List.nil_append, creditedIntervals_some,
      tokenBucket_ts]

/-! ## Admissions are paid for by credited time -/

/-- The total length of some stretches. -/
def totalLength (is : List (ℤ × ℤ)) : ℤ := (is.map fun i => i.2 - i.1).sum

theorem totalLength_forwardMoves_cons (a b : ℤ) (rest : List ℤ) :
    totalLength (forwardMoves (a :: b :: rest)) =
      elapsedMs b a + totalLength (forwardMoves (b :: rest)) := by
  rw [forwardMoves, totalLength, List.map_append, List.sum_append]
  congr 1
  by_cases h : a < b
  · rw [if_pos h, elapsedMs_of_le h.le]
    simp
  · rw [if_neg h]
    unfold elapsedMs
    split
    · simp
    · simp only [List.map_nil, List.sum_nil]
      omega

/-- A bucket with non-negative tokens admits at most its tokens plus the refill of the credited
stretches.  The induction is on the checks; what is admitted is taken out of the bucket, and the
clamp only loses. -/
theorem admitted_le_tokens_add {b : Bucket} (hb : 0 ≤ b.tokens) (times : List ℤ) :
    (admitted (replies capacity refillPerMinute (some b) times) : ℚ) ≤
      b.tokens + totalLength (forwardMoves (b.ts :: times)) * ratePerMs refillPerMinute := by
  induction times generalizing b with
  | nil => simpa [replies, admitted, forwardMoves, totalLength] using hb
  | cons t times ih =>
    have htokens := tokenBucket_tokens capacity refillPerMinute t 1 (some b)
    have hallowed := tokenBucket_allowed capacity refillPerMinute t 1 (some b)
    have hrefilled : refilled capacity refillPerMinute t (some b) ≤
        b.tokens + elapsedMs t b.ts * ratePerMs refillPerMinute := by
      rw [refilled_some]
      exact min_le_right _ _
    have hrest := ih (tokenBucket_tokens_nonneg capacity refillPerMinute t 1 (some b)
      (by simpa using hb))
    rw [tokenBucket_ts] at hrest
    have hcount : (admitted (replies capacity refillPerMinute (some b) (t :: times)) : ℚ) =
        (if 1 ≤ refilled capacity refillPerMinute t (some b) then 1 else 0) +
          admitted (replies capacity refillPerMinute
            (some (tokenBucket capacity refillPerMinute t 1 (some b)).2) times) := by
      rw [replies, admitted, List.countP_cons, hallowed, ← admitted]
      by_cases h : 1 ≤ refilled capacity refillPerMinute t (some b) <;> simp [h, add_comm]
    rw [hcount, totalLength_forwardMoves_cons]
    push_cast
    rw [htokens] at hrest
    linarith

/-- **Whatever the clock does, admissions are paid for** by the capacity and the stretches of
clock time the checks credit. -/
theorem admitted_le_credited (times : List ℤ) :
    (admitted (replies capacity refillPerMinute none times) : ℚ) ≤
      capacity + totalLength (forwardMoves times) * ratePerMs refillPerMinute := by
  cases times with
  | nil => simp [replies, admitted, forwardMoves, totalLength]
  | cons t times =>
    have hfull : refilled capacity refillPerMinute t none =
        refilled capacity refillPerMinute t (some ⟨capacity, t⟩) := by
      simp [refilled_some]
    have hcold : replies capacity refillPerMinute none (t :: times) =
        replies capacity refillPerMinute (some ⟨capacity, t⟩) (t :: times) := by
      rw [replies, replies, tokenBucket_congr capacity refillPerMinute t 1 hfull]
    have h := admitted_le_tokens_add capacity refillPerMinute (b := ⟨capacity, t⟩)
      (by positivity) (t :: times)
    rw [hcold]
    rwa [totalLength_forwardMoves_cons, elapsedMs_self, zero_add] at h

/-! ## Disjoint stretches fit into the span -/

/-- The milliseconds that some stretches cover. -/
noncomputable def covered (is : List (ℤ × ℤ)) : Finset ℤ :=
  is.foldr (fun i s => Finset.Ico i.1 i.2 ∪ s) ∅

theorem mem_covered {is : List (ℤ × ℤ)} {x : ℤ} :
    x ∈ covered is ↔ ∃ i ∈ is, i.1 ≤ x ∧ x < i.2 := by
  induction is with
  | nil => simp [covered]
  | cons i is ih =>
    rw [covered, List.foldr_cons, ← covered, Finset.mem_union, Finset.mem_Ico, ih]
    simp

/-- Stretches that share no time cover as many milliseconds as they are long. -/
theorem card_covered {is : List (ℤ × ℤ)} (hapart : is.Pairwise Apart)
    (hpos : ∀ i ∈ is, i.1 ≤ i.2) : ((covered is).card : ℤ) = totalLength is := by
  induction is with
  | nil => rfl
  | cons i is ih =>
    rw [List.pairwise_cons] at hapart
    have hdisjoint : Disjoint (Finset.Ico i.1 i.2) (covered is) := by
      rw [Finset.disjoint_left]
      intro x hx hx'
      obtain ⟨j, hj, hjx⟩ := mem_covered.mp hx'
      rw [Finset.mem_Ico] at hx
      rcases hapart.1 j hj with h | h <;> omega
    rw [covered, List.foldr_cons, ← covered, Finset.card_union_of_disjoint hdisjoint,
      Int.card_Ico, Nat.cast_add, ih hapart.2 fun j hj => hpos j (List.mem_cons_of_mem _ hj)]
    have hi := hpos i List.mem_cons_self
    rw [totalLength, totalLength, List.map_cons, List.sum_cons, Int.toNat_of_nonneg (by omega)]

/-- **Disjoint stretches inside an interval are together no longer than it.** -/
theorem totalLength_le {is : List (ℤ × ℤ)} {lo hi : ℤ} (hle : lo ≤ hi)
    (hapart : is.Pairwise Apart) (hpos : ∀ i ∈ is, i.1 ≤ i.2)
    (hin : ∀ i ∈ is, lo ≤ i.1 ∧ i.2 ≤ hi) : totalLength is ≤ hi - lo := by
  have hsub : covered is ⊆ Finset.Ico lo hi := by
    intro x hx
    obtain ⟨i, hi', hix⟩ := mem_covered.mp hx
    have := hin i hi'
    rw [Finset.mem_Ico]
    omega
  have hcard := Finset.card_le_card hsub
  rw [Int.card_Ico] at hcard
  rw [← card_covered hapart hpos]
  omega

/-- A forward move goes from one reading to a later one. -/
theorem of_mem_forwardMoves {times : List ℤ} {i : ℤ × ℤ} (h : i ∈ forwardMoves times) :
    i.1 < i.2 ∧ i.1 ∈ times ∧ i.2 ∈ times := by
  induction times with
  | nil => simp [forwardMoves] at h
  | cons a times ih =>
    cases times with
    | nil => simp [forwardMoves] at h
    | cons b rest =>
      rw [forwardMoves, List.mem_append] at h
      rcases h with h | h
      · by_cases hab : a < b
        · rw [if_pos hab, List.mem_singleton] at h
          rw [h]
          exact ⟨hab, by simp, by simp⟩
        · rw [if_neg hab] at h
          simp at h
      · obtain ⟨hlt, h1, h2⟩ := ih h
        exact ⟨hlt, List.mem_cons_of_mem _ h1, List.mem_cons_of_mem _ h2⟩

theorem le_foldl_max (ts : List ℤ) (t : ℤ) : t ≤ ts.foldl max t ∧ ∀ x ∈ ts, x ≤ ts.foldl max t := by
  induction ts generalizing t with
  | nil => simp
  | cons a ts ih =>
    obtain ⟨hstart, hrest⟩ := ih (max t a)
    rw [List.foldl_cons]
    refine ⟨(le_max_left _ _).trans hstart, fun x hx => ?_⟩
    rcases List.mem_cons.mp hx with rfl | hx
    · exact (le_max_right _ _).trans hstart
    · exact hrest x hx

theorem foldl_min_le (ts : List ℤ) (t : ℤ) : ts.foldl min t ≤ t ∧ ∀ x ∈ ts, ts.foldl min t ≤ x := by
  induction ts generalizing t with
  | nil => simp
  | cons a ts ih =>
    obtain ⟨hstart, hrest⟩ := ih (min t a)
    rw [List.foldl_cons]
    refine ⟨hstart.trans (min_le_left _ _), fun x hx => ?_⟩
    rcases List.mem_cons.mp hx with rfl | hx
    · exact hstart.trans (min_le_right _ _)
    · exact hrest x hx

/-- When the forward moves are disjoint, they are no longer than the span of the readings. -/
theorem totalLength_forwardMoves_le {times : List ℤ} (h : ForwardOnce times) :
    totalLength (forwardMoves times) ≤ clockSpan times := by
  cases times with
  | nil => simp [forwardMoves, totalLength, clockSpan]
  | cons t ts =>
    obtain ⟨hmax, hmax'⟩ := le_foldl_max ts t
    obtain ⟨hmin, hmin'⟩ := foldl_min_le ts t
    have hupper : ∀ x ∈ t :: ts, x ≤ ts.foldl max t := by
      intro x hx
      rcases List.mem_cons.mp hx with rfl | hx
      · exact hmax
      · exact hmax' x hx
    have hlower : ∀ x ∈ t :: ts, ts.foldl min t ≤ x := by
      intro x hx
      rcases List.mem_cons.mp hx with rfl | hx
      · exact hmin
      · exact hmin' x hx
    refine totalLength_le (hmin.trans hmax) h (fun i hi => (of_mem_forwardMoves hi).1.le) ?_
    intro i hi
    obtain ⟨-, h1, h2⟩ := of_mem_forwardMoves hi
    exact ⟨hlower _ h1, hupper _ h2⟩

/-! ## A clock that swings back and forth -/

/-- `n` swings of one millisecond forward and back. -/
def swings (n : ℕ) : List ℤ := (List.replicate n [1, 0]).flatten

theorem swings_succ (n : ℕ) : swings (n + 1) = 1 :: 0 :: swings n := by
  simp [swings, List.replicate_succ]

theorem swings_add (m n : ℕ) : swings (m + n) = swings m ++ swings n := by
  rw [swings, List.replicate_add, List.flatten_append]
  rfl

variable {capacity refillPerMinute}

theorem stateAfter_swings_ts (capacity refillPerMinute : ℕ) {b : Bucket} (hb : b.ts = 0)
    (hnonneg : 0 ≤ b.tokens) (n : ℕ) :
    ∃ b', stateAfter capacity refillPerMinute (some b) (swings n) = some b' ∧ b'.ts = 0 ∧
      0 ≤ b'.tokens := by
  induction n generalizing b with
  | zero => exact ⟨b, rfl, hb, hnonneg⟩
  | succ n ih =>
    rw [swings_succ, stateAfter, stateAfter]
    refine ih (tokenBucket_ts ..) (tokenBucket_tokens_nonneg _ _ _ _ _ ?_)
    intro b' hb'
    obtain rfl : _ = b' := by simpa using hb'
    exact tokenBucket_tokens_nonneg _ _ _ _ _ (by simpa using hnonneg)

/-- A swing that admits nothing leaves the refill of one millisecond behind: both its checks are
rejected, and the second one moves the stored time back. -/
theorem swing_of_rejected (hC : 1 ≤ capacity) {b : Bucket} (hb : b.ts = 0)
    (hroom : ¬ 1 ≤ refilled capacity refillPerMinute 1 (some b)) :
    b.tokens + ratePerMs refillPerMinute < 1 ∧
      (tokenBucket capacity refillPerMinute 0 1
        (some (tokenBucket capacity refillPerMinute 1 1 (some b)).2)).2 =
          ⟨b.tokens + ratePerMs refillPerMinute, 0⟩ := by
  have hC' : (1 : ℚ) ≤ capacity := by exact_mod_cast hC
  have hfirst : refilled capacity refillPerMinute 1 (some b) =
      min (capacity : ℚ) (b.tokens + ratePerMs refillPerMinute) := by
    rw [refilled_some, hb]
    simp [elapsedMs]
  have hlt : b.tokens + ratePerMs refillPerMinute < 1 := by
    rw [hfirst, le_min_iff, not_and] at hroom
    exact not_le.mp (hroom hC')
  have hmin : min (capacity : ℚ) (b.tokens + ratePerMs refillPerMinute) =
      b.tokens + ratePerMs refillPerMinute := min_eq_right (by linarith)
  have hsecond : refilled capacity refillPerMinute 0
      (some ⟨b.tokens + ratePerMs refillPerMinute, 1⟩) =
        b.tokens + ratePerMs refillPerMinute := by
    rw [refilled_some, elapsedMs_of_lt Int.one_pos]
    simpa using hmin
  refine ⟨hlt, ?_⟩
  rw [tokenBucket_snd_of_lt hroom, hfirst, hmin,
    tokenBucket_snd_of_lt (by rw [hsecond]; linarith), hsecond]

/-- Swinging long enough admits one request.  The induction is on a number of swings that would
refill a token. -/
theorem exists_admitted_one (hC : 1 ≤ capacity) (m : ℕ) {b : Bucket} (hb : b.ts = 0)
    (hm : 1 ≤ b.tokens + m * ratePerMs refillPerMinute) :
    ∃ n, 1 ≤ admitted (replies capacity refillPerMinute (some b) (swings n)) := by
  induction m generalizing b with
  | zero =>
    refine ⟨1, ?_⟩
    have hrate := ratePerMs_nonneg refillPerMinute
    have hroom : 1 ≤ refilled capacity refillPerMinute 1 (some b) := by
      by_contra hroom
      have hlt := (swing_of_rejected hC hb hroom).1
      simp only [Nat.cast_zero, zero_mul, add_zero] at hm
      linarith
    rw [swings_succ, replies, admitted, List.countP_cons_of_pos]
    · omega
    · rw [tokenBucket_allowed, decide_eq_true hroom]
  | succ m ih =>
    by_cases hroom : 1 ≤ refilled capacity refillPerMinute 1 (some b)
    · refine ⟨1, ?_⟩
      rw [swings_succ, replies, admitted, List.countP_cons_of_pos]
      · omega
      · rw [tokenBucket_allowed, decide_eq_true hroom]
    · obtain ⟨-, hstate⟩ := swing_of_rejected hC hb hroom
      push_cast at hm
      obtain ⟨n, hn⟩ := ih (b := ⟨b.tokens + ratePerMs refillPerMinute, 0⟩) rfl (by linarith)
      refine ⟨n + 1, hn.trans ?_⟩
      rw [swings_succ, replies, replies, hstate, admitted, admitted, List.countP_cons,
        List.countP_cons]
      omega

/-- **Swinging admits any number of requests.** -/
theorem exists_admitted_ge (hC : 1 ≤ capacity) (hR : 1 ≤ refillPerMinute) (count : ℕ) {b : Bucket}
    (hb : b.ts = 0) (hnonneg : 0 ≤ b.tokens) :
    ∃ n, count ≤ admitted (replies capacity refillPerMinute (some b) (swings n)) := by
  induction count with
  | zero => exact ⟨0, Nat.zero_le _⟩
  | succ count ih =>
    obtain ⟨n, hn⟩ := ih
    obtain ⟨b', hstate, hb', hnonneg'⟩ :=
      stateAfter_swings_ts capacity refillPerMinute hb hnonneg n
    obtain ⟨m, hm⟩ := Archimedean.arch (1 : ℚ) (ratePerMs_pos hR)
    rw [nsmul_eq_mul] at hm
    obtain ⟨n', hn'⟩ := exists_admitted_one hC m hb' (by linarith)
    refine ⟨n + n', ?_⟩
    rw [swings_add, replies_append, hstate, admitted, List.countP_append]
    exact Nat.add_le_add hn hn'

theorem isChain_zero_cons_swings (n : ℕ) {δ : ℕ} (hδ : 1 ≤ δ) :
    BacksteppedBy δ (0 :: swings n) := by
  unfold BacksteppedBy
  induction n with
  | zero => exact List.isChain_singleton _
  | succ n ih =>
    rw [swings_succ]
    exact List.IsChain.cons_cons (by omega) (List.IsChain.cons_cons (by omega) ih)

theorem foldl_max_swings_le (n : ℕ) {t : ℤ} (ht : t ≤ 1) : (swings n).foldl max t ≤ 1 := by
  induction n generalizing t with
  | zero => exact ht
  | succ n ih =>
    rw [swings_succ, List.foldl_cons, List.foldl_cons]
    exact ih (by omega)

theorem foldl_min_swings_nonneg (n : ℕ) {t : ℤ} (ht : 0 ≤ t) : 0 ≤ (swings n).foldl min t := by
  induction n generalizing t with
  | zero => exact ht
  | succ n ih =>
    rw [swings_succ, List.foldl_cons, List.foldl_cons]
    exact ih (by omega)

theorem clockSpan_zero_cons_swings (n : ℕ) : clockSpan (0 :: swings n) ≤ 1 := by
  have hmax : (swings n).foldl max 0 ≤ 1 := foldl_max_swings_le n (by omega)
  have hmin : 0 ≤ (swings n).foldl min 0 := foldl_min_swings_nonneg n (by omega)
  rw [clockSpan]
  omega

/-! ## When the limit holds -/

/-- A clock that does not go back crosses no stretch twice. -/
theorem forwardOnce_of_isChain {times : List ℤ} (h : BacksteppedBy 0 times) :
    ForwardOnce times := by
  have hpair : times.Pairwise (· ≤ ·) := by
    rw [← List.isChain_iff_pairwise]
    exact h.imp fun a b hab => by simpa using hab
  clear h
  unfold ForwardOnce
  induction times with
  | nil => exact List.Pairwise.nil
  | cons a times ih =>
    cases times with
    | nil => exact List.Pairwise.nil
    | cons b rest =>
      rw [List.pairwise_cons] at hpair
      rw [forwardMoves]
      by_cases hab : a < b
      · rw [if_pos hab, List.singleton_append, List.pairwise_cons]
        refine ⟨fun i hi => Or.inl ?_, ih hpair.2⟩
        obtain ⟨-, hmem, -⟩ := of_mem_forwardMoves hi
        rcases List.mem_cons.mp hmem with h | h
        · exact h.ge
        · exact (List.pairwise_cons.mp hpair.2).1 _ h
      · rw [if_neg hab, List.nil_append]
        exact ih hpair.2

/-- **When the limit holds under skew.**  For a given sequence of clock readings, the count stays
within the envelope of the span and no stretch of clock time is credited twice exactly when no
stretch is crossed forward twice.  A clock that never goes back between consecutive checks is of
that kind; and no tolerance can be granted: as soon as the clock may go back by one millisecond,
some sequence of readings breaks the count itself, whatever the capacity and the rate. -/
theorem skewSafe_iff_forwardOnce (capacity refillPerMinute : ℕ) (hC : 1 ≤ capacity)
    (hR : 1 ≤ refillPerMinute) :
    (∀ times, SkewSafe capacity refillPerMinute times ↔ ForwardOnce times) ∧
    ∀ δ : ℕ, (∀ times, BacksteppedBy δ times →
      WithinEnvelope capacity refillPerMinute times) ↔ δ = 0 := by
  have hsafe : ∀ times, SkewSafe capacity refillPerMinute times ↔ ForwardOnce times := by
    intro times
    unfold SkewSafe NoDoubleCredit
    rw [creditedIntervals_none]
    refine ⟨fun h => h.2, fun h => ⟨?_, h⟩⟩
    have hcount := admitted_le_credited capacity refillPerMinute times
    have hspan : (totalLength (forwardMoves times) : ℚ) ≤ clockSpan times := by
      exact_mod_cast totalLength_forwardMoves_le h
    unfold WithinEnvelope
    calc (admitted (replies capacity refillPerMinute none times) : ℚ)
        ≤ capacity + totalLength (forwardMoves times) * ratePerMs refillPerMinute := hcount
      _ ≤ capacity + clockSpan times * ratePerMs refillPerMinute := by
          have := ratePerMs_nonneg refillPerMinute
          gcongr
      _ = capacity + clockSpan times * refillPerMinute / 60000 := by
          rw [ratePerMs]
          ring
  refine ⟨hsafe, fun δ => ⟨fun h => ?_, ?_⟩⟩
  · by_contra hδ
    -- more swings than the envelope of one millisecond has room for
    obtain ⟨count, hcount⟩ := exists_nat_gt ((capacity : ℚ) + refillPerMinute / 60000)
    have hstart : (tokenBucket capacity refillPerMinute 0 1 none).2.ts = 0 := tokenBucket_ts ..
    obtain ⟨n, hn⟩ := exists_admitted_ge hC hR count hstart
      (tokenBucket_tokens_nonneg _ _ _ _ _ (by simp))
    have hwithin := h (0 :: swings n) (isChain_zero_cons_swings n (by omega))
    have hspan : (clockSpan (0 :: swings n) : ℚ) ≤ 1 := by
      exact_mod_cast clockSpan_zero_cons_swings n
    have hcost : (clockSpan (0 :: swings n) : ℚ) * refillPerMinute / 60000 ≤
        refillPerMinute / 60000 := by
      have : (0 : ℚ) ≤ refillPerMinute / 60000 := by positivity
      calc (clockSpan (0 :: swings n) : ℚ) * refillPerMinute / 60000
          = clockSpan (0 :: swings n) * (refillPerMinute / 60000) := by ring
        _ ≤ 1 * (refillPerMinute / 60000) := by gcongr
        _ = refillPerMinute / 60000 := one_mul _
    have hmany : (count : ℚ) ≤
        admitted (replies capacity refillPerMinute none (0 :: swings n)) := by
      rw [replies, admitted, List.countP_cons, ← admitted]
      exact_mod_cast hn.trans (Nat.le_add_right _ _)
    unfold WithinEnvelope at hwithin
    linarith
  · rintro rfl times htimes
    exact ((hsafe times).mpr (forwardOnce_of_isChain htimes)).1

/-- The instance for one token a second, with the readings of two instances one second apart. -/
theorem skewSafe_iff_forwardOnce_two_instances :
    (∀ times, SkewSafe 1 60 times ↔ ForwardOnce times) ∧
    ∀ δ : ℕ, (∀ times, BacksteppedBy δ times → WithinEnvelope 1 60 times) ↔ δ = 0 :=
  skewSafe_iff_forwardOnce 1 60 (by decide) (by decide)

/-- **The limit does not hold under skew.**  With one token a second, five alternating readings of
two clocks one second apart admit three requests where the envelope of the second allows two. -/
theorem not_skewSafe :
    ¬ ∀ capacity refillPerMinute : ℕ, 1 ≤ capacity → 1 ≤ refillPerMinute →
      ∀ times, SkewSafe capacity refillPerMinute times := by
  intro h
  have hwithin : WithinEnvelope 1 60 [1000, 0, 1000, 0, 1000] :=
    (h 1 60 (by decide) (by decide) _).1
  have hcount : admitted (replies 1 60 none [1000, 0, 1000, 0, 1000]) = 3 := by decide +kernel
  have hspan : clockSpan [1000, 0, 1000, 0, 1000] = 1000 := by decide
  unfold WithinEnvelope at hwithin
  rw [hcount, hspan] at hwithin
  norm_num at hwithin

end RateLimit
end UrlShortener
