import UrlShortener.RateLimit.Expiry
import UrlShortener.Library.Trace

/-!
# A limiter for one client

One client on one route class has one bucket.  What can happen to it is a check, which may lose its
call or its reply on the way, and the loss of the key.  A lost call leaves the bucket alone, a lost
reply does not: the script has run and taken its token.  Both let the request through.

## What is proved

Nothing is assumed of the clocks, the faults or the losses.

* `Sound.passed_le_capacity_add` is the upper bound.  The credit of a bucket between two checks is
  at most the refill of the larger of the two advances, that of the Redis clock and that of the
  readings: a live bucket is refilled by the readings, and a bucket whose key has expired was away
  for at least the time of a full refill on the Redis clock.  The argument is the usual one with a
  potential, the level of the bucket.
* `passed_verdicts` is the lower bound: a check is rejected only after the capacity has been given
  to checks of the same client.
* `verdicts_eq_replies` leads back to the limiter whose key never expires.
-/

set_option autoImplicit false

namespace UrlShortener
namespace RateLimit

/-- A bucket in Redis, with the deadline of its key. -/
structure Stored where
  bucket : Bucket
  deadline : ℤ
  deriving DecidableEq

/-- The bucket a script finds. -/
def found (redisAt : ℤ) (stored : Option Stored) : Option Bucket :=
  stored.bind fun s => if redisAt < s.deadline then some s.bucket else none

/-- What happens to one bucket. -/
inductive BucketEvent where
  /-- A check, and how its Redis call fails. -/
  | check : TimedCheck → Fault → BucketEvent
  /-- Redis loses the key. -/
  | lost : BucketEvent
  deriving DecidableEq

variable (capacity refillPerMinute : ℕ)

/-- The script on the stored bucket. -/
def runScript (stored : Option Stored) (c : TimedCheck) : ScriptReply × Bucket :=
  tokenBucket capacity refillPerMinute c.nowMs 1 (found c.redisAt stored)

/-- What the script leaves behind. -/
def afterScript (stored : Option Stored) (c : TimedCheck) : Stored where
  bucket := (runScript capacity refillPerMinute stored c).2
  deadline := c.redisAt + ttlMs capacity refillPerMinute

namespace BucketEvent

/-- The stored bucket after an event. -/
def apply (stored : Option Stored) : BucketEvent → Option Stored
  | .check c .none => some (afterScript capacity refillPerMinute stored c)
  | .check c .lostReply => some (afterScript capacity refillPerMinute stored c)
  | .check _ .lostCall => stored
  | .lost => none

/-- What the check returns. -/
def verdict (stored : Option Stored) : BucketEvent → List RateLimitResult
  | .check c .none =>
      [(RateLimiter.decodeReply (.ok (runScript capacity refillPerMinute stored c).1)).1]
  | .check _ .lostReply => [(RateLimiter.decodeReply (.error .unavailable)).1]
  | .check _ .lostCall => [(RateLimiter.decodeReply (.error .unavailable)).1]
  | .lost => []

/-- The check that Redis executes, if there is one. -/
def executed? : BucketEvent → Option TimedCheck
  | .check c .none => some c
  | .check c .lostReply => some c
  | .check _ .lostCall => none
  | .lost => none

/-- The tokens an event takes. -/
def takes (stored : Option Stored) (e : BucketEvent) : ℕ :=
  e.executed?.elim 0 fun c =>
    if (runScript capacity refillPerMinute stored c).1.allowed then 1 else 0

/-- A check whose Redis call fails. -/
def isFailure : BucketEvent → Bool
  | .check _ fault => fault != .none
  | .lost => false

end BucketEvent

/-- The stored bucket after some events. -/
def storedAfter (stored : Option Stored) (events : List BucketEvent) : Option Stored :=
  Run.exec (BucketEvent.apply capacity refillPerMinute) stored events

/-- What the checks among some events return. -/
def verdicts (stored : Option Stored) (events : List BucketEvent) : List RateLimitResult :=
  Run.trace (BucketEvent.apply capacity refillPerMinute)
    (BucketEvent.verdict capacity refillPerMinute) stored events

/-- The tokens that some events take. -/
def taken (stored : Option Stored) (events : List BucketEvent) : ℕ :=
  Run.total (BucketEvent.apply capacity refillPerMinute)
    (BucketEvent.takes capacity refillPerMinute) stored events

theorem storedAfter_cons (stored : Option Stored) (e : BucketEvent) (events : List BucketEvent) :
    storedAfter capacity refillPerMinute stored (e :: events) =
      storedAfter capacity refillPerMinute (e.apply capacity refillPerMinute stored) events := rfl

theorem verdicts_cons (stored : Option Stored) (e : BucketEvent) (events : List BucketEvent) :
    verdicts capacity refillPerMinute stored (e :: events) =
      e.verdict capacity refillPerMinute stored ++
        verdicts capacity refillPerMinute (e.apply capacity refillPerMinute stored) events := rfl

theorem taken_cons (stored : Option Stored) (e : BucketEvent) (events : List BucketEvent) :
    taken capacity refillPerMinute stored (e :: events) =
      e.takes capacity refillPerMinute stored +
        taken capacity refillPerMinute (e.apply capacity refillPerMinute stored) events := rfl

/-- How many checks let their request through. -/
def passed (results : List RateLimitResult) : ℕ := results.countP (·.allowed)

/-- The checks among some events that Redis executes. -/
def executed (events : List BucketEvent) : List TimedCheck :=
  events.filterMap (·.executed?)

/-- The larger of the two advances between two checks, that of the Redis clock and that of the
readings. -/
def advance (c c' : TimedCheck) : ℤ := max 0 (max (c'.redisAt - c.redisAt) (c'.nowMs - c.nowMs))

/-- The advances between consecutive checks. -/
def advances : List TimedCheck → ℤ
  | [] => 0
  | [_] => 0
  | c :: c' :: rest => advance c c' + advances (c' :: rest)

theorem advance_nonneg (c c' : TimedCheck) : 0 ≤ advance c c' := le_max_left _ _

theorem le_advance (c c' : TimedCheck) :
    c'.redisAt - c.redisAt ≤ advance c c' ∧ elapsedMs c'.nowMs c.nowMs ≤ advance c c' := by
  unfold advance elapsedMs
  split <;> omega

theorem advances_nonneg (checks : List TimedCheck) : 0 ≤ advances checks := by
  induction checks with
  | nil => exact le_rfl
  | cons c checks ih =>
    cases checks with
    | nil => exact le_rfl
    | cons c' rest => exact add_nonneg (advance_nonneg c c') ih

theorem advances_append (checks : List TimedCheck) (c : TimedCheck) (rest : List TimedCheck) :
    advances (checks ++ c :: rest) = advances (checks ++ [c]) + advances (c :: rest) := by
  induction checks with
  | nil => exact (zero_add _).symm
  | cons c₀ checks ih =>
    cases checks with
    | nil =>
      show advance c₀ c + advances (c :: rest) = advance c₀ c + 0 + advances (c :: rest)
      rw [add_zero]
    | cons c₁ checks =>
      show advance c₀ c₁ + advances (c₁ :: checks ++ c :: rest) =
        advance c₀ c₁ + advances (c₁ :: checks ++ [c]) + advances (c :: rest)
      rw [ih, add_assoc]

theorem advances_le_cons (c : TimedCheck) (checks : List TimedCheck) :
    advances checks ≤ advances (c :: checks) := by
  cases checks with
  | nil => exact le_rfl
  | cons c' rest => exact le_add_of_nonneg_left (advance_nonneg c c')

/-! ## The level of a bucket -/

/-- The level of a bucket: its tokens, or the capacity when there is none. -/
def level (stored : Option Stored) : ℚ := stored.elim capacity (·.bucket.tokens)

/-- The check that wrote the bucket. -/
def lastCheck (stored : Option Stored) : List TimedCheck :=
  stored.elim [] fun s => [⟨s.deadline - ttlMs capacity refillPerMinute, s.bucket.ts⟩]

/-- The tokens of a stored bucket lie between zero and the capacity. -/
def Sound (stored : Option Stored) : Prop :=
  ∀ s ∈ stored, 0 ≤ s.bucket.tokens ∧ s.bucket.tokens ≤ capacity

theorem sound_none : Sound capacity none := by
  intro s hs
  cases hs

variable {capacity refillPerMinute}

theorem Sound.level_nonneg {stored : Option Stored} (h : Sound capacity stored) :
    0 ≤ level capacity stored := by
  cases stored with
  | none => exact Nat.cast_nonneg capacity
  | some s => exact (h s rfl).1

theorem Sound.level_le {stored : Option Stored} (h : Sound capacity stored) :
    level capacity stored ≤ capacity := by
  cases stored with
  | none => exact le_rfl
  | some s => exact (h s rfl).2

theorem Sound.found_nonneg {stored : Option Stored} (h : Sound capacity stored) (redisAt : ℤ) :
    ∀ b ∈ found redisAt stored, 0 ≤ b.tokens := by
  intro b hb
  cases stored with
  | none => cases hb
  | some s =>
    by_cases hlive : redisAt < s.deadline
    · rw [found, Option.bind_some, if_pos hlive, Option.mem_some_iff] at hb
      exact hb ▸ (h s rfl).1
    · rw [found, Option.bind_some, if_neg hlive] at hb
      cases hb

/-- What the script leaves and what it takes make up the refilled bucket. -/
theorem tokens_afterScript (capacity refillPerMinute : ℕ) (stored : Option Stored)
    (c : TimedCheck) :
    (afterScript capacity refillPerMinute stored c).bucket.tokens +
        (if (runScript capacity refillPerMinute stored c).1.allowed then 1 else 0) =
      refilled capacity refillPerMinute c.nowMs (found c.redisAt stored) := by
  rw [afterScript, runScript, tokenBucket_tokens, tokenBucket_allowed]
  by_cases hroom : 1 ≤ refilled capacity refillPerMinute c.nowMs (found c.redisAt stored)
  · simp [hroom]
  · simp [hroom]

theorem Sound.script {stored : Option Stored} (h : Sound capacity stored) (c : TimedCheck) :
    Sound capacity (some (afterScript capacity refillPerMinute stored c)) := by
  intro s hs
  obtain rfl := Option.some.inj hs
  refine ⟨tokenBucket_tokens_nonneg _ _ _ _ _ (h.found_nonneg c.redisAt), ?_⟩
  have hsum := tokens_afterScript capacity refillPerMinute stored c
  have hle := refilled_le capacity refillPerMinute c.nowMs (found c.redisAt stored)
  split at hsum <;> linarith

theorem Sound.apply {stored : Option Stored} (h : Sound capacity stored) (e : BucketEvent) :
    Sound capacity (e.apply capacity refillPerMinute stored) := by
  cases e with
  | check c fault =>
    cases fault with
    | none => exact h.script c
    | lostReply => exact h.script c
    | lostCall => exact h
  | lost => exact sound_none capacity

theorem Sound.after {stored : Option Stored} (h : Sound capacity stored)
    (events : List BucketEvent) :
    Sound capacity (storedAfter capacity refillPerMinute stored events) :=
  Run.exec_invariant _ h (fun _ e h => h.apply e) events

/-- The refill never lowers the level. -/
theorem Sound.level_le_refilled {stored : Option Stored} (h : Sound capacity stored)
    (refillPerMinute : ℕ) (c : TimedCheck) :
    level capacity stored ≤
      refilled capacity refillPerMinute c.nowMs (found c.redisAt stored) := by
  cases stored with
  | none =>
    rw [found, Option.bind_none, refilled_none]
    exact le_rfl
  | some s =>
    have hle := (h s rfl).2
    by_cases hlive : c.redisAt < s.deadline
    · rw [found, Option.bind_some, if_pos hlive, refilled_some]
      have helapsed : (0 : ℚ) ≤ elapsedMs c.nowMs s.bucket.ts := by
        exact_mod_cast elapsedMs_nonneg _ _
      have hrate := ratePerMs_nonneg refillPerMinute
      exact le_min hle (le_add_of_nonneg_right (mul_nonneg helapsed hrate))
    · rw [found, Option.bind_some, if_neg hlive, refilled_none]
      exact hle

/-- A full bucket is paid for by the time to live. -/
theorem capacity_le_of_ttlMs_le (hR : 1 ≤ refillPerMinute) {elapsed : ℤ}
    (h : ttlMs capacity refillPerMinute ≤ elapsed) :
    (capacity : ℚ) ≤ elapsed * ratePerMs refillPerMinute := by
  have hceil : ⌈(capacity : ℚ) / ratePerMs refillPerMinute⌉ ≤ elapsed := by
    unfold ttlMs at h
    omega
  exact (div_le_iff₀ (ratePerMs_pos hR)).mp (Int.ceil_le.mp hceil)

/-- **The refill of a bucket is paid for by the advance of one of the clocks.**  A live bucket is
refilled by the readings; an expired one was away for a full refill of Redis time. -/
theorem Sound.refilled_le_level_add {stored : Option Stored} (h : Sound capacity stored)
    (hR : 1 ≤ refillPerMinute) (c : TimedCheck) :
    refilled capacity refillPerMinute c.nowMs (found c.redisAt stored) ≤
      level capacity stored +
        advances (lastCheck capacity refillPerMinute stored ++ [c]) *
          ratePerMs refillPerMinute := by
  have hrate := ratePerMs_nonneg refillPerMinute
  cases stored with
  | none =>
    rw [found, Option.bind_none, refilled_none]
    simp [level, lastCheck, advances]
  | some s =>
    obtain ⟨hnonneg, -⟩ := h s rfl
    obtain ⟨hredis, hreadings⟩ :=
      le_advance ⟨s.deadline - ttlMs capacity refillPerMinute, s.bucket.ts⟩ c
    have hadvances : advances (lastCheck capacity refillPerMinute (some s) ++ [c]) =
        advance ⟨s.deadline - ttlMs capacity refillPerMinute, s.bucket.ts⟩ c := add_zero _
    rw [hadvances]
    by_cases hlive : c.redisAt < s.deadline
    · rw [found, Option.bind_some, if_pos hlive, refilled_some]
      have hcredit : ((elapsedMs c.nowMs s.bucket.ts : ℤ) : ℚ) * ratePerMs refillPerMinute ≤
          advance ⟨s.deadline - ttlMs capacity refillPerMinute, s.bucket.ts⟩ c *
            ratePerMs refillPerMinute := by
        have : ((elapsedMs c.nowMs s.bucket.ts : ℤ) : ℚ) ≤
            advance ⟨s.deadline - ttlMs capacity refillPerMinute, s.bucket.ts⟩ c := by
          exact_mod_cast hreadings
        gcongr
      exact (min_le_right _ _).trans (by rw [level, Option.elim_some]; linarith)
    · rw [found, Option.bind_some, if_neg hlive, refilled_none]
      have hlong : ttlMs capacity refillPerMinute ≤
          advance ⟨s.deadline - ttlMs capacity refillPerMinute, s.bucket.ts⟩ c := by
        dsimp only at hredis
        omega
      have hfull := capacity_le_of_ttlMs_le hR hlong
      rw [level, Option.elim_some]
      linarith

/-! ## Never more than the limit -/

theorem lastCheck_afterScript (capacity refillPerMinute : ℕ) (stored : Option Stored)
    (c : TimedCheck) :
    lastCheck capacity refillPerMinute (some (afterScript capacity refillPerMinute stored c)) =
      [c] := by
  rw [lastCheck, Option.elim_some, afterScript, runScript, tokenBucket_ts, add_sub_cancel_right]

/-- One executed check: what it takes and leaves is what it found, refilled. -/
theorem level_afterScript (capacity refillPerMinute : ℕ) (stored : Option Stored)
    {e : BucketEvent} {c : TimedCheck} (he : e.executed? = some c) :
    e.apply capacity refillPerMinute stored =
        some (afterScript capacity refillPerMinute stored c) ∧
      level capacity (e.apply capacity refillPerMinute stored) +
          e.takes capacity refillPerMinute stored =
        refilled capacity refillPerMinute c.nowMs (found c.redisAt stored) := by
  have happly : e.apply capacity refillPerMinute stored =
      some (afterScript capacity refillPerMinute stored c) := by
    cases e with
    | check c' fault =>
      cases fault with
      | none =>
        obtain rfl := Option.some.inj he
        rfl
      | lostReply =>
        obtain rfl := Option.some.inj he
        rfl
      | lostCall => cases he
    | lost => cases he
  refine ⟨happly, ?_⟩
  rw [happly, BucketEvent.takes, he, ← tokens_afterScript capacity refillPerMinute stored c]
  rw [level, Option.elim_some, Option.elim_some]
  push_cast
  rfl

theorem executed_cons_of_some {e : BucketEvent} {c : TimedCheck} (he : e.executed? = some c)
    (events : List BucketEvent) : executed (e :: events) = c :: executed events := by
  rw [executed, List.filterMap_cons, he]
  rfl

theorem executed_cons_of_none {e : BucketEvent} (he : e.executed? = none)
    (events : List BucketEvent) : executed (e :: events) = executed events := by
  rw [executed, List.filterMap_cons, he]
  rfl

/-- An event that Redis does not execute a check for takes nothing; it leaves the bucket alone, or
it is the loss of the key. -/
theorem apply_of_executed?_none (capacity refillPerMinute : ℕ) (stored : Option Stored)
    {e : BucketEvent} (he : e.executed? = none) :
    e.takes capacity refillPerMinute stored = 0 ∧
      (e ≠ .lost ∧ e.apply capacity refillPerMinute stored = stored ∨
        e = .lost ∧ e.apply capacity refillPerMinute stored = none) := by
  refine ⟨by rw [BucketEvent.takes, he, Option.elim_none], ?_⟩
  cases e with
  | check c fault =>
    cases fault with
    | none => cases he
    | lostReply => cases he
    | lostCall => exact Or.inl ⟨BucketEvent.noConfusion, rfl⟩
  | lost => exact Or.inr ⟨rfl, rfl⟩

/-- **Tokens are paid for** by the level at the start, by full buckets for lost keys, and by the
advances of the clocks.  The induction is on the events. -/
theorem Sound.taken_le (hR : 1 ≤ refillPerMinute) {stored : Option Stored}
    (h : Sound capacity stored) (events : List BucketEvent) :
    (taken capacity refillPerMinute stored events : ℚ) ≤
      level capacity stored + capacity * events.count .lost +
        advances (lastCheck capacity refillPerMinute stored ++ executed events) *
          ratePerMs refillPerMinute := by
  have hrate := ratePerMs_nonneg refillPerMinute
  induction events generalizing stored with
  | nil =>
    have hlevel := h.level_nonneg
    have hadvances : (0 : ℚ) ≤
        advances (lastCheck capacity refillPerMinute stored ++ executed []) := by
      exact_mod_cast advances_nonneg _
    simp only [taken, Run.total, List.count_nil, Nat.cast_zero, mul_zero, add_zero]
    positivity
  | cons e events ih =>
    have hsound : Sound capacity (e.apply capacity refillPerMinute stored) := h.apply e
    have hrest := ih hsound
    rw [taken_cons]
    push_cast
    cases he : e.executed? with
    | some c =>
      obtain ⟨happly, hlevel⟩ := level_afterScript capacity refillPerMinute stored he
      have hpaid := h.refilled_le_level_add hR c
      have hcount : (e :: events).count .lost = events.count .lost := by
        refine List.count_cons_of_ne ?_
        rintro rfl
        cases he
      rw [happly, lastCheck_afterScript, List.singleton_append] at hrest
      rw [← hlevel, happly] at hpaid
      rw [happly, hcount, executed_cons_of_some he, advances_append]
      push_cast
      linarith
    | none =>
      obtain ⟨htakes, ⟨hne, happly⟩ | ⟨rfl, happly⟩⟩ :=
        apply_of_executed?_none capacity refillPerMinute stored he
      · rw [happly] at hrest ⊢
        rw [htakes, executed_cons_of_none he, List.count_cons_of_ne hne, Nat.cast_zero, zero_add]
        exact hrest
      · have hlevel := h.level_nonneg
        have hgrow : (advances (executed events) : ℚ) ≤
            advances (lastCheck capacity refillPerMinute stored ++ executed events) := by
          cases stored with
          | none => exact le_rfl
          | some s => exact_mod_cast advances_le_cons _ _
        have hcredit := mul_le_mul_of_nonneg_right hgrow hrate
        have hfull : level capacity none = capacity := rfl
        have hnone : lastCheck capacity refillPerMinute none = [] := rfl
        rw [happly, hfull, hnone, List.nil_append] at hrest
        rw [happly, htakes, executed_cons_of_none he, List.count_cons_self]
        push_cast
        linarith

/-- The same from a bucket in any state, with nothing said about the checks before. -/
theorem Sound.taken_le_capacity (hR : 1 ≤ refillPerMinute) {stored : Option Stored}
    (h : Sound capacity stored) (events : List BucketEvent) :
    (taken capacity refillPerMinute stored events : ℚ) ≤
      capacity * (1 + events.count .lost) +
        advances (executed events) * ratePerMs refillPerMinute := by
  induction events generalizing stored with
  | nil => simp [taken, Run.total, executed, advances]
  | cons e events ih =>
    have hsound : Sound capacity (e.apply capacity refillPerMinute stored) := h.apply e
    rw [taken_cons]
    push_cast
    cases he : e.executed? with
    | some c =>
      -- from here on the bucket is known, and the refill was clamped to the capacity
      obtain ⟨happly, hlevel⟩ := level_afterScript capacity refillPerMinute stored he
      have hclamp := refilled_le capacity refillPerMinute c.nowMs (found c.redisAt stored)
      have hcount : (e :: events).count .lost = events.count .lost := by
        refine List.count_cons_of_ne ?_
        rintro rfl
        cases he
      have hrest := hsound.taken_le hR events
      rw [happly, lastCheck_afterScript, List.singleton_append] at hrest
      rw [← hlevel, happly] at hclamp
      rw [happly, hcount, executed_cons_of_some he]
      linarith
    | none =>
      have hrest := ih hsound
      obtain ⟨htakes, ⟨hne, happly⟩ | ⟨rfl, happly⟩⟩ :=
        apply_of_executed?_none capacity refillPerMinute stored he
      · rw [htakes, executed_cons_of_none he, List.count_cons_of_ne hne, Nat.cast_zero, zero_add]
        exact hrest
      · have hcapacity : (0 : ℚ) ≤ capacity := Nat.cast_nonneg capacity
        rw [htakes, executed_cons_of_none he, List.count_cons_self]
        push_cast
        linarith

/-- One event: whoever takes a token is let through, and so is whoever gets no answer. -/
theorem takes_le_passed (capacity refillPerMinute : ℕ) (stored : Option Stored)
    (e : BucketEvent) :
    e.takes capacity refillPerMinute stored ≤
        passed (e.verdict capacity refillPerMinute stored) ∧
      passed (e.verdict capacity refillPerMinute stored) ≤
        e.takes capacity refillPerMinute stored + if e.isFailure then 1 else 0 := by
  have hdecoded : ∀ reply : ScriptReply,
      passed [(RateLimiter.decodeReply (.ok reply)).1] = if reply.allowed then 1 else 0 := by
    intro reply
    rw [passed, List.countP_singleton]
    rfl
  cases e with
  | check c fault =>
    cases fault with
    | none =>
      rw [BucketEvent.verdict, hdecoded]
      exact ⟨le_rfl, Nat.le_add_right _ _⟩
    | lostReply =>
      have hle : BucketEvent.takes capacity refillPerMinute stored (.check c .lostReply) ≤ 1 := by
        show (if _ then 1 else 0) ≤ 1
        split <;> omega
      exact ⟨hle, Nat.le_add_left _ _⟩
    | lostCall => exact ⟨Nat.zero_le _, Nat.le_add_left _ _⟩
  | lost => exact ⟨le_rfl, le_rfl⟩

/-- A check lets its request through for a token, or because its Redis call fails. -/
theorem passed_le_taken_add (stored : Option Stored) (events : List BucketEvent) :
    passed (verdicts capacity refillPerMinute stored events) ≤
      taken capacity refillPerMinute stored events + events.countP (·.isFailure) := by
  induction events generalizing stored with
  | nil => exact le_rfl
  | cons e events ih =>
    have hrest := ih (e.apply capacity refillPerMinute stored)
    have hone := (takes_le_passed capacity refillPerMinute stored e).2
    rw [verdicts_cons, taken_cons, passed, List.countP_append, List.countP_cons]
    unfold passed at hone hrest
    omega

/-- **No more than the limit.**  In any stretch, checks let through at most the capacity, once more
for every loss of the key, and the refill of the advances of the clocks; and those whose Redis
call fails. -/
theorem Sound.passed_le_capacity_add (hR : 1 ≤ refillPerMinute) {stored : Option Stored}
    (h : Sound capacity stored) (events : List BucketEvent) :
    (passed (verdicts capacity refillPerMinute stored events) : ℚ) ≤
      capacity * (1 + events.count .lost) + events.countP (·.isFailure) +
        advances (executed events) * ratePerMs refillPerMinute := by
  have hpassed : (passed (verdicts capacity refillPerMinute stored events) : ℚ) ≤
      taken capacity refillPerMinute stored events + events.countP (·.isFailure) := by
    exact_mod_cast passed_le_taken_add stored events
  have htaken := h.taken_le_capacity hR events
  linarith

/-! ## Never less than the limit -/

/-- What is missing has been taken. -/
theorem Sound.level_le_add_taken {stored : Option Stored} (h : Sound capacity stored)
    (events : List BucketEvent) :
    level capacity stored ≤
      level capacity (storedAfter capacity refillPerMinute stored events) +
        taken capacity refillPerMinute stored events := by
  induction events generalizing stored with
  | nil => simp [storedAfter, taken, Run.total]
  | cons e events ih =>
    have hsound : Sound capacity (e.apply capacity refillPerMinute stored) := h.apply e
    have hrest := ih hsound
    have hone : level capacity stored ≤
        level capacity (e.apply capacity refillPerMinute stored) +
          e.takes capacity refillPerMinute stored := by
      cases he : e.executed? with
      | some c =>
        rw [(level_afterScript capacity refillPerMinute stored he).2]
        exact h.level_le_refilled refillPerMinute c
      | none =>
        obtain ⟨htakes, ⟨-, happly⟩ | ⟨-, happly⟩⟩ :=
          apply_of_executed?_none capacity refillPerMinute stored he
        · rw [htakes, happly, Nat.cast_zero, add_zero]
        · rw [htakes, happly, Nat.cast_zero, add_zero]
          exact h.level_le
    rw [taken_cons, storedAfter_cons]
    push_cast
    linarith

theorem taken_le_passed (stored : Option Stored) (events : List BucketEvent) :
    taken capacity refillPerMinute stored events ≤
      passed (verdicts capacity refillPerMinute stored events) := by
  induction events generalizing stored with
  | nil => exact le_rfl
  | cons e events ih =>
    have hrest := ih (e.apply capacity refillPerMinute stored)
    have hone := (takes_le_passed capacity refillPerMinute stored e).1
    rw [verdicts_cons, taken_cons, passed, List.countP_append]
    unfold passed at hone hrest
    omega

/-- A rejection comes from the script, which found no whole token. -/
theorem refilled_lt_of_rejected {stored : Option Stored} {e : BucketEvent}
    {result : RateLimitResult} (hresult : result ∈ e.verdict capacity refillPerMinute stored)
    (hrejected : result.allowed = false) :
    ∃ c, e = .check c .none ∧
      refilled capacity refillPerMinute c.nowMs (found c.redisAt stored) < 1 := by
  cases e with
  | check c fault =>
    cases fault with
    | none =>
      refine ⟨c, rfl, ?_⟩
      obtain rfl := List.mem_singleton.mp hresult
      have hreply : (runScript capacity refillPerMinute stored c).1.allowed = false := hrejected
      rw [runScript, tokenBucket_allowed, decide_eq_false_iff_not] at hreply
      exact not_le.mp hreply
    | lostReply =>
      obtain rfl := List.mem_singleton.mp hresult
      cases hrejected
    | lostCall =>
      obtain rfl := List.mem_singleton.mp hresult
      cases hrejected
  | lost => cases hresult

/-- **No less than the limit.**  When a check is rejected, at least the capacity has been let
through before it. -/
theorem capacity_le_of_rejected {events : List BucketEvent} {e : BucketEvent}
    {result : RateLimitResult}
    (hresult : result ∈ e.verdict capacity refillPerMinute
      (storedAfter capacity refillPerMinute none events))
    (hrejected : result.allowed = false) :
    capacity ≤ passed (verdicts capacity refillPerMinute none events) := by
  have hsound : Sound capacity (storedAfter capacity refillPerMinute none events) :=
    (sound_none capacity).after events
  obtain ⟨c, -, hempty⟩ := refilled_lt_of_rejected hresult hrejected
  have hlevel := hsound.level_le_refilled refillPerMinute c
  have hmissing : (capacity : ℚ) ≤
      level capacity (storedAfter capacity refillPerMinute none events) +
        taken capacity refillPerMinute none events :=
    (sound_none capacity).level_le_add_taken events
  have htaken : (capacity : ℚ) < taken capacity refillPerMinute none events + 1 := by linarith
  have hwhole : capacity < taken capacity refillPerMinute none events + 1 := by
    exact_mod_cast htaken
  exact (Nat.lt_succ_iff.mp hwhole).trans (taken_le_passed none events)

/-- Either everybody is let through, or at least the capacity is. -/
theorem passed_verdicts (capacity refillPerMinute : ℕ) (events : List BucketEvent) :
    (∀ result ∈ verdicts capacity refillPerMinute none events, result.allowed = true) ∨
      capacity ≤ passed (verdicts capacity refillPerMinute none events) := by
  induction events using List.reverseRecOn with
  | nil => exact Or.inl fun result hresult => by cases hresult
  | append_singleton events e ih =>
    have hconcat : verdicts capacity refillPerMinute none (events ++ [e]) =
        verdicts capacity refillPerMinute none events ++
          e.verdict capacity refillPerMinute
            (storedAfter capacity refillPerMinute none events) :=
      Run.trace_concat _ _ _ _ _
    have hpassed : passed (verdicts capacity refillPerMinute none events) ≤
        passed (verdicts capacity refillPerMinute none (events ++ [e])) := by
      rw [hconcat, passed, passed, List.countP_append]
      exact Nat.le_add_right _ _
    rcases ih with hall | hmany
    · by_cases hlast : ∃ result ∈ e.verdict capacity refillPerMinute
          (storedAfter capacity refillPerMinute none events), result.allowed = false
      · obtain ⟨result, hresult, hrejected⟩ := hlast
        exact Or.inr ((capacity_le_of_rejected hresult hrejected).trans hpassed)
      · refine Or.inl fun result hresult => ?_
        rw [hconcat, List.mem_append] at hresult
        rcases hresult with hresult | hresult
        · exact hall result hresult
        · by_contra hrejected
          exact hlast ⟨result, hresult, Bool.eq_false_iff.mpr hrejected⟩
    · exact Or.inr (hmany.trans hpassed)

/-! ## Exactly the limit -/

/-- What the checks of a bucket return when no call fails and no key is lost. -/
def undisturbed (checks : List TimedCheck) : List BucketEvent := checks.map (.check · .none)

/-- The results from a bucket that some earlier check has written.  The induction is on the checks;
the invariant is that both runs store the same bucket. -/
theorem verdicts_eq_replies_of_stored (hR : 1 ≤ refillPerMinute) {checks : List TimedCheck}
    {s : Stored} (hnonneg : 0 ≤ s.bucket.tokens)
    (hslack : ((⟨s.deadline - ttlMs capacity refillPerMinute, s.bucket.ts⟩ : TimedCheck) ::
      checks).Pairwise WithinSlack) :
    verdicts capacity refillPerMinute (some s) (undisturbed checks) =
      (replies capacity refillPerMinute (some s.bucket) (checks.map (·.nowMs))).map
        fun reply => (RateLimiter.decodeReply (.ok reply)).1 := by
  induction checks generalizing s with
  | nil => rfl
  | cons c checks ih =>
    rw [List.pairwise_cons] at hslack
    have hc := hslack.1 c List.mem_cons_self
    unfold WithinSlack at hc
    dsimp only at hc
    have hrefilled : refilled capacity refillPerMinute c.nowMs (found c.redisAt (some s)) =
        refilled capacity refillPerMinute c.nowMs (some s.bucket) := by
      by_cases hlive : c.redisAt < s.deadline
      · rw [found, Option.bind_some, if_pos hlive]
      · rw [found, Option.bind_some, if_neg hlive, refilled_none,
          refilled_eq_capacity_of_expired hR hnonneg (by omega)]
    have hscript : runScript capacity refillPerMinute (some s) c =
        tokenBucket capacity refillPerMinute c.nowMs 1 (some s.bucket) :=
      tokenBucket_congr capacity refillPerMinute c.nowMs 1 hrefilled
    have hnext : (afterScript capacity refillPerMinute (some s) c).bucket =
        (tokenBucket capacity refillPerMinute c.nowMs 1 (some s.bucket)).2 :=
      congrArg Prod.snd hscript
    have hrest := ih (s := afterScript capacity refillPerMinute (some s) c) ?_ ?_
    · rw [hnext] at hrest
      rw [undisturbed, List.map_cons, verdicts_cons, List.map_cons, replies, List.map_cons,
        BucketEvent.verdict, BucketEvent.apply, hscript, ← undisturbed, hrest]
      rfl
    · rw [hnext]
      exact tokenBucket_tokens_nonneg _ _ _ _ _ (by simpa using hnonneg)
    · have hlast := lastCheck_afterScript capacity refillPerMinute (some s) c
      rw [lastCheck, Option.elim_some, List.cons.injEq] at hlast
      rw [hlast.1]
      exact hslack.2

/-- **The limiter whose key expires is the one whose key does not**, as long as the clocks agree up
to a second. -/
theorem verdicts_eq_replies (hR : 1 ≤ refillPerMinute) {checks : List TimedCheck}
    (hslack : checks.Pairwise WithinSlack) :
    verdicts capacity refillPerMinute none (undisturbed checks) =
      (replies capacity refillPerMinute none (checks.map (·.nowMs))).map
        fun reply => (RateLimiter.decodeReply (.ok reply)).1 := by
  cases checks with
  | nil => rfl
  | cons c checks =>
    have hnonneg : 0 ≤ (afterScript capacity refillPerMinute none c).bucket.tokens :=
      ((sound_none capacity).script c _ rfl).1
    have hlast := lastCheck_afterScript capacity refillPerMinute none c
    rw [lastCheck, Option.elim_some, List.cons.injEq] at hlast
    have hrest := verdicts_eq_replies_of_stored hR hnonneg (hlast.1 ▸ hslack)
    rw [undisturbed, List.map_cons, verdicts_cons, List.map_cons, replies, List.map_cons,
      BucketEvent.verdict, BucketEvent.apply, ← undisturbed, hrest]
    rfl

/-- **Exactly the limit.**  With readings that do not go back, a check lets its request through if
and only if no window that ends with it is exhausted. -/
theorem allowed_iff_of_verdict (hR : 1 ≤ refillPerMinute) {checks : List TimedCheck}
    (hsorted : (checks.map (·.nowMs)).Pairwise (· ≤ ·)) (hslack : checks.Pairwise WithinSlack)
    {k : ℕ} {c : TimedCheck} {result : RateLimitResult} (hk : checks[k]? = some c)
    (hresult : (verdicts capacity refillPerMinute none (undisturbed checks))[k]? = some result) :
    result.allowed = true ↔ ∀ j ≤ k, ∀ since, checks[j]? = some since →
      (passed (((verdicts capacity refillPerMinute none (undisturbed checks)).take k).drop j) : ℚ)
          + 1 ≤
        capacity + (c.nowMs - since.nowMs) * refillPerMinute / 60000 := by
  have hcount : ∀ rs : List ScriptReply,
      passed (rs.map fun reply => (RateLimiter.decodeReply (.ok reply)).1) = admitted rs :=
    fun rs => List.countP_map
  rw [verdicts_eq_replies hR hslack] at hresult ⊢
  rw [List.getElem?_map, Option.map_eq_some_iff] at hresult
  obtain ⟨reply, hreply, rfl⟩ := hresult
  have hnow : (checks.map (·.nowMs))[k]? = some c.nowMs := by
    rw [List.getElem?_map, hk, Option.map_some]
  refine Iff.trans (allowed_iff_of_getElem? hsorted hnow hreply) (forall₂_congr fun j _ => ?_)
  rw [← List.map_take, ← List.map_drop, hcount, List.getElem?_map]
  cases checks[j]? with
  | none => simp
  | some since => simp

end RateLimit
end UrlShortener
