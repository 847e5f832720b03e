import UrlShortener.Config
import UrlShortener.Metrics
import UrlShortener.Core.Redis
import Mathlib.Data.Rat.Floor
import Mathlib.Tactic.Linarith
import Mathlib.Tactic.Positivity

/-!
# The token-bucket rate limiter

The bucket script runs inside Redis and is one atomic step: it reads the hash, refills it, takes a
token or computes a wait, and writes the hash back with a new deadline.  `tokenBucket` is the
script's arithmetic on the stored state; `evalScript` is the script as a command on its key; and
`check` is what the application makes of the reply, including the fail-open branch.

The arithmetic is exact, over the rationals.  The script computes in doubles and stores the token
count as a decimal string; rounding is not modelled.

## What is proved

The lemmas here are the small facts about one execution that everything later rests on: a stored
token count is never negative and never above the capacity, the stored time is the caller's
`now_ms`, and the reply is allowed exactly when one whole token is there after the refill.
-/

set_option autoImplicit false

namespace UrlShortener

open Keyspace (Store Command Update)

/-! ## The script -/

/-- What the script returns. -/
structure ScriptReply where
  allowed : Bool
  retryAfterMs : ℤ
  tokensRemaining : ℚ
  deriving DecidableEq, Repr

/-- `rate_per_ms`: tokens added per millisecond of elapsed time. -/
def ratePerMs (refillPerMinute : ℕ) : ℚ := refillPerMinute / 60000

/-- The time to live the script sets: the time to refill from empty to full, rounded up to whole
milliseconds, plus one second. -/
def ttlMs (capacity refillPerMinute : ℕ) : ℤ :=
  ⌈(capacity : ℚ) / ratePerMs refillPerMinute⌉ + 1000

/-- A cold bucket (absent key or expired) starts full. -/
def startState (capacity : ℕ) (nowMs : ℤ) : Option Bucket → Bucket
  | some b => b
  | none => ⟨capacity, nowMs⟩

/-- The elapsed time, guarded against a clock that went backwards. -/
def elapsedMs (nowMs lastTs : ℤ) : ℤ :=
  if nowMs - lastTs < 0 then 0 else nowMs - lastTs

/-- The tokens after the continuous refill, clamped to the capacity. -/
def refilled (capacity refillPerMinute : ℕ) (nowMs : ℤ) (state : Option Bucket) : ℚ :=
  min (capacity : ℚ)
    ((startState capacity nowMs state).tokens +
      elapsedMs nowMs (startState capacity nowMs state).ts * ratePerMs refillPerMinute)

/-- How long until the missing tokens accumulate, in whole milliseconds.  The second branch is
unreachable with a positive refill rate. -/
def retryAfterMs (refillPerMinute : ℕ) (deficit : ℚ) : ℤ :=
  if 0 < ratePerMs refillPerMinute then ⌈deficit / ratePerMs refillPerMinute⌉ else -1

/-- The script: its reply and the hash it writes. -/
def tokenBucket (capacity refillPerMinute : ℕ) (nowMs : ℤ) (requested : ℚ)
    (state : Option Bucket) : ScriptReply × Bucket :=
  let tokens := refilled capacity refillPerMinute nowMs state
  if requested ≤ tokens then
    (⟨true, 0, tokens - requested⟩, ⟨tokens - requested, nowMs⟩)
  else
    (⟨false, retryAfterMs refillPerMinute (requested - tokens), tokens⟩, ⟨tokens, nowMs⟩)

/-- The script as a command.  `HMGET` on a string aborts it before anything is written; otherwise
the hash is written and its deadline set, whether the request was allowed or not.  Redis is taken to
accept the deadline, which is the time at which the key is gone. -/
def evalScript (redisNow : ℤ) (key : String) (capacity refillPerMinute : ℕ) (nowMs : ℤ)
    (requested : ℚ) : RedisCommand ScriptReply where
  key := key
  act := fun v => match v with
    | some (.string _) => (.error .wrongType, .keep)
    | some (.hash b) =>
        let run := tokenBucket capacity refillPerMinute nowMs requested (some b)
        (.ok run.1, .put (.hash run.2) (some (redisNow + ttlMs capacity refillPerMinute)))
    | none =>
        let run := tokenBucket capacity refillPerMinute nowMs requested none
        (.ok run.1, .put (.hash run.2) (some (redisNow + ttlMs capacity refillPerMinute)))

/-! ## The limiter -/

/-- Outcome of a single rate-limit check.  `tokensRemaining` is `none` where the code puts the
not-a-number sentinel of the fail-open path. -/
structure RateLimitResult where
  allowed : Bool
  retryAfterSeconds : Option ℚ
  tokensRemaining : Option ℚ
  deriving DecidableEq, Repr

namespace RateLimiter

/-- `(capacity, refill_per_minute)` for a route class. -/
def limitsFor (settings : Settings) : RouteClass → ℕ × ℕ
  | .redirect =>
      (settings.rateLimitRedirectCapacity, settings.rateLimitRedirectRefillPerMinute)
  | .create => (settings.rateLimitCreateCapacity, settings.rateLimitCreateRefillPerMinute)

/-- The key of a bucket. -/
def key (clientId : String) (routeClass : RouteClass) : String :=
  "ratelimit:" ++ clientId ++ ":" ++ routeClass.value

/-- The clock reading handed to the script: whole milliseconds, truncated, from a wall clock in
microseconds. -/
def nowMs (clock : ℤ) : ℤ := clock.tdiv 1000

/-- Decode the reply of the script; fail open on a `RedisError`. -/
def decodeReply : Except RedisError ScriptReply → RateLimitResult × List Metric
  | .ok raw =>
      (⟨raw.allowed,
        if raw.allowed then none else some ((max raw.retryAfterMs 0 : ℤ) / 1000),
        some raw.tokensRemaining⟩,
       [.redisOperationDurationSeconds "token_bucket"])
  | .error _ =>
      (⟨true, none, none⟩, [.redisFallbackTotal "rate_limiter" "token_bucket"])

/-- Atomically consume one token for `clientId` on `routeClass`. -/
def check (settings : Settings) (redisNow nowMs : ℤ) (fault : Fault) (clientId : String)
    (routeClass : RouteClass) : Command String RedisValue (RateLimitResult × List Metric) :=
  (withFault fault
    (evalScript redisNow (key clientId routeClass) (limitsFor settings routeClass).1
      (limitsFor settings routeClass).2 nowMs 1)).map decodeReply

@[simp] theorem check_key (settings : Settings) (redisNow nowMs : ℤ) (fault : Fault)
    (clientId : String) (routeClass : RouteClass) :
    (check settings redisNow nowMs fault clientId routeClass).key = key clientId routeClass := rfl

theorem limitsFor_fst_pos (settings : Settings) (routeClass : RouteClass) :
    0 < (limitsFor settings routeClass).1 := by
  cases routeClass with
  | redirect => exact settings.rateLimitRedirectCapacity_pos
  | create => exact settings.rateLimitCreateCapacity_pos

theorem limitsFor_snd_pos (settings : Settings) (routeClass : RouteClass) :
    0 < (limitsFor settings routeClass).2 := by
  cases routeClass with
  | redirect => exact settings.rateLimitRedirectRefillPerMinute_pos
  | create => exact settings.rateLimitCreateRefillPerMinute_pos

end RateLimiter

/-! ## One execution of the script -/

theorem ratePerMs_nonneg (refillPerMinute : ℕ) : 0 ≤ ratePerMs refillPerMinute := by
  unfold ratePerMs
  positivity

theorem ratePerMs_pos {refillPerMinute : ℕ} (h : 1 ≤ refillPerMinute) :
    0 < ratePerMs refillPerMinute := by
  unfold ratePerMs
  positivity

theorem elapsedMs_nonneg (nowMs lastTs : ℤ) : 0 ≤ elapsedMs nowMs lastTs := by
  unfold elapsedMs
  split <;> omega

theorem elapsedMs_of_le {nowMs lastTs : ℤ} (h : lastTs ≤ nowMs) :
    elapsedMs nowMs lastTs = nowMs - lastTs := by
  unfold elapsedMs
  rw [if_neg (by omega)]

theorem elapsedMs_of_lt {nowMs lastTs : ℤ} (h : nowMs < lastTs) : elapsedMs nowMs lastTs = 0 := by
  unfold elapsedMs
  rw [if_pos (by omega)]

@[simp] theorem elapsedMs_self (nowMs : ℤ) : elapsedMs nowMs nowMs = 0 := by
  simp [elapsedMs]

section Script

variable (capacity refillPerMinute : ℕ) (nowMs : ℤ)

/-- A cold bucket is full. -/
@[simp] theorem refilled_none : refilled capacity refillPerMinute nowMs none = capacity := by
  simp [refilled, startState]

theorem refilled_some (b : Bucket) :
    refilled capacity refillPerMinute nowMs (some b) =
      min (capacity : ℚ) (b.tokens + elapsedMs nowMs b.ts * ratePerMs refillPerMinute) := rfl

/-- The clamp. -/
theorem refilled_le (state : Option Bucket) :
    refilled capacity refillPerMinute nowMs state ≤ capacity := min_le_left _ _

/-- A refill never subtracts tokens, whichever way the clock went. -/
theorem refilled_nonneg {state : Option Bucket} (h : ∀ b ∈ state, 0 ≤ b.tokens) :
    0 ≤ refilled capacity refillPerMinute nowMs state := by
  cases state with
  | none => rw [refilled_none]; positivity
  | some b =>
    rw [refilled_some, le_min_iff]
    have hb := h b rfl
    have helapsed : (0 : ℚ) ≤ elapsedMs nowMs b.ts := by exact_mod_cast elapsedMs_nonneg _ _
    have hrate := ratePerMs_nonneg refillPerMinute
    exact ⟨by positivity, by positivity⟩

variable (requested : ℚ) (state : Option Bucket)

/-- The decision: enough tokens after the refill. -/
theorem tokenBucket_allowed :
    (tokenBucket capacity refillPerMinute nowMs requested state).1.allowed =
      decide (requested ≤ refilled capacity refillPerMinute nowMs state) := by
  unfold tokenBucket
  by_cases h : requested ≤ refilled capacity refillPerMinute nowMs state <;> simp [h]

/-- The script always writes the caller's clock as the time of the last refill. -/
@[simp] theorem tokenBucket_ts :
    (tokenBucket capacity refillPerMinute nowMs requested state).2.ts = nowMs := by
  unfold tokenBucket
  by_cases h : requested ≤ refilled capacity refillPerMinute nowMs state <;> simp [h]

/-- The stored tokens are the refilled ones, less the request if it was allowed. -/
theorem tokenBucket_tokens :
    (tokenBucket capacity refillPerMinute nowMs requested state).2.tokens =
      refilled capacity refillPerMinute nowMs state -
        if requested ≤ refilled capacity refillPerMinute nowMs state then requested else 0 := by
  unfold tokenBucket
  by_cases h : requested ≤ refilled capacity refillPerMinute nowMs state <;> simp [h]

/-- The script decides on the refilled count alone: two states that refill to the same count give
the same reply and the same stored state. -/
theorem tokenBucket_congr {state state' : Option Bucket}
    (h : refilled capacity refillPerMinute nowMs state =
      refilled capacity refillPerMinute nowMs state') :
    tokenBucket capacity refillPerMinute nowMs requested state =
      tokenBucket capacity refillPerMinute nowMs requested state' := by
  unfold tokenBucket
  rw [h]

/-- Stored tokens are never negative. -/
theorem tokenBucket_tokens_nonneg (h : ∀ b ∈ state, 0 ≤ b.tokens) :
    0 ≤ (tokenBucket capacity refillPerMinute nowMs requested state).2.tokens := by
  have hrefilled := refilled_nonneg capacity refillPerMinute nowMs h
  rw [tokenBucket_tokens]
  split <;> linarith

end Script

/-- A rejected check: its reply names the wait, and the refilled tokens are left behind. -/
theorem tokenBucket_of_lt {capacity refillPerMinute : ℕ} {nowMs : ℤ} {state : Option Bucket}
    (h : ¬ 1 ≤ refilled capacity refillPerMinute nowMs state) :
    tokenBucket capacity refillPerMinute nowMs 1 state =
      (⟨false, retryAfterMs refillPerMinute (1 - refilled capacity refillPerMinute nowMs state),
          refilled capacity refillPerMinute nowMs state⟩,
        ⟨refilled capacity refillPerMinute nowMs state, nowMs⟩) := by
  simp [tokenBucket, h]

/-- A rejected check leaves the refilled tokens behind. -/
theorem tokenBucket_snd_of_lt {capacity refillPerMinute : ℕ} {nowMs : ℤ} {state : Option Bucket}
    (h : ¬ 1 ≤ refilled capacity refillPerMinute nowMs state) :
    (tokenBucket capacity refillPerMinute nowMs 1 state).2 =
      ⟨refilled capacity refillPerMinute nowMs state, nowMs⟩ :=
  congrArg Prod.snd (tokenBucket_of_lt h)

end UrlShortener
