import UrlShortener.RateLimit.Envelope
import Mathlib.Tactic.FieldSimp

/-!
# Key expiry loses no state

The script gives its key a time to live: the time to refill from empty to full, plus one second.
The comment beside it says that an absent key is treated as a full bucket, so that nothing is lost
when the key disappears.  Two clocks are involved.  The deadline is on the Redis clock and the
refill on the clocks of the checking instances, and a reading may reach Redis late.  The second of
slack is there to cover the difference.

`expiringReplies` runs the script as a command on a keyspace with deadlines; `replies` is the run
whose key never expires.  They agree as long as no pair of checks lies more than one second
further apart on the Redis clock than on the readings.  The readings themselves may go up and down,
and the Redis times need not even be in order.

The two runs have different hidden state only at the moment a key expires, and there both refill
to the capacity: the stored tokens are not negative and the elapsed time covers a full refill
(`refilled_eq_capacity_of_expired`).  The script writes the refilled count and the caller's clock
in either case, so the states agree again right after.
-/

set_option autoImplicit false

namespace UrlShortener
namespace RateLimit

open Keyspace (Store Entry Command)

/-- A check as Redis executes it: the time on the Redis clock, and the clock reading it carries. -/
structure TimedCheck where
  redisAt : ℤ
  nowMs : ℤ
  deriving DecidableEq

variable (key : String) (capacity refillPerMinute : ℕ)

/-- The script call of a check. -/
def scriptCall (c : TimedCheck) : RedisCommand ScriptReply :=
  evalScript c.redisAt key capacity refillPerMinute c.nowMs 1

/-- The answers to a sequence of checks on one key of a keyspace with deadlines. -/
def answers (s : Store String RedisValue) (checks : List TimedCheck) :
    List (Except RedisError ScriptReply) :=
  (Keyspace.run TimedCheck.redisAt (scriptCall key capacity refillPerMinute) s checks).map (·.2)

/-- The answers when the key starts absent. -/
def expiringReplies (checks : List TimedCheck) : List (Except RedisError ScriptReply) :=
  answers key capacity refillPerMinute (fun _ => none) checks

/-- Two checks are at most one second further apart on the Redis clock than on their readings. -/
def WithinSlack (c c' : TimedCheck) : Prop :=
  (c'.redisAt - c.redisAt) - (c'.nowMs - c.nowMs) ≤ 1000

instance (c c' : TimedCheck) : Decidable (WithinSlack c c') := by
  unfold WithinSlack; infer_instance

variable {key capacity refillPerMinute}

/-- **A bucket whose key may have expired is full.**  If the readings are as far apart as the time
to live without its slack, the refill reaches the capacity from any stored count. -/
theorem refilled_eq_capacity_of_expired (hR : 1 ≤ refillPerMinute) {b : Bucket}
    (hnonneg : 0 ≤ b.tokens) {nowMs : ℤ}
    (h : ttlMs capacity refillPerMinute - 1000 ≤ nowMs - b.ts) :
    refilled capacity refillPerMinute nowMs (some b) = capacity := by
  have hrate := ratePerMs_pos hR
  rw [ttlMs, add_sub_cancel_right, Int.ceil_le] at h
  have hnonneg' : (0 : ℚ) ≤ capacity / ratePerMs refillPerMinute := by positivity
  have hle : b.ts ≤ nowMs := by
    have : (0 : ℚ) ≤ ((nowMs - b.ts : ℤ) : ℚ) := hnonneg'.trans h
    have : (0 : ℤ) ≤ nowMs - b.ts := by exact_mod_cast this
    omega
  rw [refilled_some, elapsedMs_of_le hle]
  apply min_eq_left
  have hrefill : (capacity : ℚ) ≤ ((nowMs - b.ts : ℤ) : ℚ) * ratePerMs refillPerMinute :=
    (div_le_iff₀ hrate).mp h
  linarith

/-- What the script does on a keyspace, when its key holds a hash or nothing. -/
theorem exec_scriptCall {s : Store String RedisValue} {c : TimedCheck} {state : Option Bucket}
    (h : Keyspace.read s c.redisAt key = state.map RedisValue.hash) :
    (scriptCall key capacity refillPerMinute c).exec c.redisAt s =
      (.ok (tokenBucket capacity refillPerMinute c.nowMs 1 state).1,
        Keyspace.write s key
          (.put (.hash (tokenBucket capacity refillPerMinute c.nowMs 1 state).2)
            (some (c.redisAt + ttlMs capacity refillPerMinute)))) := by
  have hkey : (scriptCall key capacity refillPerMinute c).key = key := rfl
  unfold Command.exec
  rw [hkey, h]
  cases state <;> rfl

/-- What the script leaves under its key. -/
theorem write_hash_self (capacity refillPerMinute : ℕ) (s : Store String RedisValue)
    (key : String) (redisAt : ℤ) (b : Bucket) :
    Keyspace.write s key
        (.put (.hash b) (some (redisAt + ttlMs capacity refillPerMinute))) key =
      some ⟨.hash b, some (redisAt + ttlMs capacity refillPerMinute)⟩ := by
  simp [Keyspace.write]

/-- The run from a key that some earlier check has written.  The induction is on the checks; the
invariant is that the key holds the bucket of the other run, with the deadline its last write
gave it. -/
theorem answers_eq_of_entry (hR : 1 ≤ refillPerMinute) {checks : List TimedCheck}
    {s : Store String RedisValue} {b : Bucket} {redisAt : ℤ} (hnonneg : 0 ≤ b.tokens)
    (hs : s key = some ⟨.hash b, some (redisAt + ttlMs capacity refillPerMinute)⟩)
    (hslack : ((⟨redisAt, b.ts⟩ : TimedCheck) :: checks).Pairwise WithinSlack) :
    answers key capacity refillPerMinute s checks =
      (replies capacity refillPerMinute (some b) (checks.map (·.nowMs))).map .ok := by
  induction checks generalizing s b redisAt with
  | nil => rfl
  | cons c checks ih =>
    rw [List.pairwise_cons] at hslack
    have hc : (c.redisAt - redisAt) - (c.nowMs - b.ts) ≤ 1000 := hslack.1 c List.mem_cons_self
    -- the script sees the bucket itself, or nothing once the deadline has passed
    obtain ⟨state, hread, hrefilled⟩ : ∃ state : Option Bucket,
        Keyspace.read s c.redisAt key = state.map RedisValue.hash ∧
        refilled capacity refillPerMinute c.nowMs state =
          refilled capacity refillPerMinute c.nowMs (some b) := by
      by_cases hlive : c.redisAt < redisAt + ttlMs capacity refillPerMinute
      · exact ⟨some b, by simp [Keyspace.read, hs, Entry.live, hlive], rfl⟩
      · refine ⟨none, by simp [Keyspace.read, hs, Entry.live, hlive], ?_⟩
        rw [refilled_none, refilled_eq_capacity_of_expired hR hnonneg (by omega)]
    have hbucket := tokenBucket_congr capacity refillPerMinute c.nowMs 1 hrefilled
    rw [answers, Keyspace.run, List.map_cons, ← answers, exec_scriptCall hread, hbucket,
      List.map_cons, replies, List.map_cons]
    refine congrArg _ (ih ?_ (write_hash_self _ _ s key c.redisAt _) ?_)
    · exact tokenBucket_tokens_nonneg _ _ _ _ _ (by simpa using hnonneg)
    · rw [tokenBucket_ts]
      exact hslack.2

/-- **Key expiry loses no rate-limit state.**  Check by check, the limiter whose key disappears at
its deadline gives the same decision, the same wait and the same remaining tokens as the limiter
whose key never expires. -/
theorem expiringReplies_eq_replies (key : String) (capacity refillPerMinute : ℕ)
    (hR : 1 ≤ refillPerMinute) (checks : List TimedCheck) (hslack : checks.Pairwise WithinSlack) :
    expiringReplies key capacity refillPerMinute checks =
      (replies capacity refillPerMinute none (checks.map (·.nowMs))).map .ok := by
  cases checks with
  | nil => rfl
  | cons c checks =>
    have hread : Keyspace.read (fun _ => none : Store String RedisValue) c.redisAt key =
        (none : Option Bucket).map RedisValue.hash := rfl
    rw [expiringReplies, answers, Keyspace.run, List.map_cons, ← answers, exec_scriptCall hread,
      List.map_cons, replies, List.map_cons]
    have hentry := write_hash_self capacity refillPerMinute (fun _ => none) key
      c.redisAt (tokenBucket capacity refillPerMinute c.nowMs 1 none).2
    refine congrArg _ (answers_eq_of_entry hR ?_ hentry ?_)
    · exact tokenBucket_tokens_nonneg _ _ _ _ _ (by simp)
    · rw [tokenBucket_ts]
      exact hslack

/-- A bucket of one token, one a second: the key expires between the second and the third check,
which reads a clock one second behind. -/
theorem expiringReplies_eq_replies_lagging :
    expiringReplies "b" 1 60 [⟨0, 0⟩, ⟨500, 500⟩, ⟨2600, 1600⟩] =
      (replies 1 60 none [0, 500, 1600]).map .ok :=
  expiringReplies_eq_replies "b" 1 60 (by decide) _ (by decide)

end RateLimit
end UrlShortener
