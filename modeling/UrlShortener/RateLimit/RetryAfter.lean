import UrlShortener.RateLimit.Expiry
import UrlShortener.Api.Dependencies

/-!
# The retry hint is exact

A rejected check is told how many milliseconds are missing until the next token, rounded up, and
the client gets the same in whole seconds, rounded up again.

A rejection writes the bucket back: the refilled count, and the reading of the check.  So the wait
has to be read off the bucket rather than off the reply.  `dueAt` is the first millisecond at which
a bucket holds a whole token again, and a rejected check leaves it where it was
(`dueAt_of_rejected`): what has been refilled no longer counts as missing, and the same amount of
time has passed.  That is why polling neither helps nor hurts.

The key outlives the wait.  Its time to live covers a refill from empty, which is more than one
token, and a second on top.

## What is proved

`retryAfter_exact`: for every bucket a history of checks can leave behind, a client that polls too
early is rejected every time, and the first check on time is admitted.
-/

set_option autoImplicit false

namespace UrlShortener
namespace RateLimit

open Keyspace (Store Entry Command)

variable (key : String) (capacity refillPerMinute : ℕ)

/-- The answer to one check. -/
def ask (s : Store String RedisValue) (c : TimedCheck) : Except RedisError ScriptReply :=
  ((scriptCall key capacity refillPerMinute c).exec c.redisAt s).1

/-- The keyspace after a sequence of checks. -/
def storeAfter (s : Store String RedisValue) (checks : List TimedCheck) :
    Store String RedisValue :=
  checks.foldl (fun s c => ((scriptCall key capacity refillPerMinute c).exec c.redisAt s).2) s

/-- A check that is told to wait. -/
def IsRejected (answer : Except RedisError ScriptReply) : Prop :=
  ∃ reply, answer = .ok reply ∧ reply.allowed = false

/-- A check that is let through. -/
def IsAdmitted (answer : Except RedisError ScriptReply) : Prop :=
  ∃ reply, answer = .ok reply ∧ reply.allowed = true

/-- Further checks after a first one: at times that do not go back, all of them before a given
moment.  The Redis clock and the readings go on together, or at most a second apart. -/
structure IsPolling (c : TimedCheck) (moment : ℤ) (polls : List TimedCheck) : Prop where
  sorted : (c :: polls).Pairwise fun p p' => p.nowMs ≤ p'.nowMs
  early : ∀ p ∈ polls, p.nowMs < moment
  clocks : (c :: polls).Pairwise WithinSlack

/-- The first millisecond at which a bucket holds a whole token. -/
def dueAt (b : Bucket) : ℤ := b.ts + ⌈(1 - b.tokens) / ratePerMs refillPerMinute⌉

variable {key capacity refillPerMinute}

theorem lt_dueAt_iff (hR : 1 ≤ refillPerMinute) (b : Bucket) (nowMs : ℤ) :
    nowMs < dueAt refillPerMinute b ↔
      b.tokens + (nowMs - b.ts : ℤ) * ratePerMs refillPerMinute < 1 := by
  have hrate := ratePerMs_pos hR
  have hshift : nowMs < dueAt refillPerMinute b ↔
      nowMs - b.ts < ⌈(1 - b.tokens) / ratePerMs refillPerMinute⌉ := by
    unfold dueAt
    omega
  rw [hshift, Int.lt_ceil, lt_div_iff₀ hrate]
  constructor <;> intro h <;> linarith

/-- Before it is due, a bucket refills without being clamped. -/
theorem refilled_of_lt_dueAt (hC : 1 ≤ capacity) (hR : 1 ≤ refillPerMinute) {b : Bucket}
    {nowMs : ℤ} (hle : b.ts ≤ nowMs) (hlt : nowMs < dueAt refillPerMinute b) :
    refilled capacity refillPerMinute nowMs (some b) =
      b.tokens + (nowMs - b.ts : ℤ) * ratePerMs refillPerMinute := by
  have hC' : (1 : ℚ) ≤ capacity := by exact_mod_cast hC
  rw [refilled_some, elapsedMs_of_le hle]
  exact min_eq_right (((lt_dueAt_iff hR b nowMs).mp hlt).le.trans hC')

/-- **A rejected check leaves the due time where it was.** -/
theorem dueAt_of_rejected (hR : 1 ≤ refillPerMinute) (b : Bucket) (nowMs : ℤ) :
    dueAt refillPerMinute
        ⟨b.tokens + (nowMs - b.ts : ℤ) * ratePerMs refillPerMinute, nowMs⟩ =
      dueAt refillPerMinute b := by
  have hrate := (ratePerMs_pos hR).ne'
  have hrest : (1 - (b.tokens + (nowMs - b.ts : ℤ) * ratePerMs refillPerMinute)) /
      ratePerMs refillPerMinute =
        (1 - b.tokens) / ratePerMs refillPerMinute - (nowMs - b.ts : ℤ) := by
    field_simp
    ring
  unfold dueAt
  dsimp only
  rw [hrest, Int.ceil_sub_intCast]
  omega

/-- From its due time on, a bucket admits a check. -/
theorem one_le_refilled_of_dueAt (hC : 1 ≤ capacity) (hR : 1 ≤ refillPerMinute) {b : Bucket}
    {nowMs : ℤ} (hle : b.ts ≤ nowMs) (hdue : dueAt refillPerMinute b ≤ nowMs) :
    1 ≤ refilled capacity refillPerMinute nowMs (some b) := by
  have hC' : (1 : ℚ) ≤ capacity := by exact_mod_cast hC
  rw [refilled_some, elapsedMs_of_le hle]
  refine le_min hC' ?_
  by_contra hlt
  exact absurd ((lt_dueAt_iff hR b nowMs).mpr (not_le.mp hlt)) (not_lt.mpr hdue)

/-! ## Polling -/

/-- The key holds a bucket that is not due yet, written at some Redis time. -/
structure Waiting (s : Store String RedisValue) (key : String) (capacity refillPerMinute : ℕ)
    (b : Bucket) (redisAt : ℤ) : Prop where
  entry : s key = some ⟨.hash b, some (redisAt + ttlMs capacity refillPerMinute)⟩
  nonneg : 0 ≤ b.tokens
  notDue : b.ts < dueAt refillPerMinute b

/-- The time to live covers the wait and a second. -/
theorem dueAt_add_le (hC : 1 ≤ capacity) (hR : 1 ≤ refillPerMinute) {b : Bucket}
    (hnonneg : 0 ≤ b.tokens) :
    dueAt refillPerMinute b + 1000 ≤ b.ts + ttlMs capacity refillPerMinute := by
  have hrate := ratePerMs_pos hR
  have hC' : (1 : ℚ) ≤ capacity := by exact_mod_cast hC
  have hceil : ⌈(1 - b.tokens) / ratePerMs refillPerMinute⌉ ≤
      ⌈(capacity : ℚ) / ratePerMs refillPerMinute⌉ := by
    apply Int.ceil_le_ceil
    gcongr
    linarith
  unfold dueAt ttlMs
  omega

/-- A check before the due time is rejected, and the bucket is still due when it was. -/
theorem Waiting.poll (hC : 1 ≤ capacity) (hR : 1 ≤ refillPerMinute)
    {s : Store String RedisValue} {b : Bucket} {redisAt : ℤ}
    (h : Waiting s key capacity refillPerMinute b redisAt) {p : TimedCheck}
    (hle : b.ts ≤ p.nowMs) (hlt : p.nowMs < dueAt refillPerMinute b)
    (hslack : WithinSlack ⟨redisAt, b.ts⟩ p) :
    IsRejected (ask key capacity refillPerMinute s p) ∧
      ∃ b', Waiting ((scriptCall key capacity refillPerMinute p).exec p.redisAt s).2 key capacity
          refillPerMinute b' p.redisAt ∧ b'.ts = p.nowMs ∧
        dueAt refillPerMinute b' = dueAt refillPerMinute b := by
  have hlive : p.redisAt < redisAt + ttlMs capacity refillPerMinute := by
    have hcover := dueAt_add_le hC hR h.nonneg
    unfold WithinSlack at hslack
    dsimp only at hslack
    omega
  have hread : Keyspace.read s p.redisAt key = (some b).map RedisValue.hash := by
    simp [Keyspace.read, h.entry, Entry.live, hlive]
  have hrefilled := refilled_of_lt_dueAt hC hR hle hlt
  have hroom : ¬ 1 ≤ refilled capacity refillPerMinute p.nowMs (some b) := by
    rw [hrefilled, not_le]
    exact (lt_dueAt_iff hR b p.nowMs).mp hlt
  have hexec : (scriptCall key capacity refillPerMinute p).exec p.redisAt s = _ :=
    exec_scriptCall hread
  have hsame : dueAt refillPerMinute (tokenBucket capacity refillPerMinute p.nowMs 1 (some b)).2 =
      dueAt refillPerMinute b := by
    rw [tokenBucket_snd_of_lt hroom, hrefilled, dueAt_of_rejected hR]
  constructor
  · refine ⟨_, congrArg Prod.fst hexec, ?_⟩
    rw [tokenBucket_allowed, decide_eq_false hroom]
  · refine ⟨(tokenBucket capacity refillPerMinute p.nowMs 1 (some b)).2, ⟨?_, ?_, ?_⟩,
      tokenBucket_ts .., hsame⟩
    · rw [hexec]
      exact write_hash_self _ _ s key p.redisAt _
    · exact tokenBucket_tokens_nonneg _ _ _ _ _ (by simpa using h.nonneg)
    · rw [hsame, tokenBucket_ts]
      exact hlt

/-- **Polling changes nothing.**  The induction is on the polls; the invariant is that the bucket is
due at the same time as before. -/
theorem Waiting.polls (hC : 1 ≤ capacity) (hR : 1 ≤ refillPerMinute)
    {s : Store String RedisValue} {b : Bucket} {redisAt : ℤ}
    (h : Waiting s key capacity refillPerMinute b redisAt) {polls : List TimedCheck}
    (hpolls : IsPolling ⟨redisAt, b.ts⟩ (dueAt refillPerMinute b) polls) :
    (∀ answer ∈ answers key capacity refillPerMinute s polls, IsRejected answer) ∧
      ∃ b' redisAt', Waiting (storeAfter key capacity refillPerMinute s polls) key capacity
          refillPerMinute b' redisAt' ∧
        dueAt refillPerMinute b' = dueAt refillPerMinute b := by
  induction polls generalizing s b redisAt with
  | nil => exact ⟨fun _ hanswer => (by cases hanswer), b, redisAt, h, rfl⟩
  | cons p polls ih =>
    obtain ⟨hsorted, hearly, hclocks⟩ := hpolls
    rw [List.pairwise_cons] at hsorted hclocks
    obtain ⟨hrejected, b', hwaiting, hts, hdue⟩ := h.poll hC hR
      (hsorted.1 p List.mem_cons_self) (hearly p List.mem_cons_self)
      (hclocks.1 p List.mem_cons_self)
    have hrest : IsPolling ⟨p.redisAt, b'.ts⟩ (dueAt refillPerMinute b') polls := by
      rw [hts, hdue]
      exact ⟨hsorted.2, fun p' hp' => hearly p' (List.mem_cons_of_mem _ hp'), hclocks.2⟩
    obtain ⟨hanswers, b'', redisAt'', hwaiting', hdue'⟩ := ih hwaiting hrest
    refine ⟨fun answer hanswer => ?_, b'', redisAt'', hwaiting', hdue'.trans hdue⟩
    rw [answers, Keyspace.run, List.map_cons, ← answers, List.mem_cons] at hanswer
    rcases hanswer with rfl | hanswer
    · exact hrejected
    · exact hanswers answer hanswer

/-- The first check on time is admitted, by the bucket or because its key is gone. -/
theorem Waiting.admitted (hC : 1 ≤ capacity) (hR : 1 ≤ refillPerMinute)
    {s : Store String RedisValue} {b : Bucket} {redisAt : ℤ}
    (h : Waiting s key capacity refillPerMinute b redisAt) {next : TimedCheck}
    (hdue : dueAt refillPerMinute b ≤ next.nowMs) :
    IsAdmitted (ask key capacity refillPerMinute s next) := by
  obtain ⟨state, hread, hrefilled⟩ : ∃ state : Option Bucket,
      Keyspace.read s next.redisAt key = state.map RedisValue.hash ∧
      1 ≤ refilled capacity refillPerMinute next.nowMs state := by
    by_cases hlive : next.redisAt < redisAt + ttlMs capacity refillPerMinute
    · refine ⟨some b, by simp [Keyspace.read, h.entry, Entry.live, hlive], ?_⟩
      exact one_le_refilled_of_dueAt hC hR (h.notDue.le.trans hdue) hdue
    · refine ⟨none, by simp [Keyspace.read, h.entry, Entry.live, hlive], ?_⟩
      rw [refilled_none]
      exact_mod_cast hC
  have hexec : (scriptCall key capacity refillPerMinute next).exec next.redisAt s = _ :=
    exec_scriptCall hread
  refine ⟨_, congrArg Prod.fst hexec, ?_⟩
  rw [tokenBucket_allowed, decide_eq_true hrefilled]

/-! ## The first rejection -/

/-- The key is absent, or holds a bucket with a count that is not negative. -/
def HoldsBucket (key : String) (s : Store String RedisValue) : Prop :=
  ∀ e, s key = some e → ∃ b : Bucket, e.value = .hash b ∧ 0 ≤ b.tokens

/-- What a check finds under such a key: a bucket, or nothing once the deadline has passed. -/
theorem HoldsBucket.read {s : Store String RedisValue} (h : HoldsBucket key s) (now : ℤ) :
    ∃ state : Option Bucket, Keyspace.read s now key = state.map RedisValue.hash ∧
      ∀ b ∈ state, 0 ≤ b.tokens := by
  cases hread : Keyspace.read s now key with
  | none => exact ⟨none, rfl, by simp⟩
  | some v =>
    obtain ⟨deadline, hentry⟩ := Keyspace.exists_entry_of_read hread
    obtain ⟨b, hb, hnonneg⟩ := h _ hentry
    dsimp only at hb
    exact ⟨some b, by rw [hb, Option.map_some], by simpa using hnonneg⟩

/-- A check leaves a bucket behind. -/
theorem HoldsBucket.check {s : Store String RedisValue} (h : HoldsBucket key s) (c : TimedCheck) :
    HoldsBucket key ((scriptCall key capacity refillPerMinute c).exec c.redisAt s).2 := by
  obtain ⟨state, hread, hnonneg⟩ := h.read c.redisAt
  intro e he
  rw [exec_scriptCall hread] at he
  obtain rfl := Option.some.inj ((write_hash_self _ _ s key c.redisAt _).symm.trans he)
  exact ⟨_, rfl, tokenBucket_tokens_nonneg _ _ _ _ _ hnonneg⟩

/-- The induction is on the history; it starts from a key that nothing has written. -/
theorem holdsBucket_storeAfter {s : Store String RedisValue} (h : HoldsBucket key s)
    (history : List TimedCheck) :
    HoldsBucket key (storeAfter key capacity refillPerMinute s history) := by
  induction history generalizing s with
  | nil => exact h
  | cons c history ih => exact ih (h.check c)

/-- **What a rejection tells and what it leaves behind.**  The wait is at least a millisecond, and
it ends when the bucket is due. -/
theorem waiting_of_rejected (hR : 1 ≤ refillPerMinute)
    {s : Store String RedisValue} (hs : HoldsBucket key s) {c : TimedCheck} {reply : ScriptReply}
    (hreply : ask key capacity refillPerMinute s c = .ok reply)
    (hrejected : reply.allowed = false) :
    1 ≤ reply.retryAfterMs ∧
      ∃ b, Waiting (storeAfter key capacity refillPerMinute s [c]) key capacity refillPerMinute b
          c.redisAt ∧ b.ts = c.nowMs ∧
        dueAt refillPerMinute b = c.nowMs + reply.retryAfterMs := by
  have hrate := ratePerMs_pos hR
  obtain ⟨state, hread, hnonneg⟩ := hs.read c.redisAt
  have hexec : (scriptCall key capacity refillPerMinute c).exec c.redisAt s = _ :=
    exec_scriptCall hread
  have hfst : (tokenBucket capacity refillPerMinute c.nowMs 1 state).1 = reply := by
    rw [ask, hexec] at hreply
    exact Except.ok.inj hreply
  have hroom : ¬ 1 ≤ refilled capacity refillPerMinute c.nowMs state := by
    rw [← hfst, tokenBucket_allowed, decide_eq_false_iff_not] at hrejected
    exact hrejected
  have hwait : reply.retryAfterMs =
      ⌈(1 - refilled capacity refillPerMinute c.nowMs state) / ratePerMs refillPerMinute⌉ := by
    rw [← hfst, tokenBucket_of_lt hroom, retryAfterMs, if_pos hrate]
  have hpos : 0 < reply.retryAfterMs := by
    rw [hwait, Int.ceil_pos]
    exact div_pos (by linarith) hrate
  have hdue : dueAt refillPerMinute (tokenBucket capacity refillPerMinute c.nowMs 1 state).2 =
      c.nowMs + reply.retryAfterMs := by
    rw [tokenBucket_snd_of_lt hroom, dueAt, hwait]
  refine ⟨hpos, _, ⟨?_, ?_, ?_⟩, tokenBucket_ts .., hdue⟩
  · rw [storeAfter, List.foldl_cons, List.foldl_nil, hexec]
    exact write_hash_self _ _ s key c.redisAt _
  · exact tokenBucket_tokens_nonneg _ _ _ _ _ hnonneg
  · rw [hdue, tokenBucket_ts]
    omega

/-! ## The header -/

/-- The `Retry-After` of the rejection that a reply of the script leads to. -/
def sentHeader (reply : ScriptReply) : ℤ :=
  retryAfterHeader (RateLimiter.decodeReply (.ok reply)).1

/-- The second rounding: whole seconds, up.  The floor at one second is never needed. -/
theorem sentHeader_bounds {reply : ScriptReply} (hrejected : reply.allowed = false)
    (hpos : 1 ≤ reply.retryAfterMs) :
    1000 * (sentHeader reply - 1) < reply.retryAfterMs ∧
      reply.retryAfterMs ≤ 1000 * sentHeader reply := by
  have hdecoded : (RateLimiter.decodeReply (.ok reply)).1.retryAfterSeconds =
      some ((reply.retryAfterMs : ℚ) / 1000) := by
    simp [RateLimiter.decodeReply, hrejected, max_eq_left (by omega : 0 ≤ reply.retryAfterMs)]
  have hceil : sentHeader reply = ⌈(reply.retryAfterMs : ℚ) / 1000⌉ := by
    rw [sentHeader, retryAfterHeader, hdecoded, Option.getD_some]
    refine max_eq_right (Int.add_one_le_iff.mpr (Int.ceil_pos.mpr ?_))
    have : (0 : ℚ) < reply.retryAfterMs := by exact_mod_cast hpos
    positivity
  have hupper := Int.le_ceil ((reply.retryAfterMs : ℚ) / 1000)
  have hlower := Int.ceil_lt_add_one ((reply.retryAfterMs : ℚ) / 1000)
  rw [← hceil] at hupper hlower
  constructor
  · have : (1000 * (sentHeader reply - 1) : ℚ) < reply.retryAfterMs := by linarith
    exact_mod_cast this
  · have : (reply.retryAfterMs : ℚ) ≤ 1000 * sentHeader reply := by linarith
    exact_mod_cast this

/-! ## The hint is exact -/

/-- What the rejection of a check promises, to a client that polls and to one that waits. -/
structure RetryExact (key : String) (capacity refillPerMinute : ℕ) (s : Store String RedisValue)
    (c : TimedCheck) (reply : ScriptReply) : Prop where
  pos : 1 ≤ reply.retryAfterMs
  /-- Whoever polls too early is rejected, every time. -/
  early : ∀ polls, IsPolling c (c.nowMs + reply.retryAfterMs) polls →
    ∀ answer ∈ answers key capacity refillPerMinute
      (storeAfter key capacity refillPerMinute s [c]) polls, IsRejected answer
  /-- The first check on time is admitted, however often the client has polled. -/
  onTime : ∀ polls, IsPolling c (c.nowMs + reply.retryAfterMs) polls →
    ∀ next : TimedCheck, c.nowMs + reply.retryAfterMs ≤ next.nowMs →
      IsAdmitted (ask key capacity refillPerMinute
        (storeAfter key capacity refillPerMinute s (c :: polls)) next)
  /-- The header is the wait in whole seconds, rounded up. -/
  header : 1000 * (sentHeader reply - 1) < reply.retryAfterMs ∧
    reply.retryAfterMs ≤ 1000 * sentHeader reply
  /-- Waiting as long as the header says is enough. -/
  waits : ∀ next : TimedCheck, c.nowMs + 1000 * sentHeader reply ≤ next.nowMs →
    IsAdmitted (ask key capacity refillPerMinute
      (storeAfter key capacity refillPerMinute s [c]) next)
  /-- No smaller number of whole seconds is. -/
  sharp : ∀ seconds : ℤ, 0 ≤ seconds → seconds < sentHeader reply →
    ∀ next : TimedCheck, next.nowMs = c.nowMs + 1000 * seconds → WithinSlack c next →
      IsRejected (ask key capacity refillPerMinute
        (storeAfter key capacity refillPerMinute s [c]) next)

/-- **The retry hint is exact and survives impatient polling.**  The bucket may be in any state
that checks at any times have left it in, its stored time in the past or in the future, its key
expired or not. -/
theorem retryAfter_exact (key : String) (capacity refillPerMinute : ℕ) (hC : 1 ≤ capacity)
    (hR : 1 ≤ refillPerMinute) (history : List TimedCheck) (c : TimedCheck) (reply : ScriptReply)
    (hreply : ask key capacity refillPerMinute
      (storeAfter key capacity refillPerMinute (fun _ => none) history) c = .ok reply)
    (hrejected : reply.allowed = false) :
    RetryExact key capacity refillPerMinute
      (storeAfter key capacity refillPerMinute (fun _ => none) history) c reply := by
  have hstart : HoldsBucket key (fun _ => none) := by
    intro e he
    cases he
  obtain ⟨hpos, b, hwaiting, hts, hdue⟩ := waiting_of_rejected hR
    (holdsBucket_storeAfter hstart history) hreply hrejected
  have hheader := sentHeader_bounds hrejected hpos
  have hpolls : ∀ polls, IsPolling c (c.nowMs + reply.retryAfterMs) polls →
      IsPolling ⟨c.redisAt, b.ts⟩ (dueAt refillPerMinute b) polls := by
    intro polls h
    rwa [hts, hdue]
  refine ⟨hpos, fun polls h => (hwaiting.polls hC hR (hpolls polls h)).1, ?_, hheader, ?_, ?_⟩
  · intro polls h next hnext
    obtain ⟨b', redisAt', hwaiting', hdue'⟩ := (hwaiting.polls hC hR (hpolls polls h)).2
    exact hwaiting'.admitted hC hR (by rw [hdue', hdue]; exact hnext)
  · intro next hnext
    exact hwaiting.admitted hC hR (by omega)
  · intro seconds hnonneg hlt next hnext hslack
    refine (hwaiting.poll hC hR (by omega) (by omega) ?_).1
    rwa [hts]

/-- One token, one a second.  The check 400 ms after the admitted one is told to wait for the other
600 ms, which is a second in the header. -/
theorem retryAfter_exact_sixHundred :
    RetryExact "b" 1 60 (storeAfter "b" 1 60 (fun _ => none) [⟨0, 0⟩]) ⟨400, 400⟩
        ⟨false, 600, 2 / 5⟩ ∧
      sentHeader ⟨false, 600, 2 / 5⟩ = 1 :=
  ⟨retryAfter_exact "b" 1 60 (by decide) (by decide) [⟨0, 0⟩] ⟨400, 400⟩ ⟨false, 600, 2 / 5⟩
    (by decide +kernel) rfl, by decide +kernel⟩

end RateLimit
end UrlShortener
