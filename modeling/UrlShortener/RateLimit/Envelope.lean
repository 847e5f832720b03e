import UrlShortener.Core.RateLimiter
import UrlShortener.Library.ClampedCounter
import Mathlib.Data.List.GetD
import Mathlib.Tactic.Ring

/-!
# The limiter enforces its envelope

`replies capacity refillPerMinute none times` is what a finite sequence of checks on one bucket is
told when the bucket starts absent and its key never expires.

The specification of a rate limiter speaks about windows: between any two checks, at most
`capacity` plus the refill of the window may be admitted.  The script keeps one clamped number.
`ClampedCounter` proves the two notions equal in general, and this file connects the script to it:
with a clock that does not go back, the refilled token count of check `k` is the level of the
counter whose inflow is the clock times the rate and whose withdrawals are the admissions
(`refilled_stateAfter_eq_level`).  The envelope theorem follows by reading off
`one_le_level_iff`.
-/

set_option autoImplicit false

namespace UrlShortener
namespace RateLimit

variable (capacity refillPerMinute : ℕ)

/-! ## Sequences of checks -/

/-- The replies to checks at the given clock readings, in the order the scripts execute. -/
def replies : Option Bucket → List ℤ → List ScriptReply
  | _, [] => []
  | state, nowMs :: rest =>
      (tokenBucket capacity refillPerMinute nowMs 1 state).1 ::
        replies (some (tokenBucket capacity refillPerMinute nowMs 1 state).2) rest

/-- The bucket after a sequence of checks. -/
def stateAfter : Option Bucket → List ℤ → Option Bucket
  | state, [] => state
  | state, nowMs :: rest =>
      stateAfter (some (tokenBucket capacity refillPerMinute nowMs 1 state).2) rest

/-- How many replies of a list admit their request. -/
def admitted (rs : List ScriptReply) : ℕ := rs.countP (·.allowed)

@[simp] theorem length_replies (state : Option Bucket) (times : List ℤ) :
    (replies capacity refillPerMinute state times).length = times.length := by
  induction times generalizing state with
  | nil => rfl
  | cons t times ih => rw [replies, List.length_cons, List.length_cons, ih]

theorem replies_append (state : Option Bucket) (times times' : List ℤ) :
    replies capacity refillPerMinute state (times ++ times') =
      replies capacity refillPerMinute state times ++
        replies capacity refillPerMinute (stateAfter capacity refillPerMinute state times)
          times' := by
  induction times generalizing state with
  | nil => rfl
  | cons t times ih => rw [List.cons_append, replies, replies, ih, stateAfter, List.cons_append]

theorem stateAfter_append (state : Option Bucket) (times times' : List ℤ) :
    stateAfter capacity refillPerMinute state (times ++ times') =
      stateAfter capacity refillPerMinute (stateAfter capacity refillPerMinute state times)
        times' := by
  induction times generalizing state with
  | nil => rfl
  | cons t times ih => rw [List.cons_append, stateAfter, stateAfter, ih]

/-- One more check. -/
theorem stateAfter_concat (state : Option Bucket) (times : List ℤ) (nowMs : ℤ) :
    stateAfter capacity refillPerMinute state (times ++ [nowMs]) =
      some (tokenBucket capacity refillPerMinute nowMs 1
        (stateAfter capacity refillPerMinute state times)).2 := by
  rw [stateAfter_append]
  rfl

/-- The reply to check `k` is the script's reply in the state its predecessors left. -/
theorem getElem?_replies (state : Option Bucket) {times : List ℤ} {k : ℕ} {nowMs : ℤ}
    (hk : times[k]? = some nowMs) :
    (replies capacity refillPerMinute state times)[k]? =
      some (tokenBucket capacity refillPerMinute nowMs 1
        (stateAfter capacity refillPerMinute state (times.take k))).1 := by
  induction times generalizing state k with
  | nil => simp at hk
  | cons t times ih =>
    cases k with
    | zero =>
      obtain rfl : t = nowMs := by simpa using hk
      simp [replies, stateAfter]
    | succ k =>
      rw [replies, List.getElem?_cons_succ, List.take_succ_cons, stateAfter]
      exact ih _ (by simpa using hk)

/-! ## The script as a clamped counter -/

/-- The running refill: the clock reading of check `i` times the rate. -/
def inflow (times : List ℤ) (i : ℕ) : ℚ := (times.getD i 0 : ℤ) * ratePerMs refillPerMinute

/-- What check `i` takes: one token if it is admitted. -/
def withdrawn (rs : List ScriptReply) (i : ℕ) : ℚ :=
  if (rs[i]?.map (·.allowed)) = some true then 1 else 0

/-- Counting admissions is summing withdrawals. -/
theorem sum_withdrawn (rs : List ScriptReply) {j k : ℕ} (hjk : j ≤ k) (hk : k ≤ rs.length) :
    ∑ i ∈ Finset.Ico j k, withdrawn rs i = admitted ((rs.take k).drop j) := by
  induction k, hjk using Nat.le_induction with
  | base => simp [admitted, List.drop_eq_nil_of_le]
  | succ k hjk ih =>
    rw [Finset.sum_Ico_succ_top hjk, ih (by omega), List.take_add_one,
      List.drop_append_of_le_length (by rw [List.length_take]; omega)]
    have hget : rs[k]? = some rs[k] := List.getElem?_eq_getElem (by omega)
    cases hallowed : rs[k].allowed <;> simp [admitted, withdrawn, hget, hallowed]

variable {capacity refillPerMinute}

/-- **The refilled token count is the level of the clamped counter.**  The induction is on the
number of checks; the clock must not go back, so that the guarded elapsed time is the difference
of the two readings. -/
theorem refilled_stateAfter_eq_level {times : List ℤ} (hmono : times.Pairwise (· ≤ ·)) {k : ℕ}
    {nowMs : ℤ} (hk : times[k]? = some nowMs) :
    refilled capacity refillPerMinute nowMs
        (stateAfter capacity refillPerMinute none (times.take k)) =
      ClampedCounter.level (capacity : ℚ) (inflow refillPerMinute times)
        (withdrawn (replies capacity refillPerMinute none times)) k := by
  induction k generalizing nowMs with
  | zero => simp [stateAfter]
  | succ k ih =>
    have hlt : k + 1 < times.length := by
      by_contra hge
      rw [List.getElem?_eq_none (by omega)] at hk
      cases hk
    obtain ⟨lastTs, hlast⟩ : ∃ t, times[k]? = some t :=
      ⟨_, List.getElem?_eq_getElem (by omega)⟩
    have hle : lastTs ≤ nowMs := by
      have hpair := List.pairwise_iff_getElem.mp hmono k (k + 1) (by omega) hlt (by omega)
      rw [List.getElem?_eq_getElem (by omega), Option.some.injEq] at hk hlast
      rwa [hk, hlast] at hpair
    have hreply := getElem?_replies capacity refillPerMinute none hlast
    rw [ClampedCounter.level_succ, ← ih hlast, List.take_add_one, hlast, Option.toList_some,
      stateAfter_concat, refilled_some, tokenBucket_ts, tokenBucket_tokens, elapsedMs_of_le hle]
    have hwithdrawn : withdrawn (replies capacity refillPerMinute none times) k =
        if 1 ≤ refilled capacity refillPerMinute lastTs
          (stateAfter capacity refillPerMinute none (times.take k)) then 1 else 0 := by
      rw [withdrawn, hreply, Option.map_some, tokenBucket_allowed]
      simp only [Option.some.injEq, decide_eq_true_eq]
    have hinflow : inflow refillPerMinute times (k + 1) - inflow refillPerMinute times k =
        ((nowMs - lastTs : ℤ) : ℚ) * ratePerMs refillPerMinute := by
      rw [inflow, inflow, List.getD_eq_getElem?_getD, List.getD_eq_getElem?_getD, hk, hlast]
      simp only [Option.getD_some]
      push_cast
      ring
    rw [hwithdrawn, hinflow]

/-! ## The envelope -/

/-- The refill of a window, with the rate written out. -/
theorem inflow_sub_inflow {times : List ℤ} {j k : ℕ} {since nowMs : ℤ}
    (hj : times[j]? = some since) (hk : times[k]? = some nowMs) :
    inflow refillPerMinute times k - inflow refillPerMinute times j =
      (nowMs - since) * refillPerMinute / 60000 := by
  rw [inflow, inflow, List.getD_eq_getElem?_getD, List.getD_eq_getElem?_getD, hk, hj, ratePerMs]
  simp only [Option.getD_some]
  ring

/-- One check: it is admitted exactly when no window ending at it is exhausted. -/
theorem allowed_iff_of_getElem? {times : List ℤ} (hmono : times.Pairwise (· ≤ ·)) {k : ℕ}
    {nowMs : ℤ} {reply : ScriptReply} (hk : times[k]? = some nowMs)
    (hreply : (replies capacity refillPerMinute none times)[k]? = some reply) :
    reply.allowed = true ↔ ∀ j ≤ k, ∀ since, times[j]? = some since →
      (admitted (((replies capacity refillPerMinute none times).take k).drop j) : ℚ) + 1 ≤
        capacity + (nowMs - since) * refillPerMinute / 60000 := by
  have hlt : k < times.length := (List.getElem?_eq_some_iff.mp hk).1
  have hscript := (getElem?_replies capacity refillPerMinute none hk).symm.trans hreply
  rw [← Option.some.inj hscript, tokenBucket_allowed, decide_eq_true_eq,
    refilled_stateAfter_eq_level hmono hk, ClampedCounter.one_le_level_iff]
  refine forall₂_congr fun j hj => ?_
  have hget : times[j]? = some times[j] := List.getElem?_eq_getElem (by omega)
  rw [sum_withdrawn _ hj (by rw [length_replies]; omega), inflow_sub_inflow hget hk, hget]
  simp only [Option.some.injEq, forall_eq']

/-- A window that ends at check `k` has admitted no more than the envelope.  The induction is on
`k`: a rejected check adds nothing and the envelope only grows, and an admitted one was admitted
because there was room. -/
theorem admitted_window_le {times : List ℤ} (hmono : times.Pairwise (· ≤ ·)) {j k : ℕ}
    (hjk : j ≤ k) {since nowMs : ℤ} (hj : times[j]? = some since) (hk : times[k]? = some nowMs) :
    (admitted (((replies capacity refillPerMinute none times).take (k + 1)).drop j) : ℚ) ≤
      capacity + (nowMs - since) * refillPerMinute / 60000 := by
  have hlen := length_replies capacity refillPerMinute none times
  have hlt : k < times.length := (List.getElem?_eq_some_iff.mp hk).1
  obtain ⟨reply, hreply⟩ : ∃ r, (replies capacity refillPerMinute none times)[k]? = some r :=
    ⟨_, List.getElem?_eq_getElem (by omega)⟩
  have hsplit : ((replies capacity refillPerMinute none times).take (k + 1)).drop j =
      ((replies capacity refillPerMinute none times).take k).drop j ++ [reply] := by
    rw [List.take_add_one, hreply, Option.toList_some,
      List.drop_append_of_le_length (by rw [List.length_take]; omega)]
  have hle : ∀ {i : ℕ} {t : ℤ}, i ≤ k → times[i]? = some t → t ≤ nowMs := by
    intro i t hi ht
    rcases Nat.lt_or_ge i k with hik | hik
    · have hpair := List.pairwise_iff_getElem.mp hmono i k (by omega) hlt hik
      rw [List.getElem?_eq_getElem (by omega), Option.some.injEq] at hk ht
      rwa [ht, hk] at hpair
    · obtain rfl : i = k := by omega
      rw [ht, Option.some.injEq] at hk
      exact hk.le
  cases hallowed : reply.allowed with
  | true =>
    have hroom := (allowed_iff_of_getElem? hmono hk hreply).mp hallowed j hjk since hj
    rw [hsplit]
    simpa [admitted, hallowed] using hroom
  | false =>
    rw [hsplit]
    have hdrop : admitted
        (((replies capacity refillPerMinute none times).take k).drop j ++ [reply]) =
        admitted (((replies capacity refillPerMinute none times).take k).drop j) := by
      simp [admitted, hallowed]
    rw [hdrop]
    rcases Nat.eq_or_lt_of_le hjk with rfl | hjk'
    · have hnil : ((replies capacity refillPerMinute none times).take j).drop j = [] :=
        List.drop_eq_nil_of_le (by rw [List.length_take]; omega)
      have hwindow : (since : ℚ) ≤ nowMs := by exact_mod_cast hle le_rfl hj
      have hterm : (0 : ℚ) ≤ (nowMs - since) * refillPerMinute / 60000 := by
        have : (0 : ℚ) ≤ nowMs - since := by linarith
        positivity
      rw [hnil]
      simp only [admitted, List.countP_nil, Nat.cast_zero]
      positivity
    · obtain ⟨k, rfl⟩ : ∃ k', k = k' + 1 := ⟨k - 1, by omega⟩
      obtain ⟨t, ht⟩ : ∃ t, times[k]? = some t := ⟨_, List.getElem?_eq_getElem (by omega)⟩
      have ih := admitted_window_le hmono (by omega) hj ht
      have htnow : (t : ℚ) ≤ nowMs := by exact_mod_cast hle (by omega) ht
      have hgrow : ((t : ℚ) - since) * refillPerMinute / 60000 ≤
          (nowMs - since) * refillPerMinute / 60000 := by
        gcongr
      linarith

/-- **With a clock that does not go back, the limiter enforces exactly its envelope.**  A check is
admitted if and only if, for every earlier check, the admissions since then and itself fit into
the capacity plus the refill of the window; hence no window ever admits more than that, and no
check is rejected that every window would permit. -/
theorem allowed_iff_envelope (capacity refillPerMinute : ℕ) (times : List ℤ)
    (hmono : times.Pairwise (· ≤ ·)) :
    (replies capacity refillPerMinute none times).length = times.length ∧
    (∀ (k : ℕ) (nowMs : ℤ) (reply : ScriptReply), times[k]? = some nowMs →
      (replies capacity refillPerMinute none times)[k]? = some reply →
      (reply.allowed = true ↔ ∀ j ≤ k, ∀ since : ℤ, times[j]? = some since →
        (admitted (((replies capacity refillPerMinute none times).take k).drop j) : ℚ) + 1 ≤
          capacity + (nowMs - since) * refillPerMinute / 60000)) ∧
    (∀ (j k : ℕ) (since nowMs : ℤ), j ≤ k → times[j]? = some since → times[k]? = some nowMs →
      (admitted (((replies capacity refillPerMinute none times).take (k + 1)).drop j) : ℚ) ≤
        capacity + (nowMs - since) * refillPerMinute / 60000) :=
  ⟨length_replies capacity refillPerMinute none times,
    fun _ _ _ hk hreply => allowed_iff_of_getElem? hmono hk hreply,
    fun _ _ _ _ hjk hj hk => admitted_window_le hmono hjk hj hk⟩

/-- Two requests at once and one a second later, against one token a second: the second is the
only one turned away, and every window of the run is within the envelope. -/
theorem allowed_iff_envelope_burst :
    (replies 1 60 none [0, 0, 1000]).map (·.allowed) = [true, false, true] ∧
      ∀ (j k : ℕ) (since nowMs : ℤ), j ≤ k → [0, 0, 1000][j]? = some since →
        [0, 0, 1000][k]? = some nowMs →
        (admitted (((replies 1 60 none [0, 0, 1000]).take (k + 1)).drop j) : ℚ) ≤
          (1 : ℕ) + (nowMs - since) * (60 : ℕ) / 60000 :=
  ⟨by decide +kernel, (allowed_iff_envelope 1 60 [0, 0, 1000] (by decide)).2.2⟩

end RateLimit
end UrlShortener
