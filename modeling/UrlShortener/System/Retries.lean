import UrlShortener.System.RateLimiting
import UrlShortener.RateLimit.RetryAfter

/-!
# Waiting for `Retry-After` is enough

A rejected client learns how many seconds to wait.  What it does with them happens in the running
service: other clients are served meanwhile, the cache uses the same Redis, and before the rejection
anything may have failed or been lost.

## What is proved

`App.retry_after`: every rejection fixes a moment, within the last of the seconds in its header.
The client is rejected again before that moment, however often it asks and whatever else goes on,
and let through from that moment on, provided that no Redis call of its own fails and its bucket is
not lost in between, and that its clocks agree.
-/

set_option autoImplicit false

namespace UrlShortener

open Keyspace (Store Command Entry)
open RateLimit (Stored BucketEvent TimedCheck)

section Answers

variable {clientId : String} {routeClass : RouteClass} {redis : Store String RedisValue}
  {stored : Option Stored}

/-- What a bucket returns to undisturbed checks is what the keyspace answers. -/
theorem HoldsStored.verdicts (h : HoldsStored clientId routeClass redis stored)
    (capacity refillPerMinute : ℕ) (checks : List TimedCheck) :
    RateLimit.verdicts capacity refillPerMinute stored (RateLimit.undisturbed checks) =
      (RateLimit.answers (RateLimiter.key clientId routeClass) capacity refillPerMinute redis
        checks).map fun answer => (RateLimiter.decodeReply answer).1 := by
  induction checks generalizing redis stored with
  | nil => rfl
  | cons c checks ih =>
    have hexec : (RateLimit.scriptCall (RateLimiter.key clientId routeClass) capacity
        refillPerMinute c).exec c.redisAt redis = _ :=
      RateLimit.exec_scriptCall (h.read c.redisAt)
    have hafter : HoldsStored clientId routeClass ((RateLimit.scriptCall
        (RateLimiter.key clientId routeClass) capacity refillPerMinute c).exec c.redisAt redis).2
        (some (RateLimit.afterScript capacity refillPerMinute stored c)) := by
      rw [hexec]
      exact RateLimit.write_hash_self ..
    rw [RateLimit.undisturbed, List.map_cons, RateLimit.verdicts_cons, RateLimit.answers,
      Keyspace.run, List.map_cons, List.map_cons, ← RateLimit.answers, ← RateLimit.undisturbed,
      ← ih hafter, hexec]
    rfl

/-- A bucket is one that some history of checks can leave behind. -/
theorem HoldsStored.holdsBucket {capacity : ℕ} (h : HoldsStored clientId routeClass redis stored)
    (hsound : RateLimit.Sound capacity stored) :
    RateLimit.HoldsBucket (RateLimiter.key clientId routeClass) redis := by
  intro entry hentry
  obtain ⟨s, hs, rfl⟩ := Option.map_eq_some_iff.mp (h.symm.trans hentry)
  exact ⟨s.bucket, rfl, (hsound s hs).1⟩

end Answers

/-- The answers to some checks and one more. -/
theorem RateLimit.answers_concat (key : String) (capacity refillPerMinute : ℕ)
    (s : Store String RedisValue) (checks : List TimedCheck) (next : TimedCheck) :
    RateLimit.answers key capacity refillPerMinute s (checks ++ [next]) =
      RateLimit.answers key capacity refillPerMinute s checks ++
        [RateLimit.ask key capacity refillPerMinute
          (RateLimit.storeAfter key capacity refillPerMinute s checks) next] := by
  induction checks generalizing s with
  | nil => rfl
  | cons c checks ih => exact congrArg (List.cons _) (ih _)

theorem RateLimit.length_answers (key : String) (capacity refillPerMinute : ℕ)
    (s : Store String RedisValue) (checks : List TimedCheck) :
    (RateLimit.answers key capacity refillPerMinute s checks).length = checks.length := by
  induction checks generalizing s with
  | nil => rfl
  | cons c checks ih => exact congrArg Nat.succ (ih _)

/-- What the limiter makes of an answer. -/
theorem rejection?_isSome_of_isRejected {answer : Except RedisError ScriptReply}
    (h : RateLimit.IsRejected answer) :
    (rejection? (RateLimiter.decodeReply answer).1).isSome = true := by
  obtain ⟨reply, rfl, hrejected⟩ := h
  have hdecoded : (RateLimiter.decodeReply (.ok reply)).1.allowed = false := hrejected
  rw [rejection?, hdecoded]
  rfl

theorem rejection?_of_isAdmitted {answer : Except RedisError ScriptReply}
    (h : RateLimit.IsAdmitted answer) : rejection? (RateLimiter.decodeReply answer).1 = none := by
  obtain ⟨reply, rfl, hadmitted⟩ := h
  exact if_pos hadmitted

/-- **A client that polls and then comes on time** is rejected every time but the last. -/
theorem RateLimit.Waiting.decisions {key : String} {capacity refillPerMinute : ℕ}
    (hC : 1 ≤ capacity) (hR : 1 ≤ refillPerMinute) {s : Store String RedisValue} {b : Bucket}
    {redisAt : ℤ} (h : RateLimit.Waiting s key capacity refillPerMinute b redisAt)
    {polls : List TimedCheck}
    (hpolls : RateLimit.IsPolling ⟨redisAt, b.ts⟩ (RateLimit.dueAt refillPerMinute b) polls)
    {next : TimedCheck} (hnext : RateLimit.dueAt refillPerMinute b ≤ next.nowMs) :
    ∃ rejections, ((RateLimit.answers key capacity refillPerMinute s (polls ++ [next])).map
        fun answer => rejection? (RateLimiter.decodeReply answer).1) = rejections ++ [none] ∧
      rejections.length = polls.length ∧ none ∉ rejections := by
  obtain ⟨hanswers, b', redisAt', hwaiting', hdue'⟩ := h.polls hC hR hpolls
  have hlast := hwaiting'.admitted hC hR (by rw [hdue']; exact hnext)
  refine ⟨(RateLimit.answers key capacity refillPerMinute s polls).map
    fun answer => rejection? (RateLimiter.decodeReply answer).1, ?_, ?_, ?_⟩
  · rw [RateLimit.answers_concat, List.map_append, List.map_singleton,
      rejection?_of_isAdmitted hlast]
  · rw [List.length_map, RateLimit.length_answers]
  · intro hmem
    obtain ⟨answer, hanswer, hnone⟩ := List.mem_map.mp hmem
    have hsome := rejection?_isSome_of_isRejected (hanswers answer hanswer)
    rw [hnone] at hsome
    cases hsome

section Rejection

variable {clientId : String} {routeClass : RouteClass}

/-- One event means at most one thing for a bucket. -/
theorem App.bucketTrace_singleton (app : App) (es : List Event) (e : Event) :
    app.bucketTrace clientId routeClass es [e] = [] ∨
      app.bucketTrace clientId routeClass es [e] = [.lost] ∨
      ∃ c fault, app.bucketTrace clientId routeClass es [e] = [.check c fault] := by
  have hone : app.bucketTrace clientId routeClass es [e] =
      Interleaving.System.emits (bucketEvents clientId routeClass)
        (bucketLosses clientId routeClass) (app.run es) e := List.append_nil _
  rw [hone]
  cases e with
  | arrive request => exact Or.inl rfl
  | env e =>
    rw [Interleaving.System.emits]
    unfold bucketLosses
    split
    · split
      · exact Or.inr (Or.inl rfl)
      · exact Or.inl rfl
    · exact Or.inl rfl
  | act i action =>
    rw [Interleaving.System.emits]
    cases (app.run es).procs[i]? with
    | none => exact Or.inl rfl
    | some h =>
      rw [Option.elim_some, bucketEvents]
      cases (redisOp? h action).bind (ownCheck clientId routeClass) with
      | none => exact Or.inl rfl
      | some check => exact Or.inr (Or.inr ⟨_, _, rfl⟩)

/-- **A rejection comes from a check that met no fault**, and its header from the reply. -/
theorem App.check_of_rejected (app : App) {es : List Event} {e : Event} {response : Response}
    (hrejected : app.decisions clientId routeClass es [e] = [some response])
    {stored : Option Stored}
    (hstored : HoldsStored clientId routeClass (app.run es).shared.redis stored) :
    ∃ c reply, app.bucketTrace clientId routeClass es [e] = [.check c .none] ∧
      (RateLimit.runScript (RateLimiter.limitsFor app.settings routeClass).1
        (RateLimiter.limitsFor app.settings routeClass).2 stored c).1 = reply ∧
      reply.allowed = false ∧
      response = tooManyRequests (RateLimiter.decodeReply (.ok reply)).1 := by
  have hdecisions := (app.simulates_bucket hstored [e]).2
  rw [hrejected] at hdecisions
  rcases app.bucketTrace_singleton es e with htrace | htrace | ⟨c, fault, htrace⟩
  · rw [htrace] at hdecisions
    cases hdecisions
  · rw [htrace] at hdecisions
    cases hdecisions
  · rw [htrace] at hdecisions ⊢
    cases fault with
    | none =>
      refine ⟨c, _, rfl, rfl, ?_⟩
      generalize hreply : (RateLimit.runScript (RateLimiter.limitsFor app.settings routeClass).1
        (RateLimiter.limitsFor app.settings routeClass).2 stored c).1 = reply
      have hdecision : some response = rejection? (RateLimiter.decodeReply (.ok reply)).1 := by
        rw [← hreply]
        exact List.singleton_inj.mp hdecisions
      rw [rejection?] at hdecision
      split at hdecision
      · cases hdecision
      · rename_i hnot
        exact ⟨Bool.eq_false_iff.mpr hnot, Option.some.inj hdecision⟩
    | lostReply => cases hdecisions
    | lostCall => cases hdecisions

end Rejection

/-- **Waiting for `Retry-After` is enough, and less is not.**  The rejection fixes a moment: the
client's checks before it are rejected, and the first one after it is let through. -/
theorem App.retry_after (app : App) (clientId : String) (routeClass : RouteClass)
    (es : List Event) (e : Event) (detail : String) (header : ℤ)
    (hrejected : app.decisions clientId routeClass es [e] =
      [some (.httpException 429 detail (some header))]) :
    ∃ c due, app.bucketTrace clientId routeClass es [e] = [.check c .none] ∧
      c.nowMs + 1000 * (header - 1) < due ∧ due ≤ c.nowMs + 1000 * header ∧
      ∀ es' polls next, app.bucketTrace clientId routeClass (es ++ [e]) es' =
          RateLimit.undisturbed (polls ++ [next]) →
        RateLimit.IsPolling c due polls → due ≤ next.nowMs →
          ∃ rejections, app.decisions clientId routeClass (es ++ [e]) es' = rejections ++ [none] ∧
            rejections.length = polls.length ∧ none ∉ rejections := by
  have hC := RateLimiter.limitsFor_fst_pos app.settings routeClass
  have hR := RateLimiter.limitsFor_snd_pos app.settings routeClass
  obtain ⟨stored, hstored, hsound⟩ := app.exists_stored clientId routeClass es
  obtain ⟨c, reply, htrace, hreply, hallowed, hresponse⟩ := app.check_of_rejected hrejected hstored
  have hheader : header = RateLimit.sentHeader reply := by
    cases hresponse
    rfl
  have hexec : (RateLimit.scriptCall (RateLimiter.key clientId routeClass)
      (RateLimiter.limitsFor app.settings routeClass).1
      (RateLimiter.limitsFor app.settings routeClass).2 c).exec c.redisAt
        (app.run es).shared.redis = _ :=
    RateLimit.exec_scriptCall (hstored.read c.redisAt)
  obtain ⟨hpos, b, hwaiting, hts, hdue⟩ := RateLimit.waiting_of_rejected hR
    (hstored.holdsBucket hsound) ((congrArg Prod.fst hexec).trans (congrArg Except.ok hreply))
    hallowed
  obtain ⟨hlower, hupper⟩ := RateLimit.sentHeader_bounds hallowed hpos
  -- the keyspace on which the client would be alone after the rejection
  have halone : HoldsStored clientId routeClass (RateLimit.storeAfter
      (RateLimiter.key clientId routeClass) (RateLimiter.limitsFor app.settings routeClass).1
      (RateLimiter.limitsFor app.settings routeClass).2 (app.run es).shared.redis [c])
      (some (RateLimit.afterScript (RateLimiter.limitsFor app.settings routeClass).1
        (RateLimiter.limitsFor app.settings routeClass).2 stored c)) := by
    rw [RateLimit.storeAfter, List.foldl_cons, List.foldl_nil, hexec]
    exact RateLimit.write_hash_self ..
  refine ⟨c, c.nowMs + reply.retryAfterMs, htrace, by omega, by omega, ?_⟩
  intro es' polls next htrace' hpolls hnext
  have hafter := (app.simulates_bucket hstored [e]).1
  rw [htrace] at hafter
  have hdecisions := (app.simulates_bucket hafter es').2
  rw [htrace'] at hdecisions
  rw [hdecisions]
  have hverdicts := halone.verdicts (RateLimiter.limitsFor app.settings routeClass).1
    (RateLimiter.limitsFor app.settings routeClass).2 (polls ++ [next])
  have hpolling : RateLimit.IsPolling ⟨c.redisAt, b.ts⟩
      (RateLimit.dueAt (RateLimiter.limitsFor app.settings routeClass).2 b) polls := by
    rw [hts, hdue]
    exact hpolls
  obtain ⟨rejections, hanswers, hlength, hnone⟩ :=
    hwaiting.decisions hC hR hpolling (hdue.trans_le hnext)
  refine ⟨rejections, (congrArg (List.map rejection?) hverdicts).trans ?_, hlength, hnone⟩
  rw [List.map_map]
  exact hanswers

/-- Settings with another bucket for redirects. -/
def Settings.withRedirectLimits (settings : Settings) (capacity refillPerMinute : ℕ)
    (hcapacity : 0 < capacity) (hrefill : 0 < refillPerMinute) : Settings :=
  { settings with
    rateLimitRedirectCapacity := capacity
    rateLimitRedirectCapacity_pos := hcapacity
    rateLimitRedirectRefillPerMinute := refillPerMinute
    rateLimitRedirectRefillPerMinute_pos := hrefill }

/-- One redirect at a time, and one a second. -/
def App.strict : App :=
  { App.sample with
    settings := App.sample.settings.withRedirectLimits 1 60 Nat.one_pos (by decide) }

/-- A redirect, and another one up to its check. -/
def secondRedirect : List Event :=
  .arrive (Call.redirect "abcd").plain :: steps 0 2 .calm ++
    .arrive (Call.redirect "abcd").plain :: steps 1 1 .calm

theorem App.retry_after_secondRedirect :
    ∃ c due, App.strict.bucketTrace "10.0.0.1" .redirect secondRedirect
        [.act 1 (.advance .calm)] = [.check c .none] ∧
      c.nowMs + 1000 * ((1 : ℤ) - 1) < due ∧ due ≤ c.nowMs + 1000 * 1 ∧
      ∀ es' polls next, App.strict.bucketTrace "10.0.0.1" .redirect
          (secondRedirect ++ [.act 1 (.advance .calm)]) es' =
            RateLimit.undisturbed (polls ++ [next]) →
        RateLimit.IsPolling c due polls → due ≤ next.nowMs →
          ∃ rejections, App.strict.decisions "10.0.0.1" .redirect
              (secondRedirect ++ [.act 1 (.advance .calm)]) es' = rejections ++ [none] ∧
            rejections.length = polls.length ∧ none ∉ rejections :=
  App.strict.retry_after "10.0.0.1" .redirect secondRedirect (.act 1 (.advance .calm))
    "Rate limit exceeded. Slow down and retry later." 1 (by decide +kernel)

end UrlShortener
