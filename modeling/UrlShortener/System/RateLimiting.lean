import UrlShortener.System.RedisOps
import UrlShortener.RateLimit.Dedicated

/-!
# Rate limiting in the running service

The limiter shares its keyspace with the buckets of other clients and with the cache, its checks
read the wall clock some time before their script runs, calls and replies get lost and keys too.
None of this is visible to one client on one route class: what the service decides for it is what a
limiter for that client alone decides on its own checks (`RateLimit.verdicts`).

## What is proved

* `App.decisions_eq_verdicts`: that simulation, from any instant of any run.
* `App.passed_le`: in any stretch of any run, the requests of a client let through on a route class
  number at most the capacity, the refill of the stretch, and what losses and failures add.
* `App.passed_or_capacity_le`: nobody is rejected before its own requests have used up the
  capacity.
* `App.decision_iff_envelope`: with clocks that agree and nothing lost, the service enforces exactly
  the envelope.
-/

set_option autoImplicit false

namespace UrlShortener

open Keyspace (Store Command Entry)
open RateLimit (Stored BucketEvent)

/-! ## What concerns one bucket -/

section Bucket

variable (clientId : String) (routeClass : RouteClass)

/-- The checks of a client on a route class. -/
def ownCheck : Op → Option (ℤ × Fault)
  | .check nowMs fault clientId' routeClass' =>
      if clientId' = clientId ∧ routeClass' = routeClass then some (nowMs, fault) else none
  | _ => none

/-- What an action means for the bucket. -/
def bucketEvents (_ : ℕ) (action : Action) (shared : Shared) (h : Handler) : List BucketEvent :=
  (((redisOp? h action).bind (ownCheck clientId routeClass)).map fun check =>
    BucketEvent.check ⟨shared.redisTime, check.1⟩ check.2).toList

/-- What the environment means for the bucket. -/
def bucketLosses (e : Env) (_ : Shared) : List BucketEvent :=
  match e with
  | .evict key => if key = RateLimiter.key clientId routeClass then [.lost] else []
  | _ => []

/-- A rejection, where the limiter says so. -/
def rejection? (result : RateLimitResult) : Option Response :=
  if result.allowed then none else some (tooManyRequests result)

/-- What an action that checks the bucket makes of its request: a rejection, or nothing when it is
let through. -/
def bucketDecision (app : App) (i : ℕ) (action : Action) (shared : Shared) (h : Handler) :
    List (Option Response) :=
  (((redisOp? h action).bind (ownCheck clientId routeClass)).map fun _ =>
    (act app i action shared h).2.phase.response?).toList

end Bucket

/-! ## A check on the shared keyspace -/

/-- A stored bucket as an entry of the keyspace. -/
def RateLimit.Stored.entry (stored : Stored) : Entry RedisValue :=
  ⟨.hash stored.bucket, some stored.deadline⟩

/-- The keyspace holds a bucket, or nothing, under the key of a client and a route class. -/
def HoldsStored (clientId : String) (routeClass : RouteClass) (redis : Store String RedisValue)
    (stored : Option Stored) : Prop :=
  redis (RateLimiter.key clientId routeClass) = stored.map Stored.entry

theorem HoldsStored.read {clientId : String} {routeClass : RouteClass}
    {redis : Store String RedisValue} {stored : Option Stored}
    (h : HoldsStored clientId routeClass redis stored) (redisNow : ℤ) :
    Keyspace.read redis redisNow (RateLimiter.key clientId routeClass) =
      (RateLimit.found redisNow stored).map RedisValue.hash := by
  unfold HoldsStored at h
  rw [Keyspace.read, h]
  cases stored with
  | none => rfl
  | some s =>
    by_cases hlive : redisNow < s.deadline
    · simp [RateLimit.found, Stored.entry, Entry.live, hlive]
    · simp [RateLimit.found, Stored.entry, Entry.live, hlive]

/-- **A check on the shared keyspace is a check of the bucket.** -/
theorem HoldsStored.check {clientId : String} {routeClass : RouteClass}
    {redis : Store String RedisValue} {stored : Option Stored}
    (h : HoldsStored clientId routeClass redis stored) (settings : Settings)
    (redisNow nowMs : ℤ) (fault : Fault) :
    HoldsStored clientId routeClass
        ((RateLimiter.check settings redisNow nowMs fault clientId routeClass).exec redisNow
          redis).2
        ((BucketEvent.check ⟨redisNow, nowMs⟩ fault).apply
          (RateLimiter.limitsFor settings routeClass).1
          (RateLimiter.limitsFor settings routeClass).2 stored) ∧
      (BucketEvent.check ⟨redisNow, nowMs⟩ fault).verdict
          (RateLimiter.limitsFor settings routeClass).1
          (RateLimiter.limitsFor settings routeClass).2 stored =
        [((RateLimiter.check settings redisNow nowMs fault clientId routeClass).exec redisNow
          redis).1.1] := by
  have hscript : (RateLimit.scriptCall (RateLimiter.key clientId routeClass)
      (RateLimiter.limitsFor settings routeClass).1 (RateLimiter.limitsFor settings routeClass).2
      ⟨redisNow, nowMs⟩).exec redisNow redis = _ := RateLimit.exec_scriptCall (h.read redisNow)
  have hwritten := RateLimit.write_hash_self (RateLimiter.limitsFor settings routeClass).1
    (RateLimiter.limitsFor settings routeClass).2 redis (RateLimiter.key clientId routeClass)
    redisNow (RateLimit.runScript (RateLimiter.limitsFor settings routeClass).1
      (RateLimiter.limitsFor settings routeClass).2 stored ⟨redisNow, nowMs⟩).2
  cases fault with
  | none =>
    have hexec : (RateLimiter.check settings redisNow nowMs .none clientId routeClass).exec
        redisNow redis = _ :=
      congrArg (fun outcome => (RateLimiter.decodeReply outcome.1, outcome.2)) hscript
    rw [hexec]
    exact ⟨hwritten, rfl⟩
  | lostReply =>
    have hexec : (RateLimiter.check settings redisNow nowMs .lostReply clientId routeClass).exec
        redisNow redis = _ :=
      congrArg (fun outcome => (RateLimiter.decodeReply (.error .unavailable), outcome.2)) hscript
    rw [hexec]
    exact ⟨hwritten, rfl⟩
  | lostCall => exact ⟨h, rfl⟩

/-! ## One action -/

section Actions

variable {clientId : String} {routeClass : RouteClass}

theorem ownCheck_eq_some {op : Op} {check : ℤ × Fault}
    (h : ownCheck clientId routeClass op = some check) :
    op = .check check.1 check.2 clientId routeClass := by
  cases op with
  | check nowMs fault clientId' routeClass' =>
    rw [ownCheck] at h
    split at h
    · rename_i howner
      cases h
      rw [howner.1, howner.2]
    · cases h
  | getCachedUrl | setCachedUrl | invalidateCachedUrl => cases h

theorem tenant_ne_of_ownCheck_eq_none {op : Op} (h : ownCheck clientId routeClass op = none) :
    op.tenant ≠ .bucket clientId routeClass := by
  cases op with
  | check nowMs fault clientId' routeClass' =>
    rw [ownCheck] at h
    split at h
    · cases h
    · rename_i howner
      intro htenant
      cases htenant
      exact howner ⟨rfl, rfl⟩
  | getCachedUrl | setCachedUrl | invalidateCachedUrl => exact Tenant.noConfusion

/-- Only the script step of a request is a check. -/
theorem redisOp?_eq_check {h : Handler} {action : Action} {nowMs : ℤ} {fault : Fault}
    (hop : redisOp? h action = some (.check nowMs fault clientId routeClass)) :
    ∃ choice, action = .advance choice ∧ choice.fault = fault ∧ h.clientId = clientId ∧
      h.phase = .checkScript routeClass nowMs := by
  cases action with
  | background choice => cases hop
  | advance choice =>
    refine ⟨choice, rfl, ?_⟩
    rw [redisOp?] at hop
    cases hphase : h.phase with
    | checkScript routeClass' nowMs' =>
      rw [hphase] at hop
      cases hop
      exact ⟨rfl, rfl, rfl⟩
    | redirect shortCode point =>
      rw [hphase] at hop
      cases point <;> cases hop
    | middleware | createUrl | getStats | commit | rollback | respond | done =>
      rw [hphase] at hop
      cases hop

/-- What the dependency makes of the limiter's result. -/
theorem rateLimit_response? (app : App) (choice : Choice) (shared : Shared) (h : Handler)
    (routeClass : RouteClass) (nowMs : ℤ) :
    (rateLimit app choice shared h routeClass nowMs).2.phase.response? =
      rejection? ((RateLimiter.check app.settings shared.redisTime nowMs choice.fault h.clientId
        routeClass).exec shared.redisTime shared.redis).1.1 := by
  unfold rateLimit rejection?
  dsimp only
  rw [Shared.redisCall_fst]
  split
  · exact response?_body _
  · rfl

/-- **One action of the service is a step of the client's own limiter.** -/
theorem act_bucket (app : App) (i : ℕ) (action : Action) (shared : Shared) (h : Handler)
    {stored : Option Stored} (hstored : HoldsStored clientId routeClass shared.redis stored) :
    HoldsStored clientId routeClass (act app i action shared h).1.redis
        (RateLimit.storedAfter (RateLimiter.limitsFor app.settings routeClass).1
          (RateLimiter.limitsFor app.settings routeClass).2 stored
          (bucketEvents clientId routeClass i action shared h)) ∧
      bucketDecision clientId routeClass app i action shared h =
        (RateLimit.verdicts (RateLimiter.limitsFor app.settings routeClass).1
          (RateLimiter.limitsFor app.settings routeClass).2 stored
          (bucketEvents clientId routeClass i action shared h)).map rejection? := by
  cases hown : (redisOp? h action).bind (ownCheck clientId routeClass) with
  | none =>
    rw [bucketDecision, bucketEvents, hown]
    refine ⟨?_, rfl⟩
    refine (act_redis_of_ne app i action shared h (.bucket clientId routeClass)
      fun op hop => tenant_ne_of_ownCheck_eq_none ?_).trans hstored
    rwa [Option.mem_def.mp hop] at hown
  | some check =>
    obtain ⟨op, hop, hcheck⟩ := Option.bind_eq_some_iff.mp hown
    obtain rfl := ownCheck_eq_some hcheck
    obtain ⟨choice, rfl, hfault, hclient, hphase⟩ := redisOp?_eq_check hop
    obtain ⟨hafter, hverdict⟩ := hstored.check app.settings shared.redisTime check.1 check.2
    have hact : act app i (.advance choice) shared h =
        rateLimit app choice shared h routeClass check.1 := by
      rw [act, advance, hphase]
    have hresponse := rateLimit_response? app choice shared h routeClass check.1
    rw [hfault, hclient] at hresponse
    rw [bucketDecision, bucketEvents, hown]
    constructor
    · rw [act_redis, hop]
      exact hafter
    · have hverdicts : RateLimit.verdicts (RateLimiter.limitsFor app.settings routeClass).1
          (RateLimiter.limitsFor app.settings routeClass).2 stored
          [BucketEvent.check ⟨shared.redisTime, check.1⟩ check.2] = _ :=
        (List.append_nil _).trans hverdict
      rw [Option.map_some, Option.map_some, Option.toList_some, Option.toList_some, hverdicts,
        hact, hresponse]
      rfl

theorem env_bucket (e : Env) {shared : Shared} (settings : Settings) {stored : Option Stored}
    (hstored : HoldsStored clientId routeClass shared.redis stored) :
    HoldsStored clientId routeClass (e.apply shared).redis
        (RateLimit.storedAfter (RateLimiter.limitsFor settings routeClass).1
          (RateLimiter.limitsFor settings routeClass).2 stored
          (bucketLosses clientId routeClass e shared)) ∧
      RateLimit.verdicts (RateLimiter.limitsFor settings routeClass).1
        (RateLimiter.limitsFor settings routeClass).2 stored
        (bucketLosses clientId routeClass e shared) = [] := by
  cases e with
  | tick clock => exact ⟨hstored, rfl⟩
  | redisTick elapsedMs => exact ⟨hstored, rfl⟩
  | evict key =>
    rw [bucketLosses]
    split
    · rename_i hkey
      refine ⟨?_, rfl⟩
      subst hkey
      exact Function.update_self _ _ _
    · rename_i hkey
      refine ⟨?_, rfl⟩
      exact (Keyspace.write_of_ne shared.redis (Ne.symm hkey) .erase).trans hstored

end Actions

/-! ## Runs -/

/-- What a stretch of a run means for a bucket. -/
def App.bucketTrace (app : App) (clientId : String) (routeClass : RouteClass)
    (es es' : List Event) : List BucketEvent :=
  app.system.trace (bucketEvents clientId routeClass) (bucketLosses clientId routeClass)
    (app.run es) es'

/-- What the checks of a client in a stretch of a run come to: `none` for a request that is let
through, and otherwise the rejection it gets. -/
def App.decisions (app : App) (clientId : String) (routeClass : RouteClass)
    (es es' : List Event) : List (Option Response) :=
  app.system.trace (bucketDecision clientId routeClass app) (fun _ _ => []) (app.run es) es'

/-- The simulation, from any instant of a run. -/
theorem App.simulates_bucket (app : App) {clientId : String} {routeClass : RouteClass}
    {es : List Event} {stored : Option Stored}
    (hstored : HoldsStored clientId routeClass (app.run es).shared.redis stored)
    (es' : List Event) :
    HoldsStored clientId routeClass (app.run (es ++ es')).shared.redis
        (RateLimit.storedAfter (RateLimiter.limitsFor app.settings routeClass).1
          (RateLimiter.limitsFor app.settings routeClass).2 stored
          (app.bucketTrace clientId routeClass es es')) ∧
      app.decisions clientId routeClass es es' =
        (RateLimit.verdicts (RateLimiter.limitsFor app.settings routeClass).1
          (RateLimiter.limitsFor app.settings routeClass).2 stored
          (app.bucketTrace clientId routeClass es es')).map rejection? := by
  have hsimulates := app.system.simulates (bucketEvents clientId routeClass)
    (bucketLosses clientId routeClass) (bucketDecision clientId routeClass app)
    (BucketEvent.apply (RateLimiter.limitsFor app.settings routeClass).1
      (RateLimiter.limitsFor app.settings routeClass).2)
    (fun stored e => (e.verdict (RateLimiter.limitsFor app.settings routeClass).1
      (RateLimiter.limitsFor app.settings routeClass).2 stored).map rejection?)
    (R := fun shared stored => HoldsStored clientId routeClass shared.redis stored) ?_ ?_
    hstored es'
  · rw [Run.trace_map] at hsimulates
    exact hsimulates
  · intro es i action h stored _ hstored
    rw [Run.trace_map]
    exact act_bucket app i action _ h hstored
  · intro e shared stored hstored
    obtain ⟨hafter, hsilent⟩ := env_bucket e app.settings hstored
    refine ⟨hafter, ?_⟩
    rw [Run.trace_map]
    exact congrArg (List.map rejection?) hsilent

/-- **Every client has a limiter of its own.**  Whatever other clients, the cache, the faults and
the losses of other keys do meanwhile, a client gets the decisions, and the waits, of a limiter that
sees nothing but its own checks on the route class. -/
theorem App.decisions_eq_verdicts (app : App) (clientId : String) (routeClass : RouteClass)
    (es : List Event) :
    app.decisions clientId routeClass [] es =
      (RateLimit.verdicts (RateLimiter.limitsFor app.settings routeClass).1
        (RateLimiter.limitsFor app.settings routeClass).2 none
        (app.bucketTrace clientId routeClass [] es)).map rejection? :=
  (@App.simulates_bucket app clientId routeClass [] none rfl es).2

theorem count_rejection? (results : List RateLimitResult) :
    (results.map rejection?).count none = RateLimit.passed results := by
  rw [List.count, List.countP_map]
  refine List.countP_congr fun result _ => ?_
  rw [Function.comp_apply, rejection?]
  cases result.allowed <;> simp

/-- The bucket of a client is sound in every reachable state. -/
theorem App.exists_stored (app : App) (clientId : String) (routeClass : RouteClass)
    (es : List Event) :
    ∃ stored, HoldsStored clientId routeClass (app.run es).shared.redis stored ∧
      RateLimit.Sound (RateLimiter.limitsFor app.settings routeClass).1 stored :=
  ⟨_, (@App.simulates_bucket app clientId routeClass [] none rfl es).1,
    (RateLimit.sound_none _).after _⟩

/-- **The limit holds in the running service.**  In any stretch of any run, the requests of a client
that are let through on a route class number at most the capacity, once more for every time its key
is lost, plus those whose Redis call failed, plus the refill of the stretch: the larger of the
advances of the two clocks from one check to the next. -/
theorem App.passed_le (app : App) (clientId : String) (routeClass : RouteClass)
    (es es' : List Event) :
    ((app.decisions clientId routeClass es es').count none : ℚ) ≤
      (RateLimiter.limitsFor app.settings routeClass).1 *
          (1 + (app.bucketTrace clientId routeClass es es').count .lost) +
        (app.bucketTrace clientId routeClass es es').countP (·.isFailure) +
        RateLimit.advances (RateLimit.executed (app.bucketTrace clientId routeClass es es')) *
          (RateLimiter.limitsFor app.settings routeClass).2 / 60000 := by
  obtain ⟨stored, hstored, hsound⟩ := app.exists_stored clientId routeClass es
  have hbound := hsound.passed_le_capacity_add
    (RateLimiter.limitsFor_snd_pos app.settings routeClass)
    (app.bucketTrace clientId routeClass es es')
  rw [(app.simulates_bucket hstored es').2, count_rejection?, mul_div_assoc]
  exact hbound

/-- **A client is only ever rejected for what it has done itself.**  In every run either all its
requests on a route class were let through, or at least the capacity was.  As every part of a run
from its start is a run, the capacity has been let through before the first rejection. -/
theorem App.passed_or_capacity_le (app : App) (clientId : String) (routeClass : RouteClass)
    (es : List Event) :
    (∀ decision ∈ app.decisions clientId routeClass [] es, decision = none) ∨
      (RateLimiter.limitsFor app.settings routeClass).1 ≤
        (app.decisions clientId routeClass [] es).count none := by
  rw [app.decisions_eq_verdicts, count_rejection?]
  refine (RateLimit.passed_verdicts _ _ _).imp_left fun hall decision hdecision => ?_
  obtain ⟨result, hresult, rfl⟩ := List.mem_map.mp hdecision
  rw [rejection?, if_pos (hall result hresult)]

/-- **With clocks that agree and nothing lost, the service enforces exactly the envelope.** -/
theorem App.decision_iff_envelope (app : App) (clientId : String) (routeClass : RouteClass)
    (es : List Event) (checks : List RateLimit.TimedCheck)
    (htrace : app.bucketTrace clientId routeClass [] es = RateLimit.undisturbed checks)
    (hsorted : (checks.map (·.nowMs)).Pairwise (· ≤ ·))
    (hslack : checks.Pairwise RateLimit.WithinSlack) (k : ℕ) (check : RateLimit.TimedCheck)
    (decision : Option Response) (hk : checks[k]? = some check)
    (hdecision : (app.decisions clientId routeClass [] es)[k]? = some decision) :
    decision = none ↔ ∀ j ≤ k, ∀ since, checks[j]? = some since →
      ((((app.decisions clientId routeClass [] es).take k).drop j).count none : ℚ) + 1 ≤
        (RateLimiter.limitsFor app.settings routeClass).1 + (check.nowMs - since.nowMs) *
          (RateLimiter.limitsFor app.settings routeClass).2 / 60000 := by
  rw [app.decisions_eq_verdicts, htrace] at hdecision ⊢
  rw [List.getElem?_map, Option.map_eq_some_iff] at hdecision
  obtain ⟨result, hresult, rfl⟩ := hdecision
  have hallowed : rejection? result = none ↔ result.allowed = true := by
    rw [rejection?]
    cases result.allowed <;> simp
  rw [hallowed]
  refine (RateLimit.allowed_iff_of_verdict (RateLimiter.limitsFor_snd_pos app.settings routeClass)
    hsorted hslack hk hresult).trans (forall₂_congr fun j _ => ?_)
  rw [← List.map_take, ← List.map_drop, count_rejection?]

/-- Two requests in a row for the code `abcd`. -/
def twoRedirects : List Event :=
  [.arrive (Call.redirect "abcd").plain, .arrive (Call.redirect "abcd").plain] ++
    steps 0 2 .calm ++ [.env (.tick 5000), .env (.redisTick 5)] ++ steps 1 2 .calm

theorem App.decision_iff_envelope_twoRedirects :
    (none : Option Response) = none ↔ ∀ j ≤ 1, ∀ since,
      [(⟨0, 0⟩ : RateLimit.TimedCheck), ⟨5, 5⟩][j]? = some since →
      ((((App.sample.decisions "10.0.0.1" .redirect [] twoRedirects).take 1).drop j).count none :
          ℚ) + 1 ≤
        (RateLimiter.limitsFor App.sample.settings .redirect).1 + ((5 : ℤ) - since.nowMs) *
          (RateLimiter.limitsFor App.sample.settings .redirect).2 / 60000 :=
  App.sample.decision_iff_envelope "10.0.0.1" .redirect twoRedirects [⟨0, 0⟩, ⟨5, 5⟩]
    (by decide +kernel) (by decide) (by decide) 1 ⟨5, 5⟩ none rfl (by decide +kernel)

end UrlShortener
