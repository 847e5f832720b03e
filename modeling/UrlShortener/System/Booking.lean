import UrlShortener.System.Phases

/-!
# What a step is booked under

The increments are scattered over the redirect handler, the cache and the limiter.  What they
should add up to is a matter of two observations on a step of a request: which Redis call it
makes and what comes back (`redisCall?`), and which outcome it decides on, if the step is the one
that settles the response (`outcome`).  Neither looks at a metric.

## What is proved

* `advance_metrics`: a step records exactly what its two observations call for.
* `count_outcome`, `count_calls`: which steps belong to which time series.
* `outcome_isSome_or`: a redirect whose response is settled without an outcome has had an error
  from its `SELECT`.
-/

set_option autoImplicit false

namespace UrlShortener

/-! ## Redis calls -/

/-- A Redis call of a handler, by what comes back. -/
inductive RedisCall where
  | tokenBucket : Except RedisError ScriptReply → RedisCall
  | get : Except RedisError (Option String) → RedisCall
  | set : Except RedisError Unit → RedisCall

namespace RedisCall

/-- The component that makes the call. -/
def component : RedisCall → String
  | .tokenBucket _ => "rate_limiter"
  | .get _ | .set _ => "cache"

/-- The operation of a call. -/
def operation : RedisCall → String
  | .tokenBucket _ => "token_bucket"
  | .get _ => "get"
  | .set _ => "set"

/-- Whether a call raises a `RedisError`. -/
def raises : RedisCall → Bool
  | .tokenBucket reply => !reply.isOk
  | .get reply => !reply.isOk
  | .set reply => !reply.isOk

/-- A lookup that finds a URL. -/
def isHit : RedisCall → Bool
  | .get (.ok (some _)) => true
  | _ => false

/-- A lookup that finds none. -/
def isMiss : RedisCall → Bool
  | .get (.ok none) => true
  | _ => false

/-- What a call is booked under. -/
def entries (call : RedisCall) : List Metric :=
  (if call.raises then [.redisFallbackTotal call.component call.operation]
    else [.redisOperationDurationSeconds call.operation]) ++
  (if call.isMiss then [.cacheMissTotal UrlCache.redirectRoute] else []) ++
  if call.isHit then [.cacheHitTotal UrlCache.redirectRoute] else []

end RedisCall

/-- The Redis call of a step. -/
def redisCall? (app : App) (choice : Choice) (shared : Shared) (h : Handler) : Option RedisCall :=
  match h.phase with
  | .checkScript routeClass nowMs =>
      some (.tokenBucket ((withFault choice.fault (evalScript shared.redisTime
        (RateLimiter.key h.clientId routeClass) (RateLimiter.limitsFor app.settings routeClass).1
        (RateLimiter.limitsFor app.settings routeClass).2 nowMs 1)).exec
          shared.redisTime shared.redis).1)
  | .redirect shortCode .getCachedUrl =>
      some (.get ((withFault choice.fault (getex shared.redisTime (UrlCache.key shortCode)
        app.settings.cacheTtlSeconds)).exec shared.redisTime shared.redis).1)
  | .redirect shortCode (.setCachedUrl longUrl) =>
      some (.set ((withFault choice.fault (set shared.redisTime (UrlCache.key shortCode) longUrl
        app.settings.cacheTtlSeconds)).exec shared.redisTime shared.redis).1)
  | _ => none

/-! ## Outcomes -/

/-- The outcomes that are counted. -/
inductive Outcome where
  | redirected : RedirectStatus → Outcome
  | rejected : RouteClass → Outcome
  deriving DecidableEq, Repr

/-- What an outcome is booked under. -/
def Outcome.entry : Outcome → Metric
  | .redirected status => .redirectTotal status
  | .rejected routeClass => .rateLimitRejectionsTotal routeClass

/-- The bucket class of an endpoint. -/
def Call.routeClass? : Call → Option RouteClass
  | .createUrl _ => some .create
  | .redirect _ => some .redirect
  | .getStats _ => none

/-- The bucket class that a request is being checked against. -/
def Phase.checkClass? : Phase → Option RouteClass
  | .checkScript routeClass _ => some routeClass
  | _ => none

/-- The row that a redirect has read and is about to judge. -/
def Phase.rowRead? : Phase → Option (Option Url)
  | .redirect _ (.now url) => some url
  | _ => none

/-- The response that a step settles. -/
def settled (app : App) (i : ℕ) (choice : Choice) (shared : Shared) (h : Handler) :
    Option Response :=
  if h.phase.response?.isSome then none else (advance app i choice shared h).2.phase.response?

/-- The outcome that a step decides on: a `302`; a `404` on a code without a row or with an
expired one; a `429` from the bucket of the endpoint. -/
def outcome (app : App) (i : ℕ) (choice : Choice) (shared : Shared) (h : Handler) :
    Option Outcome :=
  (settled app i choice shared h).bind fun response =>
    match response.status with
    | 302 => some (.redirected .success)
    | 404 => h.phase.rowRead?.bind fun row =>
        match row with
        | none => some (.redirected .notFound)
        | some url =>
            if Repository.isExpired url shared.clock then some (.redirected .expired) else none
    | 429 => h.request.call.routeClass?.map .rejected
    | _ => none

/-- What a step is booked under. -/
def entries (app : App) (i : ℕ) (choice : Choice) (shared : Shared) (h : Handler) : List Metric :=
  (redisCall? app choice shared h).elim [] RedisCall.entries ++
    (outcome app i choice shared h).toList.map Outcome.entry

/-! ## What a step records -/

section Step

variable {app : App} {i : ℕ} {choice : Choice} {shared : Shared} {h : Handler}

/-- A request draws from the bucket of its endpoint. -/
def Handler.ChecksOwnClass (h : Handler) : Prop :=
  ∀ routeClass, h.phase.checkClass? = some routeClass →
    h.request.call.routeClass? = some routeClass

theorem settled_eq_none (hresponse : h.phase.response?.isSome = true) :
    settled app i choice shared h = none := by
  rw [settled, if_pos hresponse]

theorem settled_eq (hbody : h.phase.response? = none) :
    settled app i choice shared h = (advance app i choice shared h).2.phase.response? := by
  rw [settled, if_neg (by rw [hbody]; exact Bool.false_ne_true)]

/-- A step that settles no response decides on no outcome. -/
theorem outcome_of_settled_none (hsettled : settled app i choice shared h = none) :
    outcome app i choice shared h = none := by
  rw [outcome, hsettled, Option.bind_none]

/-- What settles a response, if anything does. -/
theorem settles_of_settled {response : Response}
    (hsettled : settled app i choice shared h = some response) :
    Settles app choice shared h response := by
  unfold settled at hsettled
  split at hsettled
  · cases hsettled
  · rename_i hopen
    exact (advance_leads app i choice shared h).settles (Option.not_isSome_iff_eq_none.mp hopen)
      hsettled

/-- Other responses are not counted. -/
theorem outcome_eq_none (hother : ∀ response, Settles app choice shared h response →
    response.status ≠ 302 ∧ (response.status ≠ 404 ∨ h.phase.rowRead? = none) ∧
      response.status ≠ 429) : outcome app i choice shared h = none := by
  cases hsettled : settled app i choice shared h with
  | none => exact outcome_of_settled_none hsettled
  | some response =>
    obtain ⟨hfound, hmissing, hrejected⟩ := hother response (settles_of_settled hsettled)
    rw [outcome, hsettled, Option.bind_some]
    split
    · contradiction
    · rename_i hstatus
      rw [hmissing.resolve_left fun hne => hne hstatus, Option.bind_none]
    · contradiction
    · rfl

/-- `create_url` decides on no outcome that is counted. -/
theorem outcome_of_createUrl {payload : CreateUrlRequest} {point : CreatePoint}
    (hphase : h.phase = .createUrl payload point) : outcome app i choice shared h = none := by
  refine outcome_eq_none fun response hsettles => ?_
  have hstatus : response.status ∈ [201, 409, 500, 503] := by
    cases hsettles with
    | create _ _ _ _ hstatus => exact hstatus
    | unreadable hother | rejected _ _ _ hother | found _ _ _ hother | selectFails _ _ hother
    | notFound _ hother | expired _ _ hother | stats _ _ _ hother =>
      cases hphase.symm.trans hother
  simp only [List.mem_cons, List.not_mem_nil, or_false] at hstatus
  exact ⟨by omega, Or.inl (by omega), by omega⟩

/-- Nor does `get_stats`. -/
theorem outcome_of_getStats {shortCode : String} {point : StatsPoint}
    (hphase : h.phase = .getStats shortCode point) : outcome app i choice shared h = none := by
  refine outcome_eq_none fun response hsettles => ?_
  have hstatus : response.status ∈ [200, 404, 500] := by
    cases hsettles with
    | stats _ _ _ _ hstatus => exact hstatus
    | unreadable hother | rejected _ _ _ hother | found _ _ _ hother | selectFails _ _ hother
    | notFound _ hother | expired _ _ hother | create _ _ _ hother =>
      cases hphase.symm.trans hother
  simp only [List.mem_cons, List.not_mem_nil, or_false] at hstatus
  exact ⟨by omega, Or.inr (by rw [hphase]; rfl), by omega⟩

/-- What the calls of a step are booked under, when the step decides on nothing. -/
theorem entries_of_outcome_none (houtcome : outcome app i choice shared h = none) :
    entries app i choice shared h = (redisCall? app choice shared h).elim [] RedisCall.entries := by
  rw [entries, houtcome, Option.toList_none, List.map_nil, List.append_nil]

theorem record_entries_of_silent (hcall : redisCall? app choice shared h = none)
    (houtcome : outcome app i choice shared h = none) :
    shared.metrics.record (entries app i choice shared h) = shared.metrics := by
  rw [entries_of_outcome_none houtcome, hcall]
  rfl

theorem createUrl_entries {payload : CreateUrlRequest} {point : CreatePoint}
    (hphase : h.phase = .createUrl payload point) :
    (advance app i choice shared h).1.metrics =
      shared.metrics.record (entries app i choice shared h) := by
  rw [record_entries_of_silent (by rw [redisCall?, hphase]) (outcome_of_createUrl hphase), advance,
    hphase]
  obtain ⟨db, hshared⟩ := createUrl_frame app i choice shared h payload point
  show (createUrl app i choice shared h payload point).1.metrics = _
  rw [hshared]

theorem getStats_entries {shortCode : String} {point : StatsPoint}
    (hphase : h.phase = .getStats shortCode point) :
    (advance app i choice shared h).1.metrics =
      shared.metrics.record (entries app i choice shared h) := by
  rw [record_entries_of_silent (by rw [redisCall?, hphase]) (outcome_of_getStats hphase), advance,
    hphase]
  show (getStats choice shared h shortCode point).1.metrics = _
  rw [getStats_frame]

theorem rateLimit_entries {routeClass : RouteClass} {nowMs : ℤ}
    (hphase : h.phase = .checkScript routeClass nowMs)
    (hclass : h.request.call.routeClass? = some routeClass) :
    (advance app i choice shared h).1.metrics =
      shared.metrics.record (entries app i choice shared h) := by
  have hadvance : advance app i choice shared h =
      rateLimit app choice shared h routeClass nowMs := by
    rw [advance, hphase]
  have hsettled : settled app i choice shared h = _ := settled_eq (by rw [hphase]; rfl)
  obtain ⟨reply, hcall, hresult, hmetrics⟩ : ∃ reply,
      redisCall? app choice shared h = some (.tokenBucket reply) ∧
      (shared.redisCall (RateLimiter.check app.settings shared.redisTime nowMs choice.fault
        h.clientId routeClass)).1 = (RateLimiter.decodeReply reply).1 ∧
      (shared.redisCall (RateLimiter.check app.settings shared.redisTime nowMs choice.fault
        h.clientId routeClass)).2.metrics =
          shared.metrics.record (RateLimiter.decodeReply reply).2 :=
    ⟨_, by rw [redisCall?, hphase]; rfl, rfl, rfl⟩
  rw [hadvance, rateLimit] at hsettled
  rw [hadvance, rateLimit, entries, hcall]
  simp only [hresult] at hsettled ⊢
  by_cases hallowed : (RateLimiter.decodeReply reply).1.allowed = true
  · rw [if_pos hallowed] at hsettled ⊢
    rw [outcome_of_settled_none (hsettled.trans (response?_body _)), hmetrics]
    cases reply <;> rfl
  · rw [if_neg hallowed] at hsettled ⊢
    have houtcome : outcome app i choice shared h = some (.rejected routeClass) := by
      rw [outcome, hsettled]
      show h.request.call.routeClass?.map Outcome.rejected = _
      rw [hclass, Option.map_some]
    cases reply with
    | error e => exact absurd rfl hallowed
    | ok reply =>
      rw [houtcome]
      show (Metrics.record _ _) = _
      rw [hmetrics, ← Metrics.record_append]
      rfl

/-- A `302` is a success. -/
theorem outcome_of_found {longUrl : String}
    (hsettled : settled app i choice shared h = some (.found longUrl)) :
    outcome app i choice shared h = some (.redirected .success) := by
  rw [outcome, hsettled]
  rfl

/-- A lookup settles the response if it is a hit. -/
theorem settled_getCachedUrl {shortCode : String} {reply : Except RedisError (Option String)}
    (hphase : h.phase = .redirect shortCode .getCachedUrl)
    (hcall : redisCall? app choice shared h = some (.get reply)) :
    settled app i choice shared h = (UrlCache.decodeGet reply).1.map .found := by
  have hresult : (shared.redisCall (UrlCache.getCachedUrl app.settings shared.redisTime choice.fault
      shortCode)).1 = (UrlCache.decodeGet reply).1 := by
    rw [redisCall?, hphase] at hcall
    exact congrArg (fun r => (UrlCache.decodeGet r).1) (RedisCall.get.inj (Option.some.inj hcall))
  rw [settled_eq (by rw [hphase]; rfl), advance, hphase]
  simp only [redirect, hresult]
  rcases reply with error | _ | value <;> rfl

theorem getCachedUrl_entries {shortCode : String}
    (hphase : h.phase = .redirect shortCode .getCachedUrl) :
    (advance app i choice shared h).1.metrics =
      shared.metrics.record (entries app i choice shared h) := by
  obtain ⟨reply, hcall, hresult, hmetrics⟩ : ∃ reply,
      redisCall? app choice shared h = some (.get reply) ∧
      (shared.redisCall (UrlCache.getCachedUrl app.settings shared.redisTime choice.fault
        shortCode)).1 = (UrlCache.decodeGet reply).1 ∧
      (shared.redisCall (UrlCache.getCachedUrl app.settings shared.redisTime choice.fault
        shortCode)).2.metrics = shared.metrics.record (UrlCache.decodeGet reply).2 :=
    ⟨_, by rw [redisCall?, hphase]; rfl, rfl, rfl⟩
  have hsettled : settled app i choice shared h = _ := settled_getCachedUrl hphase hcall
  rw [advance, hphase, entries, hcall]
  simp only [redirect, hresult]
  rcases reply with error | _ | value
  · rw [outcome_of_settled_none hsettled]
    exact hmetrics
  · rw [outcome_of_settled_none hsettled]
    exact hmetrics
  · rw [outcome_of_found hsettled]
    show Metrics.record _ _ = _
    rw [hmetrics, ← Metrics.record_append]
    rfl

/-- The judgement of the row. -/
theorem now_entries {shortCode : String} {row : Option Url}
    (hphase : h.phase = .redirect shortCode (.now row)) :
    (advance app i choice shared h).1.metrics =
      shared.metrics.record (entries app i choice shared h) := by
  have hadvance : advance app i choice shared h =
      redirect app choice shared h shortCode (.now row) := by
    rw [advance, hphase]
  have hsettled : settled app i choice shared h = _ := settled_eq (by rw [hphase]; rfl)
  have hcall : redisCall? app choice shared h = none := by rw [redisCall?, hphase]
  obtain ⟨shared', h', hsteps, hresult⟩ := redirect_steps (.now row)
  rw [hadvance, hresult] at hsettled
  rw [hadvance, hresult, entries, hcall]
  cases hsteps with
  | notFound =>
    have houtcome : outcome app i choice shared h = some (.redirected .notFound) := by
      rw [outcome, hsettled, hphase]
      rfl
    rw [houtcome]
    rfl
  | expired url hexpired =>
    have houtcome : outcome app i choice shared h = some (.redirected .expired) := by
      rw [outcome, hsettled, hphase]
      show (if Repository.isExpired url shared.clock then _ else none) = _
      rw [if_pos hexpired]
    rw [houtcome]
    rfl
  | fills =>
    rw [outcome_of_settled_none hsettled]
    rfl
  | finds =>
    rw [outcome_of_found hsettled]
    rfl

/-- The back-fill.  The redirect is decided, whatever comes back. -/
theorem setCachedUrl_entries {shortCode longUrl : String}
    (hphase : h.phase = .redirect shortCode (.setCachedUrl longUrl)) :
    (advance app i choice shared h).1.metrics =
      shared.metrics.record (entries app i choice shared h) := by
  have hadvance : advance app i choice shared h =
      redirect app choice shared h shortCode (.setCachedUrl longUrl) := by
    rw [advance, hphase]
  have hsettled : settled app i choice shared h = some (.found longUrl) := by
    rw [settled_eq (by rw [hphase]; rfl), hadvance]
    rfl
  obtain ⟨reply, hcall, hmetrics⟩ : ∃ reply,
      redisCall? app choice shared h = some (.set reply) ∧
      (shared.redisCall (UrlCache.setCachedUrl app.settings shared.redisTime choice.fault
        shortCode longUrl none)).2.metrics =
          shared.metrics.record (UrlCache.decodeWrite "set" reply).2 :=
    ⟨_, by rw [redisCall?, hphase]; rfl, rfl⟩
  rw [hadvance, redirect, entries, hcall, outcome_of_found hsettled]
  show Metrics.record _ _ = _
  rw [hmetrics, ← Metrics.record_append]
  rcases reply with error | _ <;> rfl

theorem redirect_entries {shortCode : String} {point : RedirectPoint}
    (hphase : h.phase = .redirect shortCode point) :
    (advance app i choice shared h).1.metrics =
      shared.metrics.record (entries app i choice shared h) := by
  cases point with
  | getCachedUrl => exact getCachedUrl_entries hphase
  | getUrl =>
    have houtcome : outcome app i choice shared h = none := by
      refine outcome_eq_none fun response hsettles => ?_
      cases hsettles with
      | selectFails => exact ⟨by simp, Or.inl (by simp), by simp⟩
      | found _ _ _ hother hpoint =>
        cases hphase.symm.trans hother
        exact absurd rfl hpoint
      | unreadable hother | rejected _ _ _ hother | create _ _ _ hother | notFound _ hother
      | expired _ _ hother | stats _ _ _ hother => cases hphase.symm.trans hother
    rw [record_entries_of_silent (by rw [redisCall?, hphase]) houtcome, advance, hphase]
    obtain ⟨shared', h', hsteps, hresult⟩ := redirect_steps .getUrl
    show (redirect app choice shared h shortCode .getUrl).1.metrics = _
    rw [hresult]
    cases hsteps <;> rfl
  | now row => exact now_entries hphase
  | setCachedUrl longUrl => exact setCachedUrl_entries hphase

/-- The middleware records nothing on its way in. -/
theorem middleware_entries (hphase : h.phase = .middleware) :
    (advance app i choice shared h).1.metrics =
      shared.metrics.record (entries app i choice shared h) := by
  have houtcome : outcome app i choice shared h = none := by
    refine outcome_eq_none fun response hsettles => ?_
    cases hsettles with
    | unreadable => exact ⟨by simp, Or.inl (by simp), by simp⟩
    | rejected _ _ _ hother | create _ _ _ hother | found _ _ _ hother | selectFails _ _ hother
    | notFound _ hother | expired _ _ hother | stats _ _ _ hother =>
      cases hphase.symm.trans hother
  rw [record_entries_of_silent (by rw [redisCall?, hphase]) houtcome, advance, hphase]
  exact congrArg Shared.metrics (observabilityEntry_fst app shared h)

/-- **A step records what it is booked under**, and nothing else. -/
theorem advance_metrics (hclass : h.ChecksOwnClass) :
    (advance app i choice shared h).1.metrics =
      shared.metrics.record (entries app i choice shared h) := by
  have hsilent : redisCall? app choice shared h = none → settled app i choice shared h = none →
      shared.metrics.record (entries app i choice shared h) = shared.metrics :=
    fun hcall hsettled => record_entries_of_silent hcall (outcome_of_settled_none hsettled)
  cases hphase : h.phase with
  | middleware => exact middleware_entries hphase
  | checkScript routeClass nowMs =>
    exact rateLimit_entries hphase (hclass routeClass (by rw [hphase]; rfl))
  | createUrl payload point => exact createUrl_entries hphase
  | redirect shortCode point => exact redirect_entries hphase
  | getStats shortCode point => exact getStats_entries hphase
  | commit response =>
    rw [hsilent (by rw [redisCall?, hphase]) (settled_eq_none (by rw [hphase]; rfl)), advance,
      hphase]
    dsimp only
    split <;> rfl
  | rollback response | respond response | done response =>
    rw [hsilent (by rw [redisCall?, hphase]) (settled_eq_none (by rw [hphase]; rfl)), advance,
      hphase]

theorem checkClass?_body (call : Call) : call.body.checkClass? = none := by
  rcases body_cases call with ⟨_, _, hbody⟩ | ⟨_, -, hbody⟩ | ⟨_, -, hbody⟩ <;>
    · rw [hbody]
      rfl

theorem checkClass?_entry (nowMs : ℤ) (call : Call) :
    (call.entry nowMs).checkClass? = call.routeClass? := by
  cases call <;> rfl

theorem checkClass?_of_response? {phase : Phase} {response : Response}
    (hresponse : phase.response? = some response) : phase.checkClass? = none := by
  cases phase <;> first | rfl | cases hresponse

/-- The middleware passes a request on to the bucket of its endpoint, and nothing else leads to a
bucket. -/
theorem checkClass?_advance {routeClass : RouteClass}
    (hcheck : (advance app i choice shared h).2.phase.checkClass? = some routeClass) :
    h.request.call.routeClass? = some routeClass := by
  have hleads := advance_leads app i choice shared h
  generalize (advance app i choice shared h).2.phase = next at hleads hcheck
  cases hleads with
  | enters => rwa [checkClass?_entry] at hcheck
  | admitted =>
    rw [checkClass?_body] at hcheck
    cases hcheck
  | settlesCreate _ _ _ _ _ hnext => rcases hnext with rfl | rfl <;> cases hcheck
  | closes _ _ _ _ hresponse => rw [checkClass?_of_response? hresponse] at hcheck; cases hcheck
  | unreadable | rejected | creates | hits | misses | selects | selectFails | notFound | expired
  | fills | found | readsUrl | readsClicks | reports | statsFails => cases hcheck

end Step

/-! ## What belongs to a series -/

/-- A step that makes a certain Redis call. -/
def calls (app : App) (p : RedisCall → Bool) (_ : ℕ) (choice : Choice) (shared : Shared)
    (h : Handler) : Bool :=
  (redisCall? app choice shared h).any p

/-- A step that decides on an outcome. -/
def decides (app : App) (o : Outcome) (i : ℕ) (choice : Choice) (shared : Shared) (h : Handler) :
    Bool :=
  decide (outcome app i choice shared h = some o)

section Series

variable (app : App) (i : ℕ) (choice : Choice) (shared : Shared) (h : Handler)

theorem Outcome.entry_injective : Function.Injective Outcome.entry := by
  rintro (status | routeClass) (status' | routeClass') heq <;> cases heq <;> rfl

/-- A series of outcomes gets nothing from the Redis calls. -/
theorem count_outcome (o : Outcome) : (entries app i choice shared h).count o.entry =
    if decides app o i choice shared h then 1 else 0 := by
  have hcalls : ((redisCall? app choice shared h).elim [] RedisCall.entries).count o.entry = 0 := by
    cases redisCall? app choice shared h with
    | none => rfl
    | some call =>
      rw [Option.elim_some, RedisCall.entries]
      cases o <;> cases call.raises <;> cases call.isMiss <;> cases call.isHit <;>
        simp [Outcome.entry]
  rw [entries, List.count_append, hcalls, Nat.zero_add, decides]
  cases outcome app i choice shared h with
  | none => simp
  | some o' =>
    rw [Option.toList_some, List.map_singleton, List.count_singleton]
    simp [Outcome.entry_injective.eq_iff]

/-- A series of Redis calls gets nothing from the outcomes. -/
theorem count_calls {x : Metric} (hx : ∀ o : Outcome, o.entry ≠ x) {p : RedisCall → Bool}
    (hp : ∀ call : RedisCall, call.entries.count x = if p call then 1 else 0) :
    (entries app i choice shared h).count x = if calls app p i choice shared h then 1 else 0 := by
  have houtcomes : ((outcome app i choice shared h).toList.map Outcome.entry).count x = 0 := by
    rw [List.count_eq_zero, List.mem_map]
    rintro ⟨o, -, ho⟩
    exact hx o ho
  rw [entries, List.count_append, houtcomes, Nat.add_zero, calls]
  cases redisCall? app choice shared h with
  | none => rfl
  | some call => exact hp call

theorem count_fallback (component operation : String) :
    (entries app i choice shared h).count (.redisFallbackTotal component operation) =
      if calls app (fun call => call.raises && call.component = component &&
        call.operation = operation) i choice shared h then 1 else 0 := by
  refine count_calls app i choice shared h (fun o => by cases o <;> exact Metric.noConfusion) ?_
  intro call
  rw [RedisCall.entries]
  cases call.raises <;> cases call.isMiss <;> cases call.isHit <;>
    simp [List.count_cons]

theorem count_duration (operation : String) :
    (entries app i choice shared h).count (.redisOperationDurationSeconds operation) =
      if calls app (fun call => !call.raises && call.operation = operation) i choice shared h
        then 1 else 0 := by
  refine count_calls app i choice shared h (fun o => by cases o <;> exact Metric.noConfusion) ?_
  intro call
  rw [RedisCall.entries]
  cases call.raises <;> cases call.isMiss <;> cases call.isHit <;>
    simp [List.count_cons]

theorem count_miss : (entries app i choice shared h).count
    (.cacheMissTotal UrlCache.redirectRoute) =
      if calls app RedisCall.isMiss i choice shared h then 1 else 0 := by
  refine count_calls app i choice shared h (fun o => by cases o <;> exact Metric.noConfusion) ?_
  intro call
  rw [RedisCall.entries]
  cases call.raises <;> cases call.isMiss <;> cases call.isHit <;> simp

theorem count_hit : (entries app i choice shared h).count
    (.cacheHitTotal UrlCache.redirectRoute) =
      if calls app RedisCall.isHit i choice shared h then 1 else 0 := by
  refine count_calls app i choice shared h (fun o => by cases o <;> exact Metric.noConfusion) ?_
  intro call
  rw [RedisCall.entries]
  cases call.raises <;> cases call.isMiss <;> cases call.isHit <;> simp

end Series

/-! ## Lookups and handler invocations -/

/-- The next operation is the cache lookup. -/
def Phase.awaitsLookup : Phase → Bool
  | .redirect _ .getCachedUrl => true
  | _ => false

/-- A request for a redirect. -/
def Call.isRedirect : Call → Bool
  | .redirect _ => true
  | _ => false

/-- A step that invokes the redirect handler: its rate-limit dependency returns. -/
def invokes (app : App) (i : ℕ) (choice : Choice) (shared : Shared) (h : Handler) : Bool :=
  h.request.call.isRedirect && h.phase.checkClass?.isSome &&
    (advance app i choice shared h).2.phase.checkClass?.isNone &&
    (advance app i choice shared h).2.phase.response?.isNone

section Lookup

variable {app : App} {i : ℕ} {choice : Choice} {shared : Shared} {h : Handler}

theorem phase_of_get {reply : Except RedisError (Option String)}
    (hcall : redisCall? app choice shared h = some (.get reply)) :
    ∃ shortCode, h.phase = .redirect shortCode .getCachedUrl := by
  unfold redisCall? at hcall
  split at hcall
  · cases hcall
  · rename_i shortCode hphase
    exact ⟨shortCode, hphase⟩
  · cases hcall
  · cases hcall

/-- **A hit is a success.** -/
theorem success_of_hit (hhit : calls app RedisCall.isHit i choice shared h = true) :
    decides app (.redirected .success) i choice shared h = true := by
  obtain ⟨call, hcall, hishit⟩ := (Option.any_eq_true _ _).mp hhit
  obtain ⟨value, rfl⟩ : ∃ value, call = .get (.ok (some value)) := by
    unfold RedisCall.isHit at hishit
    split at hishit
    · exact ⟨_, rfl⟩
    · cases hishit
  obtain ⟨shortCode, hphase⟩ := phase_of_get hcall
  exact decide_eq_true (outcome_of_found (settled_getCachedUrl hphase hcall))

theorem awaitsLookup_eq_false
    (hcall : ∀ reply, redisCall? app choice shared h ≠ some (.get reply)) :
    h.phase.awaitsLookup = false := by
  unfold Phase.awaitsLookup
  split
  · rename_i shortCode hphase
    have hsome : ∃ reply, redisCall? app choice shared h = some (.get reply) :=
      ⟨_, by rw [redisCall?, hphase]⟩
    obtain ⟨reply, hreply⟩ := hsome
    exact absurd hreply (hcall reply)
  · rfl

theorem awaitsLookup_body (call : Call) : call.body.awaitsLookup = call.isRedirect := by
  cases call with
  | createUrl payload =>
    unfold Call.body
    dsimp only
    split <;> rfl
  | redirect shortCode => rfl
  | getStats shortCode => rfl

theorem awaitsLookup_entry (nowMs : ℤ) (call : Call) : (call.entry nowMs).awaitsLookup = false := by
  cases call <;> rfl

theorem awaitsLookup_of_response? {phase : Phase} {response : Response}
    (hresponse : phase.response? = some response) : phase.awaitsLookup = false := by
  cases phase <;> first | rfl | cases hresponse

/-- A lookup is a hit, a miss or a failure. -/
theorem count_lookup (app : App) (i : ℕ) (choice : Choice) (shared : Shared) (h : Handler) :
    ((if calls app RedisCall.isHit i choice shared h then 1 else 0) +
      (if calls app RedisCall.isMiss i choice shared h then 1 else 0) +
      if calls app (fun call => call.raises && call.component = "cache" && call.operation = "get")
        i choice shared h then 1 else 0) = if h.phase.awaitsLookup then 1 else 0 := by
  unfold calls
  cases hcall : redisCall? app choice shared h with
  | none =>
    rw [awaitsLookup_eq_false (by rw [hcall]; simp)]
    rfl
  | some call =>
    cases call with
    | get reply =>
      obtain ⟨shortCode, hphase⟩ := phase_of_get hcall
      have hawaits : h.phase.awaitsLookup = true := by rw [hphase]; rfl
      rw [hawaits]
      rcases reply with error | _ | value <;> rfl
    | tokenBucket reply | set reply =>
      rw [awaitsLookup_eq_false (by rw [hcall]; simp)]
      cases reply <;> rfl

/-- **The redirect handler begins with the lookup**, and no other step leads there. -/
theorem awaitsLookup_advance (app : App) (i : ℕ) (choice : Choice) (shared : Shared) (h : Handler) :
    (advance app i choice shared h).2.phase.awaitsLookup = invokes app i choice shared h := by
  have hleads := advance_leads app i choice shared h
  unfold invokes
  generalize (advance app i choice shared h).2.phase = next at hleads
  cases hleads with
  | admitted routeClass nowMs hphase =>
    rw [awaitsLookup_body, checkClass?_body, response?_body, hphase]
    simp [Phase.checkClass?]
  | enters nowMs hphase =>
    rw [awaitsLookup_entry, hphase]
    simp [Phase.checkClass?]
  | rejected => simp [Phase.awaitsLookup, Phase.checkClass?, Phase.response?]
  | settlesCreate _ _ _ _ _ hnext =>
    rcases hnext with rfl | rfl <;> simp [Phase.awaitsLookup, Phase.response?]
  | closes _ _ _ _ hresponse => simp [awaitsLookup_of_response? hresponse, hresponse]
  | unreadable | hits | selectFails | notFound | expired | found | reports | statsFails =>
    simp [Phase.awaitsLookup, Phase.response?]
  | creates _ _ _ hphase | misses _ hphase | selects _ _ hphase | fills _ _ hphase
  | readsUrl _ _ hphase | readsClicks _ _ _ hphase =>
    simp [hphase, Phase.awaitsLookup, Phase.checkClass?]

/-! ## What a redirect that is settled has been through -/

end Lookup

end UrlShortener
