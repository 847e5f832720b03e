import UrlShortener.Api.Dependencies
import UrlShortener.Db.Repository

/-!
# The route handlers

A handler is suspended between any two operations on something shared: a Redis command, a database
statement, a clock reading, a commit, a rollback.  `Phase` says which operation comes next and
carries the local variables that are still needed, and one step of a handler is that operation
together with the pure code up to the next one.  Any number of handlers interleave at these points.

The observability middleware wraps everything; the little of it that can fail is part of the first
step.  The session dependency wraps the handler: a return leads to `commit`, a raised exception to
`rollback`, and only then is the response sent.  The rate-limit dependency runs before the session
is opened.  A handler that was answered by the cache never used its session, so its commit issues
no statement.

What a step cannot decide by itself is its `Choice`: how a Redis call fails, whether the database
answers, which symbols the generator draws, and what SQL leaves to the server.  A statement or a
commit that the database does not answer has not taken effect.
-/

set_option autoImplicit false

namespace UrlShortener

open Keyspace (Store Command)

/-! ## What handlers share -/

/-- Everything outside the handlers.  The wall clock is in microseconds, Redis time in
milliseconds. -/
structure Shared where
  clock : ℤ
  redisTime : ℤ
  redis : Store String RedisValue
  db : Database
  metrics : Metrics

namespace Shared

/-- Record metrics. -/
def record (shared : Shared) (incs : List Metric) : Shared :=
  { shared with metrics := shared.metrics.record incs }

/-- Issue a Redis command and record what its caller records. -/
def redisCall {R : Type} (shared : Shared) (command : Command String RedisValue (R × List Metric)) :
    R × Shared :=
  let outcome := command.exec shared.redisTime shared.redis
  (outcome.1.1, { shared with redis := outcome.2 }.record outcome.1.2)

variable (shared : Shared)

@[simp] theorem record_clock (incs : List Metric) : (shared.record incs).clock = shared.clock := rfl

@[simp] theorem record_redisTime (incs : List Metric) :
    (shared.record incs).redisTime = shared.redisTime := rfl

@[simp] theorem record_redis (incs : List Metric) : (shared.record incs).redis = shared.redis := rfl

@[simp] theorem record_db (incs : List Metric) : (shared.record incs).db = shared.db := rfl

variable {R : Type} (command : Command String RedisValue (R × List Metric))

@[simp] theorem redisCall_clock : (shared.redisCall command).2.clock = shared.clock := rfl

@[simp] theorem redisCall_redisTime :
    (shared.redisCall command).2.redisTime = shared.redisTime := rfl

@[simp] theorem redisCall_db : (shared.redisCall command).2.db = shared.db := rfl

@[simp] theorem redisCall_redis :
    (shared.redisCall command).2.redis = (command.exec shared.redisTime shared.redis).2 := rfl

@[simp] theorem redisCall_fst :
    (shared.redisCall command).1 = (command.exec shared.redisTime shared.redis).1.1 := rfl

end Shared

/-- What the outside world decides in one step. -/
structure Choice where
  /-- How the Redis call of the step fails, if it does. -/
  fault : Fault
  /-- Whether the database statement of the step fails. -/
  dbFails : Bool
  draws : Draws
  /-- What `now()` is on the database server. -/
  serverNow : ℤ
  idGap : ℕ
  clickOrder : List ClickEvent
  referrerOrder : List (Option String × ℕ)

/-- A query that the database may fail to answer. -/
def Choice.query {α : Type} (choice : Choice) (result : Except DbError α) : Except DbError α :=
  if choice.dbFails then .error .unavailable else result

/-- A statement that the database may fail to answer. -/
def Choice.statement {α : Type} (choice : Choice) (reply : Reply α) : Reply α :=
  if choice.dbFails then .error .unavailable else reply

/-- An answer other than the outage is the query's own. -/
theorem Choice.eq_of_query {α : Type} {choice : Choice} {result answer : Except DbError α}
    (h : choice.query result = answer) (hanswer : answer ≠ .error .unavailable) :
    result = answer := by
  unfold query at h
  split at h
  · exact absurd h.symm hanswer
  · exact h

/-- An answer other than the outage is the statement's own. -/
theorem Choice.eq_of_statement {α : Type} {choice : Choice} {reply answer : Reply α}
    (h : choice.statement reply = answer) (hanswer : answer ≠ .error .unavailable) :
    reply = answer := by
  unfold statement at h
  split at h
  · exact absurd h.symm hanswer
  · exact h

/-! ## Where a handler is -/

/-- The operations of `create_url`. -/
inductive CreatePoint where
  /-- Look up the custom code. -/
  | codeExists : (shortCode : String) → CreatePoint
  /-- Draw a code and look it up. -/
  | generate : (attempt : ℕ) → CreatePoint
  /-- Read the clock for the expiry. -/
  | expiresAt : (shortCode : String) → (days : ℕ) → CreatePoint
  /-- Insert the row. -/
  | insert : (shortCode : String) → (expiresAt : Option ℤ) → CreatePoint

/-- The operations of `redirect`. -/
inductive RedirectPoint where
  | getCachedUrl : RedirectPoint
  | getUrl : RedirectPoint
  /-- Read the clock for the expiry check. -/
  | now : (url : Option Url) → RedirectPoint
  | setCachedUrl : (longUrl : String) → RedirectPoint

/-- The operations of `get_stats`. -/
inductive StatsPoint where
  | getUrl : StatsPoint
  | getRecentClicks : (url : Url) → StatsPoint
  | getTopReferrers : (url : Url) → (recent : List ClickEvent) → StatsPoint

/-- The next operation of a request. -/
inductive Phase where
  /-- Enter the middleware, and read the clock for the rate-limit check. -/
  | middleware : Phase
  /-- Run the bucket script. -/
  | checkScript : RouteClass → (nowMs : ℤ) → Phase
  | createUrl : CreateUrlRequest → CreatePoint → Phase
  | redirect : (shortCode : String) → RedirectPoint → Phase
  | getStats : (shortCode : String) → StatsPoint → Phase
  | commit : Response → Phase
  | rollback : Response → Phase
  | respond : Response → Phase
  | done : Response → Phase

/-- The click-recording task of a request. -/
inductive ClickTask where
  | none : ClickTask
  /-- Added to the background tasks of the response. -/
  | scheduled : Repository.ClickArgs → ClickTask
  /-- The counter is updated, not committed. -/
  | updated : Repository.ClickArgs → ClickTask
  /-- The event is inserted too, not committed. -/
  | inserted : Repository.ClickArgs → ClickTask
  | recorded : Repository.ClickArgs → ClickTask
  | failed : Repository.ClickArgs → ClickTask
  deriving DecidableEq, Repr

/-- A response that is not sent takes its background tasks with it. -/
def ClickTask.drop : ClickTask → ClickTask
  | .scheduled click => .failed click
  | task => task

/-- A request in progress, or a finished one.  `decision` remembers the code that `redirect`
decided to answer with `302`. -/
structure Handler where
  request : Request
  phase : Phase
  decision : Option String
  task : ClickTask

namespace Handler

/-- Continue at another operation. -/
def goto (h : Handler) (phase : Phase) : Handler := { h with phase := phase }

@[simp] theorem goto_request (h : Handler) (phase : Phase) : (h.goto phase).request = h.request :=
  rfl
@[simp] theorem goto_phase (h : Handler) (phase : Phase) : (h.goto phase).phase = phase := rfl
@[simp] theorem goto_decision (h : Handler) (phase : Phase) :
    (h.goto phase).decision = h.decision := rfl
@[simp] theorem goto_task (h : Handler) (phase : Phase) : (h.goto phase).task = h.task := rfl

/-- The client identifier of the request. -/
def clientId (h : Handler) : String := getClientIdentifier h.request

end Handler

/-- The first operation of a handler's body. -/
def Call.body : Call → Phase
  | .createUrl payload =>
      match payload.customCode with
      | some customCode => .createUrl payload (.codeExists customCode)
      | none => .createUrl payload (.generate 0)
  | .redirect shortCode => .redirect shortCode .getCachedUrl
  | .getStats shortCode => .getStats shortCode .getUrl

/-- The first operation behind the middleware.  The stats endpoint is not rate limited. -/
def Call.entry (nowMs : ℤ) : Call → Phase
  | .createUrl _ => .checkScript .create nowMs
  | .redirect _ => .checkScript .redirect nowMs
  | .getStats shortCode => (Call.getStats shortCode).body

/-- A request that has just arrived. -/
def Handler.arrive (request : Request) : Handler where
  request := request
  phase := .middleware
  decision := none
  task := .none

/-! ## `create_url` -/

/-- The custom code is taken. -/
def customCodeConflict (customCode : String) : Response :=
  .httpException 409 ("custom_code '" ++ customCode ++ "' is already in use.") none

/-- The code was taken between the check and the insert. -/
def raceConflict (shortCode : String) : Response :=
  .httpException 409 ("short_code '" ++ shortCode ++ "' was just taken; please retry.") none

/-- The keyspace is saturated. -/
def keyspaceSaturated : Response :=
  .httpException 503 "Could not allocate a unique short code; please retry." none

@[simp] theorem status_customCodeConflict (customCode : String) :
    (customCodeConflict customCode).status = 409 := rfl

@[simp] theorem status_raceConflict (shortCode : String) :
    (raceConflict shortCode).status = 409 := rfl

@[simp] theorem status_keyspaceSaturated : keyspaceSaturated.status = 503 := rfl

/-- Microseconds in a day. -/
def microsPerDay : ℤ := 86400000000

/-- After a code has been chosen: compute the expiry, if there is one, and insert. -/
def chosen (payload : CreateUrlRequest) (shortCode : String) : Phase :=
  match payload.expiresInDays with
  | some days => .createUrl payload (.expiresAt shortCode days)
  | none => .createUrl payload (.insert shortCode none)

/-- One step of `create_url`. -/
def createUrl (app : App) (i : ℕ) (choice : Choice) (shared : Shared) (h : Handler)
    (payload : CreateUrlRequest) : CreatePoint → Shared × Handler
  | .codeExists customCode =>
      match choice.query (Repository.codeExists customCode shared.db) with
      | .error _ => (shared, h.goto (.rollback .internalServerError))
      | .ok true => (shared, h.goto (.rollback (customCodeConflict customCode)))
      | .ok false => (shared, h.goto (chosen payload customCode))
  | .generate attempt =>
      if attempt < defaultMaxCollisionRetries then
        match generateShortCode app.settings.shortCodeLength choice.draws with
        | .error _ => (shared, h.goto (.rollback .internalServerError))
        | .ok candidate =>
            match choice.query (Repository.codeExists candidate shared.db) with
            | .error _ => (shared, h.goto (.rollback .internalServerError))
            | .ok true => (shared, h.goto (.createUrl payload (.generate (attempt + 1))))
            | .ok false => (shared, h.goto (chosen payload candidate))
      else (shared, h.goto (.rollback keyspaceSaturated))
  | .expiresAt shortCode days =>
      (shared, h.goto (.createUrl payload
        (.insert shortCode (some (shared.clock + days * microsPerDay)))))
  | .insert shortCode expiresAt =>
      match choice.statement (Repository.createUrl (.request i) shortCode payload.longUrl expiresAt
        (some h.clientId) choice.serverNow choice.idGap shared.db) with
      | .error .integrity => (shared, h.goto (.rollback (raceConflict shortCode)))
      | .error _ => (shared, h.goto (.rollback .internalServerError))
      | .wait => (shared, h)
      | .ok url db =>
          ({ shared with db := db }, h.goto (.commit (.created
            (UrlResponse.build url.shortCode url.longUrl url.expiresAt app.settings.baseUrl))))

/-! ## `redirect` -/

/-- The code does not resolve. -/
def redirectNotFound (shortCode : String) : Response :=
  .httpException 404 ("Short code '" ++ shortCode ++ "' not found or expired.") none

@[simp] theorem status_redirectNotFound (shortCode : String) :
    (redirectNotFound shortCode).status = 404 := rfl

/-- The arguments of the task that records a redirect. -/
def clickArgs (app : App) (h : Handler) (shortCode : String) : Repository.ClickArgs where
  shortCode := shortCode
  referrer := h.request.referer
  userAgent := h.request.userAgent
  clientIpHash := some (hashClientIp app h.clientId)

/-- Decide on a `302` and schedule the recording of the click.  The URL is handed to a
`RedirectResponse`, which percent-encodes it. -/
def redirectTo (app : App) (h : Handler) (shortCode : String) (next : Phase) : Handler where
  request := h.request
  phase := next
  decision := some shortCode
  task := .scheduled (clickArgs app h shortCode)

/-- One step of `redirect`. -/
def redirect (app : App) (choice : Choice) (shared : Shared) (h : Handler) (shortCode : String) :
    RedirectPoint → Shared × Handler
  | .getCachedUrl =>
      let outcome := shared.redisCall
        (UrlCache.getCachedUrl app.settings shared.redisTime choice.fault shortCode)
      match outcome.1 with
      | some longUrl =>
          (outcome.2.record [.redirectTotal .success],
            redirectTo app h shortCode (.respond (.found longUrl)))
      | none => (outcome.2, h.goto (.redirect shortCode .getUrl))
  | .getUrl =>
      match choice.query (Repository.getUrl shortCode shared.db) with
      | .error _ => (shared, h.goto (.rollback .internalServerError))
      | .ok url => (shared, h.goto (.redirect shortCode (.now url)))
  | .now none =>
      (shared.record [.redirectTotal .notFound], h.goto (.rollback (redirectNotFound shortCode)))
  | .now (some url) =>
      if Repository.isExpired url shared.clock then
        (shared.record [.redirectTotal .expired], h.goto (.rollback (redirectNotFound shortCode)))
      else if url.expiresAt = none then
        (shared, h.goto (.redirect shortCode (.setCachedUrl url.longUrl)))
      else
        (shared.record [.redirectTotal .success],
          redirectTo app h shortCode (.commit (.found url.longUrl)))
  | .setCachedUrl longUrl =>
      let outcome := shared.redisCall
        (UrlCache.setCachedUrl app.settings shared.redisTime choice.fault shortCode longUrl none)
      (outcome.2.record [.redirectTotal .success],
        redirectTo app h shortCode (.commit (.found longUrl)))

/-! ## `get_stats` -/

/-- How many recent clicks the stats endpoint returns. -/
def recentClicksLimit : ℕ := 20

/-- How many referrers the stats endpoint returns. -/
def topReferrersLimit : ℕ := 10

/-- The code has no row. -/
def statsNotFound (shortCode : String) : Response :=
  .httpException 404 ("Short code '" ++ shortCode ++ "' not found.") none

@[simp] theorem status_statsNotFound (shortCode : String) :
    (statsNotFound shortCode).status = 404 := rfl

/-- The body of a stats response. -/
def statsResponse (shortCode : String) (url : Url) (recent : List ClickEvent)
    (topReferrers : List (Option String × ℕ)) : StatsResponse where
  shortCode := shortCode
  clickCount := url.clickCount
  recentClicks := recent.map fun click => ⟨click.clickedAt, click.referrer, click.userAgent⟩
  topReferrers := topReferrers.map fun group => ⟨group.1, group.2⟩

/-- One step of `get_stats`. -/
def getStats (choice : Choice) (shared : Shared) (h : Handler) (shortCode : String) :
    StatsPoint → Shared × Handler
  | .getUrl =>
      match choice.query (Repository.getUrl shortCode shared.db) with
      | .error _ => (shared, h.goto (.rollback .internalServerError))
      | .ok none => (shared, h.goto (.rollback (statsNotFound shortCode)))
      | .ok (some url) => (shared, h.goto (.getStats shortCode (.getRecentClicks url)))
  | .getRecentClicks url =>
      match choice.query (Repository.getRecentClicks shortCode recentClicksLimit choice.clickOrder
        shared.db) with
      | .error _ => (shared, h.goto (.rollback .internalServerError))
      | .ok recent => (shared, h.goto (.getStats shortCode (.getTopReferrers url recent)))
  | .getTopReferrers url recent =>
      match choice.query (Repository.getTopReferrers shortCode topReferrersLimit
        choice.referrerOrder shared.db) with
      | .error _ => (shared, h.goto (.rollback .internalServerError))
      | .ok topReferrers =>
          (shared, h.goto (.commit (.stats (statsResponse shortCode url recent topReferrers))))

/-! ## The dependencies around a handler -/

/-- The bucket script, and the rejection if it says so. -/
def rateLimit (app : App) (choice : Choice) (shared : Shared) (h : Handler)
    (routeClass : RouteClass) (nowMs : ℤ) : Shared × Handler :=
  let outcome := shared.redisCall
    (RateLimiter.check app.settings shared.redisTime nowMs choice.fault h.clientId routeClass)
  if outcome.1.allowed then (outcome.2, h.goto h.request.call.body)
  else
    (outcome.2.record [.rateLimitRejectionsTotal routeClass],
      h.goto (.respond (tooManyRequests outcome.1)))

/-- The middleware reads `request.url` before it passes the request on.  If that raises, so does the
middleware. -/
def observabilityEntry (app : App) (shared : Shared) (h : Handler) : Shared × Handler :=
  match app.urlPath h.request.scope with
  | none => (shared, h.goto (.respond .internalServerError))
  | some _ => (shared, h.goto (h.request.call.entry (RateLimiter.nowMs shared.clock)))

/-- One step of a request: its next operation, whatever it is. -/
def advance (app : App) (i : ℕ) (choice : Choice) (shared : Shared) (h : Handler) :
    Shared × Handler :=
  match h.phase with
  | .middleware => observabilityEntry app shared h
  | .checkScript routeClass nowMs => rateLimit app choice shared h routeClass nowMs
  | .createUrl payload point => createUrl app i choice shared h payload point
  | .redirect shortCode point => redirect app choice shared h shortCode point
  | .getStats shortCode point => getStats choice shared h shortCode point
  | .commit response =>
      if choice.dbFails then
        (shared, { h with phase := .rollback .internalServerError, task := h.task.drop })
      else
        ({ shared with db := shared.db.commit (.request i) }, h.goto (.respond response))
  | .rollback response =>
      ({ shared with db := shared.db.rollback (.request i) },
        h.goto (.respond (if choice.dbFails then .internalServerError else response)))
  | .respond response => (shared, h.goto (.done response))
  | .done _ => (shared, h)

/-! ## `record_click_in_new_session` -/

/-- A recording that fails rolls its session back. -/
def failRecording (i : ℕ) (shared : Shared) (h : Handler) (click : Repository.ClickArgs) :
    Shared × Handler :=
  ({ shared with db := shared.db.rollback (.background i) }, { h with task := .failed click })

/-- One step of the click-recording task of a request.  It starts once the response is sent. -/
def recordClick (i : ℕ) (choice : Choice) (shared : Shared) (h : Handler) : Shared × Handler :=
  match h.phase, h.task with
  | .done _, .scheduled click =>
      match choice.statement (Repository.bumpClickCount (.background i) click shared.db) with
      | .error _ => failRecording i shared h click
      | .wait => (shared, h)
      | .ok () db => ({ shared with db := db }, { h with task := .updated click })
  | .done _, .updated click =>
      match choice.statement (Repository.insertClickEvent (.background i) click choice.serverNow
        choice.idGap shared.db) with
      | .error _ => failRecording i shared h click
      | .wait => (shared, h)
      | .ok _ db => ({ shared with db := db }, { h with task := .inserted click })
  | .done _, .inserted click =>
      if choice.dbFails then failRecording i shared h click
      else
        ({ shared with db := shared.db.commit (.background i) }, { h with task := .recorded click })
  | _, _ => (shared, h)

end UrlShortener
