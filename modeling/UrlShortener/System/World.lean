import UrlShortener.Api.Routes
import UrlShortener.Library.Interleaving

/-!
# The service as a system of interleaving requests

Requests arrive, and each is a process that acts in two ways: its handler moves on by one
operation, or its click-recording task does.  The environment sets the wall clock to anything,
lets Redis time pass, and evicts keys.

## What is proved

* `createUrl_steps`, `redirect_steps` and `getStats_steps` say once what a step of each endpoint
  can come to.
* `advance_moves` and `recordClick_moves` say what an action can do to the database and to its own
  request.  Every invariant of the service that is about the database is proved by cases on them.
-/

set_option autoImplicit false

namespace UrlShortener

open Interleaving (System)

/-- What the environment does. -/
inductive Env where
  /-- Set the wall clock. -/
  | tick : (clock : ℤ) → Env
  /-- Let Redis time pass. -/
  | redisTick : (elapsedMs : ℕ) → Env
  /-- Lose a Redis key. -/
  | evict : (key : String) → Env

/-- What a request does. -/
inductive Action where
  /-- The handler moves on. -/
  | advance : Choice → Action
  /-- The click-recording task moves on. -/
  | background : Choice → Action

/-- The choice an action comes with. -/
def Action.choice : Action → Choice
  | .advance choice => choice
  | .background choice => choice

/-- An event of the service. -/
abbrev Event := Interleaving.Event Request Action Env

/-- The effect of the environment. -/
def Env.apply (shared : Shared) : Env → Shared
  | .tick clock => { shared with clock := clock }
  | .redisTick elapsedMs => { shared with redisTime := shared.redisTime + elapsedMs }
  | .evict key => { shared with redis := Keyspace.write shared.redis key .erase }

/-- The effect of an action. -/
def act (app : App) (i : ℕ) (action : Action) (shared : Shared) (h : Handler) : Shared × Handler :=
  match action with
  | .advance choice => advance app i choice shared h
  | .background choice => recordClick i choice shared h

/-- The service. -/
def App.system (app : App) : System Shared Handler Request Action Env where
  arrive := Handler.arrive
  act := act app
  env := fun e shared => e.apply shared

/-- An empty database, an empty Redis, and no metrics. -/
def Shared.initial : Shared where
  clock := 0
  redisTime := 0
  redis := fun _ => none
  db := .initial
  metrics := .zero

/-- A run of the service. -/
def App.run (app : App) (es : List Event) : Interleaving.World Shared Handler :=
  app.system.run .initial es

theorem App.run_concat (app : App) (es : List Event) (e : Event) :
    app.run (es ++ [e]) = app.system.step (app.run es) e := app.system.run_concat _ _ _

/-- The state of the service after the first `n` events of a run. -/
def App.stateAt (app : App) (es : List Event) (n : ℕ) : Interleaving.World Shared Handler :=
  Run.stateAt app.system.step ⟨.initial, []⟩ es n

/-! ## What a handler can do -/

/-- The phases before a handler has returned or raised. -/
def Phase.inBody : Phase → Bool
  | .middleware | .checkScript _ _ | .createUrl _ _ | .redirect _ _ | .getStats _ _ => true
  | .commit _ | .rollback _ | .respond _ | .done _ => false

/-- The responses that come from an exception. -/
def Response.isError : Response → Bool
  | .httpException _ _ _ | .internalServerError => true
  | .created _ | .found _ | .stats _ => false

/-- What a step of a handler does to the database and to its request. -/
inductive Moves (app : App) (i : ℕ) (shared : Shared) (h : Handler) : Shared → Handler → Prop where
  /-- Go on in the body. -/
  | goesOn (shared' : Shared) (phase : Phase) : h.phase.inBody = true → phase.inBody = true →
      shared'.db = shared.db → Moves app i shared h shared' (h.goto phase)
  /-- Wait for another session. -/
  | waits : h.phase.inBody = true → Moves app i shared h shared h
  /-- Raise in the body. -/
  | raises (shared' : Shared) (response : Response) : h.phase.inBody = true →
      response.isError = true → shared'.db = shared.db →
      Moves app i shared h shared' (h.goto (.rollback response))
  /-- Be turned away before the session is opened. -/
  | rejected (shared' : Shared) (response : Response) : h.phase.inBody = true →
      response.isError = true → shared'.db = shared.db →
      Moves app i shared h shared' (h.goto (.respond response))
  /-- Insert a URL and return it. -/
  | inserts (payload : CreateUrlRequest) (shortCode : String) (expiresAt : Option ℤ) (url : Url)
      (db : Database) : h.phase = .createUrl payload (.insert shortCode expiresAt) →
      Repository.Created (.request i) shortCode payload.longUrl expiresAt (some h.clientId)
        shared.db url db →
      Moves app i shared h { shared with db := db } (h.goto (.commit (.created
        (UrlResponse.build url.shortCode url.longUrl url.expiresAt app.settings.baseUrl))))
  /-- Decide on a redirect; with a cached URL the session is not used. -/
  | decides (shared' : Shared) (shortCode longUrl : String) (point : RedirectPoint)
      (next : Phase) : h.phase = .redirect shortCode point →
      next = .respond (.found longUrl) ∨ next = .commit (.found longUrl) →
      shared'.db = shared.db → Moves app i shared h shared' (redirectTo app h shortCode next)
  /-- Return statistics. -/
  | reports (shortCode : String) (point : StatsPoint) (body : StatsResponse) :
      h.phase = .getStats shortCode point →
      Moves app i shared h shared (h.goto (.commit (.stats body)))
  | commitFails (response : Response) : h.phase = .commit response →
      Moves app i shared h shared
        { h with phase := .rollback .internalServerError, task := h.task.drop }
  | commits (response : Response) : h.phase = .commit response →
      Moves app i shared h { shared with db := shared.db.commit (.request i) }
        (h.goto (.respond response))
  | rollsBack (response response' : Response) : h.phase = .rollback response →
      response' = response ∨ response' = .internalServerError →
      Moves app i shared h { shared with db := shared.db.rollback (.request i) }
        (h.goto (.respond response'))
  | responds (response : Response) : h.phase = .respond response →
      Moves app i shared h shared (h.goto (.done response))
  | rests (response : Response) : h.phase = .done response → Moves app i shared h shared h

theorem inBody_chosen (payload : CreateUrlRequest) (shortCode : String) :
    (chosen payload shortCode).inBody = true := by
  unfold chosen
  split <;> rfl

theorem inBody_body (call : Call) : call.body.inBody = true := by
  unfold Call.body
  split
  · split <;> rfl
  · rfl
  · rfl

theorem inBody_entry (nowMs : ℤ) (call : Call) : (call.entry nowMs).inBody = true := by
  cases call <;> rfl

/-- **The middleware raises, or goes on.** -/
theorem observabilityEntry_cases (app : App) (shared : Shared) (h : Handler) :
    (h.request.hasUrl app = false ∧
        observabilityEntry app shared h = (shared, h.goto (.respond .internalServerError))) ∨
      (h.request.hasUrl app = true ∧ observabilityEntry app shared h =
        (shared, h.goto (h.request.call.entry (RateLimiter.nowMs shared.clock)))) := by
  unfold observabilityEntry Request.hasUrl
  cases app.urlPath h.request.scope with
  | none => exact Or.inl ⟨rfl, rfl⟩
  | some path => exact Or.inr ⟨rfl, rfl⟩

/-- The middleware touches nothing that is shared. -/
@[simp] theorem observabilityEntry_fst (app : App) (shared : Shared) (h : Handler) :
    (observabilityEntry app shared h).1 = shared := by
  unfold observabilityEntry
  split <;> rfl

theorem observabilityEntry_moves (app : App) (i : ℕ) (shared : Shared) {h : Handler}
    (hphase : h.phase = .middleware) :
    Moves app i shared h (observabilityEntry app shared h).1
      (observabilityEntry app shared h).2 := by
  have hbody : h.phase.inBody = true := by rw [hphase]; rfl
  rcases observabilityEntry_cases app shared h with ⟨-, hresult⟩ | ⟨-, hresult⟩
  · rw [hresult]
    exact .rejected _ _ hbody rfl rfl
  · rw [hresult]
    exact .goesOn _ _ hbody (inBody_entry _ _) rfl

theorem rateLimit_moves (app : App) (i : ℕ) (choice : Choice) (shared : Shared) {h : Handler}
    (hbody : h.phase.inBody = true) (routeClass : RouteClass) (nowMs : ℤ) :
    Moves app i shared h (rateLimit app choice shared h routeClass nowMs).1
      (rateLimit app choice shared h routeClass nowMs).2 := by
  unfold rateLimit
  dsimp only
  split
  · exact .goesOn _ _ hbody (inBody_body _) rfl
  · exact .rejected _ _ hbody rfl rfl

/-! ## The steps of `create_url`

What a step of `create_url` can come to is said once; what holds of every step is proved by cases
on it. -/

section CreateSteps

variable (app : App) (i : ℕ) (choice : Choice) (shared : Shared) (h : Handler)
  (payload : CreateUrlRequest)

/-- A step of `create_url`: the database after it, and the next phase. -/
inductive CreateSteps : CreatePoint → Database → Phase → Prop where
  | checkFails (customCode : String) (error : DbError) :
      choice.query (Repository.codeExists customCode shared.db) = .error error →
      CreateSteps (.codeExists customCode) shared.db (.rollback .internalServerError)
  | taken (customCode : String) :
      choice.query (Repository.codeExists customCode shared.db) = .ok true →
      CreateSteps (.codeExists customCode) shared.db (.rollback (customCodeConflict customCode))
  | free (customCode : String) :
      choice.query (Repository.codeExists customCode shared.db) = .ok false →
      CreateSteps (.codeExists customCode) shared.db (chosen payload customCode)
  /-- The generator raises a `ValueError`. -/
  | drawFails (attempt : ℕ) (message : String) :
      generateShortCode app.settings.shortCodeLength choice.draws = .error message →
      CreateSteps (.generate attempt) shared.db (.rollback .internalServerError)
  | lookupFails (attempt : ℕ) (candidate : String) (error : DbError) :
      generateShortCode app.settings.shortCodeLength choice.draws = .ok candidate →
      choice.query (Repository.codeExists candidate shared.db) = .error error →
      CreateSteps (.generate attempt) shared.db (.rollback .internalServerError)
  | collides (attempt : ℕ) : attempt < defaultMaxCollisionRetries →
      CreateSteps (.generate attempt) shared.db (.createUrl payload (.generate (attempt + 1)))
  | generated (attempt : ℕ) (candidate : String) :
      generateShortCode app.settings.shortCodeLength choice.draws = .ok candidate →
      choice.query (Repository.codeExists candidate shared.db) = .ok false →
      CreateSteps (.generate attempt) shared.db (chosen payload candidate)
  | saturated (attempt : ℕ) :
      CreateSteps (.generate attempt) shared.db (.rollback keyspaceSaturated)
  | expires (shortCode : String) (days : ℕ) :
      CreateSteps (.expiresAt shortCode days) shared.db
        (.createUrl payload (.insert shortCode (some (shared.clock + days * microsPerDay))))
  /-- Another session has committed the code after the lookup. -/
  | races (shortCode : String) (expiresAt : Option ℤ) :
      choice.statement (Repository.createUrl (.request i) shortCode payload.longUrl expiresAt
        (some h.clientId) choice.serverNow choice.idGap shared.db) = .error .integrity →
      CreateSteps (.insert shortCode expiresAt) shared.db (.rollback (raceConflict shortCode))
  | insertFails (shortCode : String) (expiresAt : Option ℤ) (error : DbError) :
      error ≠ .integrity →
      choice.statement (Repository.createUrl (.request i) shortCode payload.longUrl expiresAt
        (some h.clientId) choice.serverNow choice.idGap shared.db) = .error error →
      CreateSteps (.insert shortCode expiresAt) shared.db (.rollback .internalServerError)
  | waits (shortCode : String) (expiresAt : Option ℤ) :
      choice.statement (Repository.createUrl (.request i) shortCode payload.longUrl expiresAt
        (some h.clientId) choice.serverNow choice.idGap shared.db) = .wait →
      CreateSteps (.insert shortCode expiresAt) shared.db h.phase
  | inserts (shortCode : String) (expiresAt : Option ℤ) (url : Url) (db : Database) :
      choice.statement (Repository.createUrl (.request i) shortCode payload.longUrl expiresAt
        (some h.clientId) choice.serverNow choice.idGap shared.db) = .ok url db →
      CreateSteps (.insert shortCode expiresAt) db (.commit (.created
        (UrlResponse.build url.shortCode url.longUrl url.expiresAt app.settings.baseUrl)))

variable {app i choice shared h payload}

/-- **A step of `create_url` is one of these**, and does nothing else. -/
theorem createUrl_steps (point : CreatePoint) :
    ∃ db next, CreateSteps app i choice shared h payload point db next ∧
      createUrl app i choice shared h payload point = ({ shared with db := db }, h.goto next) := by
  cases point with
  | codeExists customCode =>
    rw [createUrl]
    split
    · rename_i error hquery
      exact ⟨_, _, .checkFails customCode error hquery, rfl⟩
    · rename_i hquery
      exact ⟨_, _, .taken customCode hquery, rfl⟩
    · rename_i hquery
      exact ⟨_, _, .free customCode hquery, rfl⟩
  | generate attempt =>
    rw [createUrl]
    split
    · rename_i hattempt
      split
      · rename_i message hdraw
        exact ⟨_, _, .drawFails attempt message hdraw, rfl⟩
      · rename_i candidate hdraw
        split
        · rename_i error hquery
          exact ⟨_, _, .lookupFails attempt candidate error hdraw hquery, rfl⟩
        · exact ⟨_, _, .collides attempt hattempt, rfl⟩
        · rename_i hquery
          exact ⟨_, _, .generated attempt candidate hdraw hquery, rfl⟩
    · exact ⟨_, _, .saturated attempt, rfl⟩
  | expiresAt shortCode days => exact ⟨_, _, .expires shortCode days, rfl⟩
  | insert shortCode expiresAt =>
    rw [createUrl]
    split
    · rename_i hstatement
      exact ⟨_, _, .races shortCode expiresAt hstatement, rfl⟩
    · rename_i error hother hstatement
      exact ⟨_, _, .insertFails shortCode expiresAt error hother hstatement, rfl⟩
    · rename_i hstatement
      exact ⟨_, _, .waits shortCode expiresAt hstatement, rfl⟩
    · rename_i url db hstatement
      exact ⟨_, _, .inserts shortCode expiresAt url db hstatement, rfl⟩

end CreateSteps

theorem createUrl_moves (app : App) (i : ℕ) (choice : Choice) (shared : Shared) {h : Handler}
    {payload : CreateUrlRequest} {point : CreatePoint}
    (hphase : h.phase = .createUrl payload point) :
    Moves app i shared h (createUrl app i choice shared h payload point).1
      (createUrl app i choice shared h payload point).2 := by
  have hbody : h.phase.inBody = true := by rw [hphase]; rfl
  obtain ⟨db, next, hsteps, hresult⟩ := createUrl_steps point
  rw [hresult]
  cases hsteps with
  | checkFails | taken | drawFails | lookupFails | saturated | races | insertFails =>
    exact .raises _ _ hbody rfl rfl
  | free | generated => exact .goesOn _ _ hbody (inBody_chosen _ _) rfl
  | collides | expires => exact .goesOn _ _ hbody rfl rfl
  | waits => exact .waits hbody
  | inserts shortCode expiresAt url db hstatement =>
    exact .inserts payload shortCode expiresAt url db hphase
      (Repository.createUrl_ok (Choice.eq_of_statement hstatement (by simp)))

/-! ## The steps of `redirect` -/

section RedirectSteps

variable (app : App) (choice : Choice) (shared : Shared) (h : Handler) (shortCode : String)

/-- A step of `redirect`: everything after it. -/
inductive RedirectSteps : RedirectPoint → Shared → Handler → Prop where
  | hits (longUrl : String) :
      (shared.redisCall (UrlCache.getCachedUrl app.settings shared.redisTime choice.fault
        shortCode)).1 = some longUrl →
      RedirectSteps .getCachedUrl
        ((shared.redisCall (UrlCache.getCachedUrl app.settings shared.redisTime choice.fault
          shortCode)).2.record [.redirectTotal .success])
        (redirectTo app h shortCode (.respond (.found longUrl)))
  | misses :
      (shared.redisCall (UrlCache.getCachedUrl app.settings shared.redisTime choice.fault
        shortCode)).1 = none →
      RedirectSteps .getCachedUrl
        (shared.redisCall (UrlCache.getCachedUrl app.settings shared.redisTime choice.fault
          shortCode)).2
        (h.goto (.redirect shortCode .getUrl))
  | selectFails (error : DbError) :
      choice.query (Repository.getUrl shortCode shared.db) = .error error →
      RedirectSteps .getUrl shared (h.goto (.rollback .internalServerError))
  | selects (row : Option Url) :
      choice.query (Repository.getUrl shortCode shared.db) = .ok row →
      RedirectSteps .getUrl shared (h.goto (.redirect shortCode (.now row)))
  | notFound :
      RedirectSteps (.now none) (shared.record [.redirectTotal .notFound])
        (h.goto (.rollback (redirectNotFound shortCode)))
  | expired (url : Url) : Repository.isExpired url shared.clock = true →
      RedirectSteps (.now (some url)) (shared.record [.redirectTotal .expired])
        (h.goto (.rollback (redirectNotFound shortCode)))
  /-- Only a URL without an expiry goes to the cache. -/
  | fills (url : Url) : ¬ Repository.isExpired url shared.clock = true → url.expiresAt = none →
      RedirectSteps (.now (some url)) shared
        (h.goto (.redirect shortCode (.setCachedUrl url.longUrl)))
  | finds (url : Url) : ¬ Repository.isExpired url shared.clock = true →
      RedirectSteps (.now (some url)) (shared.record [.redirectTotal .success])
        (redirectTo app h shortCode (.commit (.found url.longUrl)))
  | filled (longUrl : String) :
      RedirectSteps (.setCachedUrl longUrl)
        ((shared.redisCall (UrlCache.setCachedUrl app.settings shared.redisTime choice.fault
          shortCode longUrl none)).2.record [.redirectTotal .success])
        (redirectTo app h shortCode (.commit (.found longUrl)))

variable {app choice shared h shortCode}

theorem redirect_steps (point : RedirectPoint) :
    ∃ shared' h', RedirectSteps app choice shared h shortCode point shared' h' ∧
      redirect app choice shared h shortCode point = (shared', h') := by
  cases point with
  | getCachedUrl =>
    rw [redirect]
    split
    · rename_i longUrl hhit
      exact ⟨_, _, .hits longUrl hhit, rfl⟩
    · rename_i hmiss
      exact ⟨_, _, .misses hmiss, rfl⟩
  | getUrl =>
    rw [redirect]
    split
    · rename_i error hquery
      exact ⟨_, _, .selectFails error hquery, rfl⟩
    · rename_i row hquery
      exact ⟨_, _, .selects row hquery, rfl⟩
  | now row =>
    cases row with
    | none => exact ⟨_, _, .notFound, rfl⟩
    | some url =>
      rw [redirect]
      split
      · rename_i hexpired
        exact ⟨_, _, .expired url hexpired, rfl⟩
      · rename_i hlive
        split
        · rename_i hforever
          exact ⟨_, _, .fills url hlive hforever, rfl⟩
        · exact ⟨_, _, .finds url hlive, rfl⟩
  | setCachedUrl longUrl => exact ⟨_, _, .filled longUrl, rfl⟩

end RedirectSteps

theorem redirect_moves (app : App) (i : ℕ) (choice : Choice) (shared : Shared) {h : Handler}
    {shortCode : String} {point : RedirectPoint} (hphase : h.phase = .redirect shortCode point) :
    Moves app i shared h (redirect app choice shared h shortCode point).1
      (redirect app choice shared h shortCode point).2 := by
  have hbody : h.phase.inBody = true := by rw [hphase]; rfl
  obtain ⟨shared', h', hsteps, hresult⟩ := redirect_steps point
  rw [hresult]
  cases hsteps with
  | hits => exact .decides _ _ _ _ _ hphase (Or.inl rfl) rfl
  | finds | filled => exact .decides _ _ _ _ _ hphase (Or.inr rfl) rfl
  | misses | selects | fills => exact .goesOn _ _ hbody rfl rfl
  | selectFails | notFound | expired => exact .raises _ _ hbody rfl rfl

/-! ## The steps of `get_stats` -/

section StatsSteps

variable (choice : Choice) (shared : Shared) (shortCode : String)

/-- A step of `get_stats`: the next phase. -/
inductive StatsSteps : StatsPoint → Phase → Prop where
  | selectFails (error : DbError) :
      choice.query (Repository.getUrl shortCode shared.db) = .error error →
      StatsSteps .getUrl (.rollback .internalServerError)
  | notFound : choice.query (Repository.getUrl shortCode shared.db) = .ok none →
      StatsSteps .getUrl (.rollback (statsNotFound shortCode))
  | readsUrl (url : Url) : choice.query (Repository.getUrl shortCode shared.db) = .ok (some url) →
      StatsSteps .getUrl (.getStats shortCode (.getRecentClicks url))
  | clicksFail (url : Url) (error : DbError) :
      choice.query (Repository.getRecentClicks shortCode recentClicksLimit choice.clickOrder
        shared.db) = .error error →
      StatsSteps (.getRecentClicks url) (.rollback .internalServerError)
  | readsClicks (url : Url) (recent : List ClickEvent) :
      choice.query (Repository.getRecentClicks shortCode recentClicksLimit choice.clickOrder
        shared.db) = .ok recent →
      StatsSteps (.getRecentClicks url) (.getStats shortCode (.getTopReferrers url recent))
  | referrersFail (url : Url) (recent : List ClickEvent) (error : DbError) :
      choice.query (Repository.getTopReferrers shortCode topReferrersLimit choice.referrerOrder
        shared.db) = .error error →
      StatsSteps (.getTopReferrers url recent) (.rollback .internalServerError)
  | reports (url : Url) (recent : List ClickEvent) (topReferrers : List (Option String × ℕ)) :
      choice.query (Repository.getTopReferrers shortCode topReferrersLimit choice.referrerOrder
        shared.db) = .ok topReferrers →
      StatsSteps (.getTopReferrers url recent)
        (.commit (.stats (statsResponse shortCode url recent topReferrers)))

variable {choice shared shortCode}

theorem getStats_steps (h : Handler) (point : StatsPoint) :
    ∃ next, StatsSteps choice shared shortCode point next ∧
      getStats choice shared h shortCode point = (shared, h.goto next) := by
  cases point with
  | getUrl =>
    rw [getStats]
    split
    · rename_i error hquery
      exact ⟨_, .selectFails error hquery, rfl⟩
    · rename_i hquery
      exact ⟨_, .notFound hquery, rfl⟩
    · rename_i url hquery
      exact ⟨_, .readsUrl url hquery, rfl⟩
  | getRecentClicks url =>
    rw [getStats]
    split
    · rename_i error hquery
      exact ⟨_, .clicksFail url error hquery, rfl⟩
    · rename_i recent hquery
      exact ⟨_, .readsClicks url recent hquery, rfl⟩
  | getTopReferrers url recent =>
    rw [getStats]
    split
    · rename_i error hquery
      exact ⟨_, .referrersFail url recent error hquery, rfl⟩
    · rename_i topReferrers hquery
      exact ⟨_, .reports url recent topReferrers hquery, rfl⟩

end StatsSteps

theorem getStats_moves (app : App) (i : ℕ) (choice : Choice) (shared : Shared) {h : Handler}
    {shortCode : String} {point : StatsPoint} (hphase : h.phase = .getStats shortCode point) :
    Moves app i shared h (getStats choice shared h shortCode point).1
      (getStats choice shared h shortCode point).2 := by
  have hbody : h.phase.inBody = true := by rw [hphase]; rfl
  obtain ⟨next, hsteps, hresult⟩ := getStats_steps h point
  rw [hresult]
  cases hsteps with
  | selectFails | notFound | clicksFail | referrersFail => exact .raises _ _ hbody rfl rfl
  | readsUrl | readsClicks => exact .goesOn _ _ hbody rfl rfl
  | reports => exact .reports _ _ _ hphase

/-! ## The steps of a handler and of its task -/

/-- **What a step of a handler can do.** -/
theorem advance_moves (app : App) (i : ℕ) (choice : Choice) (shared : Shared) (h : Handler) :
    Moves app i shared h (advance app i choice shared h).1 (advance app i choice shared h).2 := by
  unfold advance
  split
  · rename_i hphase
    exact observabilityEntry_moves app i shared hphase
  · rename_i hphase
    exact rateLimit_moves _ _ _ _ (by rw [hphase]; rfl) _ _
  · rename_i hphase
    exact createUrl_moves _ _ _ _ hphase
  · rename_i hphase
    exact redirect_moves _ _ _ _ hphase
  · rename_i hphase
    exact getStats_moves _ _ _ _ hphase
  · rename_i hphase
    split
    · exact .commitFails _ hphase
    · exact .commits _ hphase
  · rename_i hphase
    refine .rollsBack _ _ hphase ?_
    cases choice.dbFails with
    | true => exact Or.inr rfl
    | false => exact Or.inl rfl
  · rename_i hphase
    exact .responds _ hphase
  · rename_i hphase
    exact .rests _ hphase

/-! ## What a click-recording task can do -/

/-- What a step of a task does to the database and to its request. -/
inductive RecordMoves (i : ℕ) (shared : Shared) (h : Handler) : Shared → Handler → Prop where
  | rests : RecordMoves i shared h shared h
  | bumps (response : Response) (click : Repository.ClickArgs) (db : Database) :
      h.phase = .done response → h.task = .scheduled click →
      Repository.Bumped (.background i) click.shortCode shared.db db →
      RecordMoves i shared h { shared with db := db } { h with task := .updated click }
  | appends (response : Response) (click : Repository.ClickArgs) (event : ClickEvent)
      (db : Database) : h.phase = .done response → h.task = .updated click →
      Repository.Inserted (.background i) click shared.db event db →
      RecordMoves i shared h { shared with db := db } { h with task := .inserted click }
  | commits (response : Response) (click : Repository.ClickArgs) :
      h.phase = .done response → h.task = .inserted click →
      RecordMoves i shared h { shared with db := shared.db.commit (.background i) }
        { h with task := .recorded click }
  | fails (response : Response) (click : Repository.ClickArgs) : h.phase = .done response →
      h.task = .scheduled click ∨ h.task = .updated click ∨ h.task = .inserted click →
      RecordMoves i shared h { shared with db := shared.db.rollback (.background i) }
        { h with task := .failed click }

/-- **What a step of a click-recording task can do.** -/
theorem recordClick_moves (i : ℕ) (choice : Choice) (shared : Shared) (h : Handler) :
    RecordMoves i shared h (recordClick i choice shared h).1 (recordClick i choice shared h).2 := by
  unfold recordClick
  split
  · rename_i hphase htask
    split
    · exact .fails _ _ hphase (Or.inl htask)
    · exact .rests
    · rename_i db hok
      exact .bumps _ _ _ hphase htask
        (Repository.bumpClickCount_ok (Choice.eq_of_statement hok (by simp)))
  · rename_i hphase htask
    split
    · exact .fails _ _ hphase (Or.inr (Or.inl htask))
    · exact .rests
    · rename_i event db hok
      exact .appends _ _ event _ hphase htask
        (Repository.insertClickEvent_ok (Choice.eq_of_statement hok (by simp)))
  · rename_i hphase htask
    split
    · exact .fails _ _ hphase (Or.inr (Or.inr htask))
    · exact .commits _ _ hphase htask
  · exact .rests

/-! ## What a step leaves alone -/

/-- `create_url` touches nothing but the database. -/
theorem createUrl_frame (app : App) (i : ℕ) (choice : Choice) (shared : Shared) (h : Handler)
    (payload : CreateUrlRequest) (point : CreatePoint) :
    ∃ db, (createUrl app i choice shared h payload point).1 = { shared with db := db } := by
  obtain ⟨db, next, -, hresult⟩ := createUrl_steps point
  exact ⟨db, congrArg Prod.fst hresult⟩

/-- `get_stats` touches nothing. -/
theorem getStats_frame (choice : Choice) (shared : Shared) (h : Handler) (shortCode : String)
    (point : StatsPoint) : (getStats choice shared h shortCode point).1 = shared := by
  obtain ⟨next, -, hresult⟩ := getStats_steps h point
  exact congrArg Prod.fst hresult

/-- Recording a click touches nothing but the database. -/
theorem recordClick_frame (i : ℕ) (choice : Choice) (shared : Shared) (h : Handler) :
    ∃ db, (recordClick i choice shared h).1 = { shared with db := db } := by
  have hmoves := recordClick_moves i choice shared h
  generalize (recordClick i choice shared h).1 = shared' at hmoves
  generalize (recordClick i choice shared h).2 = h' at hmoves
  cases hmoves with
  | rests => exact ⟨shared.db, rfl⟩
  | bumps | appends | commits | fails => exact ⟨_, rfl⟩

/-! ## Scripts

Small runs are written down as scripts: which request takes how many steps, and what fails. -/

/-- Nothing fails. -/
def Choice.calm : Choice where
  fault := .none
  dbFails := false
  draws := fun _ => 0
  serverNow := 0
  idGap := 0
  clickOrder := []
  referrerOrder := []

/-- The Redis call of the step fails. -/
def Choice.redisDown : Choice := { Choice.calm with fault := .lostCall }

/-- A handler takes a number of steps. -/
def steps (i n : ℕ) (choice : Choice) : List Event := List.replicate n (.act i (.advance choice))

/-- A request whose rate-limit check fails open, up to the end of the check. -/
def admitted (i : ℕ) (request : Request) : List Event :=
  .arrive request :: steps i 2 .redisDown

/-- The path that leads to a call. -/
def Call.path (call : Call) : String :=
  "/" ++ match call with
    | .createUrl _ => "api/urls"
    | .redirect shortCode => shortCode
    | .getStats shortCode => "api/urls/" ++ shortCode ++ "/stats"

/-- A request without headers, apart from the host. -/
def Call.plain (call : Call) : Request where
  call := call
  scope := ⟨some "localhost", call.path, ""⟩
  xForwardedFor := none
  clientHost := some "10.0.0.1"
  referer := none
  userAgent := none

/-- A body that asks for a custom code and no expiry. -/
def CreateUrlRequest.sample (customCode : String)
    (h : validateCustomCode (some customCode) = .ok (some customCode)) : CreateUrlRequest where
  longUrl := "https://example.com/"
  longUrl_valid := by decide
  customCode := some customCode
  customCode_valid := h
  expiresInDays := none
  expiresInDays_valid := fun _ h => by cases h

/-- A body that asks for the code `abcd`. -/
def abcdRequest : CreateUrlRequest :=
  .sample "abcd" (validateCustomCode_of_all (by decide) (by decide) (by decide))

end UrlShortener
