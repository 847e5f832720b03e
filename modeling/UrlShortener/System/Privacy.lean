import UrlShortener.Core.Tenants
import UrlShortener.System.Phases
import UrlShortener.System.Solo

/-!
# What the tables reveal about clients

Recording a click stores the salted hash of the client address.  Creation stores the identifier
itself, as the creator of the link.  So two clients whose hashes are the same can be told apart by
the tables after all, if one of them creates a link.

The comparison is between two runs with the same schedule, in which the requests at the same place
are twins: they differ in the client only, and the clients hash alike.  The rate limiter keeps a
bucket for each client and may treat twins differently; the runs are compared where it does not.

## What is proved

* `advance_related` and `recordClick_related`: a step of twins keeps everything but the buckets the
  same, unless it inserts a row that names them.
* `App.sameTables_iff`: the tables are the same in both runs exactly if no twins reveal themselves
  by creating a link.
-/

set_option autoImplicit false

namespace UrlShortener

open Interleaving (World)
open Keyspace (Command)

/-- Two requests that differ in the client only, where the clients hash alike. -/
structure Twins (app : App) (request request' : Request) : Prop where
  call : request'.call = request.call
  scope : request'.scope = request.scope
  referer : request'.referer = request.referer
  userAgent : request'.userAgent = request.userAgent
  hash : hashClientIp app (getClientIdentifier request') =
    hashClientIp app (getClientIdentifier request)

/-- Twins reveal themselves if they create a link that names them, and are not the same client. -/
def Reveals (app : App) (request request' : Request) : Prop :=
  (∃ payload, request.call = .createUrl payload) ∧ request.hasUrl app = true ∧
    getClientIdentifier request' ≠ getClientIdentifier request ∧
    (isVarchar 64 (getClientIdentifier request) = true ∨
      isVarchar 64 (getClientIdentifier request') = true)

/-- The rate limiter has rejected a request. -/
def Handler.Rejected (h : Handler) : Prop :=
  ∃ result, h.phase = .respond (tooManyRequests result) ∨ h.phase = .done (tooManyRequests result)

/-- The rate limiter decides the same in two runs. -/
def SameDecisions (app : App) (es es' : List Event) : Prop :=
  ∀ (n i : ℕ) (h h' : Handler), (app.stateAt es n).procs[i]? = some h →
    (app.stateAt es' n).procs[i]? = some h' → (h'.Rejected ↔ h.Rejected)

/-- Two databases have the same contents. -/
def SameTables (db db' : Database) : Prop := db'.urls = db.urls ∧ db'.clickEvents = db.clickEvents

/-! ## What twins have in common -/

/-- The same shared state, apart from the buckets and the metrics. -/
structure Shared.Related (shared shared' : Shared) : Prop where
  clock : shared'.clock = shared.clock
  redisTime : shared'.redisTime = shared.redisTime
  db : shared'.db = shared.db
  cache : ∀ shortCode,
    shared'.redis (UrlCache.key shortCode) = shared.redis (UrlCache.key shortCode)

/-- The same phase, apart from how long to wait after a rejection. -/
inductive Phase.Related : Phase → Phase → Prop where
  | same (phase : Phase) : Related phase phase
  | respond (result result' : RateLimitResult) :
      Related (.respond (tooManyRequests result)) (.respond (tooManyRequests result'))
  | done (result result' : RateLimitResult) :
      Related (.done (tooManyRequests result)) (.done (tooManyRequests result'))

/-- Twins at the same point, which do not reveal themselves. -/
structure Handler.Related (app : App) (h h' : Handler) : Prop where
  twins : Twins app h.request h'.request
  hidden : ¬ Reveals app h.request h'.request
  phase : h.phase.Related h'.phase
  decision : h'.decision = h.decision
  task : h'.task = h.task

/-- What a step leaves of related states and handlers. -/
def StepRelated (app : App) (outcome outcome' : Shared × Handler) : Prop :=
  outcome.1.Related outcome'.1 ∧ outcome.2.Related app outcome'.2

theorem Shared.Related.initial : Shared.Related .initial .initial where
  clock := rfl
  redisTime := rfl
  db := rfl
  cache := fun _ => rfl

section Related

variable {app : App} {shared shared' : Shared} {h h' : Handler}

theorem Shared.Related.record (hs : shared.Related shared') (incs incs' : List Metric) :
    (shared.record incs).Related (shared'.record incs') :=
  ⟨hs.clock, hs.redisTime, hs.db, hs.cache⟩

theorem Shared.Related.setDb (hs : shared.Related shared') (db : Database) :
    Shared.Related { shared with db := db } { shared' with db := db } :=
  ⟨hs.clock, hs.redisTime, rfl, hs.cache⟩

/-- A command on a cache key answers the same, and leaves the cache the same. -/
theorem Shared.Related.redisCall {R : Type} (hs : shared.Related shared') {shortCode : String}
    {command : Command String RedisValue (R × List Metric)}
    (hkey : command.key = UrlCache.key shortCode) :
    (shared'.redisCall command).1 = (shared.redisCall command).1 ∧
      (shared.redisCall command).2.Related (shared'.redisCall command).2 := by
  obtain ⟨hanswer, hstore⟩ := command.exec_congr shared.redisTime
    (show shared'.redis command.key = shared.redis command.key by rw [hkey, hs.cache])
  rw [Shared.redisCall_fst, Shared.redisCall_fst, hs.redisTime]
  refine ⟨congrArg Prod.fst hanswer, hs.clock, hs.redisTime, hs.db, fun shortCode' => ?_⟩
  rw [Shared.redisCall_redis, Shared.redisCall_redis, hs.redisTime]
  by_cases hcode : UrlCache.key shortCode' = command.key
  · rw [hcode]
    exact hstore
  · rw [command.exec_of_ne _ _ hcode, command.exec_of_ne _ _ hcode, hs.cache]

/-- Commands on bucket keys leave the cache the same. -/
theorem Shared.Related.bucketCall {R : Type} (hs : shared.Related shared')
    {command command' : Command String RedisValue (R × List Metric)}
    (hkey : ∀ shortCode, UrlCache.key shortCode ≠ command.key)
    (hkey' : ∀ shortCode, UrlCache.key shortCode ≠ command'.key) :
    (shared.redisCall command).2.Related (shared'.redisCall command').2 := by
  refine ⟨hs.clock, hs.redisTime, hs.db, fun shortCode => ?_⟩
  rw [Shared.redisCall_redis, Shared.redisCall_redis, command.exec_of_ne _ _ (hkey shortCode),
    command'.exec_of_ne _ _ (hkey' shortCode), hs.cache]

theorem Shared.Related.env (hs : shared.Related shared') (e : Env) :
    (e.apply shared).Related (e.apply shared') := by
  cases e with
  | tick clock => exact ⟨rfl, hs.redisTime, hs.db, hs.cache⟩
  | redisTick elapsedMs =>
    refine ⟨hs.clock, ?_, hs.db, hs.cache⟩
    show shared'.redisTime + _ = shared.redisTime + _
    rw [hs.redisTime]
  | evict key =>
    refine ⟨hs.clock, hs.redisTime, hs.db, fun shortCode => ?_⟩
    show Keyspace.write shared'.redis key .erase _ = Keyspace.write shared.redis key .erase _
    by_cases hkey : UrlCache.key shortCode = key
    · rw [← hkey]
      exact Keyspace.write_congr (hs.cache shortCode) _
    · rw [Keyspace.write_of_ne _ hkey, Keyspace.write_of_ne _ hkey, hs.cache]

theorem Handler.Related.goto (hh : h.Related app h') (phase : Phase) :
    (h.goto phase).Related app (h'.goto phase) :=
  ⟨hh.twins, hh.hidden, .same phase, hh.decision, hh.task⟩

theorem Handler.Related.setTask (hh : h.Related app h') (task : ClickTask) :
    Handler.Related app { h with task := task } { h' with task := task } :=
  ⟨hh.twins, hh.hidden, hh.phase, hh.decision, rfl⟩

/-- **A recorded click does not tell twins apart**: it keeps the hash only. -/
theorem Handler.Related.redirectTo (hh : h.Related app h') (shortCode : String) (next : Phase) :
    (redirectTo app h shortCode next).Related app (redirectTo app h' shortCode next) := by
  refine ⟨hh.twins, hh.hidden, .same next, rfl, ?_⟩
  show ClickTask.scheduled _ = ClickTask.scheduled _
  rw [clickArgs, clickArgs, Handler.clientId, Handler.clientId, hh.twins.referer,
    hh.twins.userAgent, hh.twins.hash]

end Related

/-! ## Twins take the same steps -/

section Step

variable {app : App} {i : ℕ} {choice : Choice} {shared shared' : Shared} {h h' : Handler}

/-- Clients that an insert cannot tell apart: they are the same, or the column refuses both. -/
theorem Handler.Related.clientId_eq_or (hh : h.Related app h') {payload : CreateUrlRequest}
    (hcall : h.request.call = .createUrl payload) (hurl : h.request.hasUrl app = true) :
    h'.clientId = h.clientId ∨
      isVarchar 64 h.clientId = false ∧ isVarchar 64 h'.clientId = false := by
  by_cases hclient : h'.clientId = h.clientId
  · exact Or.inl hclient
  · refine Or.inr ⟨?_, ?_⟩
    · rw [← Bool.not_eq_true]
      exact fun hstorable => hh.hidden ⟨⟨payload, hcall⟩, hurl, hclient, Or.inl hstorable⟩
    · rw [← Bool.not_eq_true]
      exact fun hstorable => hh.hidden ⟨⟨payload, hcall⟩, hurl, hclient, Or.inr hstorable⟩

theorem createUrl_related (hs : shared.Related shared') (hh : h.Related app h')
    {payload : CreateUrlRequest} (hcall : h.request.call = .createUrl payload)
    (hurl : h.request.hasUrl app = true) (point : CreatePoint) :
    StepRelated app (createUrl app i choice shared h payload point)
      (createUrl app i choice shared' h' payload point) := by
  cases point with
  | codeExists customCode =>
    rw [createUrl, createUrl, hs.db]
    generalize choice.query (Repository.codeExists customCode shared.db) = result
    rcases result with error | exists'
    · exact ⟨hs, hh.goto _⟩
    · cases exists' with
      | true => exact ⟨hs, hh.goto _⟩
      | false => exact ⟨hs, hh.goto _⟩
  | generate attempt =>
    rw [createUrl, createUrl, hs.db]
    split
    · rcases generateShortCode app.settings.shortCodeLength choice.draws with message | candidate
      · exact ⟨hs, hh.goto _⟩
      · dsimp only
        generalize choice.query (Repository.codeExists candidate shared.db) = result
        rcases result with error | exists'
        · exact ⟨hs, hh.goto _⟩
        · cases exists' with
          | true => exact ⟨hs, hh.goto _⟩
          | false => exact ⟨hs, hh.goto _⟩
    · exact ⟨hs, hh.goto _⟩
  | expiresAt shortCode days =>
    rw [createUrl, createUrl, hs.clock]
    exact ⟨hs, hh.goto _⟩
  | insert shortCode expiresAt =>
    rw [createUrl, createUrl, hs.db]
    rcases hh.clientId_eq_or hcall hurl with hclient | ⟨hclient, hclient'⟩
    · rw [hclient]
      generalize choice.statement (Repository.createUrl (.request i) shortCode payload.longUrl
        expiresAt (some h.clientId) choice.serverNow choice.idGap shared.db) = reply
      rcases reply with error | - | ⟨url, db⟩
      · cases error <;> exact ⟨hs, hh.goto _⟩
      · exact ⟨hs, hh⟩
      · exact ⟨hs.setDb db, hh.goto _⟩
    · rw [Repository.createUrl_of_not_isVarchar hclient,
        Repository.createUrl_of_not_isVarchar hclient']
      unfold Choice.statement
      cases choice.dbFails with
      | true => exact ⟨hs, hh.goto _⟩
      | false => exact ⟨hs, hh.goto _⟩

theorem redirect_related (hs : shared.Related shared') (hh : h.Related app h') (shortCode : String)
    (point : RedirectPoint) :
    StepRelated app (redirect app choice shared h shortCode point)
      (redirect app choice shared' h' shortCode point) := by
  cases point with
  | getCachedUrl =>
    obtain ⟨hanswer, hs'⟩ := hs.redisCall (UrlCache.getCachedUrl_key app.settings shared.redisTime
      choice.fault shortCode)
    rw [redirect, redirect, hs.redisTime, hanswer]
    generalize (shared.redisCall (UrlCache.getCachedUrl app.settings shared.redisTime choice.fault
      shortCode)).1 = answer
    cases answer with
    | some longUrl => exact ⟨hs'.record _ _, hh.redirectTo shortCode _⟩
    | none => exact ⟨hs', hh.goto _⟩
  | getUrl =>
    rw [redirect, redirect, hs.db]
    generalize choice.query (Repository.getUrl shortCode shared.db) = result
    rcases result with error | url
    · exact ⟨hs, hh.goto _⟩
    · exact ⟨hs, hh.goto _⟩
  | now url =>
    cases url with
    | none => exact ⟨hs.record _ _, hh.goto _⟩
    | some url =>
      rw [redirect, redirect, hs.clock]
      split
      · exact ⟨hs.record _ _, hh.goto _⟩
      · split
        · exact ⟨hs, hh.goto _⟩
        · exact ⟨hs.record _ _, hh.redirectTo shortCode _⟩
  | setCachedUrl longUrl =>
    obtain ⟨-, hs'⟩ := hs.redisCall (UrlCache.setCachedUrl_key app.settings shared.redisTime
      choice.fault shortCode longUrl none)
    rw [redirect, redirect, hs.redisTime]
    exact ⟨hs'.record _ _, hh.redirectTo shortCode _⟩

theorem getStats_related (hs : shared.Related shared') (hh : h.Related app h') (shortCode : String)
    (point : StatsPoint) :
    StepRelated app (getStats choice shared h shortCode point)
      (getStats choice shared' h' shortCode point) := by
  cases point with
  | getUrl =>
    rw [getStats, getStats, hs.db]
    generalize choice.query (Repository.getUrl shortCode shared.db) = result
    rcases result with error | url
    · exact ⟨hs, hh.goto _⟩
    · cases url <;> exact ⟨hs, hh.goto _⟩
  | getRecentClicks url =>
    rw [getStats, getStats, hs.db]
    generalize choice.query _ = result
    rcases result with error | recent <;> exact ⟨hs, hh.goto _⟩
  | getTopReferrers url recent =>
    rw [getStats, getStats, hs.db]
    generalize choice.query _ = result
    rcases result with error | topReferrers <;> exact ⟨hs, hh.goto _⟩

/-- The body of a handler has not been rejected. -/
theorem Handler.not_rejected_body (h : Handler) (call : Call) : ¬ (h.goto call.body).Rejected := by
  rintro ⟨result, hphase | hphase⟩
  · have hbody := inBody_body call
    rw [show call.body = _ from hphase] at hbody
    cases hbody
  · have hbody := inBody_body call
    rw [show call.body = _ from hphase] at hbody
    cases hbody

theorem Handler.rejected_tooManyRequests (h : Handler) (result : RateLimitResult) :
    (h.goto (.respond (tooManyRequests result))).Rejected := ⟨result, Or.inl rfl⟩

/-- A check of twins, if the decision is the same. -/
theorem rateLimit_related (hs : shared.Related shared') (hh : h.Related app h')
    (routeClass : RouteClass) (nowMs : ℤ)
    (hdecision : (rateLimit app choice shared' h' routeClass nowMs).2.Rejected ↔
      (rateLimit app choice shared h routeClass nowMs).2.Rejected) :
    StepRelated app (rateLimit app choice shared h routeClass nowMs)
      (rateLimit app choice shared' h' routeClass nowMs) := by
  have hs' : Shared.Related
      (shared.redisCall (RateLimiter.check app.settings shared.redisTime nowMs choice.fault
        h.clientId routeClass)).2
      (shared'.redisCall (RateLimiter.check app.settings shared'.redisTime nowMs choice.fault
        h'.clientId routeClass)).2 :=
    hs.bucketCall (fun shortCode => UrlCache.key_ne_rateLimiterKey shortCode _ _)
      fun shortCode => UrlCache.key_ne_rateLimiterKey shortCode _ _
  unfold rateLimit at hdecision ⊢
  dsimp only at hdecision ⊢
  rw [hh.twins.call] at hdecision ⊢
  split at hdecision
  · rename_i hallowed'
    rw [if_pos hallowed']
    split at hdecision
    · rename_i hallowed
      rw [if_pos hallowed]
      exact ⟨hs', hh.goto _⟩
    · exact absurd (hdecision.mpr (h.rejected_tooManyRequests _)) (h'.not_rejected_body _)
  · rename_i hallowed'
    rw [if_neg hallowed']
    split at hdecision
    · exact absurd (hdecision.mp (h'.rejected_tooManyRequests _)) (h.not_rejected_body _)
    · rename_i hallowed
      rw [if_neg hallowed]
      exact ⟨hs'.record _ _, hh.twins, hh.hidden, .respond _ _, hh.decision, hh.task⟩

/-- The middleware lets both twins pass, or neither. -/
theorem observabilityEntry_related (hs : shared.Related shared') (hh : h.Related app h') :
    StepRelated app (observabilityEntry app shared h) (observabilityEntry app shared' h') := by
  unfold observabilityEntry
  rw [hh.twins.scope, hh.twins.call, hs.clock]
  cases app.urlPath h.request.scope with
  | none => exact ⟨hs, hh.goto _⟩
  | some path => exact ⟨hs, hh.goto _⟩

/-- **A step of twins keeps everything but the buckets the same.** -/
theorem advance_related (hs : shared.Related shared') (hh : h.Related app h')
    (hcons : h.Consistent app) (hentered : h.Entered app)
    (hdecision : (advance app i choice shared' h').2.Rejected ↔
      (advance app i choice shared h).2.Rejected) :
    StepRelated app (advance app i choice shared h) (advance app i choice shared' h') := by
  have hphase := hh.phase
  unfold Handler.Consistent at hcons
  unfold advance at hdecision ⊢
  generalize hp : h.phase = phase at hphase hcons hdecision ⊢
  generalize hp' : h'.phase = phase' at hphase hdecision ⊢
  cases hphase with
  | respond result result' =>
    exact ⟨hs, hh.twins, hh.hidden, .done _ _, hh.decision, hh.task⟩
  | done result result' => exact ⟨hs, hh⟩
  | same phase =>
    cases phase with
    | middleware => exact observabilityEntry_related hs hh
    | checkScript routeClass nowMs => exact rateLimit_related hs hh routeClass nowMs hdecision
    | createUrl payload point =>
      refine createUrl_related hs hh hcons.1 (hentered.resolve_right ?_) point
      rw [hp]
      rintro (hphase | hresponse)
      · cases hphase
      · cases hresponse
    | redirect shortCode point => exact redirect_related hs hh shortCode point
    | getStats shortCode point => exact getStats_related hs hh shortCode point
    | commit response =>
      dsimp only
      split
      · refine ⟨hs, hh.twins, hh.hidden, .same _, hh.decision, ?_⟩
        dsimp only
        rw [hh.task]
      · rw [hs.db]
        exact ⟨hs.setDb _, hh.goto _⟩
    | rollback response =>
      dsimp only
      rw [hs.db]
      exact ⟨hs.setDb _, hh.goto _⟩
    | respond response => exact ⟨hs, hh.goto _⟩
    | done response => exact ⟨hs, hh⟩

theorem failRecording_related (hs : shared.Related shared') (hh : h.Related app h')
    (click : Repository.ClickArgs) :
    StepRelated app (failRecording i shared h click) (failRecording i shared' h' click) := by
  rw [failRecording, failRecording, hs.db]
  exact ⟨hs.setDb _, hh.setTask _⟩

/-- The tasks of twins take the same steps once the responses are sent, whatever these say. -/
theorem recordClick_related_of_done (hs : shared.Related shared') (hh : h.Related app h')
    {response response' : Response} (hdone : h.phase = .done response)
    (hdone' : h'.phase = .done response') :
    StepRelated app (recordClick i choice shared h) (recordClick i choice shared' h') := by
  obtain ⟨request, phase, decision, task⟩ := h
  obtain ⟨request', phase', decision', task'⟩ := h'
  obtain rfl : phase = .done response := hdone
  obtain rfl : phase' = .done response' := hdone'
  obtain rfl : task' = task := hh.task
  rw [recordClick, recordClick, hs.db]
  cases task' with
  | scheduled click =>
    dsimp only
    generalize choice.statement (Repository.bumpClickCount (.background i) click shared.db) = reply
    rcases reply with error | - | ⟨-, db⟩
    · exact failRecording_related hs hh click
    · exact ⟨hs, hh⟩
    · exact ⟨hs.setDb db, hh.setTask _⟩
  | updated click =>
    dsimp only
    generalize choice.statement (Repository.insertClickEvent (.background i) click choice.serverNow
      choice.idGap shared.db) = reply
    rcases reply with error | - | ⟨event, db⟩
    · exact failRecording_related hs hh click
    · exact ⟨hs, hh⟩
    · exact ⟨hs.setDb db, hh.setTask _⟩
  | inserted click =>
    dsimp only
    cases choice.dbFails with
    | true => exact failRecording_related hs hh click
    | false => exact ⟨hs.setDb _, hh.setTask _⟩
  | none | recorded click | failed click => exact ⟨hs, hh⟩

/-- Before its response is sent a request records nothing. -/
theorem recordClick_of_not_done (hdone : ∀ response, h.phase ≠ .done response) :
    recordClick i choice shared h = (shared, h) := by
  unfold recordClick
  split
  · rename_i hphase _
    exact absurd hphase (hdone _)
  · rename_i hphase _
    exact absurd hphase (hdone _)
  · rename_i hphase _
    exact absurd hphase (hdone _)
  · rfl

/-- **A step of the tasks of twins keeps everything the same.** -/
theorem recordClick_related (hs : shared.Related shared') (hh : h.Related app h') :
    StepRelated app (recordClick i choice shared h) (recordClick i choice shared' h') := by
  by_cases hdone : ∃ response, h.phase = .done response
  · obtain ⟨response, hdone⟩ := hdone
    have hphase := hh.phase
    rw [hdone] at hphase
    generalize hp' : h'.phase = phase' at hphase
    cases hphase with
    | same => exact recordClick_related_of_done hs hh hdone hp'
    | done result result' => exact recordClick_related_of_done hs hh hdone hp'
  · have hdone' : ¬ ∃ response, h'.phase = .done response := by
      rintro ⟨response', hdone'⟩
      have hphase := hh.phase
      rw [hdone'] at hphase
      generalize hp : h.phase = phase at hphase
      cases hphase with
      | same => exact hdone ⟨_, hp⟩
      | done result result' => exact hdone ⟨_, hp⟩
    rw [recordClick_of_not_done (not_exists.mp hdone),
      recordClick_of_not_done (not_exists.mp hdone')]
    exact ⟨hs, hh⟩

end Step

/-! ## Runs of twins -/

/-- **Twins that do not reveal themselves leave the same tables**, at every instant. -/
theorem App.sameTables_of_hidden (app : App) {es es' : List Event}
    (hes : List.Forall₂ (Interleaving.Event.Alike fun request request' =>
      Twins app request request' ∧ ¬ Reveals app request request') es es')
    (hdecisions : SameDecisions app es es') (n : ℕ) :
    SameTables (app.stateAt es n).shared.db (app.stateAt es' n).shared.db := by
  have hrelated := app.system.related_stateAt (R := Shared.Related)
    (P := fun h h' => h.Related app h' ∧ h.Consistent app ∧ h.Entered app)
    (D := fun h h' => h'.Rejected ↔ h.Rejected) hes .initial hdecisions ?_ ?_
    (fun e _ _ hs => hs.env e) n
  · have hdb : (app.stateAt es' n).shared.db = (app.stateAt es n).shared.db := hrelated.shared.db
    rw [SameTables, hdb]
    exact ⟨rfl, rfl⟩
  · rintro request request' ⟨htwins, hhidden⟩
    exact ⟨⟨htwins, hhidden, .same _, rfl, rfl⟩, trivial, Or.inr (Or.inl rfl)⟩
  · rintro i action shared shared' h h' hs ⟨hh, hcons, hentered⟩ hdecision
    have hstep : StepRelated app (act app i action shared h) (act app i action shared' h') := by
      cases action with
      | advance choice => exact advance_related hs hh hcons hentered hdecision
      | background choice => exact recordClick_related hs hh
    exact ⟨hstep.1, hstep.2, consistent_act i action shared hcons, hentered.act i action shared⟩

/-- A rejection is for good. -/
theorem Handler.Rejected.act {h : Handler} (hrejected : h.Rejected) (app : App) (i : ℕ)
    (action : Action) (shared : Shared) : (act app i action shared h).2.Rejected := by
  obtain ⟨result, hphase⟩ := hrejected
  refine ⟨result, ?_⟩
  cases action with
  | advance choice =>
    refine Or.inr ?_
    show (advance app i choice shared h).2.phase = _
    unfold advance
    rcases hphase with hphase | hphase
    · rw [hphase]
      rfl
    · rw [hphase]
      exact hphase
  | background choice =>
    have hsame := (recordClick_moves i choice shared h).same.2.1
    show (recordClick i choice shared h).2.phase = _ ∨ (recordClick i choice shared h).2.phase = _
    rw [hsame]
    exact hphase

/-- What is not rejected at the end has never been. -/
theorem App.not_rejected_stateAt (app : App) {es : List Event}
    (hend : ∀ (i : ℕ) (h : Handler), (app.run es).procs[i]? = some h → ¬ h.Rejected) {n i : ℕ}
    {h : Handler} (hi : (app.stateAt es n).procs[i]? = some h) : ¬ h.Rejected := by
  intro hrejected
  obtain ⟨h', hi', hrejected'⟩ := app.system.persists (K := Handler.Rejected)
    (fun es i action h _ hrejected => hrejected.act app i action (app.run es).shared) es
    (Nat.le_max_left n es.length) hi hrejected
  rw [List.take_of_length_le (Nat.le_max_right n es.length)] at hi'
  exact hend i h' hi' hrejected'

theorem App.sameDecisions_of_not_rejected (app : App) {es es' : List Event}
    (hend : ∀ (i : ℕ) (h : Handler), (app.run es).procs[i]? = some h → ¬ h.Rejected)
    (hend' : ∀ (i : ℕ) (h : Handler), (app.run es').procs[i]? = some h → ¬ h.Rejected) :
    SameDecisions app es es' := fun _ _ _ _ hi hi' =>
  iff_of_false (app.not_rejected_stateAt hend' hi') (app.not_rejected_stateAt hend hi)

/-! ## Twins that reveal themselves -/

theorem EndsAlone.not_rejected {shortCode : String} {shared : Shared} {h : Handler}
    (hend : EndsAlone shortCode shared h) : ¬ h.Rejected := by
  rintro ⟨result, hphase⟩
  cases hend with
  | created url body hclient hurls hurl hcode hphase' =>
    rcases hphase with hphase | hphase <;> rw [hphase'] at hphase <;> cases hphase
  | refused hclient hurls hphase' =>
    rcases hphase with hphase | hphase <;> rw [hphase'] at hphase <;> cases hphase

/-- **Creation tells twins apart.**  Alone on an empty database, each of the two leaves a row that
names it, or no row at all. -/
theorem App.exists_reveals (app : App) {request request' : Request}
    (htwins : Twins app request request') (hreveals : Reveals app request request') :
    ∃ choices : List Choice,
      SameDecisions app (soloRun request choices) (soloRun request' choices) ∧
        ¬ SameTables (app.run (soloRun request choices)).shared.db
          (app.run (soloRun request' choices)).shared.db := by
  obtain ⟨⟨payload, hpayload⟩, hurl, hclient, hstorable⟩ := hreveals
  have hurl' : request'.hasUrl app = true := by
    rw [Request.hasUrl, htwins.scope]
    exact hurl
  obtain ⟨shortCode, hallows⟩ := payload.exists_allows app
  obtain ⟨choices, -, hrun⟩ := reachesAlone_done hallows
  obtain ⟨shared, h, hworld, rfl, hend⟩ := hrun request hpayload hurl
  obtain ⟨shared', h', hworld', rfl, hend'⟩ := hrun request' (htwins.call.trans hpayload) hurl'
  have hsingle : ∀ {shared : Shared} {h : Handler}, EndsAlone shortCode shared h →
      ∀ (i : ℕ) (k : Handler), [h][i]? = some k → ¬ k.Rejected := by
    intro shared h hend i k hk
    obtain rfl := List.mem_singleton.mp (List.mem_of_getElem? hk)
    exact hend.not_rejected
  refine ⟨choices, app.sameDecisions_of_not_rejected ?_ ?_, ?_⟩
  · rw [hworld]
    exact hsingle hend
  · rw [hworld']
    exact hsingle hend'
  · rw [hworld, hworld']
    rintro ⟨hurls, -⟩
    cases hend with
    | created url body hc hrows hurl =>
      cases hend' with
      | created url' body' hc' hrows' hurl' =>
        rw [hrows, hrows', List.cons.injEq] at hurls
        rw [hurls.1, hurl] at hurl'
        exact hclient (Option.some.inj hurl').symm
      | refused hc' hrows' =>
        rw [hrows, hrows'] at hurls
        cases hurls
    | refused hc hrows =>
      cases hend' with
      | created url' body' hc' hrows' hurl' =>
        rw [hrows, hrows'] at hurls
        cases hurls
      | refused hc' hrows' =>
        rcases hstorable with hstorable | hstorable
        · cases hc.symm.trans hstorable
        · cases hc'.symm.trans hstorable

/-! ## The exact condition -/

/-- **When the tables depend on the hashes only.**  Let `q` say which twins may stand at the same
place of two runs.  All such runs in which the rate limiter decides the same leave the same tables,
if and only if none of these twins reveal themselves by creating a link. -/
theorem App.sameTables_iff (app : App) (q : Request → Request → Prop) :
    (∀ es es' : List Event, List.Forall₂ (Interleaving.Event.Alike fun request request' =>
        Twins app request request' ∧ q request request') es es' →
      SameDecisions app es es' → SameTables (app.run es).shared.db (app.run es').shared.db) ↔
    ∀ request request', Twins app request request' → q request request' →
      ¬ Reveals app request request' := by
  constructor
  · intro hsame request request' htwins hq hreveals
    obtain ⟨choices, hdecisions, htables⟩ := app.exists_reveals htwins hreveals
    refine htables (hsame _ _ (.cons (.arrive _ _ ⟨htwins, hq⟩) ?_) hdecisions)
    rw [List.forall₂_same]
    intro e he
    obtain ⟨choice, -, rfl⟩ := List.mem_map.mp he
    exact .act 0 (Action.advance choice)
  · intro hhidden es es' hes hdecisions
    rw [← app.stateAt_length, ← app.stateAt_length, ← hes.length_eq]
    refine app.sameTables_of_hidden (hes.imp fun e e' halike => ?_) hdecisions es.length
    cases halike with
    | arrive request request' hq => exact .arrive _ _ ⟨hq.1, hhidden _ _ hq.1 hq.2⟩
    | act i action => exact .act i action
    | env e => exact .env e

/-- The run of a creation by the client at an address. -/
def createFrom (address : String) : List Event :=
  admitted 0 { (Call.createUrl abcdRequest).plain with clientHost := some address } ++
    steps 0 4 .calm

/-- Two addresses with one digest leave two rows that differ. -/
theorem not_sameTables_createFrom :
    ¬ ∀ es es' : List Event, List.Forall₂ (Interleaving.Event.Alike (Twins App.sample)) es es' →
      SameDecisions App.sample es es' →
        SameTables (App.sample.run es).shared.db (App.sample.run es').shared.db := by
  intro hsame
  have halike : List.Forall₂ (Interleaving.Event.Alike (Twins App.sample))
      (createFrom "10.0.0.1") (createFrom "10.0.0.2") := by
    unfold createFrom admitted
    rw [List.cons_append, List.cons_append]
    refine .cons (.arrive _ _ ⟨rfl, rfl, rfl, rfl, rfl⟩) ?_
    rw [List.forall₂_same]
    intro e he
    rw [steps, steps, List.mem_append, List.mem_replicate, List.mem_replicate] at he
    rcases he with ⟨-, rfl⟩ | ⟨-, rfl⟩
    · exact .act 0 _
    · exact .act 0 _
  have hend : ∀ (i : ℕ) (h : Handler),
      (App.sample.run (createFrom "10.0.0.1")).procs[i]? = some h → ¬ h.Rejected := by
    intro i h hi
    cases i with
    | zero =>
      obtain rfl := Option.some.inj hi
      rintro ⟨result, hphase | hphase⟩ <;> cases hphase
    | succ i => cases hi
  have hend' : ∀ (i : ℕ) (h : Handler),
      (App.sample.run (createFrom "10.0.0.2")).procs[i]? = some h → ¬ h.Rejected := by
    intro i h hi
    cases i with
    | zero =>
      obtain rfl := Option.some.inj hi
      rintro ⟨result, hphase | hphase⟩ <;> cases hphase
    | succ i => cases hi
  obtain ⟨hurls, -⟩ := hsame _ _ halike (App.sample.sameDecisions_of_not_rejected hend hend')
  have hclients : [some "10.0.0.2"] = [some "10.0.0.1"] := congrArg (List.map Url.clientId) hurls
  exact absurd hclients (by decide)

end UrlShortener
