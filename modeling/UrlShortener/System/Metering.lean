import UrlShortener.Api.Observability
import UrlShortener.System.AuditTrail
import UrlShortener.System.Clicks
import UrlShortener.System.Ledger
import UrlShortener.System.Solo

/-!
# The books agree

What becomes of a redirect is written down in three places: the handlers count outcomes, the
middleware observes the status that is sent, and the click goes to the database.  The three are
written at different moments by code that knows nothing of each other.

## What is proved

* `App.success_run`: the successes on the books are the requests that have decided on a redirect,
  whatever fails.  Together with the click accounts this is a statement about the database.
* `App.counter_run`: while the database answers, an outcome counter counts the requests whose
  response is settled with a status.
* `App.books_agree`: so the counters are what the middleware has observed, and what is in flight.
  Its histogram also holds the requests that reach none of the three endpoints, and those of them
  whose URL is spelled like the redirect route are the one entry the counters know nothing of.
-/

set_option autoImplicit false

namespace UrlShortener

/-! ## Steps that settle a status -/

section Step

variable {app : App} {i : ℕ} {choice : Choice} {shared : Shared} {h : Handler}

/-- What a settled response is counted as. -/
theorem outcome_of_settled {response : Response}
    (hsettled : settled app i choice shared h = some response) :
    (response.status = 302 ∧ outcome app i choice shared h = some (.redirected .success)) ∨
      (response.status = 404 ∧ (outcome app i choice shared h = none ∨
        outcome app i choice shared h = some (.redirected .notFound) ∨
        outcome app i choice shared h = some (.redirected .expired))) ∨
      (response.status = 429 ∧
        outcome app i choice shared h = h.request.call.routeClass?.map .rejected) ∨
      (response.status ∉ [302, 404, 429] ∧ outcome app i choice shared h = none) := by
  rw [outcome, hsettled, Option.bind_some]
  split
  · rename_i hstatus
    exact Or.inl ⟨hstatus, rfl⟩
  · rename_i hstatus
    refine Or.inr (Or.inl ⟨hstatus, ?_⟩)
    rcases h.phase.rowRead? with _ | _ | url
    · exact Or.inl rfl
    · exact Or.inr (Or.inl rfl)
    · rw [Option.bind_some]
      dsimp only
      split
      · exact Or.inr (Or.inr rfl)
      · exact Or.inl rfl
  · rename_i hstatus
    exact Or.inr (Or.inr (Or.inl ⟨hstatus, rfl⟩))
  · rename_i hfound hmissing hrejected
    exact Or.inr (Or.inr (Or.inr ⟨by simp_all, rfl⟩))

theorem decides_success : decides app (.redirected .success) i choice shared h =
    settlesWith app 302 i choice shared h := by
  unfold decides settlesWith
  cases hsettled : settled app i choice shared h with
  | none => simp [outcome_of_settled_none hsettled]
  | some response =>
    rcases outcome_of_settled hsettled with ⟨hstatus, houtcome⟩ |
      ⟨hstatus, houtcome | houtcome | houtcome⟩ | ⟨hstatus, houtcome⟩ | ⟨hstatus, houtcome⟩ <;>
      simp_all

theorem decides_rejected (routeClass : RouteClass) :
    decides app (.rejected routeClass) i choice shared h =
      (settlesWith app 429 i choice shared h &&
        decide (h.request.call.routeClass? = some routeClass)) := by
  unfold decides settlesWith
  cases hsettled : settled app i choice shared h with
  | none => simp [outcome_of_settled_none hsettled]
  | some response =>
    rcases outcome_of_settled hsettled with ⟨hstatus, houtcome⟩ |
      ⟨hstatus, houtcome | houtcome | houtcome⟩ | ⟨hstatus, houtcome⟩ | ⟨hstatus, houtcome⟩ <;>
      simp_all

/-- **A redirect that is not found** is counted once, as missing or as expired. -/
theorem count_missing (hcons : h.Consistent app) :
    (if decides app (.redirected .notFound) i choice shared h then 1 else 0) +
        (if decides app (.redirected .expired) i choice shared h then 1 else 0) =
      if settlesWith app 404 i choice shared h &&
        decide (h.request.call.routeClass? = some .redirect) then 1 else 0 := by
  unfold decides settlesWith
  cases hsettled : settled app i choice shared h with
  | none => simp [outcome_of_settled_none hsettled]
  | some response =>
    rcases outcome_of_settled hsettled with ⟨hstatus, houtcome⟩ | ⟨hstatus, -⟩ |
      ⟨hstatus, houtcome⟩ | ⟨hstatus, houtcome⟩
    · simp [houtcome, hstatus]
    · unfold Handler.Consistent at hcons
      have hsettles := settles_of_settled hsettled
      rw [outcome, hsettled, Option.bind_some, hstatus]
      cases hsettles with
      | unreadable => cases hstatus
      | rejected => cases hstatus
      | create _ _ _ _ hother => simp [hstatus] at hother
      | found => cases hstatus
      | selectFails => cases hstatus
      | notFound shortCode hphase =>
        rw [hphase] at hcons
        rw [show h.request.call = .redirect shortCode from hcons, hphase]
        simp [Phase.rowRead?, Call.routeClass?]
      | expired shortCode url hphase hexpired =>
        rw [hphase] at hcons
        rw [show h.request.call = .redirect shortCode from hcons, hphase]
        simp [Phase.rowRead?, Call.routeClass?, hexpired]
      | stats shortCode point _ hphase =>
        rw [hphase] at hcons
        rw [show h.request.call = .getStats shortCode from hcons, hphase]
        simp [Phase.rowRead?, Call.routeClass?]
    · cases hclass : h.request.call.routeClass? <;> simp [houtcome, hstatus, hclass]
    · simp_all

/-- Only a redirect is answered with a `302`. -/
theorem settlesWith_found (hcons : h.Consistent app) :
    settlesWith app 302 i choice shared h =
      (settlesWith app 302 i choice shared h &&
        decide (h.request.call.routeClass? = some .redirect)) := by
  unfold settlesWith
  cases hsettled : settled app i choice shared h with
  | none => rfl
  | some response =>
    rw [Option.any_some]
    by_cases hstatus : response.status = 302
    · unfold Handler.Consistent at hcons
      cases settles_of_settled hsettled with
      | unreadable => cases hstatus
      | rejected => cases hstatus
      | create _ _ _ _ hother => simp [hstatus] at hother
      | found shortCode longUrl point hphase =>
        rw [hphase] at hcons
        rw [show h.request.call = .redirect shortCode from hcons]
        rfl
      | selectFails => cases hstatus
      | notFound => cases hstatus
      | expired => cases hstatus
      | stats _ _ _ _ hother => simp [hstatus] at hother
    · simp [hstatus]

end Step

/-! ## Requests whose response is settled -/

/-- A request of a rate-limited endpoint whose response is settled with a status. -/
def Handler.answered (routeClass : RouteClass) (status : ℕ) (h : Handler) : Bool :=
  h.phase.response?.any (fun response => response.status = status) &&
    decide (h.request.call.routeClass? = some routeClass)

theorem answered_advance {app : App} {i : ℕ} {choice : Choice} {shared : Shared} {h : Handler}
    (hanswers : choice.dbFails = false) (routeClass : RouteClass) (status : ℕ) :
    (if (advance app i choice shared h).2.answered routeClass status then 1 else 0) =
      (if h.answered routeClass status then 1 else 0) +
        if settlesWith app status i choice shared h &&
          decide (h.request.call.routeClass? = some routeClass) then 1 else 0 := by
  unfold Handler.answered settlesWith
  rw [(advance_moves app i choice shared h).request]
  cases hopen : h.phase.response? with
  | some response =>
    rw [response?_advance hanswers hopen, settled_eq_none (by rw [hopen]; rfl)]
    simp
  | none =>
    rw [settled_eq hopen]
    simp

/-! ## The books of the handlers -/

/-- What an action adds to a counter of outcomes. -/
theorem App.act_outcome (app : App) {es : List Event} {i : ℕ} {h : Handler}
    (hi : (app.run es).procs[i]? = some h) (action : Action) (o : Outcome) :
    (act app i action (app.run es).shared h).1.metrics o.entry =
      (app.run es).shared.metrics o.entry +
        onAdvance (fun i choice shared h => if decides app o i choice shared h then 1 else 0) i
          action (app.run es).shared h := by
  rw [act_metrics (app.checksOwnClass_run es hi)]
  simp only [count_outcome]

/-- **The successes are the decisions**, whatever fails. -/
theorem App.success_run (app : App) (es : List Event) :
    (app.run es).shared.metrics (.redirectTotal .success) =
      (app.run es).procs.countP fun h => h.decision.isSome := by
  refine app.system.counts (μ := fun shared => shared.metrics (.redirectTotal .success))
    (Q := fun _ => True) rfl (fun _ => rfl) (fun e shared => ?_) (fun es i action h _ hi => ?_) es
    fun _ _ => trivial
  · cases e <;> rfl
  · have hcounter := app.act_outcome hi action (.redirected .success)
    change _ + _ = _ + if (act app i action (app.run es).shared h).2.decision.isSome then 1 else 0
    refine (congrArg (· + _) hcounter).trans ?_
    cases action with
    | advance choice =>
      show (_ + if decides app (.redirected .success) i choice (app.run es).shared h then 1 else 0)
        + _ = _ + if (advance app i choice (app.run es).shared h).2.decision.isSome then 1 else 0
      rw [decides_success]
      rcases decision_advance (app.consistent_run es hi) (app.accounted_run es hi).decision_eq_none
        with ⟨hsettles, hdecision⟩ | ⟨hsettles, hbefore, shortCode, -, hafter⟩
      · rw [hsettles, hdecision]
        rfl
      · rw [hsettles, hbefore, hafter]
        rfl
    | background choice =>
      rw [show (act app i (.background choice) (app.run es).shared h).2.decision = h.decision from
        (recordClick_moves i choice (app.run es).shared h).same.2.2]
      rfl

/-- The outcomes that stand for a status on the routes of a bucket class. -/
def CountedAs (app : App) (routeClass : RouteClass) (status : ℕ) (outcomes : List Outcome) : Prop :=
  ∀ i choice shared h, h.Consistent app →
    (outcomes.map fun o => if decides app o i choice shared h then 1 else 0).sum =
      if settlesWith app status i choice shared h &&
        decide (h.request.call.routeClass? = some routeClass) then 1 else 0

/-- **The counters of outcomes count responses**, while the database answers. -/
theorem App.counter_run (app : App) {routeClass : RouteClass} {status : ℕ}
    {outcomes : List Outcome} (hcounted : CountedAs app routeClass status outcomes)
    (es : List Event) (hes : ∀ e ∈ es, DatabaseAnswers e) :
    (outcomes.map fun o => (app.run es).shared.metrics o.entry).sum =
      (app.run es).procs.countP (Handler.answered routeClass status) := by
  refine app.system.counts
    (μ := fun shared => (outcomes.map fun o => shared.metrics o.entry).sum) (Q := DatabaseAnswers)
    ?_ (fun request => ?_) (fun e shared => ?_) (fun es i action h hanswers hi => ?_) es hes
  · show (outcomes.map fun _ => 0).sum = 0
    simp
  · rfl
  · cases e <;> rfl
  · change (outcomes.map fun o => (act app i action (app.run es).shared h).1.metrics o.entry).sum +
      _ = (outcomes.map fun o => (app.run es).shared.metrics o.entry).sum +
        if (act app i action (app.run es).shared h).2.answered routeClass status then 1 else 0
    simp only [app.act_outcome hi action, List.sum_map_add]
    cases action with
    | advance choice =>
      have hstep := hcounted i choice (app.run es).shared h (app.consistent_run es hi)
      have hanswered := @answered_advance app i choice (app.run es).shared h hanswers routeClass
        status
      show _ + (outcomes.map fun o => if decides app o i choice (app.run es).shared h then 1
        else 0).sum + _ = _ + if (advance app i choice (app.run es).shared h).2.answered _ _ then 1
          else 0
      rw [hstep, hanswered]
      omega
    | background choice =>
      obtain ⟨hrequest, hphase, -⟩ := (recordClick_moves i choice (app.run es).shared h).same
      have hsame : (act app i (.background choice) (app.run es).shared h).2.answered routeClass
          status = h.answered routeClass status := by
        show (recordClick i choice (app.run es).shared h).2.answered _ _ = _
        rw [Handler.answered, Handler.answered, hrequest, hphase]
      rw [hsame]
      simp [onAdvance]

/-- The tasks that have recorded a click are the events. -/
theorem App.recordings_run (app : App) (es : List Event) :
    (app.run es).shared.db.clickEvents.length =
      (app.run es).procs.countP fun h => h.task.isRecorded := by
  refine app.system.counts (μ := fun shared => shared.db.clickEvents.length) (Q := fun _ => True)
    rfl (fun _ => rfl) (fun e shared => ?_) (fun es i action h _ hi => ?_) es fun _ _ => trivial
  · exact congrArg (fun db => db.clickEvents.length) (Env.apply_db shared e)
  · have hrecorded : ∀ h : Handler, h.task.isRecorded = h.recordedClick.isSome := by
      intro h
      unfold Handler.recordedClick
      cases h.task <;> rfl
    change (act app i action (app.run es).shared h).1.db.clickEvents.length + _ =
      (app.run es).shared.db.clickEvents.length +
        if (act app i action (app.run es).shared h).2.task.isRecorded then 1 else 0
    rw [hrecorded, hrecorded]
    rcases app.recordedClick_act hi action with ⟨hevents, hsame⟩ | ⟨click, hnone, hsome, hevents⟩
    · rw [hsame]
      simpa using congrArg List.length hevents
    · rw [hnone, hsome]
      simpa using congrArg List.length hevents

/-- A request that has decided has one task: it is recorded, pending or failed. -/
theorem Handler.Accounted.isSome_decision {i : ℕ} {db : Database} {h : Handler}
    (hacc : h.Accounted i db) :
    (if h.decision.isSome then 1 else 0) =
      ((if h.task.isRecorded then 1 else 0) + (if h.task.isPending then 1 else 0)) +
        if h.task.isFailed then 1 else 0 := by
  rw [← hacc.click, Option.isSome_map]
  cases h.task <;> rfl

/-- **The successes are the clicks**: those on record, those on their way, and those lost. -/
theorem App.successes_run (app : App) (es : List Event) :
    (app.run es).shared.metrics (.redirectTotal .success) =
      (app.run es).shared.db.clickEvents.length +
        (app.run es).procs.countP (fun h => h.task.isPending) +
        (app.run es).procs.countP (fun h => h.task.isFailed) := by
  rw [app.success_run, app.recordings_run]
  apply countP_eq_add
  intro h hmem
  obtain ⟨i, hi⟩ := List.mem_iff_getElem?.mp hmem
  exact (app.accounted_run es hi).isSome_decision

theorem countedAs_success (app : App) : CountedAs app .redirect 302 [.redirected .success] := by
  intro i choice shared h hcons
  rw [← settlesWith_found hcons, List.map_singleton, List.sum_singleton, decides_success]

theorem countedAs_missing (app : App) :
    CountedAs app .redirect 404 [.redirected .notFound, .redirected .expired] := by
  intro i choice shared h hcons
  rw [← count_missing hcons]
  simp

theorem countedAs_rejected (app : App) (routeClass : RouteClass) :
    CountedAs app routeClass 429 [.rejected routeClass] := by
  intro i choice shared h _
  rw [← decides_rejected, List.map_singleton, List.sum_singleton]

/-! ## The books of the middleware -/

/-- The endpoint of a call. -/
def Call.endpoint : Call → Endpoint
  | .createUrl _ => .createUrl
  | .redirect _ => .redirect
  | .getStats _ => .getStats

/-- The path parameter of a call. -/
def Call.pathParam : Call → Option String
  | .createUrl _ => none
  | .redirect shortCode | .getStats shortCode => some shortCode

/-- The response of a request that is finished. -/
def Handler.sent? (h : Handler) : Option Response :=
  match h.phase with
  | .done response => some response
  | _ => none

/-- What comes up from below: an exception that nothing handles, or a status. -/
def Response.fromBelow : Response → Option ℕ
  | .internalServerError => none
  | response => some response.status

/-- A finished request as the middleware sees it.  Its path is any that leads to the call. -/
structure Exchange.IsOf (x : Exchange) (h : Handler) : Prop where
  scope : x.scope = h.request.scope
  dispatched : dispatch createApp x.method x.scope.path =
    .handle h.request.call.endpoint h.request.call.pathParam
  response : ∃ response, h.sent? = some response ∧ x.response = response.fromBelow

/-- The statuses of a request that reaches none of the three endpoints, by where it is dispatched
to. -/
def Dispatch.statuses : Dispatch → List ℕ
  | .handle .createUrl _ | .handle .getStats _ | .handle .redirect _ => []
  | .handle .ready _ => [200, 503]
  | .handle _ _ => [200]
  | .methodNotAllowed _ => [405]
  | .redirectSlashes => [307]
  | .notFound => [404]

theorem Dispatch.mem_of_mem_statuses {d : Dispatch} {status : ℕ} (h : status ∈ d.statuses) :
    status ∈ [200, 307, 404, 405, 503] := by
  cases d with
  | handle endpoint pathParam =>
    cases endpoint <;> simp only [statuses, List.mem_cons, List.not_mem_nil, or_false] at h ⊢ <;>
      omega
  | methodNotAllowed | redirectSlashes | notFound => simp_all [statuses]

/-- A request that reaches none of the three endpoints, as the middleware sees it. -/
structure Exchange.IsOther (x : Exchange) : Prop where
  dispatched : ∀ (call : Call) (pathParam : Option String),
    dispatch createApp x.method x.scope.path ≠ .handle call.endpoint pathParam
  response : ∀ status, x.response = some status →
    status ∈ (dispatch createApp x.method x.scope.path).statuses

/-- The series of the latency histogram for a status on the routes of a bucket class. -/
def RouteClass.series (status : ℕ) : RouteClass → RequestSeries
  | .redirect => ⟨"/{short_code}", "GET", toString status⟩
  | .create => ⟨"/api/urls", "POST", toString status⟩

theorem series_status (routeClass : RouteClass) (status : ℕ) :
    (routeClass.series status).status = toString status := by cases routeClass <;> rfl

/-- The statuses of all responses. -/
def statuses : List ℕ := [200, 201, 302, 307, 404, 405, 409, 429, 500, 503]

theorem Call.Answers.status_mem {app : App} {call : Call} {response : Response}
    (h : call.Answers app response) : response.status ∈ statuses := by
  cases h <;> simp [statuses]

theorem statuses_toString : ∀ s ∈ statuses, ∀ t ∈ statuses, toString s = toString t → s = t := by
  decide +kernel

/-- The routes of the API, as they are registered. -/
theorem createApp_routes : ∀ r ∈ createApp,
    (r.endpoint = .createUrl → r.path.text = "/api/urls" ∧ r.methods = ["POST"]) ∧
      (r.endpoint = .redirect → r.path.text = "/{short_code}" ∧ r.methods = ["GET"]) ∧
      (r.endpoint = .getStats → r.path.text = "/api/urls/{short_code}/stats") := by
  decide

/-- The series of a finished request, if its URL can be read. -/
theorem Exchange.IsOf.observed (app : App) {x : Exchange} {h : Handler} (hx : x.IsOf h) :
    ∃ r ∈ createApp, r.endpoint = h.request.call.endpoint ∧ x.method ∈ r.methods ∧
      ∃ response, h.phase.response? = some response ∧
        observabilityMiddleware app x = (app.urlPath h.request.scope).map fun _ =>
          ⟨r.path.text, x.method, toString response.status⟩ := by
  obtain ⟨r, hr, hendpoint, hmethod, hmatched⟩ := matchedRoute_of_handle hx.dispatched
  obtain ⟨response, hsent, hresponse⟩ := hx.response
  refine ⟨r, hr, hendpoint, hmethod, response, ?_, ?_⟩
  · unfold Handler.sent? at hsent
    split at hsent
    · rename_i hphase
      rw [hphase]
      exact hsent
    · cases hsent
  · have hapi : r.endpoint.isApiRoute = true := by
      rw [hendpoint]
      cases h.request.call <;> rfl
    have hroute : scopeRoute createApp x.method x.scope.path = some r := by
      rw [scopeRoute, hmatched, Option.filter_some, if_pos hapi]
    rw [observabilityMiddleware, routeLabel, hroute, Option.map_map, hx.scope, hresponse]
    cases response <;> rfl

/-- **The middleware observes a request in the series of its status.**  One whose URL cannot be
read ends in a `500` and is not observed, so that status is left out. -/
theorem Exchange.IsOf.observed_iff {app : App} {x : Exchange} {h : Handler} (hx : x.IsOf h)
    (hcons : h.Consistent app) (hentered : h.Entered app) (routeClass : RouteClass) {status : ℕ}
    (hstatus : status ∈ statuses) (hserver : status ≠ 500) :
    observabilityMiddleware app x = some (routeClass.series status) ↔
      h.answered routeClass status = true := by
  obtain ⟨r, hr, hendpoint, hmethod, response, hresponse, hobserved⟩ := hx.observed app
  obtain ⟨hcreate, hredirect, hstats⟩ := createApp_routes r hr
  have htext : toString response.status = toString status ↔ response.status = status :=
    ⟨statuses_toString _ (hcons.answers hresponse).status_mem _ hstatus, congrArg toString⟩
  rw [hobserved, Handler.answered, hresponse]
  cases hurl : app.urlPath h.request.scope with
  | none =>
    have hfails : response = .internalServerError := by
      rcases hentered with hread | hphase | hfailed
      · rw [Request.hasUrl, hurl] at hread
        cases hread
      · rw [hphase] at hresponse
        cases hresponse
      · exact Option.some.inj (hresponse.symm.trans hfailed)
    rw [hfails]
    simp [hserver.symm]
  | some path =>
    rw [Option.map_some, Option.some.injEq]
    cases hcall : h.request.call with
    | createUrl payload =>
      rw [hcall] at hendpoint
      obtain ⟨hpath, hmethods⟩ := hcreate hendpoint
      rw [hmethods, List.mem_singleton] at hmethod
      rw [hpath, hmethod]
      cases routeClass with
      | create =>
        simp only [RouteClass.series, Call.routeClass?, RequestSeries.mk.injEq, htext, true_and,
          Option.any_some, decide_true, Bool.and_true, decide_eq_true_eq]
      | redirect => simp [RouteClass.series, Call.routeClass?]
    | redirect shortCode =>
      rw [hcall] at hendpoint
      obtain ⟨hpath, hmethods⟩ := hredirect hendpoint
      rw [hmethods, List.mem_singleton] at hmethod
      rw [hpath, hmethod]
      cases routeClass with
      | create => simp [RouteClass.series, Call.routeClass?]
      | redirect =>
        simp only [RouteClass.series, Call.routeClass?, RequestSeries.mk.injEq, htext, true_and,
          Option.any_some, decide_true, Bool.and_true, decide_eq_true_eq]
    | getStats shortCode =>
      rw [hcall] at hendpoint
      rw [hstats hendpoint]
      cases routeClass <;> simp [RouteClass.series, Call.routeClass?]

/-- **The other requests are never redirected to a destination or turned away**, whatever their
URLs are spelled like. -/
theorem Exchange.IsOther.observed_eq_zero (app : App) {others : List Exchange}
    (hothers : ∀ x ∈ others, x.IsOther) (routeClass : RouteClass) {status : ℕ}
    (hstatus : status = 302 ∨ status = 429) :
    observed app others (routeClass.series status) = 0 := by
  by_contra hobserved
  obtain ⟨x, hx, hseries⟩ := (observed_ne_zero_iff app _ _).mp hobserved
  obtain ⟨label, -, hlabel⟩ := Option.map_eq_some_iff.mp hseries
  have htext := (congrArg RequestSeries.status hlabel).trans (series_status routeClass status)
  have hmem : status ∈ statuses := by rcases hstatus with rfl | rfl <;> decide
  cases hresponse : x.response with
  | none =>
    rw [hresponse] at htext
    have h500 := statuses_toString 500 (by decide) status hmem htext
    omega
  | some s =>
    rw [hresponse] at htext
    have hs := Dispatch.mem_of_mem_statuses ((hothers x hx).response s hresponse)
    have hsubset : ∀ s ∈ [200, 307, 404, 405, 503], s ∈ statuses := by decide
    have hsame := statuses_toString s (hsubset s hs) status hmem htext
    simp only [List.mem_cons, List.not_mem_nil, or_false] at hs
    omega

/-! ## The three books -/

/-- The requests whose response is settled and not sent yet, by route and status. -/
def inFlight (w : Interleaving.World Shared Handler) (routeClass : RouteClass) (status : ℕ) : ℕ :=
  (w.procs.filter fun h => !h.sent?.isSome).countP (Handler.answered routeClass status)

/-- The log of the middleware: the exchanges of the finished requests and of those that reach none
of the three endpoints, in any order. -/
def App.Logs (app : App) (es : List Event) (log others : List Exchange) : Prop :=
  ∃ xs : List Exchange, List.Forall₂ (fun h (x : Exchange) => x.IsOf h)
      ((app.run es).procs.filter fun h => h.sent?.isSome) xs ∧
    (∀ x ∈ others, x.IsOther) ∧ log.Perm (xs ++ others)

/-- Counting related elements. -/
theorem countP_eq_of_forall₂ {α β : Type*} {R : α → β → Prop} {p : α → Bool} {q : β → Bool}
    {as : List α} {bs : List β} (h : List.Forall₂ R as bs)
    (hpq : ∀ a ∈ as, ∀ b, R a b → q b = p a) : bs.countP q = as.countP p := by
  induction h with
  | nil => rfl
  | cons hab _ ih =>
    rw [List.countP_cons, List.countP_cons, hpq _ List.mem_cons_self _ hab,
      ih fun a ha => hpq a (List.mem_cons_of_mem _ ha)]

/-- **The histogram counts the responses that have been sent**, and the other requests. -/
theorem App.observed_run (app : App) (es : List Event) {log others : List Exchange}
    (hlog : app.Logs es log others) (routeClass : RouteClass) {status : ℕ}
    (hstatus : status ∈ statuses) (hserver : status ≠ 500) :
    (app.run es).procs.countP (Handler.answered routeClass status) +
        observed app others (routeClass.series status) =
      observed app log (routeClass.series status) +
        inFlight (app.run es) routeClass status := by
  obtain ⟨xs, hxs, -, hperm⟩ := hlog
  have hsent : xs.countP (fun x => observabilityMiddleware app x =
      some (routeClass.series status)) = ((app.run es).procs.filter fun h =>
        h.sent?.isSome).countP (Handler.answered routeClass status) := by
    refine countP_eq_of_forall₂ hxs fun h hmem x hx => ?_
    obtain ⟨i, hi⟩ := List.mem_iff_getElem?.mp (List.mem_of_mem_filter hmem)
    rw [Bool.eq_iff_iff, decide_eq_true_eq]
    exact hx.observed_iff (app.consistent_run es hi) (app.entered_run es hi) routeClass hstatus
      hserver
  have hsplit : (app.run es).procs.countP (Handler.answered routeClass status) =
      ((app.run es).procs.filter fun h => h.sent?.isSome).countP
          (Handler.answered routeClass status) + inFlight (app.run es) routeClass status :=
    List.countP_eq_countP_filter_add _ _ _
  rw [observed_eq_countP, observed_eq_countP, hperm.countP_eq, List.countP_append, hsent, hsplit]
  omega

/-- What the three books say about a run, next to the requests that reach none of the three
endpoints. -/
structure BooksAgree (app : App) (es : List Event) (log others : List Exchange) : Prop where
  /-- The successes are the clicks: those on record, those on their way, and those lost. -/
  clicks : (app.run es).shared.metrics (.redirectTotal .success) =
    (app.run es).shared.db.clickEvents.length +
      (app.run es).procs.countP (fun h => h.task.isPending) +
      (app.run es).procs.countP (fun h => h.task.isFailed)
  /-- They are the `302`s that the middleware has seen, and those it is about to see. -/
  found : (app.run es).shared.metrics (.redirectTotal .success) =
    observed app log (RouteClass.redirect.series 302) + inFlight (app.run es) .redirect 302
  /-- What is missing, what is expired and what no route matched are the `404`s. -/
  missing : (app.run es).shared.metrics (.redirectTotal .notFound) +
      (app.run es).shared.metrics (.redirectTotal .expired) +
      observed app others (RouteClass.redirect.series 404) =
    observed app log (RouteClass.redirect.series 404) + inFlight (app.run es) .redirect 404
  /-- The rejections of a class are the `429`s on its route. -/
  rejected : ∀ routeClass : RouteClass,
    (app.run es).shared.metrics (.rateLimitRejectionsTotal routeClass) =
      observed app log (routeClass.series 429) + inFlight (app.run es) routeClass 429

/-- **The books agree**, while the database answers. -/
theorem App.books_agree (app : App) (es : List Event) (log others : List Exchange)
    (hes : ∀ e ∈ es, DatabaseAnswers e) (hlog : app.Logs es log others) :
    BooksAgree app es log others where
  clicks := app.successes_run es
  found := by
    have hcounter := app.counter_run (countedAs_success app) es hes
    rw [List.map_singleton, List.sum_singleton] at hcounter
    have hothers := hlog.choose_spec.2.1
    rw [← app.observed_run es hlog .redirect (by simp [statuses]) (by simp),
      Exchange.IsOther.observed_eq_zero app hothers .redirect (Or.inl rfl), Nat.add_zero]
    exact hcounter
  missing := by
    have hcounter := app.counter_run (countedAs_missing app) es hes
    rw [← app.observed_run es hlog .redirect (by simp [statuses]) (by simp), ← hcounter]
    simp [Outcome.entry]
  rejected := by
    intro routeClass
    have hcounter := app.counter_run (countedAs_rejected app routeClass) es hes
    rw [List.map_singleton, List.sum_singleton] at hcounter
    have hothers := hlog.choose_spec.2.1
    rw [← app.observed_run es hlog routeClass (by simp [statuses]) (by simp),
      Exchange.IsOther.observed_eq_zero app hothers routeClass (Or.inr rfl), Nat.add_zero]
    exact hcounter

/-- A redirect of a code that nobody has registered. -/
def missingRun : List Event :=
  admitted 0 (Call.redirect "abcd").plain ++ steps 0 5 .calm

/-- The log of that run, and of a path that no route takes, of which the URL keeps the part that is
spelled like the redirect route. -/
def missingLog : List Exchange :=
  [⟨"GET", ⟨some "localhost", "/abcd", ""⟩, some 404⟩,
    ⟨"GET", ⟨some "localhost", "/{short_code}?/x", ""⟩, some 404⟩]

theorem App.books_agree_missingRun :
    BooksAgree App.sample missingRun missingLog missingLog.tail ∧
      observed App.sample missingLog (RouteClass.redirect.series 404) = 2 := by
  have hsent : ((App.sample.run missingRun).procs.filter fun h => h.sent?.isSome) =
      [⟨(Call.redirect "abcd").plain, .done (redirectNotFound "abcd"), none, .none⟩] := rfl
  refine ⟨App.sample.books_agree missingRun _ _ ?_
    ⟨missingLog.take 1, hsent ▸ .cons ?_ .nil, ?_, .refl _⟩, by decide +kernel⟩
  · simp [missingRun, admitted, steps, DatabaseAnswers, Action.choice, Choice.redisDown,
      Choice.calm]
  · exact ⟨rfl, by decide +kernel, _, rfl, rfl⟩
  · have hunmatched : dispatch createApp "GET" "/{short_code}?/x" = .notFound := by decide +kernel
    simp only [missingLog, List.tail_cons, List.mem_singleton, forall_eq]
    refine ⟨fun call pathParam => ?_, fun status hstatus => ?_⟩
    · rw [hunmatched]
      exact Dispatch.noConfusion
    · rw [hunmatched, ← Option.some.inj hstatus]
      decide

end UrlShortener
