import UrlShortener.System.Progress

/-!
# Which inputs cause an undesigned error

Each endpoint is written to answer with a few status codes, and the alert on the error rate counts
everything else as a failure of the service.  With a database that answers, there are two ways to
an unmapped exception.  One is a value that the database refuses: a client identifier that does not
fit its column, or text with U+0000 in it.  The other is a URL that cannot be read, which the
middleware trips over before any handler runs.  The body of a create request is validated; the
headers and the path segment are not.

## What is proved

`App.designed_iff_storable` says for every single request: it ends in a designed status in every
run in which the database answers, whatever Redis does, *exactly* if the values it puts into
statements are storable and its URL can be read.  One direction is an invariant of all runs, the
other one run on an empty database.
-/

set_option autoImplicit false

namespace UrlShortener

/-- The status codes an endpoint is written to give. -/
def Call.designed : Call → List ℕ
  | .createUrl _ => [201, 409, 429, 503]
  | .redirect _ => [302, 404, 429]
  | .getStats _ => [200, 404]

/-- Whether the columns and the wire format accept what a request puts into statements, apart from
its validated body. -/
def Request.isStorable (request : Request) : Bool :=
  match request.call with
  | .createUrl _ => isVarchar 64 (getClientIdentifier request)
  | .redirect shortCode | .getStats shortCode => isText shortCode

/-- A request comes to a designed end, wherever it stands in a run. -/
structure EndsAsDesigned (app : App) (es : List Event) (request : Request) : Prop where
  /-- What it has ended with has a designed status. -/
  designed : ∀ (i : ℕ) (h : Handler) (response : Response), (app.run es).procs[i]? = some h →
    h.request = request → h.phase = .done response → response.status ∈ request.call.designed
  /-- If it has not ended, it still can. -/
  ends : ∀ (i : ℕ) (h : Handler), (app.run es).procs[i]? = some h → h.request = request →
    ∃ es', (∀ e ∈ es', DatabaseAnswers e) ∧ ∃ h' response,
      (app.run (es ++ es')).procs[i]? = some h' ∧ h'.phase = .done response

/-- A response that an endpoint is written to give, other than a `500`, has a designed status. -/
theorem Call.Answers.mem_designed {app : App} {call : Call} {response : Response}
    (h : call.Answers app response) (hne : response ≠ .internalServerError) :
    response.status ∈ call.designed := by
  cases h with
  | created => simp [designed]
  | customCodeConflict => simp [designed]
  | raceConflict => simp [designed]
  | keyspaceSaturated => simp [designed]
  | found => simp [designed]
  | redirectNotFound => simp [designed]
  | stats => simp [designed]
  | statsNotFound => simp [designed]
  | tooManyRequests hcall =>
    cases call with
    | createUrl payload => simp [designed]
    | redirect shortCode => simp [designed]
    | getStats shortCode => exact absurd rfl (hcall shortCode)
  | internalServerError => exact absurd rfl hne

/-! ## Storable requests never fail -/

section Storable

variable {app : App} {choice : Choice}

/-- Creation by a client with a storable identifier does not fail. -/
theorem createUrl_ne_internalServerError (i : ℕ) {shared : Shared} {h : Handler}
    {payload : CreateUrlRequest} {point : CreatePoint} (hanswers : choice.dbFails = false)
    (hpoint : point.Consistent app payload) (hphase : h.phase = .createUrl payload point)
    (hclient : isVarchar 64 h.clientId = true) {response : Response}
    (hresponse : (createUrl app i choice shared h payload point).2.phase.response? =
      some response) : response ≠ .internalServerError := by
  obtain ⟨db, next, hsteps, hresult⟩ := createUrl_steps point
  rw [hresult] at hresponse
  change next.response? = some response at hresponse
  cases hsteps with
  | checkFails customCode error hquery =>
    have hallows : payload.Allows app customCode := CreateUrlRequest.allows_customCode hpoint
    rw [query_codeExists hanswers hallows] at hquery
    cases hquery
  | drawFails attempt message hdraw =>
    rw [generateShortCode_of_pos
      (Nat.lt_of_lt_of_le (by decide) app.settings.shortCodeLength_ge)] at hdraw
    cases hdraw
  | lookupFails attempt candidate error hdraw hquery =>
    have hallows : payload.Allows app candidate := CreateUrlRequest.allows_generated hpoint hdraw
    rw [query_codeExists hanswers hallows] at hquery
    cases hquery
  | insertFails shortCode expiresAt error hne herror =>
    rw [statement_of_answers hanswers] at herror
    rcases Repository.createUrl_error herror with ⟨rfl, -⟩ | ⟨-, hdata⟩
    · exact absurd rfl hne
    · rw [hpoint.1.isVarchar, isText, payload.longUrl_valid, Option.all_some, hclient] at hdata
      cases hdata
  | taken | saturated | races | inserts =>
    cases hresponse
    exact Response.noConfusion
  | free | generated =>
    rw [response?_chosen] at hresponse
    cases hresponse
  | waits =>
    rw [hphase] at hresponse
    cases hresponse
  | collides | expires => cases hresponse

/-- Resolving a code without U+0000 does not fail. -/
theorem redirect_ne_internalServerError {shared : Shared} {h : Handler} {shortCode : String}
    {point : RedirectPoint} (hanswers : choice.dbFails = false) (hwf : shared.db.Wf)
    (hcode : isText shortCode = true) {response : Response}
    (hresponse : (redirect app choice shared h shortCode point).2.phase.response? =
      some response) : response ≠ .internalServerError := by
  obtain ⟨shared', h', hsteps, hresult⟩ := redirect_steps point
  rw [hresult] at hresponse
  change h'.phase.response? = some response at hresponse
  cases hsteps with
  | hits | notFound | expired | finds | filled =>
    cases hresponse
    exact Response.noConfusion
  | selectFails error hquery =>
    rw [query_of_answers hanswers, Repository.getUrl_eq hwf, if_pos hcode] at hquery
    cases hquery
  | misses | selects | fills => cases hresponse

/-- Statistics of a code without U+0000 do not fail. -/
theorem getStats_ne_internalServerError {shared : Shared} {h : Handler} {shortCode : String}
    {point : StatsPoint} (hanswers : choice.dbFails = false) (hwf : shared.db.Wf)
    (hcode : isText shortCode = true) {response : Response}
    (hresponse : (getStats choice shared h shortCode point).2.phase.response? =
      some response) : response ≠ .internalServerError := by
  obtain ⟨next, hsteps, hresult⟩ := getStats_steps h point
  rw [hresult] at hresponse
  change next.response? = some response at hresponse
  cases hsteps with
  | selectFails error hquery =>
    rw [query_of_answers hanswers, Repository.getUrl_eq hwf, if_pos hcode] at hquery
    cases hquery
  | clicksFail url error hquery =>
    rw [query_of_answers hanswers, Repository.getRecentClicks, hcode] at hquery
    cases hquery
  | referrersFail url recent error hquery =>
    rw [query_of_answers hanswers, Repository.getTopReferrers, hcode] at hquery
    cases hquery
  | notFound | reports =>
    cases hresponse
    exact Response.noConfusion
  | readsUrl | readsClicks => cases hresponse

/-- **Every step of a storable request keeps it from failing.** -/
theorem advance_ne_internalServerError (i : ℕ) {shared : Shared} {h : Handler}
    (hanswers : choice.dbFails = false) (hwf : shared.db.Wf) (hcons : h.Consistent app)
    (hstorable : h.request.isStorable = true) (hurl : h.request.hasUrl app = true)
    (hh : ∀ response, h.phase.response? = some response → response ≠ .internalServerError)
    {response : Response}
    (hresponse : (advance app i choice shared h).2.phase.response? = some response) :
    response ≠ .internalServerError := by
  unfold Handler.Consistent at hcons
  unfold Request.isStorable at hstorable
  unfold advance at hresponse
  split at hresponse
  · rcases observabilityEntry_cases app shared h with ⟨hnone, -⟩ | ⟨-, hresult⟩
    · cases hnone.symm.trans hurl
    · rw [hresult, Handler.goto_phase, response?_entry] at hresponse
      cases hresponse
  · unfold rateLimit at hresponse
    dsimp only at hresponse
    split at hresponse
    · rw [Handler.goto_phase, response?_body] at hresponse
      cases hresponse
    · cases hresponse
      exact Response.noConfusion
  · rename_i hphase
    rw [hphase] at hcons
    rw [hcons.1] at hstorable
    exact createUrl_ne_internalServerError i hanswers hcons.2 hphase hstorable hresponse
  · rename_i shortCode point hphase
    rw [hphase] at hcons
    rw [show h.request.call = .redirect shortCode from hcons] at hstorable
    exact redirect_ne_internalServerError hanswers hwf hstorable hresponse
  · rename_i shortCode point hphase
    rw [hphase] at hcons
    rw [show h.request.call = .getStats shortCode from hcons] at hstorable
    exact getStats_ne_internalServerError hanswers hwf hstorable hresponse
  · rename_i response' hphase
    rw [hanswers] at hresponse
    exact hh response (by rw [hphase]; exact hresponse)
  · rename_i response' hphase
    rw [hanswers] at hresponse
    exact hh response (by rw [hphase]; exact hresponse)
  · rename_i response' hphase
    exact hh response (by rw [hphase]; exact hresponse)
  · exact hh response hresponse

/-- While the database answers it, no storable request fails whose URL can be read. -/
theorem App.ne_internalServerError_run (app : App) (es : List Event) {i : ℕ}
    (hes : DatabaseAnswersTo i es) {h : Handler} (hi : (app.run es).procs[i]? = some h)
    (hstorable : h.request.isStorable = true) (hurl : h.request.hasUrl app = true)
    {response : Response} (hresponse : h.phase.response? = some response) :
    response ≠ .internalServerError := by
  refine (app.safety (P := fun es i _ h => DatabaseAnswersTo i es → h.request.isStorable = true →
    h.request.hasUrl app = true →
    ∀ response, h.phase.response? = some response → response ≠ .internalServerError)
    (Q := fun _ => True) ?_ ?_ ?_ es fun _ _ => trivial).2 i h hi hes hstorable hurl response
    hresponse
  · intro es request _ _ _ _ response hresponse
    cases hresponse
  · intro es i action h _ hi hwf hh hes hstorable hurl response hresponse
    rw [act_request] at hstorable hurl
    cases action with
    | advance choice =>
      have hanswers : choice.dbFails = false :=
        hes (.advance choice) (List.mem_append_right _ List.mem_cons_self)
      exact advance_ne_internalServerError i hanswers hwf (app.consistent_run es hi) hstorable
        hurl (hh hes.of_concat hstorable hurl) hresponse
    | background choice =>
      have hphase := (recordClick_moves i choice (app.run es).shared h).same.2.1
      refine hh hes.of_concat hstorable hurl response ?_
      rw [← hphase]
      exact hresponse
  · exact fun _ _ _ _ _ _ _ _ hh _ hes => hh hes.of_concat

end Storable

/-! ## Other requests fail -/

section Fails

variable {app : App} {call : Call} {shortCode : String}

/-- A request that raises an unmapped exception is answered with a `500`. -/
theorem ReachesAlone.fail
    (hreaches : ReachesAlone app call (Initially (· = .rollback .internalServerError))) :
    ReachesAlone app call (Initially (· = .done .internalServerError)) := by
  have hrespond : ReachesAlone app call (Initially (· = .respond .internalServerError)) := by
    refine hreaches.step .redisDown rfl ?_
    rintro shared h - ⟨hdb, hphase⟩
    rw [advance, hphase]
    dsimp only
    rw [hdb]
    exact ⟨rfl, rfl⟩
  refine hrespond.step .redisDown rfl ?_
  rintro shared h - ⟨hdb, hphase⟩
  rw [advance, hphase]
  exact ⟨hdb, rfl⟩

/-- A path segment with U+0000 in it is refused by the lookup. -/
theorem reachesAlone_redirect_fails (hcode : isText shortCode = false) :
    ReachesAlone app (.redirect shortCode) (Initially (· = .done .internalServerError)) := by
  have hmiss : ReachesAlone app (.redirect shortCode)
      (Initially (· = .redirect shortCode .getUrl)) := by
    refine (reachesAlone_body app _).step .redisDown rfl ?_
    rintro shared h - ⟨hdb, hphase⟩
    rw [advance, hphase]
    exact ⟨hdb, rfl⟩
  refine ReachesAlone.fail (hmiss.step .redisDown rfl ?_)
  rintro shared h - ⟨hdb, hphase⟩
  rw [advance, hphase]
  dsimp only
  rw [redirect, query_of_answers rfl, Repository.getUrl, hcode]
  exact ⟨hdb, rfl⟩

theorem reachesAlone_getStats_fails (hcode : isText shortCode = false) :
    ReachesAlone app (.getStats shortCode) (Initially (· = .done .internalServerError)) := by
  refine ReachesAlone.fail ((reachesAlone_body app _).step .redisDown rfl ?_)
  rintro shared h - ⟨hdb, hphase⟩
  rw [advance, hphase, Call.body]
  dsimp only
  rw [getStats, query_of_answers rfl, Repository.getUrl, hcode]
  exact ⟨hdb, rfl⟩

/-- A request whose URL cannot be read gets no further than the middleware. -/
theorem App.run_of_hasUrl_eq_false (app : App) {request : Request}
    (hurl : request.hasUrl app = false) :
    app.run (soloRun request [.redisDown, .redisDown]) =
      ⟨.initial, [(Handler.arrive request).goto (.done .internalServerError)]⟩ := by
  have hentry : advance app 0 .redisDown .initial (Handler.arrive request) =
      (.initial, (Handler.arrive request).goto (.respond .internalServerError)) := by
    rcases observabilityEntry_cases app .initial (Handler.arrive request) with
      ⟨-, hresult⟩ | ⟨htrue, -⟩
    · exact hresult
    · cases hurl.symm.trans htrue
  have hfirst : app.run [.arrive request, .act 0 (.advance .redisDown)] =
      ⟨.initial, [(Handler.arrive request).goto (.respond .internalServerError)]⟩ := by
    show (⟨(advance app 0 .redisDown .initial (Handler.arrive request)).1,
      [(advance app 0 .redisDown .initial (Handler.arrive request)).2]⟩ :
        Interleaving.World Shared Handler) = _
    rw [hentry]
  show app.run ([.arrive request, .act 0 (.advance .redisDown)] ++ [.act 0 (.advance .redisDown)]) =
    _
  rw [app.run_concat, hfirst]
  rfl

/-- **A request that is not storable fails on an empty database**, and so does one whose URL cannot
be read. -/
theorem App.exists_fails (app : App) {request : Request}
    (hrefused : ¬ (request.isStorable = true ∧ request.hasUrl app = true)) :
    ∃ choices h, (∀ e ∈ soloRun request choices, DatabaseAnswers e) ∧
      (app.run (soloRun request choices)).procs[0]? = some h ∧ h.request = request ∧
      h.phase = .done .internalServerError := by
  by_cases hurl : request.hasUrl app = true
  case neg =>
    refine ⟨[.redisDown, .redisDown], (Handler.arrive request).goto (.done .internalServerError),
      databaseAnswers_soloRun (by simp [Choice.redisDown, Choice.calm]), ?_, rfl, rfl⟩
    rw [app.run_of_hasUrl_eq_false (Bool.not_eq_true _ ▸ hurl)]
    rfl
  have hstorable : request.isStorable = false :=
    Bool.not_eq_true _ ▸ fun hstorable => hrefused ⟨hstorable, hurl⟩
  -- What a run of the request alone has to end with.
  have hfails : ∀ K, ReachesAlone app request.call K →
      (∀ shared h, h.request = request → K shared h → h.phase = .done .internalServerError) →
      ∃ choices h, (∀ e ∈ soloRun request choices, DatabaseAnswers e) ∧
        (app.run (soloRun request choices)).procs[0]? = some h ∧ h.request = request ∧
        h.phase = .done .internalServerError := by
    rintro K ⟨choices, hchoices, hrun⟩ hK
    obtain ⟨shared, h, hworld, hrequest, hend⟩ := hrun request rfl hurl
    refine ⟨choices, h, databaseAnswers_soloRun hchoices, ?_, hrequest,
      hK shared h hrequest hend⟩
    rw [hworld]
    rfl
  unfold Request.isStorable at hstorable
  cases hcall : request.call with
  | createUrl payload =>
    rw [hcall] at hstorable
    obtain ⟨shortCode, hallows⟩ := payload.exists_allows app
    refine hfails _ (hcall ▸ reachesAlone_done hallows) fun shared h hrequest hend => ?_
    cases hend with
    | created url body hclient =>
      rw [Handler.clientId, hrequest] at hclient
      cases hclient.symm.trans hstorable
    | refused hclient hurls hphase => exact hphase
  | redirect shortCode =>
    rw [hcall] at hstorable
    exact hfails _ (hcall ▸ reachesAlone_redirect_fails hstorable) fun _ _ _ hend => hend.2
  | getStats shortCode =>
    rw [hcall] at hstorable
    exact hfails _ (hcall ▸ reachesAlone_getStats_fails hstorable) fun _ _ _ hend => hend.2

end Fails

/-! ## The exact condition -/

/-- **Which requests never end in an undesigned error.**  In every run in which the database
answers, a request comes to a designed end, if and only if what it puts into statements is storable
and its URL can be read. -/
theorem App.designed_iff_storable (app : App) (request : Request) :
    (∀ es : List Event, (∀ e ∈ es, DatabaseAnswers e) → EndsAsDesigned app es request) ↔
      request.isStorable = true ∧ request.hasUrl app = true := by
  constructor
  · intro hdesigned
    by_contra hrefused
    obtain ⟨choices, h, hes, hi, hrequest, hphase⟩ := app.exists_fails hrefused
    have hmem := (hdesigned _ hes).designed 0 h _ hi hrequest hphase
    rw [status_internalServerError] at hmem
    cases hcall : request.call <;> rw [hcall] at hmem <;> simp [Call.designed] at hmem
  · rintro ⟨hstorable, hurl⟩ es hes
    refine ⟨fun i h response hi hrequest hdone => ?_, fun i h hi _ => app.completes es hi⟩
    have hresponse : h.phase.response? = some response := by
      rw [hdone]
      rfl
    have hne := app.ne_internalServerError_run es (databaseAnswersTo_of_forall hes i) hi
      (hrequest ▸ hstorable) (hrequest ▸ hurl) hresponse
    rw [← hrequest]
    exact ((app.consistent_run es hi).answers hresponse).mem_designed hne

/-- A creation whose `X-Forwarded-For` names a client by sixty-five characters. -/
def longIdentifierRequest : Request :=
  { (Call.createUrl abcdRequest).plain with
    xForwardedFor :=
      some "aaaaaaaaaaaaaaaaaaaaaaaaaaaaaaaaaaaaaaaaaaaaaaaaaaaaaaaaaaaaaaaaa" }

/-- The request is answered with a `500` by a database that answers throughout. -/
theorem not_endsAsDesigned_longIdentifier :
    ¬ ∀ es : List Event, (∀ e ∈ es, DatabaseAnswers e) →
      EndsAsDesigned App.sample es longIdentifierRequest := by
  intro h
  have hanswers : ∀ e ∈ admitted 0 longIdentifierRequest ++ steps 0 4 .calm, DatabaseAnswers e := by
    simp [admitted, steps, DatabaseAnswers, Action.choice, Choice.redisDown, Choice.calm]
  have hmem := (h _ hanswers).designed 0 _ .internalServerError rfl rfl rfl
  exact absurd hmem (by decide)

end UrlShortener
