import UrlShortener.System.Responses

/-!
# A request alone on an empty database

That something can happen to a request is shown by a run.  The simplest runs have one request on an
empty database, which moves on while the database answers and Redis does not.  `ReachesAlone` is
about all requests of an endpoint at once that get past the middleware: the choices of the run may
depend on the body, but not on who the client is.

## What is proved

`reachesAlone_done` follows a create request to its end.  It gets any code it is allowed, unless
its client identifier does not fit the column.
-/

set_option autoImplicit false

namespace UrlShortener

/-- The database answers in an event. -/
def DatabaseAnswers : Event → Prop
  | .act _ action => action.choice.dbFails = false
  | _ => True

/-- The database answers one request at each of its own steps. -/
def DatabaseAnswersTo (i : ℕ) (es : List Event) : Prop :=
  ∀ action, .act i action ∈ es → DatabaseAnswers (.act i action)

theorem DatabaseAnswersTo.of_concat {i : ℕ} {es : List Event} {e : Event}
    (h : DatabaseAnswersTo i (es ++ [e])) : DatabaseAnswersTo i es :=
  fun action hmem => h action (List.mem_append_left _ hmem)

theorem databaseAnswersTo_of_forall {es : List Event} (h : ∀ e ∈ es, DatabaseAnswers e) (i : ℕ) :
    DatabaseAnswersTo i es := fun _ hmem => h _ hmem

section Answers

variable {choice : Choice}

theorem query_of_answers {α : Type} (hanswers : choice.dbFails = false)
    (result : Except DbError α) : choice.query result = result := by
  rw [Choice.query, hanswers]
  rfl

theorem statement_of_answers {α : Type} (hanswers : choice.dbFails = false) (reply : Reply α) :
    choice.statement reply = reply := by
  rw [Choice.statement, hanswers]
  rfl

theorem CreateUrlRequest.Allows.isVarchar {app : App} {payload : CreateUrlRequest}
    {shortCode : String} (h : payload.Allows app shortCode) : isVarchar 10 shortCode = true := by
  obtain ⟨-, hlength, hchars⟩ := h.spec
  rw [UrlShortener.isVarchar, isText, hasNul_eq_false_of_isBase62 hchars]
  simpa using hlength

theorem isText_of_isVarchar {n : ℕ} {s : String} (h : isVarchar n s = true) : isText s = true := by
  rw [isVarchar, Bool.and_eq_true] at h
  exact h.2

/-- The lookup of an allowed code is answered. -/
theorem query_codeExists {app : App} (hanswers : choice.dbFails = false)
    {payload : CreateUrlRequest} {shortCode : String} (hallows : payload.Allows app shortCode)
    (db : Database) :
    choice.query (Repository.codeExists shortCode db) = .ok (db.find shortCode).isSome := by
  rw [query_of_answers hanswers, Repository.codeExists_eq,
    if_pos (isText_of_isVarchar hallows.isVarchar)]

end Answers

/-! ## Runs of one request -/

/-- The run of one request that moves on with the given choices. -/
def soloRun (request : Request) (choices : List Choice) : List Event :=
  .arrive request :: choices.map fun choice => .act 0 (.advance choice)

/-- Some choices bring every request of an endpoint whose URL can be read, alone on an empty
database, to a state with a property. -/
def ReachesAlone (app : App) (call : Call) (K : Shared → Handler → Prop) : Prop :=
  ∃ choices : List Choice, (∀ choice ∈ choices, choice.dbFails = false) ∧
    ∀ request : Request, request.call = call → request.hasUrl app = true → ∃ shared h,
      app.run (soloRun request choices) = ⟨shared, [h]⟩ ∧ h.request = request ∧ K shared h

/-- The database is empty, and the request is at a phase with a property. -/
def Initially (p : Phase → Prop) (shared : Shared) (h : Handler) : Prop :=
  shared.db = .initial ∧ p h.phase

section Solo

variable {app : App} {call : Call} {K K' : Shared → Handler → Prop}

theorem databaseAnswers_soloRun {request : Request} {choices : List Choice}
    (h : ∀ choice ∈ choices, choice.dbFails = false) :
    ∀ e ∈ soloRun request choices, DatabaseAnswers e := by
  intro e he
  rcases List.mem_cons.mp he with rfl | he
  · trivial
  · obtain ⟨choice, hchoice, rfl⟩ := List.mem_map.mp he
    exact h choice hchoice

theorem reachesAlone_arrive (app : App) (call : Call) :
    ReachesAlone app call fun shared h =>
      Initially (· = .middleware) shared h ∧ h.request.hasUrl app = true :=
  ⟨[], by simp, fun request _ hurl =>
    ⟨.initial, Handler.arrive request, rfl, rfl, ⟨rfl, rfl⟩, hurl⟩⟩

/-- One more step. -/
theorem ReachesAlone.step (hreaches : ReachesAlone app call K) (choice : Choice)
    (hanswers : choice.dbFails = false)
    (hstep : ∀ shared h, h.request.call = call → K shared h →
      K' (advance app 0 choice shared h).1 (advance app 0 choice shared h).2) :
    ReachesAlone app call K' := by
  obtain ⟨choices, hchoices, hrun⟩ := hreaches
  refine ⟨choices ++ [choice], ?_, fun request hcall hurl => ?_⟩
  · intro choice' hmem
    rcases List.mem_append.mp hmem with hmem | hmem
    · exact hchoices choice' hmem
    · rw [List.mem_singleton.mp hmem]
      exact hanswers
  · obtain ⟨shared, h, hworld, hrequest, hK⟩ := hrun request hcall hurl
    have hcall' : h.request.call = call := by rw [hrequest, hcall]
    refine ⟨_, _, ?_, (act_request app 0 (.advance choice) shared h).trans hrequest,
      hstep shared h hcall' hK⟩
    have hevents : soloRun request (choices ++ [choice]) =
        soloRun request choices ++ [.act 0 (.advance choice)] := by
      simp [soloRun]
    rw [hevents, app.run_concat, hworld]
    rfl

/-- The middleware passes the request on. -/
theorem reachesAlone_entry (app : App) (call : Call) :
    ReachesAlone app call (Initially fun phase => ∃ nowMs, phase = call.entry nowMs) := by
  refine (reachesAlone_arrive app call).step .redisDown rfl ?_
  rintro shared h hcall ⟨⟨hdb, hphase⟩, hurl⟩
  rw [advance, hphase]
  rcases observabilityEntry_cases app shared h with ⟨hnone, -⟩ | ⟨-, hresult⟩
  · cases hnone.symm.trans hurl
  · dsimp only
    rw [hresult, hcall]
    exact ⟨hdb, _, rfl⟩

/-- The rate-limit check fails open. -/
theorem reachesAlone_body (app : App) (call : Call) :
    ReachesAlone app call (Initially (· = call.body)) := by
  have hcheck : ∀ routeClass, (∀ nowMs, call.entry nowMs = .checkScript routeClass nowMs) →
      ReachesAlone app call (Initially (· = call.body)) := by
    intro routeClass hentry
    refine (reachesAlone_entry app call).step .redisDown rfl ?_
    rintro shared h hcall ⟨hdb, nowMs, hphase⟩
    rw [advance, hphase, hentry, ← hcall]
    exact ⟨hdb, rfl⟩
  cases call with
  | createUrl payload => exact hcheck .create fun _ => rfl
  | redirect shortCode => exact hcheck .redirect fun _ => rfl
  | getStats shortCode =>
    obtain ⟨choices, hchoices, hrun⟩ := reachesAlone_entry app (.getStats shortCode)
    refine ⟨choices, hchoices, fun request hcall hurl => ?_⟩
    obtain ⟨shared, h, hworld, hrequest, hdb, nowMs, hphase⟩ := hrun request hcall hurl
    exact ⟨shared, h, hworld, hrequest, hdb, hphase⟩

end Solo

/-! ## Creation -/

section Create

variable {app : App} {payload : CreateUrlRequest} {shortCode : String}

/-- Every create request is allowed some code. -/
theorem CreateUrlRequest.exists_allows (app : App) (payload : CreateUrlRequest) :
    ∃ shortCode, payload.Allows app shortCode := by
  cases hcustom : payload.customCode with
  | some customCode => exact ⟨customCode, allows_customCode hcustom⟩
  | none =>
    have hpos : 0 < app.settings.shortCodeLength :=
      Nat.lt_of_lt_of_le (by decide) app.settings.shortCodeLength_ge
    exact ⟨_, allows_generated hcustom (generateShortCode_of_pos hpos fun _ => 0)⟩

/-- Alone, a create request gets to the insert of any code it is allowed. -/
theorem reachesAlone_insert (hallows : payload.Allows app shortCode) :
    ReachesAlone app (.createUrl payload) (Initially fun phase =>
      ∃ expiresAt, phase = .createUrl payload (.insert shortCode expiresAt)) := by
  -- Whatever the choice, the code is free.
  have hfree : ∀ choice : Choice, choice.dbFails = false →
      choice.query (Repository.codeExists shortCode .initial) = .ok false :=
    fun choice hanswers => query_codeExists hanswers hallows _
  have hchosen : ReachesAlone app (.createUrl payload)
      (Initially (· = chosen payload shortCode)) := by
    cases hcustom : payload.customCode with
    | some customCode =>
      obtain rfl : shortCode = customCode := by
        unfold CreateUrlRequest.Allows at hallows
        rw [hcustom] at hallows
        exact hallows
      refine (reachesAlone_body app _).step .redisDown rfl ?_
      rintro shared h - ⟨hdb, hphase⟩
      rw [Call.body, hcustom] at hphase
      rw [advance, hphase]
      dsimp only
      rw [createUrl, hdb, hfree _ rfl]
      exact ⟨hdb, rfl⟩
    | none =>
      have hgenerated := hallows
      unfold CreateUrlRequest.Allows at hgenerated
      rw [hcustom] at hgenerated
      have hpos : 0 < shortCode.length := Nat.lt_of_lt_of_le (by decide) hallows.spec.1
      obtain ⟨draws, hdraws⟩ := exists_generateShortCode hpos hgenerated.2
      rw [hgenerated.1] at hdraws
      refine (reachesAlone_body app _).step { Choice.redisDown with draws := draws }
        rfl ?_
      rintro shared h - ⟨hdb, hphase⟩
      rw [Call.body, hcustom] at hphase
      rw [advance, hphase]
      dsimp only
      rw [createUrl, if_pos (by decide), hdraws]
      dsimp only
      rw [hdb, hfree _ rfl]
      exact ⟨hdb, rfl⟩
  cases hdays : payload.expiresInDays with
  | none =>
    obtain ⟨choices, hchoices, hrun⟩ := hchosen
    refine ⟨choices, hchoices, fun request hcall hurl => ?_⟩
    obtain ⟨shared, h, hworld, hrequest, hdb, hphase⟩ := hrun request hcall hurl
    rw [chosen, hdays] at hphase
    exact ⟨shared, h, hworld, hrequest, hdb, none, hphase⟩
  | some days =>
    refine hchosen.step .redisDown rfl ?_
    rintro shared h - ⟨hdb, hphase⟩
    rw [chosen, hdays] at hphase
    rw [advance, hphase]
    exact ⟨hdb, _, rfl⟩

/-- How a create request ends that is alone on an empty database. -/
inductive EndsAlone (shortCode : String) (shared : Shared) (h : Handler) : Prop where
  /-- The row is there, and it names the client. -/
  | created (url : Url) (body : UrlResponse) : isVarchar 64 h.clientId = true →
      shared.db.urls = [url] → url.clientId = some h.clientId → body.shortCode = shortCode →
      h.phase = .done (.created body) → EndsAlone shortCode shared h
  /-- The database has refused the client identifier. -/
  | refused : isVarchar 64 h.clientId = false → shared.db.urls = [] →
      h.phase = .done .internalServerError → EndsAlone shortCode shared h

/-- **A create request alone on an empty database** gets any code it is allowed, unless the column
of the client identifier refuses it. -/
theorem reachesAlone_done (hallows : payload.Allows app shortCode) :
    ReachesAlone app (.createUrl payload) (EndsAlone shortCode) := by
  -- After the insert: flushed, or rejected.
  have hinsert : ReachesAlone app (.createUrl payload) fun shared h =>
      (isVarchar 64 h.clientId = true ∧ ∃ url body, shared.db.urls = [] ∧
        shared.db.own (.request 0) = [.insert url] ∧ url.clientId = some h.clientId ∧
        body.shortCode = shortCode ∧ h.phase = .commit (.created body)) ∨
      (isVarchar 64 h.clientId = false ∧ shared.db.urls = [] ∧
        h.phase = .rollback .internalServerError) := by
    refine (reachesAlone_insert hallows).step .redisDown rfl ?_
    rintro shared h - ⟨hdb, expiresAt, hphase⟩
    rw [advance, hphase]
    dsimp only
    rw [createUrl, statement_of_answers rfl, hdb]
    cases hclient : isVarchar 64 h.clientId with
    | true =>
      have hlong : isText payload.longUrl = true := by rw [isText, payload.longUrl_valid]; rfl
      have hfind : Database.initial.find shortCode = none := rfl
      obtain ⟨url, db, hok⟩ := Repository.exists_createUrl_ok hallows.isVarchar hlong hclient hfind
        rfl (.request 0) expiresAt Choice.redisDown.serverNow Choice.redisDown.idGap
      have hcreated := Repository.createUrl_ok hok
      rw [hok]
      refine Or.inl ⟨hclient, url, _, hcreated.urls, ?_, hcreated.clientId, ?_, rfl⟩
      · show db.own _ = _
        rw [hcreated.own, if_pos rfl]
        rfl
      · exact hcreated.shortCode
    | false =>
      rw [Repository.createUrl_of_not_isVarchar hclient]
      exact Or.inr ⟨hclient, by rw [hdb]; rfl, rfl⟩
  -- After the commit or the rollback.
  have hrespond : ReachesAlone app (.createUrl payload) fun shared h =>
      (isVarchar 64 h.clientId = true ∧ ∃ url body, shared.db.urls = [url] ∧
        url.clientId = some h.clientId ∧ body.shortCode = shortCode ∧
        h.phase = .respond (.created body)) ∨
      (isVarchar 64 h.clientId = false ∧ shared.db.urls = [] ∧
        h.phase = .respond .internalServerError) := by
    refine hinsert.step .redisDown rfl ?_
    rintro shared h - (⟨hclient, url, body, hurls, hown, hurl, hcode, hphase⟩ |
      ⟨hclient, hurls, hphase⟩)
    · rw [advance, hphase]
      refine Or.inl ⟨hclient, url, body, ?_, hurl, hcode, rfl⟩
      show (shared.db.commit _).urls = _
      rw [Database.urls_commit_insert hown, hurls]
      rfl
    · rw [advance, hphase]
      exact Or.inr ⟨hclient, hurls, rfl⟩
  refine hrespond.step .redisDown rfl ?_
  rintro shared h - (⟨hclient, url, body, hurls, hurl, hcode, hphase⟩ | ⟨hclient, hurls, hphase⟩)
  · rw [advance, hphase]
    exact .created url body hclient hurls hurl hcode rfl
  · rw [advance, hphase]
    exact .refused hclient hurls rfl

end Create

end UrlShortener
