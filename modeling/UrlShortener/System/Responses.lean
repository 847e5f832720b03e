import UrlShortener.System.Guarantee

/-!
# Which responses a request can get

A handler stays inside the operations of its own endpoint, the codes it works with are codes its
payload allows, and what it answers with is one of the responses its endpoint is written to give.

## What is proved

`App.consistent_run` is that statement for every request of every run.  It needs nothing about the
database: a handler's own steps keep it, and nobody else writes a handler's variables.
-/

set_option autoImplicit false

namespace UrlShortener

/-- The codes a create request may end up with: its custom code, or any generated one. -/
def CreateUrlRequest.Allows (app : App) (payload : CreateUrlRequest) (shortCode : String) : Prop :=
  match payload.customCode with
  | some customCode => shortCode = customCode
  | none =>
      shortCode.length = app.settings.shortCodeLength ∧ ∀ c ∈ shortCode.toList, isBase62 c = true

/-- The expiry of a create request, computed from a reading of the clock. -/
def CreateUrlRequest.Expires (payload : CreateUrlRequest) (now : ℤ) (expiresAt : Option ℤ) : Prop :=
  expiresAt = payload.expiresInDays.map fun days : ℕ => now + days * microsPerDay

/-- **Allowed codes are codes**: Base62 texts of four to ten characters. -/
theorem CreateUrlRequest.Allows.spec {app : App} {payload : CreateUrlRequest} {shortCode : String}
    (h : payload.Allows app shortCode) :
    4 ≤ shortCode.length ∧ shortCode.length ≤ 10 ∧ ∀ c ∈ shortCode.toList, isBase62 c = true := by
  unfold Allows at h
  split at h
  · rename_i customCode hcustom
    subst h
    exact payload.customCode_spec hcustom
  · exact ⟨h.1 ▸ app.settings.shortCodeLength_ge, h.1 ▸ app.settings.shortCodeLength_le, h.2⟩

theorem CreateUrlRequest.allows_customCode {app : App} {payload : CreateUrlRequest}
    {customCode : String} (h : payload.customCode = some customCode) :
    payload.Allows app customCode := by
  unfold Allows
  rw [h]

theorem CreateUrlRequest.allows_generated {app : App} {payload : CreateUrlRequest}
    (h : payload.customCode = none) {draws : Draws} {candidate : String}
    (hcandidate : generateShortCode app.settings.shortCodeLength draws = .ok candidate) :
    payload.Allows app candidate := by
  unfold Allows
  rw [h]
  exact ⟨length_of_generateShortCode hcandidate, isBase62_of_generateShortCode hcandidate⟩

/-- The responses of an endpoint. -/
inductive Call.Answers (app : App) : Call → Response → Prop where
  | created {payload : CreateUrlRequest} {shortCode : String} {now : ℤ} {expiresAt : Option ℤ} :
      payload.Allows app shortCode → payload.Expires now expiresAt →
      Answers app (.createUrl payload) (.created
        (UrlResponse.build shortCode payload.longUrl expiresAt app.settings.baseUrl))
  | customCodeConflict {payload : CreateUrlRequest} {customCode : String} :
      payload.customCode = some customCode →
      Answers app (.createUrl payload) (customCodeConflict customCode)
  | raceConflict {payload : CreateUrlRequest} {shortCode : String} :
      payload.Allows app shortCode → Answers app (.createUrl payload) (raceConflict shortCode)
  | keyspaceSaturated {payload : CreateUrlRequest} :
      payload.customCode = none → Answers app (.createUrl payload) keyspaceSaturated
  | found {shortCode longUrl : String} : Answers app (.redirect shortCode) (.found longUrl)
  | redirectNotFound {shortCode : String} :
      Answers app (.redirect shortCode) (redirectNotFound shortCode)
  | stats {shortCode : String} {body : StatsResponse} :
      Answers app (.getStats shortCode) (.stats body)
  | statsNotFound {shortCode : String} : Answers app (.getStats shortCode) (statsNotFound shortCode)
  | tooManyRequests {call : Call} {result : RateLimitResult} :
      (∀ shortCode, call ≠ .getStats shortCode) → Answers app call (tooManyRequests result)
  | internalServerError {call : Call} : Answers app call .internalServerError

/-- What holds of the local variables of `create_url`. -/
def CreatePoint.Consistent (app : App) (payload : CreateUrlRequest) : CreatePoint → Prop
  | .codeExists customCode => payload.customCode = some customCode
  | .generate _ => payload.customCode = none
  | .expiresAt shortCode days =>
      payload.Allows app shortCode ∧ payload.expiresInDays = some days
  | .insert shortCode expiry => payload.Allows app shortCode ∧ ∃ now, payload.Expires now expiry

/-- What a request can be doing. -/
def Phase.Consistent (app : App) (call : Call) : Phase → Prop
  | .middleware => True
  | .checkScript _ _ => ∀ shortCode, call ≠ .getStats shortCode
  | .createUrl payload point => call = .createUrl payload ∧ point.Consistent app payload
  | .redirect shortCode _ => call = .redirect shortCode
  | .getStats shortCode _ => call = .getStats shortCode
  | .rollback response => call.Answers app response ∧ response.isError = true
  | .commit response | .respond response | .done response => call.Answers app response

/-- A request that does what its endpoint is written to do. -/
def Handler.Consistent (app : App) (h : Handler) : Prop := h.phase.Consistent app h.request.call

/-! ## Every step keeps a request consistent -/

theorem consistent_body (app : App) (call : Call) : call.body.Consistent app call := by
  cases call with
  | createUrl payload =>
    unfold Call.body
    dsimp only
    split
    · rename_i customCode hcustom
      exact ⟨rfl, hcustom⟩
    · rename_i hcustom
      exact ⟨rfl, hcustom⟩
  | redirect shortCode => exact rfl
  | getStats shortCode => exact rfl

theorem consistent_entry (app : App) (nowMs : ℤ) (call : Call) :
    (call.entry nowMs).Consistent app call := by
  cases call with
  | createUrl payload => exact fun _ => Call.noConfusion
  | redirect shortCode => exact fun _ => Call.noConfusion
  | getStats shortCode => exact consistent_body app _

theorem consistent_observabilityEntry {app : App} (shared : Shared) (h : Handler) :
    (observabilityEntry app shared h).2.Consistent app := by
  rcases observabilityEntry_cases app shared h with ⟨-, hresult⟩ | ⟨-, hresult⟩
  · rw [hresult]
    exact Call.Answers.internalServerError
  · rw [hresult]
    exact consistent_entry app _ h.request.call

theorem consistent_chosen {app : App} {payload : CreateUrlRequest} {shortCode : String}
    (h : payload.Allows app shortCode) :
    (chosen payload shortCode).Consistent app (.createUrl payload) := by
  unfold chosen
  split
  · rename_i days hdays
    exact ⟨rfl, h, hdays⟩
  · rename_i hdays
    refine ⟨rfl, h, 0, ?_⟩
    rw [CreateUrlRequest.Expires, hdays]
    rfl

theorem consistent_createUrl {app : App} (i : ℕ) (choice : Choice) (shared : Shared) {h : Handler}
    {payload : CreateUrlRequest} {point : CreatePoint} (hcall : h.request.call = .createUrl payload)
    (hpoint : point.Consistent app payload) (hh : h.phase = .createUrl payload point) :
    (createUrl app i choice shared h payload point).2.Consistent app := by
  obtain ⟨db, next, hsteps, hresult⟩ := createUrl_steps point
  rw [hresult]
  show Phase.Consistent app h.request.call next
  rw [hcall]
  cases hsteps with
  | checkFails | drawFails | lookupFails | insertFails => exact ⟨.internalServerError, rfl⟩
  | taken => exact ⟨.customCodeConflict hpoint, rfl⟩
  | free => exact consistent_chosen (CreateUrlRequest.allows_customCode hpoint)
  | collides => exact ⟨rfl, hpoint⟩
  | generated attempt candidate hcandidate =>
    exact consistent_chosen (CreateUrlRequest.allows_generated hpoint hcandidate)
  | saturated => exact ⟨.keyspaceSaturated hpoint, rfl⟩
  | expires shortCode days =>
    obtain ⟨hallows, hdays⟩ := hpoint
    refine ⟨rfl, hallows, shared.clock, ?_⟩
    rw [CreateUrlRequest.Expires, hdays]
    rfl
  | races => exact ⟨.raceConflict hpoint.1, rfl⟩
  | waits =>
    rw [hh]
    exact ⟨rfl, hpoint⟩
  | inserts shortCode expiresAt url db hstatement =>
    have hcreated := Repository.createUrl_ok (Choice.eq_of_statement hstatement (by simp))
    obtain ⟨hallows, now, hexpires⟩ := hpoint
    rw [hcreated.shortCode, hcreated.longUrl, hcreated.expiresAt]
    exact .created hallows hexpires

theorem consistent_redirect {app : App} (choice : Choice) (shared : Shared) {h : Handler}
    {shortCode : String} (point : RedirectPoint) (hcall : h.request.call = .redirect shortCode) :
    (redirect app choice shared h shortCode point).2.Consistent app := by
  obtain ⟨shared', h', hsteps, hresult⟩ := redirect_steps point
  rw [hresult]
  unfold Handler.Consistent
  cases hsteps with
  | hits | finds | filled =>
    show h.request.call.Answers app (.found _)
    rw [hcall]
    exact .found
  | misses | selects | fills => exact hcall
  | selectFails => exact ⟨.internalServerError, rfl⟩
  | notFound | expired =>
    show Phase.Consistent app h.request.call _
    rw [hcall]
    exact ⟨.redirectNotFound, rfl⟩

theorem consistent_getStats {app : App} (choice : Choice) (shared : Shared) {h : Handler}
    {shortCode : String} (point : StatsPoint) (hcall : h.request.call = .getStats shortCode) :
    (getStats choice shared h shortCode point).2.Consistent app := by
  obtain ⟨next, hsteps, hresult⟩ := getStats_steps h point
  rw [hresult]
  show Phase.Consistent app h.request.call next
  rw [hcall]
  cases hsteps with
  | selectFails | clicksFail | referrersFail => exact ⟨.internalServerError, rfl⟩
  | notFound => exact ⟨.statsNotFound, rfl⟩
  | readsUrl | readsClicks => exact rfl
  | reports => exact .stats

theorem consistent_advance {app : App} (i : ℕ) (choice : Choice) (shared : Shared) {h : Handler}
    (hcons : h.Consistent app) : (advance app i choice shared h).2.Consistent app := by
  unfold Handler.Consistent at hcons
  unfold advance
  split
  · exact consistent_observabilityEntry shared h
  · rename_i hphase
    rw [hphase] at hcons
    unfold rateLimit
    dsimp only
    split
    · exact consistent_body app h.request.call
    · exact .tooManyRequests hcons
  · rename_i hphase
    rw [hphase] at hcons
    exact consistent_createUrl i choice shared hcons.1 hcons.2 hphase
  · rename_i hphase
    rw [hphase] at hcons
    exact consistent_redirect choice shared _ hcons
  · rename_i hphase
    rw [hphase] at hcons
    exact consistent_getStats choice shared _ hcons
  · rename_i hphase
    rw [hphase] at hcons
    split
    · exact ⟨.internalServerError, rfl⟩
    · exact hcons
  · rename_i response hphase
    rw [hphase] at hcons
    cases hfails : choice.dbFails with
    | true => exact Call.Answers.internalServerError
    | false => exact hcons.1
  · rename_i hphase
    rw [hphase] at hcons
    exact hcons
  · exact hcons

theorem Moves.request {app : App} {i : ℕ} {shared shared' : Shared} {h h' : Handler}
    (hm : Moves app i shared h shared' h') : h'.request = h.request := by
  cases hm <;> rfl

/-- A click-recording task touches neither the phase nor the decision of its request. -/
theorem RecordMoves.same {i : ℕ} {shared shared' : Shared} {h h' : Handler}
    (hm : RecordMoves i shared h shared' h') :
    h'.request = h.request ∧ h'.phase = h.phase ∧ h'.decision = h.decision := by
  cases hm <;> exact ⟨rfl, rfl, rfl⟩

/-- No action changes the request. -/
theorem act_request (app : App) (i : ℕ) (action : Action) (shared : Shared) (h : Handler) :
    (act app i action shared h).2.request = h.request := by
  cases action with
  | advance choice => exact (advance_moves app i choice shared h).request
  | background choice => exact (recordClick_moves i choice shared h).same.1

theorem consistent_act {app : App} (i : ℕ) (action : Action) (shared : Shared) {h : Handler}
    (hcons : h.Consistent app) : (act app i action shared h).2.Consistent app := by
  cases action with
  | advance choice => exact consistent_advance i choice shared hcons
  | background choice =>
    obtain ⟨hrequest, hphase, -⟩ := (recordClick_moves i choice shared h).same
    unfold Handler.Consistent at hcons ⊢
    show Phase.Consistent app (recordClick i choice shared h).2.request.call
      (recordClick i choice shared h).2.phase
    rw [hphase, hrequest]
    exact hcons

/-- **Every request of every run does what its endpoint is written to do.** -/
theorem App.consistent_run (app : App) (es : List Event) {i : ℕ} {h : Handler}
    (hi : (app.run es).procs[i]? = some h) : h.Consistent app :=
  (app.safety (P := fun _ _ _ h => h.Consistent app) (Q := fun _ => True)
    (fun _ _ _ => trivial)
    (fun _ i action _ _ _ _ hcons => consistent_act i action _ hcons)
    (fun _ _ _ _ _ _ _ _ hcons _ => hcons) es fun _ _ => trivial).2 i h hi

/-! ## The response of a request -/

/-- The response a request is about to get, or has got. -/
def Phase.response? : Phase → Option Response
  | .commit response | .rollback response | .respond response | .done response => some response
  | _ => none

theorem response?_chosen (payload : CreateUrlRequest) (shortCode : String) :
    (chosen payload shortCode).response? = none := by
  unfold chosen
  split <;> rfl

theorem response?_body (call : Call) : call.body.response? = none := by
  unfold Call.body
  split
  · split <;> rfl
  · rfl
  · rfl

theorem response?_entry (nowMs : ℤ) (call : Call) : (call.entry nowMs).response? = none := by
  cases call <;> rfl

theorem Handler.Consistent.answers {app : App} {h : Handler} (hcons : h.Consistent app)
    {response : Response} (hresponse : h.phase.response? = some response) :
    h.request.call.Answers app response := by
  unfold Handler.Consistent at hcons
  cases hphase : h.phase with
  | commit response' =>
    rw [hphase] at hcons hresponse
    cases hresponse
    exact hcons
  | rollback response' =>
    rw [hphase] at hcons hresponse
    cases hresponse
    exact hcons.1
  | respond response' =>
    rw [hphase] at hcons hresponse
    cases hresponse
    exact hcons
  | done response' =>
    rw [hphase] at hcons hresponse
    cases hresponse
    exact hcons
  | middleware | checkScript | createUrl | redirect | getStats =>
    rw [hphase] at hresponse
    cases hresponse

end UrlShortener
