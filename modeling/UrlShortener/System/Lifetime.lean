import UrlShortener.System.Consistency

/-!
# A link lives as long as was asked

A creation that asks for a number of days reads the clock once, between choosing the code and
inserting the row, and adds the days to that reading.  A redirect reads the clock between finding
the row and deciding.  Neither reading is taken at the instant that matters to the client, the
response, but both are taken while their request is in progress.

## What is proved

`App.lifetime`: whoever asks for a link after its creation gets to its destination as long as the
days are not over, and not any more once they are; and a link without an expiry is never gone.
What happens at the edge is the clock's: a redirect that is in progress when the days end may go
either way.
-/

set_option autoImplicit false

namespace UrlShortener

/-! ## Redirects after the creation -/

/-- What request `j` gets for a link whose creation read the clock at the instant `n`. -/
structure Lasts (app : App) (es : List Event) (n j : ℕ) (payload : CreateUrlRequest)
    (shortCode : String) (response : Response) : Prop where
  answer : response = .found payload.longUrl ∨ response = redirectNotFound shortCode ∨
    response.status = 429 ∨ response.status = 500
  /-- The link is not gone while its days last. -/
  lives : (∀ m < es.length, InProgress (app.stateAt es m) j →
      ∀ days, payload.expiresInDays = some days → (app.stateAt es m).shared.clock <
        (app.stateAt es n).shared.clock + days * microsPerDay) →
    response ≠ redirectNotFound shortCode
  /-- Once they are over, it is. -/
  ends : ∀ days, payload.expiresInDays = some days →
    (∀ m < es.length, InProgress (app.stateAt es m) j →
      (app.stateAt es n).shared.clock + days * microsPerDay ≤ (app.stateAt es m).shared.clock) →
    response ≠ .found payload.longUrl

/-- **A link lives as long as was asked.**  The creation has finished by the instant `m`, and the
redirect arrives after it. -/
theorem App.lifetime (app : App) (es : List Event) (m i : ℕ) (h : Handler)
    (payload : CreateUrlRequest) (body : UrlResponse) (hi : (app.stateAt es m).procs[i]? = some h)
    (hcall : h.request.call = .createUrl payload) (hdone : h.phase = .done (.created body)) :
    ∃ n < m, InProgress (app.stateAt es n) i ∧
      payload.Expires (app.stateAt es n).shared.clock body.expiresAt ∧
      ∀ j h' response, (app.stateAt es m).procs.length ≤ j → (app.run es).procs[j]? = some h' →
        h'.request.call = .redirect body.shortCode → h'.phase = .done response →
          Lasts app es n j payload body.shortCode response := by
  have hresponse : h.phase.response? = some (.created body) := by rw [hdone]; rfl
  obtain ⟨n, hread⟩ := app.readAt_run (es.take m) hi hcall hresponse
  obtain ⟨hnm, -, hbusy, hexpires⟩ := hread.of_take
  have hlongUrl : body.longUrl = payload.longUrl := by
    have hanswers := (app.consistent_run (es.take m) hi).answers hresponse
    rw [hcall] at hanswers
    cases hanswers
    rfl
  obtain ⟨link, count, htells, hentry, -⟩ := app.told_holds (es.take m) hi hdone (by simp)
  obtain rfl : link = body.toLink := by
    rw [hcall] at htells
    cases htells with
    | created => rfl
    | conflict _ _ _ hresponse => rcases hresponse with heq | heq <;> cases heq
  refine ⟨n, hnm, hbusy, hexpires, fun j h' response hj hj' hcall' hdone' => ?_⟩
  obtain ⟨n', ⟨hlt', hbusy', hserves⟩, -⟩ := app.servedAt_run es hj' hdone'
  have hentry' := (app.registry_extends es (hbusy'.le hj)).entries _ _ hentry
  rw [hcall'] at hserves
  cases hserves with
  | found _ link' hlink hlive =>
    obtain rfl : body.toLink = link' := Option.some.inj (hentry'.symm.trans hlink)
    refine ⟨Or.inl (congrArg Response.found hlongUrl), fun _ heq => (by cases heq), ?_⟩
    intro days hdays hover _
    rw [CreateUrlRequest.Expires, hdays] at hexpires
    exact absurd (hlive _ hexpires) (not_lt.mpr (hover n' hlt' hbusy'))
  | redirectNotFound _ hdead =>
    refine ⟨Or.inr (Or.inl rfl), fun hlasts _ => ?_, fun _ _ _ heq => (by cases heq)⟩
    refine hdead _ hentry' fun expiresAt hexpiresAt => ?_
    have hat : body.expiresAt = some expiresAt := hexpiresAt
    rw [show body.expiresAt = _ from hexpires] at hat
    obtain ⟨days, hdays, rfl⟩ := Option.map_eq_some_iff.mp hat
    exact hlasts n' hlt' hbusy' days hdays
  | tooManyRequests =>
    exact ⟨Or.inr (Or.inr (Or.inl rfl)), fun _ heq => (by cases heq),
      fun _ _ _ heq => (by cases heq)⟩
  | internalServerError =>
    exact ⟨Or.inr (Or.inr (Or.inr rfl)), fun _ heq => (by cases heq),
      fun _ _ _ heq => (by cases heq)⟩

/-- A body that asks for a link of one day. -/
def oneDayRequest : CreateUrlRequest :=
  { abcdRequest with
    expiresInDays := some 1
    expiresInDays_valid := fun _ h => by cases h; decide }

/-- A creation, and a redirect a day later. -/
def oneDayRun : List Event :=
  admitted 0 (Call.createUrl oneDayRequest).plain ++ steps 0 5 .calm ++
    .env (.tick 86400000000) :: admitted 1 (Call.redirect "abcd").plain ++ steps 1 6 .calm

theorem App.lifetime_oneDayRun :
    ∃ n < 8, InProgress (App.sample.stateAt oneDayRun n) 0 ∧
      oneDayRequest.Expires (App.sample.stateAt oneDayRun n).shared.clock (some 86400000000) ∧
      ∀ j h' response, 1 ≤ j → (App.sample.run oneDayRun).procs[j]? = some h' →
        h'.request.call = .redirect "abcd" → h'.phase = .done response →
          Lasts App.sample oneDayRun n j oneDayRequest "abcd" response :=
  App.sample.lifetime oneDayRun 8 0 _ oneDayRequest
    ⟨"abcd", "http://localhost:8000/abcd", "https://example.com/", some 86400000000⟩ rfl rfl rfl

end UrlShortener
