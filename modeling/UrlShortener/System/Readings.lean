import UrlShortener.System.Lookup
import UrlShortener.System.Phases

/-!
# The reading of the clock behind an expiry

A creation that asks for a number of days reads the clock once, between choosing the code and
inserting the row, and adds the days to that reading.  The row is committed later, and the response
is sent later still.

## What is proved

`App.readAt_run`: the expiry in a `201` is a reading of the clock at an instant at which the request
was in progress, with the days added.
-/

set_option autoImplicit false

namespace UrlShortener

/-- An expiry that was computed at the `n`-th instant, while request `i` was in progress. -/
def ReadAt (app : App) (es : List Event) (n i : ℕ) (payload : CreateUrlRequest)
    (expiresAt : Option ℤ) : Prop :=
  n < es.length ∧ InProgress (app.stateAt es n) i ∧
    payload.Expires (app.stateAt es n).shared.clock expiresAt

/-- What the events so far mean for the expiry that a creation carries along. -/
structure Handler.Dated (app : App) (es : List Event) (i : ℕ) (payload : CreateUrlRequest)
    (h : Handler) : Prop where
  inserting : ∀ shortCode expiresAt, h.phase = .createUrl payload (.insert shortCode expiresAt) →
    ∃ n, ReadAt app es n i payload expiresAt
  created : ∀ body, h.phase.response? = some (.created body) →
    ∃ n, ReadAt app es n i payload body.expiresAt

section Readings

variable {app : App} {es : List Event} {n i : ℕ} {payload : CreateUrlRequest}
  {expiresAt : Option ℤ} {h h' : Handler} {choice : Choice}

theorem ReadAt.concat (h : ReadAt app es n i payload expiresAt) (e : Event) :
    ReadAt app (es ++ [e]) n i payload expiresAt := by
  obtain ⟨hlt, hbusy, hexpires⟩ := h
  refine ⟨by rw [List.length_append]; omega, ?_, ?_⟩
  · rw [app.stateAt_concat hlt.le]
    exact hbusy
  · rw [app.stateAt_concat hlt.le]
    exact hexpires

/-- A reading in a shorter run is one in the whole run. -/
theorem ReadAt.of_take {m : ℕ} (h : ReadAt app (es.take m) n i payload expiresAt) :
    n < m ∧ ReadAt app es n i payload expiresAt := by
  obtain ⟨hlt, hbusy, hexpires⟩ := h
  rw [List.length_take, lt_min_iff] at hlt
  have hstate : app.stateAt (es.take m) n = app.stateAt es n := by
    rw [app.stateAt_eq_run, app.stateAt_eq_run, List.take_take, min_eq_left hlt.1.le]
  rw [hstate] at hbusy hexpires
  exact ⟨hlt.1, hlt.2, hbusy, hexpires⟩

theorem readAt_now (hi : (app.run es).procs[i]? = some h)
    (hbusy : ∀ response, h.phase ≠ .done response) (e : Event)
    (hexpires : payload.Expires (app.run es).shared.clock expiresAt) :
    ReadAt app (es ++ [e]) es.length i payload expiresAt := by
  refine ⟨by simp, ?_, ?_⟩
  · rw [app.stateAt_concat le_rfl, app.stateAt_length]
    exact ⟨h, hi, hbusy⟩
  · rw [app.stateAt_concat le_rfl, app.stateAt_length]
    exact hexpires

theorem Handler.Dated.concat (hdated : h.Dated app es i payload) (e : Event)
    (hphase : h'.phase = h.phase) : h'.Dated app (es ++ [e]) i payload where
  inserting := by
    intro shortCode expiresAt hat
    obtain ⟨n, hn⟩ := hdated.inserting shortCode expiresAt (hphase ▸ hat)
    exact ⟨n, hn.concat e⟩
  created := by
    intro body hresponse
    obtain ⟨n, hn⟩ := hdated.created body (hphase ▸ hresponse)
    exact ⟨n, hn.concat e⟩

/-- A step of `create_url`. -/
theorem createUrl_dated (hi : (app.run es).procs[i]? = some h) {point : CreatePoint}
    (hphase : h.phase = .createUrl payload point) (hpoint : point.Consistent app payload)
    (hdated : h.Dated app es i payload) (e : Event) :
    (createUrl app i choice (app.run es).shared h payload point).2.Dated app (es ++ [e]) i
      payload := by
  have hbusy : ∀ response, h.phase ≠ .done response :=
    Phase.ne_done_of_response? (by rw [hphase]; rfl)
  have hchosen : ∀ shortCode, (h.goto (chosen payload shortCode)).Dated app (es ++ [e]) i
      payload := by
    intro shortCode
    constructor
    · intro shortCode' expiresAt hat
      change chosen payload shortCode = _ at hat
      unfold chosen at hat
      split at hat
      · cases hat
      · rename_i hforever
        cases hat
        refine ⟨_, readAt_now hi hbusy e ?_⟩
        rw [CreateUrlRequest.Expires, hforever]
        rfl
    · intro body hresponse
      cases (response?_chosen payload shortCode).symm.trans hresponse
  obtain ⟨db, next, hsteps, hresult⟩ :=
    @createUrl_steps app i choice (app.run es).shared h payload point
  rw [hresult]
  cases hsteps with
  | checkFails | taken | drawFails | lookupFails | collides | saturated | races | insertFails =>
    exact ⟨fun _ _ hat => (by cases hat), fun _ hresponse => (by cases hresponse)⟩
  | free | generated => exact hchosen _
  | expires shortCode days =>
    obtain ⟨-, hdays⟩ := hpoint
    refine ⟨fun shortCode' expiresAt hat => ?_, fun _ hresponse => (by cases hresponse)⟩
    cases hat
    refine ⟨_, readAt_now hi hbusy e ?_⟩
    rw [CreateUrlRequest.Expires, hdays]
    rfl
  | waits => exact hdated.concat e rfl
  | inserts shortCode expiresAt url db hstatement =>
    have hcreated := Repository.createUrl_ok (Choice.eq_of_statement hstatement (by simp))
    obtain ⟨n, hn⟩ := hdated.inserting shortCode expiresAt hphase
    refine ⟨fun _ _ hat => (by cases hat), fun body hresponse => ?_⟩
    cases hresponse
    refine ⟨n, ?_⟩
    show ReadAt app _ n i payload url.expiresAt
    rw [hcreated.expiresAt]
    exact hn.concat e

/-- A step of a creation. -/
theorem Handler.Dated.step (hi : (app.run es).procs[i]? = some h)
    (hcall : h.request.call = .createUrl payload) (hdated : h.Dated app es i payload) (e : Event) :
    (advance app i choice (app.run es).shared h).2.Dated app (es ++ [e]) i payload := by
  rcases @advance_creation app i choice (app.run es).shared h payload
    (app.consistent_run es hi) hcall with
    ⟨-, hnext⟩ | ⟨routeClass, nowMs, -, hnext⟩ | ⟨point, hphase, hpoint, hstep⟩ |
    ⟨response, hresponse, hnext⟩
  · constructor
    · intro _ _ hat
      rw [hat] at hnext
      rcases hnext with ⟨nowMs, hnext⟩ | hnext <;> cases hnext
    · intro body hresponse
      rcases hnext with ⟨nowMs, hnext⟩ | hnext <;>
        · rw [hnext] at hresponse
          cases hresponse
  · constructor
    · intro _ _ hat
      rw [hat] at hnext
      rcases hnext with hnext | ⟨result, hnext⟩
      · unfold Call.body at hnext
        dsimp only at hnext
        split at hnext <;> cases hnext
      · cases hnext
    · intro body hresponse
      rcases hnext with hnext | ⟨result, hnext⟩
      · rw [hnext, response?_body] at hresponse
        cases hresponse
      · rw [hnext] at hresponse
        cases hresponse
  · rw [hstep]
    exact createUrl_dated hi hphase hpoint hdated e
  · constructor
    · intro _ _ hat
      rw [hat] at hnext
      rcases hnext with hnext | hnext <;> cases hnext
    · intro body hbody
      rcases hnext with hnext | hnext
      · obtain rfl : response = .created body := Option.some.inj (hnext.symm.trans hbody)
        obtain ⟨n, hn⟩ := hdated.created body hresponse
        exact ⟨n, hn.concat e⟩
      · cases hnext.symm.trans hbody

/-- **The expiry of a link is a reading of its creation** with the days added. -/
theorem App.readAt_run (app : App) (es : List Event) {i : ℕ} {h : Handler}
    (hi : (app.run es).procs[i]? = some h) {payload : CreateUrlRequest}
    (hcall : h.request.call = .createUrl payload) {body : UrlResponse}
    (hresponse : h.phase.response? = some (.created body)) :
    ∃ n, ReadAt app es n i payload body.expiresAt := by
  have hdated : h.Dated app es i payload := by
    refine app.system.own_history (P := fun es i h => h.request.call = .createUrl payload →
      h.Dated app es i payload) ?_ ?_ ?_ es hi hcall
    · intro es request _
      exact ⟨fun _ _ hat => (by cases hat), fun _ hresponse => (by cases hresponse)⟩
    · intro es i action h hi hdated hcall
      rw [show (app.system.act i action _ h).2.request = h.request from act_request ..] at hcall
      cases action with
      | advance choice => exact (hdated hcall).step hi hcall _
      | background choice =>
        exact (hdated hcall).concat _ (recordClick_moves i choice (app.run es).shared h).same.2.1
    · intro es e i h _ hdated hcall
      exact (hdated hcall).concat e rfl
  exact hdated.created body hresponse

end Readings

end UrlShortener
