import UrlShortener.Api.Routing
import UrlShortener.System.Solo

/-!
# Links at their own URL

A `201` hands out the URL made of the base URL and the short code.  Whether that URL leads back to
the link is up to three pieces that do not refer to one another: the validator and the generator,
which agree on a language of codes; the operational endpoints, each with a path of one segment; and
the order of the routers, which puts these before the catch-all.

## What is proved

* `App.handsOut_iff`: a request may be given exactly the codes it is allowed.
* `App.handedOut_atOwnUrl_iff`: a code that is handed out leads to its link, unless it is one of
  the five operational segments.
-/

set_option autoImplicit false

namespace UrlShortener

/-- In some run a request with this body is answered with a `201` for this code. -/
def App.HandsOut (app : App) (payload : CreateUrlRequest) (shortCode : String) : Prop :=
  ∃ (es : List Event) (i : ℕ) (h : Handler) (body : UrlResponse),
    (app.run es).procs[i]? = some h ∧ h.request.call = .createUrl payload ∧
      h.phase = .done (.created body) ∧ body.shortCode = shortCode

/-- A `GET` of the code is dispatched to the redirect handler, with the code as its parameter. -/
def AtOwnUrl (shortCode : String) : Prop :=
  dispatch createApp "GET" ("/" ++ shortCode) = .handle .redirect (some shortCode)

/-- **What a request may be given** is what it is allowed: its custom code, or any generated one. -/
theorem App.handsOut_iff (app : App) (payload : CreateUrlRequest) (shortCode : String) :
    app.HandsOut payload shortCode ↔ payload.Allows app shortCode := by
  constructor
  · rintro ⟨es, i, h, body, hi, hcall, hphase, rfl⟩
    have hanswers : h.request.call.Answers app (.created body) := by
      apply (app.consistent_run es hi).answers
      rw [hphase]
      rfl
    rw [hcall] at hanswers
    cases hanswers with
    | created hallows hexpires => exact hallows
  · intro hallows
    obtain ⟨choices, -, hrun⟩ := reachesAlone_done hallows
    obtain ⟨shared, h, hworld, hrequest, hend⟩ :=
      hrun (Call.createUrl payload).plain rfl (app.urlPath_localhost _)
    cases hend with
    | created url body hclient hurls hurl hcode hphase =>
      refine ⟨soloRun (Call.createUrl payload).plain choices, 0, h, body, ?_, ?_, hphase, hcode⟩
      · rw [hworld]
        rfl
      · rw [hrequest]
        rfl
    | refused hclient =>
      have hplain : getClientIdentifier (Call.createUrl payload).plain = "10.0.0.1" := rfl
      rw [Handler.clientId, hrequest, hplain] at hclient
      exact absurd hclient (by decide)

/-- An allowed code leads to its link unless another route has the same segment. -/
theorem CreateUrlRequest.Allows.atOwnUrl_iff {app : App} {payload : CreateUrlRequest}
    {shortCode : String} (h : payload.Allows app shortCode) :
    AtOwnUrl shortCode ↔ shortCode ∉ operationalSegments := by
  obtain ⟨hlength, -, hchars⟩ := h.spec
  refine dispatch_get_segment_iff ?_ hchars
  rintro rfl
  exact absurd hlength (by decide)

/-- **Which links are reachable at their own URL.**  Whatever code a request is given, its URL leads
to the redirect handler, except where the request is allowed an operational segment and gets it. -/
theorem App.handedOut_atOwnUrl_iff (app : App) (payload : CreateUrlRequest) (shortCode : String) :
    (app.HandsOut payload shortCode → AtOwnUrl shortCode) ↔
      ¬ (payload.Allows app shortCode ∧ shortCode ∈ operationalSegments) := by
  rw [app.handsOut_iff]
  constructor
  · rintro hreachable ⟨hallows, hmem⟩
    exact hallows.atOwnUrl_iff.mp (hreachable hallows) hmem
  · intro hfree hallows
    exact hallows.atOwnUrl_iff.mpr fun hmem => hfree ⟨hallows, hmem⟩

/-- A body that asks for the code `docs`. -/
def docsRequest : CreateUrlRequest :=
  .sample "docs" (validateCustomCode_of_all (by decide) (by decide) (by decide))

/-- The request is answered with a `201`, and its URL leads to the documentation. -/
theorem not_atOwnUrl_docs : ¬ (App.sample.HandsOut docsRequest "docs" → AtOwnUrl "docs") := by
  intro h
  have hreachable : AtOwnUrl "docs" := h ⟨admitted 0 (Call.createUrl docsRequest).plain ++
    steps 0 4 .calm, 0, _, _, rfl, rfl, rfl, rfl⟩
  have hdocs : dispatch createApp "GET" "/docs" = .handle .swaggerUiHtml none := by decide
  cases hdocs.symm.trans hreachable

end UrlShortener
