import UrlShortener.System.Readings
import UrlShortener.System.Registry
import UrlShortener.System.Stats

/-!
# The service is linearizable

A request takes many steps, at which it reads the cache, the tables and the clock, and other
requests take theirs in between.  Seen from outside none of this shows: each response is what the
registry of links and the clock say at one instant while the request was in progress.

## The instant

* For a `201` it is the commit.
* For a `409`, for a `503` and for a `404` about statistics it is the lookup that decided.
* For a redirect it is the instant of the plain lookup that the redirect refines.
* For statistics it is the first of the three reads.
* A `429` and a `500` say nothing about the registry.

A creation reads the clock before it commits.  What its `201` says of the expiry is therefore not
what the clock says at the commit, but what it said at some instant up to it.

## What is proved

`App.linearizable`: there is such an instant for every finished request, and the request commits
nothing at any other.  The registry is the one that the commits so far lead to, by
`App.registry_run`, so the statement does not mention the tables.
-/

set_option autoImplicit false

namespace UrlShortener

/-! ## What the registry says to a request -/

/-- A link that has not expired. -/
def Link.Live (link : Link) (clock : ℤ) : Prop :=
  ∀ expiresAt, link.expiresAt = some expiresAt → clock < expiresAt

/-- What an operation on the registry, at a reading of the clock, says to a request that may have
taken other readings before. -/
inductive Serves (app : App) (clock : ℤ) (readings : Set ℤ)
    (before after : Registry.State String Link) : Call → Response → Prop where
  /-- The link is registered under a code that was free, and expires by one of the readings. -/
  | created (payload : CreateUrlRequest) (link : Link) (now : ℤ) :
      payload.Allows app link.shortCode → link.longUrl = payload.longUrl →
      now ∈ readings → payload.Expires now link.expiresAt →
      Registry.step? before (.register link.shortCode link) = some after →
      Serves app clock readings before after (.createUrl payload) (.created
        (UrlResponse.build link.shortCode link.longUrl link.expiresAt app.settings.baseUrl))
  /-- A code that the request may use is taken. -/
  | conflict (payload : CreateUrlRequest) (shortCode : String) (response : Response) :
      payload.Allows app shortCode → (before.entries shortCode).isSome = true →
      response = customCodeConflict shortCode ∨ response = raceConflict shortCode →
      Serves app clock readings before after (.createUrl payload) response
  /-- A code that the generator drew is taken. -/
  | saturated (payload : CreateUrlRequest) (shortCode : String) : payload.customCode = none →
      payload.Allows app shortCode → (before.entries shortCode).isSome = true →
      Serves app clock readings before after (.createUrl payload) keyspaceSaturated
  | found (shortCode : String) (link : Link) : before.entries shortCode = some link →
      link.Live clock →
      Serves app clock readings before after (.redirect shortCode) (.found link.longUrl)
  | redirectNotFound (shortCode : String) :
      (∀ link, before.entries shortCode = some link → ¬ link.Live clock) →
      Serves app clock readings before after (.redirect shortCode) (redirectNotFound shortCode)
  | stats (shortCode : String) (body : StatsResponse) :
      (before.entries shortCode).isSome = true → body.shortCode = shortCode →
      body.clickCount = before.uses shortCode →
      Serves app clock readings before after (.getStats shortCode) (.stats body)
  | statsNotFound (shortCode : String) : before.entries shortCode = none →
      Serves app clock readings before after (.getStats shortCode) (statsNotFound shortCode)
  | tooManyRequests (call : Call) (result : RateLimitResult) :
      (∀ shortCode, call ≠ .getStats shortCode) →
      Serves app clock readings before after call (tooManyRequests result)
  | internalServerError (call : Call) :
      Serves app clock readings before after call .internalServerError

/-- What the clock has said while request `i` was in progress, up to the `n`-th instant. -/
def App.readings (app : App) (es : List Event) (n i : ℕ) : Set ℤ :=
  {clock | ∃ m ≤ n, InProgress (app.stateAt es m) i ∧ (app.stateAt es m).shared.clock = clock}

/-- Request `i` gets its response at the `n`-th instant. -/
structure TakesEffect (app : App) (es : List Event) (n i : ℕ) (call : Call)
    (response : Response) : Prop where
  lt : n < es.length
  inProgress : InProgress (app.stateAt es n) i
  /-- The response is what the registry and the clock say. -/
  serves : ∃ before after,
    Registry.run? Registry.empty (app.commits (es.take n)) = some before ∧
    Registry.run? Registry.empty (app.commits (es.take (n + 1))) = some after ∧
    Serves app (app.stateAt es n).shared.clock (app.readings es n i) before after call response
  /-- No other step of the request commits anything, and this one only if it creates a link. -/
  alone : ∀ m choice, es[m]? = some (.act i (.advance choice)) →
    app.commits (es.take (m + 1)) ≠ app.commits (es.take m) →
    m = n ∧ ∃ body, response = .created body

/-! ## The lookups of the registry -/

section Lookups

variable {app : App} {choice : Choice} {shared : Shared} {shortCode : String}

theorem Database.entries_of_find_none (h : shared.db.find shortCode = none) :
    shared.db.registry.entries shortCode = none := by
  show (shared.db.find shortCode).map _ = none
  rw [h, Option.map_none]

theorem Database.entries_of_find_some {url : Url} (h : shared.db.find shortCode = some url) :
    shared.db.registry.entries shortCode = some url.toLink := by
  show (shared.db.find shortCode).map _ = _
  rw [h, Option.map_some]

theorem Database.isSome_entries (h : (shared.db.find shortCode).isSome = true) :
    (shared.db.registry.entries shortCode).isSome = true := (Option.isSome_map ..).trans h

/-- The plain lookup is a lookup of the registry. -/
theorem serves_plainResponse (app : App) (shared : Shared) (shortCode : String)
    (readings : Set ℤ) (after : Registry.State String Link) :
    Serves app shared.clock readings shared.db.registry after (.redirect shortCode)
      (plainResponse shared shortCode) := by
  cases hfind : shared.db.find shortCode with
  | none =>
    rw [plainResponse_of_none hfind]
    refine .redirectNotFound _ fun link hlink => ?_
    cases (Database.entries_of_find_none hfind).symm.trans hlink
  | some url =>
    have hentry := Database.entries_of_find_some hfind
    by_cases hexpired : Repository.isExpired url shared.clock = true
    · rw [plainResponse_of_expired hfind hexpired]
      refine .redirectNotFound _ fun link hlink hlive => ?_
      obtain rfl : url.toLink = link := Option.some.inj (hentry.symm.trans hlink)
      unfold Repository.isExpired at hexpired
      cases hexpires : url.expiresAt with
      | none =>
        rw [hexpires] at hexpired
        cases hexpired
      | some expiresAt =>
        rw [hexpires] at hexpired
        have hle : expiresAt ≤ shared.clock := of_decide_eq_true hexpired
        exact absurd (hlive expiresAt hexpires) (not_lt.mpr hle)
    · rw [plainResponse_of_live hfind hexpired]
      refine .found _ url.toLink hentry fun expiresAt hexpires => ?_
      replace hexpires : url.expiresAt = some expiresAt := hexpires
      unfold Repository.isExpired at hexpired
      rw [hexpires] at hexpired
      exact lt_of_not_ge fun hle => hexpired (decide_eq_true hle)

end Lookups

/-! ## Instants -/

/-- The registry and the clock of the `n`-th instant give request `i` a response. -/
def ServedAt (app : App) (es : List Event) (n i : ℕ) (call : Call) (response : Response) : Prop :=
  n < es.length ∧ InProgress (app.stateAt es n) i ∧
    Serves app (app.stateAt es n).shared.clock (app.readings es n i)
      (app.stateAt es n).shared.db.registry (app.stateAt es (n + 1)).shared.db.registry call
      response

section Instants

variable {app : App} {es : List Event} {n i : ℕ} {call : Call} {response : Response}

theorem App.readings_concat (app : App) {es : List Event} {n : ℕ} (hn : n ≤ es.length) (i : ℕ)
    (e : Event) : app.readings (es ++ [e]) n i = app.readings es n i := by
  ext clock
  refine exists_congr fun m => and_congr_right fun hm => ?_
  rw [app.stateAt_concat (hm.trans hn)]

theorem ServedAt.concat (h : ServedAt app es n i call response) (e : Event) :
    ServedAt app (es ++ [e]) n i call response := by
  obtain ⟨hlt, hbusy, hserves⟩ := h
  refine ⟨by rw [List.length_append]; omega, ?_, ?_⟩
  · rw [app.stateAt_concat hlt.le]
    exact hbusy
  · rw [app.stateAt_concat hlt.le, app.stateAt_concat hlt, app.readings_concat hlt.le]
    exact hserves

/-- The state that an event finds is an instant. -/
theorem servedAt_now {h : Handler} (hi : (app.run es).procs[i]? = some h)
    (hbusy : ∀ response, h.phase ≠ .done response) (e : Event)
    (hserves : Serves app (app.run es).shared.clock (app.readings es es.length i)
      (app.run es).shared.db.registry (app.run (es ++ [e])).shared.db.registry call response) :
    ServedAt app (es ++ [e]) es.length i call response := by
  have hnow : app.stateAt (es ++ [e]) es.length = app.run es := by
    rw [app.stateAt_concat le_rfl, app.stateAt_length]
  have hnext : app.stateAt (es ++ [e]) (es.length + 1) = app.run (es ++ [e]) := by
    rw [← app.stateAt_length (es ++ [e]), List.length_append, List.length_singleton]
  refine ⟨by simp, ?_, ?_⟩
  · rw [hnow]
    exact ⟨h, hi, hbusy⟩
  · rw [hnow, hnext, app.readings_concat le_rfl]
    exact hserves

end Instants

/-! ## Errors -/

/-- What the events so far mean for a request that is turned away. -/
structure Handler.TurnedAway (app : App) (es : List Event) (i : ℕ) (h : Handler) : Prop where
  /-- A code that was drawn before is taken. -/
  drawn : ∀ payload attempt, h.phase = .createUrl payload (.generate (attempt + 1)) →
    ∃ n, ServedAt app es n i h.request.call keyspaceSaturated
  /-- An exception was raised at some instant.  The `404` of a redirect has its own proof. -/
  raised : ∀ response, h.phase.response? = some response → response.isError = true →
    (∀ shortCode, h.request.call = .redirect shortCode → response.status ≠ 404) →
    ∃ n, ServedAt app es n i h.request.call response

theorem Handler.TurnedAway.concat {app : App} {es : List Event} {i : ℕ} {h h' : Handler}
    (haway : h.TurnedAway app es i) (e : Event) (hphase : h'.phase = h.phase)
    (hrequest : h'.request = h.request) : h'.TurnedAway app (es ++ [e]) i where
  drawn := by
    intro payload attempt hat
    obtain ⟨n, hserved⟩ := haway.drawn payload attempt (hphase ▸ hat)
    exact ⟨n, hrequest ▸ hserved.concat e⟩
  raised := by
    intro response hresponse herror hcall
    obtain ⟨n, hserved⟩ := haway.raised response (hphase ▸ hresponse) herror (hrequest ▸ hcall)
    exact ⟨n, hrequest ▸ hserved.concat e⟩

section Step

variable {app : App} {es : List Event} {i : ℕ} {h : Handler} {choice : Choice} {shared : Shared}
  {payload : CreateUrlRequest}

/-- Another draw means that the last one was taken. -/
theorem createUrl_collides {point : CreatePoint} (hphase : h.phase = .createUrl payload point)
    {payload' : CreateUrlRequest} {attempt : ℕ}
    (hnext : (createUrl app i choice shared h payload point).2.phase =
      .createUrl payload' (.generate (attempt + 1))) :
    point = .generate attempt ∧ payload' = payload ∧ ∃ candidate,
      generateShortCode app.settings.shortCodeLength choice.draws = .ok candidate ∧
      choice.query (Repository.codeExists candidate shared.db) = .ok true := by
  have hchosen : ∀ shortCode, chosen payload shortCode ≠
      .createUrl payload' (.generate (attempt + 1)) := by
    intro shortCode
    unfold chosen
    split <;> exact fun heq => by cases heq
  cases point with
  | codeExists customCode =>
    rw [createUrl] at hnext
    split at hnext
    · cases hnext
    · cases hnext
    · exact absurd hnext (hchosen _)
  | generate attempt' =>
    rw [createUrl] at hnext
    split at hnext
    · split at hnext
      · cases hnext
      · rename_i candidate hcandidate
        split at hnext
        · cases hnext
        · rename_i htaken
          cases hnext
          exact ⟨rfl, rfl, candidate, hcandidate, htaken⟩
        · exact absurd hnext (hchosen _)
    · cases hnext
  | expiresAt shortCode days => cases hnext
  | insert shortCode expiresAt =>
    rw [createUrl] at hnext
    split at hnext
    · cases hnext
    · cases hnext
    · cases hphase.symm.trans hnext
    · cases hnext

/-- The first draw is never one too many. -/
theorem createUrl_first_draw {response : Response}
    (hresponse : (createUrl app i choice shared h payload (.generate 0)).2.phase.response? =
      some response) : response = .internalServerError := by
  rw [createUrl, if_pos (by decide)] at hresponse
  split at hresponse
  · cases hresponse
    rfl
  · split at hresponse
    · cases hresponse
      rfl
    · cases hresponse
    · rw [Handler.goto_phase, response?_chosen] at hresponse
      cases hresponse

/-- **An exception of `create_url` is what the registry says**, at its own step or at an earlier
draw. -/
theorem createUrl_raises (hi : (app.run es).procs[i]? = some h)
    (haway : h.TurnedAway app es i) {point : CreatePoint}
    (hphase : h.phase = .createUrl payload point) (e : Event) {response : Response}
    (hresponse : (createUrl app i choice (app.run es).shared h payload point).2.phase.response? =
      some response) (herror : response.isError = true) :
    ∃ n, ServedAt app (es ++ [e]) n i h.request.call response := by
  have hbusy : ∀ response, h.phase ≠ .done response :=
    Phase.ne_done_of_response? (by rw [hphase]; rfl)
  have hcons := app.consistent_run es hi
  unfold Handler.Consistent at hcons
  rw [hphase] at hcons
  have hfails : ∀ response' : Response, response' = .internalServerError →
      ∃ n, ServedAt app (es ++ [e]) n i h.request.call response' := by
    rintro _ rfl
    exact ⟨_, servedAt_now hi hbusy e (.internalServerError _)⟩
  have hconflict : response.status = 409 →
      ∃ n, ServedAt app (es ++ [e]) n i h.request.call response := by
    intro hstatus
    obtain ⟨payload', shortCode, hcall, hallows, htext, hrow⟩ :=
      createUrl_conflict i choice _ hcons.1 hcons.2 hphase hresponse hstatus
    rw [hcall]
    exact ⟨_, servedAt_now hi hbusy e
      (.conflict payload' shortCode response hallows (Database.isSome_entries hrow) htext)⟩
  obtain ⟨db, next, hsteps, hresult⟩ :=
    @createUrl_steps app i choice (app.run es).shared h payload point
  have hsettled := hresponse
  rw [hresult] at hresponse
  change next.response? = some response at hresponse
  cases hsteps with
  | checkFails | drawFails | lookupFails | insertFails =>
    cases hresponse
    exact hfails _ rfl
  | taken | races =>
    cases hresponse
    exact hconflict (by simp)
  | saturated attempt =>
    cases attempt with
    | zero => exact hfails _ (createUrl_first_draw hsettled)
    | succ attempt =>
      cases hresponse
      obtain ⟨n, hserved⟩ := haway.drawn payload attempt hphase
      exact ⟨n, hserved.concat e⟩
  | inserts =>
    cases hresponse
    cases herror
  | free | generated =>
    rw [response?_chosen] at hresponse
    cases hresponse
  | waits =>
    rw [hphase] at hresponse
    cases hresponse
  | collides | expires => cases hresponse

/-- **An exception of `get_stats` is what the registry says.** -/
theorem getStats_raises (hi : (app.run es).procs[i]? = some h) {shortCode : String}
    {point : StatsPoint} (hphase : h.phase = .getStats shortCode point) (e : Event)
    {response : Response}
    (hresponse : (getStats choice (app.run es).shared h shortCode point).2.phase.response? =
      some response) (herror : response.isError = true) :
    ∃ n, ServedAt app (es ++ [e]) n i h.request.call response := by
  have hbusy : ∀ response, h.phase ≠ .done response :=
    Phase.ne_done_of_response? (by rw [hphase]; rfl)
  have hcall := app.consistent_run es hi
  unfold Handler.Consistent at hcall
  rw [hphase] at hcall
  change h.request.call = .getStats shortCode at hcall
  refine ⟨_, servedAt_now hi hbusy e ?_⟩
  obtain ⟨next, hsteps, hresult⟩ := @getStats_steps choice (app.run es).shared shortCode h point
  rw [hresult] at hresponse
  change next.response? = some response at hresponse
  cases hsteps with
  | selectFails | clicksFail | referrersFail =>
    cases hresponse
    exact .internalServerError _
  | notFound hquery =>
    cases hresponse
    have hget := Choice.eq_of_query hquery (by simp)
    rw [Repository.getUrl_eq (app.wf_run es)] at hget
    rw [hcall]
    split at hget
    · exact .statsNotFound _ (Database.entries_of_find_none (Except.ok.inj hget))
    · cases hget
  | readsUrl | readsClicks => cases hresponse
  | reports =>
    cases hresponse
    cases herror

/-- A step of the handler itself. -/
theorem Handler.TurnedAway.step (haway : h.TurnedAway app es i)
    (hi : (app.run es).procs[i]? = some h) (choice : Choice) :
    (advance app i choice (app.run es).shared h).2.TurnedAway app
      (es ++ [.act i (.advance choice)]) i := by
  have hrequest := (advance_moves app i choice (app.run es).shared h).request
  have hcons := app.consistent_run es hi
  have hleads := advance_leads app i choice (app.run es).shared h
  unfold Handler.Consistent at hcons
  constructor
  case drawn =>
    intro payload attempt hat
    rw [hrequest]
    rw [hat] at hleads
    generalize hnext : Phase.createUrl payload (.generate (attempt + 1)) = next at hleads
    cases hleads with
    | creates payload' point point' hphase =>
      have hstep : (createUrl app i choice (app.run es).shared h payload' point).2.phase =
          .createUrl payload (.generate (attempt + 1)) := by
        rw [← hat, advance, hphase]
      obtain ⟨rfl, rfl, candidate, hcandidate, htaken⟩ := createUrl_collides hphase hstep
      rw [hphase] at hcons
      obtain ⟨hcall, hcustom⟩ := hcons
      rw [hcall]
      have hbusy : ∀ response, h.phase ≠ .done response :=
        Phase.ne_done_of_response? (by rw [hphase]; rfl)
      exact ⟨_, servedAt_now hi hbusy _ (.saturated payload candidate hcustom
        (CreateUrlRequest.allows_generated hcustom hcandidate)
        (Database.isSome_entries (isSome_of_codeExists htaken)))⟩
    | admitted routeClass nowMs hphase =>
      have hentry : h.request.call.body ≠ .createUrl payload (.generate (attempt + 1)) := by
        unfold Call.body
        split
        · split <;> exact fun heq => by cases heq
        · exact Phase.noConfusion
        · exact Phase.noConfusion
      exact absurd hnext.symm hentry
    | settlesCreate _ _ _ _ _ hsettled => rcases hsettled with rfl | rfl <;> cases hnext
    | closes _ _ _ _ hclosed =>
      subst hnext
      cases hclosed
    | enters nowMs hphase =>
      have hentry : h.request.call.entry nowMs ≠ .createUrl payload (.generate (attempt + 1)) := by
        cases h.request.call <;> exact Phase.noConfusion
      exact absurd hnext.symm hentry
    | unreadable | rejected | hits | misses | selects | selectFails | notFound | expired | fills
    | found | readsUrl | readsClicks | reports | statsFails => cases hnext
  case raised =>
    intro response hresponse herror hcall
    rw [hrequest] at hcall ⊢
    cases hopen : h.phase.response? with
    | some settled =>
      -- The response was settled before; the database can still replace it by a `500`.
      rcases hleads.response?_of_closed hopen with hsame | hfailed
      · obtain rfl : settled = response := Option.some.inj (hsame.symm.trans hresponse)
        obtain ⟨n, hserved⟩ := haway.raised settled hopen herror hcall
        exact ⟨n, hserved.concat _⟩
      · obtain rfl : Response.internalServerError = response :=
          Option.some.inj (hfailed.symm.trans hresponse)
        by_cases hdone : ∃ response, h.phase = .done response
        · obtain ⟨response, hdone⟩ := hdone
          rw [advance, hdone] at hresponse
          obtain ⟨n, hserved⟩ := haway.raised _ hresponse herror hcall
          exact ⟨n, hserved.concat _⟩
        · exact ⟨_, servedAt_now hi (fun response heq => hdone ⟨response, heq⟩) _
            (.internalServerError _)⟩
    | none =>
      have hbusy := Phase.ne_done_of_response? hopen
      cases hleads.settles hopen hresponse with
      | unreadable | selectFails => exact ⟨_, servedAt_now hi hbusy _ (.internalServerError _)⟩
      | rejected routeClass nowMs result hphase =>
        rw [hphase] at hcons
        exact ⟨_, servedAt_now hi hbusy _ (.tooManyRequests _ result hcons)⟩
      | create payload point _ hphase =>
        have hraises :
            (createUrl app i choice (app.run es).shared h payload point).2.phase.response? =
              some response := by
          rw [← hresponse, advance, hphase]
        exact createUrl_raises hi haway hphase _ hraises herror
      | stats shortCode point _ hphase =>
        have hraises :
            (getStats choice (app.run es).shared h shortCode point).2.phase.response? =
              some response := by
          rw [← hresponse, advance, hphase]
        exact getStats_raises hi hphase _ hraises herror
      | found => cases herror
      | notFound shortCode hphase | expired shortCode _ hphase =>
        rw [hphase] at hcons
        exact absurd rfl (hcall shortCode hcons)

end Step

theorem App.turnedAway_run (app : App) (es : List Event) {i : ℕ} {h : Handler}
    (hi : (app.run es).procs[i]? = some h) : h.TurnedAway app es i := by
  refine app.system.own_history (P := fun es i h => h.TurnedAway app es i) ?_ ?_ ?_ es hi
  · intro es request
    constructor
    · rintro payload attempt ⟨⟩
    · rintro response ⟨⟩
  · intro es i action h hi haway
    cases action with
    | advance choice => exact haway.step hi choice
    | background choice =>
      obtain ⟨hrequest, hphase, -⟩ := (recordClick_moves i choice (app.run es).shared h).same
      exact haway.concat _ hphase hrequest
  · intro es e i h _ haway
    exact haway.concat e rfl rfl

/-! ## Commits -/

theorem Handler.committed_of_done {h : Handler} {body : UrlResponse}
    (hdone : h.phase = .done (.created body)) : h.committed = some body := by
  rw [committed, hdone]

/-- The `n`-th event is where request `i` commits its `201`. -/
def CommitsAt (app : App) (es : List Event) (n i : ℕ) (request : Request) (body : UrlResponse) :
    Prop :=
  ∃ choice h, es[n]? = some (.act i (.advance choice)) ∧
    (app.stateAt es n).procs[i]? = some h ∧ h.request = request ∧ h.committed = none ∧
    (advance app i choice (app.stateAt es n).shared h).2.committed = some body

section Commits

variable {app : App} {es : List Event} {n i : ℕ} {request : Request} {body : UrlResponse}

theorem CommitsAt.lt (h : CommitsAt app es n i request body) : n < es.length := by
  obtain ⟨choice, handler, hevent, -⟩ := h
  exact (List.getElem?_eq_some_iff.mp hevent).1

theorem CommitsAt.concat (h : CommitsAt app es n i request body) (e : Event) :
    CommitsAt app (es ++ [e]) n i request body := by
  have hlt := h.lt
  obtain ⟨choice, handler, hevent, hrest⟩ := h
  refine ⟨choice, handler, (List.getElem?_append_left hlt).trans hevent, ?_⟩
  rw [app.stateAt_concat hlt.le]
  exact hrest

/-- **A committed `201` was committed at some step.** -/
theorem App.commitsAt_run (app : App) (es : List Event) {i : ℕ} {h : Handler}
    (hi : (app.run es).procs[i]? = some h) {body : UrlResponse}
    (hcommitted : h.committed = some body) : ∃ n, CommitsAt app es n i h.request body := by
  refine app.system.own_history (P := fun es i h => ∀ body, h.committed = some body →
    ∃ n, CommitsAt app es n i h.request body) ?_ ?_ ?_ es hi body hcommitted
  · intro es request body hcommitted
    cases hcommitted
  · intro es i action h hi hcommits body hcommitted
    show ∃ n, CommitsAt app _ n i (act app i action (app.run es).shared h).2.request body
    rw [act_request]
    rcases app.linkStep_act hi action with ⟨-, hsame⟩ | ⟨body', hnone, hsome, -⟩
    · obtain ⟨n, hn⟩ := hcommits body (hsame.symm.trans hcommitted)
      exact ⟨n, hn.concat _⟩
    · obtain rfl : body' = body := Option.some.inj (hsome.symm.trans hcommitted)
      cases action with
      | advance choice =>
        refine ⟨es.length, choice, h, by simp, ?_⟩
        rw [app.stateAt_concat le_rfl, app.stateAt_length]
        exact ⟨hi, rfl, hnone, hsome⟩
      | background choice =>
        have hphase := (recordClick_moves i choice (app.run es).shared h).same.2.1
        have hsame : (recordClick i choice (app.run es).shared h).2.committed = h.committed := by
          unfold Handler.committed
          rw [hphase]
        cases (hsame.symm.trans hsome).symm.trans hnone
  · intro es e i h _ hcommits body hcommitted
    obtain ⟨n, hn⟩ := hcommits body hcommitted
    exact ⟨n, hn.concat e⟩

/-- The commit of a `201` registers its link. -/
theorem App.step?_of_commits (app : App) {es : List Event} {i : ℕ} {h : Handler}
    (hi : (app.run es).procs[i]? = some h) {choice : Choice} {body : UrlResponse}
    (hnone : h.committed = none)
    (hsome : (advance app i choice (app.run es).shared h).2.committed = some body) :
    Registry.step? (app.run es).shared.db.registry (.register body.shortCode body.toLink) =
      some (advance app i choice (app.run es).shared h).1.db.registry := by
  have hops : registryOps app i (.advance choice) (app.run es).shared h =
      [.register body.shortCode body.toLink] := by
    simp only [registryOps, hsome, hnone]
  have hregistry := app.registry_act hi (.advance choice)
  rw [hops] at hregistry
  exact hregistry

/-- **A `201` is what the registry says** at its commit. -/
theorem CommitsAt.servedAt (hcommits : CommitsAt app es n i request body) :
    ServedAt app es n i request.call (.created body) := by
  have hlt := hcommits.lt
  obtain ⟨choice, h, hevent, hi, rfl, hnone, hsome⟩ := hcommits
  have hnext : app.stateAt es (n + 1) =
      app.system.step (app.stateAt es n) (.act i (.advance choice)) :=
    Run.stateAt_succ_of_getElem? _ hevent
  rw [app.system.step_act_of_some hi] at hnext
  have hcons := consistent_advance i choice (app.stateAt es n).shared
    (app.consistent_run (es.take n) hi)
  have hresponse : (advance app i choice (app.stateAt es n).shared h).2.phase.response? =
      some (.created body) := by
    generalize (advance app i choice (app.stateAt es n).shared h).2 = h' at hsome
    unfold Handler.committed at hsome
    split at hsome
    · rename_i hphase
      cases hsome
      rw [hphase]
      rfl
    · rename_i hphase
      cases hsome
      rw [hphase]
      rfl
    · cases hsome
  have hbusy : ∀ response, h.phase ≠ .done response := by
    intro response hdone
    have hrests : (advance app i choice (app.stateAt es n).shared h).2 = h := by
      rw [advance, hdone]
    cases (hrests ▸ hsome).symm.trans hnone
  have hstep := @App.step?_of_commits app (es.take n) i h hi choice body hnone hsome
  have hanswers := hcons.answers hresponse
  rw [(advance_moves app i choice (app.stateAt es n).shared h).request] at hanswers
  refine ⟨hlt, ⟨h, hi, hbusy⟩, ?_⟩
  have hself : (app.stateAt es (n + 1)).procs[i]? =
      some (advance app i choice (app.stateAt es n).shared h).2 := by
    rw [hnext]
    exact List.getElem?_set_self (List.getElem?_eq_some_iff.mp hi).1
  rw [hnext]
  cases hcall : h.request.call with
  | createUrl payload =>
    -- The reading is one of the run that ends with the commit.
    obtain ⟨m, hread⟩ := app.readAt_run (es.take (n + 1)) hself
      ((congrArg Request.call (advance_moves app i choice _ h).request).trans hcall) hresponse
    obtain ⟨hmn, -, hreading, hexpires⟩ := hread.of_take
    rw [hcall] at hanswers
    cases hanswers with
    | @created payload shortCode now expiresAt hallows =>
      exact .created payload ⟨shortCode, payload.longUrl, expiresAt⟩
        (app.stateAt es m).shared.clock hallows rfl ⟨m, Nat.lt_succ_iff.mp hmn, hreading, rfl⟩
        hexpires hstep
  | redirect | getStats =>
    rw [hcall] at hanswers
    cases hanswers

/-- An event of the run appends its own commits to those before it. -/
theorem App.commits_take_succ (app : App) {es : List Event} {m i : ℕ} {choice : Choice}
    (hm : es[m]? = some (.act i (.advance choice))) :
    app.commits (es.take (m + 1)) = app.commits (es.take m) ++
      (app.stateAt es m).procs[i]?.elim []
        (registryOps app i (.advance choice) (app.stateAt es m).shared) := by
  have htake : es.take (m + 1) = es.take m ++ [.act i (.advance choice)] := by
    rw [List.take_add_one, hm, Option.toList_some]
  rw [htake]
  show app.system.trace (registryOps app) (fun _ _ => []) (app.run []) _ = _
  rw [Interleaving.System.trace_append]
  exact congrArg _ (List.append_nil _)

/-- A step that commits something commits the `201` of its request. -/
theorem App.commitsAt_of_commits (app : App) {es : List Event} {m : ℕ} {choice : Choice}
    {h : Handler} (hi : (app.run es).procs[i]? = some h)
    (hm : es[m]? = some (.act i (.advance choice)))
    (hcommits : app.commits (es.take (m + 1)) ≠ app.commits (es.take m)) :
    ∃ request body, h.committed = some body ∧ CommitsAt app es m i request body := by
  have hlt : m < es.length := (List.getElem?_eq_some_iff.mp hm).1
  rw [app.commits_take_succ hm] at hcommits
  cases hi' : (app.stateAt es m).procs[i]? with
  | none =>
    rw [hi', Option.elim_none, List.append_nil] at hcommits
    exact absurd rfl hcommits
  | some h' =>
    rw [hi', Option.elim_some] at hcommits
    have hself : (app.stateAt es (m + 1)).procs[i]? =
        some (advance app i choice (app.stateAt es m).shared h').2 := by
      rw [show app.stateAt es (m + 1) = _ from Run.stateAt_succ_of_getElem? _ hm]
      exact app.system.getElem?_step_act_self hi' _
    cases hnone : h'.committed with
    | some body =>
      rw [registryOps, hnone, List.append_nil] at hcommits
      exact absurd rfl hcommits
    | none =>
      cases hsome : (advance app i choice (app.stateAt es m).shared h').2.committed with
      | none =>
        simp only [registryOps, hnone, hsome, List.append_nil] at hcommits
        exact absurd rfl hcommits
      | some body =>
        obtain ⟨h'', hi'', hcommitted⟩ := app.committed_mono es hlt hself hsome
        rw [app.stateAt_length, hi, Option.some.injEq] at hi''
        subst hi''
        exact ⟨h'.request, body, hcommitted, choice, h', hm, hi', rfl, hnone, hsome⟩

theorem CommitsAt.le {m : ℕ} {request' : Request} {body' : UrlResponse}
    (h : CommitsAt app es n i request body) (h' : CommitsAt app es m i request' body') :
    m ≤ n := by
  obtain ⟨choice, handler, hevent, hi, -, -, hsome⟩ := h
  obtain ⟨choice', handler', -, hi', -, hnone, -⟩ := h'
  refine Nat.le_of_not_lt fun hlt => ?_
  have hself : (app.stateAt es (n + 1)).procs[i]? =
      some (advance app i choice (app.stateAt es n).shared handler).2 := by
    rw [show app.stateAt es (n + 1) = _ from Run.stateAt_succ_of_getElem? _ hevent]
    exact app.system.getElem?_step_act_self hi _
  obtain ⟨handler'', hi'', hcommitted⟩ := app.committed_mono es hlt hself hsome
  obtain rfl : handler' = handler'' := Option.some.inj (hi'.symm.trans hi'')
  cases hnone.symm.trans hcommitted

end Commits

/-! ## Linearizability -/

/-- **Statistics are what the registry says** at the first of their reads. -/
theorem ReadsUrl.servedAt {app : App} {es : List Event} {n i : ℕ} {shortCode : String} {url : Url}
    (hread : ReadsUrl app es n i shortCode url) (recent : List ClickEvent)
    (topReferrers : List (Option String × ℕ)) :
    ServedAt app es n i (.getStats shortCode)
      (.stats (statsResponse shortCode url recent topReferrers)) := by
  have hcount : url.clickCount = (app.stateAt es n).shared.db.eventCount shortCode := by
    obtain ⟨hclicks, hevents⟩ := app.recorded_run (es.take n) shortCode
    exact hread.clickCount_eq.trans (hclicks.trans hevents.symm)
  have hlt := hread.lt
  obtain ⟨choice, h, -, hi, hphase, hquery⟩ := hread
  have hwf : (app.stateAt es n).shared.db.Wf := app.wf_run (es.take n)
  have hget := Choice.eq_of_query hquery (by simp)
  rw [Repository.getUrl_eq hwf] at hget
  refine ⟨hlt, ⟨h, hi, Phase.ne_done_of_response? (by rw [hphase]; rfl)⟩,
    .stats _ _ ?_ rfl hcount⟩
  split at hget
  · exact Database.isSome_entries (by rw [Except.ok.inj hget]; rfl)
  · cases hget

/-- **Every response is what the registry says at some instant**, and for a `201` that is its
commit. -/
theorem App.servedAt_run (app : App) (es : List Event) {i : ℕ} {h : Handler} {response : Response}
    (hi : (app.run es).procs[i]? = some h) (hdone : h.phase = .done response) :
    ∃ n, ServedAt app es n i h.request.call response ∧
      ∀ body, response = .created body → CommitsAt app es n i h.request body := by
  have hresponse : h.phase.response? = some response := by rw [hdone]; rfl
  have hanswers := (app.consistent_run es hi).answers hresponse
  have hraised : response.isError = true →
      (∀ shortCode, h.request.call = .redirect shortCode → response.status ≠ 404) →
      ∃ n, ServedAt app es n i h.request.call response ∧
        ∀ body, response = .created body → CommitsAt app es n i h.request body := by
    intro herror hcall
    obtain ⟨n, hserved⟩ := (app.turnedAway_run es hi).raised response hresponse herror hcall
    refine ⟨n, hserved, ?_⟩
    rintro body rfl
    cases herror
  have hplain : ∀ shortCode, h.request.call = .redirect shortCode →
      response.status = 302 ∨ response.status = 404 →
      ∃ n, ServedAt app es n i h.request.call response ∧
        ∀ body, response = .created body → CommitsAt app es n i h.request body := by
    intro shortCode hcall hstatus
    have hfacts := (app.redirectFacts_run es).2 i h hi shortCode hcall
    rw [hdone] at hfacts
    obtain ⟨n, hlt, hbusy, hplain⟩ := hfacts hstatus
    refine ⟨n, ⟨hlt, hbusy, ?_⟩, ?_⟩
    · rw [hcall, ← hplain]
      exact serves_plainResponse app _ shortCode _ _
    · rintro body rfl
      rcases hstatus with hstatus | hstatus <;> cases hstatus
  cases hcall : h.request.call with
  | createUrl payload =>
    rw [hcall] at hanswers hraised
    cases hanswers with
    | created =>
      obtain ⟨n, hcommits⟩ := app.commitsAt_run es hi (Handler.committed_of_done hdone)
      refine ⟨n, hcall ▸ hcommits.servedAt, fun body hbody => ?_⟩
      cases hbody
      exact hcommits
    | customCodeConflict | raceConflict | keyspaceSaturated | tooManyRequests
    | internalServerError => exact hraised rfl fun _ => Call.noConfusion
  | redirect shortCode =>
    have hplain' := hplain shortCode hcall
    rw [hcall] at hanswers hraised hplain'
    cases hanswers with
    | found => exact hplain' (Or.inl rfl)
    | redirectNotFound => exact hplain' (Or.inr rfl)
    | tooManyRequests | internalServerError => exact hraised rfl fun _ _ => by simp
  | getStats shortCode =>
    rw [hcall] at hanswers hraised
    cases hanswers with
    | statsNotFound | tooManyRequests | internalServerError =>
      exact hraised rfl fun _ => Call.noConfusion
    | stats =>
      obtain ⟨shortCode', url, recent, topReferrers, n, -, -, hcall', rfl, -, -, hread, -, -⟩ :=
        (app.statsReads_run es hi).body _ hresponse
      rw [← hcall, hcall']
      exact ⟨n, hread.servedAt recent topReferrers, fun _ => Response.noConfusion⟩

/-- **The service is linearizable.**  Every finished request takes effect at one instant: while it
was in progress, the registry of links and the clock called for its response, and it commits
nothing at any other instant.  The clock of a `201` is one that the request has read by then. -/
theorem App.linearizable (app : App) (es : List Event) (i : ℕ) (h : Handler) (response : Response)
    (hi : (app.run es).procs[i]? = some h) (hdone : h.phase = .done response) :
    ∃ n, TakesEffect app es n i h.request.call response := by
  obtain ⟨n, ⟨hlt, hbusy, hserves⟩, hcommits⟩ := app.servedAt_run es hi hdone
  refine ⟨n, hlt, hbusy, ⟨_, _, app.registry_run _, app.registry_run _, hserves⟩, ?_⟩
  intro m choice hm hnew
  obtain ⟨request, body, hcommitted, hcommits'⟩ := app.commitsAt_of_commits hi hm hnew
  have hbody : response = .created body := by
    unfold Handler.committed at hcommitted
    rw [hdone] at hcommitted
    cases response with
    | created body' =>
      cases hcommitted
      rfl
    | found | stats | httpException | internalServerError => cases hcommitted
  have hn := hcommits body hbody
  exact ⟨le_antisymm (hn.le hcommits') (hcommits'.le hn), body, hbody⟩

/-- Statistics of a link that has been used once, with another click on its way. -/
theorem App.linearizable_statsRun :
    ∃ n, TakesEffect App.sample (statsRun ++ steps 3 2 .calm) n 3 (.getStats "abcd")
      (.stats ⟨"abcd", 1, [⟨0, none, none⟩, ⟨0, none, none⟩], [⟨none, 2⟩]⟩) :=
  App.sample.linearizable (statsRun ++ steps 3 2 .calm) 3 _ _ rfl rfl

end UrlShortener
