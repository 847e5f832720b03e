import UrlShortener.System.Responses

/-!
# Where a step of a handler leads

`Moves` says what a step of a handler does to the database.  `Leads` says where it goes: each
phase with the phases that can follow it, and under which answer of the database they do.  The
properties of a single request are proved by cases on it.
-/

set_option autoImplicit false

namespace UrlShortener

/-- The phase after a step of a handler. -/
inductive Leads (app : App) (choice : Choice) (shared : Shared) (h : Handler) : Phase → Prop where
  /-- The URL cannot be read, and the middleware raises. -/
  | unreadable : h.phase = .middleware → h.request.hasUrl app = false →
      Leads app choice shared h (.respond .internalServerError)
  | enters (nowMs : ℤ) : h.phase = .middleware → h.request.hasUrl app = true →
      Leads app choice shared h (h.request.call.entry nowMs)
  | admitted (routeClass : RouteClass) (nowMs : ℤ) : h.phase = .checkScript routeClass nowMs →
      Leads app choice shared h h.request.call.body
  | rejected (routeClass : RouteClass) (nowMs : ℤ) (result : RateLimitResult) :
      h.phase = .checkScript routeClass nowMs →
      Leads app choice shared h (.respond (tooManyRequests result))
  | creates (payload : CreateUrlRequest) (point point' : CreatePoint) :
      h.phase = .createUrl payload point → Leads app choice shared h (.createUrl payload point')
  /-- `create_url` returns or raises. -/
  | settlesCreate (payload : CreateUrlRequest) (point : CreatePoint) (response : Response)
      (next : Phase) : h.phase = .createUrl payload point →
      next = .rollback response ∨ next = .commit response →
      response.status ∈ [201, 409, 500, 503] → Leads app choice shared h next
  | hits (shortCode longUrl : String) : h.phase = .redirect shortCode .getCachedUrl →
      Leads app choice shared h (.respond (.found longUrl))
  | misses (shortCode : String) : h.phase = .redirect shortCode .getCachedUrl →
      Leads app choice shared h (.redirect shortCode .getUrl)
  | selects (shortCode : String) (row : Option Url) : h.phase = .redirect shortCode .getUrl →
      choice.query (Repository.getUrl shortCode shared.db) = .ok row →
      Leads app choice shared h (.redirect shortCode (.now row))
  | selectFails (shortCode : String) (error : DbError) : h.phase = .redirect shortCode .getUrl →
      choice.query (Repository.getUrl shortCode shared.db) = .error error →
      Leads app choice shared h (.rollback .internalServerError)
  | notFound (shortCode : String) : h.phase = .redirect shortCode (.now none) →
      Leads app choice shared h (.rollback (redirectNotFound shortCode))
  | expired (shortCode : String) (url : Url) : h.phase = .redirect shortCode (.now (some url)) →
      Repository.isExpired url shared.clock = true →
      Leads app choice shared h (.rollback (redirectNotFound shortCode))
  | fills (shortCode : String) (url : Url) : h.phase = .redirect shortCode (.now (some url)) →
      Leads app choice shared h (.redirect shortCode (.setCachedUrl url.longUrl))
  | found (shortCode longUrl : String) (point : RedirectPoint) :
      h.phase = .redirect shortCode point → point ≠ .getUrl →
      Leads app choice shared h (.commit (.found longUrl))
  | readsUrl (shortCode : String) (url : Url) : h.phase = .getStats shortCode .getUrl →
      choice.query (Repository.getUrl shortCode shared.db) = .ok (some url) →
      Leads app choice shared h (.getStats shortCode (.getRecentClicks url))
  | readsClicks (shortCode : String) (url : Url) (recent : List ClickEvent) :
      h.phase = .getStats shortCode (.getRecentClicks url) →
      choice.query (Repository.getRecentClicks shortCode recentClicksLimit choice.clickOrder
        shared.db) = .ok recent →
      Leads app choice shared h (.getStats shortCode (.getTopReferrers url recent))
  | reports (shortCode : String) (url : Url) (recent : List ClickEvent)
      (topReferrers : List (Option String × ℕ)) :
      h.phase = .getStats shortCode (.getTopReferrers url recent) →
      choice.query (Repository.getTopReferrers shortCode topReferrersLimit choice.referrerOrder
        shared.db) = .ok topReferrers →
      Leads app choice shared h (.commit (.stats (statsResponse shortCode url recent topReferrers)))
  | statsFails (shortCode : String) (point : StatsPoint) (response : Response) :
      h.phase = .getStats shortCode point → response.status ∈ [404, 500] →
      Leads app choice shared h (.rollback response)
  /-- The response is settled; only an outage can still replace it. -/
  | closes (response response' : Response) (next : Phase) :
      h.phase.response? = some response → next.response? = some response' →
      response' = response ∨ response' = .internalServerError → Leads app choice shared h next

section Steps

variable {app : App} {i : ℕ} {choice : Choice} {shared : Shared} {h : Handler}

theorem createUrl_leads {payload : CreateUrlRequest} {point : CreatePoint}
    (hphase : h.phase = .createUrl payload point) :
    Leads app choice shared h (createUrl app i choice shared h payload point).2.phase := by
  have hchosen : ∀ shortCode, Leads app choice shared h (chosen payload shortCode) := by
    intro shortCode
    unfold chosen
    split <;> exact .creates _ _ _ hphase
  have hraises : ∀ response : Response, response.status ∈ [201, 409, 500, 503] →
      Leads app choice shared h (.rollback response) :=
    fun response hstatus => .settlesCreate _ _ response _ hphase (Or.inl rfl) hstatus
  obtain ⟨db, next, hsteps, hresult⟩ := createUrl_steps point
  rw [hresult]
  show Leads app choice shared h next
  cases hsteps with
  | checkFails | taken | drawFails | lookupFails | saturated | races | insertFails =>
    exact hraises _ (by simp)
  | free | generated => exact hchosen _
  | collides | expires => exact .creates _ _ _ hphase
  | waits =>
    rw [hphase]
    exact .creates _ _ _ hphase
  | inserts => exact .settlesCreate _ _ _ _ hphase (Or.inr rfl) (by simp)

theorem redirect_leads {shortCode : String} {point : RedirectPoint}
    (hphase : h.phase = .redirect shortCode point) :
    Leads app choice shared h (redirect app choice shared h shortCode point).2.phase := by
  obtain ⟨shared', h', hsteps, hresult⟩ := redirect_steps point
  rw [hresult]
  cases hsteps with
  | hits => exact .hits _ _ hphase
  | misses => exact .misses _ hphase
  | selectFails error hquery => exact .selectFails _ error hphase hquery
  | selects row hquery => exact .selects _ row hphase hquery
  | notFound => exact .notFound _ hphase
  | expired url hexpired => exact .expired _ url hphase hexpired
  | fills url => exact .fills _ url hphase
  | finds | filled => exact .found _ _ _ hphase RedirectPoint.noConfusion

theorem getStats_leads {shortCode : String} {point : StatsPoint}
    (hphase : h.phase = .getStats shortCode point) :
    Leads app choice shared h (getStats choice shared h shortCode point).2.phase := by
  obtain ⟨next, hsteps, hresult⟩ := getStats_steps h point
  rw [hresult]
  cases hsteps with
  | selectFails | notFound | clicksFail | referrersFail =>
    exact .statsFails _ _ _ hphase (by simp)
  | readsUrl url hquery => exact .readsUrl _ url hphase hquery
  | readsClicks url recent hquery => exact .readsClicks _ url recent hphase hquery
  | reports url recent topReferrers hquery =>
    exact .reports _ url recent topReferrers hphase hquery

/-- **Where a step of a handler leads.** -/
theorem advance_leads (app : App) (i : ℕ) (choice : Choice) (shared : Shared) (h : Handler) :
    Leads app choice shared h (advance app i choice shared h).2.phase := by
  unfold advance
  split
  · rename_i hphase
    rcases observabilityEntry_cases app shared h with ⟨hurl, hresult⟩ | ⟨hurl, hresult⟩
    · rw [hresult]
      exact .unreadable hphase hurl
    · rw [hresult]
      exact .enters _ hphase hurl
  · rename_i hphase
    rw [rateLimit]
    split
    · exact .admitted _ _ hphase
    · exact .rejected _ _ _ hphase
  · rename_i hphase
    exact createUrl_leads hphase
  · rename_i hphase
    exact redirect_leads hphase
  · rename_i hphase
    exact getStats_leads hphase
  · rename_i response hphase
    split
    · exact .closes response _ _ (by rw [hphase]; rfl) rfl (Or.inr rfl)
    · exact .closes response _ _ (by rw [hphase]; rfl) rfl (Or.inl rfl)
  · rename_i response hphase
    refine .closes response _ _ (by rw [hphase]; rfl) rfl ?_
    split
    · exact Or.inr rfl
    · exact Or.inl rfl
  · rename_i response hphase
    exact .closes response _ _ (by rw [hphase]; rfl) rfl (Or.inl rfl)
  · rename_i response hphase
    exact .closes response response _ (by rw [hphase]; rfl) (by rw [hphase]; rfl) (Or.inl rfl)

/-! ## What a step settles -/

end Steps

/-- The response that a step settles. -/
inductive Settles (app : App) (choice : Choice) (shared : Shared) (h : Handler) :
    Response → Prop where
  | unreadable : h.phase = .middleware → h.request.hasUrl app = false →
      Settles app choice shared h .internalServerError
  | rejected (routeClass : RouteClass) (nowMs : ℤ) (result : RateLimitResult) :
      h.phase = .checkScript routeClass nowMs → Settles app choice shared h (tooManyRequests result)
  | create (payload : CreateUrlRequest) (point : CreatePoint) (response : Response) :
      h.phase = .createUrl payload point → response.status ∈ [201, 409, 500, 503] →
      Settles app choice shared h response
  | found (shortCode longUrl : String) (point : RedirectPoint) :
      h.phase = .redirect shortCode point → point ≠ .getUrl →
      Settles app choice shared h (.found longUrl)
  | selectFails (shortCode : String) (error : DbError) : h.phase = .redirect shortCode .getUrl →
      choice.query (Repository.getUrl shortCode shared.db) = .error error →
      Settles app choice shared h .internalServerError
  | notFound (shortCode : String) : h.phase = .redirect shortCode (.now none) →
      Settles app choice shared h (redirectNotFound shortCode)
  | expired (shortCode : String) (url : Url) : h.phase = .redirect shortCode (.now (some url)) →
      Repository.isExpired url shared.clock = true →
      Settles app choice shared h (redirectNotFound shortCode)
  | stats (shortCode : String) (point : StatsPoint) (response : Response) :
      h.phase = .getStats shortCode point → response.status ∈ [200, 404, 500] →
      Settles app choice shared h response

section Steps

variable {app : App} {i : ℕ} {choice : Choice} {shared : Shared} {h : Handler}

theorem Leads.settles {next : Phase} (hleads : Leads app choice shared h next)
    (hopen : h.phase.response? = none) {response : Response}
    (hresponse : next.response? = some response) : Settles app choice shared h response := by
  cases hleads with
  | creates | misses | selects | fills | readsUrl | readsClicks => cases hresponse
  | unreadable hphase hurl =>
    cases hresponse
    exact .unreadable hphase hurl
  | enters nowMs hphase =>
    rw [response?_entry] at hresponse
    cases hresponse
  | admitted routeClass nowMs hphase =>
    rw [response?_body] at hresponse
    cases hresponse
  | rejected routeClass nowMs result hphase =>
    cases hresponse
    exact .rejected _ _ _ hphase
  | settlesCreate payload point response' _ hphase hnext hstatus =>
    rcases hnext with rfl | rfl <;> cases hresponse <;> exact .create _ _ _ hphase hstatus
  | hits shortCode longUrl hphase =>
    cases hresponse
    exact .found _ _ _ hphase RedirectPoint.noConfusion
  | selectFails shortCode error hphase hquery =>
    cases hresponse
    exact .selectFails _ error hphase hquery
  | notFound shortCode hphase =>
    cases hresponse
    exact .notFound _ hphase
  | expired shortCode url hphase hexpired =>
    cases hresponse
    exact .expired _ url hphase hexpired
  | found shortCode longUrl point hphase hpoint =>
    cases hresponse
    exact .found _ _ _ hphase hpoint
  | reports shortCode url recent topReferrers hphase =>
    cases hresponse
    exact .stats _ _ _ hphase (by simp)
  | statsFails shortCode point response' hphase hstatus =>
    cases hresponse
    exact .stats _ _ _ hphase (List.mem_cons_of_mem _ hstatus)
  | closes response' _ _ hclosed =>
    rw [hopen] at hclosed
    cases hclosed

/-- A response that is settled stays, or becomes a `500`. -/
theorem Leads.response?_of_closed {next : Phase} (hleads : Leads app choice shared h next)
    {response : Response} (hclosed : h.phase.response? = some response) :
    next.response? = some response ∨ next.response? = some .internalServerError := by
  cases hleads with
  | closes response' _ _ hclosed' hnext hsame =>
    obtain rfl : response = response' := Option.some.inj (hclosed.symm.trans hclosed')
    rcases hsame with rfl | rfl
    · exact Or.inl hnext
    · exact Or.inr hnext
  | unreadable hphase | enters _ hphase | admitted _ _ hphase | rejected _ _ _ hphase
  | creates _ _ _ hphase | settlesCreate _ _ _ _ hphase | hits _ _ hphase | misses _ hphase
  | selects _ _ hphase | selectFails _ _ hphase | notFound _ hphase | expired _ _ hphase
  | fills _ _ hphase | found _ _ _ hphase | readsUrl _ _ hphase | readsClicks _ _ _ hphase
  | reports _ _ _ _ hphase | statsFails _ _ _ hphase =>
    rw [hphase] at hclosed
    cases hclosed

/-- While the database answers, a settled response stays. -/
theorem response?_advance (hanswers : choice.dbFails = false) {response : Response}
    (hclosed : h.phase.response? = some response) :
    (advance app i choice shared h).2.phase.response? = some response := by
  unfold advance
  cases hphase : h.phase with
  | middleware | checkScript | createUrl | redirect | getStats =>
    rw [hphase] at hclosed
    cases hclosed
  | commit | rollback =>
    rw [hphase] at hclosed
    simp only [hanswers]
    exact hclosed
  | respond =>
    rw [hphase] at hclosed
    exact hclosed
  | done =>
    rw [hphase] at hclosed
    dsimp only
    rw [hphase]
    exact hclosed

theorem Leads.isSome_response? {next : Phase} (hleads : Leads app choice shared h next)
    (hsettled : h.phase.response?.isSome = true) : next.response?.isSome = true := by
  obtain ⟨response, hclosed⟩ := Option.isSome_iff_exists.mp hsettled
  rcases hleads.response?_of_closed hclosed with hnext | hnext
  · rw [hnext, Option.isSome_some]
  · rw [hnext, Option.isSome_some]

/-! ## Past the middleware -/

/-- Without a URL a request gets no further than the middleware. -/
def Handler.Entered (app : App) (h : Handler) : Prop :=
  h.request.hasUrl app = true ∨ h.phase = .middleware ∨
    h.phase.response? = some .internalServerError

theorem Handler.Entered.act {h : Handler} (hentered : h.Entered app) (i : ℕ) (action : Action)
    (shared : Shared) : (act app i action shared h).2.Entered app := by
  unfold Handler.Entered
  rw [act_request]
  cases action with
  | advance choice =>
    show _ ∨ (advance app i choice shared h).2.phase = _ ∨
      (advance app i choice shared h).2.phase.response? = _
    rcases hentered with hurl | hphase | hresponse
    · exact Or.inl hurl
    · rw [advance, hphase]
      rcases observabilityEntry_cases app shared h with ⟨-, hresult⟩ | ⟨hurl, -⟩
      · exact Or.inr (Or.inr (by dsimp only; rw [hresult]; rfl))
      · exact Or.inl hurl
    · rcases (advance_leads app i choice shared h).response?_of_closed hresponse with hsame | hsame
      · exact Or.inr (Or.inr hsame)
      · exact Or.inr (Or.inr hsame)
  | background choice =>
    show _ ∨ (recordClick i choice shared h).2.phase = _ ∨
      (recordClick i choice shared h).2.phase.response? = _
    rw [(recordClick_moves i choice shared h).same.2.1]
    exact hentered

theorem App.entered_run (app : App) (es : List Event) {i : ℕ} {h : Handler}
    (hi : (app.run es).procs[i]? = some h) : h.Entered app :=
  app.system.own_history (P := fun _ _ h => h.Entered app) (fun _ _ => Or.inr (Or.inl rfl))
    (fun _ i action _ _ hentered => hentered.act i action _) (fun _ _ _ _ _ hentered => hentered)
    es hi

/-! ## The phases of a body -/

theorem body_cases (call : Call) :
    (∃ payload point, call.body = .createUrl payload point) ∨
      (∃ shortCode, call = .redirect shortCode ∧ call.body = .redirect shortCode .getCachedUrl) ∨
      ∃ shortCode, call = .getStats shortCode ∧ call.body = .getStats shortCode .getUrl := by
  cases call with
  | createUrl payload =>
    refine Or.inl ?_
    unfold Call.body
    dsimp only
    split <;> exact ⟨_, _, rfl⟩
  | redirect shortCode => exact Or.inr (Or.inl ⟨shortCode, rfl, rfl⟩)
  | getStats shortCode => exact Or.inr (Or.inr ⟨shortCode, rfl, rfl⟩)

/-- The step of a request that creates a link, outside `create_url` and inside. -/
theorem advance_creation {payload : CreateUrlRequest} (hcons : h.Consistent app)
    (hcall : h.request.call = .createUrl payload) :
    (h.phase = .middleware ∧
        ((∃ nowMs, (advance app i choice shared h).2.phase = .checkScript .create nowMs) ∨
          (advance app i choice shared h).2.phase = .respond .internalServerError)) ∨
      (∃ routeClass nowMs, h.phase = .checkScript routeClass nowMs ∧
        ((advance app i choice shared h).2.phase = (Call.createUrl payload).body ∨
          ∃ result, (advance app i choice shared h).2.phase =
            .respond (tooManyRequests result))) ∨
      (∃ point, h.phase = .createUrl payload point ∧ point.Consistent app payload ∧
        advance app i choice shared h = createUrl app i choice shared h payload point) ∨
      ∃ response, h.phase.response? = some response ∧
        ((advance app i choice shared h).2.phase.response? = some response ∨
          (advance app i choice shared h).2.phase.response? = some .internalServerError) := by
  unfold Handler.Consistent at hcons
  rw [hcall] at hcons
  have hclosed : ∀ response, h.phase.response? = some response →
      ∃ response, h.phase.response? = some response ∧
        ((advance app i choice shared h).2.phase.response? = some response ∨
          (advance app i choice shared h).2.phase.response? = some .internalServerError) :=
    fun response hresponse => ⟨response, hresponse,
      (advance_leads app i choice shared h).response?_of_closed hresponse⟩
  cases hphase : h.phase with
  | middleware =>
    refine Or.inl ⟨rfl, ?_⟩
    rw [advance, hphase]
    dsimp only
    rcases observabilityEntry_cases app shared h with ⟨-, hresult⟩ | ⟨-, hresult⟩
    · rw [hresult]
      exact Or.inr rfl
    · rw [hresult, Handler.goto_phase, hcall]
      exact Or.inl ⟨_, rfl⟩
  | checkScript routeClass nowMs =>
    refine Or.inr (Or.inl ⟨routeClass, nowMs, rfl, ?_⟩)
    rw [advance, hphase]
    dsimp only
    rw [rateLimit]
    split
    · exact Or.inl (congrArg Call.body hcall)
    · exact Or.inr ⟨_, rfl⟩
  | createUrl payload' point =>
    rw [hphase] at hcons
    obtain ⟨hsame, hpoint⟩ := hcons
    cases hsame
    refine Or.inr (Or.inr (Or.inl ⟨point, rfl, hpoint, ?_⟩))
    rw [advance, hphase]
  | redirect shortCode point =>
    rw [hphase] at hcons
    cases hcons
  | getStats shortCode point =>
    rw [hphase] at hcons
    cases hcons
  | commit response | rollback response | respond response | done response =>
    rw [← hphase]
    exact Or.inr (Or.inr (Or.inr (hclosed response (by rw [hphase]; rfl))))

end Steps

/-! ## Which read leads to a phase -/

section Reads

variable {app : App} {choice : Choice} {shared : Shared} {h : Handler} {shortCode : String}

/-- The phases that hold what a query has answered. -/
def Phase.holdsAnswer : Phase → Bool
  | .redirect _ (.now _) | .getStats _ (.getRecentClicks _) | .getStats _ (.getTopReferrers _ _) =>
      true
  | _ => false

theorem holdsAnswer_body (call : Call) : call.body.holdsAnswer = false := by
  rcases body_cases call with ⟨_, _, hbody⟩ | ⟨_, -, hbody⟩ | ⟨_, -, hbody⟩ <;>
    · rw [hbody]
      rfl

theorem holdsAnswer_entry (nowMs : ℤ) (call : Call) : (call.entry nowMs).holdsAnswer = false := by
  cases call <;> rfl

theorem holdsAnswer_of_response? {phase : Phase} {response : Response}
    (hresponse : phase.response? = some response) : phase.holdsAnswer = false := by
  cases phase <;> first | rfl | cases hresponse

/-- Each answer is held right after its query. -/
theorem Leads.of_holdsAnswer {next : Phase} (hleads : Leads app choice shared h next)
    (hholds : next.holdsAnswer = true) :
    (∃ shortCode row, next = .redirect shortCode (.now row) ∧
        h.phase = .redirect shortCode .getUrl ∧
        choice.query (Repository.getUrl shortCode shared.db) = .ok row) ∨
      (∃ shortCode url, next = .getStats shortCode (.getRecentClicks url) ∧
        h.phase = .getStats shortCode .getUrl ∧
        choice.query (Repository.getUrl shortCode shared.db) = .ok (some url)) ∨
      ∃ shortCode url recent, next = .getStats shortCode (.getTopReferrers url recent) ∧
        h.phase = .getStats shortCode (.getRecentClicks url) ∧
        choice.query (Repository.getRecentClicks shortCode recentClicksLimit choice.clickOrder
          shared.db) = .ok recent := by
  cases hleads with
  | selects shortCode row hphase hquery => exact Or.inl ⟨shortCode, row, rfl, hphase, hquery⟩
  | readsUrl shortCode url hphase hquery =>
    exact Or.inr (Or.inl ⟨shortCode, url, rfl, hphase, hquery⟩)
  | readsClicks shortCode url recent hphase hquery =>
    exact Or.inr (Or.inr ⟨shortCode, url, recent, rfl, hphase, hquery⟩)
  | enters =>
    rw [holdsAnswer_entry] at hholds
    cases hholds
  | admitted =>
    rw [holdsAnswer_body] at hholds
    cases hholds
  | settlesCreate _ _ _ _ _ hnext => rcases hnext with rfl | rfl <;> cases hholds
  | closes _ _ _ _ hresponse =>
    rw [holdsAnswer_of_response? hresponse] at hholds
    cases hholds
  | unreadable | rejected | creates | hits | misses | selectFails | notFound | expired | fills
  | found | reports | statsFails => cases hholds

/-- Statistics begin with the row. -/
theorem Leads.of_getRecentClicks {url : Url}
    (hleads : Leads app choice shared h (.getStats shortCode (.getRecentClicks url))) :
    h.phase = .getStats shortCode .getUrl ∧
      choice.query (Repository.getUrl shortCode shared.db) = .ok (some url) := by
  rcases hleads.of_holdsAnswer rfl with ⟨_, _, hnext, -⟩ | ⟨_, _, hnext, hread⟩ |
    ⟨_, _, _, hnext, -⟩
  · cases hnext
  · cases hnext
    exact hread
  · cases hnext

/-- The recent clicks come second. -/
theorem Leads.of_getTopReferrers {url : Url} {recent : List ClickEvent}
    (hleads : Leads app choice shared h (.getStats shortCode (.getTopReferrers url recent))) :
    h.phase = .getStats shortCode (.getRecentClicks url) ∧
      choice.query (Repository.getRecentClicks shortCode recentClicksLimit choice.clickOrder
        shared.db) = .ok recent := by
  rcases hleads.of_holdsAnswer rfl with ⟨_, _, hnext, -⟩ | ⟨_, _, hnext, -⟩ |
    ⟨_, _, _, hnext, hread⟩
  · cases hnext
  · cases hnext
  · cases hnext
    exact hread

/-- The referrers come last, and the response is made of all three. -/
theorem Leads.of_stats {next : Phase} {body : StatsResponse}
    (hleads : Leads app choice shared h next) (hbody : next.response? = some (.stats body)) :
    h.phase.response? = some (.stats body) ∨
      ∃ shortCode url recent topReferrers,
        h.phase = .getStats shortCode (.getTopReferrers url recent) ∧
        choice.query (Repository.getTopReferrers shortCode topReferrersLimit choice.referrerOrder
          shared.db) = .ok topReferrers ∧
        body = statsResponse shortCode url recent topReferrers := by
  cases hleads with
  | reports shortCode url recent topReferrers hphase hquery =>
    cases hbody
    exact Or.inr ⟨shortCode, url, recent, topReferrers, hphase, hquery, rfl⟩
  | closes response response' _ hresponse hresponse' hsame =>
    rw [hresponse', Option.some.injEq] at hbody
    subst hbody
    rcases hsame with rfl | hsame
    · exact Or.inl hresponse
    · cases hsame
  | enters =>
    rw [response?_entry] at hbody
    cases hbody
  | admitted =>
    rw [response?_body] at hbody
    cases hbody
  | settlesCreate _ _ _ _ _ hnext hstatus =>
    rcases hnext with rfl | rfl <;> cases hbody <;> simp at hstatus
  | statsFails _ _ _ _ hstatus =>
    cases hbody
    simp at hstatus
  | unreadable | rejected | creates | hits | misses | selects | selectFails | notFound | expired
  | fills | found | readsUrl | readsClicks => cases hbody

end Reads

/-! ## Steps in a run -/

/-- The `n`-th event of a run is a step of request `i`, taken in a certain situation. -/
def StepAt (app : App) (es : List Event) (n i : ℕ) (p : Phase → Choice → Shared → Prop) : Prop :=
  ∃ choice h, es[n]? = some (.act i (.advance choice)) ∧
    (app.stateAt es n).procs[i]? = some h ∧ p h.phase choice (app.stateAt es n).shared

section StepAt

variable {app : App} {es : List Event} {n i : ℕ} {p : Phase → Choice → Shared → Prop}

theorem StepAt.lt (h : StepAt app es n i p) : n < es.length := by
  obtain ⟨choice, handler, hevent, -⟩ := h
  exact (List.getElem?_eq_some_iff.mp hevent).1

/-- The states of a run are states of every longer run. -/
theorem App.stateAt_concat (app : App) {es : List Event} {n : ℕ} (hn : n ≤ es.length) (e : Event) :
    app.stateAt (es ++ [e]) n = app.stateAt es n :=
  Run.stateAt_concat_of_le _ _ _ _ hn

/-- Steps of a run are steps of every longer run. -/
theorem StepAt.concat (h : StepAt app es n i p) (e : Event) : StepAt app (es ++ [e]) n i p := by
  have hlt := h.lt
  obtain ⟨choice, handler, hevent, hrest⟩ := h
  refine ⟨choice, handler, (List.getElem?_append_left hlt).trans hevent, ?_⟩
  rw [app.stateAt_concat hlt.le]
  exact hrest

/-- The step that a run is extended by. -/
theorem stepAt_concat {h : Handler} {choice : Choice} (hi : (app.run es).procs[i]? = some h)
    (hp : p h.phase choice (app.run es).shared) :
    StepAt app (es ++ [.act i (.advance choice)]) es.length i p := by
  refine ⟨choice, h, by simp, ?_⟩
  rw [app.stateAt_concat le_rfl, app.stateAt_length]
  exact ⟨hi, hp⟩

end StepAt

end UrlShortener
