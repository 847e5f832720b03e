import UrlShortener.Core.Tenants
import UrlShortener.System.Responses

/-!
# The cached redirect refines the plain lookup

The plain lookup reads the committed table and the clock at one instant.  The redirect handler
reads the cache, the row and the clock at three instants, and back-fills the cache at a fourth,
while other requests create links, record clicks and fill the same cache.

## The instant

* On a cache hit it is the instant of the `GETEX`.
* Without a row it is the instant of the `SELECT`.
* With a row it is the instant of the clock reading.  The row was read earlier, but a committed
  link never changes (`Guarantee.links`).

## What is proved

`Coherent` is the cache invariant: a cached URL is that of a committed link that never expires.
Such a link resolves in the same way at every later instant, which is why no deadline, eviction or
lost reply can make a hit wrong.  `App.redirect_refines_lookup` is the refinement.
-/

set_option autoImplicit false

namespace UrlShortener

/-! ## The plain lookup -/

/-- The destination of a code according to the committed table and the clock. -/
def plainLookup (shared : Shared) (shortCode : String) : Option String :=
  match shared.db.find shortCode with
  | none => none
  | some url =>
      match url.expiresAt with
      | none => some url.longUrl
      | some expiresAt => if shared.clock < expiresAt then some url.longUrl else none

/-- The response that the plain lookup calls for. -/
def plainResponse (shared : Shared) (shortCode : String) : Response :=
  match plainLookup shared shortCode with
  | some longUrl => .found longUrl
  | none => redirectNotFound shortCode

theorem plainResponse_of_none {shared : Shared} {shortCode : String}
    (h : shared.db.find shortCode = none) :
    plainResponse shared shortCode = redirectNotFound shortCode := by
  rw [plainResponse, plainLookup, h]

theorem plainResponse_of_expired {shared : Shared} {shortCode : String} {url : Url}
    (h : shared.db.find shortCode = some url)
    (hexpired : Repository.isExpired url shared.clock = true) :
    plainResponse shared shortCode = redirectNotFound shortCode := by
  rw [plainResponse, plainLookup, h]
  dsimp only
  unfold Repository.isExpired at hexpired
  cases hexpires : url.expiresAt with
  | none => rw [hexpires] at hexpired; cases hexpired
  | some expiresAt =>
    rw [hexpires] at hexpired
    have hle : expiresAt ≤ shared.clock := of_decide_eq_true hexpired
    dsimp only
    rw [if_neg (by omega)]

theorem plainResponse_of_live {shared : Shared} {shortCode : String} {url : Url}
    (h : shared.db.find shortCode = some url)
    (hlive : ¬ Repository.isExpired url shared.clock = true) :
    plainResponse shared shortCode = .found url.longUrl := by
  rw [plainResponse, plainLookup, h]
  dsimp only
  unfold Repository.isExpired at hlive
  cases hexpires : url.expiresAt with
  | none => rfl
  | some expiresAt =>
    rw [hexpires] at hlive
    have hlt : ¬ expiresAt ≤ shared.clock := fun hle => hlive (decide_eq_true hle)
    dsimp only
    rw [if_pos (by omega)]

/-- The expiry check reads nothing but the link. -/
theorem isExpired_congr {u u' : Url} (h : u'.link = u.link) (now : ℤ) :
    Repository.isExpired u' now = Repository.isExpired u now := by
  unfold Repository.isExpired
  rw [Url.expiresAt_eq_of_link h]

/-! ## The cache invariant -/

/-- A code resolves to a URL for good: its committed link never expires. -/
def Resolves (db : Database) (shortCode longUrl : String) : Prop :=
  ∃ url, db.find shortCode = some url ∧ url.expiresAt = none ∧ url.longUrl = longUrl

/-- Every cached URL is the one its code resolves to for good. -/
def Coherent (shared : Shared) : Prop :=
  ∀ shortCode longUrl deadline,
    shared.redis (UrlCache.key shortCode) = some ⟨.string longUrl, deadline⟩ →
    Resolves shared.db shortCode longUrl

theorem Resolves.mono {db db' : Database} (h : db.LinksStay db') {shortCode longUrl : String}
    (hr : Resolves db shortCode longUrl) : Resolves db' shortCode longUrl := by
  obtain ⟨url, hurl, hexpires, rfl⟩ := hr
  obtain ⟨url', hurl', hlink⟩ := h _ _ hurl
  exact ⟨url', hurl', (Url.expiresAt_eq_of_link hlink).trans hexpires,
    Url.longUrl_eq_of_link hlink⟩

theorem Resolves.plainResponse {shared : Shared} {shortCode longUrl : String}
    (h : Resolves shared.db shortCode longUrl) :
    plainResponse shared shortCode = .found longUrl := by
  obtain ⟨url, hurl, hexpires, rfl⟩ := h
  apply plainResponse_of_live hurl
  unfold Repository.isExpired
  rw [hexpires]
  exact Bool.false_ne_true

/-- A database in which links stay keeps the cache coherent. -/
theorem Coherent.mono {shared shared' : Shared} (h : Coherent shared)
    (hredis : shared'.redis = shared.redis) (hlinks : shared.db.LinksStay shared'.db) :
    Coherent shared' := by
  intro shortCode longUrl deadline hentry
  rw [hredis] at hentry
  exact (h _ _ _ hentry).mono hlinks

/-- Writing under one key keeps the cache coherent if what is written there resolves. -/
theorem Coherent.write {shared shared' : Shared} (h : Coherent shared) {key : String}
    {u : Keyspace.Update RedisValue} (hdb : shared'.db = shared.db)
    (hredis : shared'.redis = Keyspace.write shared.redis key u)
    (hput : ∀ shortCode longUrl deadline, key = UrlCache.key shortCode →
      u = .put (.string longUrl) deadline → Resolves shared.db shortCode longUrl) :
    Coherent shared' := by
  intro shortCode longUrl deadline hentry
  rw [hredis] at hentry
  rw [hdb]
  by_cases hkey : UrlCache.key shortCode = key
  · rw [hkey] at hentry
    cases u with
    | keep => exact h _ _ deadline (hkey ▸ hentry)
    | erase => simp [Keyspace.write] at hentry
    | put v d =>
      simp only [Keyspace.write, Function.update_self, Option.some.injEq,
        Keyspace.Entry.mk.injEq] at hentry
      exact hput shortCode longUrl d hkey.symm (by rw [hentry.1])
  · rw [Keyspace.write_of_ne _ hkey] at hentry
    exact h _ _ _ hentry

/-- A Redis call keeps the cache coherent if what it writes resolves. -/
theorem Coherent.redisCall {shared : Shared} (h : Coherent shared) {R : Type}
    (command : Keyspace.Command String RedisValue (R × List Metric))
    (hput : ∀ shortCode longUrl deadline, command.key = UrlCache.key shortCode →
      (command.act (Keyspace.read shared.redis shared.redisTime command.key)).2 =
        .put (.string longUrl) deadline → Resolves shared.db shortCode longUrl) :
    Coherent (shared.redisCall command).2 :=
  h.write rfl rfl hput

/-- **A hit resolves.** -/
theorem Coherent.resolves_of_hit {shared : Shared} (h : Coherent shared) {settings : Settings}
    {fault : Fault} {shortCode longUrl : String}
    (hhit : (shared.redisCall
      (UrlCache.getCachedUrl settings shared.redisTime fault shortCode)).1 = some longUrl) :
    Resolves shared.db shortCode longUrl := by
  have hread := UrlCache.getCachedUrl_answer hhit
  obtain ⟨deadline, hentry⟩ := Keyspace.exists_entry_of_read hread
  exact h _ _ _ hentry

/-- A read writes back what it found. -/
theorem Coherent.getCachedUrl {shared : Shared} (h : Coherent shared) (settings : Settings)
    (fault : Fault) (shortCode : String) :
    Coherent (shared.redisCall
      (UrlCache.getCachedUrl settings shared.redisTime fault shortCode)).2 := by
  apply h.redisCall
  intro shortCode' longUrl deadline hkey hupdate
  obtain rfl : shortCode = shortCode' := UrlCache.key_injective hkey
  rcases UrlCache.getCachedUrl_update settings shared.redisTime fault shortCode
    (Keyspace.read shared.redis shared.redisTime (UrlCache.key shortCode)) with hkeep | hput
  · rw [UrlCache.getCachedUrl_key, hkeep] at hupdate
    cases hupdate
  · obtain ⟨s, d, hread, hput⟩ := hput
    rw [UrlCache.getCachedUrl_key, hput] at hupdate
    cases hupdate
    obtain ⟨deadline', hentry⟩ := Keyspace.exists_entry_of_read hread
    exact h _ _ _ hentry

/-- A back-fill with a URL that resolves. -/
theorem Coherent.setCachedUrl {shared : Shared} (h : Coherent shared) (settings : Settings)
    (fault : Fault) {shortCode longUrl : String} (hr : Resolves shared.db shortCode longUrl) :
    Coherent (shared.redisCall
      (UrlCache.setCachedUrl settings shared.redisTime fault shortCode longUrl none)).2 := by
  apply h.redisCall
  intro shortCode' longUrl' deadline hkey hupdate
  obtain rfl : shortCode = shortCode' := UrlCache.key_injective hkey
  rcases UrlCache.setCachedUrl_update settings shared.redisTime fault shortCode longUrl none
    (Keyspace.read shared.redis shared.redisTime (UrlCache.key shortCode)) with hkeep | ⟨d, hput⟩
  · rw [UrlCache.setCachedUrl_key, hkeep] at hupdate
    cases hupdate
  · rw [UrlCache.setCachedUrl_key, hput] at hupdate
    cases hupdate
    exact hr

/-- A rate-limit check works under a key of another shape. -/
theorem Coherent.check {shared : Shared} (h : Coherent shared) (settings : Settings) (nowMs : ℤ)
    (fault : Fault) (clientId : String) (routeClass : RouteClass) :
    Coherent (shared.redisCall
      (RateLimiter.check settings shared.redisTime nowMs fault clientId routeClass)).2 := by
  apply h.redisCall
  intro shortCode longUrl deadline hkey
  exact absurd hkey.symm (UrlCache.key_ne_rateLimiterKey _ _ _)

/-! ## What a redirect knows -/

/-- Request `i` is being processed. -/
def InProgress (w : Interleaving.World Shared Handler) (i : ℕ) : Prop :=
  ∃ h, w.procs[i]? = some h ∧ ∀ response, h.phase ≠ .done response

/-- A request whose response is open is not finished. -/
theorem Phase.ne_done_of_response? {phase : Phase} (hopen : phase.response? = none)
    (response : Response) : phase ≠ .done response := by
  rintro rfl
  cases hopen

/-- While request `i` was being processed, there was an instant at which the plain lookup called
for a response. -/
def Witnessed (app : App) (es : List Event) (i : ℕ) (shortCode : String) (response : Response) :
    Prop :=
  Run.Once app.system.step ⟨.initial, []⟩ es fun w =>
    InProgress w i ∧ plainResponse w.shared shortCode = response

/-- What a redirect knows at each of its operations. -/
def RedirectFacts (app : App) (es : List Event) (i : ℕ) (shared : Shared) (shortCode : String) :
    Phase → Prop
  | .redirect _ (.now none) => Witnessed app es i shortCode (redirectNotFound shortCode)
  | .redirect _ (.now (some url)) =>
      ∃ url', shared.db.find shortCode = some url' ∧ url'.link = url.link
  | .redirect _ (.setCachedUrl longUrl) =>
      Witnessed app es i shortCode (.found longUrl) ∧ Resolves shared.db shortCode longUrl
  | .commit response | .rollback response | .respond response | .done response =>
      response.status = 302 ∨ response.status = 404 → Witnessed app es i shortCode response
  | _ => True

theorem RedirectFacts.of_status {app : App} {es : List Event} {i : ℕ} {shortCode : String}
    {response : Response} (h302 : response.status ≠ 302) (h404 : response.status ≠ 404) :
    response.status = 302 ∨ response.status = 404 → Witnessed app es i shortCode response :=
  fun h => h.elim (fun h => absurd h h302) fun h => absurd h h404

/-- What a redirect knows survives what others do. -/
theorem RedirectFacts.stable {app : App} {es : List Event} {i : ℕ} {shared shared' : Shared}
    {shortCode : String} {phase : Phase} (h : RedirectFacts app es i shared shortCode phase)
    (hlinks : shared.db.LinksStay shared'.db) (e : Event) :
    RedirectFacts app (es ++ [e]) i shared' shortCode phase := by
  unfold RedirectFacts at h ⊢
  split
  · exact h.concat e
  · obtain ⟨url', hurl', hlink⟩ := h
    obtain ⟨url'', hurl'', hlink'⟩ := hlinks _ _ hurl'
    exact ⟨url'', hurl'', hlink'.trans hlink⟩
  · exact ⟨h.1.concat e, h.2.mono hlinks⟩
  · exact fun hs => (h hs).concat e
  · exact fun hs => (h hs).concat e
  · exact fun hs => (h hs).concat e
  · exact fun hs => (h hs).concat e
  · trivial

/-! ## One step of a redirect -/

section Step

variable {app : App} {es : List Event} {i : ℕ} {h : Handler} {shortCode : String}

/-- The plain lookup at the instant of a step is witnessed after the step. -/
theorem witnessed_now (hi : (app.run es).procs[i]? = some h)
    (hphase : ∀ response, h.phase ≠ .done response) {response : Response}
    (hplain : plainResponse (app.run es).shared shortCode = response) (e : Event) :
    Witnessed app (es ++ [e]) i shortCode response :=
  Run.once_concat (P := fun w => InProgress w i ∧ plainResponse w.shared shortCode = response)
    ⟨⟨h, hi, hphase⟩, hplain⟩ e

/-- **Each operation of a redirect keeps what the redirect knows**, and keeps the cache
coherent. -/
theorem redirectFacts_redirect (hi : (app.run es).procs[i]? = some h)
    (hcoherent : Coherent (app.run es).shared) {point : RedirectPoint}
    (hphase : h.phase = .redirect shortCode point)
    (hfacts : RedirectFacts app es i (app.run es).shared shortCode h.phase) (choice : Choice)
    (e : Event) :
    Coherent (redirect app choice (app.run es).shared h shortCode point).1 ∧
      RedirectFacts app (es ++ [e]) i (redirect app choice (app.run es).shared h shortCode point).1
        shortCode (redirect app choice (app.run es).shared h shortCode point).2.phase := by
  have hbusy : ∀ response, h.phase ≠ .done response :=
    Phase.ne_done_of_response? (by rw [hphase]; rfl)
  have hwf := app.wf_run es
  rw [hphase] at hfacts
  obtain ⟨shared', h', hsteps, hresult⟩ := redirect_steps point
  rw [hresult]
  cases hsteps with
  | hits longUrl hhit =>
    exact ⟨hcoherent.getCachedUrl app.settings choice.fault shortCode, fun _ =>
      witnessed_now hi hbusy (hcoherent.resolves_of_hit hhit).plainResponse e⟩
  | misses => exact ⟨hcoherent.getCachedUrl app.settings choice.fault shortCode, trivial⟩
  | selectFails => exact ⟨hcoherent, RedirectFacts.of_status (by simp) (by simp)⟩
  | selects row hquery =>
    refine ⟨hcoherent, ?_⟩
    have hget := Choice.eq_of_query hquery (by simp)
    rw [Repository.getUrl_eq hwf] at hget
    split at hget
    · cases hget
      cases hfind : (app.run es).shared.db.find shortCode with
      | none => exact witnessed_now hi hbusy (plainResponse_of_none hfind) e
      | some url => exact ⟨url, hfind, rfl⟩
    · cases hget
  | notFound =>
    have hwitnessed : Witnessed app es i shortCode (redirectNotFound shortCode) := hfacts
    exact ⟨hcoherent, fun _ => hwitnessed.concat e⟩
  | expired url hexpired =>
    obtain ⟨url', hurl', hlink⟩ := hfacts
    rw [← isExpired_congr hlink] at hexpired
    exact ⟨hcoherent, fun _ => witnessed_now hi hbusy (plainResponse_of_expired hurl' hexpired) e⟩
  | fills url hlive hforever =>
    obtain ⟨url', hurl', hlink⟩ := hfacts
    rw [← isExpired_congr hlink] at hlive
    have hplain := plainResponse_of_live hurl' hlive
    rw [Url.longUrl_eq_of_link hlink] at hplain
    refine ⟨hcoherent, witnessed_now hi hbusy hplain e, url', hurl', ?_,
      Url.longUrl_eq_of_link hlink⟩
    rw [Url.expiresAt_eq_of_link hlink, hforever]
  | finds url hlive =>
    obtain ⟨url', hurl', hlink⟩ := hfacts
    rw [← isExpired_congr hlink] at hlive
    have hplain := plainResponse_of_live hurl' hlive
    rw [Url.longUrl_eq_of_link hlink] at hplain
    exact ⟨hcoherent, fun _ => witnessed_now hi hbusy hplain e⟩
  | filled longUrl =>
    obtain ⟨hwitnessed, hresolves⟩ := hfacts
    exact ⟨hcoherent.setCachedUrl app.settings choice.fault hresolves,
      fun _ => hwitnessed.concat e⟩

end Step

/-! ## Every action of every request -/

/-- Only the rate limiter and the redirect talk to Redis. -/
theorem createUrl_redis (app : App) (i : ℕ) (choice : Choice) (shared : Shared) (h : Handler)
    (payload : CreateUrlRequest) (point : CreatePoint) :
    (createUrl app i choice shared h payload point).1.redis = shared.redis := by
  obtain ⟨db, hshared⟩ := createUrl_frame app i choice shared h payload point
  rw [hshared]

theorem getStats_redis (choice : Choice) (shared : Shared) (h : Handler) (shortCode : String)
    (point : StatsPoint) :
    (getStats choice shared h shortCode point).1.redis = shared.redis := by
  rw [getStats_frame]

theorem recordClick_redis (i : ℕ) (choice : Choice) (shared : Shared) (h : Handler) :
    (recordClick i choice shared h).1.redis = shared.redis := by
  obtain ⟨db, hshared⟩ := recordClick_frame i choice shared h
  rw [hshared]

/-- **Every step of a handler keeps the cache coherent and what its redirect knows.** -/
theorem redirectFacts_advance {app : App} {es : List Event} {i : ℕ} {h : Handler}
    (hi : (app.run es).procs[i]? = some h) (hcoherent : Coherent (app.run es).shared)
    (hfacts : ∀ shortCode, h.request.call = .redirect shortCode →
      RedirectFacts app es i (app.run es).shared shortCode h.phase) (choice : Choice) (e : Event) :
    Coherent (advance app i choice (app.run es).shared h).1 ∧
      ∀ shortCode, h.request.call = .redirect shortCode →
        RedirectFacts app (es ++ [e]) i (advance app i choice (app.run es).shared h).1 shortCode
          (advance app i choice (app.run es).shared h).2.phase := by
  have hcons := app.consistent_run es hi
  have hlinks := (act_wf_guarantee app i (.advance choice) h (app.wf_run es)).2.links
  have hkeep : (advance app i choice (app.run es).shared h).1.redis = (app.run es).shared.redis →
      Coherent (advance app i choice (app.run es).shared h).1 :=
    fun hredis => hcoherent.mono hredis hlinks
  unfold Handler.Consistent at hcons
  revert hlinks hkeep
  unfold act
  dsimp only
  unfold advance
  split
  · intro _ hkeep
    refine ⟨hkeep (by rw [observabilityEntry_fst]), fun shortCode hcall => ?_⟩
    rcases observabilityEntry_cases app (app.run es).shared h with ⟨-, hresult⟩ | ⟨-, hresult⟩
    · rw [hresult]
      exact RedirectFacts.of_status (by simp) (by simp)
    · rw [hresult, Handler.goto_phase, hcall]
      trivial
  · intro _ _
    unfold rateLimit
    dsimp only
    split
    · refine ⟨hcoherent.check _ _ _ _ _, fun shortCode hcall => ?_⟩
      rw [Handler.goto_phase, hcall]
      trivial
    · exact ⟨hcoherent.check _ _ _ _ _,
        fun _ _ => RedirectFacts.of_status (by simp) (by simp)⟩
  · rename_i payload point hphase
    intro _ hkeep
    rw [hphase] at hcons
    refine ⟨hkeep (createUrl_redis _ _ _ _ _ _ _), fun shortCode hcall => ?_⟩
    rw [hcons.1] at hcall
    cases hcall
  · rename_i shortCode point hphase
    intro _ _
    rw [hphase] at hcons
    have hcall : h.request.call = .redirect shortCode := hcons
    obtain ⟨hcoherent', hfacts'⟩ :=
      redirectFacts_redirect hi hcoherent hphase (hfacts _ hcall) choice e
    refine ⟨hcoherent', fun shortCode' hcall' => ?_⟩
    rw [hcall] at hcall'
    cases hcall'
    exact hfacts'
  · rename_i shortCode point hphase
    intro _ hkeep
    rw [hphase] at hcons
    refine ⟨hkeep (getStats_redis _ _ _ _ _), fun shortCode hcall => ?_⟩
    rw [show h.request.call = _ from hcons] at hcall
    cases hcall
  · rename_i response hphase
    rw [hphase] at hfacts
    split
    · intro _ hkeep
      exact ⟨hkeep rfl, fun _ _ => RedirectFacts.of_status (by simp) (by simp)⟩
    · intro hlinks hkeep
      exact ⟨hkeep rfl, fun shortCode hcall => (hfacts shortCode hcall).stable hlinks e⟩
  · rename_i response hphase
    rw [hphase] at hfacts
    intro hlinks hkeep
    refine ⟨hkeep rfl, fun shortCode hcall => ?_⟩
    cases choice.dbFails with
    | true => exact RedirectFacts.of_status (by simp) (by simp)
    | false => exact (hfacts shortCode hcall).stable hlinks e
  · rename_i response hphase
    rw [hphase] at hfacts
    intro hlinks hkeep
    exact ⟨hkeep rfl, fun shortCode hcall => (hfacts shortCode hcall).stable hlinks e⟩
  · intro hlinks hkeep
    exact ⟨hkeep rfl, fun shortCode hcall => (hfacts shortCode hcall).stable hlinks e⟩

theorem redirectFacts_act {app : App} {es : List Event} {i : ℕ} {h : Handler}
    (hi : (app.run es).procs[i]? = some h) (hcoherent : Coherent (app.run es).shared)
    (hfacts : ∀ shortCode, h.request.call = .redirect shortCode →
      RedirectFacts app es i (app.run es).shared shortCode h.phase) (action : Action) (e : Event) :
    Coherent (act app i action (app.run es).shared h).1 ∧
      ∀ shortCode, h.request.call = .redirect shortCode →
        RedirectFacts app (es ++ [e]) i (act app i action (app.run es).shared h).1 shortCode
          (act app i action (app.run es).shared h).2.phase := by
  cases action with
  | advance choice => exact redirectFacts_advance hi hcoherent hfacts choice e
  | background choice =>
    have hlinks := (act_wf_guarantee app i (.background choice) h (app.wf_run es)).2.links
    refine ⟨hcoherent.mono (recordClick_redis _ _ _ _) hlinks, fun shortCode hcall => ?_⟩
    show RedirectFacts app _ i (act app i (.background choice) (app.run es).shared h).1 shortCode
      (recordClick i choice (app.run es).shared h).2.phase
    rw [(recordClick_moves i choice (app.run es).shared h).same.2.1]
    exact (hfacts shortCode hcall).stable hlinks e

theorem Coherent.env {shared : Shared} (h : Coherent shared) (e : Env) :
    Coherent (e.apply shared) := by
  cases e with
  | tick clock => exact h
  | redisTick elapsedMs => exact h
  | evict key =>
    exact h.write (u := .erase) rfl rfl fun _ _ _ _ hput => by cases hput

/-- **The cache is coherent throughout every run, and every redirect knows what it should.** -/
theorem App.redirectFacts_run (app : App) (es : List Event) :
    Coherent (app.run es).shared ∧
      ∀ i h, (app.run es).procs[i]? = some h → ∀ shortCode,
        h.request.call = .redirect shortCode →
        RedirectFacts app es i (app.run es).shared shortCode h.phase := by
  have hrun := app.system.rely_guarantee (s := .initial)
    (S := fun shared => shared.db.Wf ∧ Coherent shared)
    (P := fun es i shared h => ∀ shortCode, h.request.call = .redirect shortCode →
      RedirectFacts app es i shared shortCode h.phase)
    (G := Guarantee) (Q := fun _ => True)
    ⟨Database.wf_initial, fun _ _ _ hentry => by cases hentry⟩ guarantee_refl ?_ ?_ ?_ ?_ es
    fun _ _ => trivial
  · exact ⟨hrun.1.2, hrun.2⟩
  · exact fun _ _ _ _ _ => trivial
  · intro es i action h _ hi ⟨hwf, hcoherent⟩ hfacts
    obtain ⟨hwf', hguarantee⟩ := act_wf_guarantee app i action h hwf
    obtain ⟨hcoherent', hfacts'⟩ := redirectFacts_act hi hcoherent hfacts action (.act i action)
    refine ⟨⟨hwf', hcoherent'⟩, hguarantee, fun shortCode hcall => hfacts' shortCode ?_⟩
    exact (congrArg Request.call (act_request app i action (app.run es).shared h)).symm.trans hcall
  · intro e shared ⟨hwf, hcoherent⟩
    obtain ⟨hwf', hguarantee⟩ := env_wf_guarantee e hwf
    exact ⟨⟨hwf', hcoherent.env e⟩, hguarantee⟩
  · intro es e i j shared' h _ _ _ hfacts hguarantee shortCode hcall
    exact (hfacts shortCode hcall).stable hguarantee.links e

/-- **The cached redirect refines the plain lookup.**  Whatever the interleaving, the evictions and
the Redis failures, for a redirect that finished with `302` or `404` there is an instant during its
processing at which the plain lookup on the committed table and the clock called for that very
response. -/
theorem App.redirect_refines_lookup (app : App) (es : List Event) (i : ℕ) (h : Handler)
    (shortCode : String) (response : Response) (hi : (app.run es).procs[i]? = some h)
    (hcall : h.request.call = .redirect shortCode) (hdone : h.phase = .done response)
    (hstatus : response.status = 302 ∨ response.status = 404) :
    ∃ m < es.length, InProgress (app.stateAt es m) i ∧
      plainResponse (app.stateAt es m).shared shortCode = response := by
  have hfacts := (app.redirectFacts_run es).2 i h hi shortCode hcall
  rw [hdone] at hfacts
  exact hfacts hstatus

/-- A creation, a redirect that back-fills the cache, and one that the cache answers. -/
def backfillRun : List Event :=
  admitted 0 (Call.createUrl abcdRequest).plain ++ steps 0 4 .calm ++
    admitted 1 (Call.redirect "abcd").plain ++ steps 1 6 .calm ++
    admitted 2 (Call.redirect "abcd").plain ++ steps 2 2 .calm

theorem App.redirect_refines_lookup_backfill :
    ∃ m < backfillRun.length, InProgress (App.sample.stateAt backfillRun m) 2 ∧
      plainResponse (App.sample.stateAt backfillRun m).shared "abcd" =
        .found "https://example.com/" :=
  App.sample.redirect_refines_lookup backfillRun 2 _ "abcd" _ rfl rfl rfl (Or.inl rfl)

end UrlShortener
