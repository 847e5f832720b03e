import UrlShortener.System.Linearizable

/-!
# What a client was told stays true

A response tells its client something about a link: that it exists, where it leads, when it
expires, how often it has been used.  Requests that are in progress together may see the registry
in any order, but a request that arrives after a response was given sees at least what that
response told, whichever client sent it and whatever the cache holds.

## What is proved

`App.told_stays_true`.  By `App.servedAt_run` both responses come from a registry, and by
`App.registry_extends` the later registry has all that the earlier one had.
-/

set_option autoImplicit false

namespace UrlShortener

/-! ## What a response tells -/

/-- What a response to a call tells about a link and the number of its uses. -/
inductive Tells : Call → Response → Link → ℕ → Prop where
  | created (payload : CreateUrlRequest) (body : UrlResponse) :
      Tells (.createUrl payload) (.created body) body.toLink 0
  | conflict (payload : CreateUrlRequest) (link : Link) (response : Response) :
      response = customCodeConflict link.shortCode ∨ response = raceConflict link.shortCode →
      Tells (.createUrl payload) response link 0
  | found (link : Link) : Tells (.redirect link.shortCode) (.found link.longUrl) link 0
  | stats (link : Link) (body : StatsResponse) : body.shortCode = link.shortCode →
      Tells (.getStats link.shortCode) (.stats body) link body.clickCount

/-- A response to request `j` that respects a link and the number of its uses so far. -/
structure Respects (app : App) (es : List Event) (j : ℕ) (call : Call) (response : Response)
    (link : Link) (count : ℕ) : Prop where
  /-- A redirect leads where the link leads, until the link expires. -/
  redirect : call = .redirect link.shortCode →
    response = .found link.longUrl ∨ response.status = 429 ∨ response.status = 500 ∨
      response = redirectNotFound link.shortCode ∧ ∃ n < es.length,
        InProgress (app.stateAt es n) j ∧ ¬ link.Live (app.stateAt es n).shared.clock
  /-- Statistics find the link, and count no less. -/
  getStats : call = .getStats link.shortCode →
    response.status = 500 ∨ ∃ body, response = .stats body ∧ body.shortCode = link.shortCode ∧
      count ≤ body.clickCount
  /-- Nobody is given the code. -/
  created : ∀ body, response = .created body → body.shortCode ≠ link.shortCode
  /-- Who asks for the code is told that it is taken. -/
  customCode : ∀ payload, call = .createUrl payload → payload.customCode = some link.shortCode →
    response = customCodeConflict link.shortCode ∨ response = raceConflict link.shortCode ∨
      response.status = 429 ∨ response.status = 500

/-! ## The registry at two instants -/

/-- **The registry only grows.** -/
theorem App.registry_extends (app : App) (es : List Event) {m n : ℕ} (hmn : m ≤ n) :
    Registry.Extends (app.stateAt es m).shared.db.registry
      (app.stateAt es n).shared.db.registry := by
  obtain ⟨es', hes'⟩ : es.take m <+: es.take n := List.take_prefix_take_left hmn
  have happend : app.commits (es.take n) = app.commits (es.take m) ++
      app.system.trace (registryOps app) (fun _ _ => []) (app.run (es.take m)) es' := by
    rw [← hes']
    exact app.system.trace_append _ _ _ _ _
  have hlegal := app.registry_run (es.take n)
  rw [happend] at hlegal
  exact Registry.extends_of_run?_append (app.registry_run (es.take m)) hlegal

/-- A request that arrives after an instant is in progress after it. -/
theorem InProgress.le {app : App} {es : List Event} {m n j : ℕ}
    (h : InProgress (app.stateAt es n) j) (hj : (app.stateAt es m).procs.length ≤ j) : m ≤ n := by
  refine Nat.le_of_not_lt fun hlt => ?_
  obtain ⟨h', hj', -⟩ := h
  obtain ⟨h'', hj'', -⟩ := app.system.persists (K := fun _ => True)
    (fun _ _ _ _ _ _ => trivial) es hlt.le hj' trivial
  obtain ⟨hlt', -⟩ := List.getElem?_eq_some_iff.mp hj''
  exact absurd hlt' (not_lt.mpr hj)

section Serves

variable {app : App} {clock : ℤ} {readings : Set ℤ} {before after : Registry.State String Link}
  {call : Call} {response : Response}

/-- **A response tells what the registry holds.** -/
theorem Serves.tells (h : Serves app clock readings before after call response)
    (hcodes : ∀ shortCode link, before.entries shortCode = some link → link.shortCode = shortCode)
    (hextends : Registry.Extends before after)
    (hstatus : response.status ∈ [200, 201, 302, 409]) :
    ∃ link count, Tells call response link count ∧
      after.entries link.shortCode = some link ∧ count ≤ after.uses link.shortCode := by
  have hregistered : ∀ shortCode, (before.entries shortCode).isSome = true →
      ∃ link : Link, link.shortCode = shortCode ∧ after.entries shortCode = some link := by
    intro shortCode hentry
    obtain ⟨link, hlink⟩ := Option.isSome_iff_exists.mp hentry
    exact ⟨link, hcodes _ _ hlink, hextends.entries _ _ hlink⟩
  cases h with
  | created payload link now hallows hlongUrl hreading hexpires hstep =>
    obtain ⟨-, rfl⟩ := Registry.step?_register_eq_some.mp hstep
    exact ⟨_, 0, .created payload _, Function.update_self _ _ _, Nat.zero_le _⟩
  | conflict payload shortCode response hallows htaken hresponse =>
    obtain ⟨link, rfl, hentry⟩ := hregistered shortCode htaken
    exact ⟨link, 0, .conflict payload link response hresponse, hentry, Nat.zero_le _⟩
  | found shortCode link hentry hlive =>
    obtain rfl := hcodes _ _ hentry
    exact ⟨link, 0, .found link, hextends.entries _ _ hentry, Nat.zero_le _⟩
  | stats shortCode body hentry hcode hcount =>
    obtain ⟨link, rfl, hentry⟩ := hregistered shortCode hentry
    refine ⟨link, body.clickCount, .stats link body hcode, hentry, ?_⟩
    rw [hcount]
    exact hextends.uses _
  | saturated => simp [keyspaceSaturated, Response.status] at hstatus
  | redirectNotFound | statsNotFound | tooManyRequests | internalServerError => simp at hstatus

/-- **A response respects what the registry holds.** -/
theorem Serves.respects (h : Serves app clock readings before after call response) {link : Link}
    (hentry : before.entries link.shortCode = some link) {count : ℕ}
    (hcount : count ≤ before.uses link.shortCode) {es : List Event} {n j : ℕ} (hn : n < es.length)
    (hbusy : InProgress (app.stateAt es n) j) (hclock : (app.stateAt es n).shared.clock = clock) :
    Respects app es j call response link count := by
  constructor
  case redirect =>
    rintro rfl
    cases h with
    | found _ link' hentry' =>
      obtain rfl : link = link' := Option.some.inj (hentry.symm.trans hentry')
      exact Or.inl rfl
    | redirectNotFound _ hdead =>
      exact Or.inr (Or.inr (Or.inr ⟨rfl, n, hn, hbusy, hclock ▸ hdead link hentry⟩))
    | tooManyRequests => exact Or.inr (Or.inl rfl)
    | internalServerError => exact Or.inr (Or.inr (Or.inl rfl))
  case getStats =>
    rintro rfl
    cases h with
    | stats _ body _ hcode hcount' => exact Or.inr ⟨body, rfl, hcode, hcount'.symm ▸ hcount⟩
    | statsNotFound _ hnone => cases hentry.symm.trans hnone
    | tooManyRequests _ _ hcall => exact absurd rfl (hcall _)
    | internalServerError => exact Or.inl rfl
  case created =>
    rintro body rfl hcode
    cases h with
    | created payload link' now hallows hlongUrl hreading hexpires hstep =>
      obtain ⟨hfree, -⟩ := Registry.step?_register_eq_some.mp hstep
      have hcode' : link'.shortCode = link.shortCode := hcode
      rw [hcode', hentry] at hfree
      cases hfree
    | conflict _ _ _ _ _ hresponse => rcases hresponse with heq | heq <;> cases heq
  case customCode =>
    rintro payload rfl hcustom
    have hcode : ∀ shortCode, payload.Allows app shortCode → shortCode = link.shortCode := by
      intro shortCode hallows
      unfold CreateUrlRequest.Allows at hallows
      rwa [hcustom] at hallows
    cases h with
    | created _ link' now hallows hlongUrl hreading hexpires hstep =>
      obtain ⟨hfree, -⟩ := Registry.step?_register_eq_some.mp hstep
      rw [hcode _ hallows, hentry] at hfree
      cases hfree
    | conflict _ shortCode _ hallows _ hresponse =>
      obtain rfl := hcode _ hallows
      rcases hresponse with rfl | rfl
      · exact Or.inl rfl
      · exact Or.inr (Or.inl rfl)
    | saturated _ _ hgenerated => cases hgenerated.symm.trans hcustom
    | tooManyRequests => exact Or.inr (Or.inr (Or.inl rfl))
    | internalServerError => exact Or.inr (Or.inr (Or.inr rfl))

end Serves

/-- **What a response has told, the registry holds.** -/
theorem App.told_holds (app : App) (es : List Event) {i : ℕ} {h : Handler} {response : Response}
    (hi : (app.run es).procs[i]? = some h) (hdone : h.phase = .done response)
    (hstatus : response.status ∈ [200, 201, 302, 409]) :
    ∃ link count, Tells h.request.call response link count ∧
      (app.run es).shared.db.registry.entries link.shortCode = some link ∧
      count ≤ (app.run es).shared.db.registry.uses link.shortCode := by
  obtain ⟨n, ⟨hlt, -, hserves⟩, -⟩ := app.servedAt_run es hi hdone
  have hcodes : ∀ shortCode link,
      (app.stateAt es n).shared.db.registry.entries shortCode = some link →
        link.shortCode = shortCode := by
    intro shortCode link hentry
    rw [Database.registry_entries] at hentry
    have hcode := List.find?_some hentry
    exact of_decide_eq_true hcode
  obtain ⟨link, count, htells, hentry, hcount⟩ :=
    hserves.tells hcodes (app.registry_extends es n.le_succ) hstatus
  have hgrown := app.registry_extends es (Nat.succ_le_of_lt hlt)
  rw [app.stateAt_length] at hgrown
  exact ⟨link, count, htells, hgrown.entries _ _ hentry, hcount.trans (hgrown.uses _)⟩

/-- **What a client was told stays true.**  Request `i` has finished by the instant `m`, and the
link its response tells about is the one that the registry holds then.  Request `j` arrives after
it. -/
theorem App.told_stays_true (app : App) (es : List Event) (m i : ℕ) (h : Handler)
    (response : Response) (hi : (app.stateAt es m).procs[i]? = some h)
    (hdone : h.phase = .done response) (hstatus : response.status ∈ [200, 201, 302, 409]) :
    ∃ link count, Tells h.request.call response link count ∧
      (app.stateAt es m).shared.db.registry.entries link.shortCode = some link ∧
      ∀ j h' response', (app.stateAt es m).procs.length ≤ j → (app.run es).procs[j]? = some h' →
        h'.phase = .done response' → Respects app es j h'.request.call response' link count := by
  obtain ⟨link, count, htells, hentry, hcount⟩ := app.told_holds (es.take m) hi hdone hstatus
  refine ⟨link, count, htells, hentry, fun j h' response' hj hj' hdone' => ?_⟩
  obtain ⟨n, ⟨hlt, hbusy, hserves⟩, -⟩ := app.servedAt_run es hj' hdone'
  have hgrown := app.registry_extends es (hbusy.le hj)
  exact hserves.respects (hgrown.entries _ _ hentry) (hcount.trans (hgrown.uses _)) hlt hbusy rfl

/-- A creation, and two redirects after it. -/
theorem App.told_stays_true_backfill :
    ∃ link count, Tells (.createUrl abcdRequest)
        (.created ⟨"abcd", "http://localhost:8000/abcd", "https://example.com/", none⟩) link count ∧
      (App.sample.stateAt backfillRun 7).shared.db.registry.entries link.shortCode = some link ∧
      ∀ j h' response', 1 ≤ j → (App.sample.run backfillRun).procs[j]? = some h' →
        h'.phase = .done response' →
          Respects App.sample backfillRun j h'.request.call response' link count :=
  App.sample.told_stays_true backfillRun 7 0 _ _ rfl rfl (by decide)

end UrlShortener
