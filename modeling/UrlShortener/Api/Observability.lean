import UrlShortener.Api.Dependencies
import UrlShortener.Api.Routing
import UrlShortener.Library.Run
import Mathlib.Data.List.TakeWhile
import Mathlib.Data.Set.Finite.Basic
import Mathlib.Data.Finset.Basic

/-!
# The observability middleware

The middleware times every request and observes the duration in `http_request_duration_seconds`,
under the route, the method and the status.  For the route it asks the scope which route object
was matched and takes its template; when there is none it falls back to the path of the URL.  It
reads that path before it passes the request on, so where the URL cannot be read nothing is
observed.

FastAPI's own routes set the route object, by a full match or by the path alone.  The
documentation routes are plain ones and do not, and a request that no route matches has no route
object either.  What is left to them is a URL in which the client has written the host, the path and
the query.

## What is proved

* `observed_ne_zero_iff`: the series of the histogram are those of the requests, whatever the run.
* `routeLabels_bounded_iff`: the labels stay within the registered paths exactly when every request
  has a route object or the URL of a registered path; and for any class of requests there is some
  finite set of labels exactly when those without a route object have finitely many URL paths.
-/

set_option autoImplicit false

namespace UrlShortener

/-- The series of the histogram. -/
structure RequestSeries where
  route : String
  method : String
  status : String
  deriving DecidableEq, Repr

/-- How often each series was observed. -/
abbrev RequestDurations := RequestSeries → ℕ

/-- A request as the middleware sees it: the method, what its URL is put together from, and the
status of the response, or `none` if an exception comes up from below. -/
structure Exchange where
  method : String
  scope : Scope
  response : Option ℕ
  deriving DecidableEq, Repr

/-- `route.path`.  The one parameter of the application is called `short_code`. -/
def PathTemplate.text : PathTemplate → String
  | .fixed text => text
  | .param before after => before ++ "{short_code}" ++ after

/-- Whether an endpoint belongs to a FastAPI route.  The documentation is served by plain ones. -/
def Endpoint.isApiRoute : Endpoint → Bool
  | .openapi | .swaggerUiHtml | .swaggerUiRedirect | .redocHtml => false
  | .metrics | .health | .ready | .createUrl | .getStats | .redirect => true

/-- The route a request is matched with: the first full match, or else the first one by path
alone. -/
def matchedRoute (routes : List Route) (method path : String) : Option Route :=
  (routes.find? fun r => (r.handle? method path).isSome).or
    (routes.find? fun r => (r.path.matchPath path).isSome)

/-- `scope["route"]`. -/
def scopeRoute (routes : List Route) (method path : String) : Option Route :=
  (matchedRoute routes method path).filter fun r => r.endpoint.isApiRoute

/-- The label of a request, if its URL can be read. -/
def routeLabel (app : App) (routes : List Route) (method : String) (scope : Scope) :
    Option String :=
  (app.urlPath scope).map fun path =>
    match scopeRoute routes method scope.path with
    | some matched => matched.path.text
    | none => path

/-- What the middleware observes. -/
def observabilityMiddleware (app : App) (x : Exchange) : Option RequestSeries :=
  (routeLabel app createApp x.method x.scope).map fun label =>
    { route := label
      method := x.method
      status := match x.response with
        | some statusCode => toString statusCode
        | none => "500" }

/-- One observation. -/
def RequestDurations.observe (app : App) (m : RequestDurations) (x : Exchange) : RequestDurations :=
  fun series => m series + if observabilityMiddleware app x = some series then 1 else 0

/-- The histogram after a run of the service. -/
def observed (app : App) (xs : List Exchange) : RequestDurations :=
  Run.exec (RequestDurations.observe app) (fun _ => 0) xs

section Observed

variable (app : App)

theorem observed_concat (xs : List Exchange) (x : Exchange) :
    observed app (xs ++ [x]) = (observed app xs).observe app x := Run.exec_concat _ _ _ _

/-- **The histogram holds the series of the requests and no others.**  The induction is on the
run. -/
theorem observed_ne_zero_iff (xs : List Exchange) (series : RequestSeries) :
    observed app xs series ≠ 0 ↔ ∃ x ∈ xs, observabilityMiddleware app x = some series := by
  induction xs using List.reverseRecOn with
  | nil => simp [observed]
  | append_singleton xs x ih =>
    have hstep : observed app (xs ++ [x]) series ≠ 0 ↔
        observed app xs series ≠ 0 ∨ observabilityMiddleware app x = some series := by
      rw [observed_concat, RequestDurations.observe]
      by_cases hx : observabilityMiddleware app x = some series
      · rw [if_pos hx]
        exact iff_of_true (by omega) (Or.inr hx)
      · rw [if_neg hx, Nat.add_zero]
        exact ⟨Or.inl, fun h => h.resolve_right hx⟩
    rw [hstep, ih]
    simp only [List.mem_append, List.mem_singleton, or_and_right, exists_or, exists_eq_left]

/-- Every series of the histogram counts its requests. -/
theorem observed_eq_countP (xs : List Exchange) (series : RequestSeries) :
    observed app xs series = xs.countP fun x => observabilityMiddleware app x = some series := by
  induction xs using List.reverseRecOn with
  | nil => rfl
  | append_singleton xs x ih =>
    rw [observed_concat, RequestDurations.observe, ih, List.countP_append, List.countP_singleton]
    simp

end Observed

/-! ## Matched requests -/

theorem matchedRoute_eq_none_iff {routes : List Route} {method path : String} :
    matchedRoute routes method path = none ↔
      ∀ r ∈ routes, (r.path.matchPath path).isSome = false := by
  rw [matchedRoute, Option.or_eq_none_iff, List.find?_eq_none, List.find?_eq_none]
  simp only [Bool.not_eq_true]
  refine ⟨fun h => h.2, fun h => ⟨fun r hr => ?_, h⟩⟩
  unfold Route.handle?
  split
  · rw [Option.isSome_map]
    exact h r hr
  · rfl

theorem matchedRoute_eq_some {routes : List Route} {method path : String} {r : Route}
    (h : matchedRoute routes method path = some r) :
    r ∈ routes ∧ (r.path.matchPath path).isSome = true := by
  rw [matchedRoute, Option.or_eq_some_iff] at h
  rcases h with h | ⟨-, h⟩
  · refine ⟨List.mem_of_find?_eq_some h, ?_⟩
    have hfull := List.find?_some h
    unfold Route.handle? at hfull
    split at hfull
    · rwa [Option.isSome_map] at hfull
    · cases hfull
  · have hpath := List.find?_some h
    exact ⟨List.mem_of_find?_eq_some h, hpath⟩

/-- A request that is handled was matched by a route of its endpoint, with its method. -/
theorem matchedRoute_of_handle {routes : List Route} {method path : String} {endpoint : Endpoint}
    {pathParam : Option String} (h : dispatch routes method path = .handle endpoint pathParam) :
    ∃ r ∈ routes, r.endpoint = endpoint ∧ method ∈ r.methods ∧
      matchedRoute routes method path = some r := by
  unfold dispatch at h
  split at h
  · rename_i d hfull
    subst h
    obtain ⟨before, r, rest, hroutes, hr, hbefore⟩ := List.findSome?_eq_some_iff.mp hfull
    have hfirst : routes.find? (fun r => (r.handle? method path).isSome) = some r :=
      List.find?_eq_some_iff_append.mpr
        ⟨by rw [hr]; rfl, before, rest, hroutes, fun r' hr' => by simp [hbefore r' hr']⟩
    refine ⟨r, hroutes ▸ by simp, ?_⟩
    rw [matchedRoute, hfirst, Option.some_or]
    unfold Route.handle? at hr
    split at hr
    · rename_i hmethod
      obtain ⟨answer, -, hanswer⟩ := Option.map_eq_some_iff.mp hr
      exact ⟨(Dispatch.handle.inj hanswer).1, hmethod, rfl⟩
    · cases hr
  · split at h
    · cases h
    · split at h <;> cases h

/-! ## Labels -/

/-- The paths of the registered routes, with the parameter by its name. -/
def registeredLabels : List String := createApp.map fun r => r.path.text

/-- `scope["route"]` is set. -/
def Exchange.HasRoute (x : Exchange) : Prop :=
  (scopeRoute createApp x.method x.scope.path).isSome = true

/-- **The label of a request with a route object is a registered path**, however its URL reads. -/
theorem routeLabel_of_hasRoute {app : App} {x : Exchange} (h : x.HasRoute) {label : String}
    (hlabel : routeLabel app createApp x.method x.scope = some label) :
    label ∈ registeredLabels := by
  obtain ⟨r, hr⟩ := Option.isSome_iff_exists.mp h
  rw [routeLabel, hr, Option.map_eq_some_iff] at hlabel
  obtain ⟨path, -, rfl⟩ := hlabel
  exact List.mem_map_of_mem (matchedRoute_eq_some (Option.eq_some_of_filter_eq_some hr)).1

/-- Without a route object the label is the path of the URL. -/
theorem routeLabel_of_not_hasRoute {x : Exchange} (app : App) (h : ¬ x.HasRoute) :
    routeLabel app createApp x.method x.scope = app.urlPath x.scope := by
  have hnone : scopeRoute createApp x.method x.scope.path = none :=
    Option.not_isSome_iff_eq_none.mp h
  rw [routeLabel, hnone]
  exact congrFun Option.map_id_fun' _

/-! ## When the labels are bounded -/

/-- A request the registered routes account for: it has a route object, or its URL is spelled like
the path of a route, or cannot be read. -/
def Exchange.IsRegistered (app : App) (x : Exchange) : Prop :=
  x.HasRoute ∨ ∀ path, app.urlPath x.scope = some path → path ∈ registeredLabels

/-- Every route label of a histogram is in a set. -/
def RequestDurations.LabelsIn (m : RequestDurations) (labels : List String) : Prop :=
  ∀ series, m series ≠ 0 → series.route ∈ labels

theorem labelsIn_observed_iff (app : App) (xs : List Exchange) (labels : List String) :
    (observed app xs).LabelsIn labels ↔
      ∀ x ∈ xs, ∀ label, routeLabel app createApp x.method x.scope = some label →
        label ∈ labels := by
  unfold RequestDurations.LabelsIn
  simp only [observed_ne_zero_iff]
  constructor
  · intro h x hx label hlabel
    exact h _ ⟨x, hx, congrArg (Option.map _) hlabel⟩
  · rintro h _ ⟨x, hx, hseries⟩
    obtain ⟨label, hlabel, rfl⟩ := Option.map_eq_some_iff.mp hseries
    exact h x hx label hlabel

/-- **When the route labels are bounded.**  The labels of a run are the registered paths, whatever
its length, exactly when every request of the run is one that the registered routes account for.
More generally, the requests of a class stay within some fixed finite set of labels exactly when
those without a route object have finitely many URL paths between them. -/
theorem routeLabels_bounded_iff (app : App) (xs : List Exchange) (q : Exchange → Prop) :
    ((observed app xs).LabelsIn registeredLabels ↔ ∀ x ∈ xs, x.IsRegistered app) ∧
    ((∃ labels : List String, ∀ xs : List Exchange, (∀ x ∈ xs, q x) →
        (observed app xs).LabelsIn labels) ↔
      {label | ∃ x, q x ∧ ¬ x.HasRoute ∧ app.urlPath x.scope = some label}.Finite) := by
  constructor
  · rw [labelsIn_observed_iff]
    refine forall₂_congr fun x _ => ?_
    by_cases hroute : x.HasRoute
    · exact iff_of_true (fun _ => routeLabel_of_hasRoute hroute) (Or.inl hroute)
    · rw [routeLabel_of_not_hasRoute app hroute]
      exact ⟨Or.inr, fun h => h.resolve_left hroute⟩
  · constructor
    · rintro ⟨labels, hlabels⟩
      refine labels.finite_toSet.subset ?_
      rintro label ⟨x, hx, hroute, hpath⟩
      have hone := (labelsIn_observed_iff _ _ _).mp (hlabels [x] (by simpa using hx)) x (by simp)
      rw [routeLabel_of_not_hasRoute app hroute] at hone
      exact hone label hpath
    · intro hfinite
      refine ⟨registeredLabels ++ hfinite.toFinset.toList, fun xs hxs => ?_⟩
      rw [labelsIn_observed_iff]
      intro x hx label hlabel
      rw [List.mem_append]
      by_cases hroute : x.HasRoute
      · exact Or.inl (routeLabel_of_hasRoute hroute hlabel)
      · rw [routeLabel_of_not_hasRoute app hroute] at hlabel
        rw [Finset.mem_toList, Set.Finite.mem_toFinset]
        exact Or.inr ⟨x, hxs x hx, hroute, hlabel⟩

/-- A path of one segment with a slash behind it. -/
def slashed (n : ℕ) : String := "/" ++ String.ofList (List.replicate (n + 1) 'a' ++ ['/'])

theorem toList_slashed (n : ℕ) :
    (slashed n).toList = '/' :: (List.replicate (n + 1) 'a' ++ ['/']) := by
  rw [slashed, String.toList_append, String.toList_ofList, String.toList_ofList]
  rfl

/-- No registered route takes a path that ends with a slash. -/
theorem matchExact_eq_none_of_slash {t : PathTemplate} (ht : t.text.toList.getLast? ≠ some '/')
    {path : List Char} (hpath : path.getLast? = some '/') : t.matchExact path = none := by
  cases t with
  | fixed text =>
    rw [PathTemplate.matchExact, if_neg]
    rintro rfl
    exact ht hpath
  | param before after =>
    rw [Option.eq_none_iff_forall_ne_some]
    intro answer h
    obtain ⟨value, hvalue, hslash, rfl, -⟩ := PathTemplate.matchExact_param_eq_some h
    rw [List.getLast?_append, List.getLast?_append] at hpath
    cases hafter : after.toList.getLast? with
    | some c =>
      refine ht ?_
      rw [PathTemplate.text, String.toList_append, List.getLast?_append, hafter]
      rw [hafter] at hpath
      exact hpath
    | none =>
      -- nothing stands behind the parameter, so the slash would be in it
      rw [hafter, Option.none_or, List.getLast?_eq_some_getLast hvalue, Option.some_or,
        Option.some.injEq] at hpath
      exact hslash (hpath ▸ List.getLast_mem hvalue)

/-- A request for such a path, from an ordinary host. -/
def Exchange.ofSlashed (n : ℕ) : Exchange := ⟨"GET", ⟨some "localhost", slashed n, ""⟩, some 307⟩

theorem not_hasRoute_ofSlashed (n : ℕ) : ¬ (Exchange.ofSlashed n).HasRoute := by
  have hlast : (slashed n).toList.getLast? = some '/' := by
    rw [toList_slashed, ← List.cons_append, List.getLast?_concat]
  have hroutes : ∀ r ∈ createApp, r.path.text.toList.getLast? ≠ some '/' := by decide
  have hunmatched : matchedRoute createApp "GET" (slashed n) = none := by
    rw [matchedRoute_eq_none_iff]
    intro r hr
    rw [PathTemplate.matchPath, matchExact_eq_none_of_slash (hroutes r hr) hlast, Option.none_or,
      if_neg (by rw [hlast]; decide)]
    rfl
  intro h
  rw [Exchange.HasRoute, scopeRoute, Exchange.ofSlashed, hunmatched] at h
  cases h

theorem urlPath_ofSlashed (n : ℕ) :
    App.sample.urlPath (Exchange.ofSlashed n).scope = some (slashed n) := by
  have hplain : ∀ c ∈ List.replicate (n + 1) 'a' ++ ['/'], c = 'a' ∨ c = '/' := by
    intro c hc
    rw [List.mem_append, List.mem_replicate, List.mem_singleton] at hc
    exact hc.imp_left And.right
  have hurl := urlsplitPath_localhost (String.ofList (List.replicate (n + 1) 'a' ++ ['/']))
  rw [String.toList_ofList, List.filter_eq_self.mpr, List.takeWhile_eq_self_iff.mpr] at hurl
  · refine hurl.trans (congrArg some (String.toList_inj.mp ?_))
    rw [toList_slashed, String.toList_ofList]
  · intro c hc
    rcases hplain c hc with rfl | rfl <;> decide
  · intro c hc
    rcases hplain c hc with rfl | rfl <;> decide

theorem slashed_injective : Function.Injective slashed := by
  intro m n h
  have hlength := congrArg (fun path : String => path.toList.length) h
  simpa [toList_slashed] using hlength

/-- **The route labels are not bounded.**  Every path that ends with a slash it should not have is
a label of its own. -/
theorem not_labelsIn_slashed : ¬ ∃ labels : List String, ∀ xs : List Exchange,
    (observed App.sample xs).LabelsIn labels := by
  rintro ⟨labels, hlabels⟩
  have hmem : ∀ n, slashed n ∈ labels := by
    intro n
    have hone := (labelsIn_observed_iff _ _ _).mp (hlabels [.ofSlashed n]) _ List.mem_cons_self
    rw [routeLabel_of_not_hasRoute _ (not_hasRoute_ofSlashed n)] at hone
    exact hone _ (urlPath_ofSlashed n)
  exact Set.infinite_of_injective_forall_mem slashed_injective hmem labels.finite_toSet

end UrlShortener
