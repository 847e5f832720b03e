import UrlShortener.Schemas

/-!
# The route table

The application registers FastAPI's documentation routes first, then the health router, then the
API router.  A request goes to the first route whose path and method both match; if there is none,
a route that matches by path alone answers `405`, and failing that the path is retried with its
trailing slash toggled.

A path template compiles to a regular expression.  A parameter stands for one or more characters
other than a slash, and the `$` that ends the expression also matches before a final newline.

## What is proved

The redirect route is a catch-all for one segment, so everything registered before it takes its
own segment away from it.  `dispatch_get_segment_iff` says which Base62 codes that costs: a code is
dispatched to `redirect` exactly when it is not one of the five in `operationalSegments`.
-/

set_option autoImplicit false

namespace UrlShortener

/-- The endpoints of the application, in the order of registration. -/
inductive Endpoint where
  | openapi : Endpoint
  | swaggerUiHtml : Endpoint
  | swaggerUiRedirect : Endpoint
  | redocHtml : Endpoint
  | metrics : Endpoint
  | health : Endpoint
  | ready : Endpoint
  | createUrl : Endpoint
  | getStats : Endpoint
  | redirect : Endpoint
  deriving DecidableEq, Repr

/-- A path template, with a fixed text or one parameter between two fixed texts. -/
inductive PathTemplate where
  | fixed : (text : String) → PathTemplate
  | param : (before after : String) → PathTemplate
  deriving DecidableEq, Repr

namespace PathTemplate

/-- Match a whole path.  The answer carries the value of the parameter, if the template has one. -/
def matchExact : PathTemplate → List Char → Option (Option String)
  | .fixed text, path => if path = text.toList then some none else none
  | .param before after, path => do
      let rest ← before.toList.isPrefixOf? path
      let value ← after.toList.isSuffixOf? rest
      if value ≠ [] ∧ '/' ∉ value then some (some (String.ofList value)) else none

/-- Match a path as the compiled expression does.  The second attempt is the final newline that
`$` lets pass. -/
def matchPath (t : PathTemplate) (path : String) : Option (Option String) :=
  (t.matchExact path.toList).or
    (if path.toList.getLast? = some '\n' then t.matchExact path.toList.dropLast else none)

end PathTemplate

/-- A registered route. -/
structure Route where
  endpoint : Endpoint
  path : PathTemplate
  methods : List String
  deriving DecidableEq, Repr

/-- The routes FastAPI adds by itself. -/
def documentationRoutes : List Route :=
  [⟨.openapi, .fixed "/openapi.json", ["GET", "HEAD"]⟩,
   ⟨.swaggerUiHtml, .fixed "/docs", ["GET", "HEAD"]⟩,
   ⟨.swaggerUiRedirect, .fixed "/docs/oauth2-redirect", ["GET", "HEAD"]⟩,
   ⟨.redocHtml, .fixed "/redoc", ["GET", "HEAD"]⟩]

/-- The health router. -/
def healthRouter : List Route :=
  [⟨.metrics, .fixed "/metrics", ["GET"]⟩,
   ⟨.health, .fixed "/health", ["GET"]⟩,
   ⟨.ready, .fixed "/ready", ["GET"]⟩]

/-- The API router. -/
def apiRouter : List Route :=
  [⟨.createUrl, .fixed "/api/urls", ["POST"]⟩,
   ⟨.getStats, .param "/api/urls/" "/stats", ["GET"]⟩,
   ⟨.redirect, .param "/" "", ["GET"]⟩]

/-- The routes of the application.  The order is significant. -/
def createApp : List Route := documentationRoutes ++ healthRouter ++ apiRouter

/-- What becomes of a request. -/
inductive Dispatch where
  | handle : Endpoint → (pathParam : Option String) → Dispatch
  | methodNotAllowed : Endpoint → Dispatch
  | redirectSlashes : Dispatch
  | notFound : Dispatch
  deriving DecidableEq, Repr

/-- A route that matches by path and method. -/
def Route.handle? (method path : String) (r : Route) : Option Dispatch :=
  if method ∈ r.methods then (r.path.matchPath path).map (Dispatch.handle r.endpoint) else none

/-- The path with its trailing slash removed or added. -/
def toggleSlash (path : String) : String :=
  if path.toList.getLast? = some '/' then rstripSlash path else path ++ "/"

/-- Dispatch a request: the first full match wins. -/
def dispatch (routes : List Route) (method path : String) : Dispatch :=
  match routes.findSome? (Route.handle? method path) with
  | some d => d
  | none =>
      match routes.find? fun r => (r.path.matchPath path).isSome with
      | some r => .methodNotAllowed r.endpoint
      | none =>
          if path ≠ "/" ∧ routes.any (fun r => (r.path.matchPath (toggleSlash path)).isSome) then
            .redirectSlashes
          else .notFound

/-- **What a template with a parameter matches**: a text between its two parts that is not empty
and has no slash in it. -/
theorem PathTemplate.matchExact_param_eq_some {before after : String} {path : List Char}
    {answer : Option String} (h : (PathTemplate.param before after).matchExact path = some answer) :
    ∃ value, value ≠ [] ∧ '/' ∉ value ∧ path = before.toList ++ (value ++ after.toList) ∧
      answer = some (String.ofList value) := by
  rw [matchExact] at h
  cases hstart : before.toList.isPrefixOf? path with
  | none =>
    rw [hstart] at h
    cases h
  | some rest =>
    cases hend : after.toList.isSuffixOf? rest with
    | none =>
      simp only [hstart, hend, Option.bind_eq_bind, Option.bind_some, Option.bind_none] at h
      cases h
    | some value =>
      simp only [hstart, hend, Option.bind_eq_bind, Option.bind_some] at h
      split at h
      · rename_i hvalue
        rw [Option.some.injEq] at h
        refine ⟨value, hvalue.1, hvalue.2, ?_, h.symm⟩
        rw [List.isSuffixOf?_eq_some_iff_append_eq.mp hend,
          List.isPrefixOf?_eq_some_iff_append_eq.mp hstart]
      · cases h

/-! ## Paths of one segment -/

/-- A segment that no newline ends matches as a whole or not at all. -/
theorem PathTemplate.matchPath_segment (t : PathTemplate) {code : String}
    (hcode : ∀ c ∈ code.toList, isBase62 c = true) :
    t.matchPath ("/" ++ code) = t.matchExact ('/' :: code.toList) := by
  have hpath : ("/" ++ code).toList = '/' :: code.toList := by rw [String.toList_append]; rfl
  rw [matchPath, hpath, if_neg, Option.or_none]
  intro hlast
  rcases List.mem_cons.mp (List.mem_of_getLast? hlast) with h | h
  · exact absurd h (by decide)
  · exact absurd (hcode _ h) (by decide)

/-- A fixed template takes exactly its own segment. -/
theorem PathTemplate.matchPath_fixed {code segment : String}
    (hcode : ∀ c ∈ code.toList, isBase62 c = true) :
    (PathTemplate.fixed ("/" ++ segment)).matchPath ("/" ++ code) =
      if code = segment then some none else none := by
  have hpath : ("/" ++ segment).toList = '/' :: segment.toList := by
    rw [String.toList_append]; rfl
  rw [matchPath_segment _ hcode, matchExact, hpath]
  simp only [List.cons.injEq, true_and, String.toList_inj]

/-- The catch-all takes every segment that is not empty. -/
theorem PathTemplate.matchPath_catchAll {code : String} (hne : code ≠ "")
    (hcode : ∀ c ∈ code.toList, isBase62 c = true) :
    (PathTemplate.param "/" "").matchPath ("/" ++ code) = some (some code) := by
  have hslash : '/' ∉ code.toList := fun h => absurd (hcode _ h) (by decide)
  have hnil : code.toList ≠ [] := fun h => hne (String.toList_eq_nil_iff.mp h)
  rw [matchPath_segment _ hcode, matchExact]
  simp [List.isPrefixOf?, List.isSuffixOf?, hslash, hnil]

/-- A template that starts with a longer text does not take a single segment. -/
theorem PathTemplate.matchPath_stats {code : String}
    (hcode : ∀ c ∈ code.toList, isBase62 c = true) :
    (PathTemplate.param "/api/urls/" "/stats").matchPath ("/" ++ code) = none := by
  rw [matchPath_segment _ hcode]
  cases hmatch : (PathTemplate.param "/api/urls/" "/stats").matchExact ('/' :: code.toList) with
  | none => rfl
  | some answer =>
    obtain ⟨value, -, -, hpath, -⟩ := matchExact_param_eq_some hmatch
    have hcons : "/api/urls/".toList = '/' :: "api/urls/".toList := by decide
    rw [hcons, List.cons_append, List.cons.injEq] at hpath
    have hslash : '/' ∈ code.toList := by
      rw [hpath.2]
      exact List.mem_append_left _ (by decide)
    exact absurd (hcode _ hslash) (by decide)

/-- A fixed route takes a `GET` of its own segment and leaves the others to the routes after it. -/
theorem Route.handle?_fixed {endpoint : Endpoint} {methods : List String} {code : String}
    (segment : String) {text : String} (htext : text = "/" ++ segment) (hget : "GET" ∈ methods)
    (hcode : ∀ c ∈ code.toList, isBase62 c = true) (hne : code ≠ segment) :
    Route.handle? "GET" ("/" ++ code) ⟨endpoint, .fixed text, methods⟩ = none := by
  rw [Route.handle?, if_pos hget, htext, PathTemplate.matchPath_fixed hcode, if_neg hne]
  rfl

/-- The segments that other routes take away from the catch-all. -/
def operationalSegments : List String := ["docs", "redoc", "metrics", "health", "ready"]

/-- A code that is none of these passes the documentation routes and the health router. -/
theorem findSome?_handle?_eq_none {code : String} (hcode : ∀ c ∈ code.toList, isBase62 c = true)
    (hfree : code ∉ operationalSegments) :
    (documentationRoutes ++ healthRouter).findSome? (Route.handle? "GET" ("/" ++ code)) = none := by
  have hne : ∀ segment, segment ∈ operationalSegments → code ≠ segment :=
    fun segment hmem heq => hfree (heq ▸ hmem)
  have hforeign : ∀ segment, (∃ c ∈ segment.toList, isBase62 c = false) → code ≠ segment := by
    rintro segment ⟨c, hc, hc'⟩ rfl
    rw [hcode c hc] at hc'
    cases hc'
  rw [List.findSome?_eq_none_iff]
  intro r hr
  simp only [documentationRoutes, healthRouter, List.cons_append, List.nil_append,
    List.mem_cons, List.not_mem_nil, or_false] at hr
  rcases hr with rfl | rfl | rfl | rfl | rfl | rfl | rfl
  · exact Route.handle?_fixed "openapi.json" (by decide) (by decide) hcode
      (hforeign _ ⟨'.', by decide, by decide⟩)
  · exact Route.handle?_fixed "docs" (by decide) (by decide) hcode (hne _ (by decide))
  · exact Route.handle?_fixed "docs/oauth2-redirect" (by decide) (by decide) hcode
      (hforeign _ ⟨'/', by decide, by decide⟩)
  · exact Route.handle?_fixed "redoc" (by decide) (by decide) hcode (hne _ (by decide))
  · exact Route.handle?_fixed "metrics" (by decide) (by decide) hcode (hne _ (by decide))
  · exact Route.handle?_fixed "health" (by decide) (by decide) hcode (hne _ (by decide))
  · exact Route.handle?_fixed "ready" (by decide) (by decide) hcode (hne _ (by decide))

/-- **Which codes are reachable at their own URL.**  A Base62 code is dispatched to the redirect
handler exactly when no route registered before it has the same segment. -/
theorem dispatch_get_segment_iff {code : String} (hne : code ≠ "")
    (hcode : ∀ c ∈ code.toList, isBase62 c = true) :
    dispatch createApp "GET" ("/" ++ code) = .handle .redirect (some code) ↔
      code ∉ operationalSegments := by
  constructor
  · intro h hmem
    revert h
    simp only [operationalSegments, List.mem_cons, List.not_mem_nil, or_false] at hmem
    rcases hmem with rfl | rfl | rfl | rfl | rfl <;> decide
  · intro hfree
    have hstats : Route.handle? "GET" ("/" ++ code) ⟨.getStats, .param "/api/urls/" "/stats",
        ["GET"]⟩ = none := by
      rw [Route.handle?, if_pos (by decide), PathTemplate.matchPath_stats hcode]
      rfl
    have hredirect : Route.handle? "GET" ("/" ++ code) ⟨.redirect, .param "/" "", ["GET"]⟩ =
        some (.handle .redirect (some code)) := by
      rw [Route.handle?, if_pos (by decide), PathTemplate.matchPath_catchAll hne hcode]
      rfl
    have hcreate : Route.handle? "GET" ("/" ++ code) ⟨.createUrl, .fixed "/api/urls", ["POST"]⟩ =
        none := by
      rw [Route.handle?, if_neg (by decide)]
    rw [dispatch, createApp, List.findSome?_append, findSome?_handle?_eq_none hcode hfree,
      Option.none_or, apiRouter, List.findSome?_cons_of_isNone (by rw [hcreate]; rfl),
      List.findSome?_cons_of_isNone (by rw [hstats]; rfl),
      List.findSome?_cons_of_isSome (by rw [hredirect]; rfl), hredirect]

end UrlShortener
