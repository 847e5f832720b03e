import UrlShortener.Core.RateLimiter
import UrlShortener.Core.Cache
import UrlShortener.Schemas

/-!
# Requests, client identification, and the rate-limit rejection

What the route dependencies compute from a request.  The client identifier is text the client may
choose freely; it names the rate-limit bucket, and its salted hash is what click recording stores.

SHA-256 is a parameter of the application: nothing here depends on what it computes.  So is
`request.url`, which Starlette puts together from the `Host` header, the path and the query, and
takes apart again.  The client chooses all three, and taking the text apart may raise.
-/

set_option autoImplicit false

namespace UrlShortener

/-- What `request.url` is put together from: the `Host` header, the decoded path and the query. -/
structure Scope where
  host : Option String
  path : String
  queryString : String
  deriving DecidableEq, Repr

/-- The application: its settings, `hashlib.sha256(...).hexdigest()`, and `request.url.path`, which
is `none` where reading it raises. -/
structure App where
  settings : Settings
  sha256Hexdigest : String → String
  urlPath : Scope → Option String
  /-- It does not raise for an ordinary host and no query. -/
  urlPath_localhost : ∀ path, (urlPath ⟨some "localhost", "/" ++ path, ""⟩).isSome = true

/-- The handler a request was dispatched to, with the arguments FastAPI extracted for it. -/
inductive Call where
  | createUrl : (payload : CreateUrlRequest) → Call
  | redirect : (shortCode : String) → Call
  | getStats : (shortCode : String) → Call

/-- A request, as far as the middleware and the handlers read it.  The path in the scope is one that
was dispatched to the call. -/
structure Request where
  call : Call
  scope : Scope
  xForwardedFor : Option String
  clientHost : Option String
  referer : Option String
  userAgent : Option String

/-- `request.url` can be read. -/
def Request.hasUrl (app : App) (request : Request) : Bool := (app.urlPath request.scope).isSome

/-- The white space of `str.strip`. -/
def isPySpace (c : Char) : Bool :=
  (9 ≤ c.toNat && c.toNat ≤ 13) || (28 ≤ c.toNat && c.toNat ≤ 32) ||
    (0x2000 ≤ c.toNat && c.toNat ≤ 0x200a) ||
    [0x85, 0xa0, 0x1680, 0x2028, 0x2029, 0x202f, 0x205f, 0x3000].contains c.toNat

/-- `str.strip`. -/
def pyStrip (s : List Char) : List Char :=
  ((s.dropWhile isPySpace).reverse.dropWhile isPySpace).reverse

/-- The first hop of an `X-Forwarded-For` header. -/
def firstHop (forwarded : String) : String :=
  String.ofList (pyStrip (forwarded.toList.takeWhile fun c => c ≠ ','))

/-- The socket peer, or `unknown` without one. -/
def peerIdentifier (request : Request) : String := request.clientHost.getD "unknown"

/-- Derive a stable client identifier for rate limiting. -/
def getClientIdentifier (request : Request) : String :=
  match request.xForwardedFor with
  | some forwarded => if forwarded ≠ "" then firstHop forwarded else peerIdentifier request
  | none => peerIdentifier request

/-- A salted SHA-256 hex digest of a client address. -/
def hashClientIp (app : App) (ip : String) : String :=
  app.sha256Hexdigest (app.settings.ipHashSalt ++ ":" ++ ip)

/-! ## Responses -/

/-- What a request is answered with. -/
inductive Response where
  /-- `201` with the created URL. -/
  | created : UrlResponse → Response
  /-- `302`, by a `RedirectResponse` to a URL.  Its `Location` is the URL percent-encoded. -/
  | found : (url : String) → Response
  /-- `200` with click statistics. -/
  | stats : StatsResponse → Response
  /-- An `HTTPException`, possibly with a `Retry-After` header. -/
  | httpException : (status : ℕ) → (detail : String) → (retryAfter : Option ℤ) → Response
  /-- An exception that no handler maps. -/
  | internalServerError : Response
  deriving DecidableEq, Repr

/-- The status code of a response. -/
def Response.status : Response → ℕ
  | .created _ => 201
  | .found _ => 302
  | .stats _ => 200
  | .httpException status _ _ => status
  | .internalServerError => 500

@[simp] theorem status_created (body : UrlResponse) : (Response.created body).status = 201 := rfl
@[simp] theorem status_found (url : String) : (Response.found url).status = 302 := rfl
@[simp] theorem status_stats (body : StatsResponse) : (Response.stats body).status = 200 := rfl
@[simp] theorem status_internalServerError : Response.internalServerError.status = 500 := rfl

/-- The value of `Retry-After`: whole seconds, rounded up, at least one. -/
def retryAfterHeader (result : RateLimitResult) : ℤ :=
  max 1 ⌈result.retryAfterSeconds.getD 0⌉

/-- The rejection that `rate_limit` raises. -/
def tooManyRequests (result : RateLimitResult) : Response :=
  .httpException 429 "Rate limit exceeded. Slow down and retry later."
    (some (retryAfterHeader result))

@[simp] theorem status_tooManyRequests (result : RateLimitResult) :
    (tooManyRequests result).status = 429 := rfl

/-! ## An application -/

/-- `URL(scope=scope).path` for a server at `127.0.0.1:8000`.  Of the checks of `urlsplit` it has
the one that brackets in the host come in pairs.  Tabs and line breaks are dropped, the host ends at
the first of `/`, `?` and `#`, and the path at the first of `?` and `#` behind it. -/
def urlsplitPath (scope : Scope) : Option String :=
  let query := if scope.queryString = "" then "" else "?" ++ scope.queryString
  let url := (scope.host.getD "127.0.0.1:8000" ++ (scope.path ++ query)).toList.filter
    fun c => c ≠ '\t' ∧ c ≠ '\n' ∧ c ≠ '\r'
  let netloc := url.takeWhile fun c => c ≠ '/' ∧ c ≠ '?' ∧ c ≠ '#'
  if decide ('[' ∈ netloc) = decide (']' ∈ netloc) then
    some (String.ofList ((url.drop netloc.length).takeWhile fun c => c ≠ '?' ∧ c ≠ '#'))
  else none

/-- An ordinary host does not change the path. -/
theorem urlsplitPath_localhost (path : String) :
    urlsplitPath ⟨some "localhost", "/" ++ path, ""⟩ =
      some (String.ofList ('/' :: (path.toList.filter fun c =>
        c ≠ '\t' ∧ c ≠ '\n' ∧ c ≠ '\r').takeWhile fun c => c ≠ '?' ∧ c ≠ '#')) := by
  have hurl : ("localhost" ++ ("/" ++ path ++ "")).toList.filter
      (fun c => c ≠ '\t' ∧ c ≠ '\n' ∧ c ≠ '\r') = "localhost".toList ++ '/' :: path.toList.filter
      fun c => c ≠ '\t' ∧ c ≠ '\n' ∧ c ≠ '\r' := by
    rw [String.append_empty, String.toList_append, String.toList_append, List.filter_append,
      List.filter_append]
    rfl
  have hnetloc : ∀ rest : List Char, ("localhost".toList ++ '/' :: rest).takeWhile
      (fun c => c ≠ '/' ∧ c ≠ '?' ∧ c ≠ '#') = "localhost".toList := by
    intro rest
    have hhost : ∀ c ∈ "localhost".toList, decide (c ≠ '/' ∧ c ≠ '?' ∧ c ≠ '#') = true := by
      simp
    rw [List.takeWhile_append_of_pos hhost, List.takeWhile_cons_of_neg (by decide),
      List.append_nil]
  simp only [urlsplitPath, Option.getD_some, if_true, hurl, hnetloc]
  rw [if_pos (by decide), List.drop_left, List.takeWhile_cons_of_pos (by decide)]

/-- The default settings, with a digest that is the same for every address. -/
def App.sample : App where
  settings := {}
  sha256Hexdigest := fun _ => "e3b0c442"
  urlPath := urlsplitPath
  urlPath_localhost := fun path => by rw [urlsplitPath_localhost, Option.isSome_some]

end UrlShortener
