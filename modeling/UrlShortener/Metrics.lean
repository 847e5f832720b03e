import Mathlib.Data.List.Count
import Mathlib.Data.Nat.Notation

/-!
# Prometheus metrics

One constructor per metric and one value of it per time series: the labels are the arguments.
A counter is the number of its increments and a histogram the number of its observations; the
observed durations themselves are not modelled, since nothing in the service reads them back.

The two histograms `db_query_duration_seconds` and `http_request_duration_seconds` are left out
here: no handler's outcome depends on them.
-/

set_option autoImplicit false

namespace UrlShortener

/-- The bucket classes of the rate limiter. -/
inductive RouteClass where
  | redirect : RouteClass
  | create : RouteClass
  deriving DecidableEq, Repr

/-- The string a route class stands for in keys and labels. -/
def RouteClass.value : RouteClass → String
  | .redirect => "redirect"
  | .create => "create"

/-- The label values of `redirect_total`. -/
inductive RedirectStatus where
  | success : RedirectStatus
  | notFound : RedirectStatus
  | expired : RedirectStatus
  deriving DecidableEq, Repr

/-- The time series the handlers write. -/
inductive Metric where
  | cacheHitTotal : (route : String) → Metric
  | cacheMissTotal : (route : String) → Metric
  | rateLimitRejectionsTotal : (routeClass : RouteClass) → Metric
  | redirectTotal : (status : RedirectStatus) → Metric
  | redisOperationDurationSeconds : (operation : String) → Metric
  | redisFallbackTotal : (component operation : String) → Metric
  deriving DecidableEq, Repr

/-- The registry: how often each series was incremented or observed. -/
abbrev Metrics := Metric → ℕ

/-- A registry nobody has written to. -/
def Metrics.zero : Metrics := fun _ => 0

/-- Record a few increments, in any order. -/
def Metrics.record (m : Metrics) (incs : List Metric) : Metrics :=
  fun x => m x + incs.count x

@[simp] theorem Metrics.record_nil (m : Metrics) : m.record [] = m := rfl

theorem Metrics.record_append (m : Metrics) (a b : List Metric) :
    m.record (a ++ b) = (m.record a).record b := by
  funext x
  simp [Metrics.record, List.count_append, Nat.add_assoc]

end UrlShortener
