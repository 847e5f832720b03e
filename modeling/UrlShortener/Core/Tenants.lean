import UrlShortener.Core.RateLimiter
import UrlShortener.Core.Cache

/-!
# The tenants of the Redis keyspace

Rate-limit buckets and cached URLs share one keyspace.  Both put text the client chose into their
keys without escaping it: a client identifier may contain colons or spell out another key, and a
short code is any path segment.  What keeps them apart is the shape of the keys.  A cache key
starts with another letter than a bucket key, and a bucket key ends with its route class, of which
there are two, so the client identifier can be read back however it is written
(`Tenant.key_injective`).

Every operation of the limiter and of the cache is one command on the key of its tenant, so
`Keyspace.run_filter` applies: interleaving with other tenants does not change a tenant's answers.
-/

set_option autoImplicit false

namespace UrlShortener

open Keyspace (Store Command)

/-- Who owns a key: a client's bucket for one route class, or a short code. -/
inductive Tenant where
  | bucket : (clientId : String) → (routeClass : RouteClass) → Tenant
  | code : (shortCode : String) → Tenant
  deriving DecidableEq, Repr

/-- The key of a tenant. -/
def Tenant.key : Tenant → String
  | .bucket clientId routeClass => RateLimiter.key clientId routeClass
  | .code shortCode => UrlCache.key shortCode

/-- A method call on the limiter or the cache, with the fault that meets it. -/
inductive Op where
  | check : (nowMs : ℤ) → Fault → (clientId : String) → (routeClass : RouteClass) → Op
  | getCachedUrl : Fault → (shortCode : String) → Op
  | setCachedUrl : Fault → (shortCode longUrl : String) → (ttlSeconds : Option ℕ) → Op
  | invalidateCachedUrl : Fault → (shortCode : String) → Op

/-- What a method call returns, together with the metrics it records. -/
inductive Answer where
  | checked : RateLimitResult → List Metric → Answer
  | cached : Option String → List Metric → Answer
  | written : List Metric → Answer
  deriving DecidableEq, Repr

namespace Op

/-- Whose key a call works on. -/
def tenant : Op → Tenant
  | .check _ _ clientId routeClass => .bucket clientId routeClass
  | .getCachedUrl _ shortCode => .code shortCode
  | .setCachedUrl _ shortCode _ _ => .code shortCode
  | .invalidateCachedUrl _ shortCode => .code shortCode

/-- The command a call issues at a time on the Redis clock. -/
def command (settings : Settings) (redisNow : ℤ) : Op → Command String RedisValue Answer
  | .check nowMs fault clientId routeClass =>
      (RateLimiter.check settings redisNow nowMs fault clientId routeClass).map
        fun r => .checked r.1 r.2
  | .getCachedUrl fault shortCode =>
      (UrlCache.getCachedUrl settings redisNow fault shortCode).map fun r => .cached r.1 r.2
  | .setCachedUrl fault shortCode longUrl ttlSeconds =>
      (UrlCache.setCachedUrl settings redisNow fault shortCode longUrl ttlSeconds).map
        fun r => .written r.2
  | .invalidateCachedUrl fault shortCode =>
      (UrlCache.invalidateCachedUrl fault shortCode).map fun r => .written r.2

/-- A call works on the key of its tenant. -/
theorem command_key (settings : Settings) (redisNow : ℤ) (op : Op) :
    (op.command settings redisNow).key = op.tenant.key := by
  cases op <;> rfl

end Op

/-- A call with the Redis time at which it executes. -/
structure TimedOp where
  redisAt : ℤ
  op : Op

/-- The answers of an interleaved run, each paired with its call. -/
def runOps (settings : Settings) (s : Store String RedisValue) (ops : List TimedOp) :
    List (TimedOp × Answer) :=
  Keyspace.run TimedOp.redisAt (fun o => o.op.command settings o.redisAt) s ops

/-! ## Keys tell tenants apart -/

theorem RouteClass.value_ne : RouteClass.redirect.value.toList.getLast? ≠
    RouteClass.create.value.toList.getLast? := by decide

/-- A bucket key determines its route class: the two classes end in different letters. -/
theorem RateLimiter.getLast?_key (clientId : String) (routeClass : RouteClass) :
    (RateLimiter.key clientId routeClass).toList.getLast? =
      routeClass.value.toList.getLast? := by
  have hne : routeClass.value.toList ≠ [] := by cases routeClass <;> decide
  rw [RateLimiter.key, String.toList_append, List.getLast?_append_of_ne_nil _ hne]

theorem RateLimiter.key_injective {clientId clientId' : String}
    {routeClass routeClass' : RouteClass}
    (h : RateLimiter.key clientId routeClass = RateLimiter.key clientId' routeClass') :
    clientId = clientId' ∧ routeClass = routeClass' := by
  have hlast := congrArg (fun k => k.toList.getLast?) h
  simp only [RateLimiter.getLast?_key] at hlast
  have hclass : routeClass = routeClass' := by
    cases routeClass <;> cases routeClass' <;> first | rfl | skip
    · exact absurd hlast RouteClass.value_ne
    · exact absurd hlast.symm RouteClass.value_ne
  subst hclass
  rw [RateLimiter.key, RateLimiter.key, String.append_left_inj, String.append_left_inj,
    String.append_right_inj] at h
  exact ⟨h, rfl⟩

theorem UrlCache.key_injective {shortCode shortCode' : String}
    (h : UrlCache.key shortCode = UrlCache.key shortCode') : shortCode = shortCode' :=
  (String.append_right_inj _).mp h

/-- A cache key is not a bucket key: they start with different letters. -/
theorem UrlCache.key_ne_rateLimiterKey (shortCode clientId : String) (routeClass : RouteClass) :
    UrlCache.key shortCode ≠ RateLimiter.key clientId routeClass := by
  intro h
  have hhead := congrArg (fun k => k.toList.head?) h
  simp only [UrlCache.key, RateLimiter.key, String.toList_append, List.append_assoc] at hhead
  rw [show "cache:url:".toList = 'c' :: "ache:url:".toList by decide,
    show "ratelimit:".toList = 'r' :: "atelimit:".toList by decide] at hhead
  simp at hhead

/-- **Different tenants have different keys**, whatever text the client put into them. -/
theorem Tenant.key_injective {t t' : Tenant} (h : t.key = t'.key) : t = t' := by
  cases t with
  | bucket clientId routeClass =>
    cases t' with
    | bucket clientId' routeClass' =>
      obtain ⟨rfl, rfl⟩ := RateLimiter.key_injective h
      rfl
    | code shortCode' => exact absurd h.symm (UrlCache.key_ne_rateLimiterKey _ _ _)
  | code shortCode =>
    cases t' with
    | bucket clientId' routeClass' => exact absurd h (UrlCache.key_ne_rateLimiterKey _ _ _)
    | code shortCode' => rw [UrlCache.key_injective h]

/-- **Redis tenants do not interfere.**  In any interleaving of limiter and cache calls on one
keyspace, the answers a bucket or a short code gets are those of the run of its own calls alone,
at the same times and with the same faults. -/
theorem runOps_filter (settings : Settings) (s : Store String RedisValue) (ops : List TimedOp)
    (t : Tenant) :
    (runOps settings s ops).filter (fun p => p.1.op.tenant = t) =
      runOps settings s (ops.filter fun o => o.op.tenant = t) := by
  apply Keyspace.run_filter TimedOp.redisAt (fun o => o.op.command settings o.redisAt)
    (fun o => o.op.tenant)
  intro o o' hkey
  rw [Op.command_key, Op.command_key] at hkey
  exact Tenant.key_injective hkey

end UrlShortener
