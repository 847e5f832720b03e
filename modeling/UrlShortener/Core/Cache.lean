import UrlShortener.Config
import UrlShortener.Metrics
import UrlShortener.Core.Redis

/-!
# The cache of `short_code -> long_url` lookups

Each method is one Redis command followed by the handling of its answer: `GETEX` for a read that
refreshes the time to live, `SET` with a time to live for a back-fill, `DEL` for an eviction.  A
`RedisError` becomes a miss on reads and is swallowed on writes.  The second component of an
answer is what the method records in the metrics registry.
-/

set_option autoImplicit false

namespace UrlShortener
namespace UrlCache

open Keyspace (Command)

/-- Entries are namespaced so that they never collide with rate-limit keys. -/
def key (shortCode : String) : String := "cache:url:" ++ shortCode

/-- The route label of the hit and miss counters. -/
def redirectRoute : String := "/{short_code}"

/-- What `getCachedUrl` makes of the answer to `GETEX`. -/
def decodeGet : Except RedisError (Option String) → Option String × List Metric
  | .error _ => (none, [.redisFallbackTotal "cache" "get"])
  | .ok none => (none, [.redisOperationDurationSeconds "get", .cacheMissTotal redirectRoute])
  | .ok (some value) =>
      (some value, [.redisOperationDurationSeconds "get", .cacheHitTotal redirectRoute])

/-- What the two writing methods make of an answer: nothing, apart from the metrics. -/
def decodeWrite (operation : String) : Except RedisError Unit → Unit × List Metric
  | .error _ => ((), [.redisFallbackTotal "cache" operation])
  | .ok () => ((), [.redisOperationDurationSeconds operation])

/-- The cached long URL, or `none` on a miss or when Redis does not answer.  A hit refreshes the
time to live. -/
def getCachedUrl (settings : Settings) (redisNow : ℤ) (fault : Fault) (shortCode : String) :
    Command String RedisValue (Option String × List Metric) :=
  (withFault fault (getex redisNow (key shortCode) settings.cacheTtlSeconds)).map decodeGet

/-- Populate the cache.  Without an override the time to live is the configured one. -/
def setCachedUrl (settings : Settings) (redisNow : ℤ) (fault : Fault)
    (shortCode longUrl : String) (ttlSeconds : Option ℕ) :
    Command String RedisValue (Unit × List Metric) :=
  (withFault fault
    (set redisNow (key shortCode) longUrl (ttlSeconds.getD settings.cacheTtlSeconds))).map
    (decodeWrite "set")

/-- Explicitly evict a short code. -/
def invalidateCachedUrl (fault : Fault) (shortCode : String) :
    Command String RedisValue (Unit × List Metric) :=
  (withFault fault (delete (key shortCode))).map (decodeWrite "delete")

@[simp] theorem getCachedUrl_key (settings : Settings) (redisNow : ℤ) (fault : Fault)
    (shortCode : String) : (getCachedUrl settings redisNow fault shortCode).key = key shortCode :=
  rfl

@[simp] theorem setCachedUrl_key (settings : Settings) (redisNow : ℤ) (fault : Fault)
    (shortCode longUrl : String) (ttlSeconds : Option ℕ) :
    (setCachedUrl settings redisNow fault shortCode longUrl ttlSeconds).key = key shortCode := rfl

@[simp] theorem invalidateCachedUrl_key (fault : Fault) (shortCode : String) :
    (invalidateCachedUrl fault shortCode).key = key shortCode := rfl

/-- **A hit is a stored string.**  Whatever the fault, `getCachedUrl` returns a URL only if the key
holds it. -/
theorem getCachedUrl_answer {settings : Settings} {redisNow : ℤ} {fault : Fault}
    {shortCode longUrl : String} {v : Option RedisValue}
    (h : ((getCachedUrl settings redisNow fault shortCode).act v).1.1 = some longUrl) :
    v = some (.string longUrl) := by
  cases fault <;> rcases v with _ | (b | s) <;>
    simp_all [getCachedUrl, withFault, getex, decodeGet]

/-- A read writes back the value it found or nothing. -/
theorem getCachedUrl_update (settings : Settings) (redisNow : ℤ) (fault : Fault)
    (shortCode : String) (v : Option RedisValue) :
    ((getCachedUrl settings redisNow fault shortCode).act v).2 = .keep ∨
      ∃ s d, v = some (.string s) ∧
        ((getCachedUrl settings redisNow fault shortCode).act v).2 = .put (.string s) d := by
  cases fault <;> rcases v with _ | (b | s) <;> simp [getCachedUrl, withFault, getex]

/-- A back-fill writes the given URL or nothing. -/
theorem setCachedUrl_update (settings : Settings) (redisNow : ℤ) (fault : Fault)
    (shortCode longUrl : String) (ttlSeconds : Option ℕ) (v : Option RedisValue) :
    ((setCachedUrl settings redisNow fault shortCode longUrl ttlSeconds).act v).2 = .keep ∨
      ∃ d, ((setCachedUrl settings redisNow fault shortCode longUrl ttlSeconds).act v).2 =
        .put (.string longUrl) d := by
  by_cases hzero : ttlSeconds.getD settings.cacheTtlSeconds = 0 <;>
    cases fault <;> simp [setCachedUrl, withFault, set, hzero]

/-- **The configured time to live is accepted.** -/
theorem set_cacheTtlSeconds (settings : Settings) (redisNow : ℤ) (shortCode longUrl : String)
    (v : Option RedisValue) :
    (set redisNow (key shortCode) longUrl settings.cacheTtlSeconds).act v =
      (.ok (), .put (.string longUrl) (some (redisNow + 1000 * settings.cacheTtlSeconds))) :=
  if_neg settings.cacheTtlSeconds_pos.ne'

/-- A back-fill that Redis executes writes the URL. -/
theorem setCachedUrl_writes (settings : Settings) (redisNow : ℤ) {fault : Fault}
    (hfault : fault ≠ .lostCall) (shortCode longUrl : String) (v : Option RedisValue) :
    ((setCachedUrl settings redisNow fault shortCode longUrl none).act v).2 =
      .put (.string longUrl) (some (redisNow + 1000 * settings.cacheTtlSeconds)) := by
  have hset := set_cacheTtlSeconds settings redisNow shortCode longUrl v
  cases fault with
  | none | lostReply => exact congrArg Prod.snd hset
  | lostCall => exact absurd rfl hfault

end UrlCache
end UrlShortener
