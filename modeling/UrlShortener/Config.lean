import Mathlib.Data.Nat.Notation

/-!
# Application configuration

The settings that the modelled functions read.  Every bound that the settings class checks at
start-up (`gt=0`, `ge=4`, `le=10`) is a field, so a configuration that the service would refuse
cannot be built, and every default passes its own check.

Left out are the settings that only reach code outside the model: the environment name, the log
level, and the two connection strings.
-/

set_option autoImplicit false

namespace UrlShortener

/-- The settings of the service. -/
structure Settings where
  /-- Public base URL used to construct returned short URLs. -/
  baseUrl : String := "http://localhost:8000"
  /-- TTL for cached `short_code -> long_url` entries, in seconds. -/
  cacheTtlSeconds : ℕ := 3600
  cacheTtlSeconds_pos : 0 < cacheTtlSeconds := by decide
  /-- Token bucket capacity for the redirect route class. -/
  rateLimitRedirectCapacity : ℕ := 100
  rateLimitRedirectCapacity_pos : 0 < rateLimitRedirectCapacity := by decide
  /-- Sustained token refill rate per minute for the redirect route class. -/
  rateLimitRedirectRefillPerMinute : ℕ := 100
  rateLimitRedirectRefillPerMinute_pos : 0 < rateLimitRedirectRefillPerMinute := by decide
  /-- Token bucket capacity for the create route class. -/
  rateLimitCreateCapacity : ℕ := 10
  rateLimitCreateCapacity_pos : 0 < rateLimitCreateCapacity := by decide
  /-- Sustained token refill rate per minute for the create route class. -/
  rateLimitCreateRefillPerMinute : ℕ := 10
  rateLimitCreateRefillPerMinute_pos : 0 < rateLimitCreateRefillPerMinute := by decide
  /-- Length of auto-generated Base62 short codes. -/
  shortCodeLength : ℕ := 7
  shortCodeLength_ge : 4 ≤ shortCodeLength := by decide
  shortCodeLength_le : shortCodeLength ≤ 10 := by decide
  /-- Salt mixed into client-IP hashing. -/
  ipHashSalt : String := "change-me-to-a-random-secret"

end UrlShortener
