import UrlShortener.Library.ClampedCounter
import UrlShortener.Library.Keyspace
import UrlShortener.Library.TxStore
import UrlShortener.Library.Positional
import UrlShortener.Library.Search
import UrlShortener.Library.Rejection
import UrlShortener.Library.Ranking
import UrlShortener.Library.Run
import UrlShortener.Library.Interleaving
import UrlShortener.Library.Trace
import UrlShortener.Library.Registry
import UrlShortener.Library.Potential
import UrlShortener.Library.Lease
import UrlShortener.Config
import UrlShortener.Metrics
import UrlShortener.Core.Redis
import UrlShortener.Core.RateLimiter
import UrlShortener.Core.Cache
import UrlShortener.Core.Tenants
import UrlShortener.RateLimit.Envelope
import UrlShortener.RateLimit.ClockSkew
import UrlShortener.RateLimit.Expiry
import UrlShortener.Core.Shortener
import UrlShortener.Core.Base62
import UrlShortener.Schemas
import UrlShortener.Api.Routing
import UrlShortener.Api.Observability
import UrlShortener.Api.Dependencies
import UrlShortener.RateLimit.RetryAfter
import UrlShortener.RateLimit.Dedicated
import UrlShortener.Api.Routes
import UrlShortener.Db.Models
import UrlShortener.Core.UniqueCode
import UrlShortener.Core.FairCodes
import UrlShortener.Db.Database
import UrlShortener.Db.Repository
import UrlShortener.System.World
import UrlShortener.System.Guarantee
import UrlShortener.System.Responses
import UrlShortener.System.Lookup
import UrlShortener.System.Sessions
import UrlShortener.System.Ownership
import UrlShortener.System.Clicks
import UrlShortener.System.Solo
import UrlShortener.System.Progress
import UrlShortener.System.Errors
import UrlShortener.System.Reachable
import UrlShortener.System.Privacy
import UrlShortener.System.Phases
import UrlShortener.System.Readings
import UrlShortener.System.Booking
import UrlShortener.System.Ledger
import UrlShortener.System.Stats
import UrlShortener.System.RedisOps
import UrlShortener.System.RateLimiting
import UrlShortener.System.Registry
import UrlShortener.System.Linearizable
import UrlShortener.System.AuditTrail
import UrlShortener.System.Quiescence
import UrlShortener.System.Delivery
import UrlShortener.System.Caching
import UrlShortener.System.Consistency
import UrlShortener.System.Generation
import UrlShortener.System.Lifetime
import UrlShortener.System.Retries
import UrlShortener.System.Metering
