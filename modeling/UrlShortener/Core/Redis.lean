import UrlShortener.Library.Keyspace
import Mathlib.Data.Rat.Defs

/-!
# The Redis commands the service issues

Rate-limit state and cached URLs live in one Redis keyspace, told apart by their keys only.  A
bucket is a hash with the two fields `tokens` and `ts`, a cached URL is a string.  A command
issued against a value of the other type answers `WRONGTYPE`, which the client raises as a
`RedisError` like any other.

A command may also fail without an answer from the server.  `Fault` says how: the call never
arrived, or it was executed and its reply was lost.  The caller cannot tell the two apart.

Times are milliseconds on the Redis server's clock.
-/

set_option autoImplicit false

namespace UrlShortener

open Keyspace (Store Command Update)

/-- The fields of a rate-limit hash: the tokens left and the time of the last refill, in
milliseconds of the checking instance's clock. -/
structure Bucket where
  tokens : ℚ
  ts : ℤ
  deriving DecidableEq, Repr

/-- The values stored in Redis. -/
inductive RedisValue where
  | hash : Bucket → RedisValue
  | string : String → RedisValue
  deriving DecidableEq, Repr

/-- The exceptions that redis-py derives from `RedisError`. -/
inductive RedisError where
  | wrongType : RedisError
  | invalidExpireTime : RedisError
  | unavailable : RedisError
  deriving DecidableEq, Repr

/-- How a call fails on the way, if it does. -/
inductive Fault where
  | none : Fault
  | lostCall : Fault
  | lostReply : Fault
  deriving DecidableEq, Repr

/-- A command, as the client sees it. -/
abbrev RedisCommand (R : Type) := Command String RedisValue (Except RedisError R)

/-- A command whose call or reply may be lost. -/
def withFault {R : Type} (f : Fault) (c : RedisCommand R) : RedisCommand R where
  key := c.key
  act := fun v => match f with
    | .none => c.act v
    | .lostCall => (.error .unavailable, .keep)
    | .lostReply => (.error .unavailable, (c.act v).2)

@[simp] theorem withFault_key {R : Type} (f : Fault) (c : RedisCommand R) :
    (withFault f c).key = c.key := rfl

/-- `GETEX key EX ttl`: read a string and refresh its deadline. -/
def getex (now : ℤ) (key : String) (ttlSeconds : ℕ) : RedisCommand (Option String) where
  key := key
  act := fun v => match v with
    | none => (.ok none, .keep)
    | some (.string s) => (.ok (some s), .put (.string s) (some (now + 1000 * ttlSeconds)))
    | some (.hash _) => (.error .wrongType, .keep)

/-- `SET key value EX ttl`: overwrite the key, whatever it held.  A time to live of zero is
refused. -/
def set (now : ℤ) (key value : String) (ttlSeconds : ℕ) : RedisCommand Unit where
  key := key
  act := fun _ =>
    if ttlSeconds = 0 then (.error .invalidExpireTime, .keep)
    else (.ok (), .put (.string value) (some (now + 1000 * ttlSeconds)))

/-- `DEL key`. -/
def delete (key : String) : RedisCommand Unit where
  key := key
  act := fun _ => (.ok (), .erase)

end UrlShortener
