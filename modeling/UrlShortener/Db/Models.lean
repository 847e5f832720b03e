import UrlShortener.Schemas
import Mathlib.Data.Int.Notation

/-!
# The tables

One structure per table.  Timestamps are microseconds since the epoch, and counters and surrogate
keys are natural numbers.  `short_code` is unique on `urls` and merely indexed on `click_events`.

`Url.bump` is the only change the service ever makes to a committed row.
-/

set_option autoImplicit false

namespace UrlShortener

/-- A shortened URL mapping and its aggregate click counter. -/
structure Url where
  id : ℕ
  shortCode : String
  longUrl : String
  createdAt : ℤ
  /-- `none` means that the link never expires. -/
  expiresAt : Option ℤ
  /-- Optional owner or creator identifier. -/
  clientId : Option String
  clickCount : ℕ
  deriving DecidableEq, Repr

/-- One redirect hit against a short code. -/
structure ClickEvent where
  id : ℕ
  shortCode : String
  clickedAt : ℤ
  referrer : Option String
  userAgent : Option String
  /-- Salted hash of the client address. -/
  clientIpHash : Option String
  deriving DecidableEq, Repr

/-- `SET click_count = click_count + 1`. -/
def Url.bump (u : Url) : Url := { u with clickCount := u.clickCount + 1 }

@[simp] theorem Url.bump_id (u : Url) : u.bump.id = u.id := rfl
@[simp] theorem Url.bump_shortCode (u : Url) : u.bump.shortCode = u.shortCode := rfl
@[simp] theorem Url.bump_longUrl (u : Url) : u.bump.longUrl = u.longUrl := rfl
@[simp] theorem Url.bump_createdAt (u : Url) : u.bump.createdAt = u.createdAt := rfl
@[simp] theorem Url.bump_expiresAt (u : Url) : u.bump.expiresAt = u.expiresAt := rfl
@[simp] theorem Url.bump_clientId (u : Url) : u.bump.clientId = u.clientId := rfl
@[simp] theorem Url.bump_clickCount (u : Url) : u.bump.clickCount = u.clickCount + 1 := rfl

/-- A row without its counter: what belongs to the link itself. -/
def Url.link (u : Url) : Url := { u with clickCount := 0 }

@[simp] theorem Url.bump_link (u : Url) : u.bump.link = u.link := rfl

theorem Url.longUrl_eq_of_link {u u' : Url} (h : u'.link = u.link) : u'.longUrl = u.longUrl :=
  (congrArg Url.longUrl h : u'.link.longUrl = u.link.longUrl)

theorem Url.expiresAt_eq_of_link {u u' : Url} (h : u'.link = u.link) :
    u'.expiresAt = u.expiresAt :=
  (congrArg Url.expiresAt h : u'.link.expiresAt = u.link.expiresAt)

/-! ## What the columns accept -/

/-- A `text` value. -/
def isText (s : String) : Bool := !hasNul s

/-- A `varchar(n)` value.  A longer one is rejected, not truncated. -/
def isVarchar (n : ℕ) (s : String) : Bool := decide (s.length ≤ n) && isText s

/-- Whether the columns of `urls` accept a row. -/
def Url.isStorable (u : Url) : Bool :=
  isVarchar 10 u.shortCode && isText u.longUrl && u.clientId.all (isVarchar 64)

/-- Whether the columns of `click_events` accept a row. -/
def ClickEvent.isStorable (e : ClickEvent) : Bool :=
  isVarchar 10 e.shortCode && e.referrer.all isText && e.userAgent.all isText &&
    e.clientIpHash.all (isVarchar 64)

end UrlShortener
