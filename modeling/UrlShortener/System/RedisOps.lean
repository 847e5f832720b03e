import UrlShortener.System.Lookup
import UrlShortener.System.Phases
import UrlShortener.Core.Tenants

/-!
# The service as a client of Redis

An action of a request issues at most one call on the limiter or on the cache, and everything else
it does leaves Redis alone.  So a run of the service is, for Redis, a run of such calls, with keys
lost in between.

## What is proved

* `act_redis` says which call an action issues, if any.
* `act_redis_of_ne` is the frame law: a key changes only under calls of its own tenant.
* `App.redisSound_run`: in every reachable state each entry of Redis belongs to a tenant, has the
  type its tenant expects, and carries a deadline that is not far away.  So a call never meets
  `WRONGTYPE`, and keys that are not used any more are gone after a while, although nothing sweeps
  them.
-/

set_option autoImplicit false

namespace UrlShortener

open Keyspace (Store Command Entry)

/-- The call on the limiter or the cache that comes next. -/
def Phase.redisOp? (clientId : String) (fault : Fault) : Phase → Option Op
  | .checkScript routeClass nowMs => some (.check nowMs fault clientId routeClass)
  | .redirect shortCode .getCachedUrl => some (.getCachedUrl fault shortCode)
  | .redirect shortCode (.setCachedUrl longUrl) => some (.setCachedUrl fault shortCode longUrl none)
  | _ => none

/-- The call on the limiter or the cache that an action issues. -/
def redisOp? (h : Handler) : Action → Option Op
  | .advance choice => h.phase.redisOp? h.clientId choice.fault
  | .background _ => none

/-- Redis after a call, if there is one. -/
def afterOp (settings : Settings) (redisTime : ℤ) (redis : Store String RedisValue) :
    Option Op → Store String RedisValue
  | none => redis
  | some op => ((op.command settings redisTime).exec redisTime redis).2

theorem redirect_redis (app : App) (choice : Choice) (shared : Shared) (h : Handler)
    (shortCode : String) (point : RedirectPoint) :
    (redirect app choice shared h shortCode point).1.redis =
      afterOp app.settings shared.redisTime shared.redis
        ((Phase.redirect shortCode point).redisOp? h.clientId choice.fault) := by
  obtain ⟨shared', h', hsteps, hresult⟩ := redirect_steps point
  rw [hresult]
  cases hsteps <;> rfl

/-- **What an action does to Redis** is the call it issues. -/
theorem act_redis (app : App) (i : ℕ) (action : Action) (shared : Shared) (h : Handler) :
    (act app i action shared h).1.redis =
      afterOp app.settings shared.redisTime shared.redis (redisOp? h action) := by
  cases action with
  | background choice => exact recordClick_redis i choice shared h
  | advance choice =>
    show (advance app i choice shared h).1.redis =
      afterOp app.settings shared.redisTime shared.redis
        (h.phase.redisOp? h.clientId choice.fault)
    unfold advance
    split
    · rename_i hphase
      rw [hphase, observabilityEntry_fst]
      rfl
    · rename_i hphase
      rw [hphase]
      unfold rateLimit
      dsimp only
      split <;> rfl
    · rename_i hphase
      rw [hphase]
      exact createUrl_redis _ _ _ _ _ _ _
    · rename_i hphase
      rw [hphase]
      exact redirect_redis _ _ _ _ _ _
    · rename_i hphase
      rw [hphase]
      exact getStats_redis _ _ _ _ _
    · rename_i hphase
      rw [hphase]
      split <;> rfl
    · rename_i hphase
      rw [hphase]
      rfl
    · rename_i hphase
      rw [hphase]
      rfl
    · rename_i hphase
      rw [hphase]
      rfl

/-- **Keys change under their own tenant's calls only.** -/
theorem act_redis_of_ne (app : App) (i : ℕ) (action : Action) (shared : Shared) (h : Handler)
    (tenant : Tenant) (hne : ∀ op ∈ redisOp? h action, op.tenant ≠ tenant) :
    (act app i action shared h).1.redis tenant.key = shared.redis tenant.key := by
  rw [act_redis]
  cases hop : redisOp? h action with
  | none => rfl
  | some op =>
    refine Command.exec_of_ne _ _ _ fun hkey => hne op hop ?_
    rw [Op.command_key] at hkey
    exact (Tenant.key_injective hkey).symm

/-! ## What Redis holds -/

/-- The type of a tenant's values. -/
def Tenant.Types : Tenant → RedisValue → Prop
  | .bucket _ _, .hash _ => True
  | .code _, .string _ => True
  | _, _ => False

/-- The time to live of a tenant's entries, in milliseconds. -/
def Tenant.ttl (settings : Settings) : Tenant → ℤ
  | .bucket _ routeClass =>
      ttlMs (RateLimiter.limitsFor settings routeClass).1
        (RateLimiter.limitsFor settings routeClass).2
  | .code _ => 1000 * settings.cacheTtlSeconds

/-- The fault that meets a call. -/
def Op.fault : Op → Fault
  | .check _ fault _ _ => fault
  | .getCachedUrl fault _ => fault
  | .setCachedUrl fault _ _ _ => fault
  | .invalidateCachedUrl fault _ => fault

/-- What a call records. -/
def Answer.metrics : Answer → List Metric
  | .checked _ metrics => metrics
  | .cached _ metrics => metrics
  | .written metrics => metrics

/-- A call that fell back, as when Redis was unreachable. -/
def Answer.FellBack (answer : Answer) : Prop :=
  ∃ component operation, .redisFallbackTotal component operation ∈ answer.metrics

theorem check_writes (settings : Settings) (redisTime nowMs : ℤ) (fault : Fault)
    (clientId : String) (routeClass : RouteClass) (v : Option RedisValue) :
    ((RateLimiter.check settings redisTime nowMs fault clientId routeClass).act v).2 = .keep ∨
      ∃ b, ((RateLimiter.check settings redisTime nowMs fault clientId routeClass).act v).2 =
        .put (.hash b) (some (redisTime + (Tenant.bucket clientId routeClass).ttl settings)) := by
  cases fault with
  | lostCall => exact Or.inl rfl
  | none | lostReply =>
    rcases v with _ | (b | s)
    · exact Or.inr ⟨_, rfl⟩
    · exact Or.inr ⟨_, rfl⟩
    · exact Or.inl rfl

theorem getCachedUrl_writes (settings : Settings) (redisTime : ℤ) (fault : Fault)
    (shortCode : String) (v : Option RedisValue) :
    ((UrlCache.getCachedUrl settings redisTime fault shortCode).act v).2 = .keep ∨
      ∃ s, ((UrlCache.getCachedUrl settings redisTime fault shortCode).act v).2 =
        .put (.string s) (some (redisTime + (Tenant.code shortCode).ttl settings)) := by
  cases fault with
  | lostCall => exact Or.inl rfl
  | none | lostReply =>
    rcases v with _ | (b | s)
    · exact Or.inl rfl
    · exact Or.inl rfl
    · exact Or.inr ⟨s, rfl⟩

theorem setCachedUrl_writes (settings : Settings) (redisTime : ℤ) (fault : Fault)
    (shortCode longUrl : String) (v : Option RedisValue) :
    ((UrlCache.setCachedUrl settings redisTime fault shortCode longUrl none).act v).2 = .keep ∨
      ∃ s, ((UrlCache.setCachedUrl settings redisTime fault shortCode longUrl none).act v).2 =
        .put (.string s) (some (redisTime + (Tenant.code shortCode).ttl settings)) := by
  cases fault with
  | lostCall => exact Or.inl rfl
  | none | lostReply =>
    exact Or.inr ⟨longUrl, UrlCache.setCachedUrl_writes settings redisTime Fault.noConfusion _ _ v⟩

/-- The calls that the handlers issue. -/
theorem redisOp?_cases {h : Handler} {action : Action} {op : Op}
    (hop : redisOp? h action = some op) :
    (∃ nowMs fault clientId routeClass, op = .check nowMs fault clientId routeClass) ∨
      (∃ fault shortCode, op = .getCachedUrl fault shortCode) ∨
      ∃ fault shortCode longUrl, op = .setCachedUrl fault shortCode longUrl none := by
  cases action with
  | background choice => cases hop
  | advance choice =>
    rw [redisOp?] at hop
    cases hphase : h.phase with
    | checkScript routeClass nowMs =>
      rw [hphase] at hop
      exact Or.inl ⟨_, _, _, _, (Option.some.inj hop).symm⟩
    | redirect shortCode point =>
      rw [hphase] at hop
      cases point with
      | getCachedUrl => exact Or.inr (Or.inl ⟨_, _, (Option.some.inj hop).symm⟩)
      | setCachedUrl longUrl => exact Or.inr (Or.inr ⟨_, _, _, (Option.some.inj hop).symm⟩)
      | getUrl | now => cases hop
    | middleware | createUrl | getStats | commit | rollback | respond | done =>
      rw [hphase] at hop
      cases hop

/-- **What a call of the service writes** has the type of its tenant and a fresh deadline. -/
theorem redisOp?_writes {h : Handler} {action : Action} {op : Op}
    (hop : redisOp? h action = some op) (settings : Settings) (redisTime : ℤ)
    (v : Option RedisValue) :
    ((op.command settings redisTime).act v).2 = .keep ∨
      ∃ value, ((op.command settings redisTime).act v).2 =
        .put value (some (redisTime + op.tenant.ttl settings)) ∧ op.tenant.Types value := by
  rcases redisOp?_cases hop with ⟨nowMs, fault, clientId, routeClass, rfl⟩ |
    ⟨fault, shortCode, rfl⟩ | ⟨fault, shortCode, longUrl, rfl⟩
  · exact (check_writes ..).imp_right fun ⟨b, hb⟩ => ⟨.hash b, hb, trivial⟩
  · exact (getCachedUrl_writes ..).imp_right fun ⟨s, hs⟩ => ⟨.string s, hs, trivial⟩
  · exact (setCachedUrl_writes ..).imp_right fun ⟨s, hs⟩ => ⟨.string s, hs, trivial⟩

/-- A call that is lost on its way changes nothing. -/
theorem Op.exec_lostCall {op : Op} (hfault : op.fault = .lostCall) (settings : Settings)
    (redisTime : ℤ) (redis : Store String RedisValue) :
    ((op.command settings redisTime).exec redisTime redis).2 = redis := by
  cases op with
  | check _ fault | getCachedUrl fault | setCachedUrl fault | invalidateCachedUrl fault =>
    obtain rfl : fault = .lostCall := hfault
    rfl

/-- **A call of the service that meets no fault is answered**, where the value has the type of its
tenant. -/
theorem redisOp?_not_fellBack {h : Handler} {action : Action} {op : Op}
    (hop : redisOp? h action = some op) (hfault : op.fault = .none) (settings : Settings)
    (redisTime : ℤ) {v : Option RedisValue} (hv : ∀ value ∈ v, op.tenant.Types value) :
    ¬ ((op.command settings redisTime).act v).1.FellBack := by
  rintro ⟨component, operation, hmem⟩
  rcases redisOp?_cases hop with ⟨nowMs, fault, clientId, routeClass, rfl⟩ |
    ⟨fault, shortCode, rfl⟩ | ⟨fault, shortCode, longUrl, rfl⟩
  · obtain rfl : fault = .none := hfault
    rcases v with _ | (b | s)
    · simp [Op.command, RateLimiter.check, withFault, evalScript, RateLimiter.decodeReply,
        Answer.metrics] at hmem
    · simp [Op.command, RateLimiter.check, withFault, evalScript, RateLimiter.decodeReply,
        Answer.metrics] at hmem
    · exact (hv _ rfl).elim
  · obtain rfl : fault = .none := hfault
    rcases v with _ | (b | s)
    · simp [Op.command, UrlCache.getCachedUrl, withFault, getex, UrlCache.decodeGet,
        Answer.metrics] at hmem
    · exact (hv _ rfl).elim
    · simp [Op.command, UrlCache.getCachedUrl, withFault, getex, UrlCache.decodeGet,
        Answer.metrics] at hmem
  · obtain rfl : fault = .none := hfault
    simp [Op.command, UrlCache.setCachedUrl, withFault, UrlCache.set_cacheTtlSeconds,
      UrlCache.decodeWrite, Answer.metrics] at hmem

/-! ## Runs -/

/-- The `n`-th event of a run issues a call of a tenant. -/
def CalledAt (app : App) (es : List Event) (n : ℕ) (tenant : Tenant) : Prop :=
  ∃ i action h op, es[n]? = some (.act i action) ∧ (app.stateAt es n).procs[i]? = some h ∧
    redisOp? h action = some op ∧ op.tenant = tenant

/-- An entry was written by a call of its tenant, and that is when its time to live began. -/
def WrittenBy (app : App) (es : List Event) (key : String) (entry : Entry RedisValue) : Prop :=
  ∃ tenant n, n < es.length ∧ CalledAt app es n tenant ∧ key = tenant.key ∧
    tenant.Types entry.value ∧
    entry.deadline = some ((app.stateAt es n).shared.redisTime + tenant.ttl app.settings)

theorem WrittenBy.concat {app : App} {es : List Event} {key : String} {entry : Entry RedisValue}
    (h : WrittenBy app es key entry) (e : Event) : WrittenBy app (es ++ [e]) key entry := by
  obtain ⟨tenant, n, hn, ⟨i, action, handler, op, hevent, hi, hop⟩, hentry⟩ := h
  refine ⟨tenant, n, by rw [List.length_append]; omega, ⟨i, action, handler, op, ?_, ?_, hop⟩, ?_⟩
  · exact (List.getElem?_append_left hn).trans hevent
  · rwa [app.stateAt_concat hn.le]
  · rwa [app.stateAt_concat hn.le]

/-- The entry a call writes. -/
theorem writtenBy_concat {app : App} {es : List Event} {i : ℕ} {h : Handler} {action : Action}
    {op : Op} (hi : (app.run es).procs[i]? = some h) (hop : redisOp? h action = some op)
    {value : RedisValue} (htypes : op.tenant.Types value) :
    WrittenBy app (es ++ [.act i action]) op.tenant.key
      ⟨value, some ((app.run es).shared.redisTime + op.tenant.ttl app.settings)⟩ := by
  refine ⟨op.tenant, es.length, by simp, ⟨i, action, h, op, by simp, ?_, hop, rfl⟩, rfl, htypes, ?_⟩
  · rwa [app.stateAt_concat le_rfl, app.stateAt_length]
  · rw [app.stateAt_concat le_rfl, app.stateAt_length]

/-- **Every entry was written by a call of its tenant.**  The induction is on the run. -/
theorem App.writtenBy_run (app : App) (es : List Event) (key : String) (entry : Entry RedisValue)
    (hentry : (app.run es).shared.redis key = some entry) : WrittenBy app es key entry := by
  induction es using List.reverseRecOn generalizing entry with
  | nil => cases hentry
  | append_singleton es e ih =>
    rw [app.run_concat] at hentry
    cases e with
    | arrive request => exact (ih entry hentry).concat _
    | env e =>
      cases e with
      | tick clock => exact (ih entry hentry).concat _
      | redisTick elapsedMs => exact (ih entry hentry).concat _
      | evict key' =>
        refine (ih entry ?_).concat _
        by_cases hkey : key = key'
        · subst hkey
          rw [show (app.system.step (app.run es) (.env (.evict key))).shared.redis key = none from
            Function.update_self _ _ _] at hentry
          cases hentry
        · rw [← hentry]
          exact (Keyspace.write_of_ne _ hkey .erase).symm
    | act i action =>
      cases hi : (app.run es).procs[i]? with
      | none =>
        rw [app.system.step_act_of_none hi] at hentry
        exact (ih entry hentry).concat _
      | some h =>
        rw [app.system.step_act_of_some hi] at hentry
        have hredis := act_redis app i action (app.run es).shared h
        cases hop : redisOp? h action with
        | none =>
          rw [hop] at hredis
          exact (ih entry ((congrFun hredis key).symm.trans hentry)).concat _
        | some op =>
          rw [hop] at hredis
          have hafter := (congrFun hredis key).symm.trans hentry
          by_cases hkey : key = (op.command app.settings (app.run es).shared.redisTime).key
          · rw [afterOp, Command.exec] at hafter
            rcases redisOp?_writes hop app.settings (app.run es).shared.redisTime
              (Keyspace.read (app.run es).shared.redis (app.run es).shared.redisTime
                (op.command app.settings (app.run es).shared.redisTime).key) with
              hkeep | ⟨value, hput, htypes⟩
            · rw [hkeep] at hafter
              exact (ih entry hafter).concat _
            · rw [hput, hkey] at hafter
              obtain rfl := Option.some.inj
                ((Keyspace.write_put_self _ _ _ _).symm.trans hafter)
              rw [hkey, Op.command_key]
              exact writtenBy_concat hi hop htypes
          · rw [afterOp, Command.exec_of_ne _ _ _ hkey] at hafter
            exact (ih entry hafter).concat _

/-- Redis in a state of a run. -/
structure RedisSound (app : App) (es : List Event) : Prop where
  /-- Every entry was written by a call of its tenant, with the time to live of its tenant. -/
  written : ∀ key entry, (app.run es).shared.redis key = some entry → WrittenBy app es key entry
  /-- What a reader sees has been used within its time to live. -/
  fresh : ∀ key value,
    Keyspace.read (app.run es).shared.redis (app.run es).shared.redisTime key = some value →
    ∃ tenant n, n < es.length ∧ CalledAt app es n tenant ∧ key = tenant.key ∧
      (app.run es).shared.redisTime <
        (app.stateAt es n).shared.redisTime + tenant.ttl app.settings
  /-- Only a fault makes a call fall back: no call meets a value of another type. -/
  answered : ∀ (i : ℕ) h action op, (app.run es).procs[i]? = some h → redisOp? h action = some op →
    op.fault = .none →
    ¬ ((op.command app.settings (app.run es).shared.redisTime).exec
      (app.run es).shared.redisTime (app.run es).shared.redis).1.FellBack

/-- **Redis stays sound without a sweeper.**  In every reachable state, whatever text the clients
have put into keys, every entry belongs to a bucket or a short code, has the type that its owner
expects, and disappears once nobody has used it for its time to live. -/
theorem App.redisSound_run (app : App) (es : List Event) : RedisSound app es where
  written := app.writtenBy_run es
  fresh := by
    intro key value hread
    unfold Keyspace.read at hread
    obtain ⟨entry, hentry, hlive⟩ := Option.bind_eq_some_iff.mp hread
    obtain ⟨tenant, n, hn, hcalled, hkey, -, hdeadline⟩ := app.writtenBy_run es key entry hentry
    refine ⟨tenant, n, hn, hcalled, hkey, ?_⟩
    rw [Option.ite_none_right_eq_some, Entry.live, hdeadline, decide_eq_true_eq] at hlive
    exact hlive.1
  answered := by
    intro i h action op hi hop hfault
    refine redisOp?_not_fellBack hop hfault _ _ fun value hvalue => ?_
    obtain ⟨deadline, hentry⟩ := Keyspace.exists_entry_of_read hvalue
    obtain ⟨tenant, n, -, -, hkey, htypes, -⟩ := app.writtenBy_run es _ _ hentry
    rw [Op.command_key] at hkey
    rwa [Tenant.key_injective hkey]

end UrlShortener
