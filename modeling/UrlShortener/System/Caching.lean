import UrlShortener.System.RedisOps
import UrlShortener.Library.Lease
import UrlShortener.Library.Trace

/-!
# Which redirects the cache answers

The time to live of a cached URL is refreshed on every read, so that links in use stay cached and
others age out.  For one short code this is a lease: a back-fill grants it, a read that Redis
executes uses it, and the loss of the key revokes it.  Calls whose reply is lost count as well,
since Redis has executed them, and calls that never arrived do not.

## What is proved

`App.cached_iff`: in every reachable state, the cache answers a read exactly if the read meets no
fault and the lease has been kept up to now.  The keys of other codes, the buckets and the database
have no part in it.
-/

set_option autoImplicit false

namespace UrlShortener

open Keyspace (Store Command Entry)

/-! ## What concerns one code -/

section Code

variable (shortCode : String)

/-- What a call of the service means for the lease of a code. -/
def Op.leaseEvents (redisTime : ℤ) : Op → List (Lease.Event String ℤ)
  | .getCachedUrl fault shortCode' =>
      if shortCode' = shortCode ∧ fault ≠ .lostCall then [.use redisTime] else []
  | .setCachedUrl fault shortCode' longUrl _ =>
      if shortCode' = shortCode ∧ fault ≠ .lostCall then [.grant longUrl redisTime] else []
  | _ => []

/-- What an action means for it. -/
def leaseEvents (_ : ℕ) (action : Action) (shared : Shared) (h : Handler) :
    List (Lease.Event String ℤ) :=
  (redisOp? h action).elim [] (Op.leaseEvents shortCode shared.redisTime)

/-- What the environment means for it. -/
def leaseLosses (e : Env) (_ : Shared) : List (Lease.Event String ℤ) :=
  match e with
  | .evict key => if key = UrlCache.key shortCode then [.revoke] else []
  | _ => []

/-- What a run means for it. -/
def App.leaseTrace (app : App) (es : List Event) : List (Lease.Event String ℤ) :=
  app.system.trace (leaseEvents shortCode) (leaseLosses shortCode) (app.run []) es

/-- The keyspace holds a lease under the key of a code. -/
def HoldsLease (redis : Store String RedisValue) (lease : Option (String × ℤ)) : Prop :=
  redis (UrlCache.key shortCode) = lease.map fun l => ⟨.string l.1, some l.2⟩

end Code

/-! ## A call on the shared keyspace -/

section Calls

variable {shortCode : String} {redis : Store String RedisValue} {lease : Option (String × ℤ)}

theorem HoldsLease.read (h : HoldsLease shortCode redis lease) (redisNow : ℤ) :
    Keyspace.read redis redisNow (UrlCache.key shortCode) =
      (Lease.held lease redisNow).map RedisValue.string := by
  unfold HoldsLease at h
  rw [Keyspace.read, h]
  cases lease with
  | none => rfl
  | some l =>
    by_cases hlive : redisNow < l.2
    · simp [Lease.held, Entry.live, hlive]
    · simp [Lease.held, Entry.live, hlive]

/-- **A read is answered exactly if it meets no fault and the lease is held.** -/
theorem HoldsLease.getCachedUrl (h : HoldsLease shortCode redis lease) (settings : Settings)
    (redisNow : ℤ) (fault : Fault) :
    ((UrlCache.getCachedUrl settings redisNow fault shortCode).exec redisNow redis).1.1 =
      if fault = .none then Lease.held lease redisNow else none := by
  rw [Command.exec, UrlCache.getCachedUrl_key, h.read]
  cases fault with
  | none => cases Lease.held lease redisNow <;> rfl
  | lostCall => rfl
  | lostReply => rfl

/-- A read that Redis executes uses the lease. -/
theorem HoldsLease.use (h : HoldsLease shortCode redis lease) (settings : Settings)
    (redisNow : ℤ) {fault : Fault} (hfault : fault ≠ .lostCall) :
    HoldsLease shortCode
      ((UrlCache.getCachedUrl settings redisNow fault shortCode).exec redisNow redis).2
      (Lease.apply (1000 * (settings.cacheTtlSeconds : ℤ)) lease (.use redisNow)) := by
  have hact : ((UrlCache.getCachedUrl settings redisNow fault shortCode).act
      ((Lease.held lease redisNow).map RedisValue.string)).2 =
      (Lease.held lease redisNow).elim .keep fun longUrl =>
        .put (.string longUrl) (some (redisNow + 1000 * (settings.cacheTtlSeconds : ℤ))) := by
    cases fault with
    | none | lostReply => cases Lease.held lease redisNow <;> rfl
    | lostCall => exact absurd rfl hfault
  rw [Command.exec, UrlCache.getCachedUrl_key, h.read, hact]
  cases lease with
  | none => exact h
  | some l =>
    by_cases hlive : redisNow < l.2
    · have hheld : Lease.held (some l) redisNow = some l.1 := if_pos hlive
      have hmove : Lease.apply (1000 * (settings.cacheTtlSeconds : ℤ)) (some l) (.use redisNow) =
          some (l.1, redisNow + 1000 * settings.cacheTtlSeconds) := congrArg some (if_pos hlive)
      rw [hheld, hmove]
      exact Keyspace.write_put_self _ _ _ _
    · have hended : Lease.held (some l) redisNow = none := if_neg hlive
      have hstays : Lease.apply (1000 * (settings.cacheTtlSeconds : ℤ)) (some l) (.use redisNow) =
          some l := congrArg some (if_neg hlive)
      rw [hended, hstays]
      exact h

/-- A back-fill that Redis executes grants it. -/
theorem holdsLease_grant (redis : Store String RedisValue) (lease : Option (String × ℤ))
    (settings : Settings) (redisNow : ℤ) (shortCode longUrl : String) {fault : Fault}
    (hfault : fault ≠ .lostCall) :
    HoldsLease shortCode
      ((UrlCache.setCachedUrl settings redisNow fault shortCode longUrl none).exec redisNow redis).2
      (Lease.apply (1000 * (settings.cacheTtlSeconds : ℤ)) lease (.grant longUrl redisNow)) := by
  rw [Command.exec, UrlCache.setCachedUrl_key, UrlCache.setCachedUrl_writes _ _ hfault]
  exact Keyspace.write_put_self _ _ _ _

end Calls

/-! ## Actions -/

section Actions

variable {shortCode : String} {lease : Option (String × ℤ)}

/-- **One action of the service is a step of the lease.** -/
theorem act_lease (app : App) (i : ℕ) (action : Action) (shared : Shared) (h : Handler)
    (hlease : HoldsLease shortCode shared.redis lease) :
    HoldsLease shortCode (act app i action shared h).1.redis
      (Run.exec (Lease.apply (1000 * (app.settings.cacheTtlSeconds : ℤ))) lease
        (leaseEvents shortCode i action shared h)) := by
  have hother : (∀ op ∈ redisOp? h action, op.tenant ≠ .code shortCode) →
      HoldsLease shortCode (act app i action shared h).1.redis lease := fun hne =>
    (act_redis_of_ne app i action shared h (.code shortCode) hne).trans hlease
  rw [leaseEvents]
  cases hop : redisOp? h action with
  | none =>
    refine hother fun op hmem => ?_
    rw [hop] at hmem
    cases hmem
  | some op =>
    rw [Option.elim_some]
    have hredis := act_redis app i action shared h
    rw [hop, afterOp] at hredis
    have hforeign : op.tenant ≠ .code shortCode →
        HoldsLease shortCode (act app i action shared h).1.redis lease := by
      refine fun hne => hother fun op' hmem => ?_
      rw [hop, Option.mem_some_iff] at hmem
      exact hmem ▸ hne
    -- A call on another code, or one that is lost, does not touch the lease.
    have hmisses : ∀ {shortCode'}, op.tenant = .code shortCode' →
        ¬ (shortCode' = shortCode ∧ op.fault ≠ .lostCall) →
        HoldsLease shortCode (act app i action shared h).1.redis lease := by
      intro shortCode' htenant hnot
      by_cases hcode : shortCode' = shortCode
      · have hlost : op.fault = .lostCall := by
          by_contra hfault
          exact hnot ⟨hcode, hfault⟩
        rw [hredis, Op.exec_lostCall hlost]
        exact hlease
      · exact hforeign fun heq => hcode (Tenant.code.inj (htenant.symm.trans heq))
    rcases redisOp?_cases hop with ⟨nowMs, fault, clientId, routeClass, rfl⟩ |
      ⟨fault, shortCode', rfl⟩ | ⟨fault, shortCode', longUrl, rfl⟩
    · exact hforeign Tenant.noConfusion
    · rw [Op.leaseEvents]
      split
      · rename_i hown
        obtain ⟨rfl, hfault⟩ := hown
        rw [hredis]
        exact hlease.use app.settings shared.redisTime hfault
      · exact hmisses rfl ‹_›
    · rw [Op.leaseEvents]
      split
      · rename_i hown
        obtain ⟨rfl, hfault⟩ := hown
        rw [hredis]
        exact holdsLease_grant shared.redis lease app.settings shared.redisTime shortCode' longUrl
          hfault
      · exact hmisses rfl ‹_›

theorem env_lease (ttl : ℤ) (e : Env) {shared : Shared}
    (hlease : HoldsLease shortCode shared.redis lease) :
    HoldsLease shortCode (e.apply shared).redis
      (Run.exec (Lease.apply ttl) lease (leaseLosses shortCode e shared)) := by
  cases e with
  | tick clock => exact hlease
  | redisTick elapsedMs => exact hlease
  | evict key =>
    rw [leaseLosses]
    split
    · rename_i hkey
      subst hkey
      exact Function.update_self _ _ _
    · rename_i hkey
      exact (Keyspace.write_of_ne shared.redis (Ne.symm hkey) .erase).trans hlease

end Actions

/-! ## Runs -/

/-- The key of a code holds its lease in every reachable state. -/
theorem App.holdsLease_run (app : App) (shortCode : String) (es : List Event) :
    HoldsLease shortCode (app.run es).shared.redis
      (Lease.after (1000 * (app.settings.cacheTtlSeconds : ℤ)) (app.leaseTrace shortCode es)) :=
  have hinitial : HoldsLease shortCode (app.run []).shared.redis none := rfl
  (app.system.simulates (leaseEvents shortCode) (leaseLosses shortCode)
    (fun _ _ _ _ => ([] : List Unit)) (Lease.apply (1000 * (app.settings.cacheTtlSeconds : ℤ)))
    (fun _ _ => []) (R := fun shared lease => HoldsLease shortCode shared.redis lease)
    (fun _ i action h _ _ hlease =>
      ⟨act_lease app i action _ h hlease, (Run.trace_nil _ _ _).symm⟩)
    (fun e _ _ hlease => ⟨env_lease _ e hlease, Run.trace_nil _ _ _⟩)
    hinitial es).1

/-- Only the environment lets Redis time pass. -/
theorem act_redisTime (app : App) (i : ℕ) (action : Action) (shared : Shared) (h : Handler) :
    (act app i action shared h).1.redisTime = shared.redisTime := by
  cases action with
  | background choice =>
    obtain ⟨db, hshared⟩ := recordClick_frame i choice shared h
    show (recordClick i choice shared h).1.redisTime = _
    rw [hshared]
  | advance choice =>
    show (advance app i choice shared h).1.redisTime = _
    unfold advance
    split
    · rw [observabilityEntry_fst]
    · unfold rateLimit
      dsimp only
      split <;> rfl
    · rename_i payload point _
      obtain ⟨db, hshared⟩ := createUrl_frame app i choice shared h payload point
      rw [hshared]
    · rename_i shortCode point _
      obtain ⟨shared', h', hsteps, hresult⟩ := @redirect_steps app choice shared h shortCode point
      rw [hresult]
      cases hsteps <;> rfl
    · exact congrArg Shared.redisTime (getStats_frame _ _ _ _ _)
    · split <;> rfl
    · rfl
    · rfl
    · rfl

/-- What an event means for a lease happens at the time of the event. -/
theorem times_emits (shortCode : String) (w : Interleaving.World Shared Handler) (e : Event) :
    (Interleaving.System.emits (leaseEvents shortCode) (leaseLosses shortCode) w e).filterMap
        Lease.Event.time? = [] ∨
      (Interleaving.System.emits (leaseEvents shortCode) (leaseLosses shortCode) w e).filterMap
        Lease.Event.time? = [w.shared.redisTime] := by
  cases e with
  | arrive request => exact Or.inl rfl
  | env e =>
    refine Or.inl ?_
    rw [Interleaving.System.emits]
    unfold leaseLosses
    split
    · split <;> rfl
    · rfl
  | act i action =>
    rw [Interleaving.System.emits]
    cases w.procs[i]? with
    | none => exact Or.inl rfl
    | some h =>
      rw [Option.elim_some, leaseEvents]
      cases redisOp? h action with
      | none => exact Or.inl rfl
      | some op =>
        rw [Option.elim_some]
        unfold Op.leaseEvents
        split
        · split
          · exact Or.inr rfl
          · exact Or.inl rfl
        · split
          · exact Or.inr rfl
          · exact Or.inl rfl
        · exact Or.inl rfl

/-- Redis time does not go back. -/
theorem redisTime_step (app : App) (w : Interleaving.World Shared Handler) (e : Event) :
    w.shared.redisTime ≤ (app.system.step w e).shared.redisTime := by
  cases e with
  | arrive request => exact le_rfl
  | env e =>
    cases e with
    | tick clock => exact le_rfl
    | redisTick elapsedMs => exact le_add_of_nonneg_right (Int.natCast_nonneg elapsedMs)
    | evict key => exact le_rfl
  | act i action =>
    cases hi : w.procs[i]? with
    | none => rw [app.system.step_act_of_none hi]
    | some h =>
      rw [app.system.step_act_of_some hi]
      exact (act_redisTime app i action w.shared h).ge

/-- **The history of a lease does not go back in time.** -/
theorem App.sorted_leaseTrace (app : App) (shortCode : String) (es : List Event) :
    ((app.leaseTrace shortCode es).filterMap Lease.Event.time? ++
      [(app.run es).shared.redisTime]).Pairwise (· ≤ ·) := by
  induction es using List.reverseRecOn with
  | nil => exact List.pairwise_singleton _ _
  | append_singleton es e ih =>
    have hle := redisTime_step app (app.run es) e
    rw [← app.run_concat] at hle
    have htrace : app.leaseTrace shortCode (es ++ [e]) =
        app.leaseTrace shortCode es ++ Interleaving.System.emits (leaseEvents shortCode)
          (leaseLosses shortCode) (app.run es) e := by
      rw [App.leaseTrace, Interleaving.System.trace_append]
      exact congrArg _ (List.append_nil _)
    obtain ⟨htimes, -, hbefore⟩ := List.pairwise_append.mp ih
    have hbound : ∀ t ∈ (app.leaseTrace shortCode es).filterMap Lease.Event.time?,
        t ≤ (app.run es).shared.redisTime := fun t ht =>
      hbefore t ht _ (List.mem_singleton.mpr rfl)
    rw [htrace, List.filterMap_append]
    rcases times_emits shortCode (app.run es) e with hnone | hone
    · rw [hnone, List.append_nil]
      refine List.pairwise_append.mpr ⟨htimes, List.pairwise_singleton _ _, fun t ht t' ht' => ?_⟩
      rw [List.mem_singleton.mp ht']
      exact (hbound t ht).trans hle
    · rw [hone]
      refine List.pairwise_append.mpr ⟨ih, List.pairwise_singleton _ _, fun t ht t' ht' => ?_⟩
      rw [List.mem_singleton.mp ht']
      rcases List.mem_append.mp ht with ht | ht
      · exact (hbound t ht).trans hle
      · exact (List.mem_singleton.mp ht).le.trans hle

/-- **The cache answers a read exactly if the read meets no fault and the lease has been kept.** -/
theorem App.cached_iff (app : App) (es : List Event) (fault : Fault) (shortCode longUrl : String) :
    ((app.run es).shared.redisCall (UrlCache.getCachedUrl app.settings
        (app.run es).shared.redisTime fault shortCode)).1 = some longUrl ↔
      fault = .none ∧ Lease.Kept (1000 * (app.settings.cacheTtlSeconds : ℤ))
        (app.leaseTrace shortCode es) (app.run es).shared.redisTime longUrl := by
  rw [← Lease.held_iff (app.sorted_leaseTrace shortCode es), Shared.redisCall_fst,
    (app.holdsLease_run shortCode es).getCachedUrl]
  split
  · rename_i hfault
    exact (and_iff_right hfault).symm
  · rename_i hfault
    exact iff_of_false (fun h => by cases h) fun h => hfault h.1

end UrlShortener
