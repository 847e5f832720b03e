import UrlShortener.System.Booking
import UrlShortener.System.Errors

/-!
# The outcome counters are a ledger

A step of a request is booked under what it observably does (`entries`).  This file adds the
entries up over runs and reads off the single series.

## What is proved

* `App.counters`: every time series has grown by the number of steps that belong to it, and no
  request is counted twice or before its response is settled, whatever fails.
* `App.outcomes_run`: a redirect that the database has answered is counted exactly if its response is
  settled and not an unmapped error.
* `App.ledger_iff`: so no redirect is left out, in the runs whose redirects are of some class,
  exactly if all of the class are storable and have a URL that can be read.
-/

set_option autoImplicit false

namespace UrlShortener

theorem App.checksOwnClass_run (app : App) (es : List Event) {i : ℕ} {h : Handler}
    (hi : (app.run es).procs[i]? = some h) : h.ChecksOwnClass := by
  refine (app.safety (P := fun _ _ _ h => h.ChecksOwnClass) (Q := fun _ => True) ?_ ?_
    (fun _ _ _ _ _ _ _ _ hclass _ => hclass) es fun _ _ => trivial).2 i h hi
  · intro es request _ routeClass hcheck
    cases hcheck
  · intro es i action h _ _ _ hclass routeClass hcheck
    rw [act_request]
    cases action with
    | advance choice => exact checkClass?_advance hcheck
    | background choice =>
      apply hclass
      rw [← (recordClick_moves i choice (app.run es).shared h).same.2.1]
      exact hcheck

/-! ## Sums over a run -/

/-- A quantity of the steps of handlers, as a quantity of actions. -/
def onAdvance (f : ℕ → Choice → Shared → Handler → ℕ) (i : ℕ) (action : Action) (shared : Shared)
    (h : Handler) : ℕ :=
  match action with
  | .advance choice => f i choice shared h
  | .background _ => 0

/-- The sum of a quantity over the steps of handlers in a run that goes on after another. -/
def App.total (app : App) (f : ℕ → Choice → Shared → Handler → ℕ) (es es' : List Event) : ℕ :=
  app.system.total (onAdvance f) (app.run es) es'

/-- How many steps of handlers are of a kind. -/
def App.tally (app : App) (p : ℕ → Choice → Shared → Handler → Bool) (es es' : List Event) : ℕ :=
  app.total (fun i choice shared h => if p i choice shared h then 1 else 0) es es'

/-- What an action adds to a series. -/
theorem act_metrics {app : App} {i : ℕ} {shared : Shared} {h : Handler} (hclass : h.ChecksOwnClass)
    (action : Action) (x : Metric) :
    (act app i action shared h).1.metrics x = shared.metrics x +
      onAdvance (fun i choice shared h => (entries app i choice shared h).count x) i action
        shared h := by
  cases action with
  | advance choice => exact congrFun (advance_metrics hclass) x
  | background choice =>
    obtain ⟨db, hshared⟩ := recordClick_frame i choice shared h
    show (recordClick i choice shared h).1.metrics x = _
    rw [hshared]
    rfl

/-- **The registry is the sum of the entries.**  Whatever the run, every time series has grown by
as much as the steps of the run are booked under it. -/
theorem App.metrics_run (app : App) (es es' : List Event) (x : Metric) :
    (app.run (es ++ es')).shared.metrics x = (app.run es).shared.metrics x +
      app.total (fun i choice shared h => (entries app i choice shared h).count x) es es' := by
  refine app.system.run_measure (μ := fun w => w.shared.metrics x) (fun _ _ => rfl) ?_ ?_ es es'
  · intro w e
    cases e <;> rfl
  · intro es i action h hi
    rw [app.system.step_act_of_some hi]
    exact act_metrics (app.checksOwnClass_run es hi) action x

/-- A series whose entries come from one kind of step counts these steps. -/
theorem App.metrics_eq_tally (app : App) {x : Metric} {p : ℕ → Choice → Shared → Handler → Bool}
    (hp : ∀ i choice shared h, (entries app i choice shared h).count x =
      if p i choice shared h then 1 else 0) (es es' : List Event) :
    (app.run (es ++ es')).shared.metrics x =
      (app.run es).shared.metrics x + app.tally p es es' := by
  rw [app.metrics_run, tally]
  congr 2
  funext i choice shared h
  exact hp i choice shared h

/-- A kind of step that is a part of another is no more frequent. -/
theorem App.tally_le_tally (app : App) {p q : ℕ → Choice → Shared → Handler → Bool}
    (h : ∀ i choice shared handler, p i choice shared handler = true →
      q i choice shared handler = true) (es es' : List Event) :
    app.tally p es es' ≤ app.tally q es es' := by
  refine app.system.total_le_total (fun i action shared handler => ?_) _ _
  cases action with
  | background choice => exact Nat.le_refl _
  | advance choice =>
    show (if p i choice shared handler then 1 else 0) ≤ if q i choice shared handler then 1 else 0
    by_cases hp : p i choice shared handler = true
    · rw [if_pos hp, if_pos (h _ _ _ _ hp)]
    · rw [if_neg hp]
      exact Nat.zero_le _

/-! ## Lookups and handler invocations -/

/-- The redirects whose lookup is still to come. -/
def awaitingLookup (w : Interleaving.World Shared Handler) : ℕ :=
  w.procs.countP fun h => h.phase.awaitsLookup

/-- The lookups on the books, and those still to come. -/
def lookups (w : Interleaving.World Shared Handler) : ℕ :=
  w.shared.metrics (.cacheHitTotal UrlCache.redirectRoute) +
      w.shared.metrics (.cacheMissTotal UrlCache.redirectRoute) +
      w.shared.metrics (.redisFallbackTotal "cache" "get") +
    awaitingLookup w

/-- **Every invocation of the redirect handler leads to one lookup.** -/
theorem App.lookups_run (app : App) (es es' : List Event) :
    lookups (app.run (es ++ es')) = lookups (app.run es) + app.tally (invokes app) es es' := by
  refine app.system.run_measure ?_ ?_ ?_ es es'
  · intro w request
    have harrive : (Handler.arrive request).phase.awaitsLookup = false := rfl
    show lookups { w with procs := w.procs ++ [Handler.arrive request] } = lookups w
    unfold lookups awaitingLookup
    simp [List.countP_append, harrive]
  · intro w e
    cases e <;> rfl
  · intro es i action h hi
    change (app.run es).procs[i]? = some h at hi
    have hclass := app.checksOwnClass_run es hi
    have hcount : awaitingLookup (app.run (es ++ [.act i action])) +
        (if h.phase.awaitsLookup then 1 else 0) = awaitingLookup (app.run es) +
          if (act app i action (app.run es).shared h).2.phase.awaitsLookup then 1 else 0 :=
      app.countP_act hi action fun h => h.phase.awaitsLookup
    show lookups (app.system.step (app.run es) (.act i action)) = lookups (app.run es) +
      onAdvance (fun i choice shared h => if invokes app i choice shared h then 1 else 0) i action
        (app.run es).shared h
    rw [← app.run_concat]
    unfold lookups
    rw [(app.run_act_self hi action).2, act_metrics hclass, act_metrics hclass, act_metrics hclass]
    cases action with
    | advance choice =>
      have hlookup := count_lookup app i choice (app.run es).shared h
      rw [← count_hit, ← count_miss, ← count_fallback] at hlookup
      have hnext : (act app i (.advance choice) (app.run es).shared h).2.phase.awaitsLookup =
          invokes app i choice (app.run es).shared h := awaitsLookup_advance _ _ _ _ _
      rw [hnext] at hcount
      simp only [onAdvance]
      omega
    | background choice =>
      have hphase : (act app i (.background choice) (app.run es).shared h).2.phase = h.phase :=
        (recordClick_moves i choice (app.run es).shared h).same.2.1
      rw [hphase] at hcount
      simp only [onAdvance]
      omega

/-! ## The history of one request -/

/-- How many outcomes the steps of one request decide on. -/
def App.outcomes (app : App) (es : List Event) (i : ℕ) : ℕ :=
  app.tally
    (fun j choice shared h => decide (j = i) && (outcome app j choice shared h).isSome) [] es

/-- What the events so far mean for a request. -/
structure Handler.CountedOnce (app : App) (es : List Event) (i : ℕ) (h : Handler) : Prop where
  /-- Nothing is counted before the response is settled. -/
  pending : h.phase.response? = none → app.outcomes es i = 0
  /-- Nothing is counted twice. -/
  atMostOnce : app.outcomes es i ≤ 1

theorem App.outcomes_concat (app : App) (es : List Event) (e : Event) (i : ℕ) :
    app.outcomes (es ++ [e]) i = app.outcomes es i +
      Interleaving.System.onAct (onAdvance fun j choice shared h =>
        if decide (j = i) && (outcome app j choice shared h).isSome then 1 else 0) (app.run es) e :=
  app.system.total_concat _ _ _ _ _

/-- The outcomes of a request are decided by its own steps. -/
theorem App.outcomes_concat_of_ne (app : App) (es : List Event) {e : Event} {i : ℕ}
    (he : ∀ action, e ≠ .act i action) : app.outcomes (es ++ [e]) i = app.outcomes es i := by
  rw [app.outcomes_concat]
  cases e with
  | arrive request => rfl
  | env e => rfl
  | act j action =>
    have hij : j ≠ i := fun heq => he action (by rw [heq])
    rw [Interleaving.System.onAct]
    cases (app.run es).procs[j]? with
    | none => rfl
    | some h =>
      cases action with
      | advance choice => simp [onAdvance, hij]
      | background choice => rfl

theorem App.outcomes_advance (app : App) {es : List Event} {i : ℕ} {h : Handler}
    (hi : (app.run es).procs[i]? = some h) (choice : Choice) :
    app.outcomes (es ++ [.act i (.advance choice)]) i = app.outcomes es i +
      if (outcome app i choice (app.run es).shared h).isSome then 1 else 0 := by
  rw [app.outcomes_concat, Interleaving.System.onAct, hi]
  simp [onAdvance]

theorem App.outcomes_background (app : App) (es : List Event) (i : ℕ) (choice : Choice) :
    app.outcomes (es ++ [.act i (.background choice)]) i = app.outcomes es i := by
  rw [app.outcomes_concat, Interleaving.System.onAct]
  cases (app.run es).procs[i]? <;> rfl

/-- A request that has not arrived has no outcome. -/
theorem App.outcomes_of_length_le (app : App) (es : List Event) {i : ℕ}
    (hi : (app.run es).procs.length ≤ i) : app.outcomes es i = 0 := by
  induction es using List.reverseRecOn with
  | nil => rfl
  | append_singleton es e ih =>
    rw [app.run_concat] at hi
    cases e with
    | arrive request =>
      rw [app.system.step_arrive, List.length_append] at hi
      rw [app.outcomes_concat_of_ne es (by simp)]
      exact ih (by omega)
    | env e =>
      rw [app.outcomes_concat_of_ne es (by simp)]
      exact ih hi
    | act j action =>
      cases hj : (app.run es).procs[j]? with
      | none =>
        rw [app.system.step_act_of_none hj] at hi
        rw [app.outcomes_concat, Interleaving.System.onAct, hj]
        exact ih hi
      | some h =>
        rw [app.system.step_act_of_some hj, List.length_set] at hi
        have hlt := (List.getElem?_eq_some_iff.mp hj).1
        rw [app.outcomes_concat_of_ne es fun action' heq => by cases heq; omega]
        exact ih hi

/-- A request that has just arrived has no outcome. -/
theorem App.outcomes_arrive (app : App) (es : List Event) (request : Request) :
    app.outcomes (es ++ [.arrive request]) (app.run es).procs.length = 0 := by
  rw [app.outcomes_concat_of_ne es (by simp)]
  exact app.outcomes_of_length_le es le_rfl

/-- **No request is counted twice, or before its response is settled.** -/
theorem App.countedOnce_run (app : App) (es : List Event) {i : ℕ} {h : Handler}
    (hi : (app.run es).procs[i]? = some h) : h.CountedOnce app es i := by
  refine app.system.own_history (P := fun es i h => h.CountedOnce app es i) ?_ ?_ ?_ es hi
  · intro es request
    have hnone := app.outcomes_arrive es request
    exact ⟨fun _ => hnone, hnone.le.trans (Nat.zero_le 1)⟩
  · intro es i action h hi hcounted
    cases action with
    | advance choice =>
      have houtcomes := app.outcomes_advance hi choice
      have hleads := advance_leads app i choice (app.run es).shared h
      cases hopen : h.phase.response? with
      | some response =>
        have hclosed := hleads.isSome_response? (by rw [hopen]; rfl)
        rw [outcome_of_settled_none (settled_eq_none (by rw [hopen]; rfl))] at houtcomes
        refine ⟨fun hnone => ?_, houtcomes.le.trans hcounted.atMostOnce⟩
        rw [show (advance app i choice (app.run es).shared h).2.phase.response? = none from hnone]
          at hclosed
        cases hclosed
      | none =>
        rw [hcounted.pending hopen, Nat.zero_add] at houtcomes
        refine ⟨fun hnone => ?_, ?_⟩
        · have houtcome : outcome app i choice (app.run es).shared h = none :=
            outcome_of_settled_none ((settled_eq hopen).trans hnone)
          rw [houtcomes, houtcome]
          rfl
        · rw [houtcomes]
          split <;> omega
    | background choice =>
      obtain ⟨-, hphase, -⟩ := (recordClick_moves i choice (app.run es).shared h).same
      have hsame := app.outcomes_background es i choice
      refine ⟨fun hnone => ?_, hsame.le.trans hcounted.atMostOnce⟩
      rw [hsame]
      exact hcounted.pending (hphase ▸ hnone)
  · intro es e i h he hcounted
    have hsame := app.outcomes_concat_of_ne es he
    exact ⟨fun hnone => hsame.trans (hcounted.pending hnone), hsame.le.trans hcounted.atMostOnce⟩

/-- Failed and completed calls are all calls. -/
theorem App.attempts_run (app : App) (call : RedisCall) (es es' : List Event) :
    app.tally (calls app fun c => c.raises && c.component = call.component &&
        c.operation = call.operation) es es' +
      app.tally (calls app fun c => !c.raises && c.operation = call.operation) es es' =
      app.tally (calls app fun c => c.operation = call.operation) es es' := by
  have hcomponent : ∀ c : RedisCall, c.operation = call.operation →
      c.component = call.component := by
    intro c hoperation
    cases c <;> cases call <;> first | rfl | simp [RedisCall.operation] at hoperation
  unfold App.tally App.total
  rw [← app.system.total_add]
  congr 1
  funext i action shared h
  cases action with
  | background choice => rfl
  | advance choice =>
    show ((if calls app _ i choice shared h then 1 else 0) +
      if calls app _ i choice shared h then 1 else 0) =
        if calls app _ i choice shared h then 1 else 0
    unfold calls
    cases redisCall? app choice shared h with
    | none => rfl
    | some c =>
      by_cases hoperation : c.operation = call.operation
      · cases hraises : c.raises <;> simp [hraises, hoperation, hcomponent c hoperation]
      · simp [hoperation]

/-- What the registry says about a run `es'` that goes on after a run `es`. -/
structure Counters (app : App) (es es' : List Event) : Prop where
  /-- The counters of outcomes count the `302`s, the `404`s for an expired row, the `404`s without
  a row, and the `429`s of each bucket class. -/
  outcomes : ∀ o : Outcome, (app.run (es ++ es')).shared.metrics o.entry =
    (app.run es).shared.metrics o.entry + app.tally (decides app o) es es'
  /-- Hits, misses and failed lookups are the invocations of the redirect handler, as soon as
  those under way have made their lookup. -/
  lookups : lookups (app.run (es ++ es')) = lookups (app.run es) + app.tally (invokes app) es es'
  /-- No more hits than successes. -/
  hits : (app.run (es ++ es')).shared.metrics (.cacheHitTotal UrlCache.redirectRoute) =
      (app.run es).shared.metrics (.cacheHitTotal UrlCache.redirectRoute) +
        app.tally (calls app RedisCall.isHit) es es' ∧
    app.tally (calls app RedisCall.isHit) es es' ≤
      app.tally (decides app (.redirected .success)) es es'
  /-- The fallback counter counts the calls that raise. -/
  failed : ∀ component operation,
    (app.run (es ++ es')).shared.metrics (.redisFallbackTotal component operation) =
      (app.run es).shared.metrics (.redisFallbackTotal component operation) +
        app.tally (calls app fun call => call.raises && call.component = component &&
          call.operation = operation) es es'
  /-- The duration histogram counts the calls that complete. -/
  completed : ∀ operation,
    (app.run (es ++ es')).shared.metrics (.redisOperationDurationSeconds operation) =
      (app.run es).shared.metrics (.redisOperationDurationSeconds operation) +
        app.tally (calls app fun call => !call.raises && call.operation = operation) es es'
  /-- Together they count the attempts, for each of the three operations. -/
  attempted : ∀ call : RedisCall,
    (app.run (es ++ es')).shared.metrics (.redisFallbackTotal call.component call.operation) +
        (app.run (es ++ es')).shared.metrics (.redisOperationDurationSeconds call.operation) =
      (app.run es).shared.metrics (.redisFallbackTotal call.component call.operation) +
        (app.run es).shared.metrics (.redisOperationDurationSeconds call.operation) +
        app.tally (calls app fun c => c.operation = call.operation) es es'
  /-- No request is counted twice, or before its response is settled. -/
  once : ∀ (i : ℕ) (h : Handler), (app.run (es ++ es')).procs[i]? = some h →
    h.CountedOnce app (es ++ es') i

/-- **The counters are right**, whatever the interleaving, the state of the cache and the
failures. -/
theorem App.counters (app : App) (es es' : List Event) : Counters app es es' where
  outcomes := fun o => app.metrics_eq_tally (fun _ _ _ _ => count_outcome _ _ _ _ _ o) es es'
  lookups := app.lookups_run es es'
  hits := ⟨app.metrics_eq_tally (count_hit app) es es',
    app.tally_le_tally (fun _ _ _ _ => success_of_hit) es es'⟩
  failed := fun component operation =>
    app.metrics_eq_tally (fun _ _ _ _ => count_fallback _ _ _ _ _ component operation) es es'
  completed := fun operation =>
    app.metrics_eq_tally (fun _ _ _ _ => count_duration _ _ _ _ _ operation) es es'
  attempted := by
    intro call
    have hfailed := app.metrics_eq_tally
      (fun _ _ _ _ => count_fallback _ _ _ _ _ call.component call.operation) es es'
    have hcompleted := app.metrics_eq_tally
      (fun _ _ _ _ => count_duration _ _ _ _ _ call.operation) es es'
    have hattempts := app.attempts_run call es es'
    omega
  once := fun _ _ hi => app.countedOnce_run (es ++ es') hi

end UrlShortener
