import UrlShortener.System.Solo
import UrlShortener.System.Sessions

/-!
# Every request can be completed

A handler is a bounded number of operations, and the only one that waits is the insert, for another
session that has inserted the same code.  That session belongs to a request that is about to commit
or to roll back.  Neither waits, and either way the code is free of it afterwards.

## What is proved

* `advance_remaining`: a step brings a request closer to its end, unless it is blocked.
* `App.completes`: from every state of every run, some continuation in which the database answers
  brings a given request to its end.
-/

set_option autoImplicit false

namespace UrlShortener

/-- How many steps `create_url` takes at most before the session ends. -/
@[simp] def CreatePoint.remaining : CreatePoint → ℕ
  | .codeExists _ => 6
  | .generate attempt => 6 + (defaultMaxCollisionRetries - attempt)
  | .expiresAt _ _ => 5
  | .insert _ _ => 4

/-- The same for `redirect`. -/
@[simp] def RedirectPoint.remaining : RedirectPoint → ℕ
  | .getCachedUrl => 7
  | .getUrl => 6
  | .now _ => 5
  | .setCachedUrl _ => 4

/-- The same for `get_stats`. -/
@[simp] def StatsPoint.remaining : StatsPoint → ℕ
  | .getUrl => 6
  | .getRecentClicks _ => 5
  | .getTopReferrers _ _ => 4

/-- How many steps a request takes at most, if it does not wait. -/
@[simp] def Phase.remaining : Phase → ℕ
  | .middleware => 13
  | .checkScript _ _ => 12
  | .createUrl _ point => point.remaining
  | .redirect _ point => point.remaining
  | .getStats _ point => point.remaining
  | .commit _ => 3
  | .rollback _ => 2
  | .respond _ => 1
  | .done _ => 0

/-- The next operation is an insert that waits. -/
def Handler.Blocked (db : Database) (h : Handler) : Prop :=
  ∃ payload shortCode expiresAt, h.phase = .createUrl payload (.insert shortCode expiresAt) ∧
    db.find shortCode = none ∧ db.held shortCode = true

theorem remaining_chosen (payload : CreateUrlRequest) (shortCode : String) :
    (chosen payload shortCode).remaining < 6 := by
  unfold chosen
  split <;> simp

theorem remaining_body (call : Call) : call.body.remaining < 12 := by
  unfold Call.body
  split
  · split <;> simp [defaultMaxCollisionRetries]
  · simp
  · simp

theorem remaining_entry (nowMs : ℤ) (call : Call) : (call.entry nowMs).remaining < 13 := by
  cases call <;> simp [Call.entry, Call.body]

@[simp] theorem redirectTo_phase (app : App) (h : Handler) (shortCode : String) (next : Phase) :
    (redirectTo app h shortCode next).phase = next := rfl

section Step

variable (app : App) (i : ℕ) (choice : Choice) (shared : Shared) {h : Handler}

theorem createUrl_remaining {payload : CreateUrlRequest} {point : CreatePoint}
    (hphase : h.phase = .createUrl payload point) :
    h.Blocked shared.db ∨
      (createUrl app i choice shared h payload point).2.phase.remaining < point.remaining := by
  obtain ⟨db, next, hsteps, hresult⟩ := createUrl_steps point
  rw [hresult]
  show h.Blocked shared.db ∨ next.remaining < point.remaining
  cases hsteps with
  | checkFails | taken | expires | races | insertFails | inserts => exact Or.inr (by simp)
  | drawFails | lookupFails | saturated =>
    refine Or.inr ?_
    simp only [Phase.remaining, CreatePoint.remaining]
    omega
  | collides attempt hattempt =>
    refine Or.inr ?_
    simp only [Phase.remaining, CreatePoint.remaining]
    omega
  | free => exact Or.inr (remaining_chosen payload _)
  | generated =>
    exact Or.inr (Nat.lt_of_lt_of_le (remaining_chosen payload _) (Nat.le_add_right 6 _))
  | waits shortCode expiresAt hwait =>
    have hheld := Repository.createUrl_wait (Choice.eq_of_statement hwait (by simp))
    exact Or.inl ⟨payload, shortCode, expiresAt, hphase, hheld⟩

theorem redirect_remaining (shortCode : String) (point : RedirectPoint) :
    (redirect app choice shared h shortCode point).2.phase.remaining < point.remaining := by
  obtain ⟨shared', h', hsteps, hresult⟩ := redirect_steps point
  rw [hresult]
  cases hsteps <;> simp

theorem getStats_remaining (shortCode : String) (point : StatsPoint) :
    (getStats choice shared h shortCode point).2.phase.remaining < point.remaining := by
  obtain ⟨next, hsteps, hresult⟩ := getStats_steps h point
  rw [hresult]
  cases hsteps <;> simp

/-- **A step brings a request closer to its end**, unless it has ended or is blocked. -/
theorem advance_remaining (h : Handler) :
    (∃ response, h.phase = .done response) ∨ h.Blocked shared.db ∨
      (advance app i choice shared h).2.phase.remaining < h.phase.remaining := by
  unfold advance
  split
  · rename_i hphase
    refine Or.inr (Or.inr ?_)
    rw [hphase]
    rcases observabilityEntry_cases app shared h with ⟨-, hresult⟩ | ⟨-, hresult⟩
    · rw [hresult]
      simp
    · rw [hresult]
      exact remaining_entry _ h.request.call
  · rename_i hphase
    refine Or.inr (Or.inr ?_)
    rw [hphase]
    unfold rateLimit
    dsimp only
    split
    · exact remaining_body h.request.call
    · simp
  · rename_i hphase
    rw [hphase]
    exact Or.inr (createUrl_remaining app i choice shared hphase)
  · rename_i hphase
    rw [hphase]
    exact Or.inr (Or.inr (redirect_remaining app choice shared _ _))
  · rename_i hphase
    rw [hphase]
    exact Or.inr (Or.inr (getStats_remaining choice shared _ _))
  · rename_i hphase
    refine Or.inr (Or.inr ?_)
    rw [hphase]
    split
    · simp
    · simp
  · rename_i hphase
    refine Or.inr (Or.inr ?_)
    rw [hphase]
    simp
  · rename_i hphase
    refine Or.inr (Or.inr ?_)
    rw [hphase]
    simp
  · rename_i response hphase
    exact Or.inl ⟨response, hphase⟩

end Step

/-! ## Ending a wait -/

/-- **Who holds a code without a row** is a request whose session is about to end. -/
theorem App.holder (app : App) (es : List Event) {shortCode : String}
    (hfind : (app.run es).shared.db.find shortCode = none)
    (hheld : (app.run es).shared.db.held shortCode = true) :
    ∃ j h u, (app.run es).procs[j]? = some h ∧ u.shortCode = shortCode ∧
      TxStore.Write.insert u ∈ (app.run es).shared.db.own (.request j) ∧
      ∃ response, h.phase = .commit response ∨ h.phase = .rollback response := by
  obtain ⟨t, u, hu, hcode⟩ := (app.wf_run es).exists_insert_of_held hheld hfind
  have hnil : ∀ {t}, TxStore.Write.insert u ∈ (app.run es).shared.db.own t →
      (app.run es).shared.db.own t ≠ [] := fun hmem heq => by
    rw [heq] at hmem
    cases hmem
  cases t with
  | request j =>
    cases hj : (app.run es).procs[j]? with
    | none => exact absurd (app.own_of_length_le es (List.getElem?_eq_none_iff.mp hj)).1 (hnil hu)
    | some h =>
      refine ⟨j, h, u, hj, hcode, hu, ?_⟩
      have hstages := (app.accounted_run es hj).request
      unfold Handler.Stages at hstages
      cases hphase : h.phase with
      | commit response => exact ⟨response, Or.inl rfl⟩
      | rollback response => exact ⟨response, Or.inr rfl⟩
      | middleware | checkScript | createUrl | redirect | getStats | respond | done =>
        rw [hphase] at hstages
        exact absurd hstages (hnil hu)
  | background j =>
    cases hj : (app.run es).procs[j]? with
    | none => exact absurd (app.own_of_length_le es (List.getElem?_eq_none_iff.mp hj)).2 (hnil hu)
    | some h =>
      have hstages := (app.accounted_run es hj).background
      unfold ClickTask.Stages at hstages
      split at hstages
      · obtain ⟨v, hown, -⟩ := hstages
        rw [hown] at hu
        simp at hu
      · obtain ⟨v, event, hown, -, -⟩ := hstages
        rw [hown] at hu
        simp at hu
      · exact absurd hstages (hnil hu)

/-- **A wait can be ended** by one step of another request. -/
theorem App.unblock (app : App) (es : List Event) {i : ℕ} {h : Handler}
    (hi : (app.run es).procs[i]? = some h) (hblocked : h.Blocked (app.run es).shared.db) :
    ∃ e, DatabaseAnswers e ∧ (app.run (es ++ [e])).procs[i]? = some h ∧
      ¬ h.Blocked (app.run (es ++ [e])).shared.db := by
  obtain ⟨payload, shortCode, expiresAt, hphase, hfind, hheld⟩ := hblocked
  obtain ⟨j, h', u, hj, hcode, hu, response, hphase'⟩ := app.holder es hfind hheld
  have hne : j ≠ i := by
    rintro rfl
    rw [hi, Option.some.injEq] at hj
    subst hj
    rcases hphase' with hphase' | hphase' <;> rw [hphase] at hphase' <;> cases hphase'
  refine ⟨.act j (.advance .calm), rfl, ?_, ?_⟩
  · rw [app.run_concat, app.system.getElem?_step_act_of_ne _ hne]
    exact hi
  · rintro ⟨payload', shortCode', expiresAt', hphase'', -, hheld'⟩
    rw [hphase, Phase.createUrl.injEq, CreatePoint.insert.injEq] at hphase''
    rw [(app.run_act_self hj _).2, ← hphase''.2.1, ← hcode] at hheld'
    have hfree : (advance app j .calm (app.run es).shared h').1.db.held u.shortCode = false := by
      rcases hphase' with hphase' | hphase'
      · rw [advance, hphase']
        exact (app.wf_run es).held_commit hu
      · rw [advance, hphase']
        exact (app.wf_run es).held_rollback hu
    rw [show (act app j (.advance .calm) (app.run es).shared h').1.db.held u.shortCode = false
      from hfree] at hheld'
    cases hheld'

/-- **Every request can be completed.**  The induction is on the steps the request has left, and a
step of another request comes first where it is blocked. -/
theorem App.completes (app : App) (es : List Event) {i : ℕ} {h : Handler}
    (hi : (app.run es).procs[i]? = some h) :
    ∃ es', (∀ e ∈ es', DatabaseAnswers e) ∧ ∃ h' response,
      (app.run (es ++ es')).procs[i]? = some h' ∧ h'.phase = .done response := by
  induction hremaining : h.phase.remaining using Nat.strong_induction_on generalizing es h with
  | _ remaining ih =>
    subst hremaining
    -- One step of the request itself, from a state in which it is not blocked.
    have hstep : ∀ es, (app.run es).procs[i]? = some h → ¬ h.Blocked (app.run es).shared.db →
        ∃ es', (∀ e ∈ es', DatabaseAnswers e) ∧ ∃ h' response,
          (app.run (es ++ es')).procs[i]? = some h' ∧ h'.phase = .done response := by
      intro es hi hblocked
      rcases advance_remaining app i .calm (app.run es).shared h with ⟨response, hdone⟩ | hb | hlt
      · refine ⟨[], by simp, h, response, ?_, hdone⟩
        rw [List.append_nil]
        exact hi
      · exact absurd hb hblocked
      · obtain ⟨es', hes', h', response, hi', hdone⟩ :=
          ih _ hlt (es ++ [.act i (.advance .calm)]) (app.run_act_self hi _).1 rfl
        refine ⟨.act i (.advance .calm) :: es', ?_, h', response, ?_, hdone⟩
        · intro e he
          rcases List.mem_cons.mp he with rfl | he
          · exact rfl
          · exact hes' e he
        · rw [List.append_cons]
          exact hi'
    by_cases hblocked : h.Blocked (app.run es).shared.db
    · obtain ⟨e, he, hi', hfree⟩ := app.unblock es hi hblocked
      obtain ⟨es', hes', h', response, hi'', hdone⟩ := hstep _ hi' hfree
      refine ⟨e :: es', ?_, h', response, ?_, hdone⟩
      · intro e' he'
        rcases List.mem_cons.mp he' with rfl | he'
        · exact he
        · exact hes' e' he'
      · rw [List.append_cons]
        exact hi''
    · exact hstep es hi hblocked

end UrlShortener
