import UrlShortener.System.World

/-!
# What requests guarantee one another

Requests share the database and Redis, and each of them relies on very little about the others:
the database stays well formed, a committed link stays as it is apart from its counter, and nobody
touches another session.  `Guarantee` says so, and `act_wf_guarantee` proves it of every action.

## What is proved

* `App.safety` is the rule for invariants of single requests.
* `App.linksStay` says that a committed link is there at every later instant.
* `App.own_of_length_le` says that the sessions of future requests are empty.
-/

set_option autoImplicit false

namespace UrlShortener

/-- The guarantee of request `i`: links stay, and the sessions of other requests are left alone. -/
structure Guarantee (i : ℕ) (shared shared' : Shared) : Prop where
  links : shared.db.LinksStay shared'.db
  sessions : ∀ t, t ≠ .request i → t ≠ .background i → shared'.db.own t = shared.db.own t

theorem guarantee_of_db {i : ℕ} {shared shared' : Shared} (h : shared'.db = shared.db) :
    Guarantee i shared shared' where
  links := by rw [h]; exact .refl _
  sessions := fun _ _ _ => by rw [h]

theorem guarantee_refl (i : ℕ) (shared : Shared) : Guarantee i shared shared := guarantee_of_db rfl

/-- A write of a session of request `i` is within its guarantee. -/
theorem guarantee_write {i : ℕ} {shared : Shared} {db : Database} {t : SessionId}
    (ht : t = .request i ∨ t = .background i) (hurls : db.urls = shared.db.urls)
    {ws : List (TxStore.Write Url ClickEvent)}
    (hown : ∀ t', db.own t' = if t = t' then shared.db.own t' ++ ws else shared.db.own t') :
    Guarantee i shared { shared with db := db } where
  links := Database.linksStay_of_urls hurls
  sessions := by
    intro t' hreq hback
    show db.own t' = _
    rw [hown, if_neg]
    rintro rfl
    rcases ht with rfl | rfl
    · exact hreq rfl
    · exact hback rfl

theorem guarantee_commit {i : ℕ} {shared : Shared} (hwf : shared.db.Wf) {t : SessionId}
    (ht : t = .request i ∨ t = .background i) :
    Guarantee i shared { shared with db := shared.db.commit t } where
  links := hwf.linksStay_commit t
  sessions := by
    intro t' hreq hback
    show (shared.db.commit t).own t' = _
    rw [Database.own_commit, if_neg]
    rintro rfl
    rcases ht with rfl | rfl
    · exact hreq rfl
    · exact hback rfl

theorem guarantee_rollback {i : ℕ} {shared : Shared} {t : SessionId}
    (ht : t = .request i ∨ t = .background i) :
    Guarantee i shared { shared with db := shared.db.rollback t } where
  links := Database.linksStay_of_urls rfl
  sessions := by
    intro t' hreq hback
    show (shared.db.rollback t).own t' = _
    rw [Database.own_rollback, if_neg]
    rintro rfl
    rcases ht with rfl | rfl
    · exact hreq rfl
    · exact hback rfl

theorem Moves.wf_guarantee {app : App} {i : ℕ} {shared shared' : Shared} {h h' : Handler}
    (hm : Moves app i shared h shared' h') (hwf : shared.db.Wf) :
    shared'.db.Wf ∧ Guarantee i shared shared' := by
  cases hm with
  | goesOn _ _ _ _ hdb => exact ⟨hdb ▸ hwf, guarantee_of_db hdb⟩
  | waits => exact ⟨hwf, guarantee_refl _ _⟩
  | raises _ _ _ _ hdb => exact ⟨hdb ▸ hwf, guarantee_of_db hdb⟩
  | rejected _ _ _ _ hdb => exact ⟨hdb ▸ hwf, guarantee_of_db hdb⟩
  | inserts _ _ _ _ _ _ hcreated =>
    exact ⟨hcreated.wf hwf, guarantee_write (Or.inl rfl) hcreated.urls hcreated.own⟩
  | decides _ _ _ _ _ _ _ hdb => exact ⟨hdb ▸ hwf, guarantee_of_db hdb⟩
  | reports => exact ⟨hwf, guarantee_refl _ _⟩
  | commitFails => exact ⟨hwf, guarantee_refl _ _⟩
  | commits => exact ⟨hwf.commit _, guarantee_commit hwf (Or.inl rfl)⟩
  | rollsBack => exact ⟨hwf.rollback _, guarantee_rollback (Or.inl rfl)⟩
  | responds => exact ⟨hwf, guarantee_refl _ _⟩
  | rests => exact ⟨hwf, guarantee_refl _ _⟩

theorem RecordMoves.wf_guarantee {i : ℕ} {shared shared' : Shared} {h h' : Handler}
    (hm : RecordMoves i shared h shared' h') (hwf : shared.db.Wf) :
    shared'.db.Wf ∧ Guarantee i shared shared' := by
  cases hm with
  | rests => exact ⟨hwf, guarantee_refl _ _⟩
  | bumps _ _ _ _ _ hbumped =>
    exact ⟨hbumped.wf hwf, guarantee_write (Or.inr rfl) hbumped.urls hbumped.own⟩
  | appends _ _ _ _ _ _ hinserted =>
    exact ⟨hinserted.wf hwf, guarantee_write (Or.inr rfl) hinserted.urls hinserted.own⟩
  | commits => exact ⟨hwf.commit _, guarantee_commit hwf (Or.inr rfl)⟩
  | fails => exact ⟨hwf.rollback _, guarantee_rollback (Or.inr rfl)⟩

/-- **Every action keeps the database well formed and stays within the guarantee.** -/
theorem act_wf_guarantee (app : App) (i : ℕ) (action : Action) {shared : Shared} (h : Handler)
    (hwf : shared.db.Wf) :
    (act app i action shared h).1.db.Wf ∧ Guarantee i shared (act app i action shared h).1 := by
  cases action with
  | advance choice => exact (advance_moves app i choice shared h).wf_guarantee hwf
  | background choice => exact (recordClick_moves i choice shared h).wf_guarantee hwf

@[simp] theorem Env.apply_db (shared : Shared) (e : Env) : (e.apply shared).db = shared.db := by
  cases e <;> rfl

theorem env_wf_guarantee (e : Env) {shared : Shared} (hwf : shared.db.Wf) :
    (e.apply shared).db.Wf ∧ ∀ i, Guarantee i shared (e.apply shared) :=
  ⟨(Env.apply_db shared e).symm ▸ hwf, fun _ => guarantee_of_db (Env.apply_db shared e)⟩

/-! ## Safety of runs -/

/-- **The safety rule of the service.**  To show that every request satisfies `P` throughout
every run it is enough that `P` holds on arrival, that a request keeps its own `P` when it
acts, and that `P` survives what other requests may do. -/
theorem App.safety (app : App) {P : List Event → ℕ → Shared → Handler → Prop}
    {Q : Event → Prop}
    (harrive : ∀ es request, (app.run es).shared.db.Wf →
      P (es ++ [.arrive request]) (app.run es).procs.length (app.run es).shared
        (Handler.arrive request))
    (hact : ∀ es i action h, Q (.act i action) → (app.run es).procs[i]? = some h →
      (app.run es).shared.db.Wf → P es i (app.run es).shared h →
      P (es ++ [.act i action]) i (act app i action (app.run es).shared h).1
        (act app i action (app.run es).shared h).2)
    (hstable : ∀ es e i j shared' h, i ≠ j → (app.run es).procs[j]? = some h →
      P es j (app.run es).shared h → Guarantee i (app.run es).shared shared' →
      P (es ++ [e]) j shared' h)
    (es : List Event) (hes : ∀ e ∈ es, Q e) :
    (app.run es).shared.db.Wf ∧
      ∀ i h, (app.run es).procs[i]? = some h → P es i (app.run es).shared h := by
  refine app.system.rely_guarantee (S := fun shared => shared.db.Wf) (G := Guarantee)
    (Q := Q) Database.wf_initial guarantee_refl harrive ?_ (fun e _ => env_wf_guarantee e) ?_ es hes
  · intro es i action h hQ hi hwf hP
    obtain ⟨hwf', hG⟩ := act_wf_guarantee app i action h hwf
    exact ⟨hwf', hG, hact es i action h hQ hi hwf hP⟩
  · intro es e i j shared' h hij hj _ hP hG
    exact hstable es e i j shared' h hij hj hP hG

/-- The database is well formed throughout. -/
theorem App.wf_run (app : App) (es : List Event) : (app.run es).shared.db.Wf :=
  (app.safety (P := fun _ _ _ _ => True) (Q := fun _ => True) (fun _ _ _ => trivial)
    (fun _ _ _ _ _ _ _ _ => trivial) (fun _ _ _ _ _ _ _ _ _ _ => trivial) es
    fun _ _ => trivial).1

theorem step_wf_linksStay (app : App) {w : Interleaving.World Shared Handler} (e : Event)
    (hwf : w.shared.db.Wf) :
    (app.system.step w e).shared.db.Wf ∧
      w.shared.db.LinksStay (app.system.step w e).shared.db := by
  cases e with
  | arrive request => exact ⟨hwf, .refl _⟩
  | env e =>
    obtain ⟨hwf', hguarantee⟩ := env_wf_guarantee e hwf
    exact ⟨hwf', (hguarantee 0).links⟩
  | act i action =>
    cases hi : w.procs[i]? with
    | none =>
      rw [app.system.step_act_of_none hi]
      exact ⟨hwf, .refl _⟩
    | some h =>
      rw [app.system.step_act_of_some hi]
      obtain ⟨hwf', hguarantee⟩ := act_wf_guarantee app i action h hwf
      exact ⟨hwf', hguarantee.links⟩

/-- **A committed link is there at every later instant**, and only its counter changes. -/
theorem App.linksStay (app : App) (es : List Event) {m n : ℕ} (h : m ≤ n) :
    (app.stateAt es m).shared.db.LinksStay (app.stateAt es n).shared.db :=
  Run.stateAt_mono app.system.step (P := fun w => w.shared.db.Wf)
    (r := fun w w' => w.shared.db.LinksStay w'.shared.db) (fun _ => .refl _)
    (fun _ _ _ => .trans) Database.wf_initial (fun _ e hwf => (step_wf_linksStay app e hwf).1)
    (fun _ e hwf => (step_wf_linksStay app e hwf).2) es h

@[simp] theorem App.stateAt_length (app : App) (es : List Event) :
    app.stateAt es es.length = app.run es := Run.stateAt_length _ _ _

/-- The state at an instant is the state after a shorter run. -/
theorem App.stateAt_eq_run (app : App) (es : List Event) (n : ℕ) :
    app.stateAt es n = app.run (es.take n) := rfl

/-- A request after its own action. -/
theorem App.run_act_self (app : App) {es : List Event} {i : ℕ} {h : Handler}
    (hi : (app.run es).procs[i]? = some h) (action : Action) :
    (app.run (es ++ [.act i action])).procs[i]? =
        some (act app i action (app.run es).shared h).2 ∧
      (app.run (es ++ [.act i action])).shared = (act app i action (app.run es).shared h).1 := by
  rw [app.run_concat]
  refine ⟨app.system.getElem?_step_act_self hi action, ?_⟩
  rw [app.system.step_act_of_some hi]
  rfl

/-- A count of requests after the action of one of them. -/
theorem App.countP_act (app : App) {es : List Event} {i : ℕ} {h : Handler}
    (hi : (app.run es).procs[i]? = some h) (action : Action) (p : Handler → Bool) :
    (app.run (es ++ [.act i action])).procs.countP p + (if p h then 1 else 0) =
      (app.run es).procs.countP p +
        if p (act app i action (app.run es).shared h).2 then 1 else 0 := by
  rw [app.run_concat]
  exact app.system.countP_step_act hi action p

/-- Sessions of requests that have not arrived have written nothing. -/
theorem App.own_of_length_le (app : App) (es : List Event) {j : ℕ}
    (hj : (app.run es).procs.length ≤ j) :
    (app.run es).shared.db.own (.request j) = [] ∧
      (app.run es).shared.db.own (.background j) = [] := by
  have hrun := Run.exec_invariant app.system.step
    (P := fun w => w.shared.db.Wf ∧ ∀ j, w.procs.length ≤ j →
      w.shared.db.own (.request j) = [] ∧ w.shared.db.own (.background j) = [])
    (s := ⟨.initial, []⟩) ⟨Database.wf_initial, fun _ _ => ⟨rfl, rfl⟩⟩ ?_ es
  · exact hrun.2 j hj
  · rintro w e ⟨hwf, hfresh⟩
    refine ⟨(step_wf_linksStay app e hwf).1, fun j hj => ?_⟩
    cases e with
    | arrive request =>
      rw [app.system.step_arrive, List.length_append] at hj
      exact hfresh j (by omega)
    | env e =>
      show (Env.apply w.shared e).db.own _ = [] ∧ (Env.apply w.shared e).db.own _ = []
      rw [Env.apply_db]
      exact hfresh j hj
    | act i action =>
      cases hi : w.procs[i]? with
      | none =>
        rw [app.system.step_act_of_none hi] at hj ⊢
        exact hfresh j hj
      | some h =>
        rw [app.system.step_act_of_some hi] at hj ⊢
        obtain ⟨hlt, -⟩ := List.getElem?_eq_some_iff.mp hi
        rw [List.length_set] at hj
        have hne : j ≠ i := by omega
        obtain ⟨-, hguarantee⟩ := act_wf_guarantee app i action h hwf
        obtain ⟨hrequest, hbackground⟩ := hfresh j hj
        refine ⟨(hguarantee.sessions _ ?_ ?_).trans hrequest,
          (hguarantee.sessions _ ?_ ?_).trans hbackground⟩
        · exact fun heq => hne (SessionId.request.inj heq)
        · exact SessionId.noConfusion
        · exact SessionId.noConfusion
        · exact fun heq => hne (SessionId.background.inj heq)

end UrlShortener
