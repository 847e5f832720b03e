import UrlShortener.System.Lookup

/-!
# What every session has written

The open writes of a session are determined by where its request is.  A request has written nothing
until it has inserted its row, and then exactly that row; a click-recording task has written
nothing, or the bumped row of its code, or that and the event.

The second of these rests on the redirect: a task exists only after a `302` decision, a decision is
made only about a code that resolves, and a committed link stays.  So the counter update of a task
never comes to nothing.

## What is proved

`App.accounted_run`: every request of every run is `Accounted` for.
-/

set_option autoImplicit false

namespace UrlShortener

open TxStore (Write)

/-- A row is the one a `201` describes. -/
structure Url.Backs (url : Url) (body : UrlResponse) : Prop where
  shortCode : url.shortCode = body.shortCode
  longUrl : url.longUrl = body.longUrl
  expiresAt : url.expiresAt = body.expiresAt

/-- The writes of the session of a request.  Whatever is there during a rollback is dropped. -/
def Handler.Stages (h : Handler) (ws : List (Write Url ClickEvent)) : Prop :=
  match h.phase with
  | .commit (.created body) =>
      ∃ url, ws = [.insert url] ∧ url.Backs body ∧ url.clientId = some h.clientId ∧
        url.clickCount = 0
  | .rollback _ => True
  | _ => ws = []

/-- The writes of the session of a click-recording task. -/
def ClickTask.Stages (ws : List (Write Url ClickEvent)) : ClickTask → Prop
  | .updated click => ∃ url, ws = [.update url] ∧ url.shortCode = click.shortCode
  | .inserted click => ∃ url event, ws = [.update url, .append event] ∧
      url.shortCode = click.shortCode ∧ event.shortCode = click.shortCode
  | _ => ws = []

/-- The arguments of a task. -/
def ClickTask.click? : ClickTask → Option Repository.ClickArgs
  | .none => Option.none
  | .scheduled click | .updated click | .inserted click | .recorded click | .failed click =>
      some click

/-- A request whose sessions hold what they should.  It has a task exactly if it has decided on a
redirect, and what it decided on is a committed code. -/
structure Handler.Accounted (i : ℕ) (db : Database) (h : Handler) : Prop where
  request : h.Stages (db.own (.request i))
  background : h.task.Stages (db.own (.background i))
  undecided : h.phase.inBody = true → h.task = .none
  click : h.task.click?.map Repository.ClickArgs.shortCode = h.decision
  row : ∀ shortCode, h.decision = some shortCode → (db.find shortCode).isSome = true

@[simp] theorem ClickTask.click?_drop (task : ClickTask) : task.drop.click? = task.click? := by
  cases task <;> rfl

theorem ClickTask.Stages.drop {task : ClickTask} {ws : List (Write Url ClickEvent)}
    (h : task.Stages ws) : task.drop.Stages ws := by
  cases task <;> exact h

/-- In the body of a handler nothing has been written yet. -/
theorem Handler.stages_inBody {h : Handler} (hbody : h.phase.inBody = true)
    {ws : List (Write Url ClickEvent)} : h.Stages ws ↔ ws = [] := by
  unfold Stages
  cases hphase : h.phase <;> first | exact Iff.rfl | (rw [hphase] at hbody; cases hbody)

/-- Other requests leave a request accounted for. -/
theorem Handler.Accounted.stable {i j : ℕ} {shared shared' : Shared} {h : Handler}
    (hacc : h.Accounted j shared.db) (hij : i ≠ j) (hguarantee : Guarantee i shared shared') :
    h.Accounted j shared'.db := by
  have hrequest := hguarantee.sessions (.request j)
    (fun heq => hij (SessionId.request.inj heq).symm) SessionId.noConfusion
  have hbackground := hguarantee.sessions (.background j) SessionId.noConfusion
    fun heq => hij (SessionId.background.inj heq).symm
  exact ⟨hrequest ▸ hacc.request, hbackground ▸ hacc.background, hacc.undecided, hacc.click,
    fun shortCode hdecision => hguarantee.links.isSome_find (hacc.row shortCode hdecision)⟩

/-! ## Decisions are about committed codes -/

/-- **A `302` is about a committed code.**  The plain lookup called for it at some instant, and the
link it found has stayed. -/
theorem App.isSome_find_of_found (app : App) {es : List Event} {i : ℕ} {h : Handler}
    {shortCode longUrl : String} (hi : (app.run es).procs[i]? = some h)
    (hcall : h.request.call = .redirect shortCode)
    (hphase : h.phase = .respond (.found longUrl) ∨ h.phase = .commit (.found longUrl)) :
    ((app.run es).shared.db.find shortCode).isSome = true := by
  have hfacts := (app.redirectFacts_run es).2 i h hi shortCode hcall
  have hwitnessed : Witnessed app es i shortCode (.found longUrl) := by
    rcases hphase with hphase | hphase <;> rw [hphase] at hfacts <;> exact hfacts (Or.inl rfl)
  obtain ⟨m, hm, -, hplain⟩ := hwitnessed
  have hlinks := app.linksStay es (Nat.le_of_lt hm)
  rw [app.stateAt_length] at hlinks
  cases hfind : (app.stateAt es m).shared.db.find shortCode with
  | none =>
    have hnone : plainResponse (app.stateAt es m).shared shortCode = redirectNotFound shortCode :=
      plainResponse_of_none hfind
    cases hnone.symm.trans hplain
  | some url => exact hlinks.isSome_find (by rw [hfind]; rfl)

/-! ## Every action keeps its request accounted for -/

section Step

variable {app : App} {i : ℕ} {shared shared' : Shared} {h h' : Handler}

/-- A step of a handler.  `hrow` is what is known about the code of a new decision. -/
theorem Handler.Accounted.moves (hacc : h.Accounted i shared.db)
    (hm : Moves app i shared h shared' h') (hwf : shared.db.Wf)
    (hrow : ∀ shortCode point longUrl, h.phase = .redirect shortCode point →
      h'.phase = .respond (.found longUrl) ∨ h'.phase = .commit (.found longUrl) →
      (shared'.db.find shortCode).isSome = true) :
    h'.Accounted i shared'.db := by
  have hrow' : ∀ shortCode, h.decision = some shortCode →
      (shared'.db.find shortCode).isSome = true := fun shortCode hdecision =>
    (hm.wf_guarantee hwf).2.links.isSome_find (hacc.row shortCode hdecision)
  cases hm with
  | goesOn _ phase hbody hbody' hdb =>
    have hown := (Handler.stages_inBody hbody).mp hacc.request
    rw [← hdb] at hown
    exact ⟨(Handler.stages_inBody hbody').mpr hown, hdb ▸ hacc.background,
      fun _ => hacc.undecided hbody, hacc.click, hrow'⟩
  | waits hbody => exact hacc
  | raises _ response hbody _ hdb =>
    exact ⟨trivial, hdb ▸ hacc.background, (fun hf => by cases hf), hacc.click, hrow'⟩
  | rejected _ response hbody _ hdb =>
    have hown := (Handler.stages_inBody hbody).mp hacc.request
    rw [← hdb] at hown
    exact ⟨hown, hdb ▸ hacc.background, (fun hf => by cases hf), hacc.click, hrow'⟩
  | inserts payload shortCode expiresAt url db hphase hcreated =>
    have hbody : h.phase.inBody = true := by rw [hphase]; rfl
    have hown := (Handler.stages_inBody hbody).mp hacc.request
    have hbackground : db.own (.background i) = shared.db.own (.background i) := by
      rw [hcreated.own, if_neg SessionId.noConfusion]
    refine ⟨⟨url, ?_, ⟨rfl, rfl, rfl⟩, hcreated.clientId, hcreated.clickCount⟩, ?_,
      (fun hf => by cases hf), hacc.click, hrow'⟩
    · show db.own (.request i) = _
      rw [hcreated.own, if_pos rfl, hown, List.nil_append]
    · show ClickTask.Stages (db.own (.background i)) h.task
      rw [hbackground]
      exact hacc.background
  | decides _ shortCode longUrl point next hphase hnext hdb =>
    have hbody : h.phase.inBody = true := by rw [hphase]; rfl
    have hown := (Handler.stages_inBody hbody).mp hacc.request
    have hback : shared.db.own (.background i) = [] := by
      have hstages := hacc.background
      rw [hacc.undecided hbody] at hstages
      exact hstages
    rw [← hdb] at hown hback
    refine ⟨?_, hback, ?_, rfl, ?_⟩
    · rcases hnext with rfl | rfl <;> exact hown
    · rcases hnext with rfl | rfl <;> exact fun hf => by cases hf
    · rintro shortCode' hdecision
      obtain rfl : shortCode = shortCode' := Option.some.inj hdecision
      exact hrow shortCode point longUrl hphase hnext
  | reports shortCode point body hphase =>
    have hbody : h.phase.inBody = true := by rw [hphase]; rfl
    exact ⟨(Handler.stages_inBody hbody).mp hacc.request, hacc.background,
      (fun hf => by cases hf), hacc.click, hrow'⟩
  | commitFails response hphase =>
    exact ⟨trivial, hacc.background.drop, (fun hf => by cases hf),
      (congrArg _ (ClickTask.click?_drop _)).trans hacc.click, hrow'⟩
  | commits response hphase =>
    refine ⟨?_, ?_, (fun hf => by cases hf), hacc.click, hrow'⟩
    · show (shared.db.commit _).own _ = []
      rw [Database.own_commit, if_pos rfl]
    · show ClickTask.Stages ((shared.db.commit _).own _) h.task
      rw [Database.own_commit, if_neg SessionId.noConfusion]
      exact hacc.background
  | rollsBack response response' hphase _ =>
    refine ⟨?_, ?_, (fun hf => by cases hf), hacc.click, hrow'⟩
    · show (shared.db.rollback _).own _ = []
      rw [Database.own_rollback, if_pos rfl]
    · show ClickTask.Stages ((shared.db.rollback _).own _) h.task
      rw [Database.own_rollback, if_neg SessionId.noConfusion]
      exact hacc.background
  | responds response hphase =>
    have hown := hacc.request
    unfold Handler.Stages at hown
    rw [hphase] at hown
    exact ⟨hown, hacc.background, (fun hf => by cases hf), hacc.click, hrow'⟩
  | rests response hphase => exact hacc

/-- A step of a click-recording task. -/
theorem Handler.Accounted.recordMoves (hacc : h.Accounted i shared.db)
    (hm : RecordMoves i shared h shared' h') (hwf : shared.db.Wf) :
    h'.Accounted i shared'.db := by
  have hrow' : ∀ shortCode, h.decision = some shortCode →
      (shared'.db.find shortCode).isSome = true := fun shortCode hdecision =>
    (hm.wf_guarantee hwf).2.links.isSome_find (hacc.row shortCode hdecision)
  -- A finished request has an empty session of its own, whatever its task does.
  have hdone : ∀ {response : Response} {db : Database} {task : ClickTask},
      h.phase = .done response → db.own (.request i) = shared.db.own (.request i) →
      Handler.Stages { h with task := task } (db.own (.request i)) := by
    intro response db task hphase hown
    have hstages := hacc.request
    unfold Handler.Stages at hstages ⊢
    rw [hphase] at hstages
    dsimp only
    rw [hphase, hown]
    exact hstages
  cases hm with
  | rests => exact hacc
  | bumps response click db hphase htask hbumped =>
    have hdecision := hacc.click
    have hback := hacc.background
    rw [htask] at hdecision hback
    obtain ⟨url, hurl⟩ := Option.isSome_iff_exists.mp (hacc.row click.shortCode hdecision.symm)
    refine ⟨hdone hphase ?_, ⟨url.bump, ?_,
      url.bump_shortCode.trans (Database.find_shortCode hurl)⟩, fun hf => ?_, hdecision,
      hrow'⟩
    · rw [hbumped.own, if_neg SessionId.noConfusion]
    · show db.own (.background i) = _
      rw [hbumped.own, if_pos rfl, hurl, show shared.db.own (.background i) = [] from hback]
      rfl
    · rw [show h.phase = _ from hphase] at hf
      cases hf
  | appends response click event db hphase htask hinserted =>
    have hdecision := hacc.click
    have hback := hacc.background
    rw [htask] at hdecision hback
    obtain ⟨url, hown, hcode⟩ := hback
    refine ⟨hdone hphase ?_, ⟨url, event, ?_, hcode, hinserted.shortCode⟩, fun hf => ?_, hdecision,
      hrow'⟩
    · rw [hinserted.own, if_neg SessionId.noConfusion]
    · show db.own (.background i) = _
      rw [hinserted.own, if_pos rfl, hown]
      rfl
    · rw [show h.phase = _ from hphase] at hf
      cases hf
  | commits response click hphase htask =>
    have hdecision := hacc.click
    rw [htask] at hdecision
    refine ⟨hdone hphase ?_, ?_, fun hf => ?_, hdecision, hrow'⟩
    · rw [Database.own_commit, if_neg SessionId.noConfusion]
    · show (shared.db.commit _).own _ = []
      rw [Database.own_commit, if_pos rfl]
    · rw [show h.phase = _ from hphase] at hf
      cases hf
  | fails response click hphase htask =>
    have hdecision := hacc.click
    refine ⟨hdone hphase ?_, ?_, fun hf => ?_, ?_, hrow'⟩
    · rw [Database.own_rollback, if_neg SessionId.noConfusion]
    · show (shared.db.rollback _).own _ = []
      rw [Database.own_rollback, if_pos rfl]
    · rw [show h.phase = _ from hphase] at hf
      cases hf
    · rcases htask with htask | htask | htask <;> rw [htask] at hdecision <;> exact hdecision

end Step

/-- **Every request of every run is accounted for.** -/
theorem App.accounted_run (app : App) (es : List Event) {i : ℕ} {h : Handler}
    (hi : (app.run es).procs[i]? = some h) : h.Accounted i (app.run es).shared.db := by
  refine (app.safety (P := fun _ i shared h => h.Accounted i shared.db) (Q := fun _ => True)
    ?_ ?_ ?_ es fun _ _ => trivial).2 i h hi
  · intro es request _
    obtain ⟨hrequest, hbackground⟩ := app.own_of_length_le es (Nat.le_refl _)
    exact ⟨(Handler.stages_inBody (h := Handler.arrive request) rfl).mpr hrequest, hbackground,
      fun _ => rfl, rfl, fun _ hdecision => by cases hdecision⟩
  · intro es i action h _ hi hwf hacc
    cases action with
    | background choice => exact hacc.recordMoves (recordClick_moves i choice _ h) hwf
    | advance choice =>
      refine hacc.moves (advance_moves app i choice _ h) hwf ?_
      intro shortCode point longUrl hphase hphase'
      obtain ⟨hself, hshared⟩ := app.run_act_self hi (.advance choice)
      have hcons := app.consistent_run es hi
      unfold Handler.Consistent at hcons
      rw [hphase] at hcons
      have hcall : (act app i (.advance choice) (app.run es).shared h).2.request.call =
          .redirect shortCode := by
        rw [act_request]
        exact hcons
      have hrow := app.isSome_find_of_found hself hcall hphase'
      rw [hshared] at hrow
      exact hrow
  · intro es e i j shared' h hij _ hacc hguarantee
    exact hacc.stable hij hguarantee

end UrlShortener
