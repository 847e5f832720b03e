import UrlShortener.System.Ownership

/-!
# What the two tables say about the requests

The rows and the events are the only lasting record of what requests did.  A row names the client
that created it; an event holds the code, the headers and the hashed address of one redirect.  Both
are written by sessions that interleave with any number of others, and an event is written by a
task that runs after its request has been answered, from arguments that were put together before.

## What is proved

`App.audit_trail`: the rows are those of the requests that have committed a `201`, the events those
of the redirects whose task has committed, one for each, and every field is what the request it is
about has asked for or sent along.
-/

set_option autoImplicit false

namespace UrlShortener

/-- What an event says about the click it records. -/
def ClickEvent.click (event : ClickEvent) : Repository.ClickArgs where
  shortCode := event.shortCode
  referrer := event.referrer
  userAgent := event.userAgent
  clientIpHash := event.clientIpHash

/-- What a row says about the request that created it. -/
def Url.claim (url : Url) : Link × Option String := (url.toLink, url.clientId)

/-- What a request that has committed a `201` has put on record. -/
def Handler.claim (h : Handler) : Option (Link × Option String) :=
  h.committed.map fun body => (body.toLink, some h.clientId)

/-- The click that a request has put on record. -/
def Handler.recordedClick (h : Handler) : Option Repository.ClickArgs :=
  match h.task with
  | .recorded click => some click
  | _ => none

@[simp] theorem Url.bump_claim (url : Url) : url.bump.claim = url.claim := rfl

/-- The event that an insert flushes is about the click it was given. -/
theorem Repository.click_of_insertClickEvent {t : SessionId} {click : ClickArgs} {now : ℤ}
    {idGap : ℕ} {db db' : Database} {event : ClickEvent}
    (h : insertClickEvent t click now idGap db = .ok event db') : event.click = click := by
  unfold insertClickEvent at h
  dsimp only at h
  split at h
  · cases h
  · cases h
    rfl

/-! ## The pending event of a task -/

/-- A request whose task is about its own redirect. -/
structure Handler.Audited (app : App) (i : ℕ) (db : Database) (h : Handler) : Prop where
  click : ∀ click, h.task.click? = some click →
    ∃ shortCode, h.request.call = .redirect shortCode ∧ click = clickArgs app h shortCode
  event : ∀ click, h.task = .inserted click →
    ∃ url event, db.own (.background i) = [.update url, .append event] ∧ event.click = click

section Step

variable {app : App} {i : ℕ} {shared shared' : Shared} {h h' : Handler}

/-- A handler leaves the session of its task alone. -/
theorem Moves.own_background (hm : Moves app i shared h shared' h') :
    shared'.db.own (.background i) = shared.db.own (.background i) := by
  cases hm with
  | goesOn _ _ _ _ hdb | raises _ _ _ _ hdb | rejected _ _ _ _ hdb
  | decides _ _ _ _ _ _ _ hdb => rw [hdb]
  | waits | reports | commitFails | responds | rests => rfl
  | inserts _ _ _ _ _ _ hcreated => exact (hcreated.own _).trans (if_neg SessionId.noConfusion)
  | commits => exact (Database.own_commit ..).trans (if_neg SessionId.noConfusion)
  | rollsBack => exact (Database.own_rollback ..).trans (if_neg SessionId.noConfusion)

/-- A step of a handler. -/
theorem Handler.Audited.moves (haudited : h.Audited app i shared.db) (hcons : h.Consistent app)
    (hm : Moves app i shared h shared' h') : h'.Audited app i shared'.db := by
  have hown := hm.own_background
  unfold Handler.Consistent at hcons
  cases hm with
  | goesOn | waits | raises | rejected | inserts | reports | commits | rollsBack | responds
  | rests =>
    exact ⟨haudited.click, fun click htask => hown.symm ▸ haudited.event click htask⟩
  | decides _ shortCode longUrl point next hphase =>
    rw [hphase] at hcons
    refine ⟨fun click hclick => ⟨shortCode, hcons, ?_⟩, fun click htask => by cases htask⟩
    exact (Option.some.inj hclick).symm
  | commitFails =>
    refine ⟨fun click hclick => haudited.click click ?_, fun click htask => ?_⟩
    · rw [← ClickTask.click?_drop]
      exact hclick
    · have htask' : h.task = .inserted click := by
        cases hbefore : h.task <;> rw [hbefore] at htask <;>
          first | exact htask | cases htask
      exact hown.symm ▸ haudited.event click htask'

/-- How the event of a task comes to be pending. -/
theorem recordClick_inserted (i : ℕ) (choice : Choice) (shared : Shared) (h : Handler)
    {click : Repository.ClickArgs}
    (htask : (recordClick i choice shared h).2.task = .inserted click) :
    h.task = .inserted click ∧ (recordClick i choice shared h).1 = shared ∨
      h.task = .updated click ∧ ∃ event, event.click = click ∧
        (recordClick i choice shared h).1.db.own (.background i) =
          shared.db.own (.background i) ++ [.append event] := by
  unfold recordClick at htask ⊢
  split at htask
  · split at htask
    · cases htask
    · rename_i hbefore _ _
      rw [hbefore] at htask
      cases htask
    · cases htask
  · rename_i click' _ hbefore
    split at htask
    · cases htask
    · rw [hbefore] at htask
      cases htask
    · rename_i event db hinsert
      cases htask
      have hok := Choice.eq_of_statement hinsert (by simp)
      refine Or.inr ⟨hbefore, event, Repository.click_of_insertClickEvent hok, ?_⟩
      exact ((Repository.insertClickEvent_ok hok).own _).trans (if_pos rfl)
  · split at htask
    · cases htask
    · cases htask
  · exact Or.inl ⟨htask, rfl⟩

/-- A step of the task itself. -/
theorem Handler.Audited.recordClick (haudited : h.Audited app i shared.db)
    (hacc : h.Accounted i shared.db) (choice : Choice) :
    (recordClick i choice shared h).2.Audited app i (recordClick i choice shared h).1.db := by
  have hmoves := recordClick_moves i choice shared h
  refine ⟨fun click hclick => ?_, fun click htask => ?_⟩
  · have hsame : (UrlShortener.recordClick i choice shared h).2.task.click? = h.task.click? := by
      generalize (UrlShortener.recordClick i choice shared h).1 = shared' at hmoves
      generalize (UrlShortener.recordClick i choice shared h).2 = h' at hmoves
      cases hmoves with
      | rests => rfl
      | bumps _ _ _ _ htask | appends _ _ _ _ _ htask | commits _ _ _ htask =>
        rw [htask]
        rfl
      | fails _ _ _ htask => rcases htask with htask | htask | htask <;> rw [htask] <;> rfl
    obtain ⟨shortCode, hcall, hargs⟩ := haudited.click click (hsame ▸ hclick)
    refine ⟨shortCode, hmoves.same.1 ▸ hcall, ?_⟩
    rw [hargs, clickArgs, clickArgs, Handler.clientId, Handler.clientId, hmoves.same.1]
  · rcases recordClick_inserted i choice shared h htask with ⟨hbefore, hrests⟩ |
      ⟨hbefore, event, hevent, hown⟩
    · rw [hrests]
      exact haudited.event click hbefore
    · have hstages := hacc.background
      rw [hbefore] at hstages
      obtain ⟨url, hupdate, -⟩ := hstages
      rw [hown, hupdate]
      exact ⟨url, event, rfl, hevent⟩

end Step

theorem App.audited_run (app : App) (es : List Event) {i : ℕ} {h : Handler}
    (hi : (app.run es).procs[i]? = some h) : h.Audited app i (app.run es).shared.db := by
  refine (app.safety (P := fun _ i shared h => h.Audited app i shared.db) (Q := fun _ => True)
    ?_ ?_ ?_ es fun _ _ => trivial).2 i h hi
  · intro es request _
    exact ⟨fun _ hclick => (by cases hclick), fun _ htask => (by cases htask)⟩
  · intro es i action h _ hi _ haudited
    cases action with
    | advance choice =>
      exact haudited.moves (app.consistent_run es hi) (advance_moves app i choice _ h)
    | background choice => exact haudited.recordClick (app.accounted_run es hi) choice
  · intro es e i j shared' h hij _ haudited hguarantee
    have hown := hguarantee.sessions (.background j) SessionId.noConfusion
      fun heq => hij (SessionId.background.inj heq).symm
    exact ⟨haudited.click, fun click htask => hown.symm ▸ haudited.event click htask⟩

/-! ## What one action puts on record -/

section Step

variable {app : App} {i : ℕ} {shared shared' : Shared} {h h' : Handler}

/-- A handler adds no row, or that of its own `201`. -/
theorem Moves.urls (hm : Moves app i shared h shared' h') (hacc : h.Accounted i shared.db) :
    shared'.db.urls = shared.db.urls ∨ ∃ url body, h.phase = .commit (.created body) ∧
      h' = h.goto (.respond (.created body)) ∧ url.claim = (body.toLink, some h.clientId) ∧
      shared'.db.urls = shared.db.urls ++ [url] := by
  cases hm with
  | goesOn _ _ _ _ hdb | raises _ _ _ _ hdb | rejected _ _ _ _ hdb
  | decides _ _ _ _ _ _ _ hdb => exact Or.inl (congrArg Database.urls hdb)
  | waits | reports | commitFails | responds | rests => exact Or.inl rfl
  | inserts _ _ _ _ _ _ hcreated => exact Or.inl hcreated.urls
  | rollsBack => exact Or.inl rfl
  | commits response hphase =>
    have hstages := hacc.request
    unfold Handler.Stages at hstages
    rw [hphase] at hstages
    cases response with
    | created body =>
      obtain ⟨url, hown, hbacks, hclient, -⟩ := hstages
      exact Or.inr ⟨url, body, hphase, rfl, Prod.ext hbacks.toLink hclient,
        Database.urls_commit_insert hown⟩
    | found | stats | httpException | internalServerError =>
      exact Or.inl (Database.urls_commit_nil hstages)

/-- A handler adds no event. -/
theorem Moves.clickEvents (hm : Moves app i shared h shared' h') (hacc : h.Accounted i shared.db) :
    shared'.db.clickEvents = shared.db.clickEvents := by
  cases hm with
  | goesOn _ _ _ _ hdb | raises _ _ _ _ hdb | rejected _ _ _ _ hdb
  | decides _ _ _ _ _ _ _ hdb => exact congrArg Database.clickEvents hdb
  | waits | reports | commitFails | responds | rests => rfl
  | inserts _ _ _ _ _ _ hcreated => exact hcreated.clickEvents
  | rollsBack => rfl
  | commits response hphase =>
    have hstages := hacc.request
    unfold Handler.Stages at hstages
    rw [hphase] at hstages
    cases response with
    | created body =>
      obtain ⟨url, hown, -⟩ := hstages
      exact Database.clickEvents_commit_insert hown
    | found | stats | httpException | internalServerError =>
      exact Database.clickEvents_commit_nil hstages

/-- A handler puts no click on record. -/
theorem Moves.recordedClick (hm : Moves app i shared h shared' h')
    (hacc : h.Accounted i shared.db) : h'.recordedClick = h.recordedClick := by
  cases hm with
  | goesOn | waits | raises | rejected | inserts | reports | commits | rollsBack | responds
  | rests => rfl
  | decides _ _ _ _ _ hphase =>
    have htask := hacc.undecided (by rw [hphase]; rfl)
    unfold Handler.recordedClick
    rw [htask]
    rfl
  | commitFails =>
    unfold Handler.recordedClick
    cases h.task <;> rfl

/-- A task adds no row. -/
theorem RecordMoves.claims (hm : RecordMoves i shared h shared' h') (hacc : h.Accounted i shared.db)
    (hwf : shared.db.Wf) : shared'.db.urls.map Url.claim = shared.db.urls.map Url.claim := by
  cases hm with
  | rests | fails => rfl
  | bumps _ _ _ _ _ hbumped => exact congrArg _ hbumped.urls
  | appends _ _ _ _ _ _ hinserted => exact congrArg _ hinserted.urls
  | commits _ click _ htask =>
    have hstages := hacc.background
    rw [htask] at hstages
    obtain ⟨url, event, hown, -⟩ := hstages
    show ((shared.db.commit _).urls.map Url.claim) = _
    rw [hwf.urls_commit_recording hown, List.map_map]
    refine List.map_congr_left fun row _ => ?_
    show (if _ then row.bump else row).claim = row.claim
    split
    · exact row.bump_claim
    · rfl

/-- **A task adds no event, or that of its own click.** -/
theorem RecordMoves.recordedClick (hm : RecordMoves i shared h shared' h')
    (haudited : h.Audited app i shared.db) :
    shared'.db.clickEvents = shared.db.clickEvents ∧ h'.recordedClick = h.recordedClick ∨
      ∃ event, h.recordedClick = none ∧ h'.recordedClick = some event.click ∧
        shared'.db.clickEvents = shared.db.clickEvents ++ [event] := by
  cases hm with
  | rests => exact Or.inl ⟨rfl, rfl⟩
  | bumps _ _ _ _ htask hbumped =>
    refine Or.inl ⟨hbumped.clickEvents, ?_⟩
    unfold Handler.recordedClick
    rw [htask]
  | appends _ _ _ _ _ htask hinserted =>
    refine Or.inl ⟨hinserted.clickEvents, ?_⟩
    unfold Handler.recordedClick
    rw [htask]
  | commits _ click _ htask =>
    obtain ⟨url, event, hown, rfl⟩ := haudited.event _ htask
    refine Or.inr ⟨event, ?_, rfl, Database.clickEvents_commit_recording hown⟩
    unfold Handler.recordedClick
    rw [htask]
  | fails _ _ _ htask =>
    refine Or.inl ⟨rfl, ?_⟩
    unfold Handler.recordedClick
    rcases htask with htask | htask | htask <;> rw [htask]

/-- An action puts a row on record exactly when it commits a `201`. -/
theorem App.claim_act (app : App) {es : List Event} (hi : (app.run es).procs[i]? = some h)
    (action : Action) :
    (act app i action (app.run es).shared h).1.db.urls.map Url.claim =
        (app.run es).shared.db.urls.map Url.claim ∧
        (act app i action (app.run es).shared h).2.claim = h.claim ∨
      ∃ x, h.claim = none ∧ (act app i action (app.run es).shared h).2.claim = some x ∧
        (act app i action (app.run es).shared h).1.db.urls.map Url.claim =
          (app.run es).shared.db.urls.map Url.claim ++ [x] := by
  have hacc := app.accounted_run es hi
  have hrequest := act_request app i action (app.run es).shared h
  have hlink := app.linkStep_act hi action
  have hsame : (act app i action (app.run es).shared h).2.committed = h.committed →
      (act app i action (app.run es).shared h).2.claim = h.claim := by
    intro hcommitted
    rw [Handler.claim, Handler.claim, hcommitted, Handler.clientId, Handler.clientId, hrequest]
  cases action with
  | advance choice =>
    rcases (advance_moves app i choice (app.run es).shared h).urls hacc with hurls |
      ⟨url, body, hphase, hnext, hclaim, hurls⟩
    · refine Or.inl ⟨congrArg (List.map Url.claim) hurls, hsame ?_⟩
      rcases hlink with ⟨-, hcommitted⟩ | ⟨body, -, -, hlinks⟩
      · exact hcommitted
      · have hlength := congrArg List.length hlinks
        rw [show (act app i (.advance choice) (app.run es).shared h).1.db.urls = _ from hurls,
          List.length_append] at hlength
        exact absurd hlength (by simp)
    · refine Or.inr ⟨url.claim, ?_, ?_, ?_⟩
      · unfold Handler.claim Handler.committed
        rw [hphase]
        rfl
      · show (advance app i choice (app.run es).shared h).2.claim = _
        rw [hnext, hclaim]
        rfl
      · show ((advance app i choice (app.run es).shared h).1.db.urls.map Url.claim) = _
        rw [hurls, List.map_append]
        rfl
  | background choice =>
    have hmoves := recordClick_moves i choice (app.run es).shared h
    refine Or.inl ⟨hmoves.claims hacc (app.wf_run es), hsame ?_⟩
    show (recordClick i choice (app.run es).shared h).2.committed = _
    unfold Handler.committed
    rw [hmoves.same.2.1]

/-- An action puts an event on record exactly when it commits a click. -/
theorem App.recordedClick_act (app : App) {es : List Event}
    (hi : (app.run es).procs[i]? = some h) (action : Action) :
    (act app i action (app.run es).shared h).1.db.clickEvents.map ClickEvent.click =
        (app.run es).shared.db.clickEvents.map ClickEvent.click ∧
        (act app i action (app.run es).shared h).2.recordedClick = h.recordedClick ∨
      ∃ x, h.recordedClick = none ∧
        (act app i action (app.run es).shared h).2.recordedClick = some x ∧
        (act app i action (app.run es).shared h).1.db.clickEvents.map ClickEvent.click =
          (app.run es).shared.db.clickEvents.map ClickEvent.click ++ [x] := by
  cases action with
  | advance choice =>
    have hmoves := advance_moves app i choice (app.run es).shared h
    have hacc := app.accounted_run es hi
    exact Or.inl ⟨congrArg _ (hmoves.clickEvents hacc), hmoves.recordedClick hacc⟩
  | background choice =>
    rcases (recordClick_moves i choice (app.run es).shared h).recordedClick
      (app.audited_run es hi) with ⟨hevents, hsame⟩ | ⟨event, hnone, hsome, hevents⟩
    · exact Or.inl ⟨congrArg _ hevents, hsame⟩
    · refine Or.inr ⟨event.click, hnone, hsome, ?_⟩
      show ((recordClick i choice (app.run es).shared h).1.db.clickEvents.map ClickEvent.click) = _
      rw [hevents, List.map_append]
      rfl

end Step

/-! ## Runs -/

/-- What the two tables say about the requests. -/
structure AuditTrail (app : App) (es : List Event) : Prop where
  /-- The rows are the links of the requests that have committed a `201`, one for each, and each
  names the client of its request. -/
  rows : ((app.run es).shared.db.urls.map Url.claim).Perm
    ((app.run es).procs.filterMap Handler.claim)
  /-- A row on record is what its creation has asked for: a code that the body allows, the
  destination in the body, the days in the body counted from a reading of the clock, and its own
  client. -/
  creations : ∀ (i : ℕ) (h : Handler) (link : Link) (clientId : Option String),
    (app.run es).procs[i]? = some h → h.claim = some (link, clientId) →
    ∃ payload, h.request.call = .createUrl payload ∧ payload.Allows app link.shortCode ∧
      link.longUrl = payload.longUrl ∧ (∃ n, ReadAt app es n i payload link.expiresAt) ∧
      clientId = some (getClientIdentifier h.request)
  /-- The events are the clicks of the requests whose task has committed, one for each. -/
  events : ((app.run es).shared.db.clickEvents.map ClickEvent.click).Perm
    ((app.run es).procs.filterMap Handler.recordedClick)
  /-- A click on record is the redirect of its request: the code it asked for, its own headers, and
  the digest of its own address. -/
  clicks : ∀ (i : ℕ) (h : Handler) (click : Repository.ClickArgs),
    (app.run es).procs[i]? = some h → h.recordedClick = some click →
    ∃ shortCode, h.request.call = .redirect shortCode ∧
      click = ⟨shortCode, h.request.referer, h.request.userAgent,
        some (hashClientIp app (getClientIdentifier h.request))⟩

/-- **The events are the clicks on record.** -/
theorem App.events_perm (app : App) (es : List Event) :
    ((app.run es).shared.db.clickEvents.map ClickEvent.click).Perm
      ((app.run es).procs.filterMap Handler.recordedClick) := by
  refine app.system.contributions (f := Handler.recordedClick) (g := fun shared =>
    shared.db.clickEvents.map ClickEvent.click) rfl (fun _ => rfl) (fun e shared => ?_)
    (fun es i action h hi => ?_) es
  · exact congrArg _ (congrArg Database.clickEvents (Env.apply_db shared e))
  · exact app.recordedClick_act hi action

/-- **The two tables are a faithful record of the requests.** -/
theorem App.audit_trail (app : App) (es : List Event) : AuditTrail app es where
  rows := by
    refine app.system.contributions (f := Handler.claim) (g := fun shared => shared.db.urls.map
      Url.claim) rfl (fun _ => rfl) (fun e shared => ?_) (fun es i action h hi => ?_) es
    · exact congrArg _ (congrArg Database.urls (Env.apply_db shared e))
    · exact app.claim_act hi action
  creations := by
    intro i h link clientId hi hclaim
    obtain ⟨body, hcommitted, heq⟩ := Option.map_eq_some_iff.mp hclaim
    rw [Prod.mk.injEq] at heq
    obtain ⟨rfl, rfl⟩ := heq
    obtain ⟨payload, hcall, hallows, hlongUrl, hread⟩ := app.creator_run es hi hcommitted
    exact ⟨payload, hcall, hallows, hlongUrl, hread, rfl⟩
  events := app.events_perm es
  clicks := by
    intro i h click hi hrecorded
    unfold Handler.recordedClick at hrecorded
    split at hrecorded
    · rename_i click' htask
      cases hrecorded
      exact (app.audited_run es hi).click click (by rw [htask]; rfl)
    · cases hrecorded

end UrlShortener
