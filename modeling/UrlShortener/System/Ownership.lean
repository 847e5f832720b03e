import UrlShortener.System.Readings
import UrlShortener.System.Sessions

/-!
# Every short code has one owner, for good

Creation checks first and inserts later, so two requests may both find a code free.  The unique
index decides between them: the second insert waits for the first session, and then either fails or
goes through because the first was rolled back.

## What is proved

* The committed links are those of the requests that have committed a `201`, one for each
  (`App.links_perm`), and they never change (`App.linksStay`).
* A request that ends in an error has never changed the committed links (`App.links_of_error`).
* A `409` names a code that has a committed row (`App.conflict_run`).

`App.one_owner` puts these together.
-/

set_option autoImplicit false

namespace UrlShortener

/-- What a link is about: the code, the destination and the expiry. -/
structure Link where
  shortCode : String
  longUrl : String
  expiresAt : Option ℤ
  deriving DecidableEq, Repr

/-- What a committed row is about. -/
def Url.toLink (u : Url) : Link := ⟨u.shortCode, u.longUrl, u.expiresAt⟩

/-- What a `201` is about. -/
def UrlResponse.toLink (body : UrlResponse) : Link := ⟨body.shortCode, body.longUrl, body.expiresAt⟩

/-- The `201` of a request whose row is committed, whether or not it has been sent yet. -/
def Handler.committed (h : Handler) : Option UrlResponse :=
  match h.phase with
  | .respond (.created body) | .done (.created body) => some body
  | _ => none

@[simp] theorem Url.bump_toLink (u : Url) : u.bump.toLink = u.toLink := rfl

theorem Url.Backs.toLink {url : Url} {body : UrlResponse} (h : url.Backs body) :
    url.toLink = body.toLink := by
  rw [Url.toLink, h.shortCode, h.longUrl, h.expiresAt]
  rfl

theorem Handler.committed_of_inBody {h : Handler} (hbody : h.phase.inBody = true) :
    h.committed = none := by
  unfold committed
  cases hphase : h.phase <;> first | rfl | (rw [hphase] at hbody; cases hbody)

/-- The response of an exception is no `201`. -/
theorem committed_respond_of_isError (h : Handler) {response : Response}
    (herror : response.isError = true) : (h.goto (.respond response)).committed = none := by
  cases response <;> first | rfl | cases herror

/-! ## What one action does to the committed links -/

/-- An action either leaves the committed links alone, or it commits the `201` of its request and
adds its link. -/
def LinkStep (shared shared' : Shared) (h h' : Handler) : Prop :=
  shared'.db.urls.map Url.toLink = shared.db.urls.map Url.toLink ∧ h'.committed = h.committed ∨
    ∃ body : UrlResponse, h.committed = none ∧ h'.committed = some body ∧
      shared'.db.urls.map Url.toLink = shared.db.urls.map Url.toLink ++ [body.toLink]

section Step

variable {app : App} {i : ℕ} {shared shared' : Shared} {h h' : Handler}

theorem linkStep_of_db (hdb : shared'.db = shared.db) (hcommitted : h'.committed = h.committed) :
    LinkStep shared shared' h h' := Or.inl ⟨by rw [hdb], hcommitted⟩

theorem Moves.linkStep (hm : Moves app i shared h shared' h') (hacc : h.Accounted i shared.db)
    (hcons : h.Consistent app) : LinkStep shared shared' h h' := by
  unfold Handler.Consistent at hcons
  cases hm with
  | goesOn _ _ hbody hbody' hdb =>
    exact linkStep_of_db hdb
      ((Handler.committed_of_inBody hbody').trans (Handler.committed_of_inBody hbody).symm)
  | waits => exact linkStep_of_db rfl rfl
  | raises _ _ hbody _ hdb => exact linkStep_of_db hdb (Handler.committed_of_inBody hbody).symm
  | rejected _ _ hbody herror hdb =>
    exact linkStep_of_db hdb
      ((committed_respond_of_isError h herror).trans (Handler.committed_of_inBody hbody).symm)
  | inserts _ _ _ _ _ hphase hcreated =>
    refine Or.inl ⟨congrArg (List.map Url.toLink) hcreated.urls, ?_⟩
    exact (Handler.committed_of_inBody (by rw [hphase]; rfl)).symm
  | decides _ _ _ _ _ hphase hnext hdb =>
    refine linkStep_of_db hdb (Eq.trans ?_
      (Handler.committed_of_inBody (show h.phase.inBody = true by rw [hphase]; rfl)).symm)
    rcases hnext with rfl | rfl <;> rfl
  | reports _ _ _ hphase =>
    exact linkStep_of_db rfl
      (Handler.committed_of_inBody (show h.phase.inBody = true by rw [hphase]; rfl)).symm
  | commitFails _ hphase =>
    refine linkStep_of_db rfl ?_
    unfold Handler.committed
    rw [hphase]
  | commits response hphase =>
    have hstages := hacc.request
    unfold Handler.Stages at hstages
    rw [hphase] at hstages
    have hnone : h.committed = none := by
      unfold Handler.committed
      rw [hphase]
    cases response with
    | created body =>
      obtain ⟨url, hown, hbacks, -, -⟩ := hstages
      refine Or.inr ⟨body, hnone, rfl, ?_⟩
      show ((shared.db.commit _).urls.map Url.toLink) = _
      rw [Database.urls_commit_insert hown, List.map_append, ← hbacks.toLink]
      rfl
    | found location =>
      exact Or.inl ⟨congrArg (List.map Url.toLink) (Database.urls_commit_nil hstages), hnone.symm⟩
    | stats body =>
      exact Or.inl ⟨congrArg (List.map Url.toLink) (Database.urls_commit_nil hstages), hnone.symm⟩
    | httpException status detail retryAfter =>
      exact Or.inl ⟨congrArg (List.map Url.toLink) (Database.urls_commit_nil hstages), hnone.symm⟩
    | internalServerError =>
      exact Or.inl ⟨congrArg (List.map Url.toLink) (Database.urls_commit_nil hstages), hnone.symm⟩
  | rollsBack response response' hphase hresponse =>
    rw [hphase] at hcons
    have hnone : h.committed = none := by
      unfold Handler.committed
      rw [hphase]
    refine Or.inl ⟨rfl, Eq.trans (committed_respond_of_isError h ?_) hnone.symm⟩
    rcases hresponse with rfl | rfl
    · exact hcons.2
    · rfl
  | responds response hphase =>
    refine linkStep_of_db rfl ?_
    unfold Handler.committed
    rw [hphase]
    cases response <;> rfl
  | rests => exact linkStep_of_db rfl rfl

theorem RecordMoves.linkStep (hm : RecordMoves i shared h shared' h')
    (hacc : h.Accounted i shared.db) (hwf : shared.db.Wf) : LinkStep shared shared' h h' := by
  have hcommitted : h'.committed = h.committed := by
    unfold Handler.committed
    rw [hm.same.2.1]
  refine Or.inl ⟨?_, hcommitted⟩
  cases hm with
  | rests => rfl
  | bumps _ _ _ _ _ hbumped => exact congrArg (List.map Url.toLink) hbumped.urls
  | appends _ _ _ _ _ _ hinserted => exact congrArg (List.map Url.toLink) hinserted.urls
  | fails => rfl
  | commits _ click _ htask =>
    have hstages := hacc.background
    rw [htask] at hstages
    obtain ⟨url, event, hown, -, -⟩ := hstages
    show ((shared.db.commit _).urls.map Url.toLink) = _
    rw [hwf.urls_commit_recording hown, List.map_map]
    apply List.map_congr_left
    intro u _
    show Url.toLink (if u.shortCode = url.shortCode then u.bump else u) = u.toLink
    split <;> rfl

/-- **An action commits its own `201` or leaves the committed links alone.** -/
theorem App.linkStep_act (app : App) {es : List Event} {i : ℕ} {h : Handler}
    (hi : (app.run es).procs[i]? = some h) (action : Action) :
    LinkStep (app.run es).shared (act app i action (app.run es).shared h).1 h
      (act app i action (app.run es).shared h).2 := by
  have hacc := app.accounted_run es hi
  cases action with
  | advance choice =>
    exact (advance_moves app i choice _ h).linkStep hacc (app.consistent_run es hi)
  | background choice =>
    exact (recordClick_moves i choice _ h).linkStep hacc (app.wf_run es)

end Step

/-! ## The committed links are the committed requests -/

/-- The links of the requests that have committed a `201`. -/
def committedLinks (procs : List Handler) : List Link :=
  procs.filterMap fun h => h.committed.map UrlResponse.toLink

/-- **The committed links are those of the requests that have committed a `201`, one for each.**
The induction is on the run: only the commit of a `201` changes either side. -/
theorem App.links_perm (app : App) (es : List Event) :
    ((app.run es).shared.db.urls.map Url.toLink).Perm (committedLinks (app.run es).procs) := by
  induction es using List.reverseRecOn with
  | nil => exact List.Perm.refl _
  | append_singleton es e ih =>
    rw [app.run_concat]
    cases e with
    | arrive request =>
      have hentry : (Handler.arrive request).committed = none := rfl
      show ((app.run es).shared.db.urls.map Url.toLink).Perm
        (committedLinks ((app.run es).procs ++ [Handler.arrive request]))
      rw [committedLinks, List.filterMap_append, List.filterMap_cons_none (by rw [hentry]; rfl),
        List.filterMap_nil, List.append_nil]
      exact ih
    | env e =>
      show ((e.apply (app.run es).shared).db.urls.map Url.toLink).Perm _
      rw [Env.apply_db]
      exact ih
    | act i action =>
      cases hi : (app.run es).procs[i]? with
      | none =>
        rw [app.system.step_act_of_none hi]
        exact ih
      | some h =>
        rw [app.system.step_act_of_some hi]
        show ((act app i action (app.run es).shared h).1.db.urls.map Url.toLink).Perm
          (committedLinks ((app.run es).procs.set i (act app i action (app.run es).shared h).2))
        rcases app.linkStep_act hi action with ⟨hlinks, hsame⟩ | ⟨body, hnone, hsome, hlinks⟩
        · rw [hlinks, committedLinks, filterMap_set_eq hi (by rw [hsame])]
          exact ih
        · rw [hlinks]
          refine (ih.append_right _).trans (filterMap_set_perm hi ?_ ?_).symm
          · rw [hnone]
            rfl
          · rw [hsome]
            rfl

/-! ## Requests that end in an error -/

/-- A `201` that is committed at one instant is committed at every later one. -/
theorem App.committed_mono (app : App) (es : List Event) {m n : ℕ} (hmn : m ≤ n) {i : ℕ}
    {h : Handler} {body : UrlResponse} (hi : (app.stateAt es m).procs[i]? = some h)
    (hcommitted : h.committed = some body) :
    ∃ h', (app.stateAt es n).procs[i]? = some h' ∧ h'.committed = some body := by
  refine app.system.persists (K := fun h => h.committed = some body) ?_ es hmn hi hcommitted
  intro es i action h hi hcommitted
  rcases app.linkStep_act hi action with ⟨-, hsame⟩ | ⟨-, hnone, -, -⟩
  · exact hsame.trans hcommitted
  · cases hnone.symm.trans hcommitted

/-- **A request that ends in an error has left no row.**  None of its actions changed the committed
links, and nothing of it is waiting to be committed. -/
theorem App.links_of_error (app : App) (es : List Event) {i : ℕ} {h : Handler}
    {response : Response} (hi : (app.run es).procs[i]? = some h) (hdone : h.phase = .done response)
    (herror : response.isError = true) :
    (app.run es).shared.db.own (.request i) = [] ∧
      ∀ m action, es[m]? = some (.act i action) →
        (app.stateAt es (m + 1)).shared.db.urls.map Url.toLink =
          (app.stateAt es m).shared.db.urls.map Url.toLink := by
  constructor
  · have hstages := (app.accounted_run es hi).request
    unfold Handler.Stages at hstages
    rw [hdone] at hstages
    exact hstages
  · intro m action hm
    have hsucc : app.stateAt es (m + 1) = app.system.step (app.stateAt es m) (.act i action) :=
      Run.stateAt_succ_of_getElem? _ hm
    cases hi' : (app.stateAt es m).procs[i]? with
    | none => rw [hsucc, app.system.step_act_of_none hi']
    | some h' =>
      have hstep : LinkStep (app.stateAt es m).shared
          (act app i action (app.stateAt es m).shared h').1 h'
          (act app i action (app.stateAt es m).shared h').2 := app.linkStep_act hi' action
      rcases hstep with ⟨hlinks, -⟩ | ⟨body, -, hcommitted, -⟩
      · rw [hsucc, app.system.step_act_of_some hi']
        exact hlinks
      · have hself : (app.stateAt es (m + 1)).procs[i]? =
            some (act app i action (app.stateAt es m).shared h').2 := by
          rw [hsucc]
          exact app.system.getElem?_step_act_self hi' action
        have hm' : m < es.length := (List.getElem?_eq_some_iff.mp hm).1
        obtain ⟨h'', hi'', hcommitted''⟩ :=
          app.committed_mono es (show m + 1 ≤ es.length by omega) hself hcommitted
        rw [app.stateAt_length, hi, Option.some.injEq] at hi''
        subst hi''
        unfold Handler.committed at hcommitted''
        rw [hdone] at hcommitted''
        cases response with
        | created body' => cases herror
        | found location => cases hcommitted''
        | stats body' => cases hcommitted''
        | httpException status detail retryAfter => cases hcommitted''
        | internalServerError => cases hcommitted''

/-! ## What a `409` means -/

/-- A `409` names a code that the request may use and that has a committed row. -/
def ConflictBacked (app : App) (db : Database) (call : Call) (response : Response) : Prop :=
  response.status = 409 → ∃ payload shortCode, call = .createUrl payload ∧
    payload.Allows app shortCode ∧
    (response = customCodeConflict shortCode ∨ response = raceConflict shortCode) ∧
    (db.find shortCode).isSome = true

theorem ConflictBacked.of_status {app : App} {db : Database} {call : Call} {response : Response}
    (h : response.status ≠ 409) : ConflictBacked app db call response := fun hs => absurd hs h

theorem isSome_of_codeExists {choice : Choice} {shortCode : String} {db : Database}
    (h : choice.query (Repository.codeExists shortCode db) = .ok true) :
    (db.find shortCode).isSome = true := by
  have hexists := Choice.eq_of_query h (by simp)
  rw [Repository.codeExists_eq] at hexists
  split at hexists
  · exact Except.ok.inj hexists
  · cases hexists

/-- **A `409` is raised only when the code has a committed row.** -/
theorem createUrl_conflict {app : App} (i : ℕ) (choice : Choice) (shared : Shared) {h : Handler}
    {payload : CreateUrlRequest} {point : CreatePoint} (hcall : h.request.call = .createUrl payload)
    (hpoint : point.Consistent app payload) (hphase : h.phase = .createUrl payload point)
    {response : Response}
    (hresponse : (createUrl app i choice shared h payload point).2.phase.response? =
      some response) :
    ConflictBacked app shared.db h.request.call response := by
  obtain ⟨db, next, hsteps, hresult⟩ := createUrl_steps point
  rw [hresult] at hresponse
  change next.response? = some response at hresponse
  cases hsteps with
  | checkFails | drawFails | lookupFails | saturated | insertFails | inserts =>
    cases hresponse
    exact .of_status (by simp)
  | taken customCode hexists =>
    cases hresponse
    exact fun _ => ⟨payload, customCode, hcall, CreateUrlRequest.allows_customCode hpoint,
      Or.inl rfl, isSome_of_codeExists hexists⟩
  | races shortCode expiresAt herror =>
    cases hresponse
    refine fun _ => ⟨payload, shortCode, hcall, hpoint.1, Or.inr rfl, ?_⟩
    rcases Repository.createUrl_error (Choice.eq_of_statement herror (by simp)) with
      ⟨-, hrow⟩ | ⟨hdata, -⟩
    · exact hrow
    · cases hdata
  | free | generated =>
    rw [response?_chosen] at hresponse
    cases hresponse
  | waits =>
    rw [hphase] at hresponse
    cases hresponse
  | collides | expires => cases hresponse

theorem ConflictBacked.mono {app : App} {db db' : Database} (hlinks : db.LinksStay db')
    {call : Call} {response : Response} (h : ConflictBacked app db call response) :
    ConflictBacked app db' call response := by
  intro hstatus
  obtain ⟨payload, shortCode, hcall, hallows, hresponse, hrow⟩ := h hstatus
  exact ⟨payload, shortCode, hcall, hallows, hresponse, hlinks.isSome_find hrow⟩

/-- Every step of a handler keeps its `409`, if it has one, backed by a row. -/
theorem conflictBacked_advance {app : App} {i : ℕ} (choice : Choice) {shared : Shared} {h : Handler}
    (hwf : shared.db.Wf) (hcons : h.Consistent app)
    (hbacked : ∀ response, h.phase.response? = some response →
      ConflictBacked app shared.db h.request.call response) {response : Response}
    (hresponse : (advance app i choice shared h).2.phase.response? = some response) :
    ConflictBacked app (advance app i choice shared h).1.db h.request.call response := by
  have hlinks := (act_wf_guarantee app i (.advance choice) h hwf).2.links
  have hleads := advance_leads app i choice shared h
  refine ConflictBacked.mono hlinks ?_
  cases hopen : h.phase.response? with
  | some response' =>
    rcases hleads.response?_of_closed hopen with hsame | hfailed
    · exact hbacked response (by rw [hopen, ← hsame, hresponse])
    · cases hresponse.symm.trans hfailed
      exact .of_status (by simp)
  | none =>
    cases hleads.settles hopen hresponse with
    | create payload point _ hphase =>
      unfold Handler.Consistent at hcons
      rw [hphase] at hcons
      refine createUrl_conflict i choice shared hcons.1 hcons.2 hphase ?_
      rw [← hresponse, advance, hphase]
    | unreadable | rejected | found | selectFails | notFound | expired => exact .of_status (by simp)
    | stats _ _ _ _ hstatus =>
      refine .of_status fun heq => ?_
      rw [heq] at hstatus
      simp at hstatus

/-- **A `409` names a code that has a committed row.** -/
theorem App.conflict_run (app : App) (es : List Event) {i : ℕ} {h : Handler}
    (hi : (app.run es).procs[i]? = some h) {response : Response}
    (hresponse : h.phase.response? = some response) :
    ConflictBacked app (app.run es).shared.db h.request.call response := by
  refine (app.safety (P := fun _ _ shared h => ∀ response, h.phase.response? = some response →
    ConflictBacked app shared.db h.request.call response) (Q := fun _ => True) ?_ ?_ ?_ es
    fun _ _ => trivial).2 i h hi response hresponse
  · intro es request _ response hresponse
    cases hresponse
  · intro es i action h _ hi hwf hbacked response hresponse
    rw [act_request]
    cases action with
    | advance choice =>
      exact conflictBacked_advance choice hwf (app.consistent_run es hi) hbacked hresponse
    | background choice =>
      have hphase := (recordClick_moves i choice (app.run es).shared h).same.2.1
      have hlinks := (act_wf_guarantee app i (.background choice) h hwf).2.links
      refine ConflictBacked.mono hlinks (hbacked response ?_)
      rw [← hphase]
      exact hresponse
  · intro es e i j shared' h _ _ hbacked hguarantee response hresponse
    exact (hbacked response hresponse).mono hguarantee.links

/-! ## One owner -/

/-- Two positions that contribute the same to a list without repetition are one position. -/
theorem index_unique {γ δ : Type*} {f : γ → Option δ} {l : List γ} (hnd : (l.filterMap f).Nodup)
    {i j : ℕ} {a b : γ} {x : δ} (hi : l[i]? = some a) (hj : l[j]? = some b) (ha : f a = some x)
    (hb : f b = some x) : i = j := by
  induction l generalizing i j with
  | nil => cases hi
  | cons c l ih =>
    have hmem : ∀ {k : ℕ} {d : γ}, l[k]? = some d → f d = some x → x ∈ l.filterMap f :=
      fun hk hd => List.mem_filterMap.mpr ⟨_, List.mem_of_getElem? hk, hd⟩
    have htail : (l.filterMap f).Nodup :=
      hnd.sublist ((List.sublist_cons_self c l).filterMap f)
    cases i with
    | zero =>
      obtain rfl : c = a := Option.some.inj hi
      rw [List.filterMap_cons_some ha, List.nodup_cons] at hnd
      cases j with
      | zero => rfl
      | succ j => exact absurd (hmem hj hb) hnd.1
    | succ i =>
      cases j with
      | zero =>
        obtain rfl : c = b := Option.some.inj hj
        rw [List.filterMap_cons_some hb, List.nodup_cons] at hnd
        exact absurd (hmem hi ha) hnd.1
      | succ j => rw [ih htail hi hj]

/-- The codes of the committed requests are distinct. -/
theorem App.nodup_committed (app : App) (es : List Event) :
    ((app.run es).procs.filterMap fun h => h.committed.map UrlResponse.shortCode).Nodup := by
  have hperm := (app.links_perm es).map Link.shortCode
  rw [committedLinks, List.map_map, List.map_filterMap] at hperm
  have hkeys : ((app.run es).shared.db.urls.map (Link.shortCode ∘ Url.toLink)).Nodup :=
    (app.wf_run es).keys
  have hnd := hperm.nodup_iff.mp hkeys
  simp only [Option.map_map] at hnd
  exact hnd

/-- **What a `201` says is what its request asked for**, by the clock the request has read. -/
theorem App.creator_run (app : App) (es : List Event) {i : ℕ} {h : Handler} {body : UrlResponse}
    (hi : (app.run es).procs[i]? = some h) (hcommitted : h.committed = some body) :
    ∃ payload : CreateUrlRequest, h.request.call = .createUrl payload ∧
      payload.Allows app body.shortCode ∧ body.longUrl = payload.longUrl ∧
      ∃ n, ReadAt app es n i payload body.expiresAt := by
  have hresponse : h.phase.response? = some (.created body) := by
    unfold Handler.committed at hcommitted
    split at hcommitted
    · rename_i hphase
      rw [hphase]
      exact congrArg (Option.map Response.created) hcommitted
    · rename_i hphase
      rw [hphase]
      exact congrArg (Option.map Response.created) hcommitted
    · cases hcommitted
  have hanswers := (app.consistent_run es hi).answers hresponse
  cases hcall : h.request.call with
  | createUrl payload =>
    have hread := app.readAt_run es hi hcall hresponse
    rw [hcall] at hanswers
    cases hanswers with
    | created hallows => exact ⟨payload, rfl, hallows, rfl, hread⟩
  | redirect | getStats =>
    rw [hcall] at hanswers
    cases hanswers

/-- What concurrent creation comes to. -/
structure OneOwner (app : App) (es : List Event) : Prop where
  /-- At most one request has a `201` for a given code, sent or about to be. -/
  unique : ∀ (i j : ℕ) (h h' : Handler) (body body' : UrlResponse),
    (app.run es).procs[i]? = some h → (app.run es).procs[j]? = some h' →
    h.committed = some body → h'.committed = some body' → body.shortCode = body'.shortCode → i = j
  /-- The committed rows are those of the requests with a `201`, one for each. -/
  rows : ((app.run es).shared.db.urls.map Url.toLink).Perm (committedLinks (app.run es).procs)
  /-- What a `201` says is what its request asked for, by the clock the request has read. -/
  creator : ∀ (i : ℕ) (h : Handler) (body : UrlResponse), (app.run es).procs[i]? = some h →
    h.committed = some body → ∃ payload : CreateUrlRequest, h.request.call = .createUrl payload ∧
      payload.Allows app body.shortCode ∧ body.longUrl = payload.longUrl ∧
      ∃ n, ReadAt app es n i payload body.expiresAt
  /-- A committed row is there at every later instant, and only its counter changes. -/
  stays : ∀ m n, m ≤ n → (app.stateAt es m).shared.db.LinksStay (app.stateAt es n).shared.db
  /-- A request that ends in an error has changed no committed row, and none is pending. -/
  errors : ∀ (i : ℕ) (h : Handler) (response : Response), (app.run es).procs[i]? = some h →
    h.phase = .done response → response.isError = true →
    (app.run es).shared.db.own (.request i) = [] ∧
      ∀ m action, es[m]? = some (.act i action) →
        (app.stateAt es (m + 1)).shared.db.urls.map Url.toLink =
          (app.stateAt es m).shared.db.urls.map Url.toLink
  /-- A `409` names a code that the request may use and that has a committed row. -/
  conflicts : ∀ (i : ℕ) (h : Handler) (response : Response), (app.run es).procs[i]? = some h →
    h.phase = .done response → ConflictBacked app (app.run es).shared.db h.request.call response

/-- **Concurrent creation gives each short code exactly one owner, for good.** -/
theorem App.one_owner (app : App) (es : List Event) : OneOwner app es where
  unique := by
    intro i j h h' body body' hi hj hcommitted hcommitted' hcode
    refine index_unique (app.nodup_committed es) hi hj (x := body.shortCode) ?_ ?_
    · rw [hcommitted]
      rfl
    · rw [hcommitted', hcode]
      rfl
  rows := app.links_perm es
  creator := fun i h body hi hcommitted => app.creator_run es hi hcommitted
  stays := fun m n hmn => app.linksStay es hmn
  errors := fun i h response hi hdone herror => app.links_of_error es hi hdone herror
  conflicts := by
    intro i h response hi hdone
    apply app.conflict_run es hi
    rw [hdone]
    rfl

end UrlShortener
