import UrlShortener.System.Ledger
import UrlShortener.System.Sessions

/-!
# Click accounting is conserved

The counter of a code is on one table and its click events are on another, without a foreign key.
They are written by one background transaction, which is not the transaction of the request that
decided on the redirect.

## The accounts

For every code there are five numbers: its counter, its committed click events, the steps of
`redirect` that have settled a `302` for it, and the recording tasks that are pending and that have
failed.  A step that settles a `302` leaves its request with a decision and exactly one task, so
these steps are the pending, failed and recorded tasks together.  It remains to show that counter
and events both count the recorded tasks, and that only the commit of a recording changes them.

## What is proved

`App.clicks_conserved`, from the step lemmas `decision_advance` and `App.clickStep_act` and the run
lemmas `App.redirects_run` and `App.recorded_run`.
-/

set_option autoImplicit false

namespace UrlShortener

/-- The counter of a code, zero if it has no row. -/
def Database.clickCount (db : Database) (shortCode : String) : ℕ :=
  (db.find shortCode).elim 0 Url.clickCount

/-- The number of committed click events of a code. -/
def Database.eventCount (db : Database) (shortCode : String) : ℕ :=
  db.clickEvents.countP fun e => e.shortCode = shortCode

/-- Whether a task is about a code. -/
def ClickTask.isAbout (task : ClickTask) (shortCode : String) : Bool :=
  task.click?.any fun click => click.shortCode = shortCode

/-- Whether a task may still record its click. -/
def ClickTask.isPending : ClickTask → Bool
  | .scheduled _ | .updated _ | .inserted _ => true
  | .none | .recorded _ | .failed _ => false

/-- Whether a task has failed. -/
def ClickTask.isFailed : ClickTask → Bool
  | .failed _ => true
  | _ => false

/-- Whether a task has recorded its click. -/
def ClickTask.isRecorded : ClickTask → Bool
  | .recorded _ => true
  | _ => false

namespace Handler

variable (shortCode : String) (h : Handler)

/-- The request has decided on a redirect of a code. -/
def decided : Bool := decide (h.decision = some shortCode)

/-- The request has a pending recording of a code. -/
def pending : Bool := h.task.isPending && h.task.isAbout shortCode

/-- The request has a failed recording of a code. -/
def failed : Bool := h.task.isFailed && h.task.isAbout shortCode

/-- The request has recorded a click of a code. -/
def recorded : Bool := h.task.isRecorded && h.task.isAbout shortCode

end Handler

/-- The five numbers of a code. -/
structure ClickAccounts where
  clickCount : ℕ
  events : ℕ
  decisions : ℕ
  pending : ℕ
  failed : ℕ
  deriving DecidableEq, Repr

/-- A step that settles a response with a status. -/
def settlesWith (app : App) (status : ℕ) (i : ℕ) (choice : Choice) (shared : Shared)
    (h : Handler) : Bool :=
  (settled app i choice shared h).any fun response => response.status = status

/-- The code of a redirect. -/
def Call.redirectCode? : Call → Option String
  | .redirect shortCode => some shortCode
  | _ => none

/-- A step of `redirect` that decides on a `302` for a code. -/
def redirects (app : App) (shortCode : String) (i : ℕ) (choice : Choice) (shared : Shared)
    (h : Handler) : Bool :=
  decide (h.request.call.redirectCode? = some shortCode) && settlesWith app 302 i choice shared h

/-- The accounts of a code after a run. -/
def clickAccounts (app : App) (es : List Event) (shortCode : String) : ClickAccounts where
  clickCount := (app.run es).shared.db.clickCount shortCode
  events := (app.run es).shared.db.eventCount shortCode
  decisions := app.tally (redirects app shortCode) [] es
  pending := (app.run es).procs.countP (Handler.pending shortCode)
  failed := (app.run es).procs.countP (Handler.failed shortCode)

/-! ## What a commit does to the two tables -/

namespace Database

theorem clickCount_congr {db db' : Database} (h : db'.urls = db.urls) (shortCode : String) :
    db'.clickCount shortCode = db.clickCount shortCode := by
  rw [clickCount, clickCount, find_congr h]

theorem eventCount_congr {db db' : Database} (h : db'.clickEvents = db.clickEvents)
    (shortCode : String) : db'.eventCount shortCode = db.eventCount shortCode := by
  rw [eventCount, eventCount, h]

/-- A new row starts at zero, which is what a code without a row has. -/
theorem clickCount_commit_insert {db : Database} {t : SessionId} {u : Url}
    (hown : db.own t = [.insert u]) (hzero : u.clickCount = 0) (shortCode : String) :
    (db.commit t).clickCount shortCode = db.clickCount shortCode := by
  have hfind : (db.commit t).find shortCode =
      (db.find shortCode).or ([u].find? fun x => x.shortCode = shortCode) := by
    show (db.commit t).urls.find? _ = _
    rw [urls_commit_insert hown, List.find?_append]
    rfl
  rw [clickCount, clickCount, hfind]
  cases db.find shortCode with
  | some v => rfl
  | none =>
    rw [Option.none_or]
    by_cases hcode : u.shortCode = shortCode
    · rw [List.find?_cons_of_pos (by simpa using hcode)]
      exact hzero
    · rw [List.find?_cons_of_neg (by simpa using hcode)]
      rfl

/-- A recorded click adds one to the counter of its code and to no other. -/
theorem Wf.clickCount_commit_recording {db : Database} (h : db.Wf) {t : SessionId} {u : Url}
    {e : ClickEvent} (hown : db.own t = [.update u, .append e])
    (hrow : (db.find u.shortCode).isSome = true) (shortCode : String) :
    (db.commit t).clickCount shortCode =
      db.clickCount shortCode + if u.shortCode = shortCode then 1 else 0 := by
  have hfind : (db.commit t).find shortCode =
      (db.find shortCode).map fun x => if x.shortCode = u.shortCode then x.bump else x := by
    show (db.commit t).urls.find? _ = Option.map _ (db.urls.find? _)
    rw [h.urls_commit_recording hown, List.find?_map]
    congr 2
    funext x
    show decide ((if x.shortCode = u.shortCode then x.bump else x).shortCode = shortCode) = _
    split <;> rfl
  rw [clickCount, clickCount, hfind]
  cases hcode : db.find shortCode with
  | none =>
    rw [if_neg]
    · rfl
    · rintro rfl
      rw [hcode] at hrow
      cases hrow
  | some v =>
    have hv := find_shortCode hcode
    show Url.clickCount (if v.shortCode = u.shortCode then v.bump else v) = v.clickCount + _
    by_cases heq : u.shortCode = shortCode
    · rw [if_pos (hv.trans heq.symm), if_pos heq]
      rfl
    · rw [if_neg fun hvu => heq (hvu.symm.trans hv), if_neg heq]
      rfl

theorem eventCount_commit_recording {db : Database} {t : SessionId} {u : Url} {e : ClickEvent}
    (hown : db.own t = [.update u, .append e]) (shortCode : String) :
    (db.commit t).eventCount shortCode =
      db.eventCount shortCode + if e.shortCode = shortCode then 1 else 0 := by
  rw [eventCount, eventCount, clickEvents_commit_recording hown, List.countP_append]
  congr 1
  simp

end Database

/-! ## What one action does to the accounts -/

/-- An action of a request moves the counter and the events of a code exactly by what it records of
that code. -/
def ClickStep (shared shared' : Shared) (h h' : Handler) : Prop :=
  ∀ shortCode : String,
    shared'.db.clickCount shortCode + (if h.recorded shortCode then 1 else 0) =
      shared.db.clickCount shortCode + (if h'.recorded shortCode then 1 else 0) ∧
    shared'.db.eventCount shortCode + (if h.recorded shortCode then 1 else 0) =
      shared.db.eventCount shortCode + if h'.recorded shortCode then 1 else 0

section Step

variable {app : App} {i : ℕ} {shared shared' : Shared} {h h' : Handler}

/-- An action that records nothing and leaves both numbers of every code alone. -/
theorem clickStep_of_eq
    (hclicks : ∀ shortCode, shared'.db.clickCount shortCode = shared.db.clickCount shortCode)
    (hevents : ∀ shortCode, shared'.db.eventCount shortCode = shared.db.eventCount shortCode)
    (hrecorded : ∀ shortCode, h'.recorded shortCode = h.recorded shortCode) :
    ClickStep shared shared' h h' := by
  intro shortCode
  rw [hclicks, hevents, hrecorded]
  exact ⟨rfl, rfl⟩

theorem clickStep_of_tables (hurls : shared'.db.urls = shared.db.urls)
    (hevents : shared'.db.clickEvents = shared.db.clickEvents)
    (hrecorded : ∀ shortCode, h'.recorded shortCode = h.recorded shortCode) :
    ClickStep shared shared' h h' :=
  clickStep_of_eq (Database.clickCount_congr hurls) (Database.eventCount_congr hevents) hrecorded

theorem clickStep_of_db (hdb : shared'.db = shared.db)
    (hrecorded : ∀ shortCode, h'.recorded shortCode = h.recorded shortCode) :
    ClickStep shared shared' h h' :=
  clickStep_of_tables (by rw [hdb]) (by rw [hdb]) hrecorded

/-- Dropping a task records nothing. -/
theorem recorded_drop (task : ClickTask) (shortCode : String) :
    (task.drop.isRecorded && task.drop.isAbout shortCode) =
      (task.isRecorded && task.isAbout shortCode) := by
  cases task <;> rfl

theorem Moves.clickStep (hm : Moves app i shared h shared' h') (hacc : h.Accounted i shared.db) :
    ClickStep shared shared' h h' := by
  cases hm with
  | goesOn _ _ _ _ hdb => exact clickStep_of_db hdb fun _ => rfl
  | waits => exact clickStep_of_db rfl fun _ => rfl
  | raises _ _ _ _ hdb => exact clickStep_of_db hdb fun _ => rfl
  | rejected _ _ _ _ hdb => exact clickStep_of_db hdb fun _ => rfl
  | inserts _ _ _ _ _ _ hcreated =>
    exact clickStep_of_tables hcreated.urls hcreated.clickEvents fun _ => rfl
  | decides _ _ _ _ _ hphase _ hdb =>
    refine clickStep_of_db hdb fun shortCode => ?_
    have htask := hacc.undecided (by rw [hphase]; rfl)
    unfold Handler.recorded
    rw [htask]
    rfl
  | reports => exact clickStep_of_db rfl fun _ => rfl
  | commitFails => exact clickStep_of_db rfl fun shortCode => recorded_drop h.task shortCode
  | commits response hphase =>
    have hstages := hacc.request
    unfold Handler.Stages at hstages
    rw [hphase] at hstages
    -- Only a `201` has anything to commit.
    have hnil : shared.db.own (.request i) = [] →
        ClickStep shared { shared with db := shared.db.commit (.request i) } h
          (h.goto (.respond response)) := fun hown =>
      clickStep_of_tables (Database.urls_commit_nil hown) (Database.clickEvents_commit_nil hown)
        fun _ => rfl
    cases response with
    | created body =>
      obtain ⟨url, hown, -, -, hzero⟩ := hstages
      exact clickStep_of_eq (Database.clickCount_commit_insert hown hzero)
        (Database.eventCount_congr (Database.clickEvents_commit_insert hown)) fun _ => rfl
    | found location => exact hnil hstages
    | stats body => exact hnil hstages
    | httpException status detail retryAfter => exact hnil hstages
    | internalServerError => exact hnil hstages
  | rollsBack => exact clickStep_of_tables rfl rfl fun _ => rfl
  | responds => exact clickStep_of_db rfl fun _ => rfl
  | rests => exact clickStep_of_db rfl fun _ => rfl

/-- A task that has not recorded its click, before and after. -/
theorem recorded_eq_false {h : Handler} (hrecorded : h.task.isRecorded = false)
    (shortCode : String) : h.recorded shortCode = false := by
  rw [Handler.recorded, hrecorded, Bool.false_and]

theorem RecordMoves.clickStep (hm : RecordMoves i shared h shared' h')
    (hacc : h.Accounted i shared.db) (hwf : shared.db.Wf) : ClickStep shared shared' h h' := by
  cases hm with
  | rests => exact clickStep_of_db rfl fun _ => rfl
  | bumps _ click _ _ htask hbumped =>
    refine clickStep_of_tables hbumped.urls hbumped.clickEvents fun shortCode => ?_
    rw [recorded_eq_false rfl, recorded_eq_false (by rw [htask]; rfl)]
  | appends _ click _ _ _ htask hinserted =>
    refine clickStep_of_tables hinserted.urls hinserted.clickEvents fun shortCode => ?_
    rw [recorded_eq_false rfl, recorded_eq_false (by rw [htask]; rfl)]
  | fails _ click _ htask =>
    refine clickStep_of_tables rfl rfl fun shortCode => ?_
    have hunrecorded : h.task.isRecorded = false := by
      rcases htask with htask | htask | htask <;> rw [htask] <;> rfl
    rw [recorded_eq_false rfl, recorded_eq_false hunrecorded]
  | commits _ click _ htask =>
    have hstages := hacc.background
    have hdecision := hacc.click
    rw [htask] at hstages hdecision
    obtain ⟨url, event, hown, hurl, hevent⟩ := hstages
    have hrow : (shared.db.find url.shortCode).isSome = true := by
      rw [hurl]
      exact hacc.row _ hdecision.symm
    intro shortCode
    have hbefore : h.recorded shortCode = false := recorded_eq_false (by rw [htask]; rfl) shortCode
    have hafter : Handler.recorded shortCode { h with task := .recorded click } =
        decide (click.shortCode = shortCode) := rfl
    rw [hbefore, hafter]
    refine ⟨?_, ?_⟩
    · show (shared.db.commit _).clickCount shortCode + _ = _
      rw [hwf.clickCount_commit_recording hown hrow, hurl]
      simp
    · show (shared.db.commit _).eventCount shortCode + _ = _
      rw [Database.eventCount_commit_recording hown, hevent]
      simp

/-- **An action moves the accounts of a code by what it records of it.** -/
theorem App.clickStep_act (app : App) {es : List Event} {i : ℕ} {h : Handler}
    (hi : (app.run es).procs[i]? = some h) (action : Action) :
    ClickStep (app.run es).shared (act app i action (app.run es).shared h).1 h
      (act app i action (app.run es).shared h).2 := by
  have hacc := app.accounted_run es hi
  cases action with
  | advance choice => exact (advance_moves app i choice _ h).clickStep hacc
  | background choice => exact (recordClick_moves i choice _ h).clickStep hacc (app.wf_run es)

end Step

/-! ## Both tables count the recorded tasks -/

/-- **The counter and the events of a code count its recorded tasks.**  The induction is on the
run. -/
theorem App.recorded_run (app : App) (es : List Event) (shortCode : String) :
    (app.run es).shared.db.clickCount shortCode =
        (app.run es).procs.countP (Handler.recorded shortCode) ∧
      (app.run es).shared.db.eventCount shortCode =
        (app.run es).procs.countP (Handler.recorded shortCode) := by
  induction es using List.reverseRecOn with
  | nil => exact ⟨rfl, rfl⟩
  | append_singleton es e ih =>
    cases e with
    | arrive request =>
      rw [app.run_concat]
      have harrive : Handler.recorded shortCode (Handler.arrive request) = false := rfl
      show (app.run es).shared.db.clickCount shortCode = List.countP _
          ((app.run es).procs ++ [Handler.arrive request]) ∧
        (app.run es).shared.db.eventCount shortCode = List.countP _
          ((app.run es).procs ++ [Handler.arrive request])
      rw [List.countP_append, List.countP_singleton, harrive]
      exact ih
    | env e =>
      rw [app.run_concat]
      show (e.apply (app.run es).shared).db.clickCount shortCode = _ ∧
        (e.apply (app.run es).shared).db.eventCount shortCode = _
      rw [Env.apply_db]
      exact ih
    | act i action =>
      cases hi : (app.run es).procs[i]? with
      | none =>
        rw [app.run_concat, app.system.step_act_of_none hi]
        exact ih
      | some h =>
        obtain ⟨hclicks, hevents⟩ := app.clickStep_act hi action shortCode
        have hcount := app.countP_act hi action (Handler.recorded shortCode)
        rw [(app.run_act_self hi action).2]
        omega

/-! ## Decisions -/

section Step

variable {app : App} {i : ℕ} {choice : Choice} {shared : Shared} {h : Handler}

/-- An exception is never a `302`. -/
theorem Settles.status_ne_found {response : Response}
    (hsettles : Settles app choice shared h response) (herror : response.isError = true) :
    response.status ≠ 302 := by
  cases hsettles with
  | unreadable | rejected | selectFails | notFound | expired =>
    exact fun hstatus => by cases hstatus
  | create _ _ _ _ hstatus | stats _ _ _ _ hstatus =>
    intro hfound
    simp [hfound] at hstatus
  | found => cases herror

/-- **A step leaves its request with a decision exactly when it settles a `302`.** -/
theorem decision_advance (hcons : h.Consistent app)
    (hundecided : h.phase.inBody = true → h.decision = none) :
    settlesWith app 302 i choice shared h = false ∧
        (advance app i choice shared h).2.decision = h.decision ∨
      settlesWith app 302 i choice shared h = true ∧ h.decision = none ∧
        ∃ shortCode, h.request.call = .redirect shortCode ∧
          (advance app i choice shared h).2.decision = some shortCode := by
  have hsettles : ∀ response, settled app i choice shared h = some response →
      Settles app choice shared h response := fun _ => settles_of_settled
  have hsettled : settled app i choice shared h = if h.phase.response?.isSome then none
    else (advance app i choice shared h).2.phase.response? := rfl
  have hmoves := advance_moves app i choice shared h
  have hopen : ∀ phase : Phase, phase.inBody = true → phase.response? = none := by
    intro phase hbody
    cases phase <;> first | rfl | cases hbody
  unfold Handler.Consistent at hcons
  unfold settlesWith
  generalize settled app i choice shared h = response? at hsettled hsettles
  generalize (advance app i choice shared h).1 = shared' at hmoves
  generalize (advance app i choice shared h).2 = h' at hmoves hsettled
  cases hmoves with
  | goesOn _ _ hbody hnext =>
    rw [hopen _ hbody, Handler.goto_phase, hopen _ hnext] at hsettled
    obtain rfl : response? = none := hsettled
    exact Or.inl ⟨rfl, rfl⟩
  | waits hbody =>
    rw [hopen _ hbody] at hsettled
    obtain rfl : response? = none := hsettled
    exact Or.inl ⟨rfl, rfl⟩
  | raises _ response hbody herror | rejected _ response hbody herror =>
    rw [hopen _ hbody] at hsettled
    obtain rfl : response? = some response := hsettled
    exact Or.inl ⟨decide_eq_false ((hsettles response rfl).status_ne_found herror), rfl⟩
  | inserts _ _ _ url _ hphase =>
    rw [hphase] at hsettled
    obtain rfl : response? = some (.created (UrlResponse.build url.shortCode url.longUrl
      url.expiresAt app.settings.baseUrl)) := hsettled
    exact Or.inl ⟨rfl, rfl⟩
  | decides _ shortCode longUrl _ next hphase hnext =>
    have hfound : response? = some (.found longUrl) := by
      rw [hphase] at hsettled
      rcases hnext with rfl | rfl <;> exact hsettled
    subst hfound
    have hbefore := hundecided (by rw [hphase]; rfl)
    rw [hphase] at hcons
    exact Or.inr ⟨rfl, hbefore, shortCode, hcons, rfl⟩
  | reports _ _ body hphase =>
    rw [hphase] at hsettled
    obtain rfl : response? = some (.stats body) := hsettled
    exact Or.inl ⟨rfl, rfl⟩
  | commitFails _ hphase | commits _ hphase | rollsBack _ _ hphase | responds _ hphase
  | rests _ hphase =>
    rw [hphase] at hsettled
    obtain rfl : response? = none := hsettled
    exact Or.inl ⟨rfl, rfl⟩

end Step

theorem Handler.Accounted.decision_eq_none {i : ℕ} {db : Database} {h : Handler}
    (hacc : h.Accounted i db) (hbody : h.phase.inBody = true) : h.decision = none := by
  rw [← hacc.click, hacc.undecided hbody]
  rfl

/-- What an action adds to the decisions on a code. -/
theorem App.decided_act (app : App) {es : List Event} {i : ℕ} {h : Handler}
    (hi : (app.run es).procs[i]? = some h) (action : Action) (shortCode : String) :
    (if (act app i action (app.run es).shared h).2.decided shortCode then 1 else 0) =
      (if h.decided shortCode then 1 else 0) +
        onAdvance (fun i choice shared h => if redirects app shortCode i choice shared h then 1
          else 0) i action (app.run es).shared h := by
  cases action with
  | advance choice =>
    show (if decide ((advance app i choice (app.run es).shared h).2.decision = some shortCode) then
      1 else 0) = (if decide (h.decision = some shortCode) then 1 else 0) +
        if redirects app shortCode i choice (app.run es).shared h then 1 else 0
    unfold redirects
    rcases decision_advance (app.consistent_run es hi) (app.accounted_run es hi).decision_eq_none
      with ⟨hsettles, hdecision⟩ | ⟨hsettles, hbefore, code, hcall, hafter⟩
    · rw [hsettles, hdecision, Bool.and_false]
      rfl
    · rw [hsettles, hbefore, hafter, hcall, Bool.and_true]
      exact (Nat.zero_add _).symm
  | background choice =>
    show (if decide ((recordClick i choice (app.run es).shared h).2.decision = some shortCode) then
      1 else 0) = _
    rw [(recordClick_moves i choice (app.run es).shared h).same.2.2]
    rfl

/-- **The steps that decide on a `302` are the requests left with a decision.** -/
theorem App.redirects_run (app : App) (es : List Event) (shortCode : String) :
    app.tally (redirects app shortCode) [] es =
      (app.run es).procs.countP (Handler.decided shortCode) := by
  have hrun := app.system.run_measure (s := .initial)
    (μ := fun w => w.procs.countP (Handler.decided shortCode))
    (f := onAdvance fun i choice shared h => if redirects app shortCode i choice shared h then 1
      else 0) (fun w request => ?_) (fun _ _ => rfl) (fun es i action h hi => ?_) [] es
  · rw [List.nil_append, Interleaving.System.run_nil, List.countP_nil, Nat.zero_add] at hrun
    exact hrun.symm
  · have harrive : Handler.decided shortCode (Handler.arrive request) = false := rfl
    show List.countP _ (w.procs ++ [Handler.arrive request]) = _
    rw [List.countP_append, List.countP_singleton, harrive]
    rfl
  · have hcount := app.countP_act hi action (Handler.decided shortCode)
    have hstep := app.decided_act hi action shortCode
    show (app.system.step (app.run es) (.act i action)).procs.countP _ =
      (app.run es).procs.countP _ + onAdvance _ i action (app.run es).shared h
    rw [← app.run_concat]
    omega

/-- A request that has decided has exactly one task. -/
theorem Handler.Accounted.decided_eq {i : ℕ} {db : Database} {h : Handler}
    (hacc : h.Accounted i db) (shortCode : String) :
    (if h.decided shortCode then 1 else 0) =
      ((if h.recorded shortCode then 1 else 0) + (if h.pending shortCode then 1 else 0)) +
        if h.failed shortCode then 1 else 0 := by
  have hclick := hacc.click
  have hdecided : h.decided shortCode = h.task.isAbout shortCode := by
    unfold Handler.decided ClickTask.isAbout
    rw [← hclick]
    cases h.task.click? <;> simp
  rw [hdecided]
  unfold Handler.recorded Handler.pending Handler.failed
  cases h.task <;>
    first | rfl | simp [ClickTask.isRecorded, ClickTask.isPending, ClickTask.isFailed]

/-- A sum of counts, process by process. -/
theorem countP_eq_add {γ : Type*} {l : List γ} {p q r s : γ → Bool}
    (h : ∀ a ∈ l, (if p a then 1 else 0) =
      ((if q a then 1 else 0) + (if r a then 1 else 0)) + if s a then 1 else 0) :
    l.countP p = l.countP q + l.countP r + l.countP s := by
  induction l with
  | nil => rfl
  | cons a l ih =>
    have hhead := h a List.mem_cons_self
    have htail := ih fun b hb => h b (List.mem_cons_of_mem a hb)
    rw [List.countP_cons, List.countP_cons, List.countP_cons, List.countP_cons, htail, hhead]
    omega

theorem App.decisions_run (app : App) (es : List Event) (shortCode : String) :
    (app.run es).procs.countP (Handler.decided shortCode) =
      (app.run es).procs.countP (Handler.recorded shortCode) +
        (app.run es).procs.countP (Handler.pending shortCode) +
        (app.run es).procs.countP (Handler.failed shortCode) := by
  apply countP_eq_add
  intro h hmem
  obtain ⟨i, hi⟩ := List.mem_iff_getElem?.mp hmem
  exact (app.accounted_run es hi).decided_eq shortCode

/-! ## Requests that are turned away -/

/-- A request that has decided gets its redirect, or a `500` if its session cannot be closed. -/
def Handler.Redirected (h : Handler) : Prop :=
  ∀ shortCode, h.decision = some shortCode →
    ∃ response, h.phase.response? = some response ∧
      (response.status = 302 ∨ response.status = 500)

theorem Moves.redirected {app : App} {i : ℕ} {shared shared' : Shared} {h h' : Handler}
    (hm : Moves app i shared h shared' h') (hundecided : h.phase.inBody = true → h.decision = none)
    (hh : h.Redirected) : h'.Redirected := by
  intro shortCode hdecision
  have hbody : h.phase.inBody = true → h.decision = some shortCode → False := by
    intro hbody hsome
    cases (hundecided hbody).symm.trans hsome
  cases hm with
  | goesOn _ _ hb => exact (hbody hb hdecision).elim
  | waits => exact hh shortCode hdecision
  | raises _ _ hb => exact (hbody hb hdecision).elim
  | rejected _ _ hb => exact (hbody hb hdecision).elim
  | inserts _ _ _ _ _ hphase => exact (hbody (by rw [hphase]; rfl) hdecision).elim
  | decides _ _ longUrl _ _ _ hnext =>
    refine ⟨.found longUrl, ?_, Or.inl rfl⟩
    rcases hnext with rfl | rfl <;> rfl
  | reports _ _ _ hphase =>
    exact (hbody (show h.phase.inBody = true by rw [hphase]; rfl) hdecision).elim
  | commitFails => exact ⟨.internalServerError, rfl, Or.inr rfl⟩
  | commits response hphase =>
    obtain ⟨response', hresponse, hstatus⟩ := hh shortCode hdecision
    rw [hphase] at hresponse
    exact ⟨response', hresponse, hstatus⟩
  | rollsBack response response' hphase hresponse' =>
    rcases hresponse' with rfl | rfl
    · obtain ⟨response'', hresponse, hstatus⟩ := hh shortCode hdecision
      rw [hphase] at hresponse
      exact ⟨response'', hresponse, hstatus⟩
    · exact ⟨.internalServerError, rfl, Or.inr rfl⟩
  | responds response hphase =>
    obtain ⟨response', hresponse, hstatus⟩ := hh shortCode hdecision
    rw [hphase] at hresponse
    exact ⟨response', hresponse, hstatus⟩
  | rests => exact hh shortCode hdecision

theorem Handler.Accounted.task_eq_none {i : ℕ} {db : Database} {h : Handler}
    (hacc : h.Accounted i db) (hdecision : h.decision = none) : h.task = .none := by
  have hclick := hacc.click
  rw [hdecision] at hclick
  cases htask : h.task with
  | none => rfl
  | scheduled | updated | inserted | recorded | failed =>
    rw [htask] at hclick
    cases hclick

theorem App.redirected_run (app : App) (es : List Event) {i : ℕ} {h : Handler}
    (hi : (app.run es).procs[i]? = some h) : h.Redirected := by
  refine (app.safety (P := fun _ _ _ h => h.Redirected) (Q := fun _ => True) ?_ ?_ ?_ es
    fun _ _ => trivial).2 i h hi
  · intro es request _ shortCode hdecision
    cases hdecision
  · intro es i action h _ hi _ hh
    cases action with
    | advance choice =>
      exact (advance_moves app i choice _ h).redirected
        (app.accounted_run es hi).decision_eq_none hh
    | background choice =>
      obtain ⟨-, hphase, hdecision⟩ := (recordClick_moves i choice (app.run es).shared h).same
      intro shortCode hsome
      show ∃ response, (recordClick i choice (app.run es).shared h).2.phase.response? =
        some response ∧ _
      rw [hphase]
      exact hh shortCode (hdecision.symm.trans hsome)
  · exact fun _ _ _ _ _ _ _ _ hh _ => hh

/-- A decision is never taken back. -/
theorem App.decision_mono (app : App) (es : List Event) {m n : ℕ} (hmn : m ≤ n) {i : ℕ}
    {h : Handler} {shortCode : String} (hi : (app.stateAt es m).procs[i]? = some h)
    (hdecision : h.decision = some shortCode) :
    ∃ h', (app.stateAt es n).procs[i]? = some h' ∧ h'.decision = some shortCode := by
  refine app.system.persists (K := fun h => h.decision = some shortCode) ?_ es hmn hi hdecision
  intro es i action h hi hdecision
  show (act app i action (app.run es).shared h).2.decision = some shortCode
  cases action with
  | background choice =>
    exact (recordClick_moves i choice (app.run es).shared h).same.2.2.trans hdecision
  | advance choice =>
    have hmoves := advance_moves app i choice (app.run es).shared h
    have hundecided := (app.accounted_run es hi).decision_eq_none
    show (advance app i choice (app.run es).shared h).2.decision = some shortCode
    generalize (advance app i choice (app.run es).shared h).1 = shared' at hmoves
    generalize (advance app i choice (app.run es).shared h).2 = h' at hmoves
    cases hmoves with
    | decides _ _ _ _ _ hphase =>
      cases (hundecided (by rw [hphase]; rfl)).symm.trans hdecision
    | _ => exact hdecision

/-- An action of a request that decides nothing leaves all accounts alone. -/
theorem App.clickAccounts_act (app : App) {es : List Event} {i : ℕ} {h : Handler}
    (hi : (app.run es).procs[i]? = some h) (action : Action) (hbefore : h.decision = none)
    (hafter : (act app i action (app.run es).shared h).2.decision = none) (shortCode : String) :
    clickAccounts app (es ++ [.act i action]) shortCode = clickAccounts app es shortCode := by
  obtain ⟨hself, -⟩ := app.run_act_self hi action
  have hnone : ∀ {h' : Handler}, h'.decision = none → h'.task = .none →
      h'.decided shortCode = false ∧ h'.pending shortCode = false ∧ h'.failed shortCode = false ∧
        h'.recorded shortCode = false := by
    intro h' hdecision htask
    unfold Handler.decided Handler.pending Handler.failed Handler.recorded
    rw [hdecision, htask]
    exact ⟨rfl, rfl, rfl, rfl⟩
  obtain ⟨hd, hp, hf, hr⟩ := hnone hbefore ((app.accounted_run es hi).task_eq_none hbefore)
  obtain ⟨hd', hp', hf', hr'⟩ := hnone hafter ((app.accounted_run _ hself).task_eq_none hafter)
  have hcount : ∀ p : Handler → Bool, p h = false →
      p (act app i action (app.run es).shared h).2 = false →
      (app.run (es ++ [.act i action])).procs.countP p = (app.run es).procs.countP p := by
    intro p hp hp'
    have hstep := app.countP_act hi action p
    rw [hp, hp'] at hstep
    exact Nat.add_right_cancel hstep
  obtain ⟨hclicks, hevents⟩ := app.recorded_run es shortCode
  obtain ⟨hclicks', hevents'⟩ := app.recorded_run (es ++ [.act i action]) shortCode
  rw [clickAccounts, clickAccounts, app.redirects_run, app.redirects_run, hclicks, hclicks',
    hevents, hevents', hcount _ hr hr', hcount _ hd hd', hcount _ hp hp', hcount _ hf hf']

/-- **A request that is turned away changes no account.** -/
theorem App.clickAccounts_of_rejected (app : App) (es : List Event) {i : ℕ} {h : Handler}
    {response : Response} (hi : (app.run es).procs[i]? = some h) (hdone : h.phase = .done response)
    (hstatus : response.status = 404 ∨ response.status = 429) {m : ℕ} {action : Action}
    (hm : es[m]? = some (.act i action)) (shortCode : String) :
    clickAccounts app (es.take (m + 1)) shortCode = clickAccounts app (es.take m) shortCode := by
  have hundecided : h.decision = none := by
    cases hdecision : h.decision with
    | none => rfl
    | some code =>
      obtain ⟨response', hresponse, hstatus'⟩ := app.redirected_run es hi code hdecision
      rw [hdone] at hresponse
      cases hresponse
      omega
  have hlt : m < es.length := (List.getElem?_eq_some_iff.mp hm).1
  have hearlier : ∀ {k : ℕ} {h' : Handler}, k ≤ es.length →
      (app.stateAt es k).procs[i]? = some h' → h'.decision = none := by
    intro k h' hk hi'
    cases hdecision : h'.decision with
    | none => rfl
    | some code =>
      obtain ⟨h'', hi'', hdecision'⟩ := app.decision_mono es hk hi' hdecision
      rw [app.stateAt_length, hi, Option.some.injEq] at hi''
      subst hi''
      cases hundecided.symm.trans hdecision'
  have hsucc : es.take (m + 1) = es.take m ++ [.act i action] := by
    rw [List.take_add_one, hm]
    rfl
  rw [hsucc]
  cases hi' : (app.run (es.take m)).procs[i]? with
  | none =>
    have hstays : app.run (es.take m ++ [.act i action]) = app.run (es.take m) := by
      rw [app.run_concat, app.system.step_act_of_none hi']
    rw [clickAccounts, clickAccounts, app.redirects_run, app.redirects_run, hstays]
  | some h' =>
    refine app.clickAccounts_act hi' action (hearlier (Nat.le_of_lt hlt) hi') ?_ shortCode
    obtain ⟨hself, -⟩ := app.run_act_self hi' action
    rw [← hsucc] at hself
    exact hearlier hlt hself

/-! ## Conservation -/

/-- What the accounts of a run come to. -/
structure ClicksConserved (app : App) (es : List Event) : Prop where
  /-- The counter of a row is the number of its committed events. -/
  counter : ∀ url ∈ (app.run es).shared.db.urls,
    url.clickCount = (app.run es).shared.db.eventCount url.shortCode
  /-- No event is about a code without a row. -/
  noOrphans : ∀ event ∈ (app.run es).shared.db.clickEvents,
    ∃ url ∈ (app.run es).shared.db.urls, url.shortCode = event.shortCode
  /-- Every decision on a `302` is counted, pending or failed. -/
  decisions : ∀ shortCode, (clickAccounts app es shortCode).decisions =
    (clickAccounts app es shortCode).clickCount + (clickAccounts app es shortCode).pending +
      (clickAccounts app es shortCode).failed
  /-- A request that ends in `404` or `429` changes none of this. -/
  rejected : ∀ (i : ℕ) (h : Handler) (response : Response), (app.run es).procs[i]? = some h →
    h.phase = .done response → response.status = 404 ∨ response.status = 429 →
    ∀ (m : ℕ) (action : Action), es[m]? = some (.act i action) → ∀ shortCode,
      clickAccounts app (es.take (m + 1)) shortCode = clickAccounts app (es.take m) shortCode

/-- **Click accounting is conserved.** -/
theorem App.clicks_conserved (app : App) (es : List Event) : ClicksConserved app es where
  counter := by
    intro url hurl
    obtain ⟨hclicks, hevents⟩ := app.recorded_run es url.shortCode
    rw [hevents, ← hclicks, Database.clickCount, (app.wf_run es).find_of_mem hurl]
    rfl
  noOrphans := by
    intro event hevent
    obtain ⟨hclicks, hevents⟩ := app.recorded_run es event.shortCode
    have hpos : 0 < (app.run es).shared.db.eventCount event.shortCode :=
      List.countP_pos_iff.mpr ⟨event, hevent, by simp⟩
    rw [hevents, ← hclicks, Database.clickCount] at hpos
    cases hfind : (app.run es).shared.db.find event.shortCode with
    | none =>
      rw [hfind] at hpos
      cases hpos
    | some url =>
      exact ⟨url, List.mem_of_find?_eq_some hfind, Database.find_shortCode hfind⟩
  decisions := by
    intro shortCode
    show app.tally _ [] es = (app.run es).shared.db.clickCount shortCode +
      (app.run es).procs.countP _ + (app.run es).procs.countP _
    rw [app.redirects_run, (app.recorded_run es shortCode).1]
    exact app.decisions_run es shortCode
  rejected := fun _ _ _ hi hdone hstatus _ _ hm shortCode =>
    app.clickAccounts_of_rejected es hi hdone hstatus hm shortCode

end UrlShortener
