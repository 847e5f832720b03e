import UrlShortener.System.Metering
import UrlShortener.System.Quiescence

/-!
# Every click is recorded exactly once

The click of a redirect is recorded after the response, by a task with a session of its own that
waits for other tasks and is not tried again.  So it could be lost with a response that is not
sent, recorded for a redirect that never happened, recorded in one table and not in the other, or
wait for ever.

## What is proved

`App.exactly_once`: while the database answers, none of this happens.  Once every handler and every
task has had its turns, the events are the `302` responses, one for each, with the code, the headers
and the digest of their own requests, and each counter is the number of its events.  What is missing
are the clicks that the columns of `click_events` do not accept.
-/

set_option autoImplicit false

namespace UrlShortener

open Interleaving.System (IsRound)

/-- A task that has got past the insert, or has failed, for the click it was given. -/
def ClickTask.Judged : ClickTask → Prop
  | .inserted click | .recorded click => click.isStorable = true
  | .failed click => click.isStorable = false
  | .none | .scheduled _ | .updated _ => True

/-- A request that has decided exactly if it is answered with a `302`, and whose task stops for no
other reason than its click. -/
structure Handler.Delivers (h : Handler) : Prop where
  found : h.phase.response?.any (fun response => response.status = 302) = h.decision.isSome
  judged : h.task.Judged

section Step

variable {app : App} {i : ℕ} {choice : Choice} {shared : Shared} {h : Handler}

/-- While the database answers, no task is dropped. -/
theorem advance_task (hanswers : choice.dbFails = false) :
    (advance app i choice shared h).2.task = h.task ∨
      ∃ click, (advance app i choice shared h).2.task = .scheduled click := by
  by_cases hcommit : ∃ response, h.phase = .commit response
  · obtain ⟨response, hphase⟩ := hcommit
    rw [advance, hphase]
    dsimp only
    rw [hanswers]
    exact Or.inl rfl
  · have hmoves := advance_moves app i choice shared h
    generalize (advance app i choice shared h).1 = shared' at hmoves
    generalize (advance app i choice shared h).2 = h' at hmoves
    cases hmoves with
    | decides => exact Or.inr ⟨_, rfl⟩
    | commitFails response hphase => exact absurd ⟨response, hphase⟩ hcommit
    | goesOn | waits | raises | rejected | inserts | reports | commits | rollsBack | responds
    | rests => exact Or.inl rfl

/-- A step of a handler. -/
theorem Handler.Delivers.advance (hdelivers : h.Delivers) (hanswers : choice.dbFails = false)
    (hcons : h.Consistent app) (hacc : h.Accounted i shared.db) :
    (advance app i choice shared h).2.Delivers where
  found := by
    rcases decision_advance hcons hacc.decision_eq_none with
      ⟨hsettles, hdecision⟩ | ⟨hsettles, -, shortCode, -, hdecision⟩
    · rw [hdecision]
      cases hopen : h.phase.response? with
      | some response =>
        rw [response?_advance hanswers hopen, ← hopen]
        exact hdelivers.found
      | none =>
        have hundecided := hdelivers.found
        rw [hopen] at hundecided
        rw [← hundecided, ← settled_eq hopen]
        exact hsettles
    · rw [hdecision]
      cases hopen : h.phase.response? with
      | some response =>
        rw [settlesWith, settled_eq_none (by rw [hopen]; rfl)] at hsettles
        cases hsettles
      | none =>
        rw [← settled_eq hopen]
        exact hsettles
  judged := by
    rcases @advance_task app i choice shared h hanswers with hsame | ⟨click, hscheduled⟩
    · rw [hsame]
      exact hdelivers.judged
    · rw [hscheduled]
      trivial

/-- A step of a task. -/
theorem Handler.Delivers.recordClick (hdelivers : h.Delivers) (hanswers : choice.dbFails = false) :
    (recordClick i choice shared h).2.Delivers where
  found := by
    obtain ⟨-, hphase, hdecision⟩ := (recordClick_moves i choice shared h).same
    rw [hphase, hdecision]
    exact hdelivers.found
  judged := by
    unfold UrlShortener.recordClick
    split
    · rename_i click hphase htask
      rw [statement_of_answers hanswers]
      split
      · rename_i herror
        exact Repository.bumpClickCount_error herror
      · exact hdelivers.judged
      · trivial
    · rename_i click hphase htask
      rw [statement_of_answers hanswers]
      rcases Repository.insertClickEvent_cases (.background i) click choice.serverNow choice.idGap
        shared.db with ⟨hstorable, event, db, hok⟩ | ⟨hstorable, herror⟩
      · rw [hok]
        exact hstorable
      · rw [herror]
        exact hstorable
    · rename_i click hphase htask
      have hstorable := hdelivers.judged
      rw [htask] at hstorable
      rw [hanswers]
      exact hstorable
    · exact hdelivers.judged

end Step

/-- **While the database answers, every decision is delivered or on its way.** -/
theorem App.delivers_run (app : App) (es : List Event) (hes : ∀ e ∈ es, DatabaseAnswers e) {i : ℕ}
    {h : Handler} (hi : (app.run es).procs[i]? = some h) : h.Delivers := by
  refine (app.safety (P := fun _ _ _ h => h.Delivers) (Q := DatabaseAnswers) ?_ ?_ ?_ es hes).2 i h
    hi
  · intro es request _
    exact ⟨rfl, trivial⟩
  · intro es i action h hanswers hi _ hdelivers
    cases action with
    | advance choice =>
      exact hdelivers.advance hanswers (app.consistent_run es hi) (app.accounted_run es hi)
    | background choice => exact hdelivers.recordClick hanswers
  · exact fun _ _ _ _ _ _ _ _ hdelivers _ => hdelivers

/-! ## At rest -/

/-- The click of a request that has been answered with a `302`. -/
def Handler.followed? (app : App) (h : Handler) : Option Repository.ClickArgs :=
  match h.request.call, h.phase with
  | .redirect shortCode, .done (.found _) => some (clickArgs app h shortCode)
  | _, _ => none

/-- The clicks of a state that belong on record. -/
def followed (app : App) (w : Interleaving.World Shared Handler) : List Repository.ClickArgs :=
  (w.procs.filterMap (Handler.followed? app)).filter Repository.ClickArgs.isStorable

/-- **At rest, what a request has put on record is its `302`.** -/
theorem Handler.Delivers.recordedClick_eq {app : App} {i : ℕ} {db : Database} {h : Handler}
    (hdelivers : h.Delivers) (hacc : h.Accounted i db) (haudited : h.Audited app i db)
    (hcons : h.Consistent app) {response : Response} (hdone : h.phase = .done response)
    (hrest : h.task.remaining = 0) :
    h.recordedClick = (h.followed? app).filter Repository.ClickArgs.isStorable := by
  have hfound := hdelivers.found
  rw [hdone] at hfound
  change decide (response.status = 302) = _ at hfound
  cases hdecision : h.decision with
  | none =>
    rw [hdecision] at hfound
    have hnone : h.followed? app = none := by
      unfold Handler.followed?
      split
      · rename_i shortCode location hcall hphase
        cases hdone.symm.trans hphase
        cases hfound
      · rfl
    rw [Handler.recordedClick, hacc.task_eq_none hdecision, hnone]
    rfl
  | some shortCode =>
    rw [hdecision] at hfound
    have hstatus : response.status = 302 := of_decide_eq_true hfound
    have hclick := hacc.click
    rw [hdecision] at hclick
    obtain ⟨click, htask, -⟩ := Option.map_eq_some_iff.mp hclick
    obtain ⟨shortCode', hcall, hargs⟩ := haudited.click click htask
    have hfollowed : h.followed? app = some click := by
      have hanswers := hcons.answers (show h.phase.response? = some response by rw [hdone]; rfl)
      rw [hcall] at hanswers
      rw [Handler.followed?, hcall, hdone, hargs]
      cases hanswers with
      | found => rfl
      | redirectNotFound | tooManyRequests | internalServerError => cases hstatus
    have hjudged := hdelivers.judged
    rw [hfollowed, Handler.recordedClick]
    cases hbefore : h.task with
    | recorded click' =>
      rw [hbefore] at htask hjudged
      cases htask
      exact (if_pos hjudged).symm
    | failed click' =>
      rw [hbefore] at htask hjudged
      cases htask
      have hrejected : click.isStorable = false := hjudged
      exact (if_neg (by rw [hrejected]; exact Bool.false_ne_true)).symm
    | none =>
      rw [hbefore] at htask
      cases htask
    | scheduled | updated | inserted =>
      rw [hbefore] at hrest
      cases hrest

/-- What the two tables hold once the service is at rest. -/
structure ExactlyOnce (app : App) (w : Interleaving.World Shared Handler) : Prop where
  /-- The events are the clicks of the `302` responses, one for each. -/
  events : (w.shared.db.clickEvents.map ClickEvent.click).Perm (followed app w)
  /-- A counter is the number of clicks on its code. -/
  counters : ∀ url ∈ w.shared.db.urls,
    url.clickCount = (followed app w).countP fun click => click.shortCode = url.shortCode

/-- **Every click is recorded exactly once**, whatever the schedule, Redis and the clocks do. -/
theorem App.exactly_once (app : App) (es : List Event) (rounds : List (List Event))
    (hanswers : ∀ e ∈ es ++ rounds.flatten, DatabaseAnswers e)
    (hrounds : ∀ round ∈ rounds, IsRound Action.party (app.run es).procs.length round)
    (hlength : 16 * (app.run es).procs.length ≤ rounds.length) :
    ExactlyOnce app (app.run (es ++ rounds.flatten)) := by
  have hrest := app.quiescent_of_potential _ (app.potential_of_fair es rounds hrounds hlength)
  generalize es ++ rounds.flatten = es' at hanswers hrest
  have hevents : ((app.run es').shared.db.clickEvents.map ClickEvent.click).Perm
      (followed app (app.run es')) := by
    refine (app.events_perm es').trans (List.Perm.of_eq ?_)
    rw [followed, List.filter_filterMap]
    refine List.filterMap_congr fun h hmem => ?_
    obtain ⟨i, hi⟩ := List.mem_iff_getElem?.mp hmem
    obtain ⟨response, hdone⟩ := hrest.answered h hmem
    exact (app.delivers_run es' hanswers hi).recordedClick_eq (app.accounted_run es' hi)
      (app.audited_run es' hi) (app.consistent_run es' hi) hdone (hrest.recorded h hmem)
  refine ⟨hevents, fun url hurl => ?_⟩
  obtain ⟨hclicks, hcounted⟩ := app.recorded_run es' url.shortCode
  have hcounter : (app.run es').shared.db.clickCount url.shortCode = url.clickCount := by
    rw [Database.clickCount, (app.wf_run es').find_of_mem hurl]
    rfl
  rw [← hcounter, hclicks, ← hcounted, ← hevents.countP_eq, List.countP_map]
  rfl

/-- A turn for everybody, without Redis. -/
def turns (n : ℕ) : List Event :=
  (List.range n).flatMap fun i => [.act i (.advance .redisDown), .act i (.background .redisDown)]

theorem mem_turns {n : ℕ} {e : Event} : e ∈ turns n ↔
    ∃ i < n, e = .act i (.advance .redisDown) ∨ e = .act i (.background .redisDown) := by
  simp [turns]

theorem isRound_turns (n : ℕ) : IsRound Action.party n (turns n) where
  no_arrival := by
    intro request hmem
    obtain ⟨i, -, heq | heq⟩ := mem_turns.mp hmem <;> cases heq
  served := by
    intro i hi party
    cases party with
    | handler => exact ⟨.advance .redisDown, rfl, mem_turns.mpr ⟨i, hi, Or.inl rfl⟩⟩
    | task => exact ⟨.background .redisDown, rfl, mem_turns.mpr ⟨i, hi, Or.inr rfl⟩⟩

theorem App.exactly_once_backfill : ExactlyOnce App.sample
    (App.sample.run (backfillRun ++ (List.replicate 48 (turns 3)).flatten)) := by
  have hprocs : (App.sample.run backfillRun).procs.length = 3 := rfl
  have hanswers : ∀ e ∈ backfillRun, DatabaseAnswers e := by
    simp [backfillRun, admitted, steps, DatabaseAnswers, Action.choice, Choice.redisDown,
      Choice.calm]
  refine App.sample.exactly_once backfillRun (List.replicate 48 (turns 3)) ?_ ?_ ?_
  · intro e hmem
    rcases List.mem_append.mp hmem with hmem | hmem
    · exact hanswers e hmem
    · obtain ⟨round, hround, hmem⟩ := List.mem_flatten.mp hmem
      rw [List.eq_of_mem_replicate hround] at hmem
      obtain ⟨i, -, rfl | rfl⟩ := mem_turns.mp hmem <;> rfl
  · intro round hround
    rw [List.eq_of_mem_replicate hround, hprocs]
    exact isRound_turns 3
  · rw [hprocs, List.length_replicate]

end UrlShortener
