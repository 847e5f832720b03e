import UrlShortener.System.Progress
import UrlShortener.Library.Potential

/-!
# The service comes to rest

A request has a bounded number of operations before it, and so has its click-recording task.  What
could keep them from ending is a wait: an insert waits for the session that has inserted the same
code, a counter update for the session that has updated the same row.  Neither wait is part of a
cycle.  A request that holds a code has nothing but its commit or its rollback before it, and a task
that holds a row has nothing but the insert of its event and its commit before it.

## What is proved

* `App.work_le`: in every run, the actions that change anything are at most sixteen for each
  request, however they are interleaved and whatever fails.  Nothing goes round in circles.
* `App.quiesces`: from every state of every run, as many actions in which the database answers lead
  to a state in which all requests are answered, all tasks are over and no session is open.  Nothing
  is ever stuck.
* `App.fair_settles`: nobody has to choose those actions well.  Every schedule that gives each
  handler and each task a turn sixteen times for each request leads to such a state, whoever comes
  first, whatever fails and whatever the clocks and Redis do in between.
-/

set_option autoImplicit false

namespace UrlShortener

open Interleaving.System (potential IsRound)

/-- How many steps a click-recording task has left, if it does not wait. -/
@[simp] def ClickTask.remaining : ClickTask → ℕ
  | .scheduled _ => 3
  | .updated _ => 2
  | .inserted _ => 1
  | .none | .recorded _ | .failed _ => 0

/-- How many steps a request and its task have left.  A request in its body may still schedule a
task. -/
def Handler.remaining (h : Handler) : ℕ :=
  h.phase.remaining + ((if h.phase.inBody then 3 else 0) + h.task.remaining)

/-! ## Each action uses up a step, or changes nothing -/

section Step

variable (app : App) (i : ℕ) (choice : Choice) (shared : Shared) (h : Handler)

/-- A step of a handler that does not bring it closer to its end changes nothing. -/
theorem advance_idle_or : advance app i choice shared h = (shared, h) ∨
    (advance app i choice shared h).2.phase.remaining < h.phase.remaining := by
  rcases advance_remaining app i choice shared h with ⟨response, hdone⟩ | hblocked | hlt
  · rw [advance, hdone]
    exact Or.inl rfl
  · obtain ⟨payload, shortCode, expiresAt, hphase, -⟩ := hblocked
    rw [advance, hphase]
    dsimp only
    rw [createUrl]
    split
    · exact Or.inr (by simp)
    · exact Or.inr (by simp)
    · exact Or.inl rfl
    · exact Or.inr (by simp)
  · exact Or.inr hlt

variable {app i choice shared h} {shared' : Shared} {h' : Handler}

/-- A handler that decides gives up its place in the body for the task it schedules. -/
theorem Moves.task_le (hm : Moves app i shared h shared' h') (hacc : h.Accounted i shared.db) :
    (if h'.phase.inBody then 3 else 0) + h'.task.remaining ≤
      (if h.phase.inBody then 3 else 0) + h.task.remaining := by
  cases hm with
  | goesOn _ _ hbody hbody' =>
    rw [if_pos hbody, Handler.goto_phase, if_pos hbody']
    exact Nat.le_refl _
  | waits | rests => exact Nat.le_refl _
  | raises _ _ hbody | rejected _ _ hbody =>
    rw [if_pos hbody]
    exact Nat.add_le_add (Nat.zero_le 3) (Nat.le_refl _)
  | inserts _ _ _ _ _ hphase | reports _ _ _ hphase =>
    rw [hphase]
    exact Nat.add_le_add (Nat.zero_le 3) (Nat.le_refl _)
  | decides _ _ _ _ _ hphase hnext =>
    have htask := hacc.undecided (by rw [hphase]; rfl)
    rw [hphase, htask]
    rcases hnext with rfl | rfl <;> exact Nat.le_refl 3
  | commitFails _ hphase =>
    rw [hphase]
    refine Nat.add_le_add (Nat.le_refl 0) ?_
    cases h.task with
    | scheduled click => exact Nat.zero_le 3
    | none | updated | inserted | recorded | failed => exact Nat.le_refl _
  | commits _ hphase | rollsBack _ _ hphase | responds _ hphase =>
    rw [hphase]
    exact Nat.le_refl _

theorem RecordMoves.idle_or (hm : RecordMoves i shared h shared' h') :
    (shared', h') = (shared, h) ∨ h'.remaining < h.remaining := by
  cases hm with
  | rests => exact Or.inl rfl
  | bumps _ _ _ _ htask | appends _ _ _ _ _ htask | commits _ _ _ htask =>
    refine Or.inr ?_
    unfold Handler.remaining
    rw [htask]
    exact Nat.add_lt_add_left (Nat.add_lt_add_left (by simp) _) _
  | fails _ _ _ htask =>
    refine Or.inr ?_
    unfold Handler.remaining
    rcases htask with htask | htask | htask <;> rw [htask] <;>
      exact Nat.add_lt_add_left (Nat.add_lt_add_left (by simp) _) _

end Step

/-- **Every action uses up a step of its request, or changes nothing.** -/
theorem App.idle_or (app : App) {es : List Event} {i : ℕ} {h : Handler}
    (hi : (app.run es).procs[i]? = some h) (action : Action) :
    act app i action (app.run es).shared h = ((app.run es).shared, h) ∨
      (act app i action (app.run es).shared h).2.remaining < h.remaining := by
  cases action with
  | advance choice =>
    refine (advance_idle_or app i choice (app.run es).shared h).imp_right fun hlt => ?_
    have htask := (advance_moves app i choice (app.run es).shared h).task_le
      (app.accounted_run es hi)
    exact Nat.add_lt_add_of_lt_of_le hlt htask
  | background choice => exact (recordClick_moves i choice (app.run es).shared h).idle_or

/-- A request arrives with at most sixteen steps before it. -/
theorem remaining_arrive (request : Request) : (Handler.arrive request).remaining ≤ 16 :=
  Nat.le_refl 16

/-! ## The bound on work -/

open Classical in
/-- Whether an action changes anything, as a number. -/
noncomputable def changes (app : App) (i : ℕ) (action : Action) (shared : Shared) (h : Handler) :
    ℕ :=
  if act app i action shared h = (shared, h) then 0 else 1

/-- How many actions of a run change anything. -/
noncomputable def App.work (app : App) (es : List Event) : ℕ :=
  app.system.total (changes app) (app.run []) es

/-- What the requests of a run have done and what they have left to do. -/
theorem App.work_add_potential_le (app : App) (es : List Event) :
    app.work es + potential Handler.remaining (app.run es) ≤ 16 * (app.run es).procs.length := by
  refine app.system.total_add_potential_le Handler.remaining (s := .initial) remaining_arrive ?_ es
  intro es i action h hi
  show (act app i action (app.run es).shared h).2.remaining +
    changes app i action (app.run es).shared h ≤ h.remaining
  unfold changes
  split
  · rename_i hidle
    rw [hidle]
    exact Nat.le_refl _
  · rename_i hchanges
    exact (app.idle_or hi action).resolve_left hchanges

/-- **The service does a bounded amount of work**: at most sixteen actions for each request, however
they are interleaved and whatever fails. -/
theorem App.work_le (app : App) (es : List Event) :
    app.work es ≤ 16 * (app.run es).procs.length :=
  Nat.le_of_add_right_le (app.work_add_potential_le es)

/-! ## Nothing is stuck -/

/-- All requests are answered, all tasks are over, and no session has anything pending. -/
structure Quiescent (w : Interleaving.World Shared Handler) : Prop where
  answered : ∀ h ∈ w.procs, ∃ response, h.phase = .done response
  recorded : ∀ h ∈ w.procs, h.task.remaining = 0
  closed : w.shared.db.store.pending = []

/-- Who acts for a request. -/
inductive Party where
  | handler
  | task

/-- Whose action it is. -/
def Action.party : Action → Party
  | .advance _ => .handler
  | .background _ => .task

/-- A party to a request has steps left and waits for nobody. -/
def Ready (db : Database) : Party → Handler → Prop
  | .handler, h => (∀ response, h.phase ≠ .done response) ∧ ¬ h.Blocked db
  | .task, h => (∃ response, h.phase = .done response) ∧ h.task.remaining ≠ 0 ∧
      (h.task.remaining = 3 → db.store.pending = [])

/-- A task that holds a row, or any task while no row is held, can move on. -/
theorem recordClick_remaining (i : ℕ) (choice : Choice) (shared : Shared) {h : Handler}
    {response : Response} (hdone : h.phase = .done response) (htask : h.task.remaining ≠ 0)
    (hfree : h.task.remaining = 3 → shared.db.store.pending = []) :
    (recordClick i choice shared h).2.remaining < h.remaining := by
  refine (recordClick_moves i choice shared h).idle_or.resolve_left fun hidle => ?_
  have hsame : (recordClick i choice shared h).2.task = h.task :=
    congrArg (fun p => p.2.task) hidle
  unfold recordClick at hsame
  rw [hdone] at hsame
  cases hbefore : h.task with
  | scheduled click =>
    rw [hbefore] at hsame
    dsimp only at hsame
    split at hsame
    · cases hsame
    · rename_i hwait
      have hheld := Repository.bumpClickCount_wait (Choice.eq_of_statement hwait (by simp))
      -- With nothing pending, no row is held.
      rw [Database.held, TxStore.held, hfree (by rw [hbefore]; rfl)] at hheld
      cases hheld
    · cases hsame
  | updated click =>
    rw [hbefore] at hsame
    dsimp only at hsame
    split at hsame
    · cases hsame
    · rename_i hwait
      have hwait' := Choice.eq_of_statement hwait (by simp)
      rcases Repository.insertClickEvent_cases (.background i) click choice.serverNow choice.idGap
        shared.db with ⟨-, event, db', hok⟩ | ⟨-, herror⟩
      · cases hok.symm.trans hwait'
      · cases herror.symm.trans hwait'
    · cases hsame
  | inserted click =>
    rw [hbefore] at hsame
    dsimp only at hsame
    split at hsame
    · cases hsame
    · cases hsame
  | none | recorded | failed =>
    rw [hbefore] at htask
    exact htask rfl

/-- **Who is ready moves on**, even if the database does not answer. -/
theorem App.ready_lt (app : App) {es : List Event} {i : ℕ} {h : Handler}
    (hi : (app.run es).procs[i]? = some h) (action : Action)
    (hready : Ready (app.run es).shared.db action.party h) :
    (act app i action (app.run es).shared h).2.remaining < h.remaining := by
  cases action with
  | advance choice =>
    obtain ⟨hopen, hfree⟩ := hready
    refine (app.idle_or hi (.advance choice)).resolve_left fun hidle => ?_
    rcases advance_remaining app i choice (app.run es).shared h with ⟨response, hdone⟩ | hblocked |
      hlt
    · exact hopen response hdone
    · exact hfree hblocked
    · rw [show advance app i choice (app.run es).shared h = _ from hidle] at hlt
      exact Nat.lt_irrefl _ hlt
  | background choice =>
    obtain ⟨⟨response, hdone⟩, htask, hfree⟩ := hready
    exact recordClick_remaining i choice _ hdone htask hfree

/-- **With all requests answered and no task in the middle of its statements, no session is
open.** -/
theorem App.closed_of_answered (app : App) (es : List Event)
    (hanswered : ∀ h ∈ (app.run es).procs, ∃ response, h.phase = .done response)
    (htasks : ∀ h ∈ (app.run es).procs, h.task.remaining = 0 ∨ h.task.remaining = 3) :
    (app.run es).shared.db.store.pending = [] := by
  have hown : ∀ t, (app.run es).shared.db.own t = [] := by
    intro t
    cases t with
    | request j =>
      cases hj : (app.run es).procs[j]? with
      | none => exact (app.own_of_length_le es (List.getElem?_eq_none_iff.mp hj)).1
      | some h =>
        obtain ⟨response, hdone⟩ := hanswered h (List.mem_of_getElem? hj)
        have hstages := (app.accounted_run es hj).request
        unfold Handler.Stages at hstages
        rw [hdone] at hstages
        exact hstages
    | background j =>
      cases hj : (app.run es).procs[j]? with
      | none => exact (app.own_of_length_le es (List.getElem?_eq_none_iff.mp hj)).2
      | some h =>
        have hstages := (app.accounted_run es hj).background
        have hremaining := htasks h (List.mem_of_getElem? hj)
        cases htask : h.task with
        | updated click | inserted click =>
          rw [htask] at hremaining
          simp at hremaining
        | none | scheduled | recorded | failed =>
          rw [htask] at hstages
          exact hstages
  refine List.eq_nil_iff_forall_not_mem.mpr fun p hp => ?_
  have hmem : p.2 ∈ (app.run es).shared.db.own p.1 := TxStore.mem_own.mpr hp
  rw [hown] at hmem
  cases hmem

/-- A step of a request that has steps left. -/
theorem App.potential_lt (app : App) {es : List Event} {i : ℕ} {h : Handler}
    (hi : (app.run es).procs[i]? = some h) {action : Action}
    (hlt : (act app i action (app.run es).shared h).2.remaining < h.remaining) :
    potential Handler.remaining (app.run (es ++ [.act i action])) <
      potential Handler.remaining (app.run es) := by
  have hpotential := app.system.potential_act Handler.remaining hi action
  rw [app.run_concat]
  change _ + h.remaining = _ + (act app i action (app.run es).shared h).2.remaining at hpotential
  omega

/-- **Where a request is not answered, a handler is ready**: its own, or that of the request it
waits for. -/
theorem App.exists_ready_of_open (app : App) {es : List Event} {i : ℕ} {h : Handler}
    (hi : (app.run es).procs[i]? = some h) (hopen : ∀ response, h.phase ≠ .done response) :
    ∃ (j : ℕ) (h' : Handler), (app.run es).procs[j]? = some h' ∧
      Ready (app.run es).shared.db .handler h' := by
  by_cases hblocked : h.Blocked (app.run es).shared.db
  · obtain ⟨payload, shortCode, expiresAt, hphase, hfind, hheld⟩ := hblocked
    obtain ⟨j, h', -, hj, -, -, response, hphase'⟩ := app.holder es hfind hheld
    refine ⟨j, h', hj, fun response' hdone => ?_, ?_⟩
    · rcases hphase' with hphase' | hphase' <;> cases hphase'.symm.trans hdone
    · rintro ⟨payload', shortCode', expiresAt', hinsert, -⟩
      rcases hphase' with hphase' | hphase' <;> cases hphase'.symm.trans hinsert
  · exact ⟨i, h, hi, hopen, hblocked⟩

/-- **Somebody is always ready**: with a request that is not answered a handler, and otherwise a
task that holds a row, or with no row held any task. -/
theorem App.exists_ready (app : App) (es : List Event) (hbusy : ¬ Quiescent (app.run es)) :
    ∃ (i : ℕ) (h : Handler) (party : Party), (app.run es).procs[i]? = some h ∧
      Ready (app.run es).shared.db party h := by
  by_cases hanswered : ∀ h ∈ (app.run es).procs, ∃ response, h.phase = .done response
  · by_cases htasks : ∀ h ∈ (app.run es).procs, h.task.remaining = 0 ∨ h.task.remaining = 3
    · have hclosed := app.closed_of_answered es hanswered htasks
      by_cases hrecorded : ∀ h ∈ (app.run es).procs, h.task.remaining = 0
      · exact absurd ⟨hanswered, hrecorded, hclosed⟩ hbusy
      · push Not at hrecorded
        obtain ⟨h, hmem, hremaining⟩ := hrecorded
        obtain ⟨i, hi⟩ := List.mem_iff_getElem?.mp hmem
        exact ⟨i, h, .task, hi, hanswered h hmem, hremaining, fun _ => hclosed⟩
    · push Not at htasks
      obtain ⟨h, hmem, hremaining, hholds⟩ := htasks
      obtain ⟨i, hi⟩ := List.mem_iff_getElem?.mp hmem
      exact ⟨i, h, .task, hi, hanswered h hmem, hremaining, fun hthree => absurd hthree hholds⟩
  · push Not at hanswered
    obtain ⟨h, hmem, hopen⟩ := hanswered
    obtain ⟨i, hi⟩ := List.mem_iff_getElem?.mp hmem
    obtain ⟨j, h', hj, hready⟩ := app.exists_ready_of_open hi hopen
    exact ⟨j, h', .handler, hj, hready⟩

/-- **Somebody can always move on**, and the database need not fail for it. -/
theorem App.progress (app : App) (es : List Event) (hbusy : ¬ Quiescent (app.run es)) :
    ∃ i action, action.choice = .calm ∧
      potential Handler.remaining (app.run (es ++ [.act i action])) <
        potential Handler.remaining (app.run es) := by
  obtain ⟨i, h, party, hi, hready⟩ := app.exists_ready es hbusy
  cases party with
  | handler =>
    exact ⟨i, .advance .calm, rfl, app.potential_lt hi (app.ready_lt hi (.advance .calm) hready)⟩
  | task =>
    exact ⟨i, .background .calm, rfl,
      app.potential_lt hi (app.ready_lt hi (.background .calm) hready)⟩

/-- **The service can always come to rest.** -/
theorem App.quiesces (app : App) (es : List Event) :
    ∃ es' : List Event, (∀ e ∈ es', ∃ i action, e = .act i action ∧ action.choice = .calm) ∧
      es'.length ≤ 16 * (app.run es).procs.length ∧ Quiescent (app.run (es ++ es')) := by
  obtain ⟨es', hes', hlength, hquiescent⟩ := app.system.exists_settled Handler.remaining
    (s := .initial) (P := Quiescent) (Q := fun action => action.choice = .calm) app.progress es
  exact ⟨es', hes',
    hlength.trans ((Nat.le_add_left _ _).trans (app.work_add_potential_le es)), hquiescent⟩

/-! ## Every fair schedule -/

/-- A service that is not at rest has steps left. -/
theorem App.quiescent_of_potential (app : App) (es : List Event)
    (hzero : potential Handler.remaining (app.run es) = 0) : Quiescent (app.run es) := by
  by_contra hbusy
  obtain ⟨i, action, -, hlt⟩ := app.progress es hbusy
  rw [hzero] at hlt
  exact Nat.not_lt_zero _ hlt

/-- A service at rest has none. -/
theorem Quiescent.potential_eq_zero {w : Interleaving.World Shared Handler} (hw : Quiescent w) :
    potential Handler.remaining w = 0 := by
  refine List.sum_eq_zero fun n hn => ?_
  obtain ⟨h, hmem, rfl⟩ := List.mem_map.mp hn
  obtain ⟨response, hdone⟩ := hw.answered h hmem
  unfold Handler.remaining
  rw [hdone, hw.recorded h hmem]
  rfl

/-- A fair schedule leaves no steps. -/
theorem App.potential_of_fair (app : App) (es : List Event) (rounds : List (List Event))
    (hrounds : ∀ round ∈ rounds, IsRound Action.party (app.run es).procs.length round)
    (hlength : 16 * (app.run es).procs.length ≤ rounds.length) :
    potential Handler.remaining (app.run (es ++ rounds.flatten)) = 0 := by
  have hidle : ∀ es i action h, (app.run es).procs[i]? = some h →
      ((act app i action (app.run es).shared h).1.db = (app.run es).shared.db ∧
        (act app i action (app.run es).shared h).2 = h) ∨
      (act app i action (app.run es).shared h).2.remaining < h.remaining := by
    intro es i action h hi
    refine (app.idle_or hi action).imp_left fun hsame => ?_
    rw [hsame]
    exact ⟨rfl, rfl⟩
  have hprogress : ∀ es, potential Handler.remaining (app.run es) ≠ 0 →
      ∃ (i : ℕ) (h : Handler) (party : Party), (app.run es).procs[i]? = some h ∧
        Ready (app.run es).shared.db party h := fun es hbusy =>
    app.exists_ready es fun hrest => hbusy hrest.potential_eq_zero
  have hpotential : potential Handler.remaining (app.run es) ≤ rounds.length :=
    (Nat.le_add_left _ _).trans ((app.work_add_potential_le es).trans hlength)
  exact app.system.settles_of_fair Handler.remaining Shared.db (s := .initial)
    (fun e shared => e.apply_db shared) hidle (fun es i action h hi => app.ready_lt hi action)
    hprogress es rounds hrounds hpotential

/-- **Every fair schedule brings the service to rest.** -/
theorem App.fair_settles (app : App) (es : List Event) (rounds : List (List Event))
    (hrounds : ∀ round ∈ rounds, IsRound Action.party (app.run es).procs.length round)
    (hlength : 16 * (app.run es).procs.length ≤ rounds.length) :
    Quiescent (app.run (es ++ rounds.flatten)) :=
  app.quiescent_of_potential _ (app.potential_of_fair es rounds hrounds hlength)

/-- Two creations of one code, the first one about to commit. -/
def secondCreation : List Event :=
  admitted 0 (Call.createUrl abcdRequest).plain ++ steps 0 3 .calm ++
    admitted 1 (Call.createUrl abcdRequest).plain

/-- Redis loses a key and does not answer, and the database does not answer the second creation. -/
def unluckyRound : List Event :=
  [.env (.evict "url:abcd"), .act 1 (.advance { Choice.redisDown with dbFails := true }),
    .act 1 (.background .calm), .act 0 (.background .calm), .act 0 (.advance .redisDown)]

theorem isRound_unluckyRound : IsRound Action.party 2 unluckyRound where
  no_arrival := by simp [unluckyRound]
  served := by
    intro i hi party
    obtain rfl | rfl : i = 0 ∨ i = 1 := by omega
    · cases party with
      | handler => exact ⟨.advance .redisDown, rfl, by simp [unluckyRound]⟩
      | task => exact ⟨.background .calm, rfl, by simp [unluckyRound]⟩
    · cases party with
      | handler =>
        exact ⟨.advance { Choice.redisDown with dbFails := true }, rfl, by simp [unluckyRound]⟩
      | task => exact ⟨.background .calm, rfl, by simp [unluckyRound]⟩

theorem App.fair_settles_unluckyRounds :
    Quiescent (App.sample.run (secondCreation ++ (List.replicate 32 unluckyRound).flatten)) := by
  have hprocs : (App.sample.run secondCreation).procs.length = 2 := rfl
  refine App.sample.fair_settles secondCreation (List.replicate 32 unluckyRound) ?_ ?_
  · intro round hround
    rw [List.eq_of_mem_replicate hround, hprocs]
    exact isRound_unluckyRound
  · rw [hprocs, List.length_replicate]

end UrlShortener
