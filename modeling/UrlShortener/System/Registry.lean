import UrlShortener.System.Clicks
import UrlShortener.System.Ownership
import UrlShortener.Library.Registry

/-!
# The service is a registry of links

What the service is for can be said without sessions, phases or a cache: links are registered once
and for all under a code, and every link has a counter of its uses.  `Registry` is that machine.
The service moves it with its commits only: the commit of a `201` registers a link, the commit of a
click uses it, and nothing else that any request does is an operation of the registry.

## What is proved

`App.refines_registry`: the commits of every run are a legal history of a new registry, and the
registry after it is what the two tables hold.  What the library knows about histories then holds
of the tables: the rows are what was registered, and the counters count the uses.
-/

set_option autoImplicit false

namespace UrlShortener

/-- The registry that the two tables hold. -/
def Database.registry (db : Database) : Registry.State String Link where
  entries := fun shortCode => (db.find shortCode).map Url.toLink
  uses := db.eventCount

/-- What an action means for the registry: it commits a `201`, or a click. -/
def registryOps (app : App) (i : ℕ) (action : Action) (shared : Shared) (h : Handler) :
    List (Registry.Op String Link) :=
  match action with
  | .advance choice =>
      match h.committed, (advance app i choice shared h).2.committed with
      | none, some body => [.register body.shortCode body.toLink]
      | _, _ => []
  | .background choice =>
      match h.task, (recordClick i choice shared h).2.task with
      | .inserted click, .recorded _ => [.use click.shortCode]
      | _, _ => []

/-- The commits of a run. -/
def App.commits (app : App) (es : List Event) : List (Registry.Op String Link) :=
  app.system.trace (registryOps app) (fun _ _ => []) (app.run []) es

/-! ## One action -/

namespace Database

/-- The entries of the registry are the links of the rows. -/
theorem registry_entries (db : Database) (shortCode : String) :
    db.registry.entries shortCode =
      (db.urls.map Url.toLink).find? fun link => link.shortCode = shortCode := by
  rw [List.find?_map]
  rfl

theorem registry_congr {db db' : Database}
    (hlinks : db'.urls.map Url.toLink = db.urls.map Url.toLink)
    (hevents : ∀ shortCode, db'.eventCount shortCode = db.eventCount shortCode) :
    db'.registry = db.registry := by
  ext1
  · funext shortCode
    rw [registry_entries, registry_entries, hlinks]
  · funext shortCode
    exact hevents shortCode

/-- **A new link is registered.** -/
theorem Wf.registry_register {db db' : Database} (hwf' : db'.Wf) {link : Link}
    (hlinks : db'.urls.map Url.toLink = db.urls.map Url.toLink ++ [link])
    (hevents : ∀ shortCode, db'.eventCount shortCode = db.eventCount shortCode) :
    Registry.step? db.registry (.register link.shortCode link) = some db'.registry := by
  rw [Registry.step?_register_eq_some]
  have hfree : db.registry.entries link.shortCode = none := by
    have hnd : ((db'.urls.map Url.toLink).map Link.shortCode).Nodup := by
      rw [List.map_map]
      exact hwf'.keys
    rw [hlinks, List.map_append, List.nodup_append] at hnd
    rw [registry_entries, List.find?_eq_none]
    intro link' hlink' hcode
    exact hnd.2.2 _ (List.mem_map_of_mem hlink') _ (by simp) (of_decide_eq_true hcode)
  refine ⟨hfree, ?_⟩
  ext1
  · funext shortCode
    show Function.update db.registry.entries link.shortCode (some link) shortCode = _
    rw [registry_entries db', hlinks, List.find?_append, ← registry_entries]
    by_cases hcode : shortCode = link.shortCode
    · subst hcode
      rw [Function.update_self, hfree, Option.none_or]
      simp
    · have hne : link.shortCode ≠ shortCode := Ne.symm hcode
      rw [Function.update_of_ne hcode]
      simp [hne]
  · funext shortCode
    exact (hevents shortCode).symm

/-- **A recorded click is a use.** -/
theorem registry_use {db db' : Database} {shortCode : String}
    (hlinks : db'.urls.map Url.toLink = db.urls.map Url.toLink)
    (hrow : (db.find shortCode).isSome = true)
    (hevents : ∀ shortCode', db'.eventCount shortCode' =
      db.eventCount shortCode' + if shortCode = shortCode' then 1 else 0) :
    Registry.step? db.registry (.use shortCode) = some db'.registry := by
  rw [Registry.step?_use_eq_some]
  refine ⟨(Option.isSome_map ..).trans hrow, ?_⟩
  ext1
  · funext shortCode'
    rw [registry_entries db', hlinks, ← registry_entries]
  · funext shortCode'
    show Function.update db.eventCount shortCode (db.eventCount shortCode + 1) shortCode' =
      db'.eventCount shortCode'
    rw [hevents]
    by_cases hcode : shortCode' = shortCode
    · subst hcode
      rw [Function.update_self, if_pos rfl]
    · rw [Function.update_of_ne hcode, if_neg (Ne.symm hcode), Nat.add_zero]

end Database

section Step

variable {app : App} {i : ℕ} {shared shared' : Shared} {h h' : Handler}

/-- A handler records no click. -/
theorem Moves.recorded_eq (hm : Moves app i shared h shared' h') (hacc : h.Accounted i shared.db)
    (shortCode : String) : h'.recorded shortCode = h.recorded shortCode := by
  cases hm with
  | decides _ _ _ _ _ hphase =>
    have htask := hacc.undecided (by rw [hphase]; rfl)
    exact (recorded_eq_false rfl shortCode).trans
      (recorded_eq_false (by rw [htask]; rfl) shortCode).symm
  | commitFails => exact recorded_drop h.task shortCode
  | goesOn | waits | raises | rejected | inserts | reports | commits | rollsBack | responds
  | rests => rfl

/-- A task either commits its click or leaves the registry alone. -/
theorem RecordMoves.registry (hm : RecordMoves i shared h shared' h')
    (hacc : h.Accounted i shared.db) (hwf : shared.db.Wf) :
    (∃ click, h.task = .inserted click ∧ h'.task = .recorded click ∧
        Registry.step? shared.db.registry (.use click.shortCode) = some shared'.db.registry) ∨
      (∀ click click', h.task = .inserted click → h'.task ≠ .recorded click') ∧
        shared'.db.registry = shared.db.registry := by
  have hlinks : shared'.db.urls.map Url.toLink = shared.db.urls.map Url.toLink := by
    rcases hm.linkStep hacc hwf with ⟨hlinks, -⟩ | ⟨body, hnone, hsome, -⟩
    · exact hlinks
    · unfold Handler.committed at hnone hsome
      rw [hm.same.2.1, hnone] at hsome
      cases hsome
  cases hm with
  | rests => exact Or.inr ⟨fun _ _ htask htask' => (by cases htask.symm.trans htask'), rfl⟩
  | bumps _ _ _ _ _ hbumped =>
    exact Or.inr ⟨fun _ _ _ => ClickTask.noConfusion,
      Database.registry_congr hlinks (Database.eventCount_congr hbumped.clickEvents)⟩
  | appends _ _ _ _ _ _ hinserted =>
    exact Or.inr ⟨fun _ _ _ => ClickTask.noConfusion,
      Database.registry_congr hlinks (Database.eventCount_congr hinserted.clickEvents)⟩
  | commits _ click _ htask =>
    have hstages := hacc.background
    have hdecision := hacc.click
    rw [htask] at hstages hdecision
    obtain ⟨url, event, hown, -, hevent⟩ := hstages
    refine Or.inl ⟨click, htask, rfl,
      Database.registry_use hlinks (hacc.row _ hdecision.symm) fun shortCode' => ?_⟩
    show (shared.db.commit _).eventCount shortCode' = _
    rw [Database.eventCount_commit_recording hown, hevent]
  | fails => exact Or.inr ⟨fun _ _ _ => ClickTask.noConfusion, rfl⟩

/-- **An action moves the registry as its commits do.** -/
theorem App.registry_act (app : App) {es : List Event} {i : ℕ} {h : Handler}
    (hi : (app.run es).procs[i]? = some h) (action : Action) :
    Run.exec Registry.apply (some (app.run es).shared.db.registry)
        (registryOps app i action (app.run es).shared h) =
      some (act app i action (app.run es).shared h).1.db.registry := by
  have hacc := app.accounted_run es hi
  have hwf := app.wf_run es
  have hlink := app.linkStep_act hi action
  have hclick := app.clickStep_act hi action
  cases action with
  | advance choice =>
    have hevents : ∀ shortCode,
        (advance app i choice (app.run es).shared h).1.db.eventCount shortCode =
          (app.run es).shared.db.eventCount shortCode := by
      intro shortCode
      have hrecorded := (advance_moves app i choice (app.run es).shared h).recorded_eq hacc
        shortCode
      have hcount := (hclick shortCode).2
      rw [act, hrecorded] at hcount
      exact Nat.add_right_cancel hcount
    rcases hlink with ⟨hlinks, hsame⟩ | ⟨body, hnone, hsome, hlinks⟩
    · have hops : registryOps app i (.advance choice) (app.run es).shared h = [] := by
        show (match h.committed, (advance app i choice (app.run es).shared h).2.committed with
          | none, some body => [Registry.Op.register body.shortCode body.toLink]
          | _, _ => []) = []
        rw [show (advance app i choice (app.run es).shared h).2.committed = h.committed from hsame]
        cases h.committed <;> rfl
      rw [hops]
      exact congrArg some (Database.registry_congr hlinks hevents).symm
    · have hops : registryOps app i (.advance choice) (app.run es).shared h =
          [.register body.shortCode body.toLink] := by
        show (match h.committed, (advance app i choice (app.run es).shared h).2.committed with
          | none, some body => [Registry.Op.register body.shortCode body.toLink]
          | _, _ => []) = _
        rw [show (advance app i choice (app.run es).shared h).2.committed = some body from hsome,
          hnone]
      have hwf' := (act_wf_guarantee app i (.advance choice) h hwf).1
      rw [hops]
      exact hwf'.registry_register hlinks hevents
  | background choice =>
    rcases (recordClick_moves i choice (app.run es).shared h).registry hacc hwf with
      ⟨click, hbefore, hafter, hstep⟩ | ⟨hnever, hsame⟩
    · have hops : registryOps app i (.background choice) (app.run es).shared h =
          [.use click.shortCode] := by
        unfold registryOps
        dsimp only
        rw [hafter, hbefore]
      rw [hops]
      exact hstep
    · have hops : registryOps app i (.background choice) (app.run es).shared h = [] := by
        unfold registryOps
        dsimp only
        split
        · rename_i hbefore hafter
          exact absurd hafter (hnever _ _ hbefore)
        · rfl
      rw [hops]
      exact congrArg some hsame.symm

end Step

/-! ## Runs -/

/-- The registry after the commits of a run is the one that the two tables hold. -/
theorem App.registry_run (app : App) (es : List Event) :
    Registry.run? Registry.empty (app.commits es) = some (app.run es).shared.db.registry := by
  have hinitial : some Registry.empty = some (app.run []).shared.db.registry := rfl
  refine app.system.follows (registryOps app) Registry.apply
    (R := fun shared registry => registry = some shared.db.registry) ?_ ?_ hinitial es
  · intro es i action h _ hi hregistry
    rw [hregistry]
    exact app.registry_act hi action
  · intro e shared registry hregistry
    rw [hregistry]
    exact congrArg some (congrArg Database.registry (Env.apply_db shared e)).symm

/-- What the commits of a run say about its two tables. -/
structure RefinesRegistry (app : App) (es : List Event) : Prop where
  /-- The commits are a legal history: a code is registered when nothing is registered under it,
  and used when something is.  It ends in the registry that the two tables hold. -/
  legal : Registry.run? Registry.empty (app.commits es) = some (app.run es).shared.db.registry
  /-- No code is registered twice. -/
  once : ((app.commits es).filterMap Registry.Op.registered?).Nodup
  /-- The rows are what was registered. -/
  links : ∀ link : Link, (∃ url ∈ (app.run es).shared.db.urls, url.toLink = link) ↔
    .register link.shortCode link ∈ app.commits es
  /-- The counter of a row is the number of uses. -/
  clicks : ∀ url ∈ (app.run es).shared.db.urls,
    url.clickCount = (app.commits es).countP (Registry.Op.isUse url.shortCode)
  /-- A use comes after the registration of its code. -/
  ordered : ∀ before after shortCode, app.commits es = before ++ .use shortCode :: after →
    ∃ link, .register shortCode link ∈ before

/-- **The service refines the registry.** -/
theorem App.refines_registry (app : App) (es : List Event) : RefinesRegistry app es where
  legal := app.registry_run es
  once := Registry.nodup_registered (app.registry_run es)
  links := by
    intro link
    rw [← Registry.entries_eq_some_iff (app.registry_run es)]
    show _ ↔ ((app.run es).shared.db.find link.shortCode).map Url.toLink = some link
    rw [Option.map_eq_some_iff]
    constructor
    · rintro ⟨url, hurl, rfl⟩
      exact ⟨url, (app.wf_run es).find_of_mem hurl, rfl⟩
    · rintro ⟨url, hfind, hlink⟩
      exact ⟨url, List.mem_of_find?_eq_some hfind, hlink⟩
  clicks := by
    intro url hurl
    obtain ⟨hclicks, hevents⟩ := app.recorded_run es url.shortCode
    have hfind := (app.wf_run es).find_of_mem hurl
    calc url.clickCount
        = (app.run es).shared.db.clickCount url.shortCode := by
          rw [Database.clickCount, hfind]
          rfl
      _ = (app.run es).shared.db.eventCount url.shortCode := hclicks.trans hevents.symm
      _ = (app.commits es).countP (Registry.Op.isUse url.shortCode) :=
          Registry.uses_eq (app.registry_run es) url.shortCode
  ordered := by
    intro before after shortCode hcommits
    have hlegal := app.registry_run es
    rw [hcommits] at hlegal
    exact Registry.registered_of_use hlegal

end UrlShortener
