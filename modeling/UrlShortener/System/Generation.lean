import UrlShortener.System.Consistency

/-!
# A handler runs the generator

`create_url` hands `generate_unique_short_code` a query as its existence check.  Other requests
commit their links between two of these queries, so the handler is suspended at each of them and
carries the retry loop along as a number of attempts.  What it comes to in the end is the loop all
the same: the queries that a request has made, with the answers they got, are a run of the generator
from some draws, and its result decides the response.

## What is proved

`App.runs_generator`, with the response for every result, and what an answer says about the registry
at its instant.  Between two queries anything can happen, so a code that was free may be taken when
it is inserted; that is the one response which is not decided by the result.
-/

set_option autoImplicit false

namespace UrlShortener

/-! ## Replaying a search -/

/-- The existence check of a search on record: it is asked about the codes of the record in order,
and gives the answers there. -/
def replay (shortCode : String) : StateT (List (String × Bool)) Option Bool
  | [] => none
  | (recorded, taken) :: rest => if recorded = shortCode then some (taken, rest) else none

/-- A run of the generator that makes exactly the queries of a record. -/
def IsRun (app : App) (lookups : List (String × Bool))
    (result : Except GenerationError String) : Prop :=
  ∃ draws, (generateUniqueShortCode replay app.settings.shortCodeLength defaultMaxCollisionRetries
    draws).run lookups = some (result, [])

/-- A code the generator may draw. -/
def Drawn (length : ℕ) (shortCode : String) : Prop :=
  ∃ draws, generateShortCode length draws = .ok shortCode

section Replay

variable {length : ℕ} {exhausted : GenerationError} {attempts : ℕ} {shortCode : String}

/-- The draws of one attempt, and those of the attempts after it. -/
def concatDraws (length : ℕ) (draws rest : Draws) : Draws :=
  fun k => if k < length then draws k else rest (k - length)

theorem generateShortCode_concatDraws (draws rest : Draws) :
    generateShortCode length (concatDraws length draws rest) = generateShortCode length draws := by
  have hsymbols : (List.range length).map (fun k => symbol (concatDraws length draws rest k)) =
      (List.range length).map fun k => symbol (draws k) := by
    refine List.map_congr_left fun k hk => ?_
    rw [concatDraws, if_pos (List.mem_range.mp hk)]
  unfold generateShortCode
  rw [hsymbols]

theorem concatDraws_add (draws rest : Draws) :
    (fun k => concatDraws length draws rest (length + k)) = rest := by
  funext k
  rw [concatDraws, if_neg (by omega), Nat.add_sub_cancel_left]

/-- An attempt whose code is taken. -/
theorem retryLoop_taken {draws : Draws} (hdraws : generateShortCode length draws = .ok shortCode)
    (rest : Draws) (lookups : List (String × Bool)) :
    (retryLoop replay length exhausted (attempts + 1) (concatDraws length draws rest)).run
        ((shortCode, true) :: lookups) =
      (retryLoop replay length exhausted attempts rest).run lookups := by
  have hanswer : (replay shortCode).run ((shortCode, true) :: lookups) = some (true, lookups) :=
    if_pos rfl
  rw [retryLoop, generateShortCode_concatDraws, hdraws, concatDraws_add]
  dsimp only
  rw [StateT.run_bind, hanswer]
  rfl

/-- An attempt whose code is free. -/
theorem retryLoop_free {draws : Draws} (hdraws : generateShortCode length draws = .ok shortCode) :
    (retryLoop replay length exhausted (attempts + 1) draws).run [(shortCode, false)] =
      some (.ok shortCode, []) := by
  have hanswer : (replay shortCode).run [(shortCode, false)] = some (false, []) := if_pos rfl
  rw [retryLoop, hdraws]
  dsimp only
  rw [StateT.run_bind, hanswer]
  rfl

/-- The record of `n` attempts whose codes were all taken. -/
def Tried (length n : ℕ) (lookups : List (String × Bool)) : Prop :=
  ∃ candidates : List String, candidates.length = n ∧ lookups = candidates.map (·, true) ∧
    ∀ shortCode ∈ candidates, Drawn length shortCode

theorem tried_nil (length : ℕ) : Tried length 0 [] := ⟨[], rfl, rfl, fun _ hmem => by cases hmem⟩

theorem Tried.concat {n : ℕ} {lookups : List (String × Bool)} (h : Tried length n lookups)
    (hdrawn : Drawn length shortCode) : Tried length (n + 1) (lookups ++ [(shortCode, true)]) := by
  obtain ⟨candidates, rfl, rfl, hall⟩ := h
  refine ⟨candidates ++ [shortCode], by simp, by simp, fun candidate hmem => ?_⟩
  rcases List.mem_append.mp hmem with hmem | hmem
  · exact hall candidate hmem
  · exact List.mem_singleton.mp hmem ▸ hdrawn

/-- The loop after attempts whose codes were all taken.  The induction is on the attempts. -/
theorem Tried.retryLoop {n : ℕ} {lookups : List (String × Bool)} (h : Tried length n lookups)
    (hn : n ≤ attempts) (rest : Draws) (lookups' : List (String × Bool)) :
    ∃ draws, (retryLoop replay length exhausted attempts draws).run (lookups ++ lookups') =
      (retryLoop replay length exhausted (attempts - n) rest).run lookups' := by
  obtain ⟨candidates, rfl, rfl, hall⟩ := h
  induction candidates generalizing attempts with
  | nil => exact ⟨rest, rfl⟩
  | cons shortCode candidates ih =>
    rw [List.length_cons] at hn
    obtain ⟨attempts, rfl⟩ := Nat.exists_eq_succ_of_ne_zero (by omega : attempts ≠ 0)
    obtain ⟨draws, hdraws⟩ := hall shortCode List.mem_cons_self
    obtain ⟨draws', hrun⟩ := ih (Nat.le_of_succ_le_succ hn)
      fun candidate hmem => hall candidate (List.mem_cons_of_mem _ hmem)
    refine ⟨concatDraws length draws draws', ?_⟩
    rw [List.map_cons, List.cons_append, retryLoop_taken hdraws, hrun, List.length_cons,
      Nat.succ_sub_succ]

end Replay

section Runs

variable {app : App} {n : ℕ} {lookups : List (String × Bool)}

/-- **Attempts that find nothing until the last** are a run that returns the last code. -/
theorem Tried.finds (h : Tried app.settings.shortCodeLength n lookups)
    (hn : n < defaultMaxCollisionRetries) {shortCode : String}
    (hdrawn : Drawn app.settings.shortCodeLength shortCode) :
    IsRun app (lookups ++ [(shortCode, false)]) (.ok shortCode) := by
  obtain ⟨last, hlast⟩ := hdrawn
  obtain ⟨draws, hrun⟩ := h.retryLoop hn.le last [(shortCode, false)]
  obtain ⟨left, hleft⟩ := Nat.exists_eq_succ_of_ne_zero (Nat.sub_ne_zero_of_lt hn)
  refine ⟨draws, hrun.trans ?_⟩
  rw [hleft]
  exact retryLoop_free hlast

/-- **A spent budget** is a run that raises. -/
theorem Tried.exhausts
    (h : Tried app.settings.shortCodeLength defaultMaxCollisionRetries lookups) :
    IsRun app lookups (.error (retriesExhausted app.settings.shortCodeLength
      defaultMaxCollisionRetries)) := by
  obtain ⟨draws, hrun⟩ := h.retryLoop le_rfl (fun _ => 0) []
  rw [List.append_nil] at hrun
  exact ⟨draws, hrun⟩

end Runs

/-! ## The lookups of a request -/

/-- A lookup, if the database answers it. -/
def answered (shortCode : String) : Except DbError Bool → List (String × Bool)
  | .ok taken => [(shortCode, taken)]
  | .error _ => []

/-- The lookup of a code that an action makes. -/
def codeLookups (app : App) (action : Action) (shared : Shared) (h : Handler) :
    List (String × Bool) :=
  match action, h.phase with
  | .advance choice, .createUrl _ (.codeExists customCode) =>
      answered customCode (choice.query (Repository.codeExists customCode shared.db))
  | .advance choice, .createUrl _ (.generate attempt) =>
      if attempt < defaultMaxCollisionRetries then
        match generateShortCode app.settings.shortCodeLength choice.draws with
        | .error _ => []
        | .ok candidate =>
            answered candidate (choice.query (Repository.codeExists candidate shared.db))
      else []
  | _, _ => []

/-- The lookups that request `i` has made in a run. -/
def App.lookups (app : App) (es : List Event) (i : ℕ) : List (String × Bool) :=
  app.system.ownTrace (codeLookups app) i .initial es

/-- The lookups of a request that ended up with a code. -/
def CreateUrlRequest.Chose (app : App) (payload : CreateUrlRequest)
    (lookups : List (String × Bool)) (shortCode : String) : Prop :=
  match payload.customCode with
  | some customCode => shortCode = customCode ∧ lookups = [(customCode, false)]
  | none => IsRun app lookups (.ok shortCode)

/-- What the lookups of a request say about its response. -/
inductive Searched (app : App) (payload : CreateUrlRequest) (lookups : List (String × Bool)) :
    Response → Prop where
  | created (body : UrlResponse) : payload.Chose app lookups body.shortCode →
      Searched app payload lookups (.created body)
  /-- The code was free when it was looked up. -/
  | raceConflict (shortCode : String) : payload.Chose app lookups shortCode →
      Searched app payload lookups (raceConflict shortCode)
  | customCodeConflict (customCode : String) : payload.customCode = some customCode →
      lookups = [(customCode, true)] →
      Searched app payload lookups (customCodeConflict customCode)
  | keyspaceSaturated : payload.customCode = none →
      IsRun app lookups (.error (retriesExhausted app.settings.shortCodeLength
        defaultMaxCollisionRetries)) →
      Searched app payload lookups keyspaceSaturated
  | tooManyRequests (result : RateLimitResult) : lookups = [] →
      Searched app payload lookups (tooManyRequests result)
  | internalServerError : Searched app payload lookups .internalServerError

/-- What the lookups of a request say about where it is in `create_url`. -/
def CreatePoint.Searched (app : App) (payload : CreateUrlRequest) (lookups : List (String × Bool)) :
    CreatePoint → Prop
  | .codeExists _ => lookups = []
  | .generate attempt => attempt ≤ defaultMaxCollisionRetries ∧
      Tried app.settings.shortCodeLength attempt lookups
  | .expiresAt shortCode _ | .insert shortCode _ => payload.Chose app lookups shortCode

/-- What the lookups of a creation say about its phase. -/
def Phase.Searched (app : App) (payload : CreateUrlRequest) (lookups : List (String × Bool)) :
    Phase → Prop
  | .middleware | .checkScript _ _ => lookups = []
  | .createUrl _ point => point.Searched app payload lookups
  | .redirect _ _ | .getStats _ _ => True
  | .commit response | .rollback response | .respond response | .done response =>
      UrlShortener.Searched app payload lookups response

/-! ## Every step keeps the record -/

section Step

variable {app : App} {i : ℕ} {choice : Choice} {shared : Shared} {h : Handler}
  {payload : CreateUrlRequest} {lookups : List (String × Bool)}

theorem searched_chosen {shortCode : String} (hchose : payload.Chose app lookups shortCode) :
    (chosen payload shortCode).Searched app payload lookups := by
  unfold chosen
  split <;> exact hchose

theorem searched_body (app : App) (payload : CreateUrlRequest) :
    (Call.createUrl payload).body.Searched app payload [] := by
  unfold Call.body
  dsimp only
  split
  · exact rfl
  · exact ⟨Nat.zero_le _, tried_nil _⟩

/-- Another phase makes no lookup. -/
theorem codeLookups_of_ne (hphase : ∀ payload point, h.phase ≠ .createUrl payload point)
    (action : Action) : codeLookups app action shared h = [] := by
  unfold codeLookups
  split
  · rename_i heq
    exact absurd heq (hphase _ _)
  · rename_i heq
    exact absurd heq (hphase _ _)
  · rfl

theorem createUrl_searched {point : CreatePoint} (hphase : h.phase = .createUrl payload point)
    (hcons : point.Consistent app payload) (hsearched : point.Searched app payload lookups) :
    (createUrl app i choice shared h payload point).2.phase.Searched app payload
      (lookups ++ codeLookups app (.advance choice) shared h) := by
  cases point with
  | codeExists customCode =>
    obtain rfl : lookups = [] := hsearched
    have hmade : codeLookups app (.advance choice) shared h =
        answered customCode (choice.query (Repository.codeExists customCode shared.db)) := by
      unfold codeLookups
      rw [hphase]
    rw [createUrl, hmade]
    split
    · exact .internalServerError
    · rename_i htaken
      rw [htaken]
      exact .customCodeConflict customCode hcons rfl
    · rename_i hfree
      rw [hfree]
      refine searched_chosen ?_
      rw [CreateUrlRequest.Chose, show payload.customCode = some customCode from hcons]
      exact ⟨rfl, rfl⟩
  | generate attempt =>
    obtain ⟨hle, htried⟩ := hsearched
    have hmade : codeLookups app (.advance choice) shared h =
        if attempt < defaultMaxCollisionRetries then
          match generateShortCode app.settings.shortCodeLength choice.draws with
          | .error _ => []
          | .ok candidate =>
              answered candidate (choice.query (Repository.codeExists candidate shared.db))
        else [] := by
      unfold codeLookups
      rw [hphase]
    rw [createUrl, hmade]
    by_cases hattempt : attempt < defaultMaxCollisionRetries
    · rw [if_pos hattempt, if_pos hattempt]
      cases hcandidate : generateShortCode app.settings.shortCodeLength choice.draws with
      | error message => exact .internalServerError
      | ok candidate =>
        dsimp only
        split
        · exact .internalServerError
        · rename_i htaken
          rw [htaken]
          exact ⟨hattempt, htried.concat ⟨_, hcandidate⟩⟩
        · rename_i hfree
          rw [hfree]
          refine searched_chosen ?_
          rw [CreateUrlRequest.Chose, show payload.customCode = none from hcons]
          exact htried.finds hattempt ⟨_, hcandidate⟩
    · rw [if_neg hattempt, if_neg hattempt, List.append_nil]
      obtain rfl : attempt = defaultMaxCollisionRetries := by omega
      exact .keyspaceSaturated hcons htried.exhausts
  | expiresAt shortCode days =>
    have hmade : codeLookups app (.advance choice) shared h = [] := by
      unfold codeLookups
      rw [hphase]
    rw [createUrl, hmade, List.append_nil]
    exact hsearched
  | insert shortCode expiresAt =>
    have hmade : codeLookups app (.advance choice) shared h = [] := by
      unfold codeLookups
      rw [hphase]
    rw [createUrl, hmade, List.append_nil]
    split
    · exact .raceConflict shortCode hsearched
    · exact .internalServerError
    · rw [hphase]
      exact hsearched
    · rename_i url db hstatement
      have hcreated := Repository.createUrl_ok (Choice.eq_of_statement hstatement (by simp))
      refine .created _ ?_
      show payload.Chose app lookups url.shortCode
      rw [hcreated.shortCode]
      exact hsearched

theorem searched_of_response? {phase : Phase} {response : Response}
    (hresponse : phase.response? = some response)
    (hsearched : Searched app payload lookups response) : phase.Searched app payload lookups := by
  cases phase with
  | commit | rollback | respond | done =>
    cases hresponse
    exact hsearched
  | middleware | checkScript | createUrl | redirect | getStats => cases hresponse

theorem Phase.Searched.response {phase : Phase} (h : phase.Searched app payload lookups)
    {response : Response} (hresponse : phase.response? = some response) :
    UrlShortener.Searched app payload lookups response := by
  cases phase with
  | commit | rollback | respond | done =>
    cases hresponse
    exact h
  | middleware | checkScript | createUrl | redirect | getStats => cases hresponse

/-- **A step keeps the record** of a creation. -/
theorem advance_searched (hcons : h.Consistent app) (hcall : h.request.call = .createUrl payload)
    (hsearched : h.phase.Searched app payload lookups) :
    (advance app i choice shared h).2.phase.Searched app payload
      (lookups ++ codeLookups app (.advance choice) shared h) := by
  have hquiet : (∀ payload point, h.phase ≠ .createUrl payload point) →
      lookups ++ codeLookups app (.advance choice) shared h = lookups := by
    intro hother
    rw [codeLookups_of_ne hother, List.append_nil]
  rcases @advance_creation app i choice shared h payload hcons hcall with
    ⟨hphase, hnext⟩ | ⟨routeClass, nowMs, hphase, hnext⟩ |
    ⟨point, hphase, hpoint, hstep⟩ | ⟨response, hresponse, hnext⟩
  · rw [hphase] at hsearched
    rw [hquiet (by rw [hphase]; exact fun _ _ => Phase.noConfusion)]
    rcases hnext with ⟨nowMs, hnext⟩ | hnext
    · rw [hnext]
      exact hsearched
    · rw [hnext]
      exact .internalServerError
  · rw [hphase] at hsearched
    obtain rfl : lookups = [] := hsearched
    rw [hquiet (by rw [hphase]; exact fun _ _ => Phase.noConfusion)]
    rcases hnext with hnext | ⟨result, hnext⟩
    · rw [hnext]
      exact searched_body app payload
    · rw [hnext]
      exact .tooManyRequests result rfl
  · rw [hphase] at hsearched
    rw [hstep]
    exact createUrl_searched hphase hpoint hsearched
  · have hother : ∀ payload point, h.phase ≠ .createUrl payload point := by
      intro payload point hphase
      rw [hphase] at hresponse
      cases hresponse
    rw [hquiet hother]
    rcases hnext with hnext | hnext
    · exact searched_of_response? hnext (hsearched.response hresponse)
    · exact searched_of_response? hnext .internalServerError

end Step

/-! ## Runs -/

theorem App.searched_run (app : App) (es : List Event) {i : ℕ} {h : Handler}
    (hi : (app.run es).procs[i]? = some h) {payload : CreateUrlRequest}
    (hcall : h.request.call = .createUrl payload) :
    h.phase.Searched app payload (app.lookups es i) := by
  refine app.system.ownTrace_run (P := fun lookups h => h.request.call = .createUrl payload →
    h.phase.Searched app payload lookups) ?_ ?_ es hi hcall
  · intro request _
    exact rfl
  · intro es i action h lookups hi hsearched hcall
    rw [show (app.system.act i action _ h).2.request = h.request from act_request ..] at hcall
    cases action with
    | advance choice => exact advance_searched (app.consistent_run es hi) hcall (hsearched hcall)
    | background choice =>
      have hphase := (recordClick_moves i choice (app.run es).shared h).same.2.1
      show (recordClick i choice (app.run es).shared h).2.phase.Searched app payload (lookups ++ [])
      rw [hphase, List.append_nil]
      exact hsearched hcall

theorem answered_eq {shortCode shortCode' : String} {taken : Bool} {choice : Choice}
    {shared : Shared} (hmem : (shortCode, taken) ∈
      answered shortCode' (choice.query (Repository.codeExists shortCode' shared.db))) :
    taken = (shared.db.registry.entries shortCode).isSome := by
  cases hquery : choice.query (Repository.codeExists shortCode' shared.db) with
  | error error =>
    rw [hquery] at hmem
    cases hmem
  | ok taken' =>
    rw [hquery] at hmem
    obtain ⟨rfl, rfl⟩ := Prod.mk.inj (List.mem_singleton.mp hmem)
    have hexists := Choice.eq_of_query hquery (by simp)
    rw [Repository.codeExists_eq] at hexists
    split at hexists
    · exact (Except.ok.inj hexists).symm.trans (Option.isSome_map ..).symm
    · cases hexists

/-- An answer is what the registry holds. -/
theorem codeLookups_eq {app : App} {action : Action} {shared : Shared} {h : Handler}
    {shortCode : String} {taken : Bool}
    (hmem : (shortCode, taken) ∈ codeLookups app action shared h) :
    (∀ response, h.phase ≠ .done response) ∧
      taken = (shared.db.registry.entries shortCode).isSome := by
  unfold codeLookups at hmem
  split at hmem
  · rename_i hphase
    exact ⟨Phase.ne_done_of_response? (by rw [hphase]; rfl), answered_eq hmem⟩
  · rename_i hphase
    refine ⟨Phase.ne_done_of_response? (by rw [hphase]; rfl), ?_⟩
    split at hmem
    · split at hmem
      · cases hmem
      · exact answered_eq hmem
    · cases hmem
  · cases hmem

/-- What the lookups of a finished creation come to. -/
structure RunsGenerator (app : App) (es : List Event) (i : ℕ) (payload : CreateUrlRequest)
    (response : Response) : Prop where
  /-- They are a run of the generator, or the one lookup of a custom code, and the response is what
  the result says. -/
  searched : Searched app payload (app.lookups es i) response
  /-- Each answer was what the registry held at its instant. -/
  answers : ∀ shortCode taken, (shortCode, taken) ∈ app.lookups es i →
    ∃ n < es.length, InProgress (app.stateAt es n) i ∧
      taken = ((app.stateAt es n).shared.db.registry.entries shortCode).isSome

/-- **A creation runs the generator**, however its queries interleave with other requests. -/
theorem App.runs_generator (app : App) (es : List Event) (i : ℕ) (h : Handler)
    (payload : CreateUrlRequest) (response : Response) (hi : (app.run es).procs[i]? = some h)
    (hcall : h.request.call = .createUrl payload) (hdone : h.phase = .done response) :
    RunsGenerator app es i payload response where
  searched := by
    have hsearched := app.searched_run es hi hcall
    rw [hdone] at hsearched
    exact hsearched
  answers := by
    intro shortCode taken hmem
    obtain ⟨n, e, hevent, hemitted⟩ := Run.mem_trace _ _ hmem
    have hn := (List.getElem?_eq_some_iff.mp hevent).1
    change (shortCode, taken) ∈ Interleaving.System.emits _ _ (app.stateAt es n) e at hemitted
    cases e with
    | arrive request => cases hemitted
    | env e => cases hemitted
    | act j action =>
      rw [Interleaving.System.emits] at hemitted
      cases hj : (app.stateAt es n).procs[j]? with
      | none =>
        rw [hj] at hemitted
        cases hemitted
      | some h' =>
        rw [hj, Option.elim_some, Interleaving.System.own] at hemitted
        split at hemitted
        · rename_i hij
          obtain ⟨hbusy, hanswer⟩ := codeLookups_eq hemitted
          exact ⟨n, hn, ⟨h', hij ▸ hj, hbusy⟩, hanswer⟩
        · cases hemitted

/-- A body that leaves the code to the generator. -/
def anyCodeRequest : CreateUrlRequest :=
  { abcdRequest with customCode := none, customCode_valid := rfl }

/-- Two creations for which the generator draws the same symbols over and over. -/
def unluckyRun : List Event :=
  admitted 0 (Call.createUrl anyCodeRequest).plain ++ steps 0 4 .calm ++
    admitted 1 (Call.createUrl anyCodeRequest).plain ++ steps 1 8 .calm

theorem App.runs_generator_unluckyRun :
    RunsGenerator App.sample unluckyRun 1 anyCodeRequest keyspaceSaturated :=
  App.sample.runs_generator unluckyRun 1 _ anyCodeRequest keyspaceSaturated rfl rfl rfl

end UrlShortener
