import UrlShortener.System.Clicks
import UrlShortener.System.Phases

/-!
# A stats response does not under-report

`get_stats` makes three reads without a common snapshot: the row with its counter, the recent
clicks, the referrers.  Clicks may be committed in between.

A click raises the counter and adds its event in one transaction, so at every instant the counter
of a code is the number of its events (`App.recorded_run`).  Events are never removed
(`App.clickEvents_mono`).  The counter is read first, so what the later reads find is at least
as much as it says.  Had the handler read the counter last, it would be at most as much.

## What is proved

* `App.statsReads_run`: the three lists of a stats response come from three reads of that request,
  in this order.
* `App.stats_report` says what the response promises about the committed clicks at the three
  instants.
-/

set_option autoImplicit false

namespace UrlShortener

/-! ## Click events stay -/

section Step

variable {app : App} {i : ℕ} {shared shared' : Shared} {h h' : Handler}

theorem Moves.clickEvents_mono (hm : Moves app i shared h shared' h') :
    shared.db.clickEvents <+: shared'.db.clickEvents := by
  cases hm with
  | goesOn _ _ _ _ hdb | raises _ _ _ _ hdb | rejected _ _ _ _ hdb | decides _ _ _ _ _ _ _ hdb =>
    rw [hdb]
  | inserts _ _ _ _ _ _ hcreated => exact hcreated.clickEvents ▸ List.prefix_rfl
  | commits =>
    rw [Database.clickEvents_commit]
    exact List.prefix_append _ _
  | waits | reports | commitFails | rollsBack | responds | rests => exact List.prefix_rfl

theorem RecordMoves.clickEvents_mono (hm : RecordMoves i shared h shared' h') :
    shared.db.clickEvents <+: shared'.db.clickEvents := by
  cases hm with
  | bumps _ _ _ _ _ hbumped => exact hbumped.clickEvents ▸ List.prefix_rfl
  | appends _ _ _ _ _ _ hinserted => exact hinserted.clickEvents ▸ List.prefix_rfl
  | commits =>
    rw [Database.clickEvents_commit]
    exact List.prefix_append _ _
  | rests | fails => exact List.prefix_rfl

end Step

theorem App.clickEvents_step (app : App) (w : Interleaving.World Shared Handler)
    (e : Event) : w.shared.db.clickEvents <+: (app.system.step w e).shared.db.clickEvents := by
  cases e with
  | arrive request => exact List.prefix_rfl
  | env e =>
    rw [app.system.step_env]
    show _ <+: (e.apply w.shared).db.clickEvents
    rw [Env.apply_db]
  | act i action =>
    cases hi : w.procs[i]? with
    | none => rw [app.system.step_act_of_none hi]
    | some h =>
      rw [app.system.step_act_of_some hi]
      cases action with
      | advance choice => exact (advance_moves app i choice w.shared h).clickEvents_mono
      | background choice => exact (recordClick_moves i choice w.shared h).clickEvents_mono

/-- **A committed click is there at every later instant.** -/
theorem App.clickEvents_mono (app : App) (es : List Event) {m n : ℕ} (h : m ≤ n) :
    (app.stateAt es m).shared.db.clickEvents <+: (app.stateAt es n).shared.db.clickEvents :=
  Run.stateAt_mono app.system.step (P := fun _ => True)
    (r := fun w w' => w.shared.db.clickEvents <+: w'.shared.db.clickEvents)
    (fun _ => List.prefix_rfl) (fun _ _ _ => List.IsPrefix.trans) trivial (fun _ _ _ => trivial)
    (fun w e _ => app.clickEvents_step w e) es h

/-! ## Three reads -/

/-- The committed clicks of a code at an instant of a run. -/
def App.clicksAt (app : App) (es : List Event) (n : ℕ) (shortCode : String) : List ClickEvent :=
  Repository.clicksWithCode shortCode (app.stateAt es n).shared.db

/-- How many of them have a referrer. -/
def App.referrersAt (app : App) (es : List Event) (n : ℕ) (shortCode : String)
    (referrer : Option String) : ℕ :=
  (app.clicksAt es n shortCode).countP fun click => click.referrer = referrer

/-- The `n`-th event is where request `i` reads the row of a code. -/
def ReadsUrl (app : App) (es : List Event) (n i : ℕ) (shortCode : String) (url : Url) : Prop :=
  StepAt app es n i fun phase choice shared => phase = .getStats shortCode .getUrl ∧
    choice.query (Repository.getUrl shortCode shared.db) = .ok (some url)

/-- The `n`-th event is where request `i` reads the recent clicks of a code. -/
def ReadsClicks (app : App) (es : List Event) (n i : ℕ) (shortCode : String) (url : Url)
    (recent : List ClickEvent) : Prop :=
  StepAt app es n i fun phase choice shared =>
    phase = .getStats shortCode (.getRecentClicks url) ∧
    choice.query (Repository.getRecentClicks shortCode recentClicksLimit choice.clickOrder
      shared.db) = .ok recent

/-- The `n`-th event is where request `i` reads the referrers of a code. -/
def ReadsReferrers (app : App) (es : List Event) (n i : ℕ) (shortCode : String) (url : Url)
    (recent : List ClickEvent) (topReferrers : List (Option String × ℕ)) : Prop :=
  StepAt app es n i fun phase choice shared =>
    phase = .getStats shortCode (.getTopReferrers url recent) ∧
    choice.query (Repository.getTopReferrers shortCode topReferrersLimit choice.referrerOrder
      shared.db) = .ok topReferrers

/-- What the events so far mean for a request for statistics. -/
structure Handler.StatsReads (app : App) (es : List Event) (i : ℕ) (h : Handler) : Prop where
  url : ∀ shortCode url, h.phase = .getStats shortCode (.getRecentClicks url) →
    ∃ m₁, ReadsUrl app es m₁ i shortCode url
  clicks : ∀ shortCode url recent,
    h.phase = .getStats shortCode (.getTopReferrers url recent) →
    ∃ m₁ m₂, m₁ < m₂ ∧ ReadsUrl app es m₁ i shortCode url ∧
      ReadsClicks app es m₂ i shortCode url recent
  body : ∀ body, h.phase.response? = some (.stats body) →
    ∃ shortCode url recent topReferrers m₁ m₂ m₃, h.request.call = .getStats shortCode ∧
      body = statsResponse shortCode url recent topReferrers ∧ m₁ < m₂ ∧ m₂ < m₃ ∧
      ReadsUrl app es m₁ i shortCode url ∧ ReadsClicks app es m₂ i shortCode url recent ∧
      ReadsReferrers app es m₃ i shortCode url recent topReferrers

theorem Handler.StatsReads.concat {app : App} {es : List Event} {i : ℕ} {h h' : Handler}
    (hreads : h.StatsReads app es i) (e : Event) (hphase : h'.phase = h.phase)
    (hrequest : h'.request = h.request) : h'.StatsReads app (es ++ [e]) i where
  url := by
    intro shortCode url hat
    obtain ⟨m₁, hurl⟩ := hreads.url shortCode url (hphase ▸ hat)
    exact ⟨m₁, hurl.concat e⟩
  clicks := by
    intro shortCode url recent hat
    obtain ⟨m₁, m₂, hlt, hurl, hclicks⟩ := hreads.clicks shortCode url recent (hphase ▸ hat)
    exact ⟨m₁, m₂, hlt, hurl.concat e, hclicks.concat e⟩
  body := by
    intro body hresponse
    obtain ⟨shortCode, url, recent, topReferrers, m₁, m₂, m₃, hcall, hbody, h₁₂, h₂₃, hurl, hclicks,
      hreferrers⟩ := hreads.body body (hphase ▸ hresponse)
    exact ⟨shortCode, url, recent, topReferrers, m₁, m₂, m₃, hrequest ▸ hcall, hbody, h₁₂, h₂₃,
      hurl.concat e, hclicks.concat e, hreferrers.concat e⟩

/-- A step of the handler itself, by where it leads. -/
theorem Handler.StatsReads.step {app : App} {es : List Event} {i : ℕ} {h : Handler}
    (hreads : h.StatsReads app es i) (hi : (app.run es).procs[i]? = some h) (choice : Choice) :
    (advance app i choice (app.run es).shared h).2.StatsReads app
      (es ++ [.act i (.advance choice)]) i := by
  have hrequest := (advance_moves app i choice (app.run es).shared h).request
  have hcons := app.consistent_run es hi
  have hleads := advance_leads app i choice (app.run es).shared h
  refine ⟨?_, ?_, ?_⟩
  · intro shortCode url hat
    rw [hat] at hleads
    exact ⟨_, stepAt_concat hi hleads.of_getRecentClicks⟩
  · intro shortCode url recent hat
    rw [hat] at hleads
    have hclicks := hleads.of_getTopReferrers
    obtain ⟨m₁, hurl⟩ := hreads.url shortCode url hclicks.1
    exact ⟨m₁, _, hurl.lt, hurl.concat _, stepAt_concat hi hclicks⟩
  · intro body hbody
    rcases hleads.of_stats hbody with hresponse | ⟨shortCode, url, recent, topReferrers, hphase,
      hquery, rfl⟩
    · obtain ⟨shortCode, url, recent, topReferrers, m₁, m₂, m₃, hcall, rfl, h₁₂, h₂₃, hurl, hclicks,
        hreferrers⟩ := hreads.body body hresponse
      exact ⟨shortCode, url, recent, topReferrers, m₁, m₂, m₃, hrequest ▸ hcall, rfl, h₁₂, h₂₃,
        hurl.concat _, hclicks.concat _, hreferrers.concat _⟩
    · obtain ⟨m₁, m₂, h₁₂, hurl, hclicks⟩ := hreads.clicks shortCode url recent hphase
      have hcall : h.request.call = .getStats shortCode := by
        unfold Handler.Consistent at hcons
        rw [hphase] at hcons
        exact hcons
      exact ⟨shortCode, url, recent, topReferrers, m₁, m₂, _, hrequest ▸ hcall, rfl, h₁₂,
        hclicks.lt, hurl.concat _, hclicks.concat _, stepAt_concat hi ⟨hphase, hquery⟩⟩

/-- **A stats response is made of three reads**, one after the other. -/
theorem App.statsReads_run (app : App) (es : List Event) {i : ℕ} {h : Handler}
    (hi : (app.run es).procs[i]? = some h) : h.StatsReads app es i := by
  refine app.system.own_history (P := fun es i h => h.StatsReads app es i) ?_ ?_ ?_ es hi
  · intro es request
    refine ⟨?_, ?_, ?_⟩
    · rintro shortCode url ⟨⟩
    · rintro shortCode url recent ⟨⟩
    · rintro body ⟨⟩
  · intro es i action h hi hreads
    cases action with
    | advance choice => exact hreads.step hi choice
    | background choice =>
      obtain ⟨hrequest, hphase, -⟩ := (recordClick_moves i choice (app.run es).shared h).same
      exact hreads.concat _ hphase hrequest
  · intro es e i h _ hreads
    exact hreads.concat e rfl rfl

/-! ## What the three reads find -/

section Found

variable {app : App} {es : List Event} {n i : ℕ} {shortCode : String} {url : Url}
  {recent : List ClickEvent} {topReferrers : List (Option String × ℕ)}

theorem App.clicksAt_mono (app : App) (es : List Event) {m n : ℕ} (h : m ≤ n)
    (shortCode : String) : app.clicksAt es m shortCode <+: app.clicksAt es n shortCode :=
  (app.clickEvents_mono es h).filter _

/-- The clicks of a code are as many as its counter says. -/
theorem App.length_clicksAt (app : App) (es : List Event) (n : ℕ) (shortCode : String) :
    (app.clicksAt es n shortCode).length = (app.stateAt es n).shared.db.clickCount shortCode := by
  obtain ⟨hclicks, hevents⟩ := app.recorded_run (es.take n) shortCode
  rw [app.stateAt_eq_run, hclicks, ← hevents, Database.eventCount, List.countP_eq_length_filter]
  rfl

/-- The row that is read has the counter of its code. -/
theorem ReadsUrl.clickCount_eq (h : ReadsUrl app es n i shortCode url) :
    url.clickCount = (app.stateAt es n).shared.db.clickCount shortCode := by
  obtain ⟨choice, handler, -, -, -, hquery⟩ := h
  have hrow := Choice.eq_of_query hquery (by simp)
  have hwf : (app.stateAt es n).shared.db.Wf := app.wf_run (es.take n)
  rw [Repository.getUrl_eq hwf] at hrow
  split at hrow
  · rw [Database.clickCount, Except.ok.inj hrow]
    rfl
  · cases hrow

theorem ReadsClicks.topOf (h : ReadsClicks app es n i shortCode url recent) :
    Ranking.TopOf (fun a b => b.clickedAt ≤ a.clickedAt) recentClicksLimit
      (app.clicksAt es n shortCode) recent := by
  obtain ⟨choice, handler, -, -, -, hquery⟩ := h
  exact Repository.topOf_getRecentClicks (Choice.eq_of_query hquery (by simp))

theorem ReadsReferrers.topOf (h : ReadsReferrers app es n i shortCode url recent topReferrers) :
    Ranking.TopOf (fun a b => b.2 ≤ a.2) topReferrersLimit
      (Ranking.groupSizes ClickEvent.referrer (app.clicksAt es n shortCode)) topReferrers := by
  obtain ⟨choice, handler, -, -, -, hquery⟩ := h
  exact Repository.topOf_getTopReferrers (Choice.eq_of_query hquery (by simp))

end Found

/-! ## What a stats response promises -/

/-- What a stats response says about the committed clicks of its code, if the row is read at `m₁`,
the recent clicks at `m₂` and the referrers at `m₃`. -/
structure StatsReport (app : App) (es : List Event) (i : ℕ) (shortCode : String)
    (body : StatsResponse) (m₁ m₂ m₃ : ℕ) : Prop where
  reads : ∃ url recent topReferrers, ReadsUrl app es m₁ i shortCode url ∧
    ReadsClicks app es m₂ i shortCode url recent ∧
    ReadsReferrers app es m₃ i shortCode url recent topReferrers ∧
    body = statsResponse shortCode url recent topReferrers
  order : m₁ < m₂ ∧ m₂ < m₃
  clickCount : body.clickCount = (app.stateAt es m₁).shared.db.clickCount shortCode
  /-- At least as many recent clicks as the counter says, up to the limit. -/
  atLeast : min 20 body.clickCount ≤ body.recentClicks.length
  atMost : body.recentClicks.length ≤ 20
  newestFirst : body.recentClicks.Pairwise fun a b => b.clickedAt ≤ a.clickedAt
  /-- The recent clicks are committed clicks, and none that is omitted is newer than a listed
  one. -/
  newest : ∃ listed omitted : List ClickEvent,
    (listed ++ omitted).Perm (app.clicksAt es m₂ shortCode) ∧
    body.recentClicks =
      listed.map (fun click => ⟨click.clickedAt, click.referrer, click.userAgent⟩) ∧
    ∀ a ∈ listed, ∀ b ∈ omitted, b.clickedAt ≤ a.clickedAt
  /-- No referrer is listed twice, and neither is the group without one. -/
  groups : (body.topReferrers.map ReferrerCount.referrer).Nodup
  fewGroups : body.topReferrers.length ≤ 10
  /-- The counts are exact. -/
  counts : ∀ group ∈ body.topReferrers,
    0 < group.count ∧ group.count = app.referrersAt es m₃ shortCode group.referrer
  mostFirst : body.topReferrers.Pairwise fun a b => b.count ≤ a.count
  /-- No referrer that is omitted has a larger count than a listed one. -/
  most : ∀ group ∈ body.topReferrers, ∀ referrer,
    referrer ∉ body.topReferrers.map ReferrerCount.referrer →
      app.referrersAt es m₃ shortCode referrer ≤ group.count
  /-- With few referrers, the counts cover the counter. -/
  covers : ((app.clicksAt es m₃ shortCode).map ClickEvent.referrer).dedup.length ≤ 10 →
    body.clickCount ≤ (body.topReferrers.map ReferrerCount.count).sum
  /-- With few referrers and no click in between, they add up to it. -/
  addsUp : ((app.clicksAt es m₃ shortCode).map ClickEvent.referrer).dedup.length ≤ 10 →
    app.clicksAt es m₃ shortCode = app.clicksAt es m₁ shortCode →
      (body.topReferrers.map ReferrerCount.count).sum = body.clickCount

theorem map_referrer_statsResponse (shortCode : String) (url : Url) (recent : List ClickEvent)
    (topReferrers : List (Option String × ℕ)) :
    (statsResponse shortCode url recent topReferrers).topReferrers.map ReferrerCount.referrer =
      topReferrers.map Prod.fst :=
  List.map_map

theorem map_count_statsResponse (shortCode : String) (url : Url) (recent : List ClickEvent)
    (topReferrers : List (Option String × ℕ)) :
    (statsResponse shortCode url recent topReferrers).topReferrers.map ReferrerCount.count =
      topReferrers.map Prod.snd :=
  List.map_map

/-- Without a group there is no click. -/
theorem App.referrersAt_eq_zero (app : App) (es : List Event) (n : ℕ) {shortCode : String}
    {referrer : Option String}
    (h : referrer ∉ (app.clicksAt es n shortCode).map ClickEvent.referrer) :
    app.referrersAt es n shortCode referrer = 0 := by
  refine List.countP_eq_zero.mpr fun click hclick heq => h ?_
  rw [← of_decide_eq_true heq]
  exact List.mem_map_of_mem hclick

/-- **A stats response never under-reports its own counter**, however clicks are committed between
its reads. -/
theorem App.stats_report (app : App) (es : List Event) (i : ℕ) (h : Handler) (shortCode : String)
    (body : StatsResponse) (hi : (app.run es).procs[i]? = some h)
    (hcall : h.request.call = .getStats shortCode)
    (hresponse : h.phase.response? = some (.stats body)) :
    ∃ m₁ m₂ m₃, StatsReport app es i shortCode body m₁ m₂ m₃ := by
  obtain ⟨shortCode', url, recent, topReferrers, m₁, m₂, m₃, hcall', rfl, h₁₂, h₂₃, hurl, hclicks,
    hreferrers⟩ := (app.statsReads_run es hi).body body hresponse
  obtain rfl : shortCode = shortCode' := by
    rw [hcall] at hcall'
    cases hcall'
    rfl
  have hcount : url.clickCount = (app.clicksAt es m₁ shortCode).length :=
    hurl.clickCount_eq.trans (app.length_clicksAt es m₁ shortCode).symm
  have hgrown₂ := (app.clicksAt_mono es h₁₂.le shortCode).length_le
  have hgrown₃ := (app.clicksAt_mono es (h₁₂.trans h₂₃).le shortCode).length_le
  have htop := hclicks.topOf
  have hgroups := hreferrers.topOf
  obtain ⟨omitted, hperm, hnewest⟩ := htop.rest
  refine ⟨m₁, m₂, m₃, ?_⟩
  constructor
  case reads => exact ⟨url, recent, topReferrers, hurl, hclicks, hreferrers, rfl⟩
  case order => exact ⟨h₁₂, h₂₃⟩
  case clickCount => exact hurl.clickCount_eq
  case atLeast =>
    show min 20 url.clickCount ≤ (recent.map _).length
    rw [List.length_map, htop.length, hcount]
    exact min_le_min_left _ hgrown₂
  case atMost =>
    show (recent.map _).length ≤ 20
    rw [List.length_map, htop.length]
    exact min_le_left _ _
  case newestFirst => exact List.pairwise_map.mpr htop.sorted
  case newest => exact ⟨recent, omitted, hperm, rfl, hnewest⟩
  case groups =>
    rw [map_referrer_statsResponse]
    exact hgroups.nodup_keys
  case fewGroups =>
    show (topReferrers.map _).length ≤ 10
    rw [List.length_map, hgroups.length]
    exact min_le_left _ _
  case counts =>
    intro group hgroup
    obtain ⟨listed, hlisted, rfl⟩ := List.mem_map.mp hgroup
    obtain ⟨hmem, hsize⟩ := hgroups.size_eq hlisted
    refine ⟨?_, hsize.symm⟩
    show 0 < listed.2
    obtain ⟨click, hclick, hreferrer⟩ := List.mem_map.mp hmem
    rw [← hsize]
    exact List.countP_pos_iff.mpr ⟨click, hclick, decide_eq_true hreferrer⟩
  case mostFirst => exact List.pairwise_map.mpr hgroups.sorted
  case most =>
    intro group hgroup referrer hout
    obtain ⟨listed, hlisted, rfl⟩ := List.mem_map.mp hgroup
    rw [map_referrer_statsResponse] at hout
    by_cases hreferrer : referrer ∈ (app.clicksAt es m₃ shortCode).map ClickEvent.referrer
    · exact hgroups.size_le hlisted hreferrer hout
    · rw [app.referrersAt_eq_zero es m₃ hreferrer]
      exact Nat.zero_le _
  case covers =>
    intro hfew
    rw [map_count_statsResponse, hgroups.sum_sizes hfew]
    exact hcount.le.trans hgrown₃
  case addsUp =>
    intro hfew hsame
    rw [map_count_statsResponse, hgroups.sum_sizes hfew, hsame]
    exact hcount.symm

/-- Two redirects of one code.  The click of the first is committed before the statistics are asked
for, the click of the second after their first read. -/
def statsRun : List Event :=
  admitted 0 (Call.createUrl abcdRequest).plain ++ steps 0 4 .calm ++
    admitted 1 (Call.redirect "abcd").plain ++ steps 1 6 .calm ++
    List.replicate 3 (.act 1 (.background .calm)) ++
    admitted 2 (Call.redirect "abcd").plain ++ steps 2 6 .calm ++
    admitted 3 (Call.getStats "abcd").plain ++
    List.replicate 3 (.act 2 (.background .calm)) ++
    steps 3 2
      { Choice.calm with
        clickOrder := [⟨2, "abcd", 0, none, none, some "e3b0c442"⟩,
          ⟨1, "abcd", 0, none, none, some "e3b0c442"⟩]
        referrerOrder := [(none, 2)] }

theorem App.stats_report_statsRun :
    ∃ m₁ m₂ m₃, StatsReport App.sample statsRun 3 "abcd"
      ⟨"abcd", 1, [⟨0, none, none⟩, ⟨0, none, none⟩], [⟨none, 2⟩]⟩ m₁ m₂ m₃ :=
  App.sample.stats_report statsRun 3 _ "abcd" _ rfl rfl rfl

end UrlShortener
