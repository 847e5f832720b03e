import UrlShortener.Db.Database
import UrlShortener.Library.Ranking
import Mathlib.Data.List.Dedup
import Mathlib.Data.List.Perm.Basic

/-!
# Data access

The queries of the repository layer.  Each is one statement on the database, except that recording
a click takes two statements and a commit, which other sessions may interleave with.

The server chooses what SQL leaves open: the clock behind `now()`, gaps in a sequence, and the
order among rows that `ORDER BY` does not tell apart.  These come in as arguments.

## What is proved

One lemma for each statement says everything it can do: `codeExists_eq` and `getUrl_eq` for the
reads, `topOf_getRecentClicks` and `topOf_getTopReferrers` for the two lists of the statistics,
`createUrl_ok`, `bumpClickCount_ok` and `insertClickEvent_ok` for the writes, and
`createUrl_error` for what the two exceptions of the insert mean.
-/

set_option autoImplicit false

namespace UrlShortener
namespace Repository

/-- `Result.scalar_one_or_none`. -/
def scalarOneOrNone {α : Type} : List α → Except DbError (Option α)
  | [] => .ok none
  | [x] => .ok (some x)
  | _ :: _ :: _ => .error .multipleResults

/-- The rows of `urls` with a code. -/
def urlsWithCode (shortCode : String) (db : Database) : List Url :=
  db.urls.filter fun u => u.shortCode = shortCode

/-- The rows of `click_events` with a code. -/
def clicksWithCode (shortCode : String) (db : Database) : List ClickEvent :=
  db.clickEvents.filter fun e => e.shortCode = shortCode

/-- Whether a URL row already uses a code. -/
def codeExists (shortCode : String) (db : Database) : Except DbError Bool := do
  if !isText shortCode then throw .data
  let result ← scalarOneOrNone (((urlsWithCode shortCode db).map Url.id).take 1)
  return result.isSome

/-- Insert a new URL row and return it.  The row is flushed, not committed. -/
def createUrl (t : SessionId) (shortCode longUrl : String) (expiresAt : Option ℤ)
    (clientId : Option String) (now : ℤ) (idGap : ℕ) (db : Database) : Reply Url :=
  let url : Url :=
    { id := db.urlsIdSeq + idGap
      shortCode := shortCode
      longUrl := longUrl
      createdAt := now
      expiresAt := expiresAt
      clientId := clientId
      clickCount := 0 }
  if !url.isStorable then .error .data
  else
    match TxStore.insert Url.shortCode t url db.store with
    | .violation => .error .integrity
    | .wait => .wait
    | .done store => .ok url { db with store := store, urlsIdSeq := url.id + 1 }

/-- Fetch a URL row by code. -/
def getUrl (shortCode : String) (db : Database) : Except DbError (Option Url) :=
  if !isText shortCode then .error .data else scalarOneOrNone (urlsWithCode shortCode db)

/-- Whether a URL has an expiry in the past. -/
def isExpired (url : Url) (now : ℤ) : Bool :=
  match url.expiresAt with
  | none => false
  | some expiresAt => decide (expiresAt ≤ now)

/-- The arguments of a click-recording task. -/
structure ClickArgs where
  shortCode : String
  referrer : Option String
  userAgent : Option String
  clientIpHash : Option String
  deriving DecidableEq, Repr

/-- The first statement of a recording: bump the aggregate counter.  The event itself is only
flushed at the commit. -/
def bumpClickCount (t : SessionId) (click : ClickArgs) (db : Database) : Reply Unit :=
  if !isText click.shortCode then .error .data
  else
    match TxStore.update Url.shortCode t click.shortCode Url.bump db.store with
    | .violation => .error .integrity
    | .wait => .wait
    | .done store => .ok () { db with store := store }

/-- The flush at the commit of a recording: insert the event. -/
def insertClickEvent (t : SessionId) (click : ClickArgs) (now : ℤ) (idGap : ℕ) (db : Database) :
    Reply ClickEvent :=
  let event : ClickEvent :=
    { id := db.clickEventsIdSeq + idGap
      shortCode := click.shortCode
      clickedAt := now
      referrer := click.referrer
      userAgent := click.userAgent
      clientIpHash := click.clientIpHash }
  if !event.isStorable then .error .data
  else .ok event
    { db with store := TxStore.append t event db.store, clickEventsIdSeq := event.id + 1 }

/-- `ORDER BY`: the server's order, if it is one of those the query allows. -/
def orderBy {α : Type} [DecidableEq α] (le : α → α → Bool) (serverOrder rows : List α) : List α :=
  if serverOrder.Perm rows ∧ serverOrder.Pairwise fun a b => le a b = true then serverOrder
  else rows.mergeSort le

/-- The most recent clicks of a code, newest first. -/
def getRecentClicks (shortCode : String) (limit : ℕ) (serverOrder : List ClickEvent)
    (db : Database) : Except DbError (List ClickEvent) :=
  if !isText shortCode then .error .data
  else .ok ((orderBy (fun a b => decide (b.clickedAt ≤ a.clickedAt)) serverOrder
    (clicksWithCode shortCode db)).take limit)

/-- `GROUP BY referrer`, with the size of each group. -/
def referrerCounts (events : List ClickEvent) : List (Option String × ℕ) :=
  (events.map ClickEvent.referrer).dedup.map fun r => (r, events.countP fun e => e.referrer = r)

/-- The referrers of a code with their counts, most frequent first. -/
def getTopReferrers (shortCode : String) (limit : ℕ) (serverOrder : List (Option String × ℕ))
    (db : Database) : Except DbError (List (Option String × ℕ)) :=
  if !isText shortCode then .error .data
  else .ok ((orderBy (fun a b => decide (b.2 ≤ a.2)) serverOrder
    (referrerCounts (clicksWithCode shortCode db))).take limit)

/-! ## What the reads answer -/

theorem codeExists_eq (shortCode : String) (db : Database) :
    codeExists shortCode db =
      if isText shortCode then .ok (db.find shortCode).isSome else .error .data := by
  have hfind : db.find shortCode = (urlsWithCode shortCode db).head? := by
    rw [urlsWithCode, List.head?_filter]
    rfl
  rw [hfind, codeExists]
  cases isText shortCode <;> cases urlsWithCode shortCode db <;> rfl

/-- **At most one row has a code**, so the lookup never finds several. -/
theorem getUrl_eq {db : Database} (hdb : db.Wf) (shortCode : String) :
    getUrl shortCode db = if isText shortCode then .ok (db.find shortCode) else .error .data := by
  have hrows : ∀ rows : List Url, (rows.map Url.shortCode).Nodup →
      scalarOneOrNone (rows.filter fun u => u.shortCode = shortCode) =
        .ok (rows.find? fun u => u.shortCode = shortCode) := by
    intro rows hnd
    induction rows with
    | nil => rfl
    | cons u rows ih =>
      rw [List.map_cons, List.nodup_cons] at hnd
      by_cases hu : u.shortCode = shortCode
      · have hrest : rows.filter (fun u => u.shortCode = shortCode) = [] := by
          rw [List.filter_eq_nil_iff]
          intro v hv
          have hne : v.shortCode ≠ u.shortCode := fun h => hnd.1 (h ▸ List.mem_map_of_mem hv)
          simpa [hu] using hne
        rw [List.filter_cons_of_pos (by simpa using hu), hrest,
          List.find?_cons_of_pos (by simpa using hu)]
        rfl
      · rw [List.filter_cons_of_neg (by simpa using hu),
          List.find?_cons_of_neg (by simpa using hu)]
        exact ih hnd.2
  rw [getUrl]
  cases isText shortCode with
  | false => rfl
  | true => exact hrows db.urls hdb.keys

/-! ## What the statistics list -/

/-- **`ORDER BY` ranks the rows**, whichever of the orders it allows the server has taken. -/
theorem topOf_orderBy {α : Type} [DecidableEq α] (le : α → α → Bool)
    (htrans : ∀ a b c, le a b = true → le b c = true → le a c = true)
    (htotal : ∀ a b, (le a b || le b a) = true) (serverOrder rows : List α) (limit : ℕ) :
    Ranking.TopOf (fun a b => le a b = true) limit rows
      ((orderBy le serverOrder rows).take limit) := by
  unfold orderBy
  split
  · rename_i hserver
    exact Ranking.topOf_take hserver.1 hserver.2 limit
  · exact Ranking.topOf_take (List.mergeSort_perm rows le)
      (List.pairwise_mergeSort htrans htotal rows) limit

theorem topOf_getRecentClicks {shortCode : String} {limit : ℕ}
    {serverOrder recent : List ClickEvent} {db : Database}
    (h : getRecentClicks shortCode limit serverOrder db = .ok recent) :
    Ranking.TopOf (fun a b => b.clickedAt ≤ a.clickedAt) limit (clicksWithCode shortCode db)
      recent := by
  unfold getRecentClicks at h
  split at h
  · cases h
  · cases h
    have htop := topOf_orderBy (fun a b : ClickEvent => decide (b.clickedAt ≤ a.clickedAt))
      (fun a b c => by simp only [decide_eq_true_eq]; omega)
      (fun a b => by simp only [Bool.or_eq_true, decide_eq_true_eq]; omega)
      serverOrder (clicksWithCode shortCode db) limit
    simpa only [decide_eq_true_eq] using htop

theorem referrerCounts_eq (events : List ClickEvent) :
    referrerCounts events = Ranking.groupSizes ClickEvent.referrer events := rfl

theorem topOf_getTopReferrers {shortCode : String} {limit : ℕ}
    {serverOrder top : List (Option String × ℕ)} {db : Database}
    (h : getTopReferrers shortCode limit serverOrder db = .ok top) :
    Ranking.TopOf (fun a b => b.2 ≤ a.2) limit
      (Ranking.groupSizes ClickEvent.referrer (clicksWithCode shortCode db)) top := by
  unfold getTopReferrers at h
  split at h
  · cases h
  · cases h
    have htop := topOf_orderBy (fun a b : Option String × ℕ => decide (b.2 ≤ a.2))
      (fun a b c => by simp only [decide_eq_true_eq]; omega)
      (fun a b => by simp only [Bool.or_eq_true, decide_eq_true_eq]; omega)
      serverOrder (referrerCounts (clicksWithCode shortCode db)) limit
    rw [← referrerCounts_eq]
    simpa only [decide_eq_true_eq] using htop

/-! ## What the writes do -/

/-- Everything an insert of a URL does when it succeeds. -/
structure Created (t : SessionId) (shortCode longUrl : String) (expiresAt : Option ℤ)
    (clientId : Option String) (db : Database) (url : Url) (db' : Database) : Prop where
  shortCode : url.shortCode = shortCode
  longUrl : url.longUrl = longUrl
  expiresAt : url.expiresAt = expiresAt
  clientId : url.clientId = clientId
  clickCount : url.clickCount = 0
  wf : db.Wf → db'.Wf
  own : ∀ t', db'.own t' = if t = t' then db.own t' ++ [.insert url] else db.own t'
  urls : db'.urls = db.urls
  clickEvents : db'.clickEvents = db.clickEvents

theorem createUrl_ok {t : SessionId} {shortCode longUrl : String} {expiresAt : Option ℤ}
    {clientId : Option String} {now : ℤ} {idGap : ℕ} {db db' : Database} {url : Url}
    (h : createUrl t shortCode longUrl expiresAt clientId now idGap db = .ok url db') :
    Created t shortCode longUrl expiresAt clientId db url db' := by
  unfold createUrl at h
  dsimp only at h
  split at h
  · cases h
  · split at h
    · cases h
    · cases h
    · rename_i store hinsert
      cases h
      have hstore := hinsert
      unfold TxStore.insert at hstore
      split at hstore
      · cases hstore
      · split at hstore
        · cases hstore
        · cases hstore
          exact
            { shortCode := rfl
              longUrl := rfl
              expiresAt := rfl
              clientId := rfl
              clickCount := rfl
              wf := fun hdb => hdb.insert hinsert
              own := fun t' => TxStore.own_snoc _ _ _ _
              urls := rfl
              clickEvents := rfl }

/-- **What the exceptions of an insert mean.**  An integrity error is a committed row with the
code; a data error is a row that the columns do not accept. -/
theorem createUrl_error {t : SessionId} {shortCode longUrl : String} {expiresAt : Option ℤ}
    {clientId : Option String} {now : ℤ} {idGap : ℕ} {db : Database} {e : DbError}
    (h : createUrl t shortCode longUrl expiresAt clientId now idGap db = .error e) :
    e = .integrity ∧ (db.find shortCode).isSome ∨
      e = .data ∧ (isVarchar 10 shortCode && isText longUrl &&
        clientId.all (isVarchar 64)) = false := by
  unfold createUrl at h
  dsimp only at h
  split at h
  · rename_i hstorable
    cases h
    rw [Bool.not_eq_true'] at hstorable
    exact Or.inr ⟨rfl, hstorable⟩
  · split at h
    · rename_i hinsert
      cases h
      unfold TxStore.insert at hinsert
      split at hinsert
      · rename_i hfind
        exact Or.inl ⟨rfl, hfind⟩
      · split at hinsert <;> cases hinsert
    · cases h
    · cases h

/-- A client identifier that its column refuses fails the insert, whatever the rest of the row. -/
theorem createUrl_of_not_isVarchar {clientId : String} (h : isVarchar 64 clientId = false)
    (t : SessionId) (shortCode longUrl : String) (expiresAt : Option ℤ) (now : ℤ) (idGap : ℕ)
    (db : Database) :
    createUrl t shortCode longUrl expiresAt (some clientId) now idGap db = .error .data := by
  unfold createUrl
  dsimp only
  rw [if_pos]
  simp [Url.isStorable, h]

/-- An insert of a storable row under a free code succeeds. -/
theorem exists_createUrl_ok {shortCode longUrl clientId : String} {db : Database}
    (hcode : isVarchar 10 shortCode = true) (hlong : isText longUrl = true)
    (hclient : isVarchar 64 clientId = true) (hfind : db.find shortCode = none)
    (hfree : db.held shortCode = false) (t : SessionId)
    (expiresAt : Option ℤ) (now : ℤ) (idGap : ℕ) :
    ∃ url db', createUrl t shortCode longUrl expiresAt (some clientId) now idGap db =
      .ok url db' := by
  unfold createUrl
  dsimp only
  rw [if_neg (by simp [Url.isStorable, hcode, hlong, hclient])]
  unfold TxStore.insert
  dsimp only
  rw [show TxStore.find Url.shortCode db.store shortCode = none from hfind,
    show TxStore.held Url.shortCode db.store shortCode = false from hfree]
  exact ⟨_, _, rfl⟩

/-- An insert waits only for an open session that holds the code. -/
theorem createUrl_wait {t : SessionId} {shortCode longUrl : String} {expiresAt : Option ℤ}
    {clientId : Option String} {now : ℤ} {idGap : ℕ} {db : Database}
    (h : createUrl t shortCode longUrl expiresAt clientId now idGap db = .wait) :
    db.find shortCode = none ∧ db.held shortCode = true := by
  unfold createUrl at h
  dsimp only at h
  split at h
  · cases h
  · split at h
    · cases h
    · rename_i hinsert
      unfold TxStore.insert at hinsert
      split at hinsert
      · cases hinsert
      · rename_i hfind
        split at hinsert
        · rename_i hheld
          exact ⟨Option.not_isSome_iff_eq_none.mp hfind, hheld⟩
        · cases hinsert
    · cases h

/-- Everything the counter update does when it succeeds: without a committed row, nothing. -/
structure Bumped (t : SessionId) (shortCode : String) (db db' : Database) : Prop where
  wf : db.Wf → db'.Wf
  own : ∀ t', db'.own t' = if t = t' then
    db.own t' ++ ((db.find shortCode).map fun u => TxStore.Write.update u.bump).toList
    else db.own t'
  urls : db'.urls = db.urls
  clickEvents : db'.clickEvents = db.clickEvents

theorem bumpClickCount_ok {t : SessionId} {click : ClickArgs} {db db' : Database}
    (h : bumpClickCount t click db = .ok () db') : Bumped t click.shortCode db db' := by
  unfold bumpClickCount at h
  split at h
  · cases h
  · split at h
    · cases h
    · cases h
    · rename_i store hupdate
      cases h
      have hwf : db.Wf → Database.Wf { db with store := store } :=
        fun hdb => TxStore.Wf.update (f := Url.bump) (fun _ => rfl) hdb hupdate
      unfold TxStore.update at hupdate
      split at hupdate
      · rename_i hfind
        have hnone : db.find click.shortCode = none := hfind
        cases hupdate
        refine ⟨hwf, fun t' => ?_, rfl, rfl⟩
        rw [hnone]
        simp
      · rename_i u hfind
        have hsome : db.find click.shortCode = some u := hfind
        split at hupdate
        · cases hupdate
        · cases hupdate
          refine ⟨hwf, fun t' => ?_, rfl, rfl⟩
          rw [hsome]
          exact TxStore.own_snoc _ _ _ _

/-- A counter update waits only for an open session that holds the code. -/
theorem bumpClickCount_wait {t : SessionId} {click : ClickArgs} {db : Database}
    (h : bumpClickCount t click db = .wait) : db.held click.shortCode = true := by
  unfold bumpClickCount at h
  split at h
  · cases h
  · split at h
    · cases h
    · rename_i hupdate
      unfold TxStore.update at hupdate
      split at hupdate
      · cases hupdate
      · split at hupdate
        · rename_i hheld
          exact hheld
        · cases hupdate
    · cases h

/-- Everything the insert of a click event does when it succeeds. -/
structure Inserted (t : SessionId) (click : ClickArgs) (db : Database) (event : ClickEvent)
    (db' : Database) : Prop where
  shortCode : event.shortCode = click.shortCode
  clientIpHash : event.clientIpHash = click.clientIpHash
  wf : db.Wf → db'.Wf
  own : ∀ t', db'.own t' = if t = t' then db.own t' ++ [.append event] else db.own t'
  urls : db'.urls = db.urls
  clickEvents : db'.clickEvents = db.clickEvents

theorem insertClickEvent_ok {t : SessionId} {click : ClickArgs} {now : ℤ} {idGap : ℕ}
    {db db' : Database} {event : ClickEvent}
    (h : insertClickEvent t click now idGap db = .ok event db') :
    Inserted t click db event db' := by
  unfold insertClickEvent at h
  dsimp only at h
  split at h
  · cases h
  · cases h
    exact
      { shortCode := rfl
        clientIpHash := rfl
        wf := fun hdb => hdb.append t _
        own := fun t' => TxStore.own_snoc _ _ _ _
        urls := rfl
        clickEvents := rfl }

/-- Whether the columns of `click_events` accept a click. -/
def ClickArgs.isStorable (click : ClickArgs) : Bool :=
  isVarchar 10 click.shortCode && click.referrer.all isText && click.userAgent.all isText &&
    click.clientIpHash.all (isVarchar 64)

/-- **The insert of a click event** is up to the columns, and waits for nobody. -/
theorem insertClickEvent_cases (t : SessionId) (click : ClickArgs) (now : ℤ) (idGap : ℕ)
    (db : Database) :
    (click.isStorable = true ∧
        ∃ event db', insertClickEvent t click now idGap db = .ok event db') ∨
      (click.isStorable = false ∧ insertClickEvent t click now idGap db = .error .data) := by
  unfold insertClickEvent
  dsimp only
  split
  · rename_i hrejected
    change (!click.isStorable) = true at hrejected
    rw [Bool.not_eq_true'] at hrejected
    exact Or.inr ⟨hrejected, rfl⟩
  · rename_i haccepted
    change ¬ (!click.isStorable) = true at haccepted
    rw [Bool.not_eq_true', Bool.not_eq_false] at haccepted
    exact Or.inl ⟨haccepted, _, _, rfl⟩

/-- The counter update fails only for a code that the events cannot hold either. -/
theorem bumpClickCount_error {t : SessionId} {click : ClickArgs} {db : Database} {error : DbError}
    (h : bumpClickCount t click db = .error error) : click.isStorable = false := by
  unfold bumpClickCount at h
  split at h
  · rename_i htext
    rw [Bool.not_eq_true'] at htext
    rw [ClickArgs.isStorable, isVarchar, htext, Bool.and_false, Bool.false_and, Bool.false_and,
      Bool.false_and]
  · split at h
    · rename_i hupdate
      unfold TxStore.update at hupdate
      split at hupdate
      · cases hupdate
      · split at hupdate <;> cases hupdate
    · cases h
    · cases h

end Repository
end UrlShortener
