import UrlShortener.Db.Models
import UrlShortener.Library.TxStore

/-!
# The database and its sessions

The database is a read-committed store: the committed rows of `urls` under their unique code, the
committed `click_events`, and the writes of the sessions that are still open.  Every request has a
session of its own, and so has every click that is recorded in the background.

A statement fails, waits for another session, or answers.  Failing leaves the data as it is; the
session still has to roll back.
-/

set_option autoImplicit false

namespace UrlShortener

/-- The session of a request, or of the background task of that request. -/
inductive SessionId where
  | request : ℕ → SessionId
  | background : ℕ → SessionId
  deriving DecidableEq, Repr

/-- What a statement raises, as far as the callers tell the exceptions apart. -/
inductive DbError where
  /-- A unique index rejected the row. -/
  | integrity : DbError
  /-- A value does not fit its column or its type. -/
  | data : DbError
  /-- More than one row where at most one was asked for. -/
  | multipleResults : DbError
  /-- No answer from the server. -/
  | unavailable : DbError
  deriving DecidableEq, Repr

/-- The two tables, the open writes, and the sequences behind the surrogate keys. -/
structure Database where
  store : TxStore.Store Url ClickEvent SessionId
  urlsIdSeq : ℕ
  clickEventsIdSeq : ℕ

namespace Database

/-- The schema right after the initial migration. -/
def initial : Database := ⟨TxStore.empty, 1, 1⟩

/-- The committed row of a code. -/
def find (db : Database) (code : String) : Option Url := TxStore.find Url.shortCode db.store code

/-- The committed rows of `urls`. -/
def urls (db : Database) : List Url := db.store.rows

/-- The committed rows of `click_events`. -/
def clickEvents (db : Database) : List ClickEvent := db.store.log

/-- The open writes of a session. -/
def own (db : Database) (t : SessionId) : List (TxStore.Write Url ClickEvent) :=
  TxStore.own t db.store

/-- Whether an open session holds a code. -/
def held (db : Database) (code : String) : Bool := TxStore.held Url.shortCode db.store code

/-- Commit a session. -/
def commit (t : SessionId) (db : Database) : Database :=
  { db with store := TxStore.commit Url.shortCode t db.store }

/-- Roll a session back. -/
def rollback (t : SessionId) (db : Database) : Database :=
  { db with store := TxStore.rollback t db.store }

/-- The database invariant: unique codes, and open writes that never overwrite one another. -/
def Wf (db : Database) : Prop := TxStore.Wf Url.shortCode Url.bump db.store

theorem wf_initial : Wf initial := TxStore.wf_empty Url.shortCode Url.bump

theorem Wf.commit {db : Database} (h : db.Wf) (t : SessionId) : (db.commit t).Wf :=
  TxStore.Wf.commit h t

theorem Wf.rollback {db : Database} (h : db.Wf) (t : SessionId) : (db.rollback t).Wf :=
  TxStore.Wf.rollback h t

@[simp] theorem find_rollback (db : Database) (t : SessionId) (code : String) :
    (db.rollback t).find code = db.find code := rfl

@[simp] theorem urls_rollback (db : Database) (t : SessionId) :
    (db.rollback t).urls = db.urls := rfl

@[simp] theorem clickEvents_rollback (db : Database) (t : SessionId) :
    (db.rollback t).clickEvents = db.clickEvents := rfl

theorem own_rollback (db : Database) (t t' : SessionId) :
    (db.rollback t').own t = if t' = t then [] else db.own t := TxStore.own_filter _ _ _

theorem own_commit (db : Database) (t t' : SessionId) :
    (db.commit t').own t = if t' = t then [] else db.own t := TxStore.own_commit _ _ _ _

theorem urls_commit (db : Database) (t : SessionId) :
    (db.commit t).urls = (db.own t).foldl (TxStore.applyRow Url.shortCode) db.urls := rfl

theorem clickEvents_commit (db : Database) (t : SessionId) :
    (db.commit t).clickEvents = db.clickEvents ++ TxStore.entries (db.own t) := rfl

/-- Readers see the committed rows and nothing else. -/
theorem find_congr {db db' : Database} (h : db'.urls = db.urls) (code : String) :
    db'.find code = db.find code := by
  show db'.urls.find? _ = db.urls.find? _
  rw [h]

/-- Every committed link is still there, as it was. -/
def LinksStay (db db' : Database) : Prop :=
  ∀ code u, db.find code = some u → ∃ u', db'.find code = some u' ∧ u'.link = u.link

theorem LinksStay.refl (db : Database) : LinksStay db db := fun _ u hu => ⟨u, hu, rfl⟩

theorem LinksStay.trans {a b c : Database} (hab : LinksStay a b) (hbc : LinksStay b c) :
    LinksStay a c := by
  intro code u hu
  obtain ⟨v, hv, hvu⟩ := hab code u hu
  obtain ⟨w, hw, hwv⟩ := hbc code v hv
  exact ⟨w, hw, hwv.trans hvu⟩

/-- A code in use stays in use. -/
theorem LinksStay.isSome_find {db db' : Database} (h : LinksStay db db') {code : String}
    (hcode : (db.find code).isSome = true) : (db'.find code).isSome = true := by
  obtain ⟨u, hu⟩ := Option.isSome_iff_exists.mp hcode
  obtain ⟨u', hu', -⟩ := h code u hu
  rw [hu']
  rfl

theorem linksStay_of_urls {db db' : Database} (h : db'.urls = db.urls) : LinksStay db db' :=
  fun code u hu => ⟨u, (find_congr h code).trans hu, rfl⟩

/-- **A commit never removes or rewrites a link.** -/
theorem Wf.linksStay_commit {db : Database} (h : db.Wf) (t : SessionId) :
    LinksStay db (db.commit t) := by
  intro code u hu
  rcases TxStore.Wf.find_commit_of_find h t hu with hsame | hbump
  · exact ⟨u, hsame, rfl⟩
  · exact ⟨u.bump, hbump, rfl⟩

/-- A committed row is the row of its code. -/
theorem Wf.find_of_mem {db : Database} (h : db.Wf) {u : Url} (hu : u ∈ db.urls) :
    db.find u.shortCode = some u := TxStore.find?_eq_some_of_mem Url.shortCode h.keys hu

theorem urls_commit_insert {db : Database} {t : SessionId} {u : Url}
    (hown : db.own t = [.insert u]) : (db.commit t).urls = db.urls ++ [u] := by
  rw [urls_commit, hown]
  rfl

theorem clickEvents_commit_insert {db : Database} {t : SessionId} {u : Url}
    (hown : db.own t = [.insert u]) : (db.commit t).clickEvents = db.clickEvents := by
  rw [clickEvents_commit, hown]
  exact List.append_nil _

theorem urls_commit_nil {db : Database} {t : SessionId} (hown : db.own t = []) :
    (db.commit t).urls = db.urls := by
  rw [urls_commit, hown]
  rfl

theorem clickEvents_commit_nil {db : Database} {t : SessionId} (hown : db.own t = []) :
    (db.commit t).clickEvents = db.clickEvents := by
  rw [clickEvents_commit, hown]
  exact List.append_nil _

/-- **A recorded click bumps the row of its code**: the row that is committed now, not the one the
session read. -/
theorem Wf.urls_commit_recording {db : Database} (h : db.Wf) {t : SessionId} {u : Url}
    {e : ClickEvent} (hown : db.own t = [.update u, .append e]) :
    (db.commit t).urls =
      db.urls.map fun x => if x.shortCode = u.shortCode then x.bump else x := by
  have hmem : (t, TxStore.Write.update u) ∈ db.store.pending :=
    TxStore.mem_own.mp (by rw [show TxStore.own t db.store = _ from hown]; simp)
  obtain ⟨u₀, hu₀, rfl⟩ := h.updates t u hmem
  rw [urls_commit, hown]
  apply List.map_congr_left
  intro x hx
  show (if x.shortCode = u₀.shortCode then u₀.bump else x) =
    if x.shortCode = u₀.shortCode then x.bump else x
  by_cases hcode : x.shortCode = u₀.shortCode
  · have hfind : db.find u₀.shortCode = some x := hcode ▸ h.find_of_mem hx
    obtain rfl : u₀ = x := Option.some.inj (hu₀.symm.trans hfind)
    rfl
  · rw [if_neg hcode, if_neg hcode]

theorem clickEvents_commit_recording {db : Database} {t : SessionId} {u : Url} {e : ClickEvent}
    (hown : db.own t = [.update u, .append e]) :
    (db.commit t).clickEvents = db.clickEvents ++ [e] := by
  rw [clickEvents_commit, hown]
  rfl

/-- A session that ends frees the code it has inserted. -/
theorem Wf.held_rollback {db : Database} (h : db.Wf) {t : SessionId} {u : Url}
    (hu : TxStore.Write.insert u ∈ db.own t) : (db.rollback t).held u.shortCode = false :=
  TxStore.Wf.held_rollback h (TxStore.mem_own.mp hu) rfl

theorem Wf.held_commit {db : Database} (h : db.Wf) {t : SessionId} {u : Url}
    (hu : TxStore.Write.insert u ∈ db.own t) : (db.commit t).held u.shortCode = false :=
  TxStore.Wf.held_rollback h (TxStore.mem_own.mp hu) rfl

/-- A held code without a committed row has been inserted by an open session. -/
theorem Wf.exists_insert_of_held {db : Database} (h : db.Wf) {code : String}
    (hheld : db.held code = true) (hfind : db.find code = none) :
    ∃ t u, TxStore.Write.insert u ∈ db.own t ∧ u.shortCode = code := by
  obtain ⟨⟨t, w⟩, hmem, hkey⟩ := List.any_eq_true.mp hheld
  have hkey : w.key? Url.shortCode = some code := of_decide_eq_true hkey
  cases w with
  | insert u => exact ⟨t, u, TxStore.mem_own.mpr hmem, Option.some.inj hkey⟩
  | update u =>
    obtain ⟨u₀, hu₀, -⟩ := h.updates t u hmem
    rw [Option.some.inj hkey] at hu₀
    cases hfind.symm.trans hu₀
  | append e => cases hkey

theorem find_shortCode {db : Database} {code : String} {u : Url} (h : db.find code = some u) :
    u.shortCode = code := TxStore.find?_key_eq_some Url.shortCode h

end Database

/-- What a statement comes to. -/
inductive Reply (α : Type) where
  | error : DbError → Reply α
  | wait : Reply α
  | ok : α → Database → Reply α

end UrlShortener
