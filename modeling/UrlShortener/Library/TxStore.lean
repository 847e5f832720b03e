import Mathlib.Data.List.Basic
import Mathlib.Data.List.Nodup

/-!
# A read-committed store: one keyed table and one append-only log

The store holds the committed rows of a table with a unique key, a committed log, and the writes
of the transactions that are still open.  Readers see committed data only.  An open transaction
holds the keys it has written:

* inserting a committed key is a violation, inserting a held key waits;
* updating a committed row waits while its key is held, and updating a key without a committed row
  writes nothing;
* a commit applies all writes of its transaction at once, a rollback drops them.

A transaction writes each key at most once here, so a key it holds itself also makes it wait.

## What is proved

`Wf` collects what every reachable store satisfies: committed keys are unique, no key is held
twice, a pending insert is of a new key, and a pending update holds the *current* row, changed by
`f`.  The last clause is what rules out a lost update.  Every operation preserves `Wf`
(`Wf.insert`, `Wf.update`, `Wf.append`, `Wf.commit`, `Wf.rollback`).  `find_commit` says what a
commit does to the committed row of a key, and `find_commit_of_find` that a committed row stays,
possibly changed by `f`.
-/

set_option autoImplicit false

namespace UrlShortener
namespace TxStore

variable {K R E T : Type*}

/-- An uncommitted write: a new row, the new version of a committed row, or a log entry. -/
inductive Write (R E : Type*) where
  | insert : R → Write R E
  | update : R → Write R E
  | append : E → Write R E
  deriving DecidableEq

/-- The committed rows, the committed log, and the writes of open transactions. -/
structure Store (R E T : Type*) where
  rows : List R
  log : List E
  pending : List (T × Write R E)

/-- The store with no data and no open transaction. -/
def empty : Store R E T := ⟨[], [], []⟩

/-- What a write attempt comes to. -/
inductive Outcome (α : Type*) where
  | violation : Outcome α
  | wait : Outcome α
  | done : α → Outcome α

variable [DecidableEq K] [DecidableEq T] (key : R → K)

/-- The key a write holds. -/
def Write.key? : Write R E → Option K
  | .insert r => some (key r)
  | .update r => some (key r)
  | .append _ => none

/-- The committed row of a key. -/
def find (s : Store R E T) (k : K) : Option R :=
  s.rows.find? fun r => decide (key r = k)

/-- Whether an open transaction holds a key. -/
def held (s : Store R E T) (k : K) : Bool :=
  s.pending.any fun p => decide (p.2.key? key = some k)

/-- Insert a row. -/
def insert (t : T) (r : R) (s : Store R E T) : Outcome (Store R E T) :=
  if (find key s (key r)).isSome then .violation
  else if held key s (key r) then .wait
  else .done { s with pending := s.pending ++ [(t, .insert r)] }

/-- Update the row of a key.  Without a committed row there is nothing to write. -/
def update (t : T) (k : K) (f : R → R) (s : Store R E T) : Outcome (Store R E T) :=
  match find key s k with
  | none => .done s
  | some r =>
      if held key s k then .wait
      else .done { s with pending := s.pending ++ [(t, .update (f r))] }

/-- Append to the log. -/
def append (t : T) (e : E) (s : Store R E T) : Store R E T :=
  { s with pending := s.pending ++ [(t, .append e)] }

/-- The writes of a transaction, oldest first. -/
def own (t : T) (s : Store R E T) : List (Write R E) :=
  s.pending.filterMap fun p => if p.1 = t then some p.2 else none

/-- The table after a write becomes visible. -/
def applyRow (rows : List R) : Write R E → List R
  | .insert r => rows ++ [r]
  | .update r => rows.map fun x => if key x = key r then r else x
  | .append _ => rows

/-- The log entries among some writes. -/
def entries (ws : List (Write R E)) : List E :=
  ws.filterMap fun w => match w with
    | .append e => some e
    | _ => none

/-- Drop the writes of a transaction. -/
def rollback (t : T) (s : Store R E T) : Store R E T :=
  { s with pending := s.pending.filter fun p => p.1 ≠ t }

/-- Make the writes of a transaction visible, all at once. -/
def commit (t : T) (s : Store R E T) : Store R E T where
  rows := (own t s).foldl (applyRow key) s.rows
  log := s.log ++ entries (own t s)
  pending := s.pending.filter fun p => p.1 ≠ t

/-! ## Pending writes -/

omit [DecidableEq K] in
theorem mem_own {t : T} {s : Store R E T} {w : Write R E} :
    w ∈ own t s ↔ (t, w) ∈ s.pending := by
  unfold own
  rw [List.mem_filterMap]
  constructor
  · rintro ⟨⟨t', w'⟩, hmem, hw⟩
    by_cases ht : t' = t
    · rw [if_pos ht, Option.some.injEq] at hw
      rw [← ht, ← hw]
      exact hmem
    · rw [if_neg ht] at hw
      exact absurd hw (by simp)
  · intro h
    exact ⟨(t, w), h, by simp⟩

omit [DecidableEq T] in
theorem held_eq_false_iff {s : Store R E T} {k : K} :
    held key s k = false ↔ ∀ p ∈ s.pending, p.2.key? key ≠ some k := by
  simp [held]

/-! ## Finding a row after writes -/

theorem find?_key_eq_some {rows : List R} {k : K} {r : R}
    (h : rows.find? (fun x => decide (key x = k)) = some r) : key r = k := by
  simpa using List.find?_some h

/-- The row of a key is the only row with that key. -/
theorem find?_eq_some_of_mem {rows : List R} (hnd : (rows.map key).Nodup) {r : R}
    (hr : r ∈ rows) : rows.find? (fun x => decide (key x = key r)) = some r := by
  induction rows with
  | nil => simp at hr
  | cons x rows ih =>
    rw [List.map_cons, List.nodup_cons] at hnd
    by_cases hx : key x = key r
    · rcases List.mem_cons.mp hr with rfl | hmem
      · rw [List.find?_cons_of_pos (by simp)]
      · exact absurd (hx ▸ List.mem_map_of_mem hmem) hnd.1
    · rw [List.find?_cons_of_neg (by simpa using hx)]
      rcases List.mem_cons.mp hr with rfl | hmem
      · exact absurd rfl hx
      · exact ih hnd.2 hmem

theorem find?_eq_none_iff {rows : List R} {k : K} :
    rows.find? (fun x => decide (key x = k)) = none ↔ k ∉ rows.map key := by
  rw [List.find?_eq_none]
  simp only [decide_eq_true_eq, List.mem_map, not_exists, not_and]

/-- A write leaves the rows of other keys alone. -/
theorem find?_applyRow_of_ne {rows : List R} {w : Write R E} {k : K}
    (h : w.key? key ≠ some k) :
    (applyRow key rows w).find? (fun x => decide (key x = k)) =
      rows.find? (fun x => decide (key x = k)) := by
  cases w with
  | append e => rfl
  | insert r =>
    have hk : key r ≠ k := fun hk => h (by rw [Write.key?, hk])
    rw [applyRow, List.find?_append, List.find?_cons_of_neg (by simpa using hk), List.find?_nil,
      Option.or_none]
  | update r =>
    have hk : key r ≠ k := fun hk => h (by rw [Write.key?, hk])
    rw [applyRow]
    induction rows with
    | nil => rfl
    | cons x rows ih =>
      rw [List.map_cons]
      by_cases hx : key x = key r
      · rw [if_pos hx, List.find?_cons_of_neg (by simpa using hk),
          List.find?_cons_of_neg (by simpa [hx] using hk), ih]
      · rw [if_neg hx]
        by_cases hxk : key x = k
        · rw [List.find?_cons_of_pos (by simpa using hxk),
            List.find?_cons_of_pos (by simpa using hxk)]
        · rw [List.find?_cons_of_neg (by simpa using hxk),
            List.find?_cons_of_neg (by simpa using hxk), ih]

/-- After an insert of a new key, the inserted row is found. -/
theorem find?_applyRow_insert {rows : List R} {r : R}
    (h : rows.find? (fun x => decide (key x = key r)) = none) :
    (applyRow key rows (Write.insert r : Write R E)).find? (fun x => decide (key x = key r)) =
      some r := by
  rw [applyRow, List.find?_append, h, List.find?_cons_of_pos (by simp), Option.none_or]

/-- After an update of a committed row, the new version is found. -/
theorem find?_applyRow_update {rows : List R} {r r₀ : R}
    (h : rows.find? (fun x => decide (key x = key r)) = some r₀) :
    (applyRow key rows (Write.update r : Write R E)).find? (fun x => decide (key x = key r)) =
      some r := by
  rw [applyRow]
  induction rows with
  | nil => simp at h
  | cons x rows ih =>
    rw [List.map_cons]
    by_cases hx : key x = key r
    · rw [if_pos hx, List.find?_cons_of_pos (by simp)]
    · rw [if_neg hx, List.find?_cons_of_neg (by simpa using hx)]
      rw [List.find?_cons_of_neg (by simpa using hx)] at h
      exact ih h

/-- An update keeps the keys of the table. -/
theorem map_key_applyRow_update (rows : List R) (r : R) :
    (applyRow key rows (Write.update r : Write R E)).map key = rows.map key := by
  rw [applyRow, List.map_map]
  apply List.map_congr_left
  intro x _
  rw [Function.comp_apply]
  split
  · rename_i h
    exact h.symm
  · rfl

/-! ## Several writes in a row -/

/-- What a pending write presupposes of the committed table. -/
def Fits (rows : List R) : Write R E → Prop
  | .insert r => rows.find? (fun x => decide (key x = key r)) = none
  | .update r => ∃ r₀, rows.find? (fun x => decide (key x = key r)) = some r₀
  | .append _ => True

/-- The row a write leaves under its key. -/
def Write.row? : Write R E → Option R
  | .insert r => some r
  | .update r => some r
  | .append _ => none

theorem find?_applyRow_self {rows : List R} {w : Write R E} {r : R} (hw : w.row? = some r)
    (h : Fits key rows w) :
    (applyRow key rows w).find? (fun x => decide (key x = key r)) = some r := by
  cases w with
  | insert r' =>
    obtain rfl : r' = r := by simpa [Write.row?] using hw
    exact find?_applyRow_insert key h
  | update r' =>
    obtain rfl : r' = r := by simpa [Write.row?] using hw
    obtain ⟨r₀, hr₀⟩ := h
    exact find?_applyRow_update key hr₀
  | append e => simp [Write.row?] at hw

/-- A write that holds another key still fits. -/
theorem Fits.applyRow {rows : List R} {w w' : Write R E} (h : Fits key rows w)
    (hne : ∀ k, w.key? key = some k → w'.key? key ≠ some k) :
    Fits key (applyRow key rows w') w := by
  cases w with
  | append e => trivial
  | insert r =>
    rw [Fits, find?_applyRow_of_ne key (hne _ rfl)]
    exact h
  | update r =>
    rw [Fits, find?_applyRow_of_ne key (hne _ rfl)]
    exact h

/-- The keys of the table stay unique under a write that fits. -/
theorem nodup_map_key_applyRow {rows : List R} {w : Write R E} (hnd : (rows.map key).Nodup)
    (h : Fits key rows w) : ((applyRow key rows w).map key).Nodup := by
  cases w with
  | append e => exact hnd
  | update r => rw [map_key_applyRow_update]; exact hnd
  | insert r =>
    rw [applyRow, List.map_append, List.nodup_append]
    refine ⟨hnd, by simp, ?_⟩
    rintro k hk k' hk' rfl
    obtain rfl : k = key r := by simpa using hk'
    exact (find?_eq_none_iff key).mp h hk

theorem find?_foldl_applyRow_of_ne {ws : List (Write R E)} {rows : List R} {k : K}
    (h : ∀ w ∈ ws, w.key? key ≠ some k) :
    (ws.foldl (applyRow key) rows).find? (fun x => decide (key x = k)) =
      rows.find? (fun x => decide (key x = k)) := by
  induction ws generalizing rows with
  | nil => rfl
  | cons w ws ih =>
    rw [List.foldl_cons, ih fun w' hw' => h w' (List.mem_cons_of_mem _ hw'),
      find?_applyRow_of_ne key (h w List.mem_cons_self)]

omit [DecidableEq K] in
/-- When held keys are distinct, a later write does not hold the key of an earlier one. -/
theorem key?_ne_of_nodup {w w' : Write R E} {ws : List (Write R E)}
    (hnd : ((w :: ws).filterMap (Write.key? key)).Nodup) (hw' : w' ∈ ws) (k : K)
    (hk : w'.key? key = some k) : w.key? key ≠ some k := by
  intro hw
  rw [List.filterMap_cons_some hw, List.nodup_cons] at hnd
  exact hnd.1 (List.mem_filterMap.mpr ⟨w', hw', hk⟩)

omit [DecidableEq K] in
theorem nodup_of_nodup_cons {w : Write R E} {ws : List (Write R E)}
    (hnd : ((w :: ws).filterMap (Write.key? key)).Nodup) :
    (ws.filterMap (Write.key? key)).Nodup :=
  hnd.sublist ((List.sublist_cons_self w ws).filterMap _)

/-- **Writes to distinct keys do not overwrite one another.** -/
theorem find?_foldl_applyRow_of_mem {ws : List (Write R E)} {rows : List R}
    (hnd : (ws.filterMap (Write.key? key)).Nodup) (hfit : ∀ w ∈ ws, Fits key rows w)
    {w : Write R E} (hw : w ∈ ws) {r : R} (hr : w.row? = some r) :
    (ws.foldl (applyRow key) rows).find? (fun x => decide (key x = key r)) = some r := by
  have hkey : w.key? key = some (key r) := by
    cases w <;> simp_all [Write.row?, Write.key?]
  induction ws generalizing rows with
  | nil => simp at hw
  | cons w' ws ih =>
    rw [List.foldl_cons]
    rcases List.mem_cons.mp hw with rfl | hmem
    · rw [find?_foldl_applyRow_of_ne key]
      · exact find?_applyRow_self key hr (hfit w List.mem_cons_self)
      · intro w'' hw'' hk
        exact key?_ne_of_nodup key hnd hw'' _ hk hkey
    · refine ih (nodup_of_nodup_cons key hnd) (fun w'' hw'' => ?_) hmem
      exact (hfit w'' (List.mem_cons_of_mem _ hw'')).applyRow key
        fun k hk => key?_ne_of_nodup key hnd hw'' k hk

theorem nodup_map_key_foldl {ws : List (Write R E)} {rows : List R}
    (hnd : (ws.filterMap (Write.key? key)).Nodup) (hfit : ∀ w ∈ ws, Fits key rows w)
    (hrows : (rows.map key).Nodup) : ((ws.foldl (applyRow key) rows).map key).Nodup := by
  induction ws generalizing rows with
  | nil => exact hrows
  | cons w ws ih =>
    rw [List.foldl_cons]
    refine ih (nodup_of_nodup_cons key hnd) (fun w' hw' => ?_)
      (nodup_map_key_applyRow key hrows (hfit w List.mem_cons_self))
    exact (hfit w' (List.mem_cons_of_mem _ hw')).applyRow key
      fun k hk => key?_ne_of_nodup key hnd hw' k hk

/-! ## Well-formed stores -/

section Wf

variable (f : R → R)

/-- The invariant of the store.  `f` is the one change that updates make. -/
structure Wf (s : Store R E T) : Prop where
  /-- Committed keys are unique. -/
  keys : (s.rows.map key).Nodup
  /-- No key is held twice. -/
  locks : (s.pending.filterMap fun p => p.2.key? key).Nodup
  /-- A pending insert is of a new key. -/
  inserts : ∀ t r, (t, Write.insert r) ∈ s.pending → find key s (key r) = none
  /-- A pending update holds the current row, changed by `f`. -/
  updates : ∀ t r, (t, Write.update r) ∈ s.pending → ∃ r₀, find key s (key r) = some r₀ ∧ r = f r₀

omit [DecidableEq T] in
theorem wf_empty : Wf key f (empty : Store R E T) where
  keys := by simp [empty]
  locks := by simp [empty]
  inserts := by simp [empty]
  updates := by simp [empty]

variable {key f}

omit [DecidableEq T] in
/-- Two open writes that hold one key are the same write of the same transaction. -/
theorem Wf.eq_of_key? {s : Store R E T} (h : Wf key f s) {p q : T × Write R E}
    (hp : p ∈ s.pending) (hq : q ∈ s.pending) {k : K} (hpk : p.2.key? key = some k)
    (hqk : q.2.key? key = some k) : p = q := by
  have hlocks := h.locks
  revert hlocks hp hq
  induction s.pending with
  | nil => simp
  | cons x l ih =>
    intro hp hq hnd
    have htail : (l.filterMap fun p => p.2.key? key).Nodup :=
      hnd.sublist ((List.sublist_cons_self x l).filterMap _)
    rcases List.mem_cons.mp hp with hpx | hpl <;> rcases List.mem_cons.mp hq with hqx | hql
    · exact hpx.trans hqx.symm
    · rw [List.filterMap_cons_some (hpx ▸ hpk), List.nodup_cons] at hnd
      exact absurd (List.mem_filterMap.mpr ⟨q, hql, hqk⟩) hnd.1
    · rw [List.filterMap_cons_some (hqx ▸ hqk), List.nodup_cons] at hnd
      exact absurd (List.mem_filterMap.mpr ⟨p, hpl, hpk⟩) hnd.1
    · exact ih hpl hql htail

omit [DecidableEq T] in
theorem Wf.fits {s : Store R E T} (h : Wf key f s) {t : T} {w : Write R E}
    (hw : (t, w) ∈ s.pending) : Fits key s.rows w := by
  cases w with
  | insert r => exact h.inserts t r hw
  | update r =>
    obtain ⟨r₀, hr₀, -⟩ := h.updates t r hw
    exact ⟨r₀, hr₀⟩
  | append e => trivial

theorem Wf.fits_own {s : Store R E T} (h : Wf key f s) (t : T) :
    ∀ w ∈ own t s, Fits key s.rows w := fun _ hw => h.fits (mem_own.mp hw)

theorem Wf.nodup_own {s : Store R E T} (h : Wf key f s) (t : T) :
    ((own t s).filterMap (Write.key? key)).Nodup := by
  have hlocks := h.locks
  unfold own
  rw [List.filterMap_filterMap]
  revert hlocks
  induction s.pending with
  | nil => simp
  | cons p l ih =>
    intro hnd
    have htail := ih (hnd.sublist ((List.sublist_cons_self p l).filterMap _))
    by_cases hp : p.1 = t
    · cases hk : p.2.key? key with
      | none => rwa [List.filterMap_cons_none (by simp [hp, hk])]
      | some k =>
        rw [List.filterMap_cons_some (by simp [hp, hk]; rfl), List.nodup_cons]
        refine ⟨fun hmem => ?_, htail⟩
        have hcons : (p :: l).filterMap (fun p => p.2.key? key) =
            k :: l.filterMap fun p => p.2.key? key := List.filterMap_cons_some hk
        rw [hcons, List.nodup_cons] at hnd
        obtain ⟨q, hq, hqk⟩ := List.mem_filterMap.mp hmem
        refine hnd.1 (List.mem_filterMap.mpr ⟨q, hq, ?_⟩)
        by_cases hqt : q.1 = t
        · simpa [hqt] using hqk
        · simp [hqt] at hqk
    · rwa [List.filterMap_cons_none (by simp [hp])]

/-! ## The operations preserve well-formedness -/

omit [DecidableEq T] in
/-- A new lock on a free key keeps the locks distinct. -/
theorem Wf.nodup_snoc {s : Store R E T} (h : Wf key f s) (t : T) (w : Write R E)
    (hfree : ∀ k, w.key? key = some k → held key s k = false) :
    ((s.pending ++ [(t, w)]).filterMap fun p => p.2.key? key).Nodup := by
  rw [List.filterMap_append, List.nodup_append]
  refine ⟨h.locks, ?_, ?_⟩
  · cases hk : w.key? key <;> simp [hk]
  · rintro k hk k' hk' rfl
    obtain ⟨p, hp, hpk⟩ := List.mem_filterMap.mp hk
    have hwk : w.key? key = some k := by simpa using hk'
    exact (held_eq_false_iff key).mp (hfree k hwk) p hp hpk

omit [DecidableEq T] in
theorem Wf.insert {s s' : Store R E T} (h : Wf key f s) {t : T} {r : R}
    (hs : TxStore.insert key t r s = .done s') : Wf key f s' := by
  unfold TxStore.insert at hs
  split at hs
  · cases hs
  · rename_i hfind
    split at hs
    · cases hs
    · rename_i hheld
      cases hs
      have hnone : find key s (key r) = none := by simpa using hfind
      refine ⟨h.keys, h.nodup_snoc t _ ?_, ?_, ?_⟩
      · intro k hk
        cases hk
        simpa using hheld
      · intro t' r' hmem
        rcases List.mem_append.mp hmem with hmem | hmem
        · exact h.inserts t' r' hmem
        · simp only [List.mem_singleton, Prod.mk.injEq, Write.insert.injEq] at hmem
          rw [hmem.2]
          exact hnone
      · intro t' r' hmem
        rcases List.mem_append.mp hmem with hmem | hmem
        · exact h.updates t' r' hmem
        · simp at hmem

omit [DecidableEq T] in
theorem Wf.update (hf : ∀ r, key (f r) = key r) {s s' : Store R E T} (h : Wf key f s) {t : T}
    {k : K} (hs : TxStore.update key t k f s = .done s') : Wf key f s' := by
  unfold TxStore.update at hs
  split at hs
  · cases hs
    exact h
  · rename_i r₀ hfind
    split at hs
    · cases hs
    · rename_i hheld
      cases hs
      have hk : key r₀ = k := find?_key_eq_some key hfind
      refine ⟨h.keys, h.nodup_snoc t _ ?_, ?_, ?_⟩
      · intro k' hk'
        rw [Write.key?, Option.some.injEq, hf, hk] at hk'
        rw [← hk']
        simpa using hheld
      · intro t' r' hmem
        rcases List.mem_append.mp hmem with hmem | hmem
        · exact h.inserts t' r' hmem
        · simp at hmem
      · intro t' r' hmem
        rcases List.mem_append.mp hmem with hmem | hmem
        · exact h.updates t' r' hmem
        · simp only [List.mem_singleton, Prod.mk.injEq, Write.update.injEq] at hmem
          refine ⟨r₀, ?_, hmem.2⟩
          rw [hmem.2, hf, hk]
          exact hfind

omit [DecidableEq T] in
theorem Wf.append {s : Store R E T} (h : Wf key f s) (t : T) (e : E) :
    Wf key f (TxStore.append t e s) := by
  refine ⟨h.keys, h.nodup_snoc t _ (by simp [Write.key?]), ?_, ?_⟩
  · intro t' r' hmem
    rcases List.mem_append.mp hmem with hmem | hmem
    · exact h.inserts t' r' hmem
    · simp at hmem
  · intro t' r' hmem
    rcases List.mem_append.mp hmem with hmem | hmem
    · exact h.updates t' r' hmem
    · simp at hmem

theorem Wf.rollback {s : Store R E T} (h : Wf key f s) (t : T) :
    Wf key f (TxStore.rollback t s) where
  keys := h.keys
  locks := h.locks.sublist (List.filter_sublist.filterMap _)
  inserts := fun t' r hmem => h.inserts t' r (List.mem_of_mem_filter hmem)
  updates := fun t' r hmem => h.updates t' r (List.mem_of_mem_filter hmem)

/-- A commit does not touch a key that another transaction holds. -/
theorem Wf.find_commit_of_held {s : Store R E T} (h : Wf key f s) {t t' : T} (ht : t' ≠ t)
    {w : Write R E} (hw : (t', w) ∈ s.pending) {k : K} (hk : w.key? key = some k) :
    find key (TxStore.commit key t s) k = find key s k := by
  apply find?_foldl_applyRow_of_ne
  intro w' hw' hk'
  have heq := h.eq_of_key? hw (mem_own.mp hw') hk hk'
  exact ht (congrArg Prod.fst heq)

theorem Wf.commit {s : Store R E T} (h : Wf key f s) (t : T) :
    Wf key f (TxStore.commit key t s) where
  keys := nodup_map_key_foldl key (h.nodup_own t) (h.fits_own t) h.keys
  locks := h.locks.sublist (List.filter_sublist.filterMap _)
  inserts := by
    intro t' r hmem
    obtain ⟨hmem, ht⟩ := List.mem_filter.mp hmem
    rw [h.find_commit_of_held (by simpa using ht) hmem rfl]
    exact h.inserts t' r hmem
  updates := by
    intro t' r hmem
    obtain ⟨hmem, ht⟩ := List.mem_filter.mp hmem
    rw [h.find_commit_of_held (by simpa using ht) hmem rfl]
    exact h.updates t' r hmem

/-- A transaction that ends frees the keys it held. -/
theorem Wf.held_rollback {s : Store R E T} (h : Wf key f s) {t : T} {w : Write R E}
    (hw : (t, w) ∈ s.pending) {k : K} (hk : w.key? key = some k) :
    held key (TxStore.rollback t s) k = false := by
  rw [held_eq_false_iff]
  intro p hp hpk
  obtain ⟨hmem, hne⟩ := List.mem_filter.mp hp
  obtain rfl := h.eq_of_key? hmem hw hpk hk
  simp at hne

/-! ## What a commit does to one key -/

theorem find_commit_of_not_held {s : Store R E T} {t : T} {k : K}
    (hk : ∀ w ∈ own t s, w.key? key ≠ some k) :
    find key (TxStore.commit key t s) k = find key s k :=
  find?_foldl_applyRow_of_ne key hk

/-- A committed write is what readers find. -/
theorem Wf.find_commit {s : Store R E T} (h : Wf key f s) {t : T} {w : Write R E}
    (hw : (t, w) ∈ s.pending) {r : R} (hr : w.row? = some r) :
    find key (TxStore.commit key t s) (key r) = some r :=
  find?_foldl_applyRow_of_mem key (h.nodup_own t) (h.fits_own t) (mem_own.mpr hw) hr

/-- **Committed rows stay.**  A commit keeps the row of a key or changes it by `f`. -/
theorem Wf.find_commit_of_find {s : Store R E T} (h : Wf key f s) (t : T) {k : K} {r : R}
    (hr : find key s k = some r) :
    find key (TxStore.commit key t s) k = some r ∨
      find key (TxStore.commit key t s) k = some (f r) := by
  by_cases hk : ∀ w ∈ own t s, w.key? key ≠ some k
  · exact Or.inl ((find_commit_of_not_held hk).trans hr)
  · push Not at hk
    obtain ⟨w, hw, hwk⟩ := hk
    have hmem := mem_own.mp hw
    cases w with
    | append e => simp [Write.key?] at hwk
    | insert r' =>
      obtain rfl : key r' = k := by simpa [Write.key?] using hwk
      rw [h.inserts t r' hmem] at hr
      cases hr
    | update r' =>
      obtain rfl : key r' = k := by simpa [Write.key?] using hwk
      obtain ⟨r₀, hr₀, rfl⟩ := h.updates t r' hmem
      obtain rfl : r₀ = r := Option.some.inj (hr₀.symm.trans hr)
      exact Or.inr (h.find_commit hmem rfl)

end Wf

/-! ## Whose writes are open -/

omit [DecidableEq K] in
/-- A new write belongs to its own transaction. -/
theorem own_snoc (s : Store R E T) (t t' : T) (w : Write R E) :
    own t { s with pending := s.pending ++ [(t', w)] } =
      if t' = t then own t s ++ [w] else own t s := by
  by_cases h : t' = t <;> simp [own, h]

omit [DecidableEq K] in
/-- Closing a transaction drops its writes and no others. -/
theorem own_filter (s : Store R E T) (t t' : T) :
    own t (rollback t' s) = if t' = t then [] else own t s := by
  by_cases h : t' = t
  · subst h
    rw [if_pos rfl, own, rollback, List.filterMap_eq_nil_iff]
    intro p hp
    have hne : p.1 ≠ t' := by simpa using (List.mem_filter.mp hp).2
    rw [if_neg hne]
  · rw [if_neg h, own, own, rollback, List.filterMap_filter]
    apply List.filterMap_congr
    intro p _
    by_cases hp : p.1 = t
    · have hne : p.1 ≠ t' := fun hp' => h (hp'.symm.trans hp)
      simp [hne]
    · simp [hp]

theorem own_commit (s : Store R E T) (t t' : T) :
    own t (commit key t' s) = if t' = t then [] else own t s :=
  own_filter s t t'

end TxStore
end UrlShortener
