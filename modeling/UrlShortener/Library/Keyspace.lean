import Mathlib.Data.List.Basic
import Mathlib.Logic.Function.Basic
import Mathlib.Data.Int.Notation
import Mathlib.Data.Int.Order.Basic

/-!
# A shared keyspace whose entries expire

A keyspace maps keys to values, and an entry may carry a deadline: it is absent from its deadline
on.  A `Command` touches one key.  What it answers and what it writes depends only on the live
value under that key, so commands on different keys cannot see one another.

## What is proved

* `write_of_ne` is the frame law of a write.
* `Command.exec_congr` says that the answer depends on the entry under the command's key only, and
  `Command.exec_of_ne` that no other entry changes.
* `run_filter` lifts this to whole runs.  When every operation belongs to a tenant and the keys of
  different tenants differ, the answers a tenant gets in an interleaved run are the answers it gets
  in the run of its own operations alone, at the same times.
-/

set_option autoImplicit false

namespace UrlShortener
namespace Keyspace

universe u v w

variable {K : Type u} {V : Type v} {R : Type w}

/-- A stored value, with the time it disappears if there is one. -/
structure Entry (V : Type v) where
  value : V
  deadline : Option ℤ

/-- An entry is live strictly before its deadline. -/
def Entry.live (e : Entry V) (now : ℤ) : Bool :=
  match e.deadline with
  | none => true
  | some d => decide (now < d)

/-- The entries of a keyspace. -/
abbrev Store (K : Type u) (V : Type v) := K → Option (Entry V)

/-- The value a reader sees at time `now`. -/
def read (s : Store K V) (now : ℤ) (k : K) : Option V :=
  (s k).bind fun e => if e.live now then some e.value else none

/-- What a command does to its key. -/
inductive Update (V : Type v) where
  | keep : Update V
  | put : V → Option ℤ → Update V
  | erase : Update V

variable [DecidableEq K]

/-- Apply an update under a key. -/
def write (s : Store K V) (k : K) : Update V → Store K V
  | .keep => s
  | .put v d => Function.update s k (some ⟨v, d⟩)
  | .erase => Function.update s k none

/-- An update reaches no other key. -/
theorem write_of_ne (s : Store K V) {k k' : K} (h : k' ≠ k) (u : Update V) :
    write s k u k' = s k' := by
  cases u with
  | keep => rfl
  | put v d => exact Function.update_of_ne h _ _
  | erase => exact Function.update_of_ne h _ _

/-- What a put leaves under its key. -/
theorem write_put_self (s : Store K V) (k : K) (v : V) (d : Option ℤ) :
    write s k (.put v d) k = some ⟨v, d⟩ := Function.update_self _ _ _

/-- Two stores that agree on a key still do after the same update. -/
theorem write_congr {s t : Store K V} {k : K} (h : s k = t k) (u : Update V) :
    write s k u k = write t k u k := by
  cases u with
  | keep => exact h
  | put v d => simp [write]
  | erase => simp [write]

omit [DecidableEq K] in
theorem read_congr {s t : Store K V} {k : K} (h : s k = t k) (now : ℤ) :
    read s now k = read t now k := by
  unfold read
  rw [h]

omit [DecidableEq K] in
/-- Every value a reader sees is stored. -/
theorem exists_entry_of_read {s : Store K V} {now : ℤ} {k : K} {v : V}
    (h : read s now k = some v) : ∃ d, s k = some ⟨v, d⟩ := by
  unfold read at h
  cases hs : s k with
  | none => simp [hs] at h
  | some e =>
    obtain ⟨value, deadline⟩ := e
    simp only [hs, Option.bind_some, Option.ite_none_right_eq_some, Option.some.injEq] at h
    exact ⟨deadline, by rw [h.2]⟩

/-! ## Commands -/

/-- A command on one key.  The live value there decides the answer and the update. -/
structure Command (K : Type u) (V : Type v) (R : Type w) where
  key : K
  act : Option V → R × Update V

namespace Command

/-- Postprocess the answer of a command. -/
def map {R' : Type*} (f : R → R') (c : Command K V R) : Command K V R' where
  key := c.key
  act := fun v => (f (c.act v).1, (c.act v).2)

omit [DecidableEq K] in
@[simp] theorem map_key {R' : Type*} (f : R → R') (c : Command K V R) :
    (c.map f).key = c.key := rfl

omit [DecidableEq K] in
@[simp] theorem map_act {R' : Type*} (f : R → R') (c : Command K V R) (v : Option V) :
    (c.map f).act v = (f (c.act v).1, (c.act v).2) := rfl

/-- Execute a command at time `now`. -/
def exec (c : Command K V R) (now : ℤ) (s : Store K V) : R × Store K V :=
  ((c.act (read s now c.key)).1, write s c.key (c.act (read s now c.key)).2)

/-- **A command leaves every other key alone.** -/
theorem exec_of_ne (c : Command K V R) (now : ℤ) (s : Store K V) {k : K} (h : k ≠ c.key) :
    (c.exec now s).2 k = s k :=
  write_of_ne s h _

/-- **A command sees its own key only.**  In two stores that agree there it gives one answer, and
they agree there afterwards. -/
theorem exec_congr (c : Command K V R) (now : ℤ) {s t : Store K V} (h : s c.key = t c.key) :
    (c.exec now s).1 = (c.exec now t).1 ∧ (c.exec now s).2 c.key = (c.exec now t).2 c.key := by
  have hread := read_congr h now
  refine ⟨by unfold exec; rw [hread], ?_⟩
  unfold exec
  rw [hread]
  exact write_congr h _

end Command

/-! ## Interleaved runs -/

section Runs

variable {O : Type*} (time : O → ℤ) (command : O → Command K V R)

/-- Run operations in order, pairing each with its answer. -/
def run : Store K V → List O → List (O × R)
  | _, [] => []
  | s, o :: os =>
      (o, ((command o).exec (time o) s).1) :: run ((command o).exec (time o) s).2 os

/-- The answers of a run that starts in one of two stores agreeing on a set of keys are the same,
as long as every operation works on a key of the set. -/
theorem run_congr {s t : Store K V} {os : List O}
    (h : ∀ o ∈ os, s (command o).key = t (command o).key) :
    run time command s os = run time command t os := by
  induction os generalizing s t with
  | nil => rfl
  | cons o os ih =>
    obtain ⟨hans, hkey⟩ := (command o).exec_congr (time o) (h o List.mem_cons_self)
    rw [run, run, hans]
    congr 1
    apply ih
    intro o' ho'
    by_cases hk : (command o').key = (command o).key
    · rw [hk]; exact hkey
    · rw [Command.exec_of_ne _ _ _ hk, Command.exec_of_ne _ _ _ hk]
      exact h o' (List.mem_cons_of_mem _ ho')

variable {T : Type*} [DecidableEq T] (tenant : O → T)

/-- **Tenants with different keys do not interfere.**  The answers of one tenant in an interleaved
run are its answers in the run of its own operations alone.  The induction is on the run; an
operation of another tenant is dropped, and it has changed nothing the tenant looks at. -/
theorem run_filter (hkey : ∀ o o', (command o).key = (command o').key → tenant o = tenant o')
    (s : Store K V) (os : List O) (x : T) :
    (run time command s os).filter (fun p => tenant p.1 = x) =
      run time command s (os.filter fun o => tenant o = x) := by
  induction os generalizing s with
  | nil => rfl
  | cons o os ih =>
    rw [run]
    by_cases hx : tenant o = x
    · rw [List.filter_cons_of_pos (by simpa using hx), List.filter_cons_of_pos (by simpa using hx),
        run, ih]
    · rw [List.filter_cons_of_neg (by simpa using hx), List.filter_cons_of_neg (by simpa using hx),
        ih]
      apply run_congr
      intro o' ho'
      apply Command.exec_of_ne
      intro hk
      have hx' : tenant o' = x := by simpa using (List.mem_filter.mp ho').2
      exact hx ((hkey o o' hk.symm).trans hx')

end Runs

end Keyspace
end UrlShortener
