import UrlShortener.Library.Trace
import Mathlib.Data.List.Nodup
import Mathlib.Logic.Function.Basic

/-!
# A registry of immutable entries

A registry maps keys to entries and counts how often each entry has been used.  An entry is
registered once and for all, and only what is registered can be used.  A history is a list of such
operations, each allowed in the state it finds.

## What is proved

* `entries_eq_some_iff`: what a registry holds after a history is what the history registers.
* `uses_eq`: the counters count.
* `nodup_registered`: no key is registered twice.
* `registered_of_use`: a use comes after the registration of its key.
* `extends_of_run?_append`: a history only adds to what was there before.
-/

set_option autoImplicit false

namespace UrlShortener
namespace Registry

variable {κ ν : Type*}

/-- The entries of a registry, and how often each has been used. -/
@[ext]
structure State (κ ν : Type*) where
  entries : κ → Option ν
  uses : κ → ℕ

/-- Nothing is registered. -/
def empty : State κ ν := ⟨fun _ => none, fun _ => 0⟩

inductive Op (κ ν : Type*) where
  | register : κ → ν → Op κ ν
  | use : κ → Op κ ν

/-- The key an operation registers. -/
def Op.registered? : Op κ ν → Option κ
  | .register k _ => some k
  | .use _ => none

variable [DecidableEq κ]

/-- Whether an operation uses a key. -/
def Op.isUse (k : κ) : Op κ ν → Bool
  | .register _ _ => false
  | .use k' => decide (k' = k)

/-- One operation, if it is allowed. -/
def step? (s : State κ ν) : Op κ ν → Option (State κ ν)
  | .register k v =>
      if (s.entries k).isSome then none
      else some { s with entries := Function.update s.entries k (some v) }
  | .use k =>
      if (s.entries k).isSome then some { s with uses := Function.update s.uses k (s.uses k + 1) }
      else none

/-- One operation of a history that was allowed so far. -/
def apply (s : Option (State κ ν)) (op : Op κ ν) : Option (State κ ν) := s.bind (step? · op)

/-- The registry after a history. -/
def run? (s : State κ ν) (ops : List (Op κ ν)) : Option (State κ ν) := Run.exec apply (some s) ops

theorem run?_concat (s : State κ ν) (ops : List (Op κ ν)) (op : Op κ ν) :
    run? s (ops ++ [op]) = (run? s ops).bind (step? · op) := Run.exec_concat _ _ _ _

/-- The last operation of a history. -/
theorem run?_concat_eq_some {s s' : State κ ν} {ops : List (Op κ ν)} {op : Op κ ν} :
    run? s (ops ++ [op]) = some s' ↔ ∃ t, run? s ops = some t ∧ step? t op = some s' := by
  rw [run?_concat, Option.bind_eq_some_iff]

theorem step?_register_eq_some {s s' : State κ ν} {k : κ} {v : ν} :
    step? s (.register k v) = some s' ↔
      s.entries k = none ∧ { s with entries := Function.update s.entries k (some v) } = s' := by
  rw [step?]
  cases s.entries k with
  | none => simp
  | some v' => simp

theorem step?_use_eq_some {s s' : State κ ν} {k : κ} :
    step? s (.use k) = some s' ↔
      (s.entries k).isSome = true ∧
        { s with uses := Function.update s.uses k (s.uses k + 1) } = s' := by
  rw [step?]
  cases s.entries k with
  | none => simp
  | some v => simp

/-! ## Histories of a new registry -/

section History

variable {s : State κ ν} {ops : List (Op κ ν)}

/-- **What a registry holds is what was registered.** -/
theorem entries_eq_some_iff (h : run? empty ops = some s) (k : κ) (v : ν) :
    s.entries k = some v ↔ Op.register k v ∈ ops := by
  induction ops using List.reverseRecOn generalizing s with
  | nil =>
    obtain rfl := Option.some.inj h
    simp [empty]
  | append_singleton ops op ih =>
    obtain ⟨t, ht, hstep⟩ := run?_concat_eq_some.mp h
    rw [List.mem_append, List.mem_singleton, ← ih ht]
    cases op with
    | register k' v' =>
      obtain ⟨hfree, rfl⟩ := step?_register_eq_some.mp hstep
      by_cases hk : k = k'
      · subst hk
        simp [hfree, eq_comm]
      · simp [hk]
    | use k' =>
      obtain ⟨-, rfl⟩ := step?_use_eq_some.mp hstep
      simp

/-- **The counters count.** -/
theorem uses_eq (h : run? empty ops = some s) (k : κ) :
    s.uses k = ops.countP (Op.isUse k) := by
  induction ops using List.reverseRecOn generalizing s with
  | nil =>
    obtain rfl := Option.some.inj h
    rfl
  | append_singleton ops op ih =>
    obtain ⟨t, ht, hstep⟩ := run?_concat_eq_some.mp h
    rw [List.countP_append, ← ih ht, List.countP_singleton]
    cases op with
    | register k' v' =>
      obtain ⟨-, rfl⟩ := step?_register_eq_some.mp hstep
      rfl
    | use k' =>
      obtain ⟨-, rfl⟩ := step?_use_eq_some.mp hstep
      by_cases hk : k = k'
      · subst hk
        simp [Op.isUse]
      · simp [Op.isUse, Function.update_of_ne hk, Ne.symm hk]

/-- **No key is registered twice.** -/
theorem nodup_registered (h : run? empty ops = some s) :
    (ops.filterMap Op.registered?).Nodup := by
  induction ops using List.reverseRecOn generalizing s with
  | nil => exact List.nodup_nil
  | append_singleton ops op ih =>
    obtain ⟨t, ht, hstep⟩ := run?_concat_eq_some.mp h
    rw [List.filterMap_append]
    cases op with
    | register k v =>
      obtain ⟨hfree, -⟩ := step?_register_eq_some.mp hstep
      refine (ih ht).append (List.nodup_singleton k) ?_
      refine List.disjoint_singleton.mpr fun hk => ?_
      obtain ⟨op, hop, hkey⟩ := List.mem_filterMap.mp hk
      cases op with
      | register k' v' =>
        obtain rfl : k' = k := Option.some.inj hkey
        cases hfree.symm.trans ((entries_eq_some_iff ht k' v').mpr hop)
      | use k' => cases hkey
    | use k =>
      exact (List.append_nil _).symm ▸ ih ht

/-- **A use comes after the registration of its key.** -/
theorem registered_of_use {before after : List (Op κ ν)} {k : κ}
    (h : run? empty (before ++ .use k :: after) = some s) :
    ∃ v, Op.register k v ∈ before := by
  induction after using List.reverseRecOn generalizing s with
  | nil =>
    obtain ⟨t, ht, hstep⟩ := run?_concat_eq_some.mp h
    obtain ⟨v, hv⟩ := Option.isSome_iff_exists.mp (step?_use_eq_some.mp hstep).1
    exact ⟨v, (entries_eq_some_iff ht k v).mp hv⟩
  | append_singleton after op ih =>
    rw [← List.cons_append, ← List.append_assoc] at h
    obtain ⟨t, ht, -⟩ := run?_concat_eq_some.mp h
    exact ih ht

end History

/-! ## Growth -/

/-- A registry has the entries of another one and at least its uses. -/
structure Extends (s s' : State κ ν) : Prop where
  entries : ∀ k v, s.entries k = some v → s'.entries k = some v
  uses : ∀ k, s.uses k ≤ s'.uses k

section Growth

variable {s s' t : State κ ν} {ops : List (Op κ ν)}

omit [DecidableEq κ] in
theorem Extends.trans (h : Extends s s') (h' : Extends s' t) : Extends s t where
  entries := fun k v hk => h'.entries k v (h.entries k v hk)
  uses := fun k => Nat.le_trans (h.uses k) (h'.uses k)

theorem extends_step? {op : Op κ ν} (h : step? s op = some s') : Extends s s' := by
  cases op with
  | register k v =>
    obtain ⟨hfree, rfl⟩ := step?_register_eq_some.mp h
    refine ⟨fun k' v' hk' => ?_, fun _ => Nat.le_refl _⟩
    have hne : k' ≠ k := by
      rintro rfl
      cases hfree.symm.trans hk'
    exact (Function.update_of_ne hne _ _).trans hk'
  | use k =>
    obtain ⟨-, rfl⟩ := step?_use_eq_some.mp h
    refine ⟨fun _ _ hk' => hk', fun k' => ?_⟩
    show s.uses k' ≤ Function.update s.uses k (s.uses k + 1) k'
    by_cases hk : k' = k
    · subst hk
      rw [Function.update_self]
      exact Nat.le_succ _
    · exact Nat.le_of_eq (Function.update_of_ne hk _ _).symm

/-- **A history only adds** to what the history before it has left. -/
theorem extends_of_run?_append {r : State κ ν} {ops' : List (Op κ ν)} (h : run? r ops = some s)
    (h' : run? r (ops ++ ops') = some t) : Extends s t := by
  induction ops' using List.reverseRecOn generalizing t with
  | nil =>
    rw [List.append_nil, h] at h'
    cases h'
    exact ⟨fun _ _ hk => hk, fun _ => Nat.le_refl _⟩
  | append_singleton ops' op ih =>
    rw [← List.append_assoc] at h'
    obtain ⟨s', hs', hstep⟩ := run?_concat_eq_some.mp h'
    exact (ih hs').trans (extends_step? hstep)

end Growth

end Registry
end UrlShortener
