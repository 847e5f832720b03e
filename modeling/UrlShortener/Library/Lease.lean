import UrlShortener.Library.Run
import Mathlib.Data.List.Chain
import Mathlib.Order.Lattice

/-!
# Leases that are renewed by use

A lease is granted with a value, and it ends a fixed time after it was granted or used last.  A use
of a lease that has ended renews nothing.  A lease can be revoked at any time.

A lease is kept as a value with a deadline that every use moves.  What this comes to over a history
of grants, uses and revocations is a statement without deadlines: there is a last grant, nothing was
revoked since, and each use since came soon enough after the one before.

## What is proved

`held_iff`: the value with its deadline decides exactly that, on every history along which time does
not go back.
-/

set_option autoImplicit false

namespace UrlShortener
namespace Lease

variable {ν τ : Type*}

/-- What happens to a lease. -/
inductive Event (ν τ : Type*) where
  | grant : (value : ν) → (time : τ) → Event ν τ
  | use : (time : τ) → Event ν τ
  | revoke : Event ν τ

/-- When it happens, if that matters. -/
def Event.time? : Event ν τ → Option τ
  | .grant _ t | .use t => some t
  | .revoke => none

variable [LinearOrder τ]

/-- The value of a lease that has not ended. -/
def held (lease : Option (ν × τ)) (now : τ) : Option ν :=
  lease.bind fun l => if now < l.2 then some l.1 else none

theorem held_eq_some_iff {lease : Option (ν × τ)} {now : τ} {value : ν} :
    held lease now = some value ↔ ∃ deadline, lease = some (value, deadline) ∧ now < deadline := by
  unfold held
  rw [Option.bind_eq_some_iff]
  constructor
  · rintro ⟨⟨value', deadline⟩, hlease, hheld⟩
    split at hheld
    · rename_i hlt
      cases hheld
      exact ⟨deadline, hlease, hlt⟩
    · cases hheld
  · rintro ⟨deadline, hlease, hlt⟩
    exact ⟨_, hlease, if_pos hlt⟩

variable [Add τ] (ttl : τ)

/-- One event. -/
def apply (lease : Option (ν × τ)) : Event ν τ → Option (ν × τ)
  | .grant value t => some (value, t + ttl)
  | .use t => lease.map fun l => if t < l.2 then (l.1, t + ttl) else l
  | .revoke => none

/-- The lease after a history. -/
def after (events : List (Event ν τ)) : Option (ν × τ) := Run.exec (apply ttl) none events

theorem after_concat (events : List (Event ν τ)) (e : Event ν τ) :
    after ttl (events ++ [e]) = apply ttl (after ttl events) e := Run.exec_concat _ _ _ _

/-- The history of a lease that has been kept up to now: it was granted, nothing else but uses
happened since, and each of them, and now, came within the time to live of the one before. -/
def Kept (events : List (Event ν τ)) (now : τ) (value : ν) : Prop :=
  ∃ before t uses, events = before ++ .grant value t :: uses.map .use ∧
    (t :: uses ++ [now]).IsChain fun a b => b < a + ttl

variable {ttl} {events : List (Event ν τ)} {now : τ} {value : ν}

omit [LinearOrder τ] [Add τ] in
/-- The last event of a history that ends in uses. -/
theorem eq_concat_of_uses {before : List (Event ν τ)} {e : Event ν τ} {value : ν} {t : τ}
    {uses : List τ} (h : events ++ [e] = before ++ .grant value t :: uses.map .use) :
    uses = [] ∧ events = before ∧ e = .grant value t ∨
      ∃ uses' u, uses = uses' ++ [u] ∧ e = .use u ∧
        events = before ++ .grant value t :: uses'.map .use := by
  cases uses using List.reverseRecOn with
  | nil =>
    obtain ⟨hevents, he⟩ := List.append_inj' h rfl
    exact Or.inl ⟨rfl, hevents, List.singleton_inj.mp he⟩
  | append_singleton uses' u =>
    rw [List.map_append, ← List.cons_append, ← List.append_assoc] at h
    obtain ⟨hevents, he⟩ := List.append_inj' h rfl
    exact Or.inr ⟨uses', u, rfl, List.singleton_inj.mp he, hevents⟩

theorem kept_concat_grant {value' : ν} {t : τ} :
    Kept ttl (events ++ [.grant value' t]) now value ↔ value' = value ∧ now < t + ttl := by
  constructor
  · rintro ⟨before, t', uses, hevents, hchain⟩
    rcases eq_concat_of_uses hevents with ⟨rfl, -, he⟩ | ⟨_, _, -, he, -⟩
    · cases he
      rw [List.cons_append, List.nil_append, List.isChain_pair] at hchain
      exact ⟨rfl, hchain⟩
    · cases he
  · rintro ⟨rfl, hlt⟩
    refine ⟨events, t, [], rfl, ?_⟩
    rw [List.cons_append, List.nil_append, List.isChain_pair]
    exact hlt

theorem kept_concat_use {t : τ} :
    Kept ttl (events ++ [.use t]) now value ↔ Kept ttl events t value ∧ now < t + ttl := by
  constructor
  · rintro ⟨before, t', uses, hevents, hchain⟩
    rcases eq_concat_of_uses hevents with ⟨-, -, he⟩ | ⟨uses', u, rfl, he, hevents'⟩
    · cases he
    · cases he
      rw [← List.cons_append, List.append_assoc, List.singleton_append,
        List.isChain_append_cons_cons] at hchain
      exact ⟨⟨before, t', uses', hevents', hchain.1⟩, hchain.2.1⟩
  · rintro ⟨⟨before, t', uses, rfl, hchain⟩, hlt⟩
    refine ⟨before, t', uses ++ [t], by simp, ?_⟩
    rw [← List.cons_append, List.append_assoc, List.singleton_append,
      List.isChain_append_cons_cons]
    exact ⟨hchain, hlt, List.isChain_singleton now⟩

theorem not_kept_concat_revoke : ¬ Kept ttl (events ++ [.revoke]) now value := by
  rintro ⟨before, t, uses, hevents, -⟩
  rcases eq_concat_of_uses hevents with ⟨-, -, he⟩ | ⟨_, _, -, he, -⟩ <;> cases he

/-- **A lease is held exactly if it has been kept.**  The induction is on the history; a use is
where the lease has to be held up to then, and that is the statement for the shorter history. -/
theorem held_iff (htimes : (events.filterMap Event.time? ++ [now]).Pairwise (· ≤ ·)) :
    held (after ttl events) now = some value ↔ Kept ttl events now value := by
  induction events using List.reverseRecOn generalizing now with
  | nil =>
    constructor
    · intro hheld
      cases hheld
    · rintro ⟨before, t, uses, hevents, -⟩
      exact absurd hevents (by simp)
  | append_singleton events e ih =>
    rw [after_concat]
    cases e with
    | revoke =>
      constructor
      · intro hheld
        cases hheld
      · exact fun hkept => absurd hkept not_kept_concat_revoke
    | grant value' t =>
      rw [kept_concat_grant, held_eq_some_iff, apply]
      constructor
      · rintro ⟨deadline, hlease, hlt⟩
        cases hlease
        exact ⟨rfl, hlt⟩
      · rintro ⟨rfl, hlt⟩
        exact ⟨_, rfl, hlt⟩
    | use t =>
      have hnow : t ≤ now ∧ (events.filterMap Event.time? ++ [t]).Pairwise (· ≤ ·) := by
        rw [List.filterMap_append] at htimes
        obtain ⟨hbefore, -, hle⟩ := List.pairwise_append.mp htimes
        exact ⟨hle t (List.mem_append_right _ (List.mem_singleton.mpr rfl)) now
          (List.mem_singleton.mpr rfl), hbefore⟩
      rw [kept_concat_use, ← ih hnow.2, held_eq_some_iff, held_eq_some_iff, apply]
      constructor
      · rintro ⟨deadline, hlease, hlt⟩
        obtain ⟨⟨value', deadline'⟩, hafter, hmove⟩ := Option.map_eq_some_iff.mp hlease
        split at hmove
        · rename_i hlive
          cases hmove
          exact ⟨⟨deadline', hafter, hlive⟩, hlt⟩
        · rename_i hended
          cases hmove
          exact absurd (lt_of_le_of_lt hnow.1 hlt) hended
      · rintro ⟨⟨deadline', hafter, hlive⟩, hlt⟩
        refine ⟨t + ttl, ?_, hlt⟩
        rw [hafter, Option.map_some, if_pos hlive]

end Lease
end UrlShortener
