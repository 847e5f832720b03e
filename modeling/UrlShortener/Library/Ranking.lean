import Mathlib.Algebra.BigOperators.Group.List.Lemmas
import Mathlib.Algebra.GroupWithZero.Nat
import Mathlib.Data.List.Dedup
import Mathlib.Data.List.Perm.Basic
import Mathlib.Data.List.Nodup

/-!
# Ranked queries and grouped counts

A query with `ORDER BY` and `LIMIT` answers with the first rows of some order that ranks them.
The order is not determined where the ranking is not strict, so `TopOf` is a relation.

`groupSizes` is `GROUP BY` with the size of each group.

## What is proved

* `topOf_take`: cutting a ranked permutation of the rows gives a `TopOf`.
* `TopOf.perm` and `TopOf.rest_le` say what is lost by the limit: nothing, when the rows fit, and
  nothing that ranks higher, when they do not.
* `sum_groupSizes`: the sizes of the groups add up to the number of rows.
* `TopOf.size_le` and `TopOf.sum_sizes` say the same of the largest groups.
-/

set_option autoImplicit false

namespace UrlShortener
namespace Ranking

variable {α β : Type*}

/-! ## Ranked queries -/

/-- The first rows of a ranking, up to a limit. -/
structure TopOf (r : α → α → Prop) (limit : ℕ) (rows top : List α) : Prop where
  length : top.length = min limit rows.length
  sorted : top.Pairwise r
  rest : ∃ rest, (top ++ rest).Perm rows ∧ ∀ a ∈ top, ∀ b ∈ rest, r a b

variable {r : α → α → Prop} {limit : ℕ} {rows top : List α}

theorem topOf_take {ranked : List α} (hperm : ranked.Perm rows) (hsorted : ranked.Pairwise r)
    (limit : ℕ) : TopOf r limit rows (ranked.take limit) := by
  rw [← List.take_append_drop limit ranked, List.pairwise_append] at hsorted
  refine ⟨?_, hsorted.1, ranked.drop limit, ?_, hsorted.2.2⟩
  · rw [List.length_take, hperm.length_eq]
  · rw [List.take_append_drop]
    exact hperm

/-- When the rows fit, all of them are listed. -/
theorem TopOf.perm (h : TopOf r limit rows top) (hfits : rows.length ≤ limit) : top.Perm rows := by
  obtain ⟨rest, hperm, -⟩ := h.rest
  have hlength := hperm.length_eq
  rw [List.length_append, h.length, min_eq_right hfits] at hlength
  obtain rfl : rest = [] := List.length_eq_zero_iff.mp (by omega)
  rwa [List.append_nil] at hperm

theorem TopOf.subset (h : TopOf r limit rows top) : top ⊆ rows := by
  obtain ⟨rest, hperm, -⟩ := h.rest
  exact fun a ha => hperm.subset (List.mem_append_left _ ha)

/-- A row that is left out ranks no higher than a listed one. -/
theorem TopOf.rest_le (h : TopOf r limit rows top) {a b : α} (ha : a ∈ top) (hb : b ∈ rows)
    (hout : b ∉ top) : r a b := by
  obtain ⟨rest, hperm, hle⟩ := h.rest
  exact hle a ha b ((List.mem_append.mp (hperm.symm.subset hb)).resolve_left hout)

theorem TopOf.nodup_map {key : α → β} (h : TopOf r limit rows top)
    (hnodup : (rows.map key).Nodup) : (top.map key).Nodup := by
  obtain ⟨rest, hperm, -⟩ := h.rest
  have hall := (hperm.map key).symm.nodup hnodup
  rw [List.map_append, List.nodup_append] at hall
  exact hall.1

/-! ## Grouped counts -/

variable [DecidableEq β]

/-- The groups of rows with the same key, with their sizes. -/
def groupSizes (key : α → β) (rows : List α) : List (β × ℕ) :=
  (rows.map key).dedup.map fun b => (b, rows.countP fun a => key a = b)

variable (key : α → β) (rows)

theorem map_fst_groupSizes : (groupSizes key rows).map Prod.fst = (rows.map key).dedup := by
  rw [groupSizes, List.map_map]
  exact List.map_id _

theorem length_groupSizes : (groupSizes key rows).length = (rows.map key).dedup.length := by
  rw [groupSizes, List.length_map]

theorem mem_groupSizes {b : β} {n : ℕ} :
    (b, n) ∈ groupSizes key rows ↔ b ∈ rows.map key ∧ (rows.countP fun a => key a = b) = n := by
  simp only [groupSizes, List.mem_map, List.mem_dedup, Prod.mk.injEq]
  constructor
  · rintro ⟨b', hb', rfl, rfl⟩
    exact ⟨hb', rfl⟩
  · rintro ⟨hb, rfl⟩
    exact ⟨b, hb, rfl, rfl⟩

/-- **Every row is in one group.** -/
theorem sum_groupSizes : ((groupSizes key rows).map Prod.snd).sum = rows.length := by
  have hsizes : (groupSizes key rows).map Prod.snd =
      (rows.map key).dedup.map fun b => (rows.map key).count b := by
    rw [groupSizes, List.map_map]
    refine List.map_congr_left fun b _ => ?_
    rw [List.count, List.countP_map]
    exact List.countP_congr fun a _ => by simp
  rw [hsizes, List.sum_map_count_dedup_eq_length, List.length_map]

/-! ## The largest groups -/

variable {key rows} {groups : List (β × ℕ)}

/-- The size of a listed group is exact. -/
theorem TopOf.size_eq {r : β × ℕ → β × ℕ → Prop} (h : TopOf r limit (groupSizes key rows) groups)
    {group : β × ℕ} (hgroup : group ∈ groups) :
    group.1 ∈ rows.map key ∧ (rows.countP fun a => key a = group.1) = group.2 :=
  (mem_groupSizes rows key).mp (h.subset hgroup)

/-- A group that is left out is no larger than a listed one. -/
theorem TopOf.size_le (h : TopOf (fun a b => b.2 ≤ a.2) limit (groupSizes key rows) groups)
    {group : β × ℕ} (hgroup : group ∈ groups) {b : β} (hb : b ∈ rows.map key)
    (hout : b ∉ groups.map Prod.fst) : (rows.countP fun a => key a = b) ≤ group.2 := by
  have hmem : (b, rows.countP fun a => key a = b) ∈ groupSizes key rows :=
    (mem_groupSizes rows key).mpr ⟨hb, rfl⟩
  exact h.rest_le hgroup hmem fun hlisted => hout (List.mem_map_of_mem hlisted)

/-- No key is listed twice. -/
theorem TopOf.nodup_keys {r : β × ℕ → β × ℕ → Prop}
    (h : TopOf r limit (groupSizes key rows) groups) : (groups.map Prod.fst).Nodup := by
  refine h.nodup_map ?_
  rw [map_fst_groupSizes]
  exact List.nodup_dedup _

/-- When the groups fit, every row is in one of those listed. -/
theorem TopOf.sum_sizes {r : β × ℕ → β × ℕ → Prop}
    (h : TopOf r limit (groupSizes key rows) groups)
    (hfits : (rows.map key).dedup.length ≤ limit) :
    (groups.map Prod.snd).sum = rows.length := by
  rw [← length_groupSizes] at hfits
  calc (groups.map Prod.snd).sum = ((groupSizes key rows).map Prod.snd).sum :=
        ((h.perm hfits).map Prod.snd).sum_eq
    _ = rows.length := sum_groupSizes rows key

end Ranking
end UrlShortener
