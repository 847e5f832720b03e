import UrlShortener.Library.Interleaving
import Mathlib.Algebra.BigOperators.Group.List.Basic
import Mathlib.Algebra.GroupWithZero.Nat

/-!
# Processes with work left

Every process has a potential, the work it has left.  An action of a process uses up some of its
own potential and none of the others'.

## What is proved

* `total_add_potential_le` is the rule for bounds: what the actions of a run use up is at most what
  the processes arrived with, whatever the schedule.
* `exists_settled` is the rule for progress: if some action uses up potential whenever the system
  is not settled, then the system can be settled from every state, in as many actions as there is
  potential left.
* `settles_of_fair` is the rule for fair schedules.  A process that is ready uses up potential when
  it acts, and stays ready until somebody has used up potential.  Then a schedule in rounds, in each
  of which every process gets every kind of action once, leaves no potential after as many rounds as
  there was potential.
-/

set_option autoImplicit false

namespace UrlShortener
namespace Interleaving
namespace System

variable {σ L ρ α β : Type*} (sys : System σ L ρ α β) (f : L → ℕ)

/-- The work that all processes have left. -/
def potential (w : World σ L) : ℕ := (w.procs.map f).sum

omit sys in
/-- Replacing one process. -/
theorem sum_map_set {l : List L} {i : ℕ} {a : L} (hi : l[i]? = some a) (b : L) :
    ((l.set i b).map f).sum + f a = (l.map f).sum + f b := by
  induction l generalizing i with
  | nil => cases hi
  | cons c l ih =>
    cases i with
    | zero =>
      obtain rfl : c = a := Option.some.inj hi
      rw [List.set_cons_zero, List.map_cons, List.map_cons, List.sum_cons, List.sum_cons]
      omega
    | succ i =>
      have hrest := ih (i := i) hi
      rw [List.set_cons_succ, List.map_cons, List.map_cons, List.sum_cons, List.sum_cons]
      omega

theorem potential_arrive (w : World σ L) (r : ρ) :
    potential f (sys.step w (.arrive r)) = potential f w + f (sys.arrive r) := by
  rw [step_arrive, potential, List.map_append, List.sum_append, List.map_singleton,
    List.sum_singleton]
  rfl

/-- An action changes the potential of its own process only. -/
theorem potential_act {w : World σ L} {i : ℕ} {l : L} (h : w.procs[i]? = some l) (a : α) :
    potential f (sys.step w (.act i a)) + f l =
      potential f w + f (sys.act i a w.shared l).2 := by
  rw [sys.step_act_of_some h]
  exact sum_map_set f h _

/-- **The bound on work.**  `g` is what an action uses up. -/
theorem total_add_potential_le {g : ℕ → α → σ → L → ℕ} {c : ℕ} {s : σ}
    (harrive : ∀ r, f (sys.arrive r) ≤ c)
    (hact : ∀ es i a l, (sys.run s es).procs[i]? = some l →
      f (sys.act i a (sys.run s es).shared l).2 + g i a (sys.run s es).shared l ≤ f l)
    (es : List (Event ρ α β)) :
    sys.total g (sys.run s []) es + potential f (sys.run s es) ≤
      c * (sys.run s es).procs.length := by
  induction es using List.reverseRecOn with
  | nil => exact Nat.le_refl 0
  | append_singleton es e ih =>
    have htotal := sys.total_concat g s [] es e
    rw [List.nil_append] at htotal
    rw [htotal, run_concat]
    cases e with
    | arrive r =>
      have hr := harrive r
      rw [potential_arrive, step_arrive, List.length_append, List.length_singleton, Nat.mul_add]
      show sys.total g (sys.run s []) es + 0 + _ ≤ _
      omega
    | env b => exact ih
    | act i a =>
      rw [onAct]
      cases hi : (sys.run s es).procs[i]? with
      | none =>
        rw [sys.step_act_of_none hi, Option.elim_none]
        exact ih
      | some l =>
        have hpotential := sys.potential_act f hi a
        have hl := hact es i a l hi
        have hlength : (sys.step (sys.run s es) (.act i a)).procs.length =
            (sys.run s es).procs.length := by
          rw [sys.step_act_of_some hi]
          exact List.length_set
        rw [Option.elim_some, hlength]
        omega

/-- **The rule for progress.**  The induction is on the potential that is left. -/
theorem exists_settled {s : σ} {P : World σ L → Prop} {Q : α → Prop}
    (hprogress : ∀ es, ¬ P (sys.run s es) → ∃ i a, Q a ∧
      potential f (sys.run s (es ++ [.act i a])) < potential f (sys.run s es))
    (es : List (Event ρ α β)) :
    ∃ es' : List (Event ρ α β), (∀ e ∈ es', ∃ i a, e = .act i a ∧ Q a) ∧
      es'.length ≤ potential f (sys.run s es) ∧ P (sys.run s (es ++ es')) := by
  induction hleft : potential f (sys.run s es) using Nat.strongRecOn generalizing es with
  | ind left ih =>
    subst hleft
    by_cases hsettled : P (sys.run s es)
    · exact ⟨[], by simp, Nat.zero_le _, by rwa [List.append_nil]⟩
    · obtain ⟨i, a, ha, hlt⟩ := hprogress es hsettled
      obtain ⟨es', hes', hlength, hP⟩ := ih _ hlt _ rfl
      refine ⟨.act i a :: es', ?_, ?_, ?_⟩
      · intro e he
        rcases List.mem_cons.mp he with rfl | he
        · exact ⟨i, a, rfl, ha⟩
        · exact hes' e he
      · rw [List.length_cons]
        omega
      · rw [List.append_cons]
        exact hP

/-! ## Fair schedules -/

section Fair

variable {κ V : Type*} {kind : α → κ} (view : σ → V) {Ready : V → κ → L → Prop} {s : σ}

/-- A round of `n` processes: nobody arrives, and every process gets an action of every kind. -/
structure IsRound (kind : α → κ) (n : ℕ) (es : List (Event ρ α β)) : Prop where
  no_arrival : ∀ r, .arrive r ∉ es
  served : ∀ i < n, ∀ k, ∃ a, kind a = k ∧ .act i a ∈ es

variable
  (henv : ∀ b t, view (sys.env b t) = view t)
  (hidle : ∀ es i a l, (sys.run s es).procs[i]? = some l →
    (view (sys.act i a (sys.run s es).shared l).1 = view (sys.run s es).shared ∧
      (sys.act i a (sys.run s es).shared l).2 = l) ∨
    f (sys.act i a (sys.run s es).shared l).2 < f l)

include henv hidle in
/-- Apart from arrivals, an event uses up potential or changes nothing that anybody waits for. -/
theorem potential_concat_lt_or (es : List (Event ρ α β)) {e : Event ρ α β}
    (he : ∀ r, e ≠ .arrive r) :
    potential f (sys.run s (es ++ [e])) < potential f (sys.run s es) ∨
      ((sys.run s (es ++ [e])).procs = (sys.run s es).procs ∧
        view (sys.run s (es ++ [e])).shared = view (sys.run s es).shared) := by
  rw [run_concat]
  cases e with
  | arrive r => exact absurd rfl (he r)
  | env b => exact Or.inr ⟨rfl, henv b _⟩
  | act i a =>
    cases hi : (sys.run s es).procs[i]? with
    | none =>
      rw [sys.step_act_of_none hi]
      exact Or.inr ⟨rfl, rfl⟩
    | some l =>
      rcases hidle es i a l hi with ⟨hview, hsame⟩ | hlt
      · rw [sys.step_act_of_some hi, hsame]
        obtain ⟨hlength, rfl⟩ := List.getElem?_eq_some_iff.mp hi
        exact Or.inr ⟨List.set_getElem_self hlength, hview⟩
      · have hpotential := sys.potential_act f hi a
        exact Or.inl (by omega)

include henv hidle in
/-- Without arrivals, a stretch of the run uses up potential, or it changes nothing that anybody
waits for and has not served any process that was ready. -/
theorem potential_append_lt_or
    (hready : ∀ es i a l, (sys.run s es).procs[i]? = some l →
      Ready (view (sys.run s es).shared) (kind a) l →
      f (sys.act i a (sys.run s es).shared l).2 < f l)
    (es : List (Event ρ α β)) {es' : List (Event ρ α β)} (hes' : ∀ r, .arrive r ∉ es') :
    potential f (sys.run s (es ++ es')) < potential f (sys.run s es) ∨
      ((sys.run s (es ++ es')).procs = (sys.run s es).procs ∧
        view (sys.run s (es ++ es')).shared = view (sys.run s es).shared ∧
        ∀ i a l, (sys.run s es).procs[i]? = some l →
          Ready (view (sys.run s es).shared) (kind a) l → .act i a ∉ es') := by
  induction es' using List.reverseRecOn with
  | nil =>
    rw [List.append_nil]
    exact Or.inr ⟨rfl, rfl, fun _ _ _ _ _ => List.not_mem_nil⟩
  | append_singleton es' e ih =>
    have he : ∀ r, e ≠ .arrive r := fun r heq => hes' r (by simp [heq])
    have hstep := sys.potential_concat_lt_or f view henv hidle (es ++ es') he
    have hbefore := ih fun r hr => hes' r (List.mem_append_left _ hr)
    rw [← List.append_assoc]
    rcases hbefore with hlt | ⟨hprocs, hview, hserved⟩
    · refine Or.inl ?_
      rcases hstep with hlt' | ⟨hprocs, -⟩
      · exact Nat.lt_trans hlt' hlt
      · rwa [potential, hprocs]
    · have hsame : potential f (sys.run s (es ++ es')) = potential f (sys.run s es) :=
        congrArg (fun procs => (procs.map f).sum) hprocs
      rcases hstep with hlt | ⟨hprocs', hview'⟩
      · exact Or.inl (hsame ▸ hlt)
      · refine Or.inr ⟨hprocs'.trans hprocs, hview'.trans hview, ?_⟩
        intro i a l hi hl hmem
        rcases List.mem_append.mp hmem with hmem | hmem
        · exact hserved i a l hi hl hmem
        -- The action was that of a process that is still ready.
        obtain rfl := List.mem_singleton.mp hmem
        have hi' : (sys.run s (es ++ es')).procs[i]? = some l := hprocs ▸ hi
        have hlt := hready (es ++ es') i a l hi' (hview ▸ hl)
        have hpotential := sys.potential_act f hi' a
        rw [← run_concat, potential, hprocs', ← potential] at hpotential
        omega

/-- Without arrivals, there are as many processes as before. -/
theorem length_procs_append (es : List (Event ρ α β)) {es' : List (Event ρ α β)}
    (hes' : ∀ r, .arrive r ∉ es') :
    (sys.run s (es ++ es')).procs.length = (sys.run s es).procs.length := by
  induction es' using List.reverseRecOn with
  | nil => rw [List.append_nil]
  | append_singleton es' e ih =>
    have hbefore := ih fun r hr => hes' r (List.mem_append_left _ hr)
    rw [← List.append_assoc, run_concat]
    cases e with
    | arrive r => exact absurd (List.mem_append_right _ (List.mem_singleton_self _)) (hes' r)
    | env b => exact hbefore
    | act i a =>
      cases hi : (sys.run s (es ++ es')).procs[i]? with
      | none => rwa [sys.step_act_of_none hi]
      | some l =>
        rw [sys.step_act_of_some hi, List.length_set]
        exact hbefore

include henv hidle in
/-- **The rule for fair schedules.**  The induction is on the rounds, each of which serves somebody
who is ready. -/
theorem settles_of_fair
    (hready : ∀ es i a l, (sys.run s es).procs[i]? = some l →
      Ready (view (sys.run s es).shared) (kind a) l →
      f (sys.act i a (sys.run s es).shared l).2 < f l)
    (hprogress : ∀ es, potential f (sys.run s es) ≠ 0 →
      ∃ (i : ℕ) (l : L) (k : κ), (sys.run s es).procs[i]? = some l ∧
        Ready (view (sys.run s es).shared) k l)
    (es : List (Event ρ α β)) (rounds : List (List (Event ρ α β)))
    (hrounds : ∀ round ∈ rounds, IsRound kind (sys.run s es).procs.length round)
    (hlength : potential f (sys.run s es) ≤ rounds.length) :
    potential f (sys.run s (es ++ rounds.flatten)) = 0 := by
  induction rounds generalizing es with
  | nil =>
    rw [List.flatten_nil, List.append_nil]
    exact Nat.le_zero.mp hlength
  | cons round rounds ih =>
    have hround := hrounds round List.mem_cons_self
    have hprocs := sys.length_procs_append (s := s) es hround.no_arrival
    rw [List.flatten_cons, ← List.append_assoc]
    refine ih (es ++ round) (fun r hr => hprocs ▸ hrounds r (List.mem_cons_of_mem _ hr)) ?_
    rw [List.length_cons] at hlength
    rcases sys.potential_append_lt_or f view henv hidle hready es hround.no_arrival with
      hlt | ⟨hsame, -, hserved⟩
    · omega
    · by_cases hzero : potential f (sys.run s es) = 0
      · rw [potential, hsame, ← potential, hzero]
        exact Nat.zero_le _
      · obtain ⟨i, l, k, hi, hl⟩ := hprogress es hzero
        obtain ⟨hlt, -⟩ := List.getElem?_eq_some_iff.mp hi
        obtain ⟨a, rfl, hmem⟩ := hround.served i hlt k
        exact absurd hmem (hserved i a l hi hl)

end Fair

end System
end Interleaving
end UrlShortener
