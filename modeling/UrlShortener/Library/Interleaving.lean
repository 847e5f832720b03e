import UrlShortener.Library.Run
import Mathlib.Data.List.Count

/-!
# Processes that interleave over a shared state

A system has a shared state and any number of processes, each with a state of its own.  An event
lets a new process arrive, lets one process act on the shared state and its own, or lets the
environment change the shared state.  Processes are never removed, so a process keeps its index.

## What is proved

* `rely_guarantee` is the rule for safety proofs.  To show that every process satisfies `P` it
  suffices that a process keeps its own `P` when it acts, that every action stays within a
  guarantee `G`, and that `P` is stable under the guarantees of the *other* processes.  `P` may
  speak about the events so far, which is what a proof that names an earlier instant needs.
* `own_history` is the rule for what the events so far mean for one process.
* `persists` carries a property of one process to every later instant.
* `countP_step_act` says how a count of processes changes when one of them acts, and `counts` is the
  rule for a counter that keeps up with such a count.
* `contributions` collects what the processes append to a list, each at most once.
* `run_measure` is the rule for accounts that actions add to.
* `related_stateAt` compares two runs with the same schedule, whose processes are not quite the
  same.
-/

set_option autoImplicit false

namespace UrlShortener

/-! ## Lists of contributions -/

/-- Replacing a process that contributes nothing by one that contributes `x`. -/
theorem filterMap_set_perm {γ δ : Type*} {f : γ → Option δ} {l : List γ} {i : ℕ} {a b : γ}
    (hi : l[i]? = some a) {x : δ} (ha : f a = none) (hb : f b = some x) :
    ((l.set i b).filterMap f).Perm (l.filterMap f ++ [x]) := by
  induction l generalizing i with
  | nil => cases hi
  | cons c l ih =>
    cases i with
    | zero =>
      obtain rfl : c = a := Option.some.inj hi
      rw [List.set_cons_zero, List.filterMap_cons_some hb, List.filterMap_cons_none ha]
      exact List.perm_append_singleton x _ |>.symm
    | succ i =>
      rw [List.set_cons_succ]
      cases hc : f c with
      | none =>
        rw [List.filterMap_cons_none hc, List.filterMap_cons_none hc]
        exact ih hi
      | some y =>
        rw [List.filterMap_cons_some hc, List.filterMap_cons_some hc]
        exact (ih hi).cons y

/-- Replacing a process by one that contributes the same. -/
theorem filterMap_set_eq {γ δ : Type*} {f : γ → Option δ} {l : List γ} {i : ℕ} {a b : γ}
    (hi : l[i]? = some a) (hab : f b = f a) : (l.set i b).filterMap f = l.filterMap f := by
  induction l generalizing i with
  | nil => rfl
  | cons c l ih =>
    cases i with
    | zero =>
      obtain rfl : c = a := Option.some.inj hi
      rw [List.set_cons_zero, List.filterMap_cons, List.filterMap_cons, hab]
    | succ i => rw [List.set_cons_succ, List.filterMap_cons, List.filterMap_cons, ih hi]

namespace Interleaving

variable {σ L ρ α β : Type*}

/-- What happens next. -/
inductive Event (ρ α β : Type*) where
  /-- A new process. -/
  | arrive : ρ → Event ρ α β
  /-- An action of the process with an index. -/
  | act : ℕ → α → Event ρ α β
  /-- The environment changes the shared state. -/
  | env : β → Event ρ α β

/-- The shared state and the processes, in the order of their arrival. -/
structure World (σ L : Type*) where
  shared : σ
  procs : List L

/-- A system of processes. -/
structure System (σ L ρ α β : Type*) where
  arrive : ρ → L
  act : ℕ → α → σ → L → σ × L
  env : β → σ → σ

namespace System

variable (sys : System σ L ρ α β)

/-- One event.  An action of a process that has not arrived changes nothing. -/
def step (w : World σ L) : Event ρ α β → World σ L
  | .arrive r => { w with procs := w.procs ++ [sys.arrive r] }
  | .act i a =>
      match w.procs[i]? with
      | none => w
      | some l =>
          { shared := (sys.act i a w.shared l).1
            procs := w.procs.set i (sys.act i a w.shared l).2 }
  | .env b => { w with shared := sys.env b w.shared }

/-- A run from a shared state without processes. -/
def run (s : σ) (es : List (Event ρ α β)) : World σ L := Run.exec sys.step ⟨s, []⟩ es

@[simp] theorem run_nil (s : σ) : sys.run s [] = ⟨s, []⟩ := rfl

@[simp] theorem run_concat (s : σ) (es : List (Event ρ α β)) (e : Event ρ α β) :
    sys.run s (es ++ [e]) = sys.step (sys.run s es) e := Run.exec_concat _ _ _ _

@[simp] theorem step_arrive (w : World σ L) (r : ρ) :
    sys.step w (.arrive r) = { w with procs := w.procs ++ [sys.arrive r] } := rfl

@[simp] theorem step_env (w : World σ L) (b : β) :
    sys.step w (.env b) = { w with shared := sys.env b w.shared } := rfl

theorem step_act_of_some {w : World σ L} {i : ℕ} {l : L} (h : w.procs[i]? = some l) (a : α) :
    sys.step w (.act i a) =
      { shared := (sys.act i a w.shared l).1
        procs := w.procs.set i (sys.act i a w.shared l).2 } := by
  rw [step, h]

theorem step_act_of_none {w : World σ L} {i : ℕ} (h : w.procs[i]? = none) (a : α) :
    sys.step w (.act i a) = w := by
  rw [step, h]

/-- An action replaces the state of its own process only. -/
theorem getElem?_step_act_of_ne (w : World σ L) {i j : ℕ} (h : i ≠ j) (a : α) :
    (sys.step w (.act i a)).procs[j]? = w.procs[j]? := by
  cases hi : w.procs[i]? with
  | none => rw [sys.step_act_of_none hi]
  | some l => rw [sys.step_act_of_some hi, List.getElem?_set_ne h]

/-- What an action leaves of its own process. -/
theorem getElem?_step_act_self {w : World σ L} {i : ℕ} {l : L} (h : w.procs[i]? = some l) (a : α) :
    (sys.step w (.act i a)).procs[i]? = some (sys.act i a w.shared l).2 := by
  obtain ⟨hi, -⟩ := List.getElem?_eq_some_iff.mp h
  rw [sys.step_act_of_some h, List.getElem?_set_self hi]

/-- **The rely-guarantee rule.**  `S` is the invariant of the shared state, `P es i s l` what the
process with index `i` and state `l` knows when the shared state is `s` and the events so far are
`es`, and `G i` what process `i` guarantees the others about its actions.  `Q` restricts the events
of the run.  The induction is on the run, and each event concerns at most one process. -/
theorem rely_guarantee {S : σ → Prop} {P : List (Event ρ α β) → ℕ → σ → L → Prop}
    {G : ℕ → σ → σ → Prop} {Q : Event ρ α β → Prop} {s : σ} (hinit : S s)
    (hrefl : ∀ i t, G i t t)
    (harrive : ∀ es r, S (sys.run s es).shared →
      P (es ++ [.arrive r]) (sys.run s es).procs.length (sys.run s es).shared (sys.arrive r))
    (hact : ∀ es i a l, Q (.act i a) → (sys.run s es).procs[i]? = some l →
      S (sys.run s es).shared → P es i (sys.run s es).shared l →
      S (sys.act i a (sys.run s es).shared l).1 ∧
        G i (sys.run s es).shared (sys.act i a (sys.run s es).shared l).1 ∧
        P (es ++ [.act i a]) i (sys.act i a (sys.run s es).shared l).1
          (sys.act i a (sys.run s es).shared l).2)
    (henv : ∀ b t, S t → S (sys.env b t) ∧ ∀ i, G i t (sys.env b t))
    (hstable : ∀ es e i j t l, i ≠ j → (sys.run s es).procs[j]? = some l →
      S (sys.run s es).shared → P es j (sys.run s es).shared l →
      G i (sys.run s es).shared t → P (es ++ [e]) j t l)
    (es : List (Event ρ α β)) (hes : ∀ e ∈ es, Q e) :
    S (sys.run s es).shared ∧
      ∀ i l, (sys.run s es).procs[i]? = some l → P es i (sys.run s es).shared l := by
  induction es using List.reverseRecOn with
  | nil => exact ⟨hinit, by simp⟩
  | append_singleton es e ih =>
    obtain ⟨hS, hP⟩ := ih fun e' he' => hes e' (by simp [he'])
    have hne : ∀ j : ℕ, j + 1 ≠ j := fun j => by omega
    rw [run_concat]
    cases e with
    | arrive r =>
      refine ⟨hS, fun j l hj => ?_⟩
      rw [step_arrive] at hj ⊢
      rw [List.getElem?_append] at hj
      split at hj
      · exact hstable es _ (j + 1) j _ l (hne j) hj hS (hP j l hj) (hrefl _ _)
      · rename_i hle
        obtain ⟨hlt, rfl⟩ := List.getElem?_eq_some_iff.mp hj
        rw [List.length_singleton] at hlt
        obtain rfl : j = (sys.run s es).procs.length := by omega
        rw [List.getElem_singleton]
        exact harrive es r hS
    | env b =>
      obtain ⟨hS', hG⟩ := henv b _ hS
      exact ⟨hS', fun j l hj =>
        hstable es _ (j + 1) j _ l (hne j) hj hS (hP j l hj) (hG (j + 1))⟩
    | act i a =>
      cases hi : (sys.run s es).procs[i]? with
      | none =>
        rw [sys.step_act_of_none hi]
        exact ⟨hS, fun j l hj =>
          hstable es _ (j + 1) j _ l (hne j) hj hS (hP j l hj) (hrefl _ _)⟩
      | some l =>
        obtain ⟨hS', hG, hP'⟩ := hact es i a l (hes _ (by simp)) hi hS (hP i l hi)
        have hshared : (sys.step (sys.run s es) (.act i a)).shared =
            (sys.act i a (sys.run s es).shared l).1 := by rw [sys.step_act_of_some hi]
        rw [hshared]
        refine ⟨hS', fun j l' hj => ?_⟩
        by_cases hij : i = j
        · subst hij
          rw [sys.getElem?_step_act_self hi, Option.some.injEq] at hj
          exact hj ▸ hP'
        · rw [sys.getElem?_step_act_of_ne _ hij] at hj
          exact hstable es _ i j _ l' hij hj hS (hP j l' hj) hG

/-- **The rule for histories.**  What the events so far mean for one process is settled by its
arrival and its own actions, as long as other events do not change it. -/
theorem own_history {P : List (Event ρ α β) → ℕ → L → Prop} {s : σ}
    (harrive : ∀ es r, P (es ++ [.arrive r]) (sys.run s es).procs.length (sys.arrive r))
    (hact : ∀ es i a l, (sys.run s es).procs[i]? = some l → P es i l →
      P (es ++ [.act i a]) i (sys.act i a (sys.run s es).shared l).2)
    (hother : ∀ es e i l, (∀ a, e ≠ .act i a) → P es i l → P (es ++ [e]) i l)
    (es : List (Event ρ α β)) {i : ℕ} {l : L} (hi : (sys.run s es).procs[i]? = some l) :
    P es i l := by
  induction es using List.reverseRecOn generalizing l with
  | nil => simp at hi
  | append_singleton es e ih =>
    rw [run_concat] at hi
    cases e with
    | env b => exact hother es _ i l (by simp) (ih hi)
    | arrive r =>
      rw [step_arrive, List.getElem?_append] at hi
      split at hi
      · exact hother es _ i l (by simp) (ih hi)
      · obtain ⟨hlt, rfl⟩ := List.getElem?_eq_some_iff.mp hi
        rw [List.length_singleton] at hlt
        obtain rfl : i = (sys.run s es).procs.length := by omega
        rw [List.getElem_singleton]
        exact harrive es r
    | act j a =>
      by_cases hij : j = i
      · subst hij
        cases hj : (sys.run s es).procs[j]? with
        | none =>
          rw [sys.step_act_of_none hj, hj] at hi
          cases hi
        | some l₀ =>
          rw [sys.getElem?_step_act_self hj, Option.some.injEq] at hi
          exact hi ▸ hact es j a l₀ hj (ih hj)
      · rw [sys.getElem?_step_act_of_ne _ hij] at hi
        refine hother es _ i l (fun a' heq => hij ?_) (ih hi)
        cases heq
        rfl

/-! ## Processes stay -/

/-- **What a process keeps for itself it keeps for good.**  A property that every action of its own
process preserves holds at every later instant of the run. -/
theorem persists {K : L → Prop} {s : σ}
    (hact : ∀ es i a l, (sys.run s es).procs[i]? = some l → K l →
      K (sys.act i a (sys.run s es).shared l).2)
    (es : List (Event ρ α β)) {m n : ℕ} (hmn : m ≤ n) {i : ℕ} {l : L}
    (hi : (sys.run s (es.take m)).procs[i]? = some l) (hl : K l) :
    ∃ l', (sys.run s (es.take n)).procs[i]? = some l' ∧ K l' := by
  induction n with
  | zero =>
    obtain rfl : m = 0 := by omega
    exact ⟨l, hi, hl⟩
  | succ n ih =>
    rcases Nat.lt_or_ge n m with hlt | hle
    · obtain rfl : m = n + 1 := by omega
      exact ⟨l, hi, hl⟩
    · obtain ⟨l', hi', hl'⟩ := ih hle
      rw [List.take_add_one]
      cases es[n]? with
      | none =>
        rw [Option.toList_none, List.append_nil]
        exact ⟨l', hi', hl'⟩
      | some e =>
        rw [Option.toList_some, run_concat]
        cases e with
        | arrive r =>
          obtain ⟨hlt, -⟩ := List.getElem?_eq_some_iff.mp hi'
          exact ⟨l', (List.getElem?_append_left hlt).trans hi', hl'⟩
        | env b => exact ⟨l', hi', hl'⟩
        | act j a =>
          by_cases hij : j = i
          · subst hij
            exact ⟨_, sys.getElem?_step_act_self hi' a, hact _ j a l' hi' hl'⟩
          · exact ⟨l', (sys.getElem?_step_act_of_ne _ hij a).trans hi', hl'⟩

/-! ## Counting processes -/

/-- When a process acts, a count of processes loses its old state and gains the new one. -/
theorem countP_step_act {w : World σ L} {i : ℕ} {l : L} (h : w.procs[i]? = some l) (a : α)
    (p : L → Bool) :
    (sys.step w (.act i a)).procs.countP p + (if p l then 1 else 0) =
      w.procs.countP p + if p (sys.act i a w.shared l).2 then 1 else 0 := by
  obtain ⟨hi, hl⟩ := List.getElem?_eq_some_iff.mp h
  have hmem : p l = true → 0 < w.procs.countP p := fun hp =>
    List.countP_pos_iff.mpr ⟨l, hl ▸ List.getElem_mem hi, hp⟩
  rw [sys.step_act_of_some h, List.countP_set hi, hl]
  by_cases hp : p l = true
  · have hpos := hmem hp
    rw [if_pos hp]
    omega
  · rw [if_neg hp]
    omega

/-- **The rule for counters.**  If an action adds to a counter of the shared state what it adds to a
count of processes, then the counter is the count. -/
theorem counts {μ : σ → ℕ} {p : L → Bool} {Q : Event ρ α β → Prop} {s : σ} (hinit : μ s = 0)
    (harrive : ∀ r, p (sys.arrive r) = false) (henv : ∀ b t, μ (sys.env b t) = μ t)
    (hact : ∀ es i a l, Q (.act i a) → (sys.run s es).procs[i]? = some l →
      μ (sys.act i a (sys.run s es).shared l).1 + (if p l then 1 else 0) =
        μ (sys.run s es).shared + if p (sys.act i a (sys.run s es).shared l).2 then 1 else 0)
    (es : List (Event ρ α β)) (hes : ∀ e ∈ es, Q e) :
    μ (sys.run s es).shared = (sys.run s es).procs.countP p := by
  induction es using List.reverseRecOn with
  | nil => exact hinit
  | append_singleton es e ih =>
    have ih := ih fun e' he' => hes e' (List.mem_append_left _ he')
    rw [run_concat]
    cases e with
    | arrive r =>
      rw [step_arrive, List.countP_append, List.countP_singleton, harrive]
      exact ih
    | env b =>
      rw [step_env, henv]
      exact ih
    | act i a =>
      cases hi : (sys.run s es).procs[i]? with
      | none =>
        rw [sys.step_act_of_none hi]
        exact ih
      | some l =>
        have hcount := sys.countP_step_act hi a p
        have hcounter := hact es i a l (hes _ (by simp)) hi
        rw [sys.step_act_of_some hi] at hcount ⊢
        dsimp only at hcount ⊢
        omega

/-! ## Collecting contributions -/

/-- **The rule for contributions.**  If the only thing that actions do to a list of the shared state
is to append what their process contributes, and a process contributes once and for all, then the
list holds the contributions of the processes, one for each. -/
theorem contributions {δ : Type*} {f : L → Option δ} {g : σ → List δ} {s : σ} (hinit : g s = [])
    (harrive : ∀ r, f (sys.arrive r) = none) (henv : ∀ b t, g (sys.env b t) = g t)
    (hact : ∀ es i a l, (sys.run s es).procs[i]? = some l →
      g (sys.act i a (sys.run s es).shared l).1 = g (sys.run s es).shared ∧
          f (sys.act i a (sys.run s es).shared l).2 = f l ∨
        ∃ x, f l = none ∧ f (sys.act i a (sys.run s es).shared l).2 = some x ∧
          g (sys.act i a (sys.run s es).shared l).1 = g (sys.run s es).shared ++ [x])
    (es : List (Event ρ α β)) :
    (g (sys.run s es).shared).Perm ((sys.run s es).procs.filterMap f) := by
  induction es using List.reverseRecOn with
  | nil =>
    show (g s).Perm []
    rw [hinit]
  | append_singleton es e ih =>
    rw [run_concat]
    cases e with
    | arrive r =>
      rw [step_arrive, List.filterMap_append, List.filterMap_cons_none (harrive r),
        List.filterMap_nil, List.append_nil]
      exact ih
    | env b =>
      rw [step_env, henv]
      exact ih
    | act i a =>
      cases hi : (sys.run s es).procs[i]? with
      | none =>
        rw [sys.step_act_of_none hi]
        exact ih
      | some l =>
        rw [sys.step_act_of_some hi]
        rcases hact es i a l hi with ⟨hsame, hf⟩ | ⟨x, hnone, hsome, hg⟩
        · rw [hsame, filterMap_set_eq hi hf]
          exact ih
        · rw [hg]
          exact (ih.append_right _).trans (filterMap_set_perm hi hnone hsome).symm

/-! ## Sums over the actions of a run -/

/-- A quantity of actions as a quantity of events.  Other events count for nothing. -/
def onAct (f : ℕ → α → σ → L → ℕ) (w : World σ L) : Event ρ α β → ℕ
  | .act i a => w.procs[i]?.elim 0 (f i a w.shared)
  | _ => 0

/-- The sum of a quantity over the actions of a run. -/
def total (f : ℕ → α → σ → L → ℕ) (w : World σ L) (es : List (Event ρ α β)) : ℕ :=
  Run.total sys.step (onAct f) w es

theorem run_append (s : σ) (es es' : List (Event ρ α β)) :
    sys.run s (es ++ es') = Run.exec sys.step (sys.run s es) es' := by
  unfold run Run.exec
  rw [List.foldl_append]

theorem total_concat (f : ℕ → α → σ → L → ℕ) (s : σ) (es es' : List (Event ρ α β))
    (e : Event ρ α β) :
    sys.total f (sys.run s es) (es' ++ [e]) =
      sys.total f (sys.run s es) es' + onAct f (sys.run s (es ++ es')) e := by
  rw [run_append]
  exact Run.total_concat _ _ _ _ _

/-- **The accounting rule.**  A measure that arrivals and the environment leave alone, and that
every action raises by some quantity, is raised by a run by the sum of that quantity. -/
theorem run_measure {μ : World σ L → ℕ} {f : ℕ → α → σ → L → ℕ} {s : σ}
    (harrive : ∀ w r, μ (sys.step w (.arrive r)) = μ w)
    (henv : ∀ w b, μ (sys.step w (.env b)) = μ w)
    (hact : ∀ es i a l, (sys.run s es).procs[i]? = some l →
      μ (sys.step (sys.run s es) (.act i a)) = μ (sys.run s es) + f i a (sys.run s es).shared l)
    (es es' : List (Event ρ α β)) :
    μ (sys.run s (es ++ es')) = μ (sys.run s es) + sys.total f (sys.run s es) es' := by
  rw [run_append]
  refine Run.exec_measure sys.step (P := fun w => ∃ es, w = sys.run s es) ⟨es, rfl⟩ ?_ ?_ es'
  · rintro _ e ⟨es, rfl⟩
    exact ⟨es ++ [e], (sys.run_concat s es e).symm⟩
  · rintro _ e ⟨es, rfl⟩
    cases e with
    | arrive r => exact harrive _ r
    | env b => exact henv _ b
    | act i a =>
      cases hi : (sys.run s es).procs[i]? with
      | none => rw [sys.step_act_of_none hi, onAct, hi, Option.elim_none, Nat.add_zero]
      | some l => rw [hact es i a l hi, onAct, hi, Option.elim_some]

/-- The sum of two quantities. -/
theorem total_add (f g : ℕ → α → σ → L → ℕ) (w : World σ L) (es : List (Event ρ α β)) :
    sys.total (fun i a s l => f i a s l + g i a s l) w es =
      sys.total f w es + sys.total g w es := by
  unfold total
  rw [← Run.total_add]
  congr 1
  funext w e
  cases e with
  | arrive r => rfl
  | env b => rfl
  | act i a =>
    rw [onAct, onAct, onAct]
    cases w.procs[i]? <;> rfl

/-- Sums compare as their quantities do. -/
theorem total_le_total {f g : ℕ → α → σ → L → ℕ} (h : ∀ i a s l, f i a s l ≤ g i a s l)
    (w : World σ L) (es : List (Event ρ α β)) : sys.total f w es ≤ sys.total g w es := by
  refine Run.total_le_total sys.step (fun w e => ?_) w es
  cases e with
  | arrive r => exact Nat.le_refl _
  | env b => exact Nat.le_refl _
  | act i a =>
    rw [onAct, onAct]
    cases w.procs[i]? with
    | none => exact Nat.le_refl _
    | some l => exact h i a w.shared l

end System

/-! ## Two runs with the same schedule -/

/-- The same event, up to which process arrives. -/
inductive Event.Alike (q : ρ → ρ → Prop) : Event ρ α β → Event ρ α β → Prop where
  | arrive (r r' : ρ) : q r r' → Alike q (.arrive r) (.arrive r')
  | act (i : ℕ) (a : α) : Alike q (.act i a) (.act i a)
  | env (b : β) : Alike q (.env b) (.env b)

/-- Related shared states and, place by place, related processes. -/
structure World.Related (R : σ → σ → Prop) (P : L → L → Prop) (w w' : World σ L) : Prop where
  shared : R w.shared w'.shared
  length : w.procs.length = w'.procs.length
  procs : ∀ (i : ℕ) (l l' : L), w.procs[i]? = some l → w'.procs[i]? = some l' → P l l'

namespace System

variable (sys : System σ L ρ α β) {R : σ → σ → Prop} {P : L → L → Prop}

theorem related_arrive {w w' : World σ L} (h : World.Related R P w w') {r r' : ρ}
    (hr : P (sys.arrive r) (sys.arrive r')) :
    World.Related R P (sys.step w (.arrive r)) (sys.step w' (.arrive r')) := by
  rw [step_arrive, step_arrive]
  refine ⟨h.shared, by simp [h.length], fun i l l' hl hl' => ?_⟩
  dsimp only at hl hl'
  rcases Nat.lt_or_ge i w.procs.length with hlt | hge
  · rw [List.getElem?_append_left hlt] at hl
    rw [List.getElem?_append_left (h.length ▸ hlt)] at hl'
    exact h.procs i l l' hl hl'
  · rw [List.getElem?_append_right hge, List.getElem?_singleton] at hl
    rw [List.getElem?_append_right (h.length ▸ hge), List.getElem?_singleton] at hl'
    split at hl
    · split at hl'
      · cases hl
        cases hl'
        exact hr
      · cases hl'
    · cases hl

theorem related_act {w w' : World σ L} (h : World.Related R P w w') {i : ℕ} {l l' : L}
    (hi : w.procs[i]? = some l) (hi' : w'.procs[i]? = some l') {a : α}
    (hshared : R (sys.act i a w.shared l).1 (sys.act i a w'.shared l').1)
    (hproc : P (sys.act i a w.shared l).2 (sys.act i a w'.shared l').2) :
    World.Related R P (sys.step w (.act i a)) (sys.step w' (.act i a)) := by
  rw [sys.step_act_of_some hi, sys.step_act_of_some hi']
  refine ⟨hshared, by simp [h.length], fun j k k' hk hk' => ?_⟩
  dsimp only at hk hk'
  by_cases hij : i = j
  · subst hij
    obtain ⟨hlt, -⟩ := List.getElem?_eq_some_iff.mp hi
    rw [List.getElem?_set_self hlt, Option.some.injEq] at hk
    rw [List.getElem?_set_self (h.length ▸ hlt), Option.some.injEq] at hk'
    exact hk ▸ hk' ▸ hproc
  · rw [List.getElem?_set_ne hij] at hk hk'
    exact h.procs j k k' hk hk'

/-- **The two-run rule.**  When the arriving processes are related, and actions and environment keep
shared states and processes related, two runs with the same schedule are related at every instant.
`D` is what is known from outside about corresponding processes. -/
theorem related_stateAt {q : ρ → ρ → Prop} {D : L → L → Prop} {s s' : σ}
    {es es' : List (Event ρ α β)} (hes : List.Forall₂ (Event.Alike q) es es') (hinit : R s s')
    (hD : ∀ (n i : ℕ) (l l' : L), (Run.stateAt sys.step ⟨s, []⟩ es n).procs[i]? = some l →
      (Run.stateAt sys.step ⟨s', []⟩ es' n).procs[i]? = some l' → D l l')
    (harrive : ∀ r r', q r r' → P (sys.arrive r) (sys.arrive r'))
    (hact : ∀ i a t t' l l', R t t' → P l l' → D (sys.act i a t l).2 (sys.act i a t' l').2 →
      R (sys.act i a t l).1 (sys.act i a t' l').1 ∧ P (sys.act i a t l).2 (sys.act i a t' l').2)
    (henv : ∀ b t t', R t t' → R (sys.env b t) (sys.env b t')) (n : ℕ) :
    World.Related R P (Run.stateAt sys.step ⟨s, []⟩ es n)
      (Run.stateAt sys.step ⟨s', []⟩ es' n) := by
  have hempty : World.Related R P (⟨s, []⟩ : World σ L) ⟨s', []⟩ :=
    ⟨hinit, rfl, fun i l l' hl => by cases hl⟩
  refine Run.stateAt_related (r := World.Related R P) (H := fun n => ∀ (i : ℕ) (l l' : L),
    (Run.stateAt sys.step ⟨s, []⟩ es n).procs[i]? = some l →
    (Run.stateAt sys.step ⟨s', []⟩ es' n).procs[i]? = some l' → D l l') hes hempty hD ?_ n
  intro n e e' hn hn' halike hDn hrelated
  rw [Run.stateAt_succ_of_getElem? _ hn, Run.stateAt_succ_of_getElem? _ hn'] at hDn
  cases halike with
  | arrive r r' hr => exact sys.related_arrive hrelated (harrive r r' hr)
  | env b => exact ⟨henv b _ _ hrelated.shared, hrelated.length, hrelated.procs⟩
  | act i a =>
    cases hi : (Run.stateAt sys.step ⟨s, []⟩ es n).procs[i]? with
    | none =>
      have hi' : (Run.stateAt sys.step ⟨s', []⟩ es' n).procs[i]? = none := by
        rw [List.getElem?_eq_none_iff] at hi ⊢
        exact hrelated.length ▸ hi
      rw [sys.step_act_of_none hi, sys.step_act_of_none hi']
      exact hrelated
    | some l =>
      obtain ⟨hlt, -⟩ := List.getElem?_eq_some_iff.mp hi
      have hi' := List.getElem?_eq_getElem (hrelated.length ▸ hlt)
      obtain ⟨hshared, hproc⟩ := hact i a _ _ l _ hrelated.shared
        (hrelated.procs i l _ hi hi') (hDn i _ _ (sys.getElem?_step_act_self hi a)
          (sys.getElem?_step_act_self hi' a))
      exact sys.related_act hrelated hi hi' hshared hproc

end System
end Interleaving
end UrlShortener
