import UrlShortener.Library.Interleaving

/-!
# Traces and simulations

A run looks different from each of its components: the component sees the operations that concern
it, in order.  The trace of a run collects what its events give rise to, each in the state it
finds.  A component is a machine of its own, with a step and a reply for every operation.

## What is proved

* `Run.simulates` is the rule of forward simulation.  When every step of a system moves a related
  component as the operations of the step do, and shows the replies the component gives, then so
  does every run.
* `System.simulates` is the rule for processes, where only actions and the environment give rise to
  operations, and `System.follows` its form for a component that gives no replies.
* `System.ownTrace_run` is the rule for what one process has done: it is related to the state of the
  process if its own actions keep it so.
-/

set_option autoImplicit false

namespace UrlShortener
namespace Run

variable {σ τ ε ο ω : Type*}

section Trace

variable (step : σ → ε → σ) (f : σ → ε → List ο)

/-- What the events of a run give rise to. -/
def trace : σ → List ε → List ο
  | _, [] => []
  | s, e :: es => f s e ++ trace (step s e) es

theorem exec_append (s : σ) (es es' : List ε) :
    exec step s (es ++ es') = exec step (exec step s es) es' := List.foldl_append

theorem trace_append (s : σ) (es es' : List ε) :
    trace step f s (es ++ es') = trace step f s es ++ trace step f (exec step s es) es' := by
  induction es generalizing s with
  | nil => rfl
  | cons e es ih =>
    rw [List.cons_append, trace, trace, ih, List.append_assoc]
    rfl

theorem trace_concat (s : σ) (es : List ε) (e : ε) :
    trace step f s (es ++ [e]) = trace step f s es ++ f (exec step s es) e := by
  rw [trace_append, trace, trace, List.append_nil]

theorem trace_map (g : ο → ω) (s : σ) (es : List ε) :
    trace step (fun s e => (f s e).map g) s es = (trace step f s es).map g := by
  induction es generalizing s with
  | nil => rfl
  | cons e es ih => rw [trace, trace, List.map_append, ih]

/-- What is in a trace was given rise to at some instant. -/
theorem mem_trace {o : ο} {s : σ} {es : List ε} (h : o ∈ trace step f s es) :
    ∃ n e, es[n]? = some e ∧ o ∈ f (stateAt step s es n) e := by
  induction es generalizing s with
  | nil => cases h
  | cons e es ih =>
    rcases List.mem_append.mp h with hnow | hlater
    · exact ⟨0, e, rfl, hnow⟩
    · obtain ⟨n, e', he', hn⟩ := ih hlater
      exact ⟨n + 1, e', he', hn⟩

/-- Events that give rise to nothing. -/
theorem trace_nil (s : σ) (es : List ε) : trace step (fun _ _ => ([] : List ο)) s es = [] := by
  induction es generalizing s with
  | nil => rfl
  | cons e es ih => rw [trace, List.nil_append, ih]

end Trace

/-- **The simulation rule.**  `f` says which operations of the component a step amounts to, and
`shown` what the step shows of its replies. -/
theorem simulates (step : σ → ε → σ) (f : σ → ε → List ο) (shown : σ → ε → List ω)
    (apply : τ → ο → τ) (reply : τ → ο → List ω) {R : σ → τ → Prop}
    (hstep : ∀ s e t, R s t → R (step s e) (exec apply t (f s e)) ∧
      shown s e = trace apply reply t (f s e)) {s : σ} {t : τ} (h : R s t) (es : List ε) :
    R (exec step s es) (exec apply t (trace step f s es)) ∧
      trace step shown s es = trace apply reply t (trace step f s es) := by
  induction es generalizing s t with
  | nil => exact ⟨h, rfl⟩
  | cons e es ih =>
    obtain ⟨hR, hshown⟩ := hstep s e t h
    obtain ⟨hR', hshown'⟩ := ih hR
    rw [trace, trace, exec_append, trace_append, hshown, hshown']
    exact ⟨hR', rfl⟩

end Run

namespace Interleaving
namespace System

variable {σ L ρ α β τ ο ω : Type*} (sys : System σ L ρ α β)

/-- What an event gives rise to, when actions and the environment do. -/
def emits (f : ℕ → α → σ → L → List ο) (g : β → σ → List ο) (w : World σ L) :
    Event ρ α β → List ο
  | .arrive _ => []
  | .act i a => w.procs[i]?.elim [] (f i a w.shared)
  | .env b => g b w.shared

/-- What the events of a run give rise to. -/
def trace (f : ℕ → α → σ → L → List ο) (g : β → σ → List ο) (w : World σ L)
    (es : List (Event ρ α β)) : List ο :=
  Run.trace sys.step (emits f g) w es

theorem trace_append (f : ℕ → α → σ → L → List ο) (g : β → σ → List ο) (w : World σ L)
    (es es' : List (Event ρ α β)) :
    sys.trace f g w (es ++ es') =
      sys.trace f g w es ++ sys.trace f g (Run.exec sys.step w es) es' :=
  Run.trace_append sys.step _ w es es'

/-- **The simulation rule for processes.**  The component is related to the shared state.  Actions
of processes and the environment amount to operations of it, and what an action shows is what the
component replies. -/
theorem simulates (f : ℕ → α → σ → L → List ο) (g : β → σ → List ο)
    (shown : ℕ → α → σ → L → List ω) (apply : τ → ο → τ) (reply : τ → ο → List ω)
    {R : σ → τ → Prop} {s : σ}
    (hact : ∀ es i a l t, (sys.run s es).procs[i]? = some l → R (sys.run s es).shared t →
      R (sys.act i a (sys.run s es).shared l).1
          (Run.exec apply t (f i a (sys.run s es).shared l)) ∧
        shown i a (sys.run s es).shared l =
          Run.trace apply reply t (f i a (sys.run s es).shared l))
    (henv : ∀ b s' t, R s' t → R (sys.env b s') (Run.exec apply t (g b s')) ∧
      Run.trace apply reply t (g b s') = [])
    {es : List (Event ρ α β)} {t : τ} (h : R (sys.run s es).shared t)
    (es' : List (Event ρ α β)) :
    R (sys.run s (es ++ es')).shared
        (Run.exec apply t (sys.trace f g (sys.run s es) es')) ∧
      sys.trace shown (fun _ _ => []) (sys.run s es) es' =
        Run.trace apply reply t (sys.trace f g (sys.run s es) es') := by
  have hrun := Run.simulates sys.step (emits f g) (emits shown fun _ _ => []) apply reply
    (R := fun w t => (∃ es, w = sys.run s es) ∧ R w.shared t) ?_ ⟨⟨es, rfl⟩, h⟩ es'
  · rw [run_append]
    exact ⟨hrun.1.2, hrun.2⟩
  · rintro _ e t ⟨⟨es, rfl⟩, hR⟩
    have hreach : ∃ es', sys.step (sys.run s es) e = sys.run s es' :=
      ⟨es ++ [e], (sys.run_concat s es e).symm⟩
    cases e with
    | arrive r => exact ⟨⟨hreach, hR⟩, rfl⟩
    | env b =>
      obtain ⟨hR', hsilent⟩ := henv b _ t hR
      exact ⟨⟨hreach, hR'⟩, hsilent.symm⟩
    | act i a =>
      cases hi : (sys.run s es).procs[i]? with
      | none =>
        rw [emits, emits, hi, Option.elim_none, Option.elim_none]
        refine ⟨⟨hreach, ?_⟩, rfl⟩
        rw [sys.step_act_of_none hi]
        exact hR
      | some l =>
        obtain ⟨hR', hshown⟩ := hact es i a l t hi hR
        rw [emits, emits, hi, Option.elim_some, Option.elim_some]
        refine ⟨⟨hreach, ?_⟩, hshown⟩
        rw [sys.step_act_of_some hi]
        exact hR'

/-- The rule for a component that only follows. -/
theorem follows (f : ℕ → α → σ → L → List ο) (apply : τ → ο → τ) {R : σ → τ → Prop} {s : σ}
    (hact : ∀ es i a l t, (sys.run s es).procs[i]? = some l → R (sys.run s es).shared t →
      R (sys.act i a (sys.run s es).shared l).1
        (Run.exec apply t (f i a (sys.run s es).shared l)))
    (henv : ∀ b s' t, R s' t → R (sys.env b s') t) {es : List (Event ρ α β)} {t : τ}
    (h : R (sys.run s es).shared t) (es' : List (Event ρ α β)) :
    R (sys.run s (es ++ es')).shared
      (Run.exec apply t (sys.trace f (fun _ _ => []) (sys.run s es) es')) :=
  (sys.simulates f (fun _ _ => []) (fun _ _ _ _ => ([] : List Unit)) apply (fun _ _ => [])
    (fun es i a l t hi hR => ⟨hact es i a l t hi hR, (Run.trace_nil _ _ _).symm⟩)
    (fun b s' t hR => ⟨henv b s' t hR, rfl⟩) h es').1

/-! ## What one process has done -/

/-- What the actions of process `i` give rise to. -/
def own (f : α → σ → L → List ο) (i : ℕ) : ℕ → α → σ → L → List ο :=
  fun j a s l => if j = i then f a s l else []

/-- What process `i` has done in a run. -/
def ownTrace (f : α → σ → L → List ο) (i : ℕ) (s : σ) (es : List (Event ρ α β)) : List ο :=
  sys.trace (own f i) (fun _ _ => []) (sys.run s []) es

section Own

variable {f : α → σ → L → List ο} {s : σ} {es : List (Event ρ α β)} {i : ℕ}

theorem ownTrace_concat (e : Event ρ α β) :
    sys.ownTrace f i s (es ++ [e]) = sys.ownTrace f i s es ++
      emits (own f i) (fun _ _ => []) (sys.run s es) e := Run.trace_concat ..

/-- Only its own actions count. -/
theorem ownTrace_concat_of_ne {e : Event ρ α β} (he : ∀ a, e ≠ .act i a) :
    sys.ownTrace f i s (es ++ [e]) = sys.ownTrace f i s es := by
  rw [ownTrace_concat]
  refine (congrArg _ ?_).trans (List.append_nil _)
  cases e with
  | arrive r => rfl
  | env b => rfl
  | act j a =>
    have hne : j ≠ i := by
      rintro rfl
      exact he a rfl
    rw [emits]
    cases (sys.run s es).procs[j]? with
    | none => rfl
    | some l => exact if_neg hne

/-- Before it arrives, a process has done nothing. -/
theorem ownTrace_of_length_le (hi : (sys.run s es).procs.length ≤ i) :
    sys.ownTrace f i s es = [] := by
  induction es using List.reverseRecOn with
  | nil => rfl
  | append_singleton es e ih =>
    rw [run_concat] at hi
    rw [ownTrace_concat]
    cases e with
    | arrive r =>
      rw [step_arrive, List.length_append] at hi
      exact List.append_eq_nil_iff.mpr ⟨ih (by omega), rfl⟩
    | env b => exact List.append_eq_nil_iff.mpr ⟨ih hi, rfl⟩
    | act j a =>
      cases hj : (sys.run s es).procs[j]? with
      | none =>
        rw [sys.step_act_of_none hj] at hi
        refine List.append_eq_nil_iff.mpr ⟨ih hi, ?_⟩
        rw [emits, hj, Option.elim_none]
      | some l =>
        rw [sys.step_act_of_some hj, List.length_set] at hi
        refine List.append_eq_nil_iff.mpr ⟨ih hi, ?_⟩
        obtain ⟨hlt, -⟩ := List.getElem?_eq_some_iff.mp hj
        rw [emits, hj, Option.elim_some]
        exact if_neg (by omega)

/-- **The rule for what one process has done**: its own actions keep its state and its trace in
relation. -/
theorem ownTrace_run {P : List ο → L → Prop} (harrive : ∀ r, P [] (sys.arrive r))
    (hact : ∀ es i a l t, (sys.run s es).procs[i]? = some l → P t l →
      P (t ++ f a (sys.run s es).shared l) (sys.act i a (sys.run s es).shared l).2)
    (es : List (Event ρ α β)) {i : ℕ} {l : L} (hi : (sys.run s es).procs[i]? = some l) :
    P (sys.ownTrace f i s es) l := by
  refine sys.own_history (P := fun es i l => P (sys.ownTrace f i s es) l) ?_ ?_ ?_ es hi
  · intro es r
    rw [sys.ownTrace_concat_of_ne (by simp), sys.ownTrace_of_length_le (Nat.le_refl _)]
    exact harrive r
  · intro es i a l hi hP
    rw [ownTrace_concat, emits, hi, Option.elim_some, own, if_pos rfl]
    exact hact es i a l _ hi hP
  · intro es e i l he hP
    rw [sys.ownTrace_concat_of_ne he]
    exact hP

end Own

end System
end Interleaving
end UrlShortener
