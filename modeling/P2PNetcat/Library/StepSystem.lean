import Mathlib.Logic.Relation

/-!
# Runs of an executable step function

`step s e` is the state after event `e`, or `none` where the event is not
enabled. A run is taken under a side condition `ok` on the state and the event,
so that one definition serves both for all runs and for the runs whose steps
all meet a condition.
-/

namespace StepSystem

universe u v
variable {σ : Type u} {ε : Type v}

/-- A finite run along the listed events, each admitted by `ok` and enabled. -/
inductive Run (step : σ → ε → Option σ) (ok : σ → ε → Prop) : σ → List ε → σ → Prop where
  | nil (s : σ) : Run step ok s [] s
  | cons {s t u : σ} {e : ε} {es : List ε} :
      ok s e → step s e = some t → Run step ok t es u → Run step ok s (e :: es) u

theorem guard_eq_some {p : Prop} [Decidable p] {s t : σ} :
    (if p then some s else none) = some t ↔ p ∧ s = t := by
  rw [Option.ite_none_right_eq_some, Option.some.injEq]

theorem unless_eq_some {p : Prop} [Decidable p] {s t : σ} :
    (if p then none else some s) = some t ↔ ¬ p ∧ s = t := by
  rw [Option.ite_none_left_eq_some, Option.some.injEq]

def Any : σ → ε → Prop := fun _ _ => True

def Reach (step : σ → ε → Option σ) (s t : σ) : Prop := ∃ es, Run step Any s es t

namespace Run
variable {step : σ → ε → Option σ} {ok ok' : σ → ε → Prop} {s t u : σ} {es fs : List ε}

theorem single {e : ε} (hok : ok s e) (h : step s e = some t) : Run step ok s [e] t :=
  .cons hok h (.nil t)

theorem append (h : Run step ok s es t) (h' : Run step ok t fs u) :
    Run step ok s (es ++ fs) u := by
  induction h with
  | nil => exact h'
  | cons hok hs _ ih => exact .cons hok hs (ih h')

theorem mono (himp : ∀ s e, ok s e → ok' s e) (h : Run step ok s es t) :
    Run step ok' s es t := by
  induction h with
  | nil => exact .nil _
  | cons hok hs _ ih => exact .cons (himp _ _ hok) hs ih

/-- The steps of a run under other names. -/
theorem map {ε' : Type v} {step' : σ → ε' → Option σ} {ok' : σ → ε' → Prop} (f : ε → ε')
    (hok : ∀ s e, ok s e → ok' s (f e)) (hstep : ∀ s e, step' s (f e) = step s e)
    (h : Run step ok s es t) : Run step' ok' s (es.map f) t := by
  induction h with
  | nil => exact .nil _
  | cons hs hst _ ih => exact .cons (hok _ _ hs) ((hstep _ _).trans hst) ih

/-- What every admitted step preserves holds at the end of every run. -/
theorem invariant {I : σ → Prop}
    (hstep : ∀ {s e t}, I s → ok s e → step s e = some t → I t)
    (h : Run step ok s es t) (hs : I s) : I t := by
  induction h with
  | nil => exact hs
  | cons hok hst _ ih => exact ih (hstep hs hok hst)

/-- A run to the goal passes a first state at the goal, up to which what every step short of the goal
preserves still holds. -/
theorem exists_until {I P : σ → Prop}
    (hstep : ∀ {s e t}, I s → ¬ P s → ok s e → step s e = some t → I t)
    (h : Run step ok s es t) (ht : P t) (hs : I s) :
    ∃ fs u, Run step ok s fs u ∧ I u ∧ P u := by
  induction h with
  | nil s => exact ⟨[], s, .nil s, hs, ht⟩
  | @cons s s' t e es hok hst _ ih =>
    by_cases hgoal : P s
    · exact ⟨[], s, .nil s, hs, hgoal⟩
    · obtain ⟨fs, u, hrun, hu⟩ := ih ht (hstep hs hgoal hok hst)
      exact ⟨e :: fs, u, .cons hok hst hrun, hu⟩

theorem exists_leave {P : σ → Prop} (h : Run step ok s es t) (hs : P s) (ht : ¬ P t) :
    ∃ fs e gs u v, es = fs ++ e :: gs ∧ Run step ok s fs u ∧ P u ∧ ok u e ∧
      step u e = some v ∧ ¬ P v ∧ Run step ok v gs t := by
  induction h with
  | nil s => exact absurd hs ht
  | @cons s s' t e es hok hst hrest ih =>
    by_cases hs' : P s'
    · obtain ⟨fs, e', gs, u, v, rfl, hrun, hrest⟩ := ih hs' ht
      exact ⟨e :: fs, e', gs, u, v, rfl, .cons hok hst hrun, hrest⟩
    · exact ⟨[], e, es, s, s', rfl, .nil s, hs, hok, hst, hs', hrest⟩

/-- Where every state short of the goal has an admitted step that keeps `I` and lowers `μ`, some
run reaches the goal. -/
theorem exists_of_variant {I goal : σ → Prop} (μ : σ → Nat)
    (hstep : ∀ s, I s → ¬ goal s → ∃ e t, ok s e ∧ step s e = some t ∧ I t ∧ μ t < μ s)
    (s : σ) (hs : I s) : ∃ es t, Run step ok s es t ∧ I t ∧ goal t := by
  induction hn : μ s using Nat.strongRecOn generalizing s with
  | _ n ih =>
    by_cases hgoal : goal s
    · exact ⟨[], s, .nil s, hs, hgoal⟩
    obtain ⟨e, t, hok, hst, ht, hlt⟩ := hstep s hs hgoal
    obtain ⟨es, u, hrun, hu, hgoal⟩ := ih (μ t) (hn ▸ hlt) t ht rfl
    exact ⟨e :: es, u, .cons hok hst hrun, hu, hgoal⟩

end Run

namespace Reach
variable {step : σ → ε → Option σ} {s t u : σ}

theorem refl (s : σ) : Reach step s s := ⟨[], .nil s⟩

theorem invariant {I : σ → Prop} (hstep : ∀ {s e t}, I s → step s e = some t → I t)
    (h : Reach step s t) (hs : I s) : I t := by
  obtain ⟨es, hes⟩ := h
  exact hes.invariant (fun hi _ hst => hstep hi hst) hs

end Reach

instance (s : σ) (e : ε) : Decidable (Any s e) := inferInstanceAs (Decidable True)

section Execution
variable (step : σ → ε → Option σ) (ok : σ → ε → Prop) [∀ s e, Decidable (ok s e)]

def exec : σ → List ε → Option σ
  | s, [] => some s
  | s, e :: es =>
    if ok s e then
      match step s e with
      | some t => exec t es
      | none => none
    else none

theorem run_of_exec {s t : σ} {es : List ε} (h : exec step ok s es = some t) :
    Run step ok s es t := by
  induction es generalizing s with
  | nil =>
    cases h
    exact .nil _
  | cons e es ih =>
    obtain ⟨hok, h⟩ := Option.ite_none_right_eq_some.mp h
    split at h
    next u hu =>
      exact .cons hok hu (ih h)
    · cases h

theorem run_exec (s : σ) (es : List ε) (h : (exec step ok s es).isSome) :
    Run step ok s es ((exec step ok s es).get h) :=
  run_of_exec step ok (Option.some_get h).symm

end Execution

end StepSystem
