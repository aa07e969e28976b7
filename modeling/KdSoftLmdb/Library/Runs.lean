import Mathlib

/-!
# Runs of a labelled transition relation

`Run step allowed start labels state` says that the labels lead from `start` to
`state`, one transition each, and that every transition was taken from a state
in which `allowed` accepts its label. The condition talks about the state
*before* the transition, so it can be read as a rule the caller follows.

`Run.invariant` packages the induction: what one allowed transition preserves, a
whole run preserves. `replay` computes a run from a functional step.
-/

namespace KdSoftLmdb

variable {σ ℓ : Type}

/-- A finite run whose transitions all meet a condition. -/
inductive Run (step : σ → ℓ → σ → Prop) (allowed : σ → ℓ → Prop) (start : σ) :
    List ℓ → σ → Prop where
  | nil : Run step allowed start [] start
  | snoc {labels state label next} (prior : Run step allowed start labels state)
      (condition : allowed state label) (transition : step state label next) :
      Run step allowed start (labels ++ [label]) next

/-- No condition on the transitions of a run. -/
def Always : σ → ℓ → Prop := fun _ _ => True

namespace Run

variable {step : σ → ℓ → σ → Prop} {allowed weaker : σ → ℓ → Prop} {start middle state : σ}
  {labels later : List ℓ}

/-- What holds initially and is kept by every allowed transition holds at the end. -/
theorem invariant (run : Run step allowed start labels state) (holds : σ → Prop)
    (initial : holds start)
    (preserved : ∀ {before label after}, holds before → allowed before label →
      step before label after → holds after) : holds state := by
  induction run with
  | nil => exact initial
  | snoc _ condition transition ih => exact preserved ih condition transition

/-- A run under a condition is a run under every weaker condition. -/
theorem mono (run : Run step allowed start labels state)
    (weaken : ∀ {before label}, allowed before label → weaker before label) :
    Run step weaker start labels state := by
  induction run with
  | nil => exact .nil
  | snoc _ condition transition ih => exact .snoc ih (weaken condition) transition

/-- Runs that meet in a state compose. -/
theorem trans (first : Run step allowed start labels middle)
    (second : Run step allowed middle later state) :
    Run step allowed start (labels ++ later) state := by
  induction second with
  | nil => simpa using first
  | snoc _ condition transition ih =>
      simpa [List.append_assoc] using Run.snoc ih condition transition

/-- One transition is a run. -/
theorem single {label : ℓ} (condition : allowed start label) (transition : step start label state) :
    Run step allowed start [label] state := by
  simpa using Run.snoc (.nil : Run step allowed start [] start) condition transition

end Run

/-- Replay labels with a functional step, checking the condition before each. -/
def replay (step : σ → ℓ → Option σ) (allowed : σ → ℓ → Bool) : σ → List ℓ → Option σ
  | state, [] => some state
  | state, label :: rest =>
      if allowed state label then (step state label).bind fun next => replay step allowed next rest
      else none

/-- A replay that comes through is a run. -/
theorem run_of_replay {step : σ → ℓ → σ → Prop} {allowed : σ → ℓ → Prop}
    {next : σ → ℓ → Option σ} {check : σ → ℓ → Bool}
    (stepSound : ∀ {before label after}, next before label = some after → step before label after)
    (checkSound : ∀ {before label}, check before label = true → allowed before label)
    {labels : List ℓ} {start state : σ} (replayed : replay next check start labels = some state) :
    Run step allowed start labels state := by
  induction labels generalizing start with
  | nil =>
      cases replayed
      exact .nil
  | cons label rest ih =>
      rw [replay] at replayed
      split at replayed
      · rename_i condition
        obtain ⟨middle, stepped, tail⟩ := Option.bind_eq_some_iff.mp replayed
        exact (Run.single (checkSound condition) (stepSound stepped)).trans (ih tail)
      · cases replayed

end KdSoftLmdb
