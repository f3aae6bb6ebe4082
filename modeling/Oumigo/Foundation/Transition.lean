import Mathlib.Data.List.Basic
import Mathlib.Tactic.Common

/-!
# Labelled transition systems with a step function

A `Transition.System` is a set of initial states and a partial step function of
the state and a label; `none` means the label is not enabled.  This module
states once what an induction over its runs gives.

* `System.ReachableBy G`: the states some run reaches whose every step satisfies
  `G`; `System.Reachable` is the case without a condition.
* `System.ReachableBy.invariant`: what holds initially and is kept by each
  admitted step holds of every reached state.
* `System.History`: a run with every state it went through, newest first, for
  statements that compare a state with earlier ones.
-/

namespace Transition

/-- Initial states, and a step function that is undefined on disabled labels. -/
structure System (σ ε : Type*) where
  init : σ → Prop
  step : σ → ε → Option σ

namespace System

variable {σ ε : Type*} {M : System σ ε} {G H : σ → ε → Prop}

/-- Reached by a run whose every step, taken from `s` with label `e`, satisfies
`G s e`. -/
inductive ReachableBy (M : System σ ε) (G : σ → ε → Prop) : σ → Prop
  | init {s : σ} : M.init s → ReachableBy M G s
  | step {s s' : σ} {e : ε} :
    ReachableBy M G s → G s e → M.step s e = some s' → ReachableBy M G s'

/-- Reached by any run. -/
abbrev Reachable (M : System σ ε) : σ → Prop :=
  M.ReachableBy fun _ _ => True

theorem ReachableBy.mono (sub : ∀ s e, G s e → H s e) {s : σ}
    (reached : M.ReachableBy G s) : M.ReachableBy H s := by
  induction reached with
  | init start => exact .init start
  | step _ guard run ih => exact .step ih (sub _ _ guard) run

theorem ReachableBy.reachable {s : σ} (reached : M.ReachableBy G s) : M.Reachable s :=
  reached.mono fun _ _ _ => trivial

/-- **Invariant rule.**  A predicate that holds initially and is kept by every
admitted step holds of every reached state. -/
theorem ReachableBy.invariant {I : σ → Prop} (base : ∀ s, M.init s → I s)
    (keep : ∀ s e s', I s → G s e → M.step s e = some s' → I s') {s : σ}
    (reached : M.ReachableBy G s) : I s := by
  induction reached with
  | init start => exact base _ start
  | step _ guard run ih => exact keep _ _ _ ih guard run

/-- The state after a list of labels, if each is enabled in turn. -/
def run (M : System σ ε) : σ → List ε → Option σ
  | s, [] => some s
  | s, e :: es => (M.step s e).bind fun s' => M.run s' es

theorem run_append {s : σ} (es es' : List ε) :
    M.run s (es ++ es') = (M.run s es).bind fun s' => M.run s' es' := by
  induction es generalizing s with
  | nil => rfl
  | cons e es ih =>
    rw [List.cons_append, run, run, Option.bind_assoc]
    exact congrArg _ (funext fun _ => ih)

/-- A reached state is extended by labels that are admitted in every state. -/
theorem ReachableBy.run {s : σ} {es : List ε} {s' : σ} (reached : M.ReachableBy G s)
    (admitted : ∀ e ∈ es, ∀ s, G s e) (steps : M.run s es = some s') : M.ReachableBy G s' := by
  induction es generalizing s with
  | nil => cases steps; exact reached
  | cons e es ih =>
    obtain ⟨next, first, rest⟩ := Option.bind_eq_some_iff.mp steps
    have here : G s e := admitted e List.mem_cons_self s
    have later : ∀ e ∈ es, ∀ s, G s e := fun e member => admitted e (List.mem_cons_of_mem _ member)
    exact ih (.step reached here first) later rest

theorem ReachableBy.of_run {s s' : σ} {es : List ε} (start : M.init s)
    (steps : M.run s es = some s') : M.Reachable s' :=
  ReachableBy.run (.init start) (fun _ _ _ => trivial) steps

/-- A run as the list of the states it went through, newest first. -/
inductive History (M : System σ ε) : List σ → Prop
  | init {s : σ} : M.init s → History M [s]
  | step {s s' : σ} {past : List σ} {e : ε} :
    History M (s :: past) → M.step s e = some s' → History M (s' :: s :: past)

end System

end Transition
