import Oumigo.Foundation.Transition

/-!
# Counting down over a run

A variant of a system is a number that no step raises and that every step with one of certain
labels lowers.  Whatever else happens in between, a run has at most as many of these labels as the
variant says when it starts.  What an environment may do at any time is then no obstacle to a
result about termination.

* `System.run_stable`: what no step leaves, no run leaves.
* `System.IsVariant P own μ`: on the states of `P`, which no step leaves.
* `System.IsVariant.count_le`: the run rule.
* `System.without out`: the system without the labels of `out`, for a number that these raise.
-/

namespace Transition

namespace System

variable {σ ε : Type*} {M : System σ ε}

theorem run_stable {P : σ → Prop} (stable : ∀ s e s', P s → M.step s e = some s' → P s')
    {s s' : σ} {es : List ε} (start : P s) (steps : M.run s es = some s') : P s' := by
  induction es generalizing s with
  | nil => exact Option.some.inj steps ▸ start
  | cons e es ih =>
    obtain ⟨next, first, rest⟩ := Option.bind_eq_some_iff.mp steps
    exact ih (stable s e next start first) rest

/-- No step from a state of `P` leaves `P` or raises `μ`, and those with a label of `own` lower
it. -/
def IsVariant (M : System σ ε) (P : σ → Prop) (own : ε → Bool) (μ : σ → Nat) : Prop :=
  ∀ s e s', P s → M.step s e = some s' → P s' ∧ μ s' + (own e).toNat ≤ μ s

/-- **Variant rule.**  What is left of the variant after a run, and the labels it counted. -/
theorem IsVariant.count_le {P : σ → Prop} {own : ε → Bool} {μ : σ → Nat}
    (counts : M.IsVariant P own μ) {s s' : σ} {es : List ε} (start : P s)
    (steps : M.run s es = some s') : μ s' + es.countP own ≤ μ s := by
  induction es generalizing s with
  | nil =>
    cases steps
    simp
  | cons e es ih =>
    obtain ⟨next, first, rest⟩ := Option.bind_eq_some_iff.mp steps
    obtain ⟨stays, lower⟩ := counts s e next start first
    have below := ih stays rest
    have here : (e :: es).countP own = es.countP own + (own e).toNat := by
      rw [List.countP_cons]
      cases own e <;> rfl
    omega

/-- The labels of `out` are disabled. -/
def without (M : System σ ε) (out : ε → Bool) : System σ ε where
  init := M.init
  step s e := if out e then none else M.step s e

theorem step_without {out : ε → Bool} {s s' : σ} {e : ε} :
    (M.without out).step s e = some s' ↔ out e = false ∧ M.step s e = some s' := by
  change (if out e = true then none else M.step s e) = some s' ↔ _
  rw [Option.ite_none_left_eq_some, Bool.not_eq_true]

theorem run_without {out : ε → Bool} {s : σ} {es : List ε} (absent : ∀ e ∈ es, out e = false) :
    (M.without out).run s es = M.run s es := by
  induction es generalizing s with
  | nil => rfl
  | cons e es ih =>
    have here : (M.without out).step s e = M.step s e :=
      if_neg (Bool.not_eq_true _ ▸ absent e List.mem_cons_self)
    rw [run, run, here]
    exact congrArg _ (funext fun _ => ih fun e later => absent e (List.mem_cons_of_mem _ later))

end System

end Transition
