import Oumigo.Foundation.Effect
import Oumigo.Guard.Verdict

/-!
# Guard chains and profiles

`guard/guard.py`, `guard/chain.py` and `guard/profile.py`.  A guard is a function
of the point and the context that may read and change the world and may raise; it
does not mutate the values it is shown.
-/

namespace Oumigo

open Python

/-- What a guard sees. -/
structure GuardContext where
  content : PyVal
  toolName : Option String := none
  messages : Option (List PyVal) := none
  system : Option String := none

/-- A guard, with the `points` it declares in a collection that can be reused. -/
structure Guard (W : Type) where
  points : Option (List InterceptPoint)
  intercept : InterceptPoint → GuardContext → EStateM Exn W Verdict

structure ChainOutcome where
  verdict : Verdict
  content : PyVal
  flags : List Verdict

variable {W : Type}

/-- `_applies`. -/
def Guard.applies (guard : Guard W) (point : InterceptPoint) : Bool :=
  match guard.points with
  | none => true
  | some declared => declared.contains point

namespace GuardChain

/-- `GuardChain.active_points`, with the points collected so far. -/
def activePoints : List (Guard W) → List InterceptPoint → List InterceptPoint
  | [], points => points
  | guard :: rest, points =>
      match guard.points with
      | none => InterceptPoint.all
      | some declared => activePoints rest (points ++ declared)

/-- `GuardChain._consult`: a guard that raises blocks. -/
def consult (guard : Guard W) (point : InterceptPoint) (ctx : GuardContext) :
    EStateM Exn W Verdict :=
  tryCatch (guard.intercept point ctx) fun exn =>
    if exn.isException then
      pure (Verdict.block ("guard error: " ++ exn.typeName ++ ": " ++ exn.text))
    else throw exn

/-- The loop of `GuardChain.evaluate`. -/
def evaluate (point : InterceptPoint) (ctx : GuardContext) :
    List (Guard W) → PyVal → List Verdict → EStateM Exn W ChainOutcome
  | [], content, flags => pure ⟨.allow, content, flags⟩
  | guard :: rest, content, flags =>
      if !guard.applies point then evaluate point ctx rest content flags
      else do
        let verdict ← consult guard point { ctx with content := content }
        if verdict.isAllow then evaluate point ctx rest content flags
        else if verdict.isFlag then evaluate point ctx rest content (flags ++ [verdict])
        else if verdict.isTransform then evaluate point ctx rest verdict.content flags
        else pure ⟨verdict, content, flags⟩

end GuardChain

/-- A named set of guards. -/
structure GuardProfile (W : Type) where
  name : String
  guards : List (Guard W)

namespace GuardProfile

def isEmpty (profile : GuardProfile W) : Bool := profile.guards.isEmpty

def activePoints (profile : GuardProfile W) : List InterceptPoint :=
  GuardChain.activePoints profile.guards []

def evaluate (profile : GuardProfile W) (point : InterceptPoint) (ctx : GuardContext) :
    EStateM Exn W ChainOutcome :=
  GuardChain.evaluate point ctx profile.guards ctx.content []

end GuardProfile

/-! ## What a chain guarantees -/

namespace GuardChain

theorem mem_activePoints {guards : List (Guard W)} {points : List InterceptPoint}
    {point : InterceptPoint} :
    point ∈ activePoints guards points ↔
      point ∈ points ∨ ∃ guard ∈ guards, guard.applies point := by
  induction guards generalizing points with
  | nil => simp [activePoints]
  | cons guard rest ih =>
    unfold activePoints
    cases scope : guard.points with
    | none =>
      have covers : guard.applies point := by
        unfold Guard.applies
        rw [scope]
      exact ⟨fun _ => Or.inr ⟨guard, List.mem_cons_self, covers⟩,
        fun _ => point.mem_all⟩
    | some declared =>
      have covers : guard.applies point ↔ point ∈ declared := by
        unfold Guard.applies
        rw [scope]
        exact List.contains_iff_mem
      dsimp only
      rw [ih, List.mem_append, or_assoc]
      simp only [List.mem_cons, exists_eq_or_imp, covers]

/-- **A chain either halts or allows.**  Flags and rewrites never end it. -/
theorem evaluate_verdict (point : InterceptPoint) (ctx : GuardContext) (guards : List (Guard W))
    (content : PyVal) (flags : List Verdict) :
    Effect.Ensures (fun _ : W => ()) (evaluate point ctx guards content flags) ()
      (fun outcome _ => outcome.verdict.halts ∨ outcome.verdict = .allow) fun _ => True := by
  induction guards generalizing content flags with
  | nil => exact .pure (Or.inr rfl)
  | cons guard rest ih =>
    refine .ite (fun _ => ih content flags) fun _ => ?_
    refine .silent_bind (fun _ => rfl) trivial fun verdict => ?_
    refine .ite (fun _ => ih content flags) fun noAllow => ?_
    refine .ite (fun _ => ih content _) fun noFlag => ?_
    refine .ite (fun _ => ih _ flags) fun noTransform => ?_
    exact .pure (Or.inl (Verdict.halts_of_decisive noAllow noFlag noTransform))

end GuardChain

theorem GuardProfile.mem_activePoints {profile : GuardProfile W} {point : InterceptPoint} :
    point ∈ profile.activePoints ↔ ∃ guard ∈ profile.guards, guard.applies point := by
  unfold activePoints
  rw [GuardChain.mem_activePoints]
  simp

end Oumigo
