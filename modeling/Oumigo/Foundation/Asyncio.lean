import Mathlib.Data.List.Basic
import Mathlib.Tactic.Common

/-!
# A task suspended in `await asyncio.wait_for(fut, timeout)`

The single-threaded event loop runs a task up to its next `await`.  A task that
waits for a future leaves the loop free, so between the moment another task
resolves the future and the moment the waiting task runs again, a timeout or a
cancellation can still be delivered to it.  `WaitFor` lists the states of such a
task; a state that cannot occur (a result in a cancelled future, say) cannot be
written down.

* `WaitFor.setResult` is `fut.set_result`, defined only while `fut` is not done.
* `WaitFor.interrupt` delivers a timeout or a cancellation: it cancels a future
  that is still pending, and is raised at the `await` in any case.
* `WaitFor.resume` is what the task sees when it runs again: `none` while it has
  to stay suspended, else the result or the exception the `await` raises.
* `Call` is a coroutine call whose only `await` is such a wait; `Call.held?` is
  the resource it was given and has not given back.
-/

namespace Asyncio

/-- What ends a wait early: the wait's own timeout, or a cancellation of the task. -/
inductive Interrupt where
  | timeout
  | cancelled
  deriving DecidableEq, Repr

/-- A cancellation that arrives beside a timeout wins. -/
def Interrupt.merge : Interrupt → Interrupt → Interrupt
  | .timeout, .timeout => .timeout
  | _, _ => .cancelled

/-- A task suspended at a future. -/
inductive WaitFor (α : Type*) where
  /-- the future is not done -/
  | pending
  /-- the future has its result; the task has not run since -/
  | resolved (result : α)
  /-- interrupted while the future was pending, which cancelled the future -/
  | cancelled (cause : Interrupt)
  /-- interrupted after the future had its result -/
  | interrupted (result : α) (cause : Interrupt)
  deriving DecidableEq, Repr

namespace WaitFor

variable {α : Type*} {w w' : WaitFor α} {a b : α} {cause : Interrupt}

/-- `fut.done()`. -/
def done : WaitFor α → Bool
  | .pending => false
  | _ => true

/-- `fut.result()`, when the future is done, not cancelled and has no exception. -/
def result? : WaitFor α → Option α
  | .resolved a => some a
  | .interrupted a _ => some a
  | .pending => none
  | .cancelled _ => none

/-- `fut.set_result(a)`. -/
def setResult (a : α) : WaitFor α → Option (WaitFor α)
  | .pending => some (.resolved a)
  | _ => none

/-- Deliver a timeout or a cancellation to the suspended task. -/
def interrupt (cause : Interrupt) : WaitFor α → WaitFor α
  | .pending => .cancelled cause
  | .resolved a => .interrupted a cause
  | .cancelled earlier => .cancelled (earlier.merge cause)
  | .interrupted a earlier => .interrupted a (earlier.merge cause)

/-- What the `await` gives the task when it runs again. -/
def resume : WaitFor α → Option (Except Interrupt α)
  | .pending => none
  | .resolved a => some (.ok a)
  | .cancelled cause => some (.error cause)
  | .interrupted _ cause => some (.error cause)

@[simp] theorem done_eq_false : w.done = false ↔ w = .pending := by
  cases w <;> simp [done]

/-- An interruption neither gives a task a result nor takes one from it. -/
@[simp] theorem result?_interrupt : (w.interrupt cause).result? = w.result? := by
  cases w <;> rfl

@[simp] theorem interrupt_ne_pending : w.interrupt cause ≠ .pending := by
  cases w <;> simp [interrupt]

theorem result?_of_resume_ok (resumed : w.resume = some (.ok a)) : w.result? = some a := by
  cases w <;> simp_all [resume, result?]

theorem ne_pending_of_resume {outcome : Except Interrupt α}
    (resumed : w.resume = some outcome) : w ≠ .pending := by
  rintro rfl
  cases resumed

/-- A task that is interrupted raises when it runs again, whatever its future holds. -/
theorem resume_interrupt (w : WaitFor α) (cause : Interrupt) :
    ∃ cause', (w.interrupt cause).resume = some (.error cause') := by
  cases w <;> exact ⟨_, rfl⟩

/-- A task that sees its timeout was last interrupted by it. -/
theorem timeout_of_resume_interrupt
    (late : (w.interrupt cause).resume = some (.error .timeout)) : cause = .timeout := by
  rcases w with _ | _ | ⟨_ | _⟩ | ⟨_, _ | _⟩ <;> cases cause <;>
    first | rfl | exact absurd late (by simp [interrupt, resume, Interrupt.merge])

section Map

variable {β : Type*} {f : α → β}

/-- The wait for a result of which only `f` is of interest. -/
def map (f : α → β) : WaitFor α → WaitFor β
  | .pending => .pending
  | .resolved a => .resolved (f a)
  | .cancelled cause => .cancelled cause
  | .interrupted a cause => .interrupted (f a) cause

@[simp] theorem map_interrupt : (w.interrupt cause).map f = (w.map f).interrupt cause := by
  cases w <;> rfl

@[simp] theorem result?_map : (w.map f).result? = w.result?.map f := by
  cases w <;> rfl

@[simp] theorem done_map : (w.map f).done = w.done := by
  cases w <;> rfl

@[simp] theorem resume_map : (w.map f).resume = w.resume.map fun outcome => outcome.map f := by
  cases w <;> rfl

end Map

end WaitFor

/-- A call of a coroutine that hands out a resource and suspends at most once, in
`await wait_for(fut, …)`. -/
inductive Call (α : Type*) where
  | suspended (w : WaitFor α)
  /-- the call returned the resource, and its caller has not given it back -/
  | returned (result : α)
  /-- the call raised, or its caller gave the resource back -/
  | ended
  deriving DecidableEq, Repr

namespace Call

variable {α : Type*} {call : Call α} {a : α} {cause : Interrupt}

/-- The call is queued: its future is not done. -/
def pending : Call α → Bool
  | .suspended w => !w.done
  | .returned _ => false
  | .ended => false

/-- The resource granted to the call and not given back: returned by it, or in
the future of a caller that has not resumed. -/
def held? : Call α → Option α
  | .suspended w => w.result?
  | .returned a => some a
  | .ended => none

@[simp] theorem pending_iff : call.pending = true ↔ call = .suspended .pending := by
  cases call with
  | suspended w => cases w <;> simp [pending, WaitFor.done]
  | returned => simp [pending]
  | ended => simp [pending]

@[simp] theorem held?_pending : (suspended .pending : Call α).held? = none := rfl

@[simp] theorem held?_resolved : (suspended (.resolved a) : Call α).held? = some a := rfl

@[simp] theorem held?_returned : (returned a : Call α).held? = some a := rfl

@[simp] theorem held?_ended : (ended : Call α).held? = none := rfl

@[simp] theorem held?_interrupt {w : WaitFor α} :
    (suspended (w.interrupt cause) : Call α).held? = (suspended w).held? :=
  WaitFor.result?_interrupt

section Map

variable {β : Type*} {f : α → β}

def map (f : α → β) : Call α → Call β
  | .suspended w => .suspended (w.map f)
  | .returned a => .returned (f a)
  | .ended => .ended

@[simp] theorem map_suspended {w : WaitFor α} :
    (suspended w).map f = .suspended (w.map f) := rfl

@[simp] theorem map_returned : (returned a).map f = .returned (f a) := rfl

@[simp] theorem map_ended : (ended : Call α).map f = .ended := rfl

@[simp] theorem pending_map : (call.map f).pending = call.pending := by
  cases call with
  | suspended w => simp [map, pending]
  | returned => rfl
  | ended => rfl

end Map

end Call

end Asyncio
