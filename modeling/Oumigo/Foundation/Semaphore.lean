import Mathlib.Logic.Function.Basic
import Oumigo.Foundation.Asyncio

/-!
# A semaphore that hands its slots to the oldest waiter

`Semaphore κ` counts the free slots that the callers `κ` acquire and release.  It knows what
each call has come to, who waits and who was granted a slot, but not which slot it is: `settle`
hands free slots to those who wait, the oldest first, and every operation ends settled.
`alive` says that there are slots at all; a caller that finds none does not wait.
-/

structure Semaphore (κ : Type) where
  free : Nat
  alive : Bool
  calls : κ → Option (Asyncio.Call Unit)
  waiting : List κ
  granted : List κ

namespace Semaphore

variable {κ : Type} [DecidableEq κ] {q : Semaphore κ} {l : List κ} {a : κ}

def setCall (q : Semaphore κ) (a : κ) (call : Asyncio.Call Unit) : Semaphore κ :=
  { q with calls := Function.update q.calls a (some call) }

/-- Give one of the free slots to `a`. -/
def take (q : Semaphore κ) (a : κ) (call : Asyncio.Call Unit) : Semaphore κ :=
  { q.setCall a call with free := q.free - 1, granted := q.granted ++ [a] }

/-- Hand the free slots to the callers in the list; those that are left keep waiting. -/
def handOut : List κ → Semaphore κ → Semaphore κ
  | [], q => { q with waiting := [] }
  | a :: rest, q =>
      if q.free = 0 then { q with waiting := a :: rest }
      else handOut rest (q.take a (.suspended (.resolved ())))

def settle (q : Semaphore κ) : Semaphore κ := handOut q.waiting q

def acquire (q : Semaphore κ) (a : κ) : Semaphore κ :=
  let q := q.settle
  if q.free = 0 then
    if q.alive then { q.setCall a (.suspended .pending) with waiting := q.waiting ++ [a] }
    else q.setCall a .ended
  else q.take a (.returned ())

/-- A slot comes back. -/
def giveBack (q : Semaphore κ) : Semaphore κ := { q with free := q.free + 1 }.settle

def interrupt (q : Semaphore κ) (a : κ) (cause : Asyncio.Interrupt) : Option (Semaphore κ) :=
  match q.calls a with
  | some (.suspended w) =>
      some { q.setCall a (.suspended (w.interrupt cause)) with
        waiting := q.waiting.filter (· ≠ a) }
  | _ => none

def resume (q : Semaphore κ) (a : κ) : Option (Semaphore κ) :=
  match q.calls a with
  | some (.suspended w) =>
      match w.resume with
      | some (.ok ()) => some (q.setCall a (.returned ()))
      | some (.error _) =>
          let q := q.setCall a .ended
          some (if w.result?.isSome then q.giveBack else q)
      | none => none
  | _ => none

def release (q : Semaphore κ) (a : κ) : Option (Semaphore κ) :=
  match q.calls a with
  | some (.returned ()) => some (q.setCall a .ended).giveBack
  | _ => none

/-- What the callers do, each of whom acquires once, and the settling that any of them can
cause. -/
inductive Event (κ : Type) where
  | acquire (a : κ)
  | resume (a : κ)
  | interrupt (a : κ) (cause : Asyncio.Interrupt)
  | release (a : κ)
  | settle

def step (q : Semaphore κ) : Event κ → Option (Semaphore κ)
  | .acquire a => if (q.calls a).isSome then none else some (q.acquire a)
  | .resume a => q.resume a
  | .interrupt a cause => q.interrupt a cause
  | .release a => q.release a
  | .settle => some q.settle

/-! ## Settled -/

/-- Nobody waits beside a free slot. -/
def Settled (q : Semaphore κ) : Prop := q.free = 0 ∨ q.waiting = []

/-- What `handOut` makes of a semaphore does not depend on who waited before. -/
theorem handOut_waiting (l l' : List κ) (q : Semaphore κ) :
    handOut l { q with waiting := l' } = handOut l q := by
  induction l generalizing q with
  | nil => rfl
  | cons a rest ih =>
    unfold handOut
    by_cases nothing : q.free = 0
    · simp only [nothing, if_true]
    · simp only [nothing, if_false]
      exact ih (q.take a (.suspended (.resolved ())))

theorem handOut_of_free_eq_zero (nothing : q.free = 0) : handOut l q = { q with waiting := l } := by
  cases l with
  | nil => rfl
  | cons a rest => exact if_pos nothing

theorem settled_handOut (l : List κ) (q : Semaphore κ) : (handOut l q).Settled := by
  induction l generalizing q with
  | nil => exact Or.inr rfl
  | cons a rest ih =>
    unfold handOut
    split
    · next nothing => exact Or.inl nothing
    · exact ih _

theorem settled_settle (q : Semaphore κ) : q.settle.Settled := settled_handOut _ q

theorem Settled.settle_eq (settled : q.Settled) : q.settle = q := by
  unfold settle
  rcases settled with nothing | nobody
  · cases waiting : q.waiting with
    | nil => unfold handOut; rw [← waiting]
    | cons a rest => unfold handOut; rw [if_pos nothing, ← waiting]
  · rw [nobody]
    unfold handOut
    rw [← nobody]

theorem settled_acquire (q : Semaphore κ) (a : κ) : (q.acquire a).Settled := by
  unfold acquire
  by_cases nothing : q.settle.free = 0
  · by_cases alive : q.settle.alive = true
    · simp only [nothing, alive, if_true]
      exact Or.inl nothing
    · simp only [nothing, alive, if_true]
      exact Or.inl nothing
  · simp only [nothing, if_false]
    exact Or.inr ((settled_settle q).resolve_left nothing)

/-- **Every operation ends settled.** -/
theorem Settled.step {q' : Semaphore κ} {e : Event κ} (settled : q.Settled)
    (run : q.step e = some q') : q'.Settled := by
  cases e with
  | acquire a =>
    simp only [Semaphore.step] at run
    split at run
    · cases run
    · cases run
      exact settled_acquire q a
  | resume a =>
    simp only [Semaphore.step, resume] at run
    split at run
    · split at run
      · cases run
        exact settled
      · cases run
        split
        · exact settled_settle _
        · exact settled
      · cases run
    · cases run
  | interrupt a cause =>
    simp only [Semaphore.step, interrupt] at run
    split at run
    · cases run
      refine settled.imp id fun nobody => ?_
      simp [nobody]
    · cases run
  | release a =>
    simp only [Semaphore.step, release] at run
    split at run
    · cases run
      exact settled_settle _
    · cases run
  | settle =>
    cases run
    exact settled_settle q

end Semaphore
