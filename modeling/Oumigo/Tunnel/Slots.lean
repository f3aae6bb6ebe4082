import Oumigo.Foundation.Dict
import Oumigo.Foundation.Transition
import Mathlib.Algebra.Order.Ring.Rat

/-!
# The worker's tunnel slots

`TunnelClient` of `service/worker/tunnel.py`: `_supervise` keeps one task of `_slot` for each index
below `_pool_size`, and `set_pool_size`, which the coordinator calls from its own thread, asks for
another number of them.

The event loop runs a task up to its next `await`, so nothing on the loop happens between the
moment `_supervise` goes on and the moment it waits again.  The coordinator's thread may run
between any two of its reads of `_pool_size`: the store, the signal, and each read are steps of
their own.  A cancellation of a task is raised at the `await` where the task stands, and where it
carries a request the connection is closed first.
-/

namespace Oumigo

/-! ## One slot -/

/-- How `_carry` was left. -/
inductive SlotExit where
  /-- it returned -/
  | served
  /-- an exception that `_slot` catches -/
  | caught
  /-- an exception that ends the task -/
  | uncaught
  deriving DecidableEq

/-- Where `_slot` stands. -/
inductive SlotPc where
  /-- the task has not begun -/
  | created
  /-- `connect(...)` -/
  | dialing
  /-- `_carry`, in the body of `async with` -/
  | carrying
  /-- the connection is being closed -/
  | leaving (exit : SlotExit)
  /-- `asyncio.wait_for(self._wake.wait(), delay)`, on the event with this number -/
  | backingOff (delay : Rat) (wake : Nat)
  /-- the task is done -/
  | done
  deriving DecidableEq

/-- A task of `_slot`. -/
structure SlotTask where
  index : Nat
  pc : SlotPc
  /-- `task.cancel()` was called -/
  cancelled : Bool
  backoff : Rat
  /-- the rounds that failed since the last connection or wake-up -/
  failed : Nat
  deriving DecidableEq

/-- `BACKOFF_START_S` -/
def backoffStart : Rat := 1 / 2

/-- `BACKOFF_MAX_S` -/
def backoffMax : Rat := 30

/-- What a task does next, on its own. -/
inductive SlotEvent where
  | begins
  /-- the manager took the connection -/
  | opens
  /-- refused or failed; `jitter` is `random.uniform(0.5, 1.5)` -/
  | fails (jitter : Rat)
  /-- an exception that `_slot` does not catch -/
  | dies
  | leaves (exit : SlotExit)
  /-- the connection is closed -/
  | closed (jitter : Rat)
  /-- the event of the wait was set -/
  | woken
  | timesOut
  /-- the cancellation is raised -/
  | unwinds
  deriving DecidableEq

namespace SlotTask

/-- `asyncio.create_task(self._slot(i))`. -/
def create (i : Nat) : SlotTask := ⟨i, .created, false, backoffStart, 0⟩

/-- `task.cancel()`, which does nothing to a task that is done. -/
def cancel (task : SlotTask) : SlotTask :=
  if task.pc = .done then task else { task with cancelled := true }

/-- The end of a round that did not serve. -/
def backsOff (task : SlotTask) (wake : Nat) (jitter : Rat) : Option SlotTask :=
  if 1 / 2 ≤ jitter ∧ jitter ≤ 3 / 2 then
    some { task with
      pc := .backingOff (task.backoff * jitter) wake
      backoff := min (task.backoff * 2) backoffMax
      failed := task.failed + 1 }
  else none

/-- A step of `_slot`, and what it adds to `connected`; `wake` numbers the current event. -/
def step (task : SlotTask) (wake : Nat) (e : SlotEvent) : Option (SlotTask × Int) :=
  if task.cancelled then
    match e, task.pc with
    | .unwinds, .carrying => some ({ task with pc := .leaving .uncaught }, -1)
    | .unwinds, .done => none
    | .unwinds, _ => some ({ task with pc := .done }, 0)
    | _, _ => none
  else
    match e, task.pc with
    | .begins, .created => some ({ task with pc := .dialing }, 0)
    | .opens, .dialing =>
        some ({ task with pc := .carrying, backoff := backoffStart, failed := 0 }, 1)
    | .fails jitter, .dialing => (task.backsOff wake jitter).map (·, 0)
    | .dies, .dialing => some ({ task with pc := .done }, 0)
    | .leaves exit, .carrying => some ({ task with pc := .leaving exit }, -1)
    | .closed _, .leaving .served => some ({ task with pc := .dialing }, 0)
    | .closed jitter, .leaving .caught => (task.backsOff wake jitter).map (·, 0)
    | .closed _, .leaving .uncaught => some ({ task with pc := .done }, 0)
    | .woken, .backingOff _ waits =>
        if waits < wake then
          some ({ task with pc := .dialing, backoff := backoffStart, failed := 0 }, 0)
        else none
    | .timesOut, .backingOff _ _ => some ({ task with pc := .dialing }, 0)
    | _, _ => none

/-- Neither done nor cancelled. -/
def Live (task : SlotTask) : Prop := task.cancelled = false ∧ task.pc ≠ .done

instance (task : SlotTask) : Decidable task.Live := inferInstanceAs (Decidable (_ ∧ _))

end SlotTask

/-! ## The supervisor -/

/-- Where `_supervise` stands. -/
inductive SupervisorPc where
  | notStarted
  /-- before `for i in range(self._pool_size)` -/
  | top
  /-- the keys that have not been compared with `_pool_size`, and those that were too large -/
  | scanning (rest stale : List Nat)
  /-- `self._resized.wait()` -/
  | waiting
  /-- `asyncio.gather(*slots.values())` -/
  | stopping
  | stopped
  deriving DecidableEq

structure TunnelSlots where
  /-- `_pool_size` -/
  poolSize : Nat
  /-- `set_pool_size` has stored the size and not signalled it -/
  signalling : Bool
  /-- the calls of `self._resized.set` that the loop has not run -/
  callbacks : Nat
  /-- `self._resized.is_set()` -/
  resized : Bool
  pc : SupervisorPc
  /-- the number of the current `_wake` -/
  wake : Nat
  /-- the places of the tasks, by index -/
  slots : Dict Nat Nat
  tasks : List SlotTask
  connected : Int

inductive SlotsEvent where
  /-- `set_pool_size` up to the store -/
  | resize (size : Int)
  /-- its rest -/
  | signal
  /-- the loop runs `self._resized.set` -/
  | signalled
  /-- `_supervise` begins -/
  | starts
  /-- `wait` returns -/
  | resumes
  /-- the loop that creates tasks -/
  | spawns
  /-- the next comparison with `_pool_size` -/
  | scan
  /-- the rest of the round, up to `wait` -/
  | parks
  /-- the loop runs `_wake_now` -/
  | wake
  /-- the loop runs `main.cancel` -/
  | stop
  /-- `gather` returns -/
  | finishes
  | slot (t : Nat) (e : SlotEvent)

namespace TunnelSlots

/-- `TunnelClient(...)`. -/
def initial (poolSize : Nat) : TunnelSlots where
  poolSize := max 1 poolSize
  signalling := false
  callbacks := 0
  resized := false
  pc := .notStarted
  wake := 0
  slots := .empty
  tasks := []
  connected := 0

variable (s : TunnelSlots)

/-- `_supervise` waits, so that the loop can run something else. -/
def loopFree : Bool := s.pc = .waiting ∨ s.pc = .stopping

/-- The task registered for `i`. -/
def task? (i : Nat) : Option SlotTask := (s.slots.get? i).bind fun t => s.tasks[t]?

/-- `slots[i] = asyncio.create_task(self._slot(i))`. -/
def place (i : Nat) : TunnelSlots :=
  { s with slots := s.slots.set i s.tasks.length, tasks := s.tasks ++ [.create i] }

/-- The same, `if i not in slots or slots[i].done()`. -/
def spawn (i : Nat) : TunnelSlots :=
  if (s.task? i).all (·.pc = .done) then s.place i else s

/-- The task registered for `i` is cancelled. -/
def cancel (i : Nat) : TunnelSlots :=
  match s.slots.get? i with
  | some t => { s with tasks := s.tasks.modify t SlotTask.cancel }
  | none => s

/-- `slots.pop(i).cancel()`. -/
def drop (i : Nat) : TunnelSlots :=
  { s.cancel i with slots := s.slots.erase i }

/-- `task.done()` of every registered task. -/
def allDone : Bool :=
  s.slots.keys.all fun i => (s.task? i).all (·.pc = .done)

def step : SlotsEvent → Option TunnelSlots
  | .resize size =>
      if s.signalling then none
      else if (max 1 size).toNat = s.poolSize then some s
      else some { s with poolSize := (max 1 size).toNat, signalling := true }
  | .signal =>
      if s.signalling then
        some { s with
          signalling := false
          -- there is no event to set before `_supervise` begins, and no loop once it ended
          callbacks :=
            if s.pc = .notStarted ∨ s.pc = .stopped then s.callbacks else s.callbacks + 1 }
      else none
  | .signalled =>
      if s.loopFree ∧ 0 < s.callbacks then
        some { s with callbacks := s.callbacks - 1, resized := true }
      else none
  | .starts => if s.pc = .notStarted then some { s with pc := .top } else none
  | .resumes => if s.pc = .waiting ∧ s.resized then some { s with pc := .top } else none
  | .spawns =>
      if s.pc = .top then
        let s := (List.range s.poolSize).foldl spawn s
        some { s with pc := .scanning s.slots.keys [] }
      else none
  | .scan =>
      match s.pc with
      | .scanning (i :: rest) stale =>
          some { s with
            pc := .scanning rest (if s.poolSize ≤ i then stale ++ [i] else stale) }
      | _ => none
  | .parks =>
      match s.pc with
      | .scanning [] stale => some { stale.foldl drop s with resized := false, pc := .waiting }
      | _ => none
  | .wake => if s.loopFree then some { s with wake := s.wake + 1 } else none
  | .stop =>
      if s.pc = .waiting then some { s.slots.keys.foldl cancel s with pc := .stopping } else none
  | .finishes => if s.pc = .stopping ∧ s.allDone then some { s with pc := .stopped } else none
  | .slot t e =>
      if s.loopFree then
        (s.tasks[t]?).bind fun task => (task.step s.wake e).map fun after =>
          { s with tasks := s.tasks.set t after.1, connected := s.connected + after.2 }
      else none

end TunnelSlots

/-- Every interleaving of the coordinator, the supervisor and the slots. -/
def tunnelSlots (poolSize : Nat) : Transition.System TunnelSlots SlotsEvent where
  init s := s = .initial poolSize
  step := TunnelSlots.step

end Oumigo
