import Oumigo.Tunnel.Relay

/-!
# A tunnel connection closes at both ends

When the manager closes (a client went away, say) or the connection breaks, the slot passes on what
has arrived, closes its connection to the backend and leaves; when the backend closes, the slot
sends what it still has and leaves; and when the slot leaves, the manager's pump returns.  Each of
these is a countdown that the other parties cannot stop or prolong.

The slot closes its connection to the backend in a `finally`.  `Undisturbed` excludes the one step
that skips it: a cancellation that arrives in the `finally` itself.
-/

namespace Oumigo

open Asyncio

/-- What the manager's pump does by itself. -/
def PipeEvent.pumps : PipeEvent → Bool
  | .pump => true
  | _ => false

namespace TunnelPipe

variable {s s' : TunnelPipe} {e : PipeEvent}

/-- The messages that the pump has not received, and the end of them. -/
def ahead (s : TunnelPipe) : Nat := s.inbox.length + s.pumping.toNat

theorem ahead_takeNext (maxBytes : Nat) : (s.takeNext maxBytes).ahead = s.ahead := by
  unfold takeNext
  split
  · rfl
  · split <;> rfl

/-- Only the pump receives. -/
theorem ahead_step (ran : s.step e = some s') :
    s'.ahead + e.pumps.toNat ≤ s.ahead := by
  cases e with
  | pump =>
    obtain ⟨running, same⟩ := Option.ite_none_right_eq_some.mp ran
    rw [← Option.some.inj same, TunnelPipe.pump]
    split
    · next empty => simp [ahead, putNowait, PipeEvent.pumps, empty, running]
    · next message inbox rest =>
      split
      all_goals
        simp only [ahead, rest, putNowait, PipeEvent.pumps, List.length_cons, Bool.toNat_true]
        omega
  | read maxBytes =>
    obtain ⟨-, same⟩ := Option.ite_none_right_eq_some.mp ran
    rw [← Option.some.inj same, TunnelPipe.read]
    split
    · rw [ahead_takeNext]
      exact Nat.le_refl _
    · exact Nat.le_refl _
  | interrupt cause =>
    obtain ⟨read, -, rfl⟩ := Option.map_eq_some_iff.mp ran
    exact Nat.le_refl _
  | resume =>
    obtain ⟨read, -, resumed⟩ := Option.bind_eq_some_iff.mp ran
    obtain ⟨outcome, -, same⟩ := Option.map_eq_some_iff.mp resumed
    cases outcome with
    | ok =>
      rw [← same, ahead_takeNext]
      exact Nat.le_refl _
    | error cause => exact same ▸ Nat.le_refl _

end TunnelPipe

/-- How far the slot is from having left. -/
def CarryPc.rank : CarryPc → Nat
  | .parked => 5
  | .opening _ => 4
  | .carrying => 3
  | .gathering => 2
  | .closing => 1
  | .gone => 0

/-- How far the task is from the end, without what is unread. -/
def DownCopy.rank : DownCopy → Nat
  | .sending _ => 2
  | .reading => 1
  | _ => 0

namespace BridgeEvent

/-- What the slot does by itself once no message follows. -/
def windsUp : BridgeEvent → Bool
  | .receive => true
  | .connect _ => true
  | .wake => true
  | .gathered => true
  | .closed => true
  | _ => false

/-- What the slot does by itself once the backend has closed. -/
def windsDown : BridgeEvent → Bool
  | .read _ => true
  | .send => true
  | .wake => true
  | .gathered => true
  | .closed => true
  | _ => false

/-- A step of the manager's pump. -/
def pumps : BridgeEvent → Bool
  | .pipe e => e.pumps
  | _ => false

end BridgeEvent

namespace TunnelBridge

variable {s s' : TunnelBridge} {e : BridgeEvent}

/-! ## The manager closes, or the connection breaks -/

/-- The messages to pass on, and the way of the slot from there. -/
def upLeft (s : TunnelBridge) : Nat :=
  s.pc.rank + s.outbound.length + s.up.toNat

/-- Nothing follows the messages on their way to the worker, and so it stays. -/
theorem outboundEnded_step (ended : s.outboundEnded = true) (run : s.step e = some s') :
    s'.outboundEnded = true := by
  have move := step_move run
  cases move with
  | close | breakOff => rfl
  | _ => exact ended

theorem upLeft_step (ended : s.outboundEnded = true) (run : s.step e = some s') :
    s'.upLeft + e.windsUp.toNat ≤ s.upLeft := by
  have move := step_move run
  cases move with
  | request pc queue =>
    simp only [upLeft, CarryPc.rank, pc, queue, List.length_cons, BridgeEvent.windsUp,
      Bool.toNat_true]
    omega
  | forward pc running queue =>
    simp only [upLeft, deliver, queue, List.length_cons, BridgeEvent.windsUp, Bool.toNat_true]
    omega
  | upEnds pc running =>
    simp only [upLeft, running, BridgeEvent.windsUp, Bool.toNat_true, Bool.toNat_false]
    omega
  | noRequest pc | connect pc | refuse pc | gathered pc | closed pc =>
    simp only [upLeft, CarryPc.rank, leave, closeWriter, pc, BridgeEvent.windsUp, Bool.toNat_true]
    omega
  | cancelCleanup pc =>
    simp only [upLeft, CarryPc.rank, leave, pc, BridgeEvent.windsUp, Bool.toNat_false]
    omega
  | cancelIdle pc =>
    rcases pc with pc | ⟨first, pc⟩
    all_goals
      simp only [upLeft, CarryPc.rank, leave, pc, BridgeEvent.windsUp, Bool.toNat_false]
      omega
  | upFails =>
    simp only [upLeft, BridgeEvent.windsUp, Bool.toNat_false]
    omega
  | wake pc | cancelTasks pc =>
    simp only [upLeft, CarryPc.rank, TunnelBridge.cancelTasks, pc, BridgeEvent.windsUp,
      Bool.toNat_true, Bool.toNat_false]
    omega
  | breakOff =>
    simp only [upLeft, List.length_take, BridgeEvent.windsUp, Bool.toNat_false]
    omega
  | _ => simp [upLeft, ended, BridgeEvent.windsUp]

theorem windsUp_enabled (ended : s.outboundEnded = true)
    (here : s.pc ≠ .gone) : ∃ e, e.windsUp = true ∧ (s.step e).isSome = true := by
  cases pc : s.pc with
  | parked =>
    refine ⟨.receive, rfl, ?_⟩
    change s.receive.isSome = true
    cases queue : s.outbound <;> simp [receive, pc, queue, ended]
  | opening first =>
    refine ⟨.connect false, rfl, ?_⟩
    change (s.connect false).isSome = true
    simp [connect, pc]
  | carrying =>
    cases running : s.up with
    | true =>
      refine ⟨.receive, rfl, ?_⟩
      change s.receive.isSome = true
      cases queue : s.outbound <;> simp [receive, pc, queue, ended, running]
    | false => exact ⟨.wake, rfl, by simp [step, pc, running]⟩
  | gathering => exact ⟨.gathered, rfl, by simp [step, pc]⟩
  | closing => exact ⟨.closed, rfl, by simp [step, pc]⟩
  | gone => exact absurd pc here

/-! ## The backend closes -/

/-- What is unread, twice: each chunk is read and sent. -/
def downLeft (s : TunnelBridge) : Nat := s.pc.rank + 2 * s.unread.length + s.down.rank

/-- The backend has closed its connection. -/
structure BackendEnded (s : TunnelBridge) : Prop where
  ended : s.backend.any (·.ended) = true
  opened : s.pc ≠ .parked ∧ ∀ first, s.pc ≠ .opening first

theorem exists_of_ended (ended : s.backend.any (·.ended) = true) :
    ∃ b, s.backend = some b ∧ b.ended = true := by
  cases backend : s.backend with
  | none =>
    rw [backend] at ended
    cases ended
  | some b =>
    rw [backend] at ended
    exact ⟨b, rfl, ended⟩

/-- Only a connection that was opened can be closed. -/
theorem Upward.backendEnded (upward : s.Upward) (ended : s.backend.any (·.ended) = true) :
    s.BackendEnded := by
  obtain ⟨b, backend, -⟩ := exists_of_ended ended
  have opened := upward.opened
  refine ⟨ended, fun pc => ?_, fun first pc => ?_⟩
  all_goals
    rw [Opened, pc] at opened
    cases backend.symm.trans opened

theorem ended_deliver (s : TunnelBridge) (data : List UInt8) :
    (s.deliver data).backend.any (·.ended) = s.backend.any (·.ended) := by
  rw [deliver]
  cases s.backend <;> rfl

theorem ended_closeWriter (s : TunnelBridge) :
    s.closeWriter.backend.any (·.ended) = s.backend.any (·.ended) := by
  rw [closeWriter]
  cases s.backend <;> rfl

theorem unread_deliver (s : TunnelBridge) (data : List UInt8) :
    (s.deliver data).unread = s.unread := by
  rw [unread, unread, deliver]
  cases s.backend <;> rfl

theorem unread_closeWriter (s : TunnelBridge) : s.closeWriter.unread = s.unread := by
  rw [unread, unread, closeWriter]
  cases s.backend <;> rfl

theorem backendEnded_step (shut : s.BackendEnded) (run : s.step e = some s') :
    s'.BackendEnded := by
  have move := step_move run
  obtain ⟨ended, notParked, notOpening⟩ := shut
  cases move with
  | request pc | noRequest pc => exact absurd pc notParked
  | connect pc | refuse pc => exact absurd pc (notOpening _)
  | cancelIdle pc =>
    rcases pc with pc | ⟨first, pc⟩
    · exact absurd pc notParked
    · exact absurd pc (notOpening first)
  | forward => exact ⟨(ended_deliver _ _).trans ended, notParked, notOpening⟩
  | read _ _ found =>
    rw [found] at ended
    exact ⟨ended, notParked, notOpening⟩
  | wake | cancelTasks | closed => exact ⟨ended, by simp, by simp⟩
  | gathered =>
    exact ⟨(ended_closeWriter s).trans ended, by simp [leave], by simp [leave]⟩
  | cancelCleanup => exact ⟨ended, by simp [leave], by simp [leave]⟩
  | reply found more =>
    rw [found, Option.any_some, more] at ended
    cases ended
  | backendEnd => exact ⟨rfl, notParked, notOpening⟩
  | _ => exact ⟨ended, notParked, notOpening⟩

theorem rank_cancelTasks (s : TunnelBridge) : s.cancelTasks.down.rank ≤ s.down.rank := by
  rw [cancelTasks]
  split
  · exact Nat.le_refl _
  · exact Nat.zero_le _

theorem downLeft_step (shut : s.BackendEnded) (run : s.step e = some s') :
    s'.downLeft + e.windsDown.toNat ≤ s.downLeft := by
  have move := step_move run
  have one := Bool.toNat_le e.windsDown
  obtain ⟨ended, notParked, notOpening⟩ := shut
  cases move with
  | request pc | noRequest pc => exact absurd pc notParked
  | connect pc | refuse pc => exact absurd pc (notOpening _)
  | cancelIdle pc =>
    rcases pc with pc | ⟨first, pc⟩
    · exact absurd pc notParked
    · exact absurd pc (notOpening first)
  | @forward data rest =>
    have kept := unread_deliver ({ s with outbound := rest }) data
    exact Nat.le_of_eq (congrArg (fun bytes : List UInt8 => _ + 2 * bytes.length + _) kept)
  | readEnd pc down =>
    simp only [downLeft, unread, down, DownCopy.rank, BridgeEvent.windsDown, Bool.toNat_true]
    omega
  | @read _ size c _ down found some positive =>
    have more := List.length_pos_iff.mpr some
    simp only [downLeft, unread, found, Option.elim_some, down, DownCopy.rank, List.length_drop,
      BridgeEvent.windsDown, Bool.toNat_true]
    omega
  | sendFails pc down | send pc down =>
    simp only [downLeft, unread, down, DownCopy.rank, BridgeEvent.windsDown, Bool.toNat_true]
    omega
  | downFails =>
    simp only [downLeft, unread, DownCopy.rank, BridgeEvent.windsDown, Bool.toNat_false]
    omega
  | wake pc | cancelTasks pc =>
    have lower := s.rank_cancelTasks
    rw [downLeft, downLeft, pc]
    change 2 + 2 * s.unread.length + s.cancelTasks.down.rank + _ ≤ 3 + _ + _
    omega
  | gathered pc =>
    have kept := s.unread_closeWriter
    rw [downLeft, downLeft, pc]
    change 1 + 2 * s.closeWriter.unread.length + s.down.rank + 1 ≤ 2 + _ + _
    rw [kept]
    omega
  | closed pc | cancelCleanup pc =>
    simp only [downLeft, unread, leave, pc, CarryPc.rank, BridgeEvent.windsDown, Bool.toNat_true,
      Bool.toNat_false]
    omega
  | reply found more =>
    rw [found, Option.any_some, more] at ended
    cases ended
  | backendEnd found =>
    simp only [downLeft, unread, found, Option.elim_some, BridgeEvent.windsDown, Bool.toNat_false]
    omega
  | _ => exact Nat.le_refl _

theorem windsDown_enabled (shut : s.BackendEnded) (here : s.pc ≠ .gone) :
    ∃ e, e.windsDown = true ∧ (s.step e).isSome = true := by
  obtain ⟨ended, notParked, notOpening⟩ := shut
  obtain ⟨b, backend, ended⟩ := exists_of_ended ended
  cases pc : s.pc with
  | parked => exact absurd pc notParked
  | opening first => exact absurd pc (notOpening first)
  | carrying =>
    cases down : s.down with
    | reading =>
      refine ⟨.read 0, rfl, ?_⟩
      change (s.read 0).isSome = true
      by_cases nothing : b.unread = [] <;> simp [read, pc, down, backend, nothing, ended]
    | sending data =>
      refine ⟨.send, rfl, ?_⟩
      change s.send.isSome = true
      cases shut : s.inboundEnded <;> simp [send, pc, down, shut]
    | drained => exact ⟨.wake, rfl, by simp [step, pc, downDone, down]⟩
    | stopped => exact ⟨.wake, rfl, by simp [step, pc, downDone, down]⟩
  | gathering => exact ⟨.gathered, rfl, by simp [step, pc]⟩
  | closing => exact ⟨.closed, rfl, by simp [step, pc]⟩
  | gone => exact absurd pc here

/-! ## The slot leaves -/

theorem inboundEnded_step (ended : s.inboundEnded = true) (run : s.step e = some s') :
    s'.inboundEnded = true := by
  have move := step_move run
  cases move with
  | answerClose | noRequest | refuse | gathered | cancelIdle | cancelCleanup | breakOff => rfl
  | _ => exact ended

theorem ahead_step (ended : s.inboundEnded = true) (run : s.step e = some s') :
    s'.manager.ahead + e.pumps.toNat ≤ s.manager.ahead := by
  have move := step_move run
  cases move with
  | pipe _ ran => exact TunnelPipe.ahead_step ran
  | send _ _ more =>
    rw [ended] at more
    cases more
  | breakOff =>
    simp only [TunnelPipe.ahead, List.length_take, BridgeEvent.pumps, Bool.toNat_false]
    omega
  | _ => exact Nat.le_refl _

theorem pump_enabled (ended : s.inboundEnded = true) (running : s.manager.pumping = true) :
    (s.step (.pipe .pump)).isSome = true := by
  simp [step, stepPipe, arrived, ended, TunnelPipe.step, running]

/-- A slot that has left has closed its end. -/
theorem left_step (left : s.pc.live = false → s.inboundEnded = true) (run : s.step e = some s') :
    s'.pc.live = false → s'.inboundEnded = true := by
  have move := step_move run
  intro gone
  cases move with
  | noRequest | refuse | gathered | cancelIdle | cancelCleanup | answerClose | breakOff => rfl
  | request | connect | wake | cancelTasks => cases gone
  | closed pc => exact left (by rw [pc]; rfl)
  | _ => exact left gone

end TunnelBridge

namespace TunnelBridge

variable {s s' : TunnelBridge} {e : BridgeEvent}

/-! ## The connection to the backend -/

/-- The slot is not cancelled in its own clean-up. -/
def Undisturbed (s : TunnelBridge) (e : BridgeEvent) : Prop := e = .cancel → s.pc ≠ .gathering

/-- Whether `writer.close()` was called for the slot's connection to the backend. -/
def Hung (closed : Bool) (s : TunnelBridge) : Prop := ∀ b ∈ s.backend, b.closed = closed

theorem hung_some {closed : Bool} {b b' : BackendConn} (hung : s.Hung closed)
    (backend : s.backend = some b) (same : b'.closed = b.closed) :
    ∀ c ∈ some b', c.closed = closed := by
  rintro c ⟨⟩
  exact same.trans (hung b backend)

theorem hung_deliver {closed : Bool} (hung : s.Hung closed) (data : List UInt8) :
    (s.deliver data).Hung closed := by
  intro b found
  obtain ⟨c, backend, rfl⟩ := Option.map_eq_some_iff.mp found
  exact hung c backend

theorem hung_closeWriter (s : TunnelBridge) : s.closeWriter.Hung true := by
  intro b found
  obtain ⟨c, -, rfl⟩ := Option.map_eq_some_iff.mp found
  rfl

theorem hung_of_none {closed : Bool} (unopened : s.backend = none) : s.Hung closed := by
  intro b found
  cases unopened.symm.trans found

/-- Before the slot leaves it does not close its connection to the backend. -/
theorem open_step (inv : s.pc.live = true → s.Hung false) (run : s.step e = some s') :
    s'.pc.live = true → s'.Hung false := by
  have move := step_move run
  intro live
  cases move with
  | noRequest | refuse | gathered | closed | cancelIdle | cancelCleanup => cases live
  | request pc => exact inv (by rw [pc]; rfl)
  | forward pc => exact hung_deliver (s := { s with outbound := _ }) (inv live) _
  | connect =>
    rintro b ⟨⟩
    rfl
  | wake pc | cancelTasks pc => exact inv (by rw [pc]; rfl)
  | read _ _ backend => exact hung_some (inv live) backend rfl
  | reply backend => exact hung_some (inv live) backend rfl
  | backendEnd backend => exact hung_some (inv live) backend rfl
  | _ => exact inv live

theorem hung_step (upward : s.Upward) (inv : s.pc.live = false → s.Hung true)
    (kept : s.Undisturbed e) (run : s.step e = some s') : s'.pc.live = false → s'.Hung true := by
  have move := step_move run
  have opened := upward.opened
  intro left
  cases move with
  | noRequest pc | refuse pc =>
    rw [Opened, pc] at opened
    exact hung_of_none opened
  | cancelIdle pc =>
    rcases pc with pc | ⟨first, pc⟩
    all_goals
      rw [Opened, pc] at opened
      exact hung_of_none opened
  | gathered => exact hung_closeWriter s
  | cancelCleanup pc => exact absurd pc (kept rfl)
  | closed pc => exact inv (by rw [pc]; rfl)
  | request | connect | wake | cancelTasks => cases left
  | forward pc | read pc =>
    rw [pc] at left
    cases left
  | reply backend => exact hung_some (inv left) backend rfl
  | backendEnd backend => exact hung_some (inv left) backend rfl
  | _ => exact inv left

/-- A slot that has left does not come back to its connection to the backend. -/
theorem left_behind_step (inv : s.pc.live = false ∧ s.Hung false) (run : s.step e = some s') :
    s'.pc.live = false ∧ s'.Hung false := by
  have move := step_move run
  obtain ⟨left, hung⟩ := inv
  cases move with
  | request pc | noRequest pc | forward pc | upEnds pc | connect pc | refuse pc | upFails pc
  | readEnd pc | read pc | sendFails pc | send pc | downFails pc | wake pc | gathered pc
  | cancelTasks pc | cancelCleanup pc =>
    rw [pc] at left
    cases left
  | cancelIdle pc =>
    rcases pc with pc | ⟨first, pc⟩
    all_goals
      rw [pc] at left
      cases left
  | closed => exact ⟨rfl, hung⟩
  | reply backend => exact ⟨left, hung_some hung backend rfl⟩
  | backendEnd backend => exact ⟨left, hung_some hung backend rfl⟩
  | _ => exact ⟨left, hung⟩

end TunnelBridge

/-- The manager writes and closes while the backend is being connected. -/
def abandoned : TunnelBridge :=
  { TunnelBridge.initial with
    manager := ⟨[], true, true, [], [], none, []⟩
    written := [71]
    outboundEnded := true
    pc := .opening [71] }

end Oumigo
