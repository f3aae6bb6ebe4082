import Oumigo.Foundation.Variant
import Oumigo.Tunnel.Stream

/-!
# A tunnel connection from end to end

`TunnelClient._carry` of `service/worker/tunnel.py` between the manager's `TunnelConn`
(`service/manager/tunnel.py`) and the backend.  A state has the manager's end (`TunnelPipe`), the
messages on their way in both directions, the slot of the worker with its two copy tasks, and the
TCP connection to the backend.

Everything the event loops may interleave is a step of its own: what the manager writes, reads and
closes; each message the worker receives, each chunk it reads from the backend and each message it
sends; the moment a copy task ends, the moment the slot notices, and the moment both tasks are
cancelled; what the backend sends and when it closes; a cancellation of the slot; and a connection
that breaks, which loses messages on their way.
-/

namespace Oumigo

open Asyncio

/-- Where `_carry` is suspended. -/
inductive CarryPc where
  /-- `_recv_parked`: no request has come -/
  | parked
  /-- `asyncio.open_connection`, with the first bytes of the request -/
  | opening (first : List UInt8)
  /-- `asyncio.wait(tasks)` -/
  | carrying
  /-- `asyncio.gather(*tasks)`: both tasks have been cancelled -/
  | gathering
  /-- `ws.close()` -/
  | closing
  /-- the connection has been left -/
  | gone
  deriving DecidableEq

/-- `backend_to_ws`. -/
inductive DownCopy where
  /-- `reader.read(_COPY_CHUNK)` -/
  | reading
  /-- `ws.send(data)` -/
  | sending (data : List UInt8)
  /-- it has returned: the backend had no more data -/
  | drained
  /-- it raised or was cancelled -/
  | stopped
  deriving DecidableEq

/-- The slot's connection to the backend. -/
structure BackendConn where
  /-- what `writer.write` was given -/
  delivered : List UInt8
  /-- what the backend sent -/
  replied : List UInt8
  /-- what of it has not been read -/
  unread : List UInt8
  /-- the backend closed -/
  ended : Bool
  /-- `writer.close()` -/
  closed : Bool
  deriving DecidableEq

/-- A tunnel connection with both its ends. -/
structure TunnelBridge where
  /-- the manager's end; its inbox are the messages on their way there -/
  manager : TunnelPipe
  /-- what `TunnelConn.write` was given -/
  written : List UInt8
  /-- the messages on their way to the worker -/
  outbound : List (List UInt8)
  /-- nothing follows them -/
  outboundEnded : Bool
  /-- nothing follows the manager's inbox -/
  inboundEnded : Bool
  /-- the connection broke -/
  broken : Bool
  pc : CarryPc
  /-- `ws_to_backend` runs -/
  up : Bool
  down : DownCopy
  backend : Option BackendConn
  deriving DecidableEq

/-- What happens next. -/
inductive BridgeEvent where
  /-- `TunnelStream.write` -/
  | write (data : List UInt8)
  /-- `TunnelConn.close` -/
  | close
  /-- a step of the manager's `pump` and `read` -/
  | pipe (e : PipeEvent)
  /-- the worker's library answers the manager's close -/
  | answerClose
  /-- the slot receives a message, or learns that there is none -/
  | receive
  /-- `open_connection` returns, or raises -/
  | connect (reachable : Bool)
  /-- `writer.drain()` raises -/
  | upFails
  /-- `reader.read` returns at most `n + 1` bytes -/
  | read (n : Nat)
  /-- `ws.send` returns, or raises -/
  | send
  /-- `reader.read` or `ws.send` raises -/
  | downFails
  /-- `asyncio.wait` returns -/
  | wake
  /-- `asyncio.gather` returns -/
  | gathered
  /-- `ws.close()` returns -/
  | closed
  /-- the slot's task is cancelled -/
  | cancel
  /-- the backend sends -/
  | reply (data : List UInt8)
  /-- the backend closes -/
  | backendEnd
  /-- the connection breaks: this many messages still arrive -/
  | breakOff (out inb : Nat)

namespace TunnelBridge

variable (s : TunnelBridge)

/-- A connection that the worker has dialled and parked. -/
def initial : TunnelBridge where
  manager := ⟨[], true, false, [], [], none, []⟩
  written := []
  outbound := []
  outboundEnded := false
  inboundEnded := false
  broken := false
  pc := .parked
  up := true
  down := .reading
  backend := none

/-- `_COPY_CHUNK`. -/
def copyChunk : Nat := 64 * 1024

/-- `TunnelStream.write`: an empty buffer is no message. -/
def write (data : List UInt8) : TunnelBridge :=
  if data = [] then s
  else { s with
    written := s.written ++ data
    outbound := if s.outboundEnded then s.outbound else s.outbound ++ [data] }

/-- `TunnelConn.close`. -/
def close : TunnelBridge :=
  if s.manager.closed then s
  else { s with manager := { s.manager with closed := true }, outboundEnded := true }

/-- `pump` waits for a message, or for the end of them. -/
def arrived : PipeEvent → Bool
  | .pump => !s.manager.inbox.isEmpty || s.inboundEnded
  | _ => true

/-- The manager's end takes a step. -/
def stepPipe (e : PipeEvent) : Option TunnelBridge :=
  if s.arrived e then (s.manager.step e).map fun manager => { s with manager := manager }
  else none

/-- The slot leaves: from here on its end of the connection is closed. -/
def leave : TunnelBridge := { s with pc := .closing, inboundEnded := true }

/-- The backend's connection after `writer.write(data)`. -/
def deliver (data : List UInt8) : TunnelBridge :=
  { s with backend := s.backend.map fun b => { b with delivered := b.delivered ++ data } }

/-- `ws.recv()` in `_recv_parked`, and one turn of `ws_to_backend`. -/
def receive : Option TunnelBridge :=
  match s.pc, s.outbound with
  | .parked, data :: rest => some { s with outbound := rest, pc := .opening data }
  | .parked, [] => if s.outboundEnded then some s.leave else none
  | .carrying, data :: rest =>
      if s.up then some ({ s with outbound := rest }.deliver data) else none
  | .carrying, [] => if s.up ∧ s.outboundEnded then some { s with up := false } else none
  | _, _ => none

/-- `open_connection`, and `writer.write(first)`. -/
def connect (reachable : Bool) : Option TunnelBridge :=
  match s.pc with
  | .opening first =>
      if reachable then
        some { s with pc := .carrying, backend := some ⟨first, [], [], false, false⟩ }
      else some s.leave
  | _ => none

/-- `reader.read(_COPY_CHUNK)`. -/
def read (n : Nat) : Option TunnelBridge :=
  match s.pc, s.down, s.backend with
  | .carrying, .reading, some b =>
      if b.unread = [] then if b.ended then some { s with down := .drained } else none
      else
        let size := min (n + 1) copyChunk
        some { s with
          down := .sending (b.unread.take size)
          backend := some { b with unread := b.unread.drop size } }
  | _, _, _ => none

/-- `ws.send(data)`. -/
def send : Option TunnelBridge :=
  match s.pc, s.down with
  | .carrying, .sending data =>
      if s.inboundEnded then some { s with down := .stopped }
      else some { s with
        manager := { s.manager with inbox := s.manager.inbox ++ [⟨some data, none⟩] }
        down := .reading }
  | _, _ => none

/-- `backend_to_ws` is done. -/
def downDone : Bool :=
  match s.down with
  | .drained => true
  | .stopped => true
  | _ => false

/-- Both tasks are cancelled; one that has returned stays as it is. -/
def cancelTasks : TunnelBridge :=
  { s with up := false, down := if s.downDone then s.down else .stopped }

/-- `writer.close()`. -/
def closeWriter : TunnelBridge :=
  { s with backend := s.backend.map fun b => { b with closed := true } }

/-- A cancellation of the slot's task, raised where it is suspended. -/
def cancel : Option TunnelBridge :=
  match s.pc with
  | .parked => some s.leave
  | .opening _ => some s.leave
  | .carrying => some { s.cancelTasks with pc := .gathering }
  -- raised in the `finally` itself: what follows there is skipped
  | .gathering => some s.leave
  | .closing => some s
  | .gone => none

def step : BridgeEvent → Option TunnelBridge
  | .write data => if s.manager.closed then none else some (s.write data)
  | .close => some s.close
  | .pipe e => s.stepPipe e
  | .answerClose => if s.outboundEnded then some { s with inboundEnded := true } else none
  | .receive => s.receive
  | .connect reachable => s.connect reachable
  | .upFails => if s.pc = .carrying then some { s with up := false } else none
  | .read n => s.read n
  | .send => s.send
  | .downFails =>
      if s.pc = .carrying ∧ s.downDone = false then some { s with down := .stopped } else none
  | .wake =>
      if s.pc = .carrying ∧ (s.up = false ∨ s.downDone = true) then
        some { s.cancelTasks with pc := .gathering }
      else none
  | .gathered => if s.pc = .gathering then some s.closeWriter.leave else none
  | .closed => if s.pc = .closing then some { s with pc := .gone } else none
  | .cancel => s.cancel
  | .reply data => s.backend.bind fun b =>
      if b.ended then none
      else some { s with
        backend := some { b with replied := b.replied ++ data, unread := b.unread ++ data } }
  | .backendEnd => s.backend.map fun b => { s with backend := some { b with ended := true } }
  | .breakOff out inb => some { s with
      manager := { s.manager with inbox := s.manager.inbox.take inb }
      outbound := s.outbound.take out
      outboundEnded := true
      inboundEnded := true
      broken := true }

/-- What each step does, and when. -/
inductive Move : BridgeEvent → TunnelBridge → Prop
  | writeNothing : s.manager.closed = false → Move (.write []) s
  | write {data : List UInt8} : s.manager.closed = false → data ≠ [] →
    Move (.write data) { s with
      written := s.written ++ data
      outbound := if s.outboundEnded then s.outbound else s.outbound ++ [data] }
  | closeAgain : s.manager.closed = true → Move .close s
  | close : s.manager.closed = false →
    Move .close { s with manager := { s.manager with closed := true }, outboundEnded := true }
  | pipe {e : PipeEvent} {manager : TunnelPipe} : s.arrived e = true →
    s.manager.step e = some manager → Move (.pipe e) { s with manager := manager }
  | answerClose : s.outboundEnded = true → Move .answerClose { s with inboundEnded := true }
  | request {data : List UInt8} {rest : List (List UInt8)} : s.pc = .parked →
    s.outbound = data :: rest → Move .receive { s with outbound := rest, pc := .opening data }
  | noRequest : s.pc = .parked → s.outbound = [] → s.outboundEnded = true → Move .receive s.leave
  | forward {data : List UInt8} {rest : List (List UInt8)} : s.pc = .carrying → s.up = true →
    s.outbound = data :: rest → Move .receive ({ s with outbound := rest }.deliver data)
  | upEnds : s.pc = .carrying → s.up = true → s.outbound = [] → s.outboundEnded = true →
    Move .receive { s with up := false }
  | connect {first : List UInt8} : s.pc = .opening first →
    Move (.connect true) { s with
      pc := .carrying, backend := some ⟨first, [], [], false, false⟩ }
  | refuse {first : List UInt8} : s.pc = .opening first → Move (.connect false) s.leave
  | upFails : s.pc = .carrying → Move .upFails { s with up := false }
  | readEnd {n : Nat} {b : BackendConn} : s.pc = .carrying → s.down = .reading →
    s.backend = some b → b.unread = [] → b.ended = true →
    Move (.read n) { s with down := .drained }
  | read {n size : Nat} {b : BackendConn} : s.pc = .carrying → s.down = .reading →
    s.backend = some b → b.unread ≠ [] → 1 ≤ size →
    Move (.read n) { s with
      down := .sending (b.unread.take size)
      backend := some { b with unread := b.unread.drop size } }
  | sendFails {data : List UInt8} : s.pc = .carrying → s.down = .sending data →
    s.inboundEnded = true → Move .send { s with down := .stopped }
  | send {data : List UInt8} : s.pc = .carrying → s.down = .sending data →
    s.inboundEnded = false →
    Move .send { s with
      manager := { s.manager with inbox := s.manager.inbox ++ [⟨some data, none⟩] }
      down := .reading }
  | downFails : s.pc = .carrying → s.downDone = false →
    Move .downFails { s with down := .stopped }
  | wake : s.pc = .carrying → s.up = false ∨ s.downDone = true →
    Move .wake { s.cancelTasks with pc := .gathering }
  | gathered : s.pc = .gathering → Move .gathered s.closeWriter.leave
  | closed : s.pc = .closing → Move .closed { s with pc := .gone }
  | cancelIdle : s.pc = .parked ∨ (∃ first, s.pc = .opening first) → Move .cancel s.leave
  | cancelTasks : s.pc = .carrying → Move .cancel { s.cancelTasks with pc := .gathering }
  | cancelCleanup : s.pc = .gathering → Move .cancel s.leave
  | cancelClosing : s.pc = .closing → Move .cancel s
  | reply {data : List UInt8} {b : BackendConn} : s.backend = some b → b.ended = false →
    Move (.reply data) { s with
      backend := some { b with replied := b.replied ++ data, unread := b.unread ++ data } }
  | backendEnd {b : BackendConn} : s.backend = some b →
    Move .backendEnd { s with backend := some { b with ended := true } }
  | breakOff {out inb : Nat} : Move (.breakOff out inb) { s with
      manager := { s.manager with inbox := s.manager.inbox.take inb }
      outbound := s.outbound.take out
      outboundEnded := true
      inboundEnded := true
      broken := true }

variable {s} {s' : TunnelBridge} {e : BridgeEvent}

theorem receive_move (run : s.receive = some s') : Move s .receive s' := by
  unfold receive at run
  split at run
  · next pc queue => exact Option.some.inj run ▸ .request pc queue
  · next pc queue =>
    obtain ⟨ended, same⟩ := Option.ite_none_right_eq_some.mp run
    exact Option.some.inj same ▸ .noRequest pc queue ended
  · next pc queue =>
    obtain ⟨running, same⟩ := Option.ite_none_right_eq_some.mp run
    exact Option.some.inj same ▸ .forward pc running queue
  · next pc queue =>
    obtain ⟨⟨running, ended⟩, same⟩ := Option.ite_none_right_eq_some.mp run
    exact Option.some.inj same ▸ .upEnds pc running queue ended
  · cases run

theorem connect_move {reachable : Bool} (run : s.connect reachable = some s') :
    Move s (.connect reachable) s' := by
  unfold connect at run
  split at run
  · next pc =>
    cases reachable with
    | true => exact Option.some.inj run ▸ .connect pc
    | false => exact Option.some.inj run ▸ .refuse pc
  · cases run

theorem read_move {n : Nat} (run : s.read n = some s') : Move s (.read n) s' := by
  unfold read at run
  split at run
  · next b pc down backend =>
    split at run
    · next nothing =>
      obtain ⟨ended, same⟩ := Option.ite_none_right_eq_some.mp run
      exact Option.some.inj same ▸ .readEnd pc down backend nothing ended
    · next more =>
      have positive : 1 ≤ min (n + 1) copyChunk := by
        simp only [copyChunk]
        omega
      exact Option.some.inj run ▸ .read pc down backend more positive
  · cases run

theorem send_move (run : s.send = some s') : Move s .send s' := by
  unfold send at run
  split at run
  · next data pc down =>
    split at run
    · next ended => exact Option.some.inj run ▸ .sendFails pc down ended
    · next more => exact Option.some.inj run ▸ .send pc down (Bool.eq_false_iff.mpr more)
  · cases run

theorem cancel_move (run : s.cancel = some s') : Move s .cancel s' := by
  unfold cancel at run
  split at run
  · next pc => exact Option.some.inj run ▸ .cancelIdle (Or.inl pc)
  · next first pc => exact Option.some.inj run ▸ .cancelIdle (Or.inr ⟨first, pc⟩)
  · next pc => exact Option.some.inj run ▸ .cancelTasks pc
  · next pc => exact Option.some.inj run ▸ .cancelCleanup pc
  · next pc => exact Option.some.inj run ▸ .cancelClosing pc
  · cases run

/-- A step is one of the moves. -/
theorem step_move (run : s.step e = some s') : Move s e s' := by
  cases e with
  | write data =>
    obtain ⟨isOpen, same⟩ := Option.ite_none_left_eq_some.mp run
    have isOpen := Bool.eq_false_iff.mpr isOpen
    rw [← Option.some.inj same, write]
    split
    · next nothing => exact nothing ▸ .writeNothing isOpen
    · next some => exact .write isOpen some
  | close =>
    rw [← Option.some.inj run, close]
    split
    · next closed => exact .closeAgain closed
    · next isOpen => exact .close (Bool.eq_false_iff.mpr isOpen)
  | pipe e =>
    obtain ⟨arrived, ran⟩ := Option.ite_none_right_eq_some.mp run
    obtain ⟨manager, step, rfl⟩ := Option.map_eq_some_iff.mp ran
    exact .pipe arrived step
  | answerClose =>
    obtain ⟨ended, same⟩ := Option.ite_none_right_eq_some.mp run
    exact Option.some.inj same ▸ .answerClose ended
  | receive => exact receive_move run
  | connect reachable => exact connect_move run
  | upFails =>
    obtain ⟨pc, same⟩ := Option.ite_none_right_eq_some.mp run
    exact Option.some.inj same ▸ .upFails pc
  | read n => exact read_move run
  | send => exact send_move run
  | downFails =>
    obtain ⟨⟨pc, running⟩, same⟩ := Option.ite_none_right_eq_some.mp run
    exact Option.some.inj same ▸ .downFails pc running
  | wake =>
    obtain ⟨⟨pc, done⟩, same⟩ := Option.ite_none_right_eq_some.mp run
    exact Option.some.inj same ▸ .wake pc done
  | gathered =>
    obtain ⟨pc, same⟩ := Option.ite_none_right_eq_some.mp run
    exact Option.some.inj same ▸ .gathered pc
  | closed =>
    obtain ⟨pc, same⟩ := Option.ite_none_right_eq_some.mp run
    exact Option.some.inj same ▸ .closed pc
  | cancel => exact cancel_move run
  | reply data =>
    obtain ⟨b, backend, ran⟩ := Option.bind_eq_some_iff.mp run
    obtain ⟨more, same⟩ := Option.ite_none_left_eq_some.mp ran
    exact Option.some.inj same ▸ .reply backend (Bool.eq_false_iff.mpr more)
  | backendEnd =>
    obtain ⟨b, backend, rfl⟩ := Option.map_eq_some_iff.mp run
    exact .backendEnd backend
  | breakOff out inb => exact Option.some.inj run ▸ .breakOff

end TunnelBridge

/-- Every interleaving of the two ends, the backend and the network. -/
def tunnelBridge : Transition.System TunnelBridge BridgeEvent where
  init s := s = .initial
  step := TunnelBridge.step

end Oumigo
