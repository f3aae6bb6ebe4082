import Oumigo.Tunnel.Bridge

/-!
# The bytes that cross a tunnel

What the backend was given is a front of what the manager wrote, and what the manager's reads
returned is a front of what the backend sent, whatever the interleaving.  `Upward` and `Downward`
say where all other bytes are: on the way, in the hands of a task, or lost with the connection or
with a task that was cancelled.
-/

namespace Oumigo

open Asyncio

namespace TunnelPipe

variable {messages : List WsMessage} {s s' : TunnelPipe} {e : PipeEvent}

/-- One more message is on its way. -/
theorem Inv.feed (inv : Inv messages s) (running : s.pumping = true) (message : WsMessage) :
    Inv (messages ++ [message]) { s with inbox := s.inbox ++ [message] } := by
  have chunks : Full s.incoming := by
    rcases inv.ending with ⟨-, full⟩ | ⟨returned, -⟩
    · exact full
    · rw [running] at returned
      cases returned
  refine ⟨?_, Or.inl ⟨running, chunks⟩, ended_of_full (inv.full_of_pumping running), inv.waiting⟩
  rw [sentBytes, List.flatMap_append, ← sentBytes, inv.bytes]
  simp [sentBytes]

/-- Only some of the messages still arrive. -/
theorem Inv.lose (inv : Inv messages s) (n : Nat) :
    ∃ kept, sentBytes kept <+: sentBytes messages ∧
      Inv kept { s with inbox := s.inbox.take n } := by
  have front : sentBytes (s.inbox.take n) <+: sentBytes s.inbox := by
    refine ⟨sentBytes (s.inbox.drop n), ?_⟩
    rw [sentBytes, sentBytes, ← List.flatMap_append, List.take_append_drop, sentBytes]
  refine ⟨[⟨some (s.results.flatten ++ (s.pending ++ (s.incoming.flatten ++
    sentBytes (s.inbox.take n)))), none⟩], ?_, ?_, ?_, ?_, inv.waiting⟩
  · rw [inv.bytes]
    simpa [sentBytes, WsMessage.data, List.prefix_append_right_inj] using front
  · simp [sentBytes, WsMessage.data]
  · rcases inv.ending with running | ⟨returned, empty, queued⟩
    · exact Or.inl running
    · exact Or.inr ⟨returned, by simp [empty], queued⟩
  · obtain ⟨data, ends, split, full, same, ended⟩ := inv.ended
    refine ⟨data, ends, split, full, same, fun some => ?_⟩
    obtain ⟨pending, incoming, returned, empty⟩ := ended some
    exact ⟨pending, incoming, returned, by simp [empty]⟩

/-- A read returns the end only when the pump has returned. -/
theorem Inv.returned_of_eof (inv : Inv messages s) (ended : eof ∈ s.results) :
    s.pumping = false := by
  rw [← Bool.not_eq_true]
  intro running
  exact inv.full_of_pumping running eof ended rfl

/-- What the reads returned comes first. -/
theorem Inv.results_prefix (inv : Inv messages s) : s.results.flatten <+: sentBytes messages :=
  ⟨_, inv.bytes.symm⟩

theorem closed_takeNext (maxBytes : Nat) : (s.takeNext maxBytes).closed = s.closed := by
  unfold takeNext
  split
  · rfl
  · split <;> rfl

theorem pumping_takeNext (maxBytes : Nat) : (s.takeNext maxBytes).pumping = s.pumping := by
  unfold takeNext
  split
  · rfl
  · split <;> rfl

/-- The pump returns at the end of the messages, and a closed connection stays closed. -/
theorem step_flags (ran : s.step e = some s') :
    (s'.pumping = false → s.pumping = false ∨ e = .pump ∧ s.inbox = []) ∧
      (s.closed = true → s'.closed = true) := by
  cases e with
  | pump =>
    obtain ⟨running, same⟩ := Option.ite_none_right_eq_some.mp ran
    rw [← Option.some.inj same]
    unfold TunnelPipe.pump
    split
    · next empty => exact ⟨fun _ => Or.inr ⟨rfl, empty⟩, fun _ => rfl⟩
    · split <;> exact ⟨Or.inl, id⟩
  | read maxBytes =>
    obtain ⟨-, same⟩ := Option.ite_none_right_eq_some.mp ran
    rw [← Option.some.inj same, TunnelPipe.read]
    split
    · rw [pumping_takeNext, closed_takeNext]
      exact ⟨Or.inl, id⟩
    · exact ⟨Or.inl, id⟩
  | interrupt cause =>
    obtain ⟨read, waits, rfl⟩ := Option.map_eq_some_iff.mp ran
    exact ⟨Or.inl, id⟩
  | resume =>
    obtain ⟨read, waits, resumed⟩ := Option.bind_eq_some_iff.mp ran
    obtain ⟨outcome, -, same⟩ := Option.map_eq_some_iff.mp resumed
    cases outcome with
    | ok =>
      rw [← same, pumping_takeNext, closed_takeNext]
      exact ⟨Or.inl, id⟩
    | error cause =>
      rw [← same]
      exact ⟨Or.inl, id⟩

end TunnelPipe

namespace CarryPc

/-- The slot has not left the connection. -/
def live : CarryPc → Bool
  | .closing => false
  | .gone => false
  | _ => true

/-- The message that the slot holds. -/
def held : CarryPc → List (List UInt8)
  | .opening first => [first]
  | _ => []

end CarryPc

/-- The chunk that `ws.send` was given. -/
def DownCopy.inHand : DownCopy → List UInt8
  | .sending data => data
  | _ => []

namespace TunnelBridge

/-- A step of a caller that asks for a byte at least, when it reads. -/
def Asks (_ : TunnelBridge) : BridgeEvent → Prop
  | .pipe e => AsksBytes e
  | _ => True

variable (s : TunnelBridge)

/-- What the backend was given. -/
def delivered : List UInt8 := s.backend.elim [] (·.delivered)

/-- What the backend sent. -/
def replied : List UInt8 := s.backend.elim [] (·.replied)

/-- What the slot has not read of it. -/
def unread : List UInt8 := s.backend.elim [] (·.unread)

/-- The messages that the backend has not been given. -/
def awaiting : List (List UInt8) := s.pc.held ++ s.outbound

/-- The backend is connected once the first message is there. -/
def Opened : Prop :=
  match s.pc with
  | .parked => s.backend = none
  | .opening _ => s.backend = none
  | .carrying => s.backend.isSome = true
  | .gathering => s.backend.isSome = true
  | _ => True

/-- From the manager to the backend. -/
structure Upward : Prop where
  /-- a message has bytes -/
  full : ∀ data ∈ s.awaiting, data ≠ []
  opened : s.Opened
  given : ∀ b ∈ s.backend, b.delivered ≠ []
  front : s.delivered <+: s.written
  /-- delivered, on the way, or lost when the connection broke -/
  whole : s.pc.live = true → ∃ lost, s.written = s.delivered ++ (s.awaiting.flatten ++ lost) ∧
    (s.broken = false → lost = [])
  ended : s.outboundEnded = true → s.broken = true ∨ s.manager.closed = true
  broke : s.broken = true → s.outboundEnded = true

/-- From the backend to the manager. -/
structure Downward : Prop where
  /-- sent, in the hands of the task, unread, or lost -/
  pipe : ∃ sent rest, TunnelPipe.Inv sent s.manager ∧ s.replied = sentBytes sent ++ rest ∧
    (s.broken = false → s.down ≠ .stopped → rest = s.down.inHand ++ s.unread)
  returned : s.manager.pumping = false → s.inboundEnded = true
  broke : s.broken = true → s.inboundEnded = true
  drained : s.down = .drained → ∃ b, s.backend = some b ∧ b.unread = [] ∧ b.ended = true
  answered : s.inboundEnded = true → s.outboundEnded = true ∨ s.pc.live = false

variable {s} {s' : TunnelBridge} {e : BridgeEvent}

theorem mem_awaiting {data : List UInt8} (queued : data ∈ s.outbound) : data ∈ s.awaiting :=
  List.mem_append_right _ queued

theorem Upward.unbroken (inv : s.Upward) (more : s.outboundEnded = false) :
    s.broken = false := by
  rw [← Bool.not_eq_true]
  intro broken
  rw [inv.broke broken] at more
  cases more

/-- The slot leaves; a first message it still has is lost. -/
theorem Upward.leave (inv : s.Upward) : s.leave.Upward where
  full data queued := inv.full data (mem_awaiting queued)
  opened := trivial
  given := inv.given
  front := inv.front
  whole live := nomatch live
  ended := inv.ended
  broke := inv.broke

/-- What the backend was given does not change. -/
theorem Upward.touch (inv : s.Upward) {b b' : BackendConn} (backend : s.backend = some b)
    (same : b'.delivered = b.delivered) : { s with backend := some b' }.Upward := by
  have kept : { s with backend := some b' }.delivered = s.delivered := by
    simp only [delivered, backend, Option.elim_some, same]
  have opened := inv.opened
  unfold Opened at opened
  rw [backend] at opened
  refine ⟨inv.full, ?_, ?_, kept ▸ inv.front, fun live => ?_, inv.ended, inv.broke⟩
  · unfold Opened
    split at opened <;> simp_all
  · rintro c ⟨⟩
    rw [same]
    exact inv.given b backend
  · rw [kept]
    exact inv.whole live

theorem closeWriter_none (unopened : s.backend = none) : s.closeWriter = s := by
  cases s
  cases unopened
  rfl

theorem Upward.closeWriter (inv : s.Upward) : s.closeWriter.Upward := by
  cases backend : s.backend with
  | none =>
    rw [closeWriter_none backend]
    exact inv
  | some b =>
    rw [TunnelBridge.closeWriter, backend]
    exact inv.touch backend rfl

/-- Both tasks are cancelled. -/
theorem Upward.gather (inv : s.Upward) (pc : s.pc = .carrying) :
    ({ s.cancelTasks with pc := .gathering }).Upward := by
  have whole := inv.whole (by rw [pc]; rfl)
  have opened := inv.opened
  rw [Opened, pc] at opened
  rw [awaiting, pc] at whole
  exact ⟨fun data queued => inv.full data (mem_awaiting queued), opened, inv.given, inv.front,
    fun _ => whole, inv.ended, inv.broke⟩

theorem Upward.write (inv : s.Upward) (isOpen : s.manager.closed = false) {data : List UInt8}
    (some : data ≠ []) : ({ s with
      written := s.written ++ data
      outbound := if s.outboundEnded then s.outbound else s.outbound ++ [data] }).Upward := by
  have front : s.delivered <+: s.written ++ data := inv.front.trans (List.prefix_append _ _)
  cases ended : s.outboundEnded with
  | true =>
    -- the connection broke: the bytes are lost
    have broken : s.broken = true := by
      rcases inv.ended ended with broken | closed
      · exact broken
      · rw [isOpen] at closed
        cases closed
    refine ⟨inv.full, inv.opened, inv.given, front, fun live => ?_, fun _ => Or.inl broken, ?_⟩
    · obtain ⟨lost, split, -⟩ := inv.whole live
      refine ⟨lost ++ data, ?_, fun whole => ?_⟩
      · change s.written ++ data = s.delivered ++ (s.awaiting.flatten ++ (lost ++ data))
        simp [split]
      · rw [broken] at whole
        cases whole
    · exact fun _ => rfl
  | false =>
    have whole := inv.unbroken ended
    rw [if_neg Bool.false_ne_true]
    refine ⟨?_, inv.opened, inv.given, front, fun live => ?_, ?_, ?_⟩
    · intro chunk member
      change chunk ∈ s.pc.held ++ (s.outbound ++ [data]) at member
      rw [← List.append_assoc] at member
      rcases List.mem_append.mp member with old | new
      · exact inv.full chunk old
      · rw [List.mem_singleton.mp new]
        exact some
    · obtain ⟨lost, split, all⟩ := inv.whole live
      refine ⟨[], ?_, fun _ => rfl⟩
      change s.written ++ data =
        s.delivered ++ ((s.pc.held ++ (s.outbound ++ [data])).flatten ++ [])
      rw [split, all whole, awaiting]
      simp
    · exact fun shut => nomatch shut
    · exact fun broken => ended ▸ inv.broke broken

/-- The slot receives its first message, which it holds. -/
theorem Upward.request (inv : s.Upward) (pc : s.pc = .parked) {data : List UInt8}
    {rest : List (List UInt8)} (queue : s.outbound = data :: rest) :
    ({ s with outbound := rest, pc := .opening data }).Upward := by
  have same : s.awaiting = data :: rest := by
    rw [awaiting, pc, queue]
    rfl
  have opened := inv.opened
  have whole := inv.whole (by rw [pc]; rfl)
  have full := inv.full
  rw [Opened, pc] at opened
  rw [same] at whole full
  exact ⟨full, opened, inv.given, inv.front, fun _ => whole, inv.ended, inv.broke⟩

/-- A message passes from the queue to the backend. -/
theorem Upward.passOn (inv : s.Upward) (live : s.pc.live = true) {data : List UInt8}
    {rest : List (List UInt8)} (queue : s.awaiting = data :: rest) :
    s.delivered ++ data <+: s.written ∧
      ∃ lost, s.written = s.delivered ++ data ++ (rest.flatten ++ lost) ∧
        (s.broken = false → lost = []) := by
  obtain ⟨lost, split, all⟩ := inv.whole live
  rw [queue, List.flatten_cons] at split
  have moved : s.written = s.delivered ++ data ++ (rest.flatten ++ lost) := by
    rw [split]
    simp
  exact ⟨⟨_, moved.symm⟩, lost, moved, all⟩

theorem Upward.forward (inv : s.Upward) (pc : s.pc = .carrying) {data : List UInt8}
    {rest : List (List UInt8)} (queue : s.outbound = data :: rest) :
    ({ s with outbound := rest }.deliver data).Upward := by
  have opened := inv.opened
  rw [Opened, pc] at opened
  obtain ⟨b, backend⟩ := Option.isSome_iff_exists.mp opened
  have same : s.awaiting = data :: rest := by
    rw [awaiting, pc, queue]
    rfl
  obtain ⟨front, whole⟩ := inv.passOn (by rw [pc]; rfl) same
  have now : ({ s with outbound := rest }.deliver data) = { s with
      outbound := rest, backend := some { b with delivered := b.delivered ++ data } } := by
    rw [deliver, backend]
    rfl
  have before : s.delivered = b.delivered := by
    rw [delivered, backend]
    rfl
  rw [before] at front whole
  rw [now]
  refine ⟨fun chunk queued => inv.full chunk ?_, ?_, ?_, front, fun _ => ?_, inv.ended, inv.broke⟩
  · rw [awaiting, pc] at queued
    rw [same]
    exact List.mem_cons_of_mem _ queued
  · rw [Opened, pc]
    rfl
  · rintro c ⟨⟩ nothing
    exact inv.given b backend (List.append_eq_nil_iff.mp nothing).1
  · rw [awaiting, pc]
    exact whole

/-- The backend is connected and given the first message. -/
theorem Upward.connect (inv : s.Upward) {first : List UInt8} (pc : s.pc = .opening first) :
    ({ s with pc := .carrying, backend := some ⟨first, [], [], false, false⟩ }).Upward := by
  have opened := inv.opened
  rw [Opened, pc] at opened
  have same : s.awaiting = first :: s.outbound := by
    rw [awaiting, pc]
    rfl
  obtain ⟨front, whole⟩ := inv.passOn (by rw [pc]; rfl) same
  have before : s.delivered = [] := by
    rw [delivered, opened]
    rfl
  rw [before, List.nil_append] at front whole
  refine ⟨fun data queued => inv.full data (mem_awaiting queued), rfl, ?_, front, fun _ => whole,
    inv.ended, inv.broke⟩
  rintro b ⟨⟩
  exact inv.full first (same ▸ List.mem_cons_self)

theorem Upward.breakOff (inv : s.Upward) {out inb : Nat} : ({ s with
      manager := { s.manager with inbox := s.manager.inbox.take inb }
      outbound := s.outbound.take out
      outboundEnded := true
      inboundEnded := true
      broken := true }).Upward := by
  refine ⟨fun data queued => inv.full data ?_, inv.opened, inv.given, inv.front, fun live => ?_,
    fun _ => Or.inl rfl, fun _ => rfl⟩
  · rcases List.mem_append.mp queued with held | queued
    · exact List.mem_append_left _ held
    · exact List.mem_append_right _ (List.mem_of_mem_take queued)
  · obtain ⟨lost, split, -⟩ := inv.whole live
    refine ⟨(s.outbound.drop out).flatten ++ lost, ?_, fun whole => nomatch whole⟩
    change s.written = s.delivered ++ ((s.pc.held ++ s.outbound.take out).flatten ++
      ((s.outbound.drop out).flatten ++ lost))
    rw [split, awaiting, ← List.append_assoc (List.flatten _), ← List.flatten_append,
      List.append_assoc s.pc.held, List.take_append_drop]

theorem Upward.step (inv : s.Upward) (run : s.step e = some s') : s'.Upward := by
  have move := step_move run
  cases move with
  | writeNothing | closeAgain | cancelClosing => exact inv
  | write isOpen some => exact inv.write isOpen some
  | close =>
    exact ⟨inv.full, inv.opened, inv.given, inv.front, inv.whole, fun _ => Or.inr rfl,
      fun _ => rfl⟩
  | pipe arrived ran =>
    refine ⟨inv.full, inv.opened, inv.given, inv.front, inv.whole, fun ended => ?_, inv.broke⟩
    exact (inv.ended ended).imp id (TunnelPipe.step_flags ran).2
  | answerClose | upEnds | upFails | readEnd | sendFails | send | downFails =>
    exact ⟨inv.full, inv.opened, inv.given, inv.front, inv.whole, inv.ended, inv.broke⟩
  | request pc queue => exact inv.request pc queue
  | noRequest | refuse | cancelIdle | cancelCleanup => exact inv.leave
  | forward pc _ queue => exact inv.forward pc queue
  | connect pc => exact inv.connect pc
  | @read _ size b _ _ backend =>
    have kept : ({ s with backend := some { b with unread := b.unread.drop size } }).Upward :=
      inv.touch backend rfl
    exact ⟨kept.full, kept.opened, kept.given, kept.front, kept.whole, kept.ended, kept.broke⟩
  | wake pc | cancelTasks pc => exact inv.gather pc
  | gathered => exact inv.closeWriter.leave
  | closed =>
    exact ⟨fun data queued => inv.full data (mem_awaiting queued), trivial, inv.given, inv.front,
      fun live => (nomatch live), inv.ended, inv.broke⟩
  | reply backend => exact inv.touch backend rfl
  | backendEnd backend => exact inv.touch backend rfl
  | breakOff => exact inv.breakOff

/-! ## From the backend to the manager -/

/-- A message of the worker. -/
theorem sentBytes_append (messages : List WsMessage) (data : List UInt8) :
    sentBytes (messages ++ [⟨some data, none⟩]) = sentBytes messages ++ data := by
  simp [sentBytes, WsMessage.data]

/-- While nothing ends the inbox, the pump runs. -/
theorem Downward.pumping (inv : s.Downward) (more : s.inboundEnded = false) :
    s.manager.pumping = true := by
  rw [← Bool.not_eq_false]
  intro returned
  rw [inv.returned returned] at more
  cases more

theorem Downward.unbroken (inv : s.Downward) (more : s.inboundEnded = false) :
    s.broken = false := by
  rw [← Bool.not_eq_true]
  intro broken
  rw [inv.broke broken] at more
  cases more

/-- The slot leaves. -/
theorem Downward.leave (inv : s.Downward) : s.leave.Downward where
  pipe := inv.pipe
  returned _ := rfl
  broke _ := rfl
  drained := inv.drained
  answered _ := Or.inr rfl

/-- Both tasks are cancelled: what the task had in its hands is lost. -/
theorem Downward.cancelTasks (inv : s.Downward) (pc : s.pc = .carrying) :
    ({ s.cancelTasks with pc := .gathering }).Downward := by
  obtain ⟨sent, rest, pipe, split, all⟩ := inv.pipe
  have stays : ∀ down, down ≠ .stopped → (if s.downDone then s.down else .stopped) = down →
      s.down = down := by
    intro down some same
    split at same
    · exact same
    · exact absurd same.symm some
  refine ⟨⟨sent, rest, pipe, split, ?_⟩, inv.returned, inv.broke, fun drained => ?_,
    fun ended => ?_⟩
  · intro whole some
    have same := stays _ some rfl
    rw [← same] at some ⊢
    exact all whole some
  · exact inv.drained (stays _ (by simp) drained)
  · rcases inv.answered ended with ended | left
    · exact Or.inl ended
    · rw [pc] at left
      cases left

theorem Downward.send (inv : s.Downward) {data : List UInt8} (down : s.down = .sending data)
    (more : s.inboundEnded = false) : ({ s with
      manager := { s.manager with inbox := s.manager.inbox ++ [(⟨some data, none⟩ : WsMessage)] }
      down := .reading }).Downward := by
  obtain ⟨sent, rest, pipe, split, all⟩ := inv.pipe
  have held := all (inv.unbroken more) (by simp [down])
  rw [down] at held
  refine ⟨⟨sent ++ [(⟨some data, none⟩ : WsMessage)], s.unread, pipe.feed (inv.pumping more) _, ?_,
    fun _ _ => rfl⟩, inv.returned, inv.broke, fun drained => (nomatch drained), inv.answered⟩
  change s.replied = _
  rw [split, held, sentBytes_append, List.append_assoc]
  rfl

theorem Downward.read (inv : s.Downward) {b : BackendConn} (down : s.down = .reading)
    (backend : s.backend = some b) (size : Nat) : ({ s with
      down := .sending (b.unread.take size)
      backend := some { b with unread := b.unread.drop size } }).Downward := by
  obtain ⟨sent, rest, pipe, split, all⟩ := inv.pipe
  refine ⟨⟨sent, rest, pipe, ?_, fun whole _ => ?_⟩, inv.returned, inv.broke,
    fun drained => (nomatch drained), inv.answered⟩
  · rw [← split, replied, replied, backend]
    rfl
  · rw [all whole (by simp [down]), down, unread, backend]
    exact (List.take_append_drop size b.unread).symm

theorem Downward.reply (inv : s.Downward) {b : BackendConn} (backend : s.backend = some b)
    (more : b.ended = false) (data : List UInt8) : ({ s with
      backend := some { b with
        replied := b.replied ++ data, unread := b.unread ++ data } }).Downward := by
  obtain ⟨sent, rest, pipe, split, all⟩ := inv.pipe
  rw [replied, backend] at split
  rw [unread, backend] at all
  refine ⟨⟨sent, rest ++ data, pipe, ?_, fun whole some => ?_⟩, inv.returned, inv.broke, ?_,
    inv.answered⟩
  · change b.replied ++ data = _
    rw [show b.replied = _ from split, List.append_assoc]
  · rw [all whole some, List.append_assoc]
    rfl
  · intro drained
    obtain ⟨c, same, -, ended⟩ := inv.drained drained
    cases backend.symm.trans same
    rw [more] at ended
    cases ended

/-- Nothing changes in what the backend sends. -/
theorem Downward.touch (inv : s.Downward) {b b' : BackendConn} (backend : s.backend = some b)
    (replied : b'.replied = b.replied) (unread : b'.unread = b.unread)
    (ended : b.ended = true → b'.ended = true) : { s with backend := some b' }.Downward := by
  obtain ⟨sent, rest, pipe, split, all⟩ := inv.pipe
  rw [TunnelBridge.replied, backend] at split
  rw [TunnelBridge.unread, backend] at all
  refine ⟨⟨sent, rest, pipe, replied.trans split, fun whole some => ?_⟩, inv.returned, inv.broke,
    fun drained => ?_, inv.answered⟩
  · rw [all whole some, Option.elim_some, ← unread]
    rfl
  · obtain ⟨c, same, nothing, shut⟩ := inv.drained drained
    cases backend.symm.trans same
    exact ⟨b', rfl, unread.trans nothing, ended shut⟩

theorem Downward.forward (inv : s.Downward) (opened : s.backend.isSome = true)
    (data : List UInt8) (rest : List (List UInt8)) :
    ({ s with outbound := rest }.deliver data).Downward := by
  obtain ⟨b, backend⟩ := Option.isSome_iff_exists.mp opened
  have kept : ({ s with backend := some { b with delivered := b.delivered ++ data } }).Downward :=
    inv.touch backend rfl rfl id
  rw [deliver, backend]
  exact ⟨kept.pipe, kept.returned, kept.broke, kept.drained, kept.answered⟩

theorem Downward.closeWriter (inv : s.Downward) : s.closeWriter.Downward := by
  cases backend : s.backend with
  | none =>
    rw [closeWriter_none backend]
    exact inv
  | some b =>
    rw [TunnelBridge.closeWriter, backend]
    exact inv.touch backend rfl rfl id

/-- The backend has sent nothing when it is connected. -/
theorem Downward.connect (inv : s.Downward) (unopened : s.backend = none)
    {first : List UInt8} (pc : s.pc = .opening first) :
    ({ s with pc := .carrying, backend := some ⟨first, [], [], false, false⟩ }).Downward := by
  obtain ⟨sent, rest, pipe, split, all⟩ := inv.pipe
  rw [replied, unopened] at split
  rw [unread, unopened] at all
  refine ⟨⟨sent, rest, pipe, split, all⟩, inv.returned, inv.broke, fun drained => ?_,
    fun ended => ?_⟩
  · obtain ⟨b, backend, -⟩ := inv.drained drained
    cases unopened.symm.trans backend
  · rcases inv.answered ended with ended | left
    · exact Or.inl ended
    · rw [pc] at left
      cases left

theorem Downward.breakOff (inv : s.Downward) {out inb : Nat} : ({ s with
      manager := { s.manager with inbox := s.manager.inbox.take inb }
      outbound := s.outbound.take out
      outboundEnded := true
      inboundEnded := true
      broken := true }).Downward := by
  obtain ⟨sent, rest, pipe, split, -⟩ := inv.pipe
  obtain ⟨kept, ⟨more, front⟩, pipe⟩ := pipe.lose inb
  refine ⟨⟨kept, more ++ rest, pipe, ?_, fun whole => nomatch whole⟩, fun _ => rfl, fun _ => rfl,
    inv.drained, fun _ => Or.inl rfl⟩
  change s.replied = _
  rw [split, ← front, List.append_assoc]

theorem Downward.step (inv : s.Downward) (upward : s.Upward) (asks : s.Asks e)
    (run : s.step e = some s') : s'.Downward := by
  have move := step_move run
  obtain ⟨sent, rest, pipe, split, all⟩ := inv.pipe
  cases move with
  | writeNothing | closeAgain | cancelClosing => exact inv
  | write | upFails | upEnds =>
    exact ⟨inv.pipe, inv.returned, inv.broke, inv.drained, inv.answered⟩
  | close =>
    exact ⟨⟨sent, rest, ⟨pipe.bytes, pipe.ending, pipe.ended, pipe.waiting⟩, split, all⟩,
      inv.returned, inv.broke, inv.drained, fun _ => Or.inl rfl⟩
  | pipe arrived ran =>
    refine ⟨⟨sent, rest, pipe.step asks ran, split, all⟩, fun returned => ?_, inv.broke,
      inv.drained, inv.answered⟩
    rcases (TunnelPipe.step_flags ran).1 returned with before | ⟨rfl, empty⟩
    · exact inv.returned before
    · simpa [TunnelBridge.arrived, empty] using arrived
  | answerClose ended =>
    exact ⟨inv.pipe, fun _ => rfl, fun _ => rfl, inv.drained, fun _ => Or.inl ended⟩
  | request pc queue =>
    exact ⟨inv.pipe, inv.returned, inv.broke, inv.drained, fun ended => (inv.answered ended).imp id
      fun left => by rw [pc] at left; cases left⟩
  | noRequest | refuse | cancelIdle | cancelCleanup => exact inv.leave
  | forward pc =>
    have opened := upward.opened
    rw [Opened, pc] at opened
    exact inv.forward opened _ _
  | connect pc =>
    have opened := upward.opened
    rw [Opened, pc] at opened
    exact inv.connect opened pc
  | @readEnd _ b pc down backend nothing ended =>
    refine ⟨⟨sent, rest, pipe, split, fun whole _ => ?_⟩, inv.returned, inv.broke,
      fun _ => ⟨b, backend, nothing, ended⟩, inv.answered⟩
    rw [all whole (by simp [down]), down]
    rfl
  | read pc down backend => exact inv.read down backend _
  | sendFails =>
    exact ⟨⟨sent, rest, pipe, split, fun _ stopped => absurd rfl stopped⟩, inv.returned,
      inv.broke, fun drained => (nomatch drained), inv.answered⟩
  | send pc down more => exact inv.send down more
  | downFails =>
    exact ⟨⟨sent, rest, pipe, split, fun _ stopped => absurd rfl stopped⟩, inv.returned,
      inv.broke, fun drained => (nomatch drained), inv.answered⟩
  | wake pc | cancelTasks pc => exact inv.cancelTasks pc
  | gathered => exact inv.closeWriter.leave
  | closed => exact ⟨inv.pipe, inv.returned, inv.broke, inv.drained, fun _ => Or.inr rfl⟩
  | reply backend more => exact inv.reply backend more _
  | backendEnd backend => exact inv.touch backend rfl rfl fun _ => rfl
  | breakOff => exact inv.breakOff

theorem upward_initial : initial.Upward where
  full := by simp [awaiting, initial, CarryPc.held]
  opened := rfl
  given := by simp [initial]
  front := List.nil_prefix
  whole _ := ⟨[], rfl, fun _ => rfl⟩
  ended shut := nomatch shut
  broke broken := nomatch broken

theorem inv_of_reachable (reached : tunnelBridge.ReachableBy Asks s) :
    s.Upward ∧ s.Downward := by
  apply reached.invariant
  · rintro s rfl
    constructor
    · exact upward_initial
    · exact ⟨⟨[], [], TunnelPipe.inv_of_reachable (.init rfl), rfl, fun _ _ => rfl⟩,
        fun returned => (nomatch returned), fun broken => (nomatch broken),
        fun drained => (nomatch drained), fun ended => (nomatch ended)⟩
  · intro s e s' ⟨upward, downward⟩ asks ran
    exact ⟨upward.step ran, downward.step upward asks ran⟩

end TunnelBridge

open TunnelBridge in
/-- **One connection, byte for byte.**  In every state that any interleaving of the manager, the
slot, the backend and the network reaches:

* the backend is connected only once bytes of a request are there, and has been given a front of
  what the manager wrote; while the slot has not left an unbroken connection, the rest is held or
  on its way;
* what the manager's reads returned is a front of what the backend sent, and while the connection
  is whole and the copy task has not been cut off, the rest is buffered, on its way, in the task's
  hands or unread;
* a read returned the end only if the manager closed, the connection broke or the slot left, and if
  the copy task had come to the backend's own end, all that the backend sent was read before it. -/
theorem tunnel_bridge_faithful {s : TunnelBridge}
    (reached : tunnelBridge.ReachableBy TunnelBridge.Asks s) :
    (∀ b ∈ s.backend, b.delivered ≠ []) ∧ s.delivered <+: s.written ∧
    (s.pc.live = true → s.broken = false → s.written = s.delivered ++ s.awaiting.flatten) ∧
    s.manager.results.flatten <+: s.replied ∧
    (s.broken = false → s.down ≠ .stopped → s.replied = s.manager.results.flatten ++
      (s.manager.pending ++ (s.manager.incoming.flatten ++
        (sentBytes s.manager.inbox ++ (s.down.inHand ++ s.unread))))) ∧
    ∀ before after, s.manager.results = before ++ TunnelPipe.eof :: after →
      (s.outboundEnded = true ∨ s.pc.live = false) ∧
      (s.broken = false → s.down = .drained → before.flatten = s.replied) := by
  obtain ⟨upward, downward⟩ := inv_of_reachable reached
  obtain ⟨sent, rest, pipe, split, all⟩ := downward.pipe
  refine ⟨upward.given, upward.front, fun live whole => ?_, ?_, fun whole some => ?_,
    fun before after ended => ⟨?_, fun whole drained => ?_⟩⟩
  · obtain ⟨lost, written, none⟩ := upward.whole live
    rw [written, none whole, List.append_nil]
  · rw [split]
    exact pipe.results_prefix.trans (List.prefix_append _ _)
  · rw [split, all whole some, pipe.bytes]
    simp only [List.append_assoc]
  · apply downward.answered
    apply downward.returned
    apply pipe.returned_of_eof
    rw [ended]
    exact List.mem_append_right _ List.mem_cons_self
  · obtain ⟨b, backend, nothing, -⟩ := downward.drained drained
    obtain ⟨read, -⟩ := pipe.ends ended
    rw [read, split, all whole (by simp [drained]), drained, unread, backend]
    simp [DownCopy.inHand, nothing]

/-- A request of one byte and its reply; the backend closes. -/
def exchange : List BridgeEvent :=
  [.write [71], .receive, .connect true, .reply [72, 73], .backendEnd, .read 9, .send, .read 0,
    .wake, .gathered, .closed, .pipe .pump, .pipe (.read 9), .pipe .pump, .pipe (.read 9)]

/-- The connection after it. -/
def exchanged : TunnelBridge where
  manager := ⟨[], false, true, [[]], [], none, [[72, 73], []]⟩
  written := [71]
  outbound := []
  outboundEnded := false
  inboundEnded := true
  broken := false
  pc := .gone
  up := false
  down := .drained
  backend := some ⟨[71], [72, 73], [], true, true⟩

theorem run_exchange : tunnelBridge.run .initial exchange = some exchanged := rfl

theorem tunnel_bridge_faithful_exchange :
    [71] <+: exchanged.written ∧ [[72, 73]].flatten = exchanged.replied := by
  have asks : ∀ e ∈ exchange, ∀ s : TunnelBridge, s.Asks e := by
    simp [exchange, TunnelBridge.Asks, AsksBytes]
  have reached : tunnelBridge.ReachableBy TunnelBridge.Asks exchanged :=
    .run (.init rfl) asks run_exchange
  obtain ⟨-, front, -, -, -, ends⟩ := tunnel_bridge_faithful reached
  exact ⟨front, (ends [[72, 73]] [] rfl).2 rfl rfl⟩

end Oumigo
