import Oumigo.Foundation.Asyncio
import Oumigo.Foundation.Transition

/-!
# The bytes of a tunnel connection

`TunnelConn.pump`, `TunnelConn.read` and `TunnelStream.read` of `service/manager/tunnel.py`, for
one connection.  The messages are those that the worker sends before it closes.  A read of an
empty queue waits for a getter of the queue, which `put_nowait` resolves; the read's timeout may be
delivered before or after that, and is raised when its task runs again.

The queue holds the messages' bytes and, in band, the empty value that says the connection ended.
`Inv` says where every byte is.
-/

namespace Oumigo

open Asyncio

/-- A message of the worker, as `WebSocket.receive` gives it. -/
structure WsMessage where
  bytes : Option (List UInt8)
  text : Option String
  deriving DecidableEq

/-- The bytes that `pump` reads from a message. -/
def WsMessage.data (message : WsMessage) : List UInt8 :=
  match message.bytes with
  | some bytes => bytes
  | none =>
      match message.text with
      | some text => text.toUTF8.toList
      | none => []

/-- The bytes of messages. -/
def sentBytes (messages : List WsMessage) : List UInt8 := messages.flatMap WsMessage.data

/-- A connection and its reader. -/
structure TunnelPipe where
  /-- the messages that `pump` has not received; then the worker closes -/
  inbox : List WsMessage
  /-- `pump` has not returned -/
  pumping : Bool
  closed : Bool
  /-- `_incoming` -/
  incoming : List (List UInt8)
  /-- `_pending` -/
  pending : List UInt8
  /-- a read that waits for the queue: its `max_bytes`, and the getter -/
  reader : Option (Nat × WaitFor Unit)
  /-- what the reads returned -/
  results : List (List UInt8)
  deriving DecidableEq

/-- What happens on the event loop. -/
inductive PipeEvent where
  /-- `pump` handles the next message, or the close -/
  | pump
  /-- a call of `read` -/
  | read (maxBytes : Nat)
  /-- the waiting read is interrupted -/
  | interrupt (cause : Interrupt)
  /-- the waiting read runs again -/
  | resume

namespace TunnelPipe

/-- `_EOF`. -/
def eof : List UInt8 := []

/-- `_incoming.put_nowait(data)`. -/
def putNowait (s : TunnelPipe) (data : List UInt8) : TunnelPipe :=
  { s with
    incoming := s.incoming ++ [data]
    reader := s.reader.map fun read => (read.1, (read.2.setResult ()).getD read.2) }

/-- `pump`, from one `receive` to the next. -/
def pump (s : TunnelPipe) : TunnelPipe :=
  match s.inbox with
  | [] => { putNowait s eof with pumping := false, closed := true }
  | message :: inbox =>
      if message.data = [] then { s with inbox := inbox }
      else { putNowait s message.data with inbox := inbox }

/-- The end of `read`: bytes of the pending message. -/
def deliver (s : TunnelPipe) (maxBytes : Nat) : TunnelPipe :=
  { s with
    pending := s.pending.drop maxBytes
    reader := none
    results := s.results ++ [s.pending.take maxBytes] }

/-- `read` from `await self._incoming.get()` on: it waits while the queue is empty. -/
def takeNext (s : TunnelPipe) (maxBytes : Nat) : TunnelPipe :=
  match s.incoming with
  | [] => { s with reader := some (maxBytes, .pending) }
  | data :: incoming =>
      if data = eof then
        -- the end is put back, for later reads
        { s with
          incoming := incoming ++ [eof]
          pending := data
          reader := none
          results := s.results ++ [eof] }
      else deliver { s with incoming := incoming, pending := data } maxBytes

/-- `read`. -/
def read (s : TunnelPipe) (maxBytes : Nat) : TunnelPipe :=
  if s.pending = [] then takeNext s maxBytes else deliver s maxBytes

def step (s : TunnelPipe) : PipeEvent → Option TunnelPipe
  | .pump => if s.pumping then some s.pump else none
  | .read maxBytes => if s.reader.isNone then some (s.read maxBytes) else none
  | .interrupt cause =>
      s.reader.map fun read => { s with reader := some (read.1, read.2.interrupt cause) }
  | .resume => s.reader.bind fun read => read.2.resume.map fun outcome =>
      match outcome with
      | .ok _ => s.takeNext read.1
      -- `ReadTimeout`, or the cancellation
      | .error _ => { s with reader := none }

end TunnelPipe

/-- Every interleaving of the pump with reads, on a connection that carries the messages. -/
def tunnelPipe (messages : List WsMessage) : Transition.System TunnelPipe PipeEvent where
  init s := s = ⟨messages, true, false, [], [], none, []⟩
  step := TunnelPipe.step

/-- A read asks for a byte at least. -/
def AsksBytes : PipeEvent → Prop
  | .read maxBytes => 1 ≤ maxBytes
  | .pump => True
  | .interrupt _ => True
  | .resume => True

namespace TunnelPipe

variable {messages : List WsMessage} {s s' : TunnelPipe} {e : PipeEvent} {maxBytes : Nat}

/-- Chunks with bytes. -/
def Full (chunks : List (List UInt8)) : Prop := ∀ chunk ∈ chunks, chunk ≠ []

/-- Where the bytes of the messages are. -/
structure Inv (messages : List WsMessage) (s : TunnelPipe) : Prop where
  /-- returned, pending, queued, or not received -/
  bytes : sentBytes messages = s.results.flatten ++ (s.pending ++ (s.incoming.flatten ++
    sentBytes s.inbox))
  /-- the end is queued last, when the pump has returned -/
  ending : s.pumping = true ∧ Full s.incoming ∨
    s.pumping = false ∧ s.inbox = [] ∧ ∃ chunks, s.incoming = chunks ++ [eof] ∧ Full chunks
  /-- once a read returned the end, there is nothing but the end -/
  ended : ∃ data ends, s.results = data ++ ends ∧ Full data ∧ (∀ result ∈ ends, result = eof) ∧
    (ends ≠ [] → s.pending = [] ∧ s.incoming = [eof] ∧ s.pumping = false ∧ s.inbox = [])
  /-- a read waits only for an empty queue, or has been woken -/
  waiting : ∀ read ∈ s.reader, 1 ≤ read.1 ∧ s.pending = [] ∧
    (read.2 = .pending → s.incoming = [])

theorem sentBytes_cons (message : WsMessage) (rest : List WsMessage) :
    sentBytes (message :: rest) = message.data ++ sentBytes rest :=
  List.flatMap_cons

theorem woken_ne_pending (w : WaitFor Unit) : (w.setResult ()).getD w ≠ .pending := by
  cases w <;> simp [WaitFor.setResult]

/-- While the pump runs no read has returned the end. -/
theorem Inv.full_of_pumping (inv : Inv messages s) (running : s.pumping = true) :
    Full s.results := by
  obtain ⟨data, ends, split, full, -, ended⟩ := inv.ended
  cases ends with
  | nil => rwa [split, List.append_nil]
  | cons result ends =>
    have returned := (ended (by simp)).2.2.1
    rw [running] at returned
    cases returned

/-- Nor before the last bytes were taken from the queue. -/
theorem Inv.full_of_data (inv : Inv messages s)
    (more : s.pending ≠ [] ∨ ∃ data rest, s.incoming = data :: rest ∧ data ≠ eof) :
    Full s.results := by
  obtain ⟨data, ends, split, full, -, ended⟩ := inv.ended
  cases ends with
  | nil => rwa [split, List.append_nil]
  | cons result ends =>
    obtain ⟨none, last, -⟩ := ended (by simp)
    rcases more with some | ⟨chunk, rest, queue, some⟩
    · exact absurd none some
    · rw [last] at queue
      exact absurd (List.cons.inj queue).1.symm some

theorem ended_of_full {results : List (List UInt8)} (full : Full results) {P : Prop} :
    ∃ data ends, results = data ++ ends ∧ Full data ∧ (∀ result ∈ ends, result = eof) ∧
      (ends ≠ [] → P) :=
  ⟨results, [], (List.append_nil _).symm, full, by simp, by simp⟩

/-- A read of the pending message. -/
theorem inv_deliver (bytes : sentBytes messages =
      s.results.flatten ++ (s.pending ++ (s.incoming.flatten ++ sentBytes s.inbox)))
    (ending : s.pumping = true ∧ Full s.incoming ∨
      s.pumping = false ∧ s.inbox = [] ∧ ∃ chunks, s.incoming = chunks ++ [eof] ∧ Full chunks)
    (full : Full s.results) (some : s.pending ≠ []) (positive : 1 ≤ maxBytes) :
    Inv messages (s.deliver maxBytes) := by
  refine ⟨?_, ending, ended_of_full ?_, by simp [deliver]⟩
  · rw [bytes]
    simp only [deliver, List.flatten_append, List.flatten_singleton, List.append_assoc]
    rw [← List.append_assoc (s.pending.take maxBytes), List.take_append_drop]
  · intro result member
    rcases List.mem_append.mp member with old | new
    · exact full result old
    · rw [List.mem_singleton.mp new]
      intro nothing
      rw [List.take_eq_nil_iff] at nothing
      rcases nothing with zero | none
      · omega
      · exact some none

/-- What is queued first, and what the queue is then. -/
theorem Inv.head (inv : Inv messages s) {data : List UInt8} {incoming : List (List UInt8)}
    (queue : s.incoming = data :: incoming) :
    data = eof ∧ incoming = [] ∧ s.pumping = false ∧ s.inbox = [] ∨
    data ≠ eof ∧ (s.pumping = true ∧ Full incoming ∨
      s.pumping = false ∧ s.inbox = [] ∧ ∃ chunks, incoming = chunks ++ [eof] ∧ Full chunks) := by
  rcases inv.ending with ⟨running, full⟩ | ⟨returned, empty, chunks, split, full⟩
  · rw [queue] at full
    obtain ⟨some, rest⟩ := List.forall_mem_cons.mp full
    exact Or.inr ⟨some, Or.inl ⟨running, rest⟩⟩
  · rw [queue] at split
    cases chunks with
    | nil =>
      obtain ⟨rfl, rfl⟩ := List.cons.inj split
      exact Or.inl ⟨rfl, rfl, returned, empty⟩
    | cons chunk chunks =>
      obtain ⟨rfl, rest⟩ := List.cons.inj split
      obtain ⟨some, others⟩ := List.forall_mem_cons.mp full
      exact Or.inr ⟨some, Or.inr ⟨returned, empty, chunks, rest, others⟩⟩

theorem Inv.takeNext (inv : Inv messages s) (none : s.pending = []) (positive : 1 ≤ maxBytes) :
    Inv messages (s.takeNext maxBytes) := by
  have bytes := inv.bytes
  unfold TunnelPipe.takeNext
  split
  · next empty =>
    refine ⟨bytes, inv.ending, inv.ended, ?_⟩
    rintro read ⟨⟩
    exact ⟨positive, none, fun _ => empty⟩
  · next data incoming queue =>
    rw [none, queue, List.flatten_cons, List.nil_append, List.append_assoc] at bytes
    rcases inv.head queue with ⟨rfl, rfl, returned, empty⟩ | ⟨some, ending⟩
    · -- the end is returned once more
      obtain ⟨data, ends, split, full, same, -⟩ := inv.ended
      rw [if_pos rfl]
      refine ⟨?_, Or.inr ⟨returned, empty, [], rfl, by simp [Full]⟩, ?_, by simp⟩
      · simpa [eof] using bytes
      · refine ⟨data, ends ++ [eof], by rw [split, List.append_assoc], full, ?_, ?_⟩
        · intro result member
          rcases List.mem_append.mp member with old | new
          · exact same result old
          · exact List.mem_singleton.mp new
        · exact fun _ => ⟨rfl, rfl, returned, empty⟩
    · have full := inv.full_of_data (Or.inr ⟨data, incoming, queue, some⟩)
      rw [if_neg some]
      exact inv_deliver (s := { s with incoming := incoming, pending := data }) bytes ending full
        some positive

theorem Inv.pump (inv : Inv messages s) (running : s.pumping = true) : Inv messages s.pump := by
  have full := inv.full_of_pumping running
  have chunks : Full s.incoming := by
    rcases inv.ending with ⟨-, full⟩ | ⟨returned, -⟩
    · exact full
    · rw [running] at returned
      cases returned
  have bytes := inv.bytes
  -- whoever waits for the queue is woken
  have woken : ∀ read ∈ s.reader.map fun read => (read.1, (read.2.setResult ()).getD read.2),
      1 ≤ read.1 ∧ s.pending = [] ∧ read.2 ≠ .pending := by
    intro read member
    obtain ⟨read', waits, rfl⟩ := Option.map_eq_some_iff.mp member
    obtain ⟨positive, none, -⟩ := inv.waiting read' waits
    exact ⟨positive, none, woken_ne_pending _⟩
  unfold TunnelPipe.pump
  split
  · next empty =>
    refine ⟨?_, Or.inr ⟨rfl, empty, s.incoming, rfl, chunks⟩, ended_of_full full, ?_⟩
    · simpa [putNowait, eof] using bytes
    · intro read member
      obtain ⟨positive, none, awake⟩ := woken read member
      exact ⟨positive, none, fun waits => absurd waits awake⟩
  · next message inbox rest =>
    rw [rest, sentBytes_cons] at bytes
    split
    · next empty =>
      rw [empty, List.nil_append] at bytes
      exact ⟨bytes, Or.inl ⟨running, chunks⟩, ended_of_full full, inv.waiting⟩
    · next some =>
      refine ⟨?_, Or.inl ⟨running, ?_⟩, ended_of_full full, ?_⟩
      · simpa [putNowait] using bytes
      · intro chunk member
        rcases List.mem_append.mp member with old | new
        · exact chunks chunk old
        · rw [List.mem_singleton.mp new]
          exact some
      · intro read member
        obtain ⟨positive, none, awake⟩ := woken read member
        exact ⟨positive, none, fun waits => absurd waits awake⟩

theorem Inv.read (inv : Inv messages s) (positive : 1 ≤ maxBytes) :
    Inv messages (s.read maxBytes) := by
  unfold TunnelPipe.read
  split
  · next none => exact inv.takeNext none positive
  · next some =>
    exact inv_deliver inv.bytes inv.ending (inv.full_of_data (Or.inl some)) some positive

theorem Inv.step (inv : Inv messages s) (asks : AsksBytes e) (ran : s.step e = some s') :
    Inv messages s' := by
  cases e with
  | pump =>
    obtain ⟨running, same⟩ := Option.ite_none_right_eq_some.mp ran
    exact Option.some.inj same ▸ inv.pump running
  | read maxBytes =>
    obtain ⟨-, same⟩ := Option.ite_none_right_eq_some.mp ran
    exact Option.some.inj same ▸ inv.read asks
  | interrupt cause =>
    obtain ⟨read, waits, rfl⟩ := Option.map_eq_some_iff.mp ran
    obtain ⟨positive, none, -⟩ := inv.waiting read waits
    refine ⟨inv.bytes, inv.ending, inv.ended, ?_⟩
    rintro read' ⟨⟩
    exact ⟨positive, none, fun pending => absurd pending WaitFor.interrupt_ne_pending⟩
  | resume =>
    obtain ⟨read, waits, resumed⟩ := Option.bind_eq_some_iff.mp ran
    obtain ⟨outcome, -, same⟩ := Option.map_eq_some_iff.mp resumed
    obtain ⟨positive, none, -⟩ := inv.waiting read waits
    cases outcome with
    | ok => exact same ▸ inv.takeNext none positive
    | error cause =>
      rw [← same]
      exact ⟨inv.bytes, inv.ending, inv.ended, by simp⟩

theorem inv_of_reachable (reached : (tunnelPipe messages).ReachableBy (fun _ e => AsksBytes e) s) :
    Inv messages s := by
  apply reached.invariant
  · rintro s rfl
    exact ⟨by simp, Or.inl ⟨rfl, by simp [Full]⟩, ended_of_full (by simp [Full]), by simp⟩
  · intro s e s' inv asks ran
    exact inv.step asks ran

/-- Values that are all the end have no bytes. -/
theorem flatten_ends {ends : List (List UInt8)} (same : ∀ result ∈ ends, result = eof) :
    ends.flatten = [] :=
  List.flatten_eq_nil_iff.mpr same

/-- A read that returned the end: what was returned before it, and where the connection is. -/
theorem Inv.ends (inv : Inv messages s) {before after : List (List UInt8)}
    (split : s.results = before ++ eof :: after) :
    before.flatten = sentBytes messages ∧ (∀ result ∈ after, result = eof) ∧
      s.pending = [] ∧ s.incoming = [eof] := by
  obtain ⟨data, ends, parts, full, same, ended⟩ := inv.ended
  have bytes := inv.bytes
  obtain ⟨more, rfl, rest⟩ : ∃ more, before = data ++ more ∧ ends = more ++ eof :: after := by
    rcases List.append_eq_append_iff.mp (parts.symm.trans split) with late | ⟨more, inside, rest⟩
    · exact late
    · cases more with
      | nil => exact ⟨[], by simpa using inside.symm, rest.symm⟩
      | cons first more =>
        obtain ⟨rfl, -⟩ := List.cons.inj rest
        exact absurd rfl (full eof (inside ▸ List.mem_append_right _ List.mem_cons_self))
  have some : ends ≠ [] := by
    rw [rest]
    simp
  obtain ⟨pending, incoming, -, inbox⟩ := ended some
  have early : more.flatten = [] := by
    apply flatten_ends
    intro result member
    exact same result (rest ▸ List.mem_append_left _ member)
  rw [pending, incoming, inbox, parts, List.flatten_append, flatten_ends same] at bytes
  refine ⟨?_, ?_, pending, incoming⟩
  · rw [List.flatten_append, early, bytes]
    simp [eof, sentBytes]
  · intro result member
    exact same result (rest ▸ List.mem_append_right _ (List.mem_cons_of_mem _ member))

end TunnelPipe

open TunnelPipe

/-- **A faithful byte stream**: in every state that any interleaving reaches, what the reads
returned is followed by what is held and what is still to come, and together these are the bytes of
the messages; the end is returned after all bytes, and at once by every read after that; and a read
is not left waiting while something is queued. -/
theorem tunnel_stream_faithful {messages : List WsMessage} {s : TunnelPipe}
    (reached : (tunnelPipe messages).ReachableBy (fun _ e => AsksBytes e) s) :
    (s.results.filter (· ≠ eof)).flatten <+: sentBytes messages ∧
    sentBytes messages = (s.results.filter (· ≠ eof)).flatten ++ (s.pending ++
      (s.incoming.flatten ++ sentBytes s.inbox)) ∧
    (∀ before after, s.results = before ++ eof :: after →
      before.flatten = sentBytes messages ∧ ∀ result ∈ after, result = eof) ∧
    (eof ∈ s.results → ∀ maxBytes s', s.step (.read maxBytes) = some s' →
      s'.results = s.results ++ [eof]) ∧
    (∀ read ∈ s.reader, read.2 = .pending → s.incoming = []) := by
  have inv := inv_of_reachable reached
  have nonempty : (s.results.filter (· ≠ eof)).flatten = s.results.flatten :=
    List.flatten_filter_ne_nil
  have bytes := inv.bytes
  rw [nonempty]
  refine ⟨⟨_, bytes.symm⟩, bytes, ?_, ?_, fun read waits => (inv.waiting read waits).2.2⟩
  · intro before after split
    obtain ⟨whole, same, -⟩ := inv.ends split
    exact ⟨whole, same⟩
  · intro returned maxBytes s' ran
    obtain ⟨before, after, split⟩ := List.append_of_mem returned
    obtain ⟨-, -, pending, incoming⟩ := inv.ends split
    obtain ⟨-, same⟩ := Option.ite_none_right_eq_some.mp ran
    rw [← Option.some.inj same, TunnelPipe.read, if_pos pending, takeNext, incoming]
    rfl

/-- A text and a binary message, with a read that times out before the first. -/
def greeting : List WsMessage := [⟨none, some "hi"⟩, ⟨some [33], none⟩]

/-- Two bytes are read one at a time, then one, then the end. -/
def greeted : TunnelPipe :=
  ⟨[], false, true, [[]], [], none, [[104], [105], [33], []]⟩

theorem tunnel_stream_faithful_greeted :
    (greeted.results.filter (· ≠ eof)).flatten <+: sentBytes greeting ∧
    [[104], [105], [33]].flatten = sentBytes greeting := by
  have steps : (tunnelPipe greeting).run ⟨greeting, true, false, [], [], none, []⟩
      [.read 4, .interrupt .timeout, .resume, .pump, .read 1, .read 1, .pump, .read 9, .read 9,
        .pump, .resume] = some greeted := by
    decide +kernel
  have asks : ∀ e ∈ [PipeEvent.read 4, .interrupt .timeout, .resume, .pump, .read 1, .read 1,
      .pump, .read 9, .read 9, .pump, .resume], ∀ s : TunnelPipe, AsksBytes e := by
    simp [AsksBytes]
  have reached : (tunnelPipe greeting).ReachableBy (fun _ e => AsksBytes e) greeted :=
    .run (.init rfl) asks steps
  obtain ⟨front, -, ends, -⟩ := tunnel_stream_faithful reached
  exact ⟨front, (ends [[104], [105], [33]] [] rfl).1⟩

end Oumigo
