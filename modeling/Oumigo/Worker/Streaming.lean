import Oumigo.Worker.InFlight

/-!
# The frames of a stream

`Framed` says which frames a stream has yielded, and so which its consumer has taken: in the order
of the pieces, each once, the reason and `[DONE]` only after the last of them.
-/

namespace Oumigo

open Python

namespace HFStream

variable (server : HFServer) (s : HFStream)

/-- The chunks up to the last piece. -/
def textValues : List PyVal := s.roleValues ++ s.pieces.map s.pieceValue

/-- The chunks of a stream that has come to its end. -/
def values : List PyVal := s.textValues ++ s.finishValue :: s.usageValues server

/-- The frames of a stream that has come to its end. -/
def frames : List String := (s.values server).map server.sse ++ [doneFrame]

/-- The frames that have been yielded or are about to be. -/
def soFar : List String :=
  match s.pc with
  | .created => []
  | .closing => s.frames server
  | _ => s.textValues.map server.sse

/-- Each frame was taken or will be. -/
structure Framed : Prop where
  shown : s.sent ++ s.outbox = s.soFar server
  fresh : s.pc = .created → s.pieces = []

variable {server} {s}

theorem frames_eq : s.textValues.map server.sse ++ s.lastFrames server = s.frames server := by
  unfold frames values lastFrames
  rw [List.map_append, List.append_assoc]

theorem soFar_prefix : s.soFar server <+: s.frames server := by
  unfold soFar
  split
  · exact List.nil_prefix
  · exact List.prefix_refl _
  · exact ⟨_, frames_eq⟩

/-- What the consumer has taken is a front of the whole. -/
theorem Framed.sent_prefix (framed : s.Framed server) : s.sent <+: s.frames server :=
  List.IsPrefix.trans ⟨_, framed.shown⟩ soFar_prefix

/-- Before the last piece it is a front of the text alone. -/
theorem Framed.sent_early (framed : s.Framed server) (early : s.pc ≠ .closing) :
    s.sent <+: s.textValues.map server.sse := by
  have front : s.sent <+: s.soFar server := ⟨_, framed.shown⟩
  unfold soFar at front
  split at front
  · exact front.trans List.nil_prefix
  · next closing => exact absurd closing early
  · exact front

theorem Framed.sent_of_taken (framed : s.Framed server) (taken : s.outbox = []) :
    s.sent = s.soFar server := by
  rw [← framed.shown, taken, List.append_nil]

end HFStream

namespace HFState

variable {server : HFServer} {s s' : HFState} {e : HFEvent}

/-- The frames of a request. -/
def FramedRequest (server : HFServer) : HFRequest → Prop
  | .stream stream => stream.Framed server
  | .streamed _ stream => stream.pc = .closing ∧ stream.sent = stream.frames server
  | .aborted (some stream) => stream.Framed server
  | _ => True

/-- The frames of all requests. -/
def AllFramed (server : HFServer) (s : HFState) : Prop := ∀ r ∈ s.requests, FramedRequest server r

theorem AllFramed.become (inv : s.AllFramed server) {i : Nat} {r : HFRequest} {stats : VllmStats}
    (framed : FramedRequest server r) : (s.become i r stats).AllFramed server := by
  intro r' member
  rcases List.mem_or_eq_of_mem_set member with old | rfl
  · exact inv r' old
  · exact framed

theorem AllFramed.arrive (inv : s.AllFramed server) {r : HFRequest} {stats : VllmStats}
    (framed : FramedRequest server r) : AllFramed server ⟨stats, s.requests ++ [r]⟩ := by
  intro r' member
  rcases List.mem_append.mp member with old | new
  · exact inv r' old
  · exact List.mem_singleton.mp new ▸ framed

theorem AllFramed.stream (inv : s.AllFramed server) {i : Nat} {stream : HFStream}
    (here : s.streamAt i = some stream) : stream.Framed server :=
  inv _ (List.mem_of_getElem? (streamAt_eq here))

theorem AllFramed.goesOn (inv : s.AllFramed server) {i : Nat} {pc : StreamPc}
    {next : HFStream → HFStream} (framed : ∀ stream : HFStream, stream.Framed server →
      stream.pc = pc → stream.outbox = [] → (next stream).Framed server)
    (run : s.goesOn i pc next = some s') : s'.AllFramed server := by
  obtain ⟨stream, here, ran⟩ := Option.bind_eq_some_iff.mp run
  obtain ⟨⟨at_, taken⟩, same⟩ := Option.ite_none_right_eq_some.mp ran
  rw [← Option.some.inj same]
  exact inv.become (framed stream (inv.stream here) at_ taken)

theorem AllFramed.step (inv : s.AllFramed server) (run : s.step server e = some s') :
    s'.AllFramed server := by
  cases e with
  | request body chat =>
    rcases step_request run with rfl | ⟨model, rfl⟩ | ⟨model, usage, rfl⟩
    · exact inv
    · exact inv.arrive trivial
    · exact inv.arrive ⟨rfl, fun _ => rfl⟩
  | generated i text id created served =>
    obtain ⟨chat, model, payload, -, rfl⟩ := step_generated run
    exact inv.become trivial
  | begins i id created inputLen =>
    obtain ⟨stream, here, ran⟩ := Option.bind_eq_some_iff.mp run
    obtain ⟨fresh, same⟩ := Option.ite_none_right_eq_some.mp ran
    obtain ⟨shown, empty⟩ := inv.stream here
    rw [HFStream.soFar, fresh] at shown
    obtain ⟨sent, -⟩ := List.append_eq_nil_iff.mp shown
    rw [← Option.some.inj same]
    apply inv.become
    refine ⟨?_, fun begun => (nomatch begun)⟩
    simp [HFStream.soFar, HFStream.textValues, HFStream.roleValues, sent, empty fresh]
  | piece i text =>
    refine inv.goesOn (fun stream framed here taken => ?_) run
    have sent := framed.sent_of_taken taken
    refine ⟨?_, fun fresh => ?_⟩
    · change stream.sent ++ [server.sse (stream.pieceValue text)] = HFStream.soFar server _
      rw [sent]
      simp only [HFStream.soFar, here]
      simp [HFStream.textValues, HFStream.roleValues, HFStream.pieceValue]
    · exact nomatch here.symm.trans fresh
  | exhausted i =>
    refine inv.goesOn (fun stream framed here taken => ?_) run
    refine ⟨framed.shown.trans ?_, fun fresh => nomatch fresh⟩
    simp only [HFStream.soFar, here]
    rfl
  | joined i =>
    refine inv.goesOn (fun stream framed here taken => ?_) run
    have sent := framed.sent_of_taken taken
    refine ⟨?_, fun fresh => nomatch fresh⟩
    simp only [HFStream.soFar, here] at sent
    change stream.sent ++ stream.lastFrames server = stream.frames server
    rw [sent, HFStream.frames_eq]
  | taken i =>
    obtain ⟨stream, here, ran⟩ := Option.bind_eq_some_iff.mp run
    obtain ⟨shown, empty⟩ := inv.stream here
    split at ran
    · cases ran
    · next frame rest outbox =>
      rw [← Option.some.inj ran]
      apply inv.become
      refine ⟨?_, empty⟩
      rw [outbox] at shown
      exact (List.append_assoc _ _ _).trans shown
  | finishes i latency =>
    obtain ⟨stream, here, ran⟩ := Option.bind_eq_some_iff.mp run
    obtain ⟨⟨closing, taken⟩, same⟩ := Option.ite_none_right_eq_some.mp ran
    obtain ⟨shown, -⟩ := inv.stream here
    rw [taken, List.append_nil, HFStream.soFar, closing] at shown
    exact Option.some.inj same ▸ inv.become ⟨closing, shown⟩
  | aborts i =>
    obtain ⟨r, found, ran⟩ := Option.bind_eq_some_iff.mp run
    obtain ⟨after, released, rfl⟩ := Option.map_eq_some_iff.mp ran
    cases r with
    | whole chat model =>
      cases released
      exact inv.become trivial
    | stream stream =>
      cases released
      have framed : stream.Framed server := inv _ (List.mem_of_getElem? found)
      exact inv.become framed
    | answered | streamed | aborted => cases released

theorem allFramed_of_reachable (reached : (hfSystem server).Reachable s) : s.AllFramed server := by
  apply reached.invariant
  · rintro s rfl r member
    cases member
  · exact fun s e s' inv _ run => inv.step run

end HFState

end Oumigo
