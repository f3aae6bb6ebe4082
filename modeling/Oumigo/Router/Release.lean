import Oumigo.Router.Forward

/-!
# When a proxied request gives its slot back

A request calls `pool.release` at most once, and not before it is over.  Every exit
through the handler's `except` clauses releases; a streaming response hands that
duty to `_relay`, which meets it when its body is iterated and the upstream
response closes without an exception (`RelayCompletes`).  In the two other cases
the request ends with its slot still taken.
-/

namespace Oumigo

namespace ForwardState

variable {world : ForwardWorld} {s s' : ForwardState} {e : ForwardEvent}

/-- A streaming body is not dropped before its first iteration, and `_relay`'s
`aclose` does not raise. -/
def RelayCompletes (s : ForwardState) (e : ForwardEvent) : Prop :=
  ¬ (s.phase = .unstarted ∧ e = .closeBody) ∧
  ∀ pending exn, s.phase = .relayClosing pending → e ≠ .closed (.error exn)

/-- Nothing is released while the request runs. -/
def Holding (s : ForwardState) : Prop := s.released = false ∧ s.releases = []

/-- The slot was released, once. -/
def Released (s : ForwardState) : Prop := s.releases = [s.record.nodeId]

theorem Holding.released_release (holding : s.Holding) : s.release.Released := by
  unfold release
  rw [if_neg (by simp [holding.1])]
  unfold Released
  simp [holding.2]

theorem Holding.released_over (holding : s.Holding) (result : ForwardResult) :
    ({ s.release with phase := .over result } : ForwardState).Released :=
  holding.released_release

theorem Holding.fail (holding : s.Holding) (exn : ForwardExn) :
    (s.fail exn).Released ∧ (s.fail exn).isOver :=
  ⟨holding.released_release, _, rfl⟩

/-- Either the request runs and holds its slot, or it is over and has released it. -/
def Balanced (s : ForwardState) : Prop :=
  (¬ s.isOver ∧ s.Holding) ∨ (s.isOver ∧ s.Released)

theorem Holding.balanced_running (holding : s.Holding) {phase : ForwardPhase}
    (running : ∀ result, phase ≠ .over result) :
    ({ s with phase := phase } : ForwardState).Balanced :=
  Or.inl ⟨fun ⟨result, same⟩ => running result same, holding⟩

theorem Holding.balanced_fail (holding : s.Holding) (exn : ForwardExn) : (s.fail exn).Balanced :=
  Or.inr (holding.fail exn).symm

theorem balanced_start (record : NodeRecord) : (start world record).Balanced := by
  have fresh : Holding ⟨record, .over (.streamed none), false, []⟩ := ⟨rfl, rfl⟩
  unfold start
  dsimp only
  split
  · exact fresh.balanced_running (by simp)
  · exact fresh.balanced_fail _

theorem Holding.balanced_sent (holding : s.Holding) (out : Outgoing) (attempt : Nat)
    (result : Except ForwardExn Upstream) : (s.sent world out attempt result).Balanced := by
  unfold sent
  split
  · split
    · exact holding.balanced_running (by simp)
    · exact holding.balanced_fail _
  · split
    · split
      · exact holding.balanced_running (by simp)
      · exact holding.balanced_fail _
    · exact holding.balanced_running (by simp)

theorem Holding.balanced_finish (holding : s.Holding) (out : Outgoing) (up : Upstream)
    (content : Except ForwardExn Bytes) : (s.finish world out up content).Balanced := by
  unfold finish
  split
  · exact holding.balanced_fail _
  · split
    · exact Or.inr ⟨⟨_, rfl⟩, holding.released_over _⟩
    · exact holding.balanced_fail _

/-- A request that is over takes no step. -/
theorem running_of_step (run : s.step world e = some s') : ¬ s.isOver := by
  rintro ⟨result, ended⟩
  unfold step at run
  rw [ended] at run
  cases e <;> cases run

theorem Holding.balanced_step (holding : s.Holding) (guard : s.RelayCompletes e)
    (run : s.step world e = some s') : s'.Balanced := by
  unfold step at run
  split at run <;> cases run
  · exact holding.balanced_sent ..
  · exact holding.balanced_running (by simp)
  · exact holding.balanced_finish ..
  · exact holding.balanced_fail _
  · exact holding.balanced_running (by simp)
  · next dropped => exact (guard.1 ⟨dropped, rfl⟩).elim
  · exact holding.balanced_running (by simp)
  · exact holding.balanced_running (by simp)
  · exact holding.balanced_running (by simp)
  · exact holding.balanced_running (by simp)
  · exact holding.balanced_running (by simp)
  · exact Or.inr ⟨⟨_, rfl⟩, holding.released_over _⟩
  · next pending exn closing => exact (guard.2 pending exn closing rfl).elim

/-- The two steps that `RelayCompletes` excludes end the request with its slot taken. -/
theorem Holding.lost_step (holding : s.Holding) (broken : ¬ s.RelayCompletes e)
    (run : s.step world e = some s') : s'.isOver ∧ s'.releases = [] := by
  unfold step at run
  rcases not_and_or.mp broken with dropped | raised
  · obtain ⟨unstarted, rfl⟩ := not_not.mp dropped
    rw [unstarted] at run
    cases run
    exact ⟨⟨_, rfl⟩, holding.2⟩
  · push Not at raised
    obtain ⟨pending, exn, closing, rfl⟩ := raised
    rw [closing] at run
    cases run
    exact ⟨⟨_, rfl⟩, holding.2⟩

/-- In a run whose steps all meet the condition a request is balanced throughout. -/
theorem balanced_of_reachable (reached : (forwardSystem world).ReachableBy RelayCompletes s) :
    s.Balanced := by
  induction reached with
  | init start =>
    obtain ⟨record, rfl⟩ := start
    exact balanced_start record
  | step _ guard run ih =>
    rcases ih with ⟨-, holding⟩ | ⟨ended, -⟩
    · exact holding.balanced_step guard run
    · exact (running_of_step run ended).elim

/-- In any run the slot is held until the request is over, and released at most once. -/
theorem holding_or_over (reached : (forwardSystem world).Reachable s) :
    s.Balanced ∨ (s.isOver ∧ s.releases = []) := by
  induction reached with
  | init start =>
    obtain ⟨record, rfl⟩ := start
    exact Or.inl (balanced_start record)
  | @step s s' e _ _ run ih =>
    have running := running_of_step run
    rcases ih with (⟨-, holding⟩ | ⟨ended, -⟩) | ⟨ended, -⟩
    · by_cases guard : s.RelayCompletes e
      · exact Or.inl (holding.balanced_step guard run)
      · exact Or.inr (holding.lost_step guard run)
    · exact (running ended).elim
    · exact (running ended).elim

theorem holding_of_running (reached : (forwardSystem world).Reachable s) (running : ¬ s.isOver) :
    s.Holding := by
  rcases holding_or_over reached with (⟨-, holding⟩ | ⟨ended, -⟩) | ⟨ended, -⟩
  · exact holding
  · exact (running ended).elim
  · exact (running ended).elim

end ForwardState

open ForwardState in
/-- **A request whose relay completes releases its slot exactly once.**  Whatever the
steps, nothing is released while the request runs; once it is over, a run whose
steps all meet `RelayCompletes` has released the slot once, and a step that does not
meet it ends the request with the slot still taken. -/
theorem forward_releases_once {world : ForwardWorld} {s : ForwardState}
    (reached : (forwardSystem world).Reachable s) :
    (¬ s.isOver → s.releases = []) ∧
    ((forwardSystem world).ReachableBy RelayCompletes s → s.isOver →
      s.releases = [s.record.nodeId]) ∧
    ∀ e s', s.step world e = some s' → ¬ s.RelayCompletes e → s'.isOver ∧ s'.releases = [] := by
  refine ⟨fun running => (holding_of_running reached running).2, fun complete ended => ?_,
    fun e s' run broken => (holding_of_running reached (running_of_step run)).lost_step broken run⟩
  rcases balanced_of_reachable complete with ⟨running, -⟩ | ⟨-, released⟩
  · exact (running ended).elim
  · exact released

/-! ## A streaming request to one direct worker -/

/-- A worker at a known address, with nothing reported but its port. -/
def plainWorker : NodeRecord where
  nodeId := "n"
  address := "10.0.0.1"
  state := .serving
  incarnation := 0
  capabilities := ⟨none, none⟩
  registeredAt := 0
  lastSeen := 0
  port := some 7001

/-- A chat request with `"stream": true`. -/
def streamingChat : ForwardWorld where
  config := ⟨some 7001, false, none⟩
  request := ⟨"POST", "/v1/chat/completions", []⟩
  shape := fun _ => .ok ⟨true, [123, 125], []⟩
  construct := fun _ => none

open ForwardState in
/-- The stream is relayed to its end, and the slot is released once. -/
theorem forward_releases_once_full_stream :
    ∃ s, (forwardSystem streamingChat).run (.start streamingChat plainWorker)
        [.sent (.ok ⟨200, []⟩), .next, .chunk (.ok none), .closed (.ok ())] = some s ∧
      s.releases = ["n"] := by
  have run : (forwardSystem streamingChat).ReachableBy RelayCompletes _ :=
    .step (e := .closed (.ok ())) (.step (e := .chunk (.ok none)) (.step (e := .next)
      (.step (e := .sent (.ok ⟨200, []⟩)) (.init ⟨plainWorker, rfl⟩)
        ⟨fun dropped => (nomatch dropped.2), fun _ _ _ same => nomatch same⟩ rfl)
      ⟨fun dropped => (nomatch dropped.2), fun _ _ _ same => nomatch same⟩ rfl)
      ⟨fun dropped => (nomatch dropped.2), fun _ _ _ same => nomatch same⟩ rfl)
      ⟨fun dropped => (nomatch dropped.2), fun _ _ _ same => nomatch same⟩ rfl
  exact ⟨_, rfl, (forward_releases_once run.reachable).2.1 run ⟨_, rfl⟩⟩

/-- The client goes away before the body is first iterated; or the stream is relayed
to its end and `aclose` raises.  Either way the request is over and nothing was
released. -/
theorem forward_keeps_slot :
    (∃ s, (forwardSystem streamingChat).run (.start streamingChat plainWorker)
        [.sent (.ok ⟨200, []⟩), .closeBody] = some s ∧ s.isOver ∧ s.releases = []) ∧
    ∃ s, (forwardSystem streamingChat).run (.start streamingChat plainWorker)
        [.sent (.ok ⟨200, []⟩), .next, .chunk (.ok none), .closed (.error .cancelled)] = some s ∧
      s.isOver ∧ s.releases = [] :=
  ⟨⟨_, rfl, ⟨_, rfl⟩, rfl⟩, ⟨_, rfl, ⟨_, rfl⟩, rfl⟩⟩

end Oumigo
