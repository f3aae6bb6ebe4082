import Oumigo.Worker.Lifecycle

/-!
# The states a worker reports

`Phase.Follows` is the transition map of `docs/worker-node-states.md`, with what each
transition needs.  Every step of a worker process moves along it, and so does every
heartbeat after the one before.  `Budget` counts the starts and the ends of the backend
against the restarts.
-/

namespace Oumigo

namespace Phase

/-- INITIALIZING or SERVING: a backend loads or serves, or is about to be restarted. -/
def Live (p : Phase) : Prop := p.nodeState = .initializing ∨ p.nodeState = .serving

/-- The phase right after the first launch. -/
def launched : Phase := ⟨.initializing, 0, false⟩

/-- What may come after a phase. -/
inductive Follows : Phase → Phase → Prop
  | stay {p q : Phase} : p.Live ∨ p.nodeState = .draining → q.nodeState = p.nodeState →
    q.restarts = p.restarts → Follows p q
  | launch {p q : Phase} : p.nodeState = .registering → q.nodeState = .initializing →
    q.restarts = p.restarts → Follows p q
  | healthy {p q : Phase} : p.nodeState = .initializing → q.nodeState = .serving →
    q.restarts = p.restarts → Follows p q
  | restart {p q : Phase} : p.Live → q.nodeState = .initializing →
    q.restarts = p.restarts + 1 → Follows p q
  | giveUp {p q : Phase} : p.Live → q.nodeState = .failed → Follows p q
  | drain {p q : Phase} : p.Live → q.nodeState = .draining → q.stop = true →
    q.restarts = p.restarts → Follows p q
  | stopped {p q : Phase} : p.Live ∨ p.nodeState = .draining → q.nodeState = .stopped →
    q.stop = true → q.restarts = p.restarts → Follows p q

variable {p q : Phase}

theorem Follows.stopping (follows : Follows p q) : Follows p { q with stop := true } := by
  cases follows with
  | stay live state restarts => exact .stay live state restarts
  | launch state state' restarts => exact .launch state state' restarts
  | healthy state state' restarts => exact .healthy state state' restarts
  | restart live state restarts => exact .restart live state restarts
  | giveUp live state => exact .giveUp live state
  | drain live state _ restarts => exact .drain live state rfl restarts
  | stopped live state _ restarts => exact .stopped live state rfl restarts

/-- FAILED and STOPPED are final. -/
theorem Follows.not_final (follows : Follows p q) :
    p.nodeState ≠ .failed ∧ p.nodeState ≠ .stopped := by
  have live (from_live : p.Live) : p.nodeState ≠ .failed ∧ p.nodeState ≠ .stopped := by
    rcases from_live with state | state <;> simp [state]
  have active (from_active : p.Live ∨ p.nodeState = .draining) :
      p.nodeState ≠ .failed ∧ p.nodeState ≠ .stopped := by
    rcases from_active with from_live | state
    · exact live from_live
    · simp [state]
  cases follows with
  | stay from_active => exact active from_active
  | launch state => simp [state]
  | healthy state => exact live (Or.inl state)
  | restart from_live => exact live from_live
  | giveUp from_live => exact live from_live
  | drain from_live => exact live from_live
  | stopped from_active => exact active from_active

end Phase

namespace WorkerState

variable {c : WorkerSettings} {s s' : WorkerState}

/-- The phases reported so far, newest first, down to the launch. -/
def trail (s : WorkerState) : List Phase := s.reports.map (·.phase) ++ [.launched]

/-- The phase of the newest report. -/
def last (s : WorkerState) : Phase := s.trail.headD .launched

theorem trail_eq (s : WorkerState) : ∃ rest, s.trail = s.last :: rest := by
  unfold last trail
  cases s.reports with
  | nil => exact ⟨[], rfl⟩
  | cons report reports => exact ⟨_, rfl⟩

/-- What every heartbeat says of the run state. -/
def Sound (r : WorkerReport) : Prop :=
  r.request.nodeState = r.phase.nodeState ∧
  (r.request.runState ≠ none → r.request.nodeState = .serving ∨ r.request.nodeState = .draining) ∧
  (r.request.nodeState = .draining → r.request.runState = some .executing)

/-- What holds where the main thread stands, against the newest report. -/
def AtPc (s : WorkerState) : WorkerPc → Prop
  | .registering => s.nodeState = .registering ∧ s.restarts = 0 ∧ s.reports = []
  | .waiting | .reregistering | .rejoining =>
      s.phase.Live ∧ s.last.nodeState = s.nodeState ∧ s.last.restarts = s.restarts
  | .backoff => s.nodeState = .initializing ∧ s.last.Live ∧ s.restarts = s.last.restarts + 1
  | .reporting => s.last.Follows s.phase ∧ (s.phase.Live ∨ s.nodeState = .failed)
  | .stopping => s.phase.Live ∧ s.stop ∧ s.last.nodeState = s.nodeState ∧
      s.last.restarts = s.restarts
  | .draining => s.nodeState = .draining ∧ s.stop ∧ s.last.Follows s.phase ∧
      (s.last.Live ∨ s.last.nodeState = .draining) ∧ s.last.restarts = s.restarts
  | .lastReport => s.nodeState = .stopped ∧ s.stop ∧ s.runState = none ∧ s.last.Follows s.phase
  | .exited => True

/-- What holds between steps. -/
structure Inv (s : WorkerState) : Prop where
  chain : s.trail.IsChain fun later earlier => earlier.Follows later
  sound : ∀ r ∈ s.reports, Sound r
  run : s.runState ≠ none → s.nodeState = .serving ∨ s.nodeState = .draining
  at_pc : s.AtPc s.pc

theorem inv_initial {apiKey : Option String} : Inv (.initial c apiKey) where
  chain := List.IsChain.singleton _
  sound := fun _ member => nomatch member
  run := fun some => absurd rfl some
  at_pc := ⟨rfl, rfl, rfl⟩

/-- A heartbeat is sent whose phase may follow the newest one. -/
theorem sendHeartbeat_inv (rtt : Option Rat) (reply : Reply HeartbeatAck)
    (chain : s.trail.IsChain fun later earlier => earlier.Follows later)
    (sound : ∀ r ∈ s.reports, Sound r) (follows : s.last.Follows s.phase)
    (run : s.runState ≠ none → s.nodeState = .serving ∨ s.nodeState = .draining)
    (executing : s.nodeState = .draining → s.runState = some .executing) :
    let sent := (s.sendHeartbeat c rtt reply).1
    sent.trail.IsChain (fun later earlier => earlier.Follows later) ∧
    (∀ r ∈ sent.reports, Sound r) ∧ sent.last = s.phase ∧ (s.stop → sent.stop) ∧
    sent.nodeState = s.nodeState ∧ sent.runState = s.runState ∧ sent.restarts = s.restarts ∧
    sent.pc = s.pc := by
  obtain ⟨rest, trail⟩ := s.trail_eq
  have reports : (s.sendHeartbeat c rtt reply).1.reports =
      ⟨s.request c rtt, s.phase⟩ :: s.reports := by
    unfold sendHeartbeat
    cases reply with
    | status code => dsimp only; split <;> rfl
    | _ => rfl
  have longer : (s.sendHeartbeat c rtt reply).1.trail = s.phase :: s.trail := by
    unfold WorkerState.trail
    rw [reports]
    rfl
  refine ⟨?_, ?_, ?_, ?_⟩
  · rw [longer, trail]
    rw [trail] at chain
    exact List.isChain_cons_cons.mpr ⟨follows, chain⟩
  · intro r member
    rw [reports] at member
    rcases List.mem_cons.mp member with rfl | member
    · exact ⟨rfl, run, executing⟩
    · exact sound r member
  · unfold last
    rw [longer]
    rfl
  · unfold sendHeartbeat
    cases reply with
    | status code => dsimp only; split <;> simp
    | _ => simp

/-! ## One lemma for each step -/

/-- The restarts, and the starts and ends of backends they account for. -/
def counts (s : WorkerState) : Nat × Nat × Nat × Bool × Bool :=
  (s.restarts, s.starts, s.exits, s.running, s.noPort)

/-- A step that neither reports nor moves. -/
structure Frame (s s' : WorkerState) : Prop where
  pc : s'.pc = s.pc
  nodeState : s'.nodeState = s.nodeState
  runState : s'.runState = s.runState
  restarts : s'.restarts = s.restarts
  stop : s'.stop = s.stop
  reports : s'.reports = s.reports

theorem Frame.phase (frame : Frame s s') : s'.phase = s.phase := by
  unfold WorkerState.phase
  rw [frame.nodeState, frame.restarts, frame.stop]

theorem Frame.trans {s'' : WorkerState} (frame : Frame s s') (frame' : Frame s' s'') :
    Frame s s'' where
  pc := frame'.pc.trans frame.pc
  nodeState := frame'.nodeState.trans frame.nodeState
  runState := frame'.runState.trans frame.runState
  restarts := frame'.restarts.trans frame.restarts
  stop := frame'.stop.trans frame.stop
  reports := frame'.reports.trans frame.reports

theorem Frame.trail (frame : Frame s s') : s'.trail = s.trail := by
  unfold WorkerState.trail
  rw [frame.reports]

theorem Frame.last (frame : Frame s s') : s'.last = s.last := by
  unfold WorkerState.last
  rw [frame.trail]

theorem Inv.frame (inv : Inv s) (frame : Frame s s') : Inv s' where
  chain := frame.trail ▸ inv.chain
  sound := frame.reports ▸ inv.sound
  run := by
    rw [frame.runState, frame.nodeState]
    exact inv.run
  at_pc := by
    have at_pc := inv.at_pc
    unfold AtPc at at_pc ⊢
    rw [frame.pc, frame.phase, frame.nodeState, frame.last, frame.restarts, frame.stop,
      frame.runState, frame.reports]
    exact at_pc

theorem frame_childExit (s : WorkerState) : Frame s s.childExit := by
  unfold childExit
  split <;> exact ⟨rfl, rfl, rfl, rfl, rfl, rfl⟩

theorem frame_startMetrics (s : WorkerState) : Frame s (s.startMetrics c) := by
  unfold startMetrics
  split <;> exact ⟨rfl, rfl, rfl, rfl, rfl, rfl⟩

theorem frame_startTunnel {response : RegisterResponse}
    (started : s.startTunnel response = some s') : Frame s s' ∧ s'.counts = s.counts := by
  unfold startTunnel at started
  split at started
  · split at started
    · cases started
    · cases started
      exact ⟨⟨rfl, rfl, rfl, rfl, rfl, rfl⟩, rfl⟩
  · cases started

theorem frame_adoptToken (s : WorkerState) (token : Option String) :
    Frame s (s.adoptToken token) := by
  unfold adoptToken
  split <;> exact ⟨rfl, rfl, rfl, rfl, rfl, rfl⟩

theorem frame_adoptKey (s : WorkerState) (key : Option String) : Frame s (s.adoptKey key) := by
  unfold adoptKey
  split
  · have changed : Frame s { s with apiKey := key } := ⟨rfl, rfl, rfl, rfl, rfl, rfl⟩
    exact changed.trans (frame_childExit _)
  · exact ⟨rfl, rfl, rfl, rfl, rfl, rfl⟩

theorem Inv.move {pc : WorkerPc} (inv : Inv s) (here : s.AtPc pc) : Inv { s with pc := pc } := by
  refine ⟨inv.chain, inv.sound, inv.run, ?_⟩
  cases pc <;> exact here

theorem Inv.exit (inv : Inv s) : Inv { s with pc := .exited } := inv.move trivial

/-- What `start` leads to: the process is over, or it waits with a backend loading. -/
theorem start_cases (s : WorkerState) (reply : Reply RegisterResponse) :
    ∃ s', Frame s s' ∧ s'.counts = s.counts ∧ (s.start c reply = { s' with pc := .exited } ∨
      s.start c reply =
        { ({ s' with nodeState := .initializing }.launch s'.vllmPort).startMetrics c with
          pc := .waiting }) := by
  have same : Frame s s := ⟨rfl, rfl, rfl, rfl, rfl, rfl⟩
  cases reply with
  | ok response =>
    have token : Frame s { s with token := pyOr response.nodeToken s.token } :=
      ⟨rfl, rfl, rfl, rfl, rfl, rfl⟩
    unfold WorkerState.start
    dsimp only
    split
    · next tunnelled started =>
      cases transport : c.transport with
      | tunnel =>
        rw [transport] at started
        obtain ⟨frame, counts⟩ := frame_startTunnel started
        exact ⟨tunnelled, token.trans frame, counts, Or.inr rfl⟩
      | direct =>
        rw [transport] at started
        cases started
        exact ⟨_, token, rfl, Or.inr rfl⟩
    · exact ⟨_, token, rfl, Or.inl rfl⟩
  | status code => exact ⟨s, same, rfl, Or.inl rfl⟩
  | failed => exact ⟨s, same, rfl, Or.inl rfl⟩

theorem Inv.start (inv : Inv s) (pc : s.pc = .registering) (reply : Reply RegisterResponse) :
    Inv (s.start c reply) := by
  obtain ⟨s', frame, -, over_ | started⟩ := start_cases (c := c) s reply
  · rw [over_]
    exact (inv.frame frame).exit
  · have inv := inv.frame frame
    have here := inv.at_pc
    rw [frame.pc, pc] at here
    obtain ⟨state, restarts, reports⟩ := here
    have idle : s'.runState = none := by
      by_contra some
      rcases inv.run some with serving | draining
      · rw [state] at serving
        cases serving
      · rw [state] at draining
        cases draining
    have launched : Inv
        { { s' with nodeState := .initializing }.launch s'.vllmPort with pc := .waiting } := by
      refine ⟨inv.chain, inv.sound, fun some => absurd idle some, Or.inl rfl, ?_⟩
      have last : s'.last = .launched := by
        unfold WorkerState.last WorkerState.trail
        rw [reports]
        rfl
      change s'.last.nodeState = .initializing ∧ s'.last.restarts = s'.restarts
      rw [last, restarts]
      exact ⟨rfl, rfl⟩
    rw [started]
    have metrics := frame_startMetrics (c := c)
      ({ s' with nodeState := .initializing }.launch s'.vllmPort)
    exact launched.frame ⟨rfl, metrics.nodeState, metrics.runState, metrics.restarts,
      metrics.stop, metrics.reports⟩

/-- Where a round of the loop starts, the worker stays in the phase it reported. -/
theorem Inv.waiting (inv : Inv s) (pc : s.pc = .waiting) :
    s.phase.Live ∧ s.last.Live ∧ s.last.nodeState = s.nodeState ∧
      s.last.restarts = s.restarts := by
  have here := inv.at_pc
  rw [pc] at here
  obtain ⟨live, state, restarts⟩ := here
  refine ⟨live, ?_, state, restarts⟩
  unfold Phase.Live
  rw [state]
  exact live

theorem Inv.observe (inv : Inv s) (pc : s.pc = .waiting) (healthy : Bool) (observed : RunState) :
    Inv (s.observe healthy observed) := by
  obtain ⟨live, from_live, state, restarts⟩ := inv.waiting pc
  unfold WorkerState.observe
  split
  · next ready =>
    exact ⟨inv.chain, inv.sound, fun _ => Or.inl rfl,
      .healthy (state.trans ready.1) rfl restarts.symm, Or.inl (Or.inr rfl)⟩
  · refine ⟨inv.chain, inv.sound, fun some => ?_,
      .stay (Or.inl from_live) state.symm restarts.symm, Or.inl live⟩
    by_cases serving : s.nodeState = .serving
    · exact Or.inl serving
    · have kept : s.runState ≠ none := by simpa [serving] using some
      exact inv.run kept

theorem Inv.handleCrash (inv : Inv s) (pc : s.pc = .waiting) : Inv (s.handleCrash c) := by
  obtain ⟨live, from_live, state, restarts⟩ := inv.waiting pc
  unfold WorkerState.handleCrash
  dsimp only
  split
  · exact ⟨inv.chain, inv.sound, fun some => absurd rfl some, .giveUp from_live rfl, Or.inr rfl⟩
  · refine ⟨inv.chain, inv.sound, fun some => absurd rfl some, rfl, from_live, ?_⟩
    change s.restarts + 1 = s.last.restarts + 1
    rw [restarts]

theorem Inv.reconcile (inv : Inv s) (pc : s.pc = .waiting) (healthy : Bool)
    (observed : RunState) : Inv (s.reconcile c healthy observed) := by
  obtain ⟨live, from_live, state, restarts⟩ := inv.waiting pc
  unfold WorkerState.reconcile
  split
  · exact inv.move ⟨.stay (Or.inl from_live) state.symm restarts.symm, Or.inl live⟩
  · split
    · exact inv.observe pc healthy observed
    · exact inv.handleCrash pc

theorem Inv.restart (inv : Inv s) (pc : s.pc = .backoff) (taken : Nat → Bool) :
    Inv (s.restart taken) := by
  have here := inv.at_pc
  rw [pc] at here
  obtain ⟨state, from_live, restarts⟩ := here
  have follows : s.last.Follows s.phase := .restart from_live state restarts
  have idle : s.runState = none := by
    by_contra some
    rcases inv.run some with serving | draining
    · rw [state] at serving
      cases serving
    · rw [state] at draining
      cases draining
  unfold WorkerState.restart selectPort
  split
  · exact inv.move ⟨follows, Or.inl (Or.inl state)⟩
  · cases findFreePort taken s.vllmPort with
    | none =>
      exact ⟨inv.chain, inv.sound, fun some => absurd idle some, .giveUp from_live rfl, Or.inr rfl⟩
    | some port =>
      exact ⟨inv.chain, inv.sound, inv.run, follows, Or.inl (Or.inl state)⟩

theorem Inv.leave (inv : Inv s) (here : s.AtPc .waiting) (stop : s.stop) : Inv s.leave := by
  obtain ⟨live, state, restarts⟩ := here
  unfold WorkerState.leave
  split
  · exact ⟨inv.chain, inv.sound, inv.run, trivial⟩
  · exact inv.move ⟨live, stop, state, restarts⟩

theorem Inv.loopHeartbeat (inv : Inv s) (pc : s.pc = .reporting) (rtt : Option Rat)
    (reply : Reply HeartbeatAck) : Inv (s.loopHeartbeat c rtt reply) := by
  have here := inv.at_pc
  rw [pc] at here
  obtain ⟨follows, state⟩ := here
  have executing : s.nodeState = .draining → s.runState = some .executing := by
    intro draining
    rcases state with (initializing | serving) | failed
    · cases initializing.symm.trans draining
    · cases serving.symm.trans draining
    · cases failed.symm.trans draining
  obtain ⟨chain, sound, last, -, nodeState, runState, restarts, -⟩ :=
    sendHeartbeat_inv (c := c) rtt reply inv.chain inv.sound follows inv.run
      executing
  unfold WorkerState.loopHeartbeat
  generalize s.sendHeartbeat c rtt reply = sent at *
  obtain ⟨s', response⟩ := sent
  dsimp only at *
  have run : s'.runState ≠ none → s'.nodeState = .serving ∨ s'.nodeState = .draining := by
    rw [runState, nodeState]
    exact inv.run
  split
  · next failed =>
    unfold WorkerState.leave
    rw [if_pos failed]
    exact ⟨chain, sound, run, trivial⟩
  · next alive =>
    have live : s'.phase.Live := by
      rcases state with live | failed
      · change s'.nodeState = .initializing ∨ s'.nodeState = .serving
        rw [nodeState]
        exact live
      · exact absurd (nodeState.trans failed) alive
    have here : s'.AtPc .waiting := by
      refine ⟨live, ?_, ?_⟩
      · rw [last, nodeState]
        rfl
      · rw [last, restarts]
        rfl
    have waits : Inv { s' with pc := .waiting } := ⟨chain, sound, run, here⟩
    cases response with
    | none => exact waits
    | some ack =>
      dsimp only
      split
      · exact ⟨chain, sound, run, here⟩
      · split
        · exact Inv.leave (s := { s' with
            tunnel := s'.tunnel.map (TunnelClient.setPoolSize · ack.tunnelPoolSize)
            stop := true
            pc := .waiting }) ⟨chain, sound, run, here⟩ here rfl
        · exact ⟨chain, sound, run, here⟩

theorem Inv.reregistered (inv : Inv s) (here : s.AtPc .waiting) (response : RegisterResponse) :
    Inv (s.reregistered response) := by
  have frame := (frame_adoptToken s response.nodeToken).trans
    (frame_adoptKey _ response.vllmApiKey)
  have waits : Inv { s with pc := .waiting } := inv.move here
  exact waits.frame ⟨rfl, frame.nodeState, frame.runState, frame.restarts, frame.stop,
    frame.reports⟩

theorem Inv.reregister (inv : Inv s) (pc : s.pc = .reregistering)
    (reply : Reply RegisterResponse) : Inv (s.reregister c reply) := by
  have here := inv.at_pc
  rw [pc] at here
  unfold WorkerState.reregister
  cases reply with
  | ok response => exact inv.reregistered here response
  | status code =>
    dsimp only
    split
    · exact inv.move here
    · exact inv.move here
  | failed => exact inv.move here

theorem Inv.rejoin (inv : Inv s) (pc : s.pc = .rejoining) (reply : Reply RegisterResponse) :
    Inv (s.rejoin reply) := by
  have here := inv.at_pc
  rw [pc] at here
  unfold WorkerState.rejoin
  cases reply with
  | ok response => exact inv.reregistered here response
  | status code => exact inv.move here
  | failed => exact inv.move here

theorem Inv.drain (inv : Inv s) (pc : s.pc = .stopping) : Inv s.drain := by
  have here := inv.at_pc
  rw [pc] at here
  obtain ⟨live, stop, state, restarts⟩ := here
  have from_live : s.last.Live := by
    unfold Phase.Live
    rw [state]
    exact live
  unfold WorkerState.drain
  split
  · exact ⟨inv.chain, inv.sound, fun _ => Or.inr rfl, rfl, stop,
      .drain from_live rfl stop restarts.symm, Or.inl from_live, restarts⟩
  · exact ⟨inv.chain, inv.sound, fun some => absurd rfl some, rfl, stop, rfl,
      .stopped (Or.inl from_live) rfl stop restarts.symm⟩

theorem Inv.drainPoll (inv : Inv s) (pc : s.pc = .draining) (expired : Bool)
    (observed : RunState) (rtt : Option Rat) (reply : Reply HeartbeatAck) :
    Inv (s.drainPoll c expired observed rtt reply) := by
  have here := inv.at_pc
  rw [pc] at here
  obtain ⟨state, stop, follows, active, restarts⟩ := here
  unfold WorkerState.drainPoll
  split
  · obtain ⟨chain, sound, last, stop', nodeState, runState, restarts', pc'⟩ :=
      sendHeartbeat_inv (c := c) (s := { s with runState := some .executing }) rtt reply
        inv.chain inv.sound follows (fun _ => Or.inr state) (fun _ => rfl)
    generalize (({ s with runState := some .executing } : WorkerState).sendHeartbeat c rtt
      reply).1 = sent at *
    have state : sent.nodeState = .draining := nodeState.trans state
    have draining : sent.last.nodeState = .draining := by
      rw [last]
      exact nodeState.symm.trans state
    have restarts : sent.last.restarts = sent.restarts := by
      rw [last]
      exact restarts'.symm
    refine ⟨chain, sound, fun _ => Or.inr state, ?_⟩
    rw [pc'.trans pc]
    exact ⟨state, stop' stop, .stay (Or.inr draining) (state.trans draining.symm) restarts.symm,
      Or.inr draining, restarts⟩
  · have frame := frame_childExit s
    have inv := inv.frame frame
    refine ⟨inv.chain, inv.sound, fun some => absurd rfl some, rfl, ?_, rfl, ?_⟩
    · rw [frame.stop]
      exact stop
    · have stopped : s.last.Follows ⟨.stopped, s.restarts, s.stop⟩ :=
        .stopped active rfl stop restarts.symm
      rw [← frame.restarts, ← frame.stop, ← frame.last] at stopped
      exact stopped

theorem Inv.lastHeartbeat (inv : Inv s) (pc : s.pc = .lastReport) (rtt : Option Rat)
    (reply : Reply HeartbeatAck) : Inv (s.lastHeartbeat c rtt reply) := by
  have here := inv.at_pc
  rw [pc] at here
  obtain ⟨state, -, idle, follows⟩ := here
  have executing : s.nodeState = .draining → s.runState = some .executing := by
    intro draining
    cases state.symm.trans draining
  obtain ⟨chain, sound, -, -, nodeState, runState, -, -⟩ :=
    sendHeartbeat_inv (c := c) rtt reply inv.chain inv.sound follows inv.run
      executing
  exact ⟨chain, sound, fun some => absurd (runState.trans idle) some, trivial⟩

theorem Inv.onSignal (inv : Inv s) : Inv s.onSignal := by
  have here := inv.at_pc
  unfold WorkerState.onSignal
  split
  · refine ⟨inv.chain, inv.sound, inv.run, ?_⟩
    cases pc : s.pc <;> rw [pc] at here <;> exact here
  · refine ⟨inv.chain, inv.sound, inv.run, ?_⟩
    dsimp only
    cases pc : s.pc with
    | registering => rw [pc] at here; exact here
    | waiting => rw [pc] at here; exact here
    | backoff => rw [pc] at here; exact here
    | reporting => rw [pc] at here; exact ⟨here.1.stopping, here.2⟩
    | reregistering => rw [pc] at here; exact here
    | rejoining => rw [pc] at here; exact here
    | stopping => rw [pc] at here; exact ⟨here.1, rfl, here.2.2⟩
    | draining => rw [pc] at here; exact ⟨here.1, rfl, here.2.2.1.stopping, here.2.2.2⟩
    | lastReport => rw [pc] at here; exact ⟨here.1, rfl, here.2.2.1, here.2.2.2.stopping⟩
    | exited => exact trivial

theorem inv_step {e : WorkerEvent} (inv : Inv s) (run : s.step c e = some s') : Inv s' := by
  cases step_move run with
  | register reply pc => exact inv.start pc reply
  | tick healthy observed pc => exact inv.reconcile pc healthy observed
  | wake pc stop => exact inv.leave (pc ▸ inv.at_pc) stop
  | restart taken pc => exact inv.restart pc taken
  | heartbeat rtt reply pc => exact inv.loopHeartbeat pc rtt reply
  | lastHeartbeat rtt reply pc => exact inv.lastHeartbeat pc rtt reply
  | reregister reply pc => exact inv.reregister pc reply
  | rejoin reply pc => exact inv.rejoin pc reply
  | drain pc => exact inv.drain pc
  | poll expired observed rtt reply pc => exact inv.drainPoll pc expired observed rtt reply
  | signal => exact inv.onSignal
  | exit => exact inv.frame (frame_childExit s)
  | die => exact inv.exit

theorem inv_of_reachable (reached : (workerSystem c).Reachable s) : Inv s := by
  refine reached.invariant (I := Inv) (fun s start => ?_) fun _ _ _ inv _ run => inv_step inv run
  obtain ⟨apiKey, rfl⟩ := start
  exact inv_initial

/-! ## Every step follows the map -/

theorem sendHeartbeat_phase (rtt : Option Rat) (reply : Reply HeartbeatAck) :
    (s.sendHeartbeat c rtt reply).1.nodeState = s.nodeState ∧
    (s.sendHeartbeat c rtt reply).1.restarts = s.restarts := by
  unfold sendHeartbeat
  cases reply with
  | status code => dsimp only; split <;> exact ⟨rfl, rfl⟩
  | _ => exact ⟨rfl, rfl⟩

theorem leave_phase : s.leave.nodeState = s.nodeState ∧ s.leave.restarts = s.restarts := by
  unfold leave
  split <;> exact ⟨rfl, rfl⟩

theorem loopHeartbeat_phase {rtt : Option Rat} {reply : Reply HeartbeatAck} :
    (s.loopHeartbeat c rtt reply).nodeState = s.nodeState ∧
    (s.loopHeartbeat c rtt reply).restarts = s.restarts := by
  have sent := sendHeartbeat_phase (c := c) (s := s) rtt reply
  unfold loopHeartbeat
  generalize s.sendHeartbeat c rtt reply = pair at *
  obtain ⟨s', response⟩ := pair
  dsimp only at *
  split
  · exact ⟨leave_phase.1.trans sent.1, leave_phase.2.trans sent.2⟩
  · cases response with
    | none => exact sent
    | some ack =>
      dsimp only
      split
      · exact sent
      · split
        · exact ⟨leave_phase.1.trans sent.1, leave_phase.2.trans sent.2⟩
        · exact sent

theorem reregistered_phase (response : RegisterResponse) :
    (s.reregistered response).nodeState = s.nodeState ∧
    (s.reregistered response).restarts = s.restarts := by
  have frame := (frame_adoptToken s response.nodeToken).trans
    (frame_adoptKey _ response.vllmApiKey)
  exact ⟨frame.nodeState, frame.restarts⟩

theorem follows_reconcile (live : s.phase.Live) (healthy : Bool) (observed : RunState) :
    ((s.reconcile c healthy observed).nodeState = s.nodeState ∧
      (s.reconcile c healthy observed).restarts = s.restarts) ∨
    s.phase.Follows (s.reconcile c healthy observed).phase := by
  unfold reconcile
  split
  · exact Or.inl ⟨rfl, rfl⟩
  · split
    · unfold observe
      split
      · next ready => exact Or.inr (.healthy ready.1 rfl rfl)
      · exact Or.inl ⟨rfl, rfl⟩
    · unfold handleCrash
      dsimp only
      split
      · exact Or.inr (.giveUp live rfl)
      · exact Or.inr (.restart live rfl rfl)

theorem follows_step {e : WorkerEvent} (inv : Inv s) (run : s.step c e = some s') :
    (s'.nodeState = s.nodeState ∧ s'.restarts = s.restarts) ∨ s.phase.Follows s'.phase := by
  have here := inv.at_pc
  cases step_move run with
  | register reply pc =>
    rw [pc] at here
    obtain ⟨s', frame, -, over_ | started⟩ := start_cases (c := c) s reply
    · rw [over_]
      exact Or.inl ⟨frame.nodeState, frame.restarts⟩
    · rw [started]
      have metrics := frame_startMetrics (c := c)
        ({ s' with nodeState := .initializing }.launch s'.vllmPort)
      exact Or.inr (.launch here.1 metrics.nodeState (metrics.restarts.trans frame.restarts))
  | tick healthy observed pc =>
    rw [pc] at here
    exact follows_reconcile here.1 healthy observed
  | wake => exact Or.inl leave_phase
  | restart taken pc =>
    rw [pc] at here
    unfold WorkerState.restart selectPort
    split
    · exact Or.inl ⟨rfl, rfl⟩
    · cases findFreePort taken s.vllmPort with
      | none => exact Or.inr (.giveUp (Or.inl here.1) rfl)
      | some port => exact Or.inl ⟨rfl, rfl⟩
  | heartbeat => exact Or.inl loopHeartbeat_phase
  | lastHeartbeat => exact Or.inl (sendHeartbeat_phase _ _)
  | reregister reply =>
    cases reply with
    | ok response => exact Or.inl (reregistered_phase response)
    | status code =>
      unfold WorkerState.reregister
      dsimp only
      split <;> exact Or.inl ⟨rfl, rfl⟩
    | failed => exact Or.inl ⟨rfl, rfl⟩
  | rejoin reply =>
    cases reply with
    | ok response => exact Or.inl (reregistered_phase response)
    | _ => exact Or.inl ⟨rfl, rfl⟩
  | drain pc =>
    rw [pc] at here
    unfold WorkerState.drain
    split
    · exact Or.inr (.drain here.1 rfl here.2.1 rfl)
    · exact Or.inr (.stopped (Or.inl here.1) rfl here.2.1 rfl)
  | poll expired observed rtt reply pc =>
    rw [pc] at here
    unfold WorkerState.drainPoll
    split
    · exact Or.inl (sendHeartbeat_phase _ _)
    · have frame := frame_childExit s
      exact Or.inr (.stopped (Or.inr here.1) rfl (frame.stop.trans here.2.1) frame.restarts)
  | signal =>
    unfold WorkerState.onSignal
    split <;> exact Or.inl ⟨rfl, rfl⟩
  | exit => exact Or.inl ⟨(frame_childExit s).nodeState, (frame_childExit s).restarts⟩
  | die => exact Or.inl ⟨rfl, rfl⟩

/-! ## The restart budget -/

/-- How the starts and the ends of the backend stand to the restarts. -/
structure Budget (c : WorkerSettings) (s : WorkerState) : Prop where
  within : s.restarts ≤ c.maxRestarts
  starts : s.starts ≤ 1 + s.restarts
  exits : s.starts = s.exits + s.running.toNat
  failed : s.nodeState = .failed →
    (s.restarts = c.maxRestarts ∧ s.exits = 1 + c.maxRestarts) ∨ s.noPort = true
  fresh : s.pc = .registering → s.starts = 0 ∧ s.running = false
  backoff : s.pc = .backoff → s.running = false ∧ s.starts = s.restarts
  used : s.pc ≠ .registering → s.pc ≠ .backoff → s.pc ≠ .exited → s.stop = false →
    s.nodeState ≠ .failed → s.starts = 1 + s.restarts

theorem budget_initial {apiKey : Option String} : Budget c (.initial c apiKey) where
  within := Nat.zero_le _
  starts := Nat.zero_le _
  exits := rfl
  failed := nofun
  fresh := fun _ => ⟨rfl, rfl⟩
  backoff := nofun
  used := fun fresh => absurd rfl fresh

/-- A step that neither starts nor ends a backend. -/
theorem Budget.keep (budget : Budget c s) (counts : s'.counts = s.counts)
    (failed : s'.nodeState = .failed → s.nodeState = .failed)
    (fresh : s'.pc = .registering → s.pc = .registering)
    (backoff : s'.pc = .backoff → s.pc = .backoff)
    (used : s'.pc ≠ .registering → s'.pc ≠ .backoff → s'.pc ≠ .exited → s'.stop = false →
      s'.nodeState ≠ .failed → s.starts = 1 + s.restarts) : Budget c s' := by
  unfold WorkerState.counts at counts
  simp only [Prod.mk.injEq] at counts
  obtain ⟨restarts, starts, exits, running, noPort⟩ := counts
  constructor
  · rw [restarts]
    exact budget.within
  · rw [restarts, starts]
    exact budget.starts
  · rw [starts, exits, running]
    exact budget.exits
  · rw [restarts, exits, noPort]
    exact fun now => budget.failed (failed now)
  · rw [starts, running]
    exact fun now => budget.fresh (fresh now)
  · rw [running, starts, restarts]
    exact fun now => budget.backoff (backoff now)
  · rw [starts, restarts]
    exact used

theorem Budget.childExit (budget : Budget c s) : Budget c s.childExit := by
  unfold WorkerState.childExit
  split
  · next running =>
    have exits := budget.exits
    rw [running] at exits
    have ended : ({ s with
        supervisor := s.supervisor.map fun process => { process with running := false }
        exits := s.exits + 1 } : WorkerState).running = false := by
      unfold WorkerState.running
      cases s.supervisor <;> rfl
    refine ⟨budget.within, budget.starts, ?_, fun failed => ?_, fun fresh => ?_, fun backoff => ?_,
      budget.used⟩
    · rw [ended]
      exact exits
    · rcases budget.failed failed with ⟨restarts, exits'⟩ | noPort
      · have starts := budget.starts
        rw [exits, exits', restarts, Bool.toNat_true] at starts
        omega
      · exact Or.inr noPort
    · exact ⟨(budget.fresh fresh).1, ended⟩
    · exact ⟨ended, (budget.backoff backoff).2⟩
  · exact budget

/-- A backend is started while none runs and a start is left. -/
theorem Budget.launch {port : Nat} {pc : WorkerPc} (budget : Budget c s)
    (ended : s.running = false) (left : s.starts = s.restarts) (state : s.nodeState ≠ .failed)
    (fresh : pc ≠ .registering) (backoff : pc ≠ .backoff) :
    Budget c { s.launch port with pc := pc } := by
  have exits := budget.exits
  rw [ended] at exits
  refine ⟨budget.within, ?_, ?_, fun failed => absurd failed state, fun now => absurd now fresh,
    fun now => absurd now backoff, fun _ _ _ _ _ => ?_⟩
  · change s.starts + 1 ≤ 1 + s.restarts
    omega
  · change s.starts + 1 = s.exits + 1
    rw [exits]
    rfl
  · change s.starts + 1 = 1 + s.restarts
    omega

theorem Budget.reconcile (budget : Budget c s) (pc : s.pc = .waiting) (stop : s.stop = false)
    (live : s.nodeState ≠ .failed) (healthy : Bool) (observed : RunState) :
    Budget c (s.reconcile c healthy observed) := by
  have used : s.starts = 1 + s.restarts :=
    budget.used (by simp [pc]) (by simp [pc]) (by simp [pc]) stop live
  unfold WorkerState.reconcile
  split
  · exact budget.keep rfl id nofun nofun fun _ _ _ _ _ => used
  · next process supervised =>
    split
    · refine budget.keep rfl (fun failed => ?_) nofun nofun fun _ _ _ _ _ => used
      unfold observe at failed
      dsimp only at failed
      split at failed
      · cases failed
      · exact failed
    · next gone =>
      have ended : s.running = false := by
        unfold WorkerState.running
        rw [supervised]
        simpa using gone
      have exits := budget.exits
      rw [ended] at exits
      unfold handleCrash
      dsimp only
      split
      · next exhausted =>
        refine ⟨budget.within, budget.starts, budget.exits, fun _ => Or.inl ?_, nofun, nofun,
          fun _ _ _ _ alive => absurd rfl alive⟩
        have within := budget.within
        have restarts : s.restarts = c.maxRestarts := by omega
        refine ⟨restarts, ?_⟩
        change s.exits = 1 + c.maxRestarts
        rw [← restarts, ← used, exits]
        rfl
      · next left =>
        refine ⟨?_, ?_, budget.exits, nofun, nofun, fun _ => ⟨ended, ?_⟩,
          fun _ waiting => absurd rfl waiting⟩
        · change s.restarts + 1 ≤ c.maxRestarts
          omega
        · change s.starts ≤ 1 + (s.restarts + 1)
          omega
        · change s.starts = s.restarts + 1
          omega

theorem Budget.restart (budget : Budget c s) (pc : s.pc = .backoff) (taken : Nat → Bool)
    (state : s.nodeState = .initializing) : Budget c (s.restart taken) := by
  obtain ⟨ended, starts⟩ := budget.backoff pc
  have alive : s.nodeState ≠ .failed := by simp [state]
  unfold WorkerState.restart selectPort
  split
  · next stop =>
    exact budget.keep rfl id nofun nofun fun _ _ _ going => by simp [stop] at going
  · cases findFreePort taken s.vllmPort with
    | none =>
      exact ⟨budget.within, budget.starts, budget.exits, fun _ => Or.inr rfl, nofun, nofun,
        fun _ _ _ _ alive => absurd rfl alive⟩
    | some port =>
      have moved : Budget c { s with
          vllmPort := port
          tunnel := s.tunnel.map fun tunnel => { tunnel with backendPort := port } } :=
        ⟨budget.within, budget.starts, budget.exits, budget.failed, budget.fresh, budget.backoff,
          budget.used⟩
      exact moved.launch ended starts alive nofun nofun

theorem sendHeartbeat_counts (rtt : Option Rat) (reply : Reply HeartbeatAck) :
    (s.sendHeartbeat c rtt reply).1.counts = s.counts ∧
    ((s.sendHeartbeat c rtt reply).1.stop = false → s.stop = false) ∧
    (s.sendHeartbeat c rtt reply).1.pc = s.pc := by
  unfold sendHeartbeat
  cases reply with
  | status code =>
    dsimp only
    split
    · exact ⟨rfl, nofun, rfl⟩
    · exact ⟨rfl, id, rfl⟩
  | _ => exact ⟨rfl, id, rfl⟩

theorem Budget.sendHeartbeat (budget : Budget c s) (rtt : Option Rat)
    (reply : Reply HeartbeatAck) : Budget c (s.sendHeartbeat c rtt reply).1 := by
  obtain ⟨counts, stop, pc⟩ := sendHeartbeat_counts (c := c) (s := s) rtt reply
  obtain ⟨nodeState, -⟩ := sendHeartbeat_phase (c := c) (s := s) rtt reply
  refine budget.keep counts ?_ ?_ ?_ ?_
  · rw [nodeState]
    exact id
  · rw [pc]
    exact id
  · rw [pc]
    exact id
  · rw [pc, nodeState]
    exact fun fresh backoff exited going => budget.used fresh backoff exited (stop going)

/-- The main thread goes on, with nothing counted. -/
theorem Budget.go (budget : Budget c s) {pc : WorkerPc} (fresh : pc ≠ .registering)
    (backoff : pc ≠ .backoff)
    (used : pc ≠ .exited → s.stop = false → s.nodeState ≠ .failed → s.starts = 1 + s.restarts) :
    Budget c { s with pc := pc } :=
  budget.keep rfl id (fun now => absurd now fresh) (fun now => absurd now backoff)
    fun _ _ => used

theorem Budget.leave (budget : Budget c s)
    (used : s.stop = false → s.nodeState ≠ .failed → s.starts = 1 + s.restarts) :
    Budget c s.leave := by
  unfold WorkerState.leave
  split
  · exact budget.keep rfl id nofun nofun fun _ _ running => absurd rfl running
  · exact budget.go nofun nofun fun _ => used

theorem Budget.loopHeartbeat (budget : Budget c s) (pc : s.pc = .reporting) (rtt : Option Rat)
    (reply : Reply HeartbeatAck) : Budget c (s.loopHeartbeat c rtt reply) := by
  have sent := budget.sendHeartbeat rtt reply
  obtain ⟨-, -, pc'⟩ := sendHeartbeat_counts (c := c) (s := s) rtt reply
  unfold WorkerState.loopHeartbeat
  generalize s.sendHeartbeat c rtt reply = pair at *
  obtain ⟨s', response⟩ := pair
  dsimp only at *
  have used : s'.stop = false → s'.nodeState ≠ .failed → s'.starts = 1 + s'.restarts :=
    sent.used (by simp [pc', pc]) (by simp [pc', pc]) (by simp [pc', pc])
  split
  · exact sent.leave used
  · cases response with
    | none => exact sent.go nofun nofun fun _ => used
    | some ack =>
      have resized : Budget c { s' with
          tunnel := s'.tunnel.map (TunnelClient.setPoolSize · ack.tunnelPoolSize) } :=
        sent.keep rfl id id id sent.used
      dsimp only
      split
      · exact resized.go nofun nofun fun _ => used
      · split
        · refine Budget.leave ?_ nofun
          exact sent.keep rfl id id id fun _ _ _ going => nomatch going
        · exact resized.go nofun nofun fun _ => used

theorem Budget.reregistered (budget : Budget c s) (response : RegisterResponse)
    (used : s.stop = false → s.nodeState ≠ .failed → s.starts = 1 + s.restarts) :
    Budget c (s.reregistered response) := by
  have token : Budget c (s.adoptToken response.nodeToken) := by
    unfold adoptToken
    split
    · exact budget.keep rfl id id id budget.used
    · exact budget
  have key {s : WorkerState} (budget : Budget c s) (key : Option String) :
      Budget c (s.adoptKey key) := by
    unfold adoptKey
    split
    · have changed : Budget c { s with apiKey := key } := budget.keep rfl id id id budget.used
      exact changed.childExit
    · exact budget
  have starts {s : WorkerState} : s.childExit.starts = s.starts := by
    unfold WorkerState.childExit
    split <;> rfl
  have frame := (frame_adoptToken s response.nodeToken).trans
    (frame_adoptKey _ response.vllmApiKey)
  have same : ((s.adoptToken response.nodeToken).adoptKey response.vllmApiKey).starts =
      s.starts := by
    unfold adoptKey adoptToken
    split <;> split <;> first | exact starts | rfl
  refine (key token response.vllmApiKey).go nofun nofun fun _ => ?_
  rw [frame.stop, frame.nodeState, frame.restarts, same]
  exact used

theorem budget_step {e : WorkerEvent} (inv : Inv s) (budget : Budget c s)
    (run : s.step c e = some s') : Budget c s' := by
  have here := inv.at_pc
  cases step_move run with
  | register reply pc =>
    rw [pc] at here
    obtain ⟨starts, ended⟩ := budget.fresh pc
    obtain ⟨s', frame, counts, over_ | started⟩ := start_cases (c := c) s reply
    · rw [over_]
      refine budget.keep counts ?_ nofun nofun fun _ _ running => absurd rfl running
      exact fun failed => frame.nodeState.symm.trans failed
    · rw [started]
      have counts' := counts
      unfold WorkerState.counts at counts'
      simp only [Prod.mk.injEq] at counts'
      have idle : Budget c { s' with nodeState := .initializing } := by
        refine budget.keep counts nofun (fun _ => pc) (fun backoff => ?_) fun fresh => ?_
        · exact absurd (frame.pc.symm.trans backoff) (by simp [pc])
        · exact absurd (frame.pc.trans pc) fresh
      have launched : Budget c { { s' with nodeState := .initializing }.launch s'.vllmPort with
          pc := .waiting } := by
        refine idle.launch (counts'.2.2.2.1.trans ended) ?_ nofun nofun nofun
        exact (counts'.2.1.trans starts).trans (counts'.1.trans here.2.1).symm
      unfold startMetrics
      split
      · exact launched.keep rfl id id id launched.used
      · exact launched
  | tick healthy observed pc stop =>
    rw [pc] at here
    refine budget.reconcile pc stop ?_ healthy observed
    rcases here.1 with state | state
    · exact fun failed => nomatch state.symm.trans failed
    · exact fun failed => nomatch state.symm.trans failed
  | wake pc stop =>
    exact budget.leave fun going => by simp [stop] at going
  | restart taken pc =>
    rw [pc] at here
    exact budget.restart pc taken here.1
  | heartbeat rtt reply pc => exact budget.loopHeartbeat pc rtt reply
  | lastHeartbeat rtt reply =>
    exact (budget.sendHeartbeat rtt reply).keep rfl id nofun nofun
      fun _ _ running => absurd rfl running
  | reregister reply pc =>
    have used : s.stop = false → s.nodeState ≠ .failed → s.starts = 1 + s.restarts :=
      budget.used (by simp [pc]) (by simp [pc]) (by simp [pc])
    cases reply with
    | ok response => exact budget.reregistered response used
    | status code =>
      unfold WorkerState.reregister
      dsimp only
      split
      · exact budget.go nofun nofun fun _ => used
      · exact budget.go nofun nofun fun _ => used
    | failed => exact budget.go nofun nofun fun _ => used
  | rejoin reply pc =>
    have used : s.stop = false → s.nodeState ≠ .failed → s.starts = 1 + s.restarts :=
      budget.used (by simp [pc]) (by simp [pc]) (by simp [pc])
    cases reply with
    | ok response => exact budget.reregistered response used
    | status code => exact budget.go nofun nofun fun _ => used
    | failed => exact budget.go nofun nofun fun _ => used
  | drain pc =>
    rw [pc] at here
    have stop : s.stop = true := here.2.1
    unfold WorkerState.drain
    split <;> refine budget.keep rfl nofun nofun nofun fun _ _ _ going => ?_
    · exact absurd (stop.symm.trans going) nofun
    · exact absurd (stop.symm.trans going) nofun
  | poll expired observed rtt reply pc =>
    rw [pc] at here
    have stop : s.stop = true := here.2.1
    unfold WorkerState.drainPoll
    split
    · have observed : Budget c { s with runState := some .executing } :=
        budget.keep rfl id id id budget.used
      exact observed.sendHeartbeat rtt reply
    · refine budget.childExit.keep rfl nofun nofun nofun fun _ _ _ going => ?_
      have stopped := ((frame_childExit s).stop.trans stop).symm.trans going
      exact absurd stopped nofun
  | signal =>
    unfold WorkerState.onSignal
    split
    · exact budget.keep rfl id id id budget.used
    · exact budget.keep rfl id id id fun _ _ _ going => nomatch going
  | exit => exact budget.childExit
  | die => exact budget.go nofun nofun fun running => absurd rfl running

theorem budget_of_reachable (reached : (workerSystem c).Reachable s) : Budget c s := by
  have both : Inv s ∧ Budget c s := by
    refine reached.invariant (I := fun s => Inv s ∧ Budget c s) (fun s start => ?_)
      fun s e s' inv _ run => ⟨inv_step inv.1 run, budget_step inv.1 inv.2 run⟩
    obtain ⟨apiKey, rfl⟩ := start
    exact ⟨inv_initial, budget_initial⟩
  exact both.2

end WorkerState

open WorkerState in
/-- **A worker's lifecycle.**  Every heartbeat has a run state only while SERVING or
DRAINING, and while DRAINING it is EXECUTING; the phases reported follow the transition
map from the launch on, and so does every step of the worker; FAILED and STOPPED are
final; FAILED needs all restarts used and one more exit, or no free port; and the
backend is started once and once for each restart at most. -/
theorem worker_lifecycle {c : WorkerSettings} {s : WorkerState}
    (reached : (workerSystem c).Reachable s) :
    (∀ r ∈ s.reports, r.request.nodeState = r.phase.nodeState ∧
      (r.request.runState ≠ none →
        r.request.nodeState = .serving ∨ r.request.nodeState = .draining) ∧
      (r.request.nodeState = .draining → r.request.runState = some .executing)) ∧
    (s.trail.IsChain fun later earlier => earlier.Follows later) ∧
    (∀ e s', s.step c e = some s' →
      (s'.nodeState = s.nodeState ∧ s'.restarts = s.restarts) ∨ s.phase.Follows s'.phase) ∧
    (s.nodeState = .failed ∨ s.nodeState = .stopped →
      ∀ e s', s.step c e = some s' → s'.nodeState = s.nodeState) ∧
    (s.nodeState = .failed →
      (s.restarts = c.maxRestarts ∧ s.exits = 1 + c.maxRestarts) ∨ s.noPort = true) ∧
    s.starts ≤ 1 + c.maxRestarts := by
  have inv := inv_of_reachable reached
  have budget := budget_of_reachable reached
  refine ⟨inv.sound, inv.chain, fun e s' run => follows_step inv run, fun final e s' run => ?_,
    budget.failed, ?_⟩
  · rcases follows_step inv run with ⟨same, -⟩ | follows
    · exact same
    · obtain ⟨alive, going⟩ := follows.not_final
      rcases final with failed | stopped
      · exact absurd failed alive
      · exact absurd stopped going
  · have starts := budget.starts
    have within := budget.within
    omega

/-- Serve, crash, restart, serve again, drain on a signal, stop. -/
def drainedRun : Option WorkerState :=
  let ack : Reply HeartbeatAck := .ok ⟨⟨true, true, none⟩, none⟩
  (workerSystem oneRestart).run (.initial oneRestart none)
    [.register (.ok ⟨true, "n", 10, none, none, none, none⟩), .tick true .idle, .heartbeat none ack,
      .exit, .tick false .idle, .restart fun _ => false, .heartbeat none .failed,
      .tick true .executing, .heartbeat none ack, .signal, .wake, .drain,
      .poll false .executing none ack, .poll false .idle none ack, .heartbeat none ack]

theorem worker_lifecycle_drained :
    ∃ s, drainedRun = some s ∧
      (s.reports.map fun r => (r.phase.nodeState, r.request.runState)) =
        [(.stopped, none), (.draining, some .executing), (.serving, some .executing),
          (.initializing, none), (.serving, some .idle)] ∧
      s.starts = 2 ∧ s.starts ≤ 1 + oneRestart.maxRestarts := by
  have course : (drainedRun.map fun s =>
      (s.reports.map fun r => (r.phase.nodeState, r.request.runState), s.starts)) =
      some ([(.stopped, none), (.draining, some .executing), (.serving, some .executing),
        (.initializing, none), (.serving, some .idle)], 2) := by decide +kernel
  obtain ⟨s, ran, course⟩ := Option.map_eq_some_iff.mp course
  obtain ⟨reports, starts⟩ := Prod.mk.inj course
  have reached : (workerSystem oneRestart).Reachable s := .of_run ⟨none, rfl⟩ ran
  exact ⟨s, ran, reports, starts, (worker_lifecycle reached).2.2.2.2.2⟩

end Oumigo
