import Oumigo.Worker.Lifecycle

/-!
# The copies of the backend's port

The coordinator, the supervised process, the tunnel client and the metrics collector
each keep the backend's port.  A restart that falls over to another port updates all
but the collector, which goes on scraping the port it was built with.
-/

namespace Oumigo

namespace WorkerState

variable {c : WorkerSettings} {s s' : WorkerState}

/-- The port the metrics collector scrapes. -/
def scrapedPort (s : WorkerState) : Option Nat := s.metrics.bind (·.vllmPort)

/-- The supervised process, the next heartbeat, the tunnel client and the metrics
collector, as far as they are there, agree on the backend's port. -/
def PortsAgree (c : WorkerSettings) (s : WorkerState) : Prop :=
  ∀ process, s.supervisor = some process →
    (∀ rtt, (s.request c rtt).vllmPort = some process.port) ∧
    (∀ tunnel, s.tunnel = some tunnel → tunnel.backendPort = process.port) ∧
    ∀ port, s.scrapedPort = some port → port = process.port

/-- No restart that a metrics collector would have to follow moves the port: the worker's
port is free again, or none is and the worker gives up, or the restart is aborted. -/
def KeepsPort (s : WorkerState) : WorkerEvent → Prop
  | .restart taken => s.scrapedPort = none ∨ s.stop = true ∨ taken s.vllmPort = false ∨
      findFreePort taken s.vllmPort = none
  | _ => True

/-- Every copy of the port is `vllm_port`. -/
structure OnePort (s : WorkerState) : Prop where
  supervisor : ∀ process, s.supervisor = some process → process.port = s.vllmPort
  tunnel : ∀ tunnel, s.tunnel = some tunnel → tunnel.backendPort = s.vllmPort
  metrics : ∀ port, s.scrapedPort = some port → port = s.vllmPort

theorem OnePort.agree (one : OnePort s) : PortsAgree c s := by
  intro process supervised
  have port := one.supervisor process supervised
  refine ⟨fun _ => congrArg some port.symm, fun tunnel dialed => ?_, fun scraped same => ?_⟩
  · exact (one.tunnel tunnel dialed).trans port.symm
  · exact (one.metrics scraped same).trans port.symm

/-- A step that moves no port; the collector may be gone. -/
structure Ports (s s' : WorkerState) : Prop where
  vllmPort : s'.vllmPort = s.vllmPort
  supervisor : s'.supervisor.map (·.port) = s.supervisor.map (·.port)
  tunnel : s'.tunnel.map (·.backendPort) = s.tunnel.map (·.backendPort)
  metrics : s'.scrapedPort = s.scrapedPort ∨ s'.scrapedPort = none

theorem Ports.refl (s : WorkerState) : Ports s s := ⟨rfl, rfl, rfl, Or.inl rfl⟩

theorem Ports.trans {s'' : WorkerState} (ports : Ports s s') (ports' : Ports s' s'') :
    Ports s s'' := by
  refine ⟨ports'.vllmPort.trans ports.vllmPort, ports'.supervisor.trans ports.supervisor,
    ports'.tunnel.trans ports.tunnel, ?_⟩
  rcases ports'.metrics with same | gone
  · rw [same]
    exact ports.metrics
  · exact Or.inr gone

theorem OnePort.ports (one : OnePort s) (ports : Ports s s') : OnePort s' := by
  refine ⟨fun process supervised => ?_, fun tunnel dialed => ?_, fun port scraped => ?_⟩
  · have same := ports.supervisor
    rw [supervised] at same
    obtain ⟨process', supervised', port⟩ := Option.map_eq_some_iff.mp same.symm
    rw [ports.vllmPort, ← one.supervisor process' supervised']
    exact port.symm
  · have same := ports.tunnel
    rw [dialed] at same
    obtain ⟨tunnel', dialed', port⟩ := Option.map_eq_some_iff.mp same.symm
    rw [ports.vllmPort, ← one.tunnel tunnel' dialed']
    exact port.symm
  · rw [ports.vllmPort]
    rcases ports.metrics with same | gone
    · exact one.metrics port (same.symm.trans scraped)
    · rw [gone] at scraped
      cases scraped

theorem ports_childExit (s : WorkerState) : Ports s s.childExit := by
  unfold childExit
  split
  · refine ⟨rfl, ?_, rfl, Or.inl rfl⟩
    cases s.supervisor <;> rfl
  · exact .refl s

theorem ports_sendHeartbeat (rtt : Option Rat) (reply : Reply HeartbeatAck) :
    Ports s (s.sendHeartbeat c rtt reply).1 := by
  unfold sendHeartbeat
  cases reply with
  | status code => dsimp only; split <;> exact ⟨rfl, rfl, rfl, Or.inl rfl⟩
  | _ => exact ⟨rfl, rfl, rfl, Or.inl rfl⟩

theorem ports_leave : Ports s s.leave := by
  unfold leave
  split
  · exact ⟨rfl, rfl, rfl, Or.inr rfl⟩
  · exact ⟨rfl, rfl, rfl, Or.inl rfl⟩

theorem ports_reconcile {healthy : Bool} {observed : RunState} :
    Ports s (s.reconcile c healthy observed) := by
  unfold reconcile
  split
  · exact ⟨rfl, rfl, rfl, Or.inl rfl⟩
  · split
    · exact ⟨rfl, rfl, rfl, Or.inl rfl⟩
    · unfold handleCrash
      dsimp only
      split <;> exact ⟨rfl, rfl, rfl, Or.inl rfl⟩

theorem ports_loopHeartbeat {rtt : Option Rat} {reply : Reply HeartbeatAck} :
    Ports s (s.loopHeartbeat c rtt reply) := by
  have sent := ports_sendHeartbeat (c := c) (s := s) rtt reply
  unfold loopHeartbeat
  generalize s.sendHeartbeat c rtt reply = pair at *
  obtain ⟨s', response⟩ := pair
  dsimp only at *
  refine sent.trans ?_
  split
  · exact ports_leave
  · cases response with
    | none => exact ⟨rfl, rfl, rfl, Or.inl rfl⟩
    | some ack =>
      have resized (pc : WorkerPc) (stop : Bool) : Ports s' { s' with
          tunnel := s'.tunnel.map (TunnelClient.setPoolSize · ack.tunnelPoolSize)
          stop := stop
          pc := pc } := by
        refine ⟨rfl, rfl, ?_, Or.inl rfl⟩
        cases s'.tunnel with
        | none => rfl
        | some tunnel => cases h : ack.tunnelPoolSize <;> simp [TunnelClient.setPoolSize]
      dsimp only
      split
      · exact resized _ _
      · split
        · exact (resized s'.pc true).trans ports_leave
        · exact resized _ _

theorem ports_reregistered (response : RegisterResponse) : Ports s (s.reregistered response) := by
  have token : Ports s (s.adoptToken response.nodeToken) := by
    unfold adoptToken
    split
    · refine ⟨rfl, rfl, rfl, Or.inl ?_⟩
      unfold scrapedPort
      cases s.metrics <;> rfl
    · exact .refl s
  have key {s : WorkerState} (key : Option String) : Ports s (s.adoptKey key) := by
    unfold adoptKey
    split
    · have changed : Ports s { s with apiKey := key } := ⟨rfl, rfl, rfl, Or.inl rfl⟩
      exact changed.trans (ports_childExit _)
    · exact .refl s
  have moved {s : WorkerState} (pc : WorkerPc) : Ports s { s with pc := pc } :=
    ⟨rfl, rfl, rfl, Or.inl rfl⟩
  exact (token.trans (key response.vllmApiKey)).trans (moved _)

theorem OnePort.startTunnel {response : RegisterResponse} (one : OnePort s)
    (started : s.startTunnel response = some s') : OnePort s' := by
  unfold WorkerState.startTunnel at started
  split at started
  · split at started
    · cases started
    · cases started
      refine ⟨one.supervisor, fun tunnel dialed => ?_, one.metrics⟩
      cases dialed
      rfl
  · cases started

theorem OnePort.startVllm (one : OnePort s) : OnePort s.startVllm := by
  refine ⟨fun process supervised => ?_, one.tunnel, one.metrics⟩
  cases supervised
  rfl

theorem OnePort.startMetrics (one : OnePort s) : OnePort (s.startMetrics c) := by
  unfold WorkerState.startMetrics
  split
  · refine ⟨one.supervisor, one.tunnel, fun port scraped => ?_⟩
    change (if s.vllmPort = 0 then none else some s.vllmPort) = some port at scraped
    split at scraped
    · cases scraped
    · exact (Option.some.inj scraped).symm
  · exact one

theorem OnePort.start (one : OnePort s) (reply : Reply RegisterResponse) :
    OnePort (s.start c reply) := by
  have token (token : Option String) : OnePort { s with token := token } :=
    ⟨one.supervisor, one.tunnel, one.metrics⟩
  have moved {s : WorkerState} (one : OnePort s) (pc : WorkerPc) : OnePort { s with pc := pc } :=
    ⟨one.supervisor, one.tunnel, one.metrics⟩
  unfold WorkerState.start
  cases reply with
  | ok response =>
    dsimp only
    split
    · next tunnelled started =>
      refine moved (OnePort.startMetrics (OnePort.startVllm ?_)) .waiting
      cases transport : c.transport with
      | tunnel =>
        rw [transport] at started
        exact (token _).startTunnel started
      | direct =>
        rw [transport] at started
        cases started
        exact token _
    · exact moved (token (pyOr response.nodeToken s.token)) .exited
  | status code => exact moved one .exited
  | failed => exact moved one .exited

/-- What a step does to the ports: a restart may launch the backend on another one, and no
other step moves one that is set. -/
theorem ports_step {e : WorkerEvent} (one : OnePort s) (run : s.step c e = some s') :
    (OnePort s' ∧ s.KeepsPort e) ∨ ∃ taken port, e = .restart taken ∧ s.stop = false ∧
      findFreePort taken s.vllmPort = some port ∧ s'.supervisor = some ⟨port, true⟩ ∧
      s'.vllmPort = port ∧ s'.tunnel.map (·.backendPort) = s.tunnel.map (fun _ => port) ∧
      s'.scrapedPort = s.scrapedPort := by
  have moved (pc : WorkerPc) : Ports s { s with pc := pc } := ⟨rfl, rfl, rfl, Or.inl rfl⟩
  cases step_move run with
  | register reply => exact Or.inl ⟨one.start reply, trivial⟩
  | tick => exact Or.inl ⟨one.ports ports_reconcile, trivial⟩
  | wake => exact Or.inl ⟨one.ports ports_leave, trivial⟩
  | restart taken pc =>
    unfold WorkerState.restart selectPort
    split
    · next stop => exact Or.inl ⟨one.ports (moved _), Or.inr (Or.inl stop)⟩
    · next going =>
      cases found : findFreePort taken s.vllmPort with
      | none =>
        exact Or.inl ⟨⟨one.supervisor, one.tunnel, one.metrics⟩, Or.inr (Or.inr (Or.inr found))⟩
      | some port =>
        refine Or.inr ⟨taken, port, rfl, by simpa using going, found, rfl, rfl, ?_, rfl⟩
        change (s.tunnel.map _).map _ = _
        rw [Option.map_map]
        rfl
  | heartbeat => exact Or.inl ⟨one.ports ports_loopHeartbeat, trivial⟩
  | lastHeartbeat =>
    have gone (s : WorkerState) : Ports s { s with pc := .exited, metrics := none } :=
      ⟨rfl, rfl, rfl, Or.inr rfl⟩
    exact Or.inl ⟨one.ports ((ports_sendHeartbeat _ _).trans (gone _)), trivial⟩
  | reregister reply =>
    refine Or.inl ⟨?_, trivial⟩
    cases reply with
    | ok response => exact one.ports (ports_reregistered response)
    | status code =>
      unfold WorkerState.reregister
      dsimp only
      split <;> exact one.ports (moved _)
    | failed => exact one.ports (moved _)
  | rejoin reply =>
    refine Or.inl ⟨?_, trivial⟩
    cases reply with
    | ok response => exact one.ports (ports_reregistered response)
    | _ => exact one.ports (moved _)
  | drain =>
    refine Or.inl ⟨?_, trivial⟩
    unfold WorkerState.drain
    split <;> exact one.ports ⟨rfl, rfl, rfl, Or.inl rfl⟩
  | poll =>
    refine Or.inl ⟨?_, trivial⟩
    unfold WorkerState.drainPoll
    split
    · have observed : OnePort { s with runState := some .executing } :=
        one.ports ⟨rfl, rfl, rfl, Or.inl rfl⟩
      exact observed.ports (ports_sendHeartbeat _ _)
    · have stopped := one.ports (ports_childExit s)
      exact ⟨stopped.supervisor, stopped.tunnel, stopped.metrics⟩
  | signal =>
    refine Or.inl ⟨?_, trivial⟩
    unfold WorkerState.onSignal
    split <;> exact one.ports ⟨rfl, rfl, rfl, Or.inl rfl⟩
  | exit => exact Or.inl ⟨one.ports (ports_childExit s), trivial⟩
  | die => exact Or.inl ⟨one.ports (moved _), trivial⟩

theorem findFreePort_free {taken : Nat → Bool} {preferred : Nat}
    (free : taken preferred = false) : findFreePort taken preferred = some preferred := by
  unfold findFreePort
  rw [List.range'_succ, List.find?_cons]
  simp [free]

theorem findFreePort_not_taken {taken : Nat → Bool} {preferred port : Nat}
    (found : findFreePort taken preferred = some port) : taken port = false := by
  have free := List.find?_some found
  simpa using free

theorem onePort_step {e : WorkerEvent} (one : OnePort s) (keeps : s.KeepsPort e)
    (run : s.step c e = some s') : OnePort s' := by
  rcases ports_step one run with ⟨one', -⟩ | ⟨taken, port, rfl, going, found, supervised,
    vllmPort, tunnel, scraped⟩
  · exact one'
  · have same (p : Nat) (scrapes : s.scrapedPort = some p) : p = port := by
      rcases keeps with none | stop | free | full
      · rw [none] at scrapes
        cases scrapes
      · rw [going] at stop
        cases stop
      · rw [findFreePort_free free] at found
        exact (one.metrics p scrapes).trans (Option.some.inj found)
      · rw [full] at found
        cases found
    refine ⟨fun process supervised' => ?_, fun tunnel' dialed => ?_, fun p scrapes => ?_⟩
    · rw [supervised] at supervised'
      cases supervised'
      exact vllmPort.symm
    · rw [dialed] at tunnel
      obtain ⟨_, -, same⟩ := Option.map_eq_some_iff.mp tunnel.symm
      exact same.symm.trans vllmPort.symm
    · exact (same p (scraped.symm.trans scrapes)).trans vllmPort.symm

theorem onePort_of_reachable (reached : (workerSystem c).ReachableBy KeepsPort s) :
    OnePort s := by
  refine reached.invariant (I := OnePort) (fun s start => ?_) fun s e s' one keeps run =>
    onePort_step (c := c) one keeps run
  obtain ⟨apiKey, rfl⟩ := start
  exact ⟨nofun, nofun, nofun⟩

end WorkerState

open WorkerState in
/-- **The copies of the port.**  As long as no restart falls over to another port under a
running metrics collector, every copy of the backend's port is the same; and the first
restart that does leaves the collector on the old one. -/
theorem ports_agree_iff {c : WorkerSettings} {s : WorkerState}
    (reached : (workerSystem c).ReachableBy KeepsPort s) :
    PortsAgree c s ∧
    ∀ e s', s.step c e = some s' → (PortsAgree c s' ↔ s.KeepsPort e) := by
  have one := onePort_of_reachable reached
  refine ⟨one.agree, fun e s' run => ⟨fun agree => ?_, fun keeps => ?_⟩⟩
  · rcases ports_step one run with ⟨-, keeps⟩ | ⟨taken, port, rfl, -, found, supervised, -, -,
      scraped⟩
    · exact keeps
    · obtain ⟨-, -, metrics⟩ := agree _ supervised
      cases scrapes : s.scrapedPort with
      | none => exact Or.inl scrapes
      | some p =>
        have moved : p = port := metrics p (scraped.trans scrapes)
        have stays : port = s.vllmPort := moved.symm.trans (one.metrics p scrapes)
        exact Or.inr (Or.inr (Or.inl (stays ▸ findFreePort_not_taken found)))
  · exact (onePort_step one keeps run).agree

/-- A backend exits and is restarted; `taken` are the ports in use by then. -/
def restartedRun (taken : Nat → Bool) : Option WorkerState :=
  (workerSystem oneRestart).run (.initial oneRestart none)
    [.register (.ok ⟨true, "n", 10, none, none, none, none⟩), .exit, .tick false .idle,
      .restart taken]

open WorkerState in
/-- On the port it had: the next step keeps the copies equal as well. -/
theorem ports_agree_iff_same_port :
    ∃ s, restartedRun (fun _ => false) = some s ∧ PortsAgree oneRestart s ∧
      ∀ e s', s.step oneRestart e = some s' → (PortsAgree oneRestart s' ↔ s.KeepsPort e) := by
  have waits : (restartedRun fun _ => false).isSome := by decide +kernel
  obtain ⟨s, ran⟩ := Option.isSome_iff_exists.mp waits
  have admitted : ∀ e ∈ [.register (.ok ⟨true, "n", 10, none, none, none, none⟩), .exit,
      .tick false .idle, .restart fun _ => false], ∀ s, KeepsPort s e := by
    simp [KeepsPort]
  have reached : (workerSystem oneRestart).ReachableBy KeepsPort s :=
    .run (.init ⟨none, rfl⟩) admitted ran
  exact ⟨s, ran, ports_agree_iff reached⟩

open WorkerState in
/-- On another port, the collector scrapes the old one. -/
theorem ports_disagree :
    ¬ ∀ (c : WorkerSettings) (s : WorkerState), (workerSystem c).Reachable s → PortsAgree c s := by
  have moved : ((restartedRun fun port => port = 7001).map fun s => (s.supervisor, s.scrapedPort)) =
      some (some ⟨7002, true⟩, some 7001) := by decide +kernel
  obtain ⟨s, ran, moved⟩ := Option.map_eq_some_iff.mp moved
  obtain ⟨supervised, scraped⟩ := Prod.mk.inj moved
  intro agree
  obtain ⟨-, -, metrics⟩ := agree oneRestart s (.of_run ⟨none, rfl⟩ ran) _ supervised
  have same : 7001 = 7002 := metrics 7001 scraped
  omega

end Oumigo
