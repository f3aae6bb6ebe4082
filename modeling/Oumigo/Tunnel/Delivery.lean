import Oumigo.Tunnel.Exclusive

/-!
# Which connections a hand-over can lose

`add` puts a connection into the future of a waiting caller and marks it
borrowed.  If the caller is interrupted before it runs again, `acquire` raises
and nobody parks the connection: it stays open and live and no caller has it.
`OnTime` excludes exactly that step.  Runs of `OnTime` steps keep every open live
connection with someone (`Inv.kept`), and each late interruption loses one
(`late_interrupt_loses`).
-/

namespace Oumigo

namespace TunnelState

/-- No caller is interrupted between the moment its future got a connection and
the moment it resumes. -/
def OnTime (s : TunnelState) (e : TunnelEvent) : Prop :=
  ∀ f cause, e = .interrupt f cause → ∀ c, ¬ s.Holds f c

/-- Call `f` returned connection `c`, or is about to. -/
def Delivers (s : TunnelState) (f : CallId) (c : ConnId) : Prop :=
  ∃ n, s.calls[f]? = some ⟨n, .returned c⟩ ∨
    s.calls[f]? = some ⟨n, .suspended (.resolved c)⟩

/-- Every open live connection is parked or with a caller that still runs. -/
def Kept (s : TunnelState) : Prop :=
  ∀ n, ∀ c ∈ s.reg.all n, s.reg.isClosed c = false →
    c ∈ s.reg.idle n ∨ ∃ f, s.Holds f c

/-- No caller was interrupted after it got a connection. -/
def NeverLate (s : TunnelState) : Prop :=
  ∀ f c, s.Holds f c → s.Delivers f c

variable {s s' : TunnelState} {e : TunnelEvent} {f g : CallId} {n : NodeId} {c : ConnId}

theorem holds_setCall_ne {call : Asyncio.Call ConnId} (other : g ≠ f) (holds : s.Holds g c) :
    (s.setCall f call).Holds g c := by
  obtain ⟨old, called, held⟩ := holds
  refine ⟨old, ?_, held⟩
  rw [getElem?_setCall, called, Option.map_some, if_neg other.symm]

theorem holds_setCall_self {call : Asyncio.Call ConnId} {old : TunnelCall}
    (called : s.calls[f]? = some old) (held : call.held? = some c) :
    (s.setCall f call).Holds f c :=
  ⟨_, by rw [getElem?_setCall, called, Option.map_some, if_pos rfl], held⟩

theorem delivers_setCall_ne {call : Asyncio.Call ConnId} (other : g ≠ f)
    (delivers : s.Delivers g c) : (s.setCall f call).Delivers g c := by
  obtain ⟨m, found | found⟩ := delivers
  · exact ⟨m, Or.inl (by rw [getElem?_setCall, found, Option.map_some, if_neg other.symm])⟩
  · exact ⟨m, Or.inr (by rw [getElem?_setCall, found, Option.map_some, if_neg other.symm])⟩

/-- A caller that raises had no connection, when none was interrupted late. -/
theorem NeverLate.not_holds_of_error (onTime : s.NeverLate) {m : NodeId}
    {w : Asyncio.WaitFor ConnId} {cause : Asyncio.Interrupt}
    (called : s.calls[f]? = some ⟨m, .suspended w⟩) (raised : w.resume = some (.error cause)) :
    ¬ s.Holds f c := by
  intro holds
  obtain ⟨k, found | found⟩ := onTime f c holds
  · cases called.symm.trans found
  · cases called.symm.trans found
    cases raised

/-- On time, a caller that was given a connection keeps it. -/
theorem NeverLate.holds_step (onTime : s.NeverLate) (guard : s.OnTime e)
    (run : s.step e = some s') (holds : s.Holds f c) : s'.Holds f c := by
  obtain ⟨old, called, held⟩ := holds
  cases e with
  | add m =>
    cases run
    rcases s.add_cases m with ⟨h, dropped, rest, k, -, pending, -, result⟩ | ⟨-, result⟩
    · rw [result]
      refine holds_setCall_ne ?_ ⟨old, called, held⟩
      rintro rfl
      exact pending.not_holds ⟨old, called, held⟩
    · rw [result]
      exact ⟨old, called, held⟩
  | acquire m =>
    cases run
    rcases s.acquire_cases m with ⟨d, dropped, rest, -, -, -, result⟩ | ⟨-, result⟩ <;>
    · rw [result]
      exact ⟨old, Deque.getElem?_append_of_some called, held⟩
  | resume h =>
    obtain ⟨m, w, found, ⟨d, resumed, rfl⟩ | ⟨cause, raised, rfl⟩⟩ := resume_cases run
    · by_cases same : f = h
      · subst same
        cases called.symm.trans found
        have result := Asyncio.WaitFor.result?_of_resume_ok resumed
        cases held.symm.trans result
        exact holds_setCall_self (s := s.leave m f) called rfl
      · exact holds_setCall_ne (s := s.leave m h) same ⟨old, called, held⟩
    · refine holds_setCall_ne (s := s.leave m h) ?_ ⟨old, called, held⟩
      rintro rfl
      exact onTime.not_holds_of_error found raised ⟨old, called, held⟩
  | interrupt h cause =>
    obtain ⟨m, w, -, rfl⟩ := interrupt_cases run
    refine holds_setCall_ne ?_ ⟨old, called, held⟩
    rintro rfl
    exact guard f cause rfl c ⟨old, called, held⟩
  | remove d =>
    obtain ⟨conn, -, rfl⟩ := Option.map_eq_some_iff.mp run
    exact ⟨old, called, held⟩
  | close d =>
    obtain ⟨conn, -, rfl⟩ := Option.map_eq_some_iff.mp run
    exact ⟨old, called, held⟩

theorem delivers_append {calls : List TunnelCall} (delivers : s.Delivers f c)
    (longer : s'.calls = s.calls ++ calls) : s'.Delivers f c := by
  obtain ⟨m, found | found⟩ := delivers
  · exact ⟨m, Or.inl (longer ▸ Deque.getElem?_append_of_some found)⟩
  · exact ⟨m, Or.inr (longer ▸ Deque.getElem?_append_of_some found)⟩

theorem NeverLate.step (onTime : s.NeverLate) (guard : s.OnTime e)
    (run : s.step e = some s') : s'.NeverLate := by
  intro g c holds
  cases e with
  | add m =>
    cases run
    rcases s.add_cases m with ⟨h, dropped, rest, k, -, pending, -, result⟩ | ⟨-, result⟩
    · rw [result] at holds ⊢
      rcases holds_setCall holds with ⟨other, before⟩ | ⟨rfl, held⟩
      · exact delivers_setCall_ne other (onTime g c before)
      · cases held
        exact ⟨k, Or.inr (getElem?_setCall.trans (by rw [pending]; simp))⟩
    · rw [result] at holds ⊢
      exact onTime g c holds
  | acquire m =>
    cases run
    rcases s.acquire_cases m with ⟨d, dropped, rest, -, -, -, result⟩ | ⟨-, result⟩
    · rw [result] at holds ⊢
      rcases holds_concat rfl holds with before | ⟨rfl, held⟩
      · exact delivers_append (onTime g c before) rfl
      · cases held
        exact ⟨m, Or.inl List.getElem?_concat_length⟩
    · rw [result] at holds ⊢
      rcases holds_concat rfl holds with before | ⟨rfl, held⟩
      · exact delivers_append (onTime g c before) rfl
      · cases held
  | resume h =>
    obtain ⟨m, w, found, ⟨d, resumed, rfl⟩ | ⟨cause, raised, rfl⟩⟩ := resume_cases run
    · rcases holds_setCall holds with ⟨other, before⟩ | ⟨rfl, held⟩
      · exact delivers_setCall_ne (s := s.leave m h) other (onTime g c before)
      · cases held
        exact ⟨m, Or.inl (getElem?_setCall.trans (by
          rw [show (s.leave m g).calls = s.calls from rfl, found]; simp))⟩
    · rcases holds_setCall holds with ⟨other, before⟩ | ⟨rfl, held⟩
      · exact delivers_setCall_ne (s := s.leave m h) other (onTime g c before)
      · cases held
  | interrupt h cause =>
    obtain ⟨m, w, found, rfl⟩ := interrupt_cases run
    rcases holds_setCall holds with ⟨other, before⟩ | ⟨rfl, held⟩
    · exact delivers_setCall_ne other (onTime g c before)
    · exact (guard g cause rfl c ⟨_, found, by simpa using held⟩).elim
  | remove d =>
    obtain ⟨conn, -, rfl⟩ := Option.map_eq_some_iff.mp run
    exact onTime g c holds
  | close d =>
    obtain ⟨conn, -, rfl⟩ := Option.map_eq_some_iff.mp run
    exact onTime g c holds

/-- On time, a step leaves every open live connection with someone: the caller it
is given to, the idle queue, or whoever had it. -/
theorem Inv.kept_step (inv : s.Inv) (onTime : s.NeverLate) (guard : s.OnTime e)
    (kept : s.Kept) (run : s.step e = some s') : s'.Kept := by
  intro n c live isOpen
  have holder : (∃ f, s.Holds f c) → ∃ f, s'.Holds f c := fun ⟨f, holds⟩ =>
    ⟨f, onTime.holds_step guard run holds⟩
  cases e with
  | add m =>
    cases run
    rcases s.add_cases m with ⟨h, dropped, rest, k, -, pending, -, result⟩ | ⟨-, result⟩
    · rw [result] at live isOpen holder ⊢
      rcases mem_update_concat.mp live with old | ⟨rfl, rfl⟩
      · obtain ⟨conn, found, -⟩ := inv.known n c old
        exact (kept n c old (TunnelRegistry.isClosed_concat found isOpen)).imp id holder
      · exact Or.inr ⟨h, holds_setCall_self pending rfl⟩
    · rw [result] at live isOpen holder ⊢
      rcases mem_update_concat.mp live with old | new
      · obtain ⟨conn, found, -⟩ := inv.known n c old
        exact (kept n c old (TunnelRegistry.isClosed_concat found isOpen)).imp
          (fun idle => mem_update_concat.mpr (Or.inl idle)) holder
      · exact Or.inl (mem_update_concat.mpr (Or.inr new))
  | acquire m =>
    cases run
    rcases s.acquire_cases m with ⟨d, dropped, rest, queue, -, skipped, result⟩ |
      ⟨skipped, result⟩
    · rw [result] at live isOpen holder ⊢
      have before : s.reg.isClosed c = false := (TunnelRegistry.isClosed_borrow).symm.trans isOpen
      rcases kept n c live before with idle | held
      · by_cases same : n = m
        · subst same
          rw [queue] at idle
          rcases List.mem_append.mp idle with popped | later
          · rw [skipped c popped] at before
            cases before
          · rcases List.mem_cons.mp later with rfl | later
            · exact Or.inr ⟨_, _, List.getElem?_concat_length, rfl⟩
            · refine Or.inl ?_
              change c ∈ Function.update s.reg.idle n rest n
              rw [Function.update_self]
              exact later
        · refine Or.inl ?_
          change c ∈ Function.update s.reg.idle m rest n
          rw [Function.update_of_ne same]
          exact idle
      · exact Or.inr (holder held)
    · rw [result] at live isOpen holder ⊢
      rcases kept n c live isOpen with idle | held
      · by_cases same : n = m
        · subst same
          have closed := skipped c idle
          rw [show s.reg.isClosed c = false from isOpen] at closed
          cases closed
        · refine Or.inl ?_
          change c ∈ Function.update s.reg.idle m [] n
          rw [Function.update_of_ne same]
          exact idle
      · exact Or.inr (holder held)
  | resume h =>
    obtain ⟨m, w, found, ⟨d, resumed, rfl⟩ | ⟨cause, raised, rfl⟩⟩ := resume_cases run <;>
      exact (kept n c live isOpen).imp id holder
  | interrupt h cause =>
    obtain ⟨m, w, found, rfl⟩ := interrupt_cases run
    exact (kept n c live isOpen).imp id holder
  | remove d =>
    obtain ⟨conn, -, rfl⟩ := Option.map_eq_some_iff.mp run
    refine (kept n c ((sublist_update List.erase_sublist n).subset live) isOpen).imp ?_ holder
    intro idle
    change c ∈ Function.update s.reg.all conn.nodeId _ n at live
    change c ∈ Function.update s.reg.idle conn.nodeId _ n
    by_cases same : n = conn.nodeId
    · subst same
      rw [Function.update_self] at live ⊢
      rw [if_neg (List.ne_nil_of_mem live)]
      have other := ((inv.all_nodup conn.nodeId).mem_erase_iff.mp live).1
      exact (List.mem_erase_of_ne other).mpr idle
    · rw [Function.update_of_ne same]
      exact idle
  | close d =>
    obtain ⟨conn, -, rfl⟩ := Option.map_eq_some_iff.mp run
    exact (kept n c live (TunnelRegistry.isClosed_of_close isOpen)).imp id holder

/-- Runs without a late interruption lose nothing. -/
theorem kept_of_onTime (reached : tunnelSystem.ReachableBy OnTime s) :
    s.Kept ∧ s.NeverLate := by
  have all := reached.invariant (I := fun t => t.Inv ∧ t.NeverLate ∧ t.Kept)
    (fun t start => ?_) fun t e t' ⟨inv, onTime, kept⟩ guard run =>
      ⟨inv.step run, onTime.step guard run, inv.kept_step onTime guard kept run⟩
  · exact ⟨all.2.2, all.2.1⟩
  · rw [show t = initial from start]
    exact ⟨inv_initial, fun _ _ ⟨_, found, _⟩ => (nomatch found), fun _ _ live => nomatch live⟩

/-- A late interruption loses the connection: once the caller has raised, it is
still live and open, but neither parked nor with any caller. -/
theorem Inv.late_interrupt_loses (inv : s.Inv) {s₁ s₂ : TunnelState}
    {cause : Asyncio.Interrupt} (holds : s.Holds f c) (late : s.interrupt f cause = some s₁)
    (raised : s₁.resume f = some s₂) : s₂.reg.all = s.reg.all ∧
      s₂.reg.isClosed c = s.reg.isClosed c ∧ (∀ n, c ∉ s₂.reg.idle n) ∧
      ∀ g, ¬ s₂.Holds g c := by
  have given := inv.holds_handed f c holds
  obtain ⟨m, w, called, rfl⟩ := interrupt_cases late
  obtain ⟨k, w', called', result⟩ := resume_cases raised
  rw [getElem?_setCall, called, Option.map_some, if_pos rfl] at called'
  cases called'
  obtain ⟨cause', outcome⟩ := w.resume_interrupt cause
  rcases result with ⟨d, resumed, -⟩ | ⟨cause'', -, rfl⟩
  · cases outcome.symm.trans resumed
  · refine ⟨rfl, rfl, fun n idle => inv.not_handed_of_idle (n := n) idle f given, ?_⟩
    intro g still
    rcases holds_setCall still with ⟨other, before⟩ | ⟨-, held⟩
    · rcases holds_setCall before with ⟨-, before⟩ | ⟨same, -⟩
      · have twice := inv.holds_handed g c before
        have distinct := List.inj_on_of_nodup_map inv.handed_nodup twice given rfl
        exact other (congrArg Prod.fst distinct)
      · exact other same
    · cases held

end TunnelState

open TunnelState in
/-- **No connection is lost in a hand-over that is on time.**  In every run whose
steps are all `OnTime`, each open live connection is parked, returned by an
`acquire` call or about to be returned by one, and a caller that was given a
connection does not raise.  The condition cannot be dropped: each late
interruption of a caller that holds a connection leaves it with nobody. -/
theorem tunnel_kept_of_onTime {s : TunnelState} (reached : tunnelSystem.Reachable s) :
    (tunnelSystem.ReachableBy OnTime s →
      (∀ n, ∀ c ∈ s.reg.all n, s.reg.isClosed c = false →
        c ∈ s.reg.idle n ∨ ∃ f, s.Delivers f c) ∧
      ∀ e s', s.OnTime e → s.step e = some s' → ∀ f c, s.Holds f c → s'.Holds f c) ∧
    ∀ s₁ s₂ f c cause, s.Holds f c → s.interrupt f cause = some s₁ → s₁.resume f = some s₂ →
      s₂.reg.all = s.reg.all ∧ s₂.reg.isClosed c = s.reg.isClosed c ∧
        (∀ n, c ∉ s₂.reg.idle n) ∧ ∀ g, ¬ s₂.Holds g c := by
  constructor
  · intro allOnTime
    obtain ⟨kept, onTime⟩ := kept_of_onTime allOnTime
    refine ⟨fun n c live isOpen => (kept n c live isOpen).imp id fun ⟨f, holds⟩ =>
      ⟨f, onTime f c holds⟩, fun e s' guard run f c holds => onTime.holds_step guard run holds⟩
  · intro s₁ s₂ f c cause holds late raised
    exact (inv_of_reachable reached).late_interrupt_loses holds late raised

/-- A caller waits, gets the connection that comes, and returns it. -/
theorem tunnel_kept_of_onTime_handover :
    ∃ s, (TunnelState.step ((TunnelState.initial.acquire "n").add "n") (.resume 0) = some s) ∧
      (0 ∈ s.reg.idle "n" ∨ ∃ f, s.Delivers f 0) := by
  have run : tunnelSystem.ReachableBy TunnelState.OnTime _ :=
    .step (e := .resume 0) (.step (e := .add "n") (.step (e := .acquire "n") (.init rfl)
      (fun _ _ other => nomatch other) rfl) (fun _ _ other => nomatch other) rfl)
      (fun _ _ other => nomatch other) rfl
  exact ⟨_, rfl, ((tunnel_kept_of_onTime run.reachable).1 run).1 "n" 0
    (List.mem_singleton.mpr rfl) rfl⟩

/-- The steps of a caller that times out after `add` has given it a connection. -/
def lateTimeout : List TunnelEvent :=
  [.acquire "n", .add "n", .interrupt 0 .timeout, .resume 0]

open TunnelState in
/-- After `lateTimeout` the node's only connection is live and open, and it is
neither parked nor with any caller. -/
theorem tunnel_conn_lost_by_late_timeout :
    ∃ s, tunnelSystem.run .initial lateTimeout = some s ∧ tunnelSystem.Reachable s ∧
      0 ∈ s.reg.all "n" ∧ s.reg.isClosed 0 = false ∧ 0 ∉ s.reg.idle "n" ∧
      ∀ f, ¬ s.Holds f 0 := by
  refine ⟨_, rfl, .of_run rfl (rfl : tunnelSystem.run .initial lateTimeout = _),
    List.mem_singleton.mpr rfl, rfl, List.not_mem_nil, ?_⟩
  rintro f ⟨call, called, held⟩
  match f with
  | 0 =>
    cases called
    cases held
  | f + 1 => cases called

end Oumigo
