import Oumigo.Auth.Spending
import Oumigo.Tunnel.Handover
import Oumigo.Tunnel.Revocation

/-!
# What a pass of the revocation loop leaves

While a node stays revoked and none of its handshakes is under way, nothing opens a
connection for it and nothing registers it (`Sealed`).  A pass that lists the node then
works its connections off (`Progress`); one that does not list it leaves them as they
are.
-/

namespace Oumigo

/-! ## The open connections of a node -/

namespace TunnelState

variable {t t' : TunnelState} {n : NodeId} {c : ConnId}

/-- An open connection of a node. -/
def Opens (t : TunnelState) (n : NodeId) (c : ConnId) : Prop :=
  c ∈ t.reg.all n ∧ t.reg.isClosed c = false

/-- Every open connection of the node was open before. -/
def NoNew (n : NodeId) (t t' : TunnelState) : Prop := ∀ c, t'.Opens n c → t.Opens n c

theorem connected_eq_zero : t.reg.connected n = 0 ↔ ∀ c, ¬ t.Opens n c := by
  unfold TunnelRegistry.connected Opens
  rw [List.countP_eq_zero]
  constructor
  · rintro closed c ⟨member, isOpen⟩
    have shut := closed c member
    rw [isOpen] at shut
    exact shut rfl
  · intro closed c member isOpen
    exact closed c ⟨member, by simpa using isOpen⟩

theorem NoNew.trans {t'' : TunnelState} (first : NoNew n t t') (second : NoNew n t' t'') :
    NoNew n t t'' := fun c opens => first c (second c opens)

theorem noNew_close (c : ConnId) : NoNew n t { t with reg := t.reg.close c } :=
  fun _ opens => ⟨opens.1, TunnelRegistry.isClosed_of_close opens.2⟩

theorem noNew_remove (c : ConnId) (m : NodeId) : NoNew n t { t with reg := t.reg.remove c m } := by
  intro d opens
  refine ⟨?_, opens.2⟩
  have member : d ∈ Function.update t.reg.all m ((t.reg.all m).erase c) n := opens.1
  by_cases same : n = m
  · subst same
    rw [Function.update_self] at member
    exact List.mem_of_mem_erase member
  · rw [Function.update_of_ne same] at member
    exact member

theorem noNew_add {m : NodeId} (inv : t.Inv) (other : n ≠ m) : NoNew n t (t.add m) := by
  intro c opens
  rcases t.add_cases m with ⟨f, -, rest, -, -, -, -, same⟩ | ⟨-, same⟩
  all_goals
    rw [same] at opens
    obtain ⟨member, isOpen⟩ := opens
    rcases mem_update_concat.mp member with old | ⟨rfl, -⟩
    · obtain ⟨conn, found, -⟩ := inv.known n c old
      exact ⟨old, TunnelRegistry.isClosed_concat found isOpen⟩
    · exact absurd rfl other

/-- Only a new connection of the node opens one. -/
theorem noNew_step {e : TunnelEvent} (inv : t.Inv) (run : t.step e = some t')
    (other : e ≠ .add n) : NoNew n t t' := by
  cases e with
  | add m =>
    cases run
    exact noNew_add inv fun same => other (congrArg _ same.symm)
  | remove c =>
    obtain ⟨conn, -, rfl⟩ := Option.map_eq_some_iff.mp run
    exact noNew_remove c conn.nodeId
  | acquire m =>
    cases run
    intro c opens
    rcases t.acquire_cases m with ⟨d, -, rest, -, -, -, same⟩ | ⟨-, same⟩
    · rw [same] at opens
      exact ⟨opens.1, TunnelRegistry.isClosed_borrow.symm.trans opens.2⟩
    · rw [same] at opens
      exact opens
  | resume f =>
    obtain ⟨m, w, -, ⟨c, -, rfl⟩ | ⟨cause, -, rfl⟩⟩ := resume_cases run
    · exact fun _ opens => opens
    · exact fun _ opens => opens
  | interrupt f cause =>
    obtain ⟨m, w, -, rfl⟩ := interrupt_cases run
    exact fun _ opens => opens
  | close c =>
    obtain ⟨conn, -, rfl⟩ := Option.map_eq_some_iff.mp run
    exact noNew_close c

theorem isClosed_close_self : (t.reg.close c).isClosed c = true := by
  unfold TunnelRegistry.isClosed
  rw [TunnelRegistry.getElem?_close]
  cases t.reg.conns[c]? with
  | none => rfl
  | some conn => simp

theorem isClosed_close_ne {d : ConnId} (other : d ≠ c) :
    (t.reg.close c).isClosed d = t.reg.isClosed d := by
  unfold TunnelRegistry.isClosed
  rw [TunnelRegistry.getElem?_close]
  cases t.reg.conns[d]? with
  | none => rfl
  | some conn => simp [other.symm]

/-! ## Closing one connection after another -/

theorem noNew_closeNext (conns : List ConnId) (n : NodeId) : NoNew n t (t.closeNext conns).1 := by
  induction conns with
  | nil => exact fun _ opens => opens
  | cons c conns ih =>
    unfold closeNext
    split
    · exact ih
    · exact noNew_close c

theorem Inv.closeNext (inv : t.Inv) (conns : List ConnId) : (t.closeNext conns).1.Inv := by
  induction conns with
  | nil => exact inv
  | cons c conns ih =>
    unfold TunnelState.closeNext
    split
    · exact ih
    · exact inv.close c

/-- What stays open is among the connections after. -/
theorem opens_closeNext {conns : List ConnId} (opens : (t.closeNext conns).1.Opens n c)
    (member : c ∈ conns) : ∃ later, (t.closeNext conns).2 = some later ∧ c ∈ later := by
  induction conns with
  | nil => cases member
  | cons d conns ih =>
    unfold closeNext at opens ⊢
    split
    · next shut =>
      rw [if_pos shut] at opens
      rcases List.mem_cons.mp member with rfl | later
      · have isOpen := (noNew_closeNext conns n c opens).2
        rw [shut] at isOpen
        cases isOpen
      · exact ih opens later
    · next isOpen =>
      rw [if_neg isOpen] at opens
      rcases List.mem_cons.mp member with rfl | later
      · have shut := opens.2.symm.trans isClosed_close_self
        cases shut
      · exact ⟨conns, rfl, later⟩

/-- Connections that are not in the list stay as they are. -/
theorem spared_closeNext {conns : List ConnId} (opens : t.Opens n c) (other : c ∉ conns) :
    (t.closeNext conns).1.Opens n c ∧ (t.closeNext conns).1.reg.all = t.reg.all ∧
      ∀ later, (t.closeNext conns).2 = some later → c ∉ later ∧ later.length < conns.length := by
  induction conns with
  | nil => exact ⟨opens, rfl, nofun⟩
  | cons d conns ih =>
    have ne : c ≠ d := List.ne_of_not_mem_cons other
    have rest : c ∉ conns := List.not_mem_of_not_mem_cons other
    unfold closeNext
    split
    · obtain ⟨stays, same, later⟩ := ih rest
      refine ⟨stays, same, fun conns' found => ?_⟩
      obtain ⟨absent, shorter⟩ := later conns' found
      exact ⟨absent, Nat.lt_succ_of_lt shorter⟩
    · refine ⟨⟨opens.1, (isClosed_close_ne ne).trans opens.2⟩, rfl, fun conns' found => ?_⟩
      cases found
      exact ⟨rest, Nat.lt_succ_self _⟩

end TunnelState

/-! ## Registrations of a revoked node -/

/-- An accepted registration found its node not revoked. -/
def FoundUnrevoked (_ : Option String) (call : WorkerCall) (after : List (Sigma Statement.Answer))
    (outcome : Except Python.Exn (Except HttpError Admitted)) : Prop :=
  ∀ req granted, call = .register req → outcome = .ok (.ok granted) →
    ⟨.isRevoked req.nodeId, false⟩ ∈ after

theorem mayRegister_unrevoked {auth : Authenticator} (header : Option String) (n : NodeId)
    (trace : List (Sigma Statement.Answer)) :
    (auth.mayRegister header n).Ends (fun after outcome =>
      outcome = .ok true → ⟨.isRevoked n, false⟩ ∈ after) trace := by
  unfold Authenticator.mayRegister
  intro revoked
  change Query.Ends _ (⟨.isRevoked n, revoked⟩ :: trace) (if revoked then _ else _)
  cases revoked with
  | true => exact nofun
  | false => exact (Query.Ends.grows _ _).mono fun _ _ longer _ => longer.subset List.mem_cons_self

theorem program_unrevoked (cfg : ControlConfig) (auth : Authenticator) (header : Option String)
    (call : WorkerCall) : (call.program cfg auth header).Ends (FoundUnrevoked header call) [] := by
  cases call with
  | spec profile model => exact (Query.Ends.grows _ _).mono fun _ _ _ req granted same => nomatch same
  | register req =>
    have refused {after : List (Sigma Statement.Answer)} :
        (WorkerCall.deny req.nodeId).Ends (FoundUnrevoked header (.register req)) after := by
      intro revoked req' granted _ denied
      cases denied
    change (WorkerCall.registerProgram cfg auth header req).Ends _ []
    unfold WorkerCall.registerProgram
    split
    · exact fun _ _ _ denied => nomatch denied
    · refine Query.Ends.bind ((Query.Ends.grows _ _).mono fun after outcome _ => ?_)
      cases outcome with
      | error e => exact fun _ _ _ denied => nomatch denied
      | ok reads =>
        dsimp only
        split
        · exact refused
        · cases cfg.checkProfile req with
          | error refusal => exact fun _ _ _ denied => nomatch denied
          | ok admitted =>
            refine Query.Ends.bind ((mayRegister_unrevoked header req.nodeId _).mono
              fun after outcome unrevoked => ?_)
            cases outcome with
            | error e => exact fun _ _ _ denied => nomatch denied
            | ok registers =>
              cases registers with
              | false => exact refused
              | true =>
                intro req' granted same _
                cases same
                exact unrevoked rfl

namespace RegistrationState

variable {cfg : ControlConfig} {auth : Authenticator} {s s' : RegistrationState} {n : NodeId}
  {e : RegistrationEvent}

/-- The node is revoked, and no call under way has found otherwise. -/
structure Barred (s : RegistrationState) (n : NodeId) : Prop where
  revoked : s.db.isNodeRevoked n = true
  calls : ∀ call ∈ s.calls, call.answered = false → ⟨.isRevoked n, false⟩ ∉ call.trace
  ends : ∀ call ∈ s.calls, call.rest.Ends (FoundUnrevoked call.header call.call) call.trace

theorem revoked_answer {stmt : Statement} {now : Rat} {db : AuthDb} :
    (AuthDb.answer now stmt db).2.isNodeRevoked n = db.isNodeRevoked n := by
  cases stmt <;> rfl

theorem Barred.step (barred : s.Barred n) (run : s.step cfg auth e = some s')
    (other : e ≠ .write (.unrevokeNode n)) : s'.Barred n := by
  have ends := ends_step (program_unrevoked cfg auth) barred.ends run
  cases e with
  | write op =>
    obtain ⟨db, done, rfl⟩ := Option.map_eq_some_iff.mp run
    have lasts := AuthDb.isNodeRevoked_apply done barred.revoked fun same =>
      other (congrArg _ same)
    exact ⟨lasts, barred.calls, ends⟩
  | advance index now =>
    obtain ⟨call, here, pending, rfl⟩ := step_advance_iff.mp run
    have clean := barred.calls call (List.mem_of_getElem? here) pending
    cases rest : call.rest with
    | ask stmt next =>
      rw [advance_ask rest] at ends ⊢
      refine ⟨revoked_answer.trans barred.revoked, fun later member open_ found => ?_, ends⟩
      rcases mem_set member with rfl | earlier
      · rcases List.mem_cons.mp found with now | old
        · cases stmt with
          | isRevoked m =>
            obtain ⟨same, answers⟩ := Sigma.mk.inj now
            cases same
            exact absurd ((eq_of_heq answers).trans barred.revoked) nofun
          | clock | peek | spend | unlimited => cases (Sigma.mk.inj now).1
        · exact clean old
      · exact barred.calls later earlier open_ found
    | done outcome =>
      rw [advance_done rest] at ends ⊢
      refine ⟨barred.revoked, fun later member pending => ?_, ends⟩
      rcases mem_set member with rfl | earlier
      · cases pending
      · exact barred.calls later earlier pending
  | call call header =>
    cases run
    refine ⟨barred.revoked, fun later member pending => ?_, ends⟩
    rcases List.mem_append.mp member with earlier | new
    · exact barred.calls later earlier pending
    · cases List.mem_singleton.mp new
      exact List.not_mem_nil
  | heartbeat | reap | remove =>
    cases run
    exact ⟨barred.revoked, barred.calls, ends⟩

/-- A revoked node is not registered. -/
theorem Barred.absent (barred : s.Barred n) (run : s.step cfg auth e = some s')
    (absent : s.reg.get n = none) : s'.reg.get n = none := by
  cases e with
  | write op =>
    obtain ⟨db, -, rfl⟩ := Option.map_eq_some_iff.mp run
    exact absent
  | call call header =>
    cases run
    exact absent
  | heartbeat req now =>
    cases run
    by_cases same : n = req.nodeId
    · subst same
      rw [Registry.get_heartbeat_self, absent]
      rfl
    · exact (Registry.get_heartbeat_ne same).trans absent
  | reap now timeout forgetAfter =>
    cases run
    rw [Registry.get_reap, absent]
    rfl
  | remove m =>
    cases run
    rw [Registry.get_remove]
    split
    · rfl
    · exact absent
  | advance index now =>
    obtain ⟨call, here, pending, rfl⟩ := step_advance_iff.mp run
    have member := List.mem_of_getElem? here
    cases rest : call.rest with
    | ask stmt next =>
      rw [advance_ask rest]
      exact absent
    | done outcome =>
      rw [advance_done rest]
      rcases outcome with e | refusal | granted
      · exact absent
      · exact absent
      · have unrevoked := barred.ends call member
        rw [rest] at unrevoked
        change (s.file now call.call granted).get n = none
        cases registers : call.call with
        | spec profile model => exact absent
        | register req =>
          have found := unrevoked req granted registers rfl
          have ne : n ≠ req.nodeId := by
            rintro rfl
            exact barred.calls call member pending found
          exact (Registry.get_register_ne ne).trans absent

end RegistrationState

/-! ## A pass -/

namespace RevocationLoop

variable {revoked : List NodeId} {reg : Registry} {tunnels : TunnelState} {n : NodeId}

/-- A pass registers nobody and opens nothing. -/
theorem visit_frame (n : NodeId) (revoked : List NodeId) (reg : Registry) (tunnels : TunnelState)
    (records : List NodeRecord) :
    (reg.get n = none → (visit revoked reg tunnels records).1.get n = none) ∧
    TunnelState.NoNew n tunnels (visit revoked reg tunnels records).2.1 ∧
    (tunnels.Inv → (visit revoked reg tunnels records).2.1.Inv) := by
  induction records generalizing reg tunnels with
  | nil => exact ⟨id, fun _ opens => opens, id⟩
  | cons record records ih =>
    unfold visit
    split
    · have closing := tunnels.noNew_closeNext (tunnels.reg.all record.nodeId) n
      have inv (before : tunnels.Inv) := before.closeNext (tunnels.reg.all record.nodeId)
      have absent (before : reg.get n = none) : (reg.remove record.nodeId).1.get n = none := by
        rw [Registry.get_remove]
        split
        · rfl
        · exact before
      dsimp only
      split
      · next tunnels' same =>
        rw [same] at closing inv
        obtain ⟨absent', noNew', inv'⟩ := ih (reg.remove record.nodeId).1 tunnels'
        exact ⟨fun before => absent' (absent before), closing.trans noNew',
          fun before => inv' (inv before)⟩
      · next tunnels' conns same =>
        rw [same] at closing inv
        exact ⟨absent, closing, inv⟩
    · exact ih reg tunnels

/-- The pass has the node before it, or has dropped it and has its open connections
before it. -/
def Ahead (n : NodeId) (reg : Registry) (tunnels : TunnelState) : RevocationLoop → Prop
  | .closing revoked records conns => n ∈ revoked ∧ ((∃ record ∈ records, record.nodeId = n) ∨
      (reg.get n = none ∧ ∀ c, tunnels.Opens n c → c ∈ conns))
  | _ => False

/-- A pass that has a revoked node before it does not end without cutting it. -/
theorem visit_ahead (reg : Registry) (tunnels : TunnelState) {records : List NodeRecord}
    (listed : n ∈ revoked)
    (before : ∃ record ∈ records, record.nodeId = n) :
    ((visit revoked reg tunnels records).1.get n = none ∧
      ∀ c, ¬ (visit revoked reg tunnels records).2.1.Opens n c) ∨
    Ahead n (visit revoked reg tunnels records).1 (visit revoked reg tunnels records).2.1
      (visit revoked reg tunnels records).2.2 := by
  induction records generalizing reg tunnels with
  | nil =>
    obtain ⟨record, member, -⟩ := before
    cases member
  | cons record records ih =>
    unfold visit
    by_cases here : record.nodeId = n
    · have dropped : (reg.remove record.nodeId).1.get n = none := by
        rw [Registry.get_remove, if_pos here.symm]
      have after {c : ConnId}
          (opens : (tunnels.closeNext (tunnels.reg.all record.nodeId)).1.Opens n c) :=
        TunnelState.opens_closeNext opens (here ▸ (TunnelState.noNew_closeNext _ n c opens).1)
      rw [if_pos (here ▸ listed)]
      dsimp only
      split
      · next tunnels' same =>
        rw [same] at after
        left
        obtain ⟨absent, noNew, -⟩ := visit_frame n revoked
          (reg.remove record.nodeId).1 tunnels' records
        refine ⟨absent dropped, fun c opens => ?_⟩
        obtain ⟨later, found, -⟩ := after (noNew c opens)
        cases found
      · next tunnels' conns same =>
        rw [same] at after
        refine Or.inr ⟨listed, Or.inr ⟨dropped, fun c opens => ?_⟩⟩
        obtain ⟨later, found, member⟩ := after opens
        cases found
        exact member
    · have later : ∃ record ∈ records, record.nodeId = n := by
        obtain ⟨other, member, same⟩ := before
        rcases List.mem_cons.mp member with rfl | member
        · exact absurd same here
        · exact ⟨other, member, same⟩
      split
      · dsimp only
        split
        · exact ih _ _ later
        · exact Or.inr ⟨listed, Or.inl later⟩
      · exact ih _ _ later

end RevocationLoop

namespace RevocationState

variable {cfg : ControlConfig} {auth : Authenticator} {s s' : RevocationState} {n : NodeId}
  {e : RevocationEvent}

/-- Nothing is left of the node. -/
def Cut (s : RevocationState) (n : NodeId) : Prop :=
  s.fleet.reg.get n = none ∧ s.connected n = 0

/-- The node is revoked, and no handshake that was let in before is under way. -/
structure Sealed (s : RevocationState) (n : NodeId) : Prop where
  barred : s.fleet.Barred n
  settled : .accepting n ∉ s.handshakes
  inv : s.tunnels.Inv

/-- What a step leaves of a node that it does not concern. -/
structure Frame (n : NodeId) (s s' : RevocationState) : Prop where
  absent : s.fleet.reg.get n = none → s'.fleet.reg.get n = none
  noNew : TunnelState.NoNew n s.tunnels s'.tunnels

theorem Frame.of_eq (fleet : s'.fleet = s.fleet) (tunnels : s'.tunnels = s.tunnels) :
    Frame n s s' := by
  refine ⟨fun absent => ?_, fun c opens => ?_⟩
  · rw [fleet]
    exact absent
  · rw [tunnels] at opens
    exact opens

theorem Frame.cut (frame : Frame n s s') (cut : s.Cut n) : s'.Cut n :=
  ⟨frame.absent cut.1, TunnelState.connected_eq_zero.mpr fun c opens =>
    TunnelState.connected_eq_zero.mp cut.2 c (frame.noNew c opens)⟩

/-- The checks of `/tunnel` let no revoked node in. -/
theorem mayTunnel_revoked {header : Option String} {now : Rat}
    (revoked : s.fleet.db.isNodeRevoked n = true) : s.mayTunnel cfg auth header now ≠ some n := by
  unfold mayTunnel
  have refused := (Authenticator.revoked_refused auth now header revoked).2.2
  split
  · next m named =>
    split
    · split
      · intro same
        cases same
        exact refused named
      · nofun
    · nofun
  · nofun

theorem act_fleet {e : RegistrationEvent} (run : s.act cfg auth (.fleet e) = some s') :
    ∃ fleet, s.fleet.step cfg auth e = some fleet ∧ s' = { s with fleet := fleet } := by
  have mapped (kept : ∀ m, e ≠ .remove m) : s.act cfg auth (.fleet e) =
      (s.fleet.step cfg auth e).map fun fleet => { s with fleet := fleet } := by
    cases e with
    | remove m => exact absurd rfl (kept m)
    | write | call | advance | heartbeat | reap => rfl
  have kept : ∀ m, e ≠ .remove m := by
    rintro m rfl
    cases run
  rw [mapped kept] at run
  obtain ⟨fleet, stepped, rfl⟩ := Option.map_eq_some_iff.mp run
  exact ⟨fleet, stepped, rfl⟩

theorem act_router {e : TunnelEvent} (run : s.act cfg auth (.router e) = some s') :
    ∃ tunnels, s.tunnels.step e = some tunnels ∧ (∀ m, e ≠ .add m) ∧
      s' = { s with tunnels := tunnels } := by
  have mapped (added : ∀ m, e ≠ .add m) (removed : ∀ c, e ≠ .remove c) :
      s.act cfg auth (.router e) =
        (s.tunnels.step e).map fun tunnels => { s with tunnels := tunnels } := by
    cases e with
    | add m => exact absurd rfl (added m)
    | remove c => exact absurd rfl (removed c)
    | acquire | resume | interrupt | close => rfl
  have added : ∀ m, e ≠ .add m := by
    rintro m rfl
    cases run
  have removed : ∀ c, e ≠ .remove c := by
    rintro c rfl
    cases run
  rw [mapped added removed] at run
  obtain ⟨tunnels, stepped, rfl⟩ := Option.map_eq_some_iff.mp run
  exact ⟨tunnels, stepped, added, rfl⟩

theorem act_of_step (run : s.step cfg auth e = some s') : s.act cfg auth e = some s' :=
  (Option.ite_none_left_eq_some.mp run).2

/-- The tunnel registry keeps its invariant under the endpoint and the loop. -/
theorem inv_step (inv : s.tunnels.Inv) (run : s.step cfg auth e = some s') : s'.tunnels.Inv := by
  have run := act_of_step run
  cases e with
  | fleet e =>
    obtain ⟨fleet, -, rfl⟩ := act_fleet run
    exact inv
  | router e =>
    obtain ⟨tunnels, stepped, -, rfl⟩ := act_router run
    exact inv.step stepped
  | tunnel header now welcome =>
    cases run
    exact inv
  | accepted index =>
    unfold act at run
    dsimp only at run
    split at run
    · next m _ =>
      cases run
      exact inv.add m
    · cases run
  | hangUp index =>
    unfold act at run
    dsimp only at run
    split at run
    · next conn _ =>
      split at run
      · next c _ =>
        cases run
        exact (inv.close conn).remove conn c.nodeId
      · cases run
    · cases run
  | pass =>
    unfold act at run
    dsimp only at run
    split at run
    · cases run
      exact (RevocationLoop.visit_frame "" _ _ _ _).2.2 inv
    · cases run
  | closed =>
    unfold act at run
    dsimp only at run
    split at run
    · next revoked records conns _ =>
      have inv' := inv.closeNext conns
      split at run
      · next tunnels same =>
        rw [same] at inv'
        cases run
        exact (RevocationLoop.visit_frame "" _ _ _ _).2.2 inv'
      · next tunnels later same =>
        rw [same] at inv'
        cases run
        exact inv'
    · cases run
  | rejected | closeFailed =>
    unfold act at run
    dsimp only at run
    split at run
    · cases run
      exact inv
    · cases run

/-- The loop runs on, from the tunnels as they are then. -/
theorem frame_settle {tunnels : TunnelState} (noNew : TunnelState.NoNew n s.tunnels tunnels)
    (revoked : List NodeId) (records : List NodeRecord) :
    Frame n s (s.settle (RevocationLoop.visit revoked s.fleet.reg tunnels records)) := by
  obtain ⟨absent, noNew', -⟩ := RevocationLoop.visit_frame n revoked s.fleet.reg tunnels
    records
  exact ⟨absent, noNew.trans noNew'⟩

/-- A step while the node is revoked. -/
theorem Sealed.step (isSealed : s.Sealed n) (run : s.step cfg auth e = some s')
    (other : e ≠ .fleet (.write (.unrevokeNode n))) : s'.Sealed n ∧ Frame n s s' := by
  obtain ⟨barred, settled, inv⟩ := isSealed
  have inv' := inv_step inv run
  have run := act_of_step run
  have barred_reg (reg : Registry) : RegistrationState.Barred { s.fleet with reg := reg } n :=
    ⟨barred.revoked, barred.calls, barred.ends⟩
  have later {index : Nat} {handshake : Handshake} (ne : handshake ≠ .accepting n) :
      .accepting n ∉ s.handshakes.set index handshake := fun member => by
    rcases List.mem_or_eq_of_mem_set member with earlier | new
    · exact settled earlier
    · exact ne new.symm
  cases e with
  | fleet e =>
    obtain ⟨fleet, stepped, rfl⟩ := act_fleet run
    have barred' := barred.step stepped fun same => other (congrArg _ same)
    exact ⟨⟨barred', settled, inv'⟩, barred.absent stepped, fun _ opens => opens⟩
  | router e =>
    obtain ⟨tunnels, stepped, added, rfl⟩ := act_router run
    exact ⟨⟨barred, settled, inv'⟩, id, TunnelState.noNew_step inv stepped (added n)⟩
  | tunnel header now welcome =>
    cases run
    refine ⟨⟨barred, fun member => ?_, inv'⟩, .of_eq rfl rfl⟩
    rcases List.mem_append.mp member with earlier | new
    · exact settled earlier
    · have new := List.mem_singleton.mp new
      split at new
      · next m may =>
        split at new
        · cases new
          exact mayTunnel_revoked barred.revoked may
        · cases new
      · cases new
  | accepted index =>
    unfold act at run
    dsimp only at run
    split at run
    · next m here =>
      cases run
      have ne : n ≠ m := by
        rintro rfl
        exact settled (List.mem_of_getElem? here)
      exact ⟨⟨barred, later nofun, inv'⟩, id, TunnelState.noNew_add inv ne⟩
    · cases run
  | rejected index =>
    unfold act at run
    dsimp only at run
    split at run
    · cases run
      exact ⟨⟨barred, later nofun, inv'⟩, .of_eq rfl rfl⟩
    · cases run
  | hangUp index =>
    unfold act at run
    dsimp only at run
    split at run
    · next conn here =>
      split at run
      · next c found =>
        cases run
        have closed := TunnelState.noNew_close (t := s.tunnels) (n := n) conn
        exact ⟨⟨barred, later nofun, inv'⟩, id,
          closed.trans (TunnelState.noNew_remove conn c.nodeId)⟩
      · cases run
    · cases run
  | pass =>
    unfold act at run
    dsimp only at run
    split at run
    · cases run
      exact ⟨⟨barred_reg _, settled, inv'⟩, frame_settle (fun _ opens => opens) _ _⟩
    · cases run
  | closed =>
    unfold act at run
    dsimp only at run
    split at run
    · next revoked records conns _ =>
      have closing := TunnelState.noNew_closeNext (t := s.tunnels) conns n
      split at run
      · next tunnels same =>
        rw [same] at closing
        cases run
        exact ⟨⟨barred_reg _, settled, inv'⟩, frame_settle closing _ _⟩
      · next tunnels later same =>
        rw [same] at closing
        cases run
        exact ⟨⟨barred, settled, inv'⟩, id, closing⟩
    · cases run
  | closeFailed =>
    unfold act at run
    dsimp only at run
    split at run
    · cases run
      exact ⟨⟨barred, settled, inv'⟩, .of_eq rfl rfl⟩
    · cases run

/-- Only the loop's own steps move it. -/
theorem loop_step (run : s.step cfg auth e = some s') (other : e ≠ .pass ∧ e ≠ .closed ∧
    e ≠ .closeFailed) : s'.loop = s.loop ∧ s'.passes = s.passes := by
  have run := act_of_step run
  cases e with
  | fleet e =>
    obtain ⟨fleet, -, rfl⟩ := act_fleet run
    exact ⟨rfl, rfl⟩
  | router e =>
    obtain ⟨tunnels, -, -, rfl⟩ := act_router run
    exact ⟨rfl, rfl⟩
  | tunnel header now welcome =>
    cases run
    exact ⟨rfl, rfl⟩
  | accepted index | rejected index =>
    unfold act at run
    dsimp only at run
    split at run
    · cases run
      exact ⟨rfl, rfl⟩
    · cases run
  | hangUp index =>
    unfold act at run
    dsimp only at run
    split at run
    · split at run
      · cases run
        exact ⟨rfl, rfl⟩
      · cases run
    · cases run
  | pass => exact absurd rfl other.1
  | closed => exact absurd rfl other.2.1
  | closeFailed => exact absurd rfl other.2.2

/-! ## From a pass on -/

/-- The node is cut, or the pass that began at `passes` still has it before it; or the
loop died in it. -/
def Progress (n : NodeId) (passes : Nat) (s : RevocationState) : Prop :=
  s.Cut n ∨ s.passes = passes ∧ (RevocationLoop.Ahead n s.fleet.reg s.tunnels s.loop ∨
    s.loop = .ended)

theorem progress_settle {tunnels : TunnelState} {revoked : List NodeId} {records : List NodeRecord}
    (listed : n ∈ revoked) (before : ∃ record ∈ records, record.nodeId = n) :
    Progress n s.passes (s.settle (RevocationLoop.visit revoked s.fleet.reg tunnels records)) := by
  rcases RevocationLoop.visit_ahead s.fleet.reg tunnels listed before with
    ⟨absent, closed⟩ | ahead
  · exact Or.inl ⟨absent, TunnelState.connected_eq_zero.mpr closed⟩
  · refine Or.inr ⟨if_neg fun through => ?_, Or.inl ahead⟩
    rw [through] at ahead
    exact ahead

theorem Progress.step {passes : Nat} (progress : Progress n passes s) (isSealed : s.Sealed n)
    (run : s.step cfg auth e = some s') (other : e ≠ .fleet (.write (.unrevokeNode n))) :
    Progress n passes s' := by
  obtain ⟨-, frame⟩ := isSealed.step run other
  rcases progress with cut | ⟨same, ahead⟩
  · exact Or.inl (frame.cut cut)
  · subst same
    by_cases own : e ≠ .pass ∧ e ≠ .closed ∧ e ≠ .closeFailed
    · obtain ⟨loop, count⟩ := loop_step run own
      refine Or.inr ⟨count, ?_⟩
      rw [loop]
      refine ahead.imp_left fun ahead => ?_
      cases before : s.loop with
      | sleeping | ended =>
        rw [before] at ahead
        cases ahead
      | closing revoked records conns =>
        rw [before] at ahead
        obtain ⟨listed, later | ⟨absent, left⟩⟩ := ahead
        · exact ⟨listed, Or.inl later⟩
        · exact ⟨listed, Or.inr ⟨frame.absent absent, fun c opens => left c (frame.noNew c opens)⟩⟩
    · have run := act_of_step run
      cases e with
      | pass =>
        unfold act at run
        dsimp only at run
        split at run
        · next sleeping =>
          rw [sleeping] at ahead
          rcases ahead with ahead | ended
          · cases ahead
          · cases ended
        · cases run
      | closeFailed =>
        unfold act at run
        dsimp only at run
        split at run
        · cases run
          exact Or.inr ⟨rfl, Or.inr rfl⟩
        · cases run
      | closed =>
        unfold act at run
        dsimp only at run
        split at run
        · next revoked records conns closing =>
          rw [closing] at ahead
          obtain ⟨listed, before⟩ := ahead.resolve_right nofun
          have after {c : ConnId} (opens : (s.tunnels.closeNext conns).1.Opens n c) :=
            TunnelState.noNew_closeNext conns n c opens
          split at run
          · next tunnels same =>
            cases run
            rcases before with later | ⟨absent, left⟩
            · exact progress_settle listed later
            · obtain ⟨absent', noNew, -⟩ := RevocationLoop.visit_frame n revoked s.fleet.reg
                tunnels records
              refine Or.inl ⟨absent' absent, TunnelState.connected_eq_zero.mpr fun c opens => ?_⟩
              have opens' : (s.tunnels.closeNext conns).1.Opens n c := same ▸ noNew c opens
              obtain ⟨rest, found, -⟩ := TunnelState.opens_closeNext opens' (left c (after opens'))
              rw [same] at found
              cases found
          · next tunnels later same =>
            cases run
            refine Or.inr ⟨rfl, Or.inl ⟨listed, before.imp_right fun ⟨absent, left⟩ => ?_⟩⟩
            refine ⟨absent, fun c opens => ?_⟩
            have opens' : (s.tunnels.closeNext conns).1.Opens n c := same ▸ opens
            obtain ⟨rest, found, member⟩ :=
              TunnelState.opens_closeNext opens' (left c (after opens'))
            rw [same] at found
            cases found
            exact member
        · cases run
      | fleet | router | tunnel | accepted | rejected | hangUp =>
        exact absurd ⟨nofun, nofun, nofun⟩ own

theorem cut_of_run {passes : Nat} {events : List RevocationEvent} (progress : Progress n passes s)
    (isSealed : s.Sealed n) (run : (revocationSystem cfg auth).run s events = some s')
    (others : ∀ e ∈ events, e ≠ .fleet (.write (.unrevokeNode n))) (completed : passes < s'.passes) :
    s'.Cut n := by
  induction events generalizing s with
  | nil =>
    cases run
    rcases progress with cut | ⟨same, -⟩
    · exact cut
    · omega
  | cons e events ih =>
    obtain ⟨next, first, rest⟩ := Option.bind_eq_some_iff.mp run
    have other := others e List.mem_cons_self
    exact ih (progress.step isSealed first other) (isSealed.step first other).1 rest
      fun e member => others e (List.mem_cons_of_mem _ member)

/-! ## A node the pass does not list -/

/-- A connection that no node before the pass has. -/
def Spared (n : NodeId) (c : ConnId) (s : RevocationState) : Prop :=
  s.tunnels.Opens n c ∧ ∀ m, m ≠ n → c ∉ s.tunnels.reg.all m

theorem visit_spared (revoked : List NodeId) (reg : Registry) {tunnels : TunnelState}
    {records : List NodeRecord} {c : ConnId} (opens : tunnels.Opens n c)
    (foreign : ∀ m, m ≠ n → c ∉ tunnels.reg.all m)
    (absent : ∀ record ∈ records, record.nodeId ≠ n) :
    (RevocationLoop.visit revoked reg tunnels records).2.1.Opens n c ∧
    (RevocationLoop.visit revoked reg tunnels records).2.1.reg.all = tunnels.reg.all ∧
    ((RevocationLoop.visit revoked reg tunnels records).2.2 = .sleeping ∨
      ∃ later conns, (RevocationLoop.visit revoked reg tunnels records).2.2 =
        .closing revoked later conns ∧ later.length < records.length ∧ c ∉ conns ∧
        ∀ record ∈ later, record.nodeId ≠ n) := by
  induction records generalizing reg tunnels with
  | nil => exact ⟨opens, rfl, Or.inl rfl⟩
  | cons record records ih =>
    have rest : ∀ record ∈ records, record.nodeId ≠ n :=
      fun record member => absent record (List.mem_cons_of_mem _ member)
    have shorter {loop : RevocationLoop}
        (inner : loop = .sleeping ∨ ∃ later conns, loop = .closing revoked later conns ∧
          later.length < records.length ∧ c ∉ conns ∧ ∀ record ∈ later, record.nodeId ≠ n) :
        loop = .sleeping ∨ ∃ later conns, loop = .closing revoked later conns ∧
          later.length < (record :: records).length ∧ c ∉ conns ∧
          ∀ record ∈ later, record.nodeId ≠ n := by
      refine inner.imp_right fun ⟨later, conns, found, fewer, others⟩ => ?_
      exact ⟨later, conns, found, Nat.lt_succ_of_lt fewer, others⟩
    unfold RevocationLoop.visit
    split
    · obtain ⟨stays, same, later⟩ := TunnelState.spared_closeNext opens
        (foreign record.nodeId (absent record List.mem_cons_self))
      dsimp only
      split
      · next tunnels' closed =>
        rw [closed] at stays same
        obtain ⟨opens', all, inner⟩ := ih _ stays (same ▸ foreign) rest
        exact ⟨opens', all.trans same, shorter inner⟩
      · next tunnels' conns closed =>
        rw [closed] at stays same later
        refine ⟨stays, same, Or.inr ⟨records, conns, rfl, Nat.lt_succ_self _, ?_, rest⟩⟩
        exact (later conns rfl).1
    · obtain ⟨opens', all, inner⟩ := ih _ opens foreign rest
      exact ⟨opens', all, shorter inner⟩

theorem step_closed (free : s.free = true) : s.step cfg auth .closed = s.act cfg auth .closed := by
  unfold step
  rw [free]
  rfl

variable (cfg auth) in
/-- The loop can run on to the end of its pass, and leaves a spared connection open. -/
theorem drain {s : RevocationState} {revoked : List NodeId} {records : List NodeRecord}
    {conns : List ConnId} {c : ConnId} (free : s.free = true)
    (closing : s.loop = .closing revoked records conns)
    (spared : Spared n c s) (other : c ∉ conns) (absent : ∀ record ∈ records, record.nodeId ≠ n) :
    ∃ events s', (revocationSystem cfg auth).run s events = some s' ∧
      (∀ e ∈ events, e = .closed) ∧ s.passes < s'.passes ∧ s'.tunnels.Opens n c := by
  obtain ⟨opens, foreign⟩ := spared
  obtain ⟨stays, same, left⟩ := TunnelState.spared_closeNext opens other
  have continued {s₁ : RevocationState} {events : List RevocationEvent} {s' : RevocationState}
      (first : s.act cfg auth .closed = some s₁)
      (rest : (revocationSystem cfg auth).run s₁ events = some s') :
      (revocationSystem cfg auth).run s (.closed :: events) = some s' :=
    Option.bind_eq_some_iff.mpr ⟨s₁, (step_closed free).trans first, rest⟩
  have own {events : List RevocationEvent} (all : ∀ e ∈ events, e = .closed) :
      ∀ e ∈ .closed :: events, e = RevocationEvent.closed := List.forall_mem_cons.mpr ⟨rfl, all⟩
  cases next : s.tunnels.closeNext conns with
  | mk tunnels result =>
    rw [next] at stays same left
    dsimp only at stays same left
    cases result with
    | some later =>
      obtain ⟨absent', shorter⟩ := left later rfl
      have first : s.act cfg auth .closed =
          some { s with tunnels := tunnels, loop := .closing revoked records later } := by
        unfold act
        rw [closing]
        dsimp only
        rw [next]
      obtain ⟨events, s', run, all, more, open_⟩ := drain
        (s := { s with tunnels := tunnels, loop := .closing revoked records later })
        free rfl ⟨stays, same ▸ foreign⟩ absent' absent
      exact ⟨.closed :: events, s', continued first run, own all, more, open_⟩
    | none =>
      have first : s.act cfg auth .closed =
          some (s.settle (RevocationLoop.visit revoked s.fleet.reg tunnels records)) := by
        unfold act
        rw [closing]
        dsimp only
        rw [next]
      obtain ⟨opens', all', inner⟩ := visit_spared revoked s.fleet.reg stays (same ▸ foreign) absent
      rcases inner with through | ⟨rest, conns', ahead, fewer, other', absent'⟩
      · have nothing : ∀ e ∈ [], e = RevocationEvent.closed := fun _ member => nomatch member
        refine ⟨[.closed], _, continued first rfl, own nothing, ?_, opens'⟩
        have count : (s.settle (RevocationLoop.visit revoked s.fleet.reg tunnels records)).passes =
            s.passes + 1 := if_pos through
        rw [count]
        exact Nat.lt_succ_self _
      · have count : (s.settle (RevocationLoop.visit revoked s.fleet.reg tunnels records)).passes =
            s.passes := if_neg (by rw [ahead]; nofun)
        obtain ⟨events, s', run, all, more, open_⟩ := drain
          (s := s.settle (RevocationLoop.visit revoked s.fleet.reg tunnels records))
          free ahead ⟨opens', (all'.trans same) ▸ foreign⟩ other' absent'
        exact ⟨.closed :: events, s', continued first run, own all, count ▸ more, open_⟩
termination_by (records.length, conns.length)

/-! ## Revocation -/

/-- The tunnels' own sections leave the calls alone. -/
theorem calls_act (run : s.act cfg auth e = some s') (other : ∀ e', e ≠ .fleet e') :
    s'.fleet.calls = s.fleet.calls := by
  cases e with
  | fleet e => exact absurd rfl (other e)
  | router e =>
    obtain ⟨tunnels, -, -, rfl⟩ := act_router run
    rfl
  | tunnel header now welcome =>
    cases run
    rfl
  | accepted | rejected | pass | closeFailed =>
    unfold act at run
    dsimp only at run
    split at run
    · cases run
      rfl
    · cases run
  | hangUp | closed =>
    unfold act at run
    dsimp only at run
    split at run
    · split at run
      all_goals
        cases run
        try rfl
    · cases run

theorem base_of_reachable (reached : (revocationSystem cfg auth).Reachable s) :
    s.tunnels.Inv ∧
    ∀ call ∈ s.fleet.calls, call.rest.Ends (FoundUnrevoked call.header call.call) call.trace := by
  refine reached.invariant (I := fun s => s.tunnels.Inv ∧ ∀ call ∈ s.fleet.calls,
    call.rest.Ends (FoundUnrevoked call.header call.call) call.trace) ?_ ?_
  · rintro s ⟨⟨-, -, calls, -⟩, tunnels, -⟩
    rw [tunnels, calls]
    exact ⟨TunnelState.inv_initial, fun _ member => nomatch member⟩
  · rintro s e s' ⟨inv, ends⟩ - run
    refine ⟨inv_step inv run, ?_⟩
    have run := act_of_step run
    by_cases other : ∀ e', e ≠ .fleet e'
    · rw [calls_act run other]
      exact ends
    · obtain ⟨e', same⟩ := not_forall.mp other
      cases not_not.mp same
      obtain ⟨fleet, stepped, rfl⟩ := act_fleet run
      exact RegistrationState.ends_step (program_unrevoked cfg auth) ends stepped

/-- When a section begins, no other is at a statement. -/
theorem sealed_of_free (reached : (revocationSystem cfg auth).Reachable s)
    (revoked : s.fleet.db.isNodeRevoked n = true) (settled : .accepting n ∉ s.handshakes)
    (free : s.free = true) : s.Sealed n := by
  obtain ⟨inv, ends⟩ := base_of_reachable reached
  refine ⟨⟨revoked, fun call member pending => ?_, ends⟩, settled, inv⟩
  have answered := List.all_eq_true.mp free call member
  rw [pending] at answered
  cases answered

/-- After the pass that begins with the step to `s₁` has completed, nothing is left of the
node, whatever else happens, as long as the node stays revoked. -/
def CutsAfter (cfg : ControlConfig) (auth : Authenticator) (n : NodeId)
    (s s₁ : RevocationState) : Prop :=
  ∀ events s₂, (revocationSystem cfg auth).run s₁ events = some s₂ →
    (∀ e ∈ events, e ≠ .fleet (.write (.unrevokeNode n))) → s.passes < s₂.passes → s₂.Cut n

theorem pass_of_step {s₁ : RevocationState} (begun : s.step cfg auth .pass = some s₁) :
    s.free = true ∧ s₁ = s.settle
      (RevocationLoop.visit s.fleet.db.revoked s.fleet.reg s.tunnels s.fleet.reg.list) := by
  obtain ⟨guard, run⟩ := Option.ite_none_left_eq_some.mp begun
  refine ⟨by simpa [begins] using guard, ?_⟩
  unfold act at run
  dsimp only at run
  split at run
  · exact (Option.some.inj run).symm
  · cases run

/-- A pass that does not list the node may complete and leave its connections open. -/
theorem not_cutsAfter {s₁ : RevocationState} {c : ConnId} (inv : s.tunnels.Inv)
    (begun : s.step cfg auth .pass = some s₁) (absent : s.fleet.reg.get n = none)
    (opens : s.tunnels.Opens n c) : ¬ CutsAfter cfg auth n s s₁ := by
  obtain ⟨free, rfl⟩ := pass_of_step begun
  intro cuts
  have unlisted : ∀ record ∈ s.fleet.reg.list, record.nodeId ≠ n := by
    rintro record member rfl
    rw [Registry.mem_list.mp member] at absent
    cases absent
  have foreign : ∀ m, m ≠ n → c ∉ s.tunnels.reg.all m :=
    fun m other member => other (inv.node_unique member opens.1)
  obtain ⟨opens', same, inner⟩ := visit_spared s.fleet.db.revoked s.fleet.reg opens foreign
    unlisted
  have stays {s₂ : RevocationState} (cut : s₂.Cut n) : ¬ s₂.tunnels.Opens n c :=
    TunnelState.connected_eq_zero.mp cut.2 c
  rcases inner with through | ⟨later, conns, ahead, -, other, absent'⟩
  · refine stays (cuts [] _ rfl (fun _ member => nomatch member) ?_) opens'
    have count : (s.settle (RevocationLoop.visit s.fleet.db.revoked s.fleet.reg s.tunnels
        s.fleet.reg.list)).passes = s.passes + 1 := if_pos through
    rw [count]
    exact Nat.lt_succ_self _
  · have count : (s.settle (RevocationLoop.visit s.fleet.db.revoked s.fleet.reg s.tunnels
        s.fleet.reg.list)).passes = s.passes := if_neg (by rw [ahead]; nofun)
    obtain ⟨events, s₂, run, own, more, isOpen⟩ := drain cfg auth
      (s := s.settle (RevocationLoop.visit s.fleet.db.revoked s.fleet.reg s.tunnels
        s.fleet.reg.list)) free ahead ⟨opens', same ▸ foreign⟩ other absent'
    rw [count] at more
    refine stays (cuts events s₂ run (fun e member => ?_) more) isOpen
    rw [own e member]
    nofun

end RevocationState

open RevocationState in
/-- **A pass cuts a revoked node exactly when it lists the node, or nothing is open.**
The handshakes that were let in before the revocation are over when the pass begins. -/
theorem revocation_cuts_iff {cfg : ControlConfig} {auth : Authenticator} {n : NodeId}
    {s s₁ : RevocationState} (reached : (revocationSystem cfg auth).Reachable s)
    (revoked : s.fleet.db.isNodeRevoked n = true) (settled : .accepting n ∉ s.handshakes)
    (begun : s.step cfg auth .pass = some s₁) :
    CutsAfter cfg auth n s s₁ ↔ (s.fleet.reg.get n).isSome = true ∨ s.connected n = 0 := by
  obtain ⟨free, rest⟩ := pass_of_step begun
  have isSealed := sealed_of_free reached revoked settled free
  constructor
  · intro cuts
    by_contra neither
    obtain ⟨absent, some⟩ := not_or.mp neither
    have opened : ∃ c, s.tunnels.Opens n c := by
      by_contra closed
      exact some (TunnelState.connected_eq_zero.mpr (not_exists.mp closed))
    obtain ⟨c, opens⟩ := opened
    exact not_cutsAfter isSealed.inv begun (by simpa using absent) opens cuts
  · intro holds events s₂ run others completed
    obtain ⟨sealed₁, frame⟩ := isSealed.step begun nofun
    suffices Progress n s.passes s₁ from cut_of_run this sealed₁ run others completed
    cases found : s.fleet.reg.get n with
    | none =>
      rw [found] at holds
      exact Or.inl (frame.cut ⟨found, holds.resolve_left nofun⟩)
    | some record =>
      rw [rest]
      have node := Registry.get_nodeId found
      have listed : record ∈ s.fleet.reg.list := Registry.mem_list.mpr (node ▸ found)
      exact progress_settle (Dict.mem_keys.mpr revoked) ⟨record, listed, node⟩

/-- A manager that just started. -/
def freshManager : RevocationState :=
  ⟨⟨⟨[], [], .empty⟩, .empty, [], []⟩, .initial, [], .sleeping, 0⟩

/-- A worker registers and opens a tunnel. -/
def opensTunnel : List RevocationEvent :=
  [.fleet (.call (.register { joins "n1" with transport := .tunnel })
      (some "Bearer fleet-secret")),
    .fleet (.advance 0 1), .fleet (.advance 0 1),
    .tunnel (some ("Bearer " ++ zeroSecret.nodeToken "n1")) 1 true, .accepted 0]

open Authenticator in
/-- A registered worker's own token opens its tunnel. -/
theorem RevocationState.step_tunnel_own {cfg : ControlConfig} {auth : Authenticator}
    {s : RevocationState} {n : NodeId} {record : NodeRecord} {now : Rat} (id : TokenId n)
    (free : s.free = true) (unrevoked : s.fleet.db.isNodeRevoked n = false)
    (registered : s.fleet.reg.get n = some record)
    (tunnelled : (cfg.tunnelEnabled && record.transport = .tunnel) = true) :
    s.step cfg auth (.tunnel (some ("Bearer " ++ auth.digests.nodeToken n)) now true) =
      some { s with handshakes := s.handshakes ++ [.accepting n] } := by
  have valid : ((auth.tunnelNode (some ("Bearer " ++ auth.digests.nodeToken n))).exec
      (AuthDb.answer now) s.fleet.db).1 = .ok (some n) := by
    unfold tunnelNode
    rw [exec_validNode, bearer_nodeToken]
    dsimp only
    rw [nodeFromToken_nodeToken auth id]
    simp [Except.map, Option.filter_some, unrevoked]
  have may : s.mayTunnel cfg auth (some ("Bearer " ++ auth.digests.nodeToken n)) now = some n := by
    unfold mayTunnel
    rw [valid]
    dsimp only
    rw [registered]
    exact if_pos tunnelled
  unfold RevocationState.step
  rw [if_neg (by simp [free])]
  simp [act, may]

/-- The manager once the worker has registered. -/
def registeredManager : RevocationState :=
  ((revocationSystem gemmaFleet (customAuth "fleet-secret")).run freshManager
    (opensTunnel.take 3)).getD freshManager

/-- The manager once the tunnel is open. -/
def openedManager : RevocationState :=
  { registeredManager with
    tunnels := registeredManager.tunnels.add "n1"
    handshakes := [.pumping 0] }

theorem run_opensTunnel (more : List RevocationEvent) :
    (revocationSystem gemmaFleet (customAuth "fleet-secret")).run freshManager
        (opensTunnel ++ more) =
      (revocationSystem gemmaFleet (customAuth "fleet-secret")).run openedManager more := by
  have registers : (revocationSystem gemmaFleet (customAuth "fleet-secret")).run freshManager
      (opensTunnel.take 3) = some registeredManager := by
    refine (Option.some_get ?_).symm.trans (congrArg some (Option.get_eq_getD _))
    decide +kernel
  have record : ∃ record, registeredManager.fleet.reg.get "n1" = some record ∧
      record.transport = .tunnel := by
    have found : (registeredManager.fleet.reg.get "n1").map (·.transport) = some .tunnel := by
      decide +kernel
    exact Option.map_eq_some_iff.mp found
  obtain ⟨record, registered, tunnel⟩ := record
  have opens : registeredManager.step gemmaFleet (customAuth "fleet-secret")
      (.tunnel (some ("Bearer " ++ zeroSecret.nodeToken "n1")) 1 true) =
      some { registeredManager with
        handshakes := registeredManager.handshakes ++ [.accepting "n1"] } := by
    have free : registeredManager.free = true := by decide +kernel
    have unrevoked : registeredManager.fleet.db.isNodeRevoked "n1" = false := by decide +kernel
    have enabled : (gemmaFleet.tunnelEnabled && record.transport = .tunnel) = true := by
      rw [tunnel]
      decide
    exact RevocationState.step_tunnel_own ⟨by decide, by decide⟩ free unrevoked registered enabled
  have accepts : (revocationSystem gemmaFleet (customAuth "fleet-secret")).run registeredManager
      [.tunnel (some ("Bearer " ++ zeroSecret.nodeToken "n1")) 1 true, .accepted 0] =
      some openedManager := by
    have none_ : registeredManager.handshakes = [] := by decide +kernel
    have first : registeredManager.tunnels.reg.conns.length = 0 := by decide +kernel
    have free : registeredManager.free = true := by decide +kernel
    simp only [Transition.System.run, revocationSystem]
    rw [opens, Option.bind_some]
    simp [RevocationState.step, RevocationState.act, RevocationState.free, none_, openedManager,
      first]
    intro _
    exact List.all_eq_true.mp free
  have split : opensTunnel ++ more = opensTunnel.take 3 ++
      ([.tunnel (some ("Bearer " ++ zeroSecret.nodeToken "n1")) 1 true, .accepted 0] ++ more) := rfl
  rw [split, Transition.System.run_append, registers, Option.bind_some,
    Transition.System.run_append, accepts, Option.bind_some]

/-- After more events, a pass begins on a manager that has revoked the node. -/
theorem reached_openedManager (more : List RevocationEvent) (listed : Bool)
    (ran : ((revocationSystem gemmaFleet (customAuth "fleet-secret")).run openedManager more).map
      (fun s => (s.connected "n1", (s.fleet.reg.get "n1").isSome, s.fleet.db.isNodeRevoked "n1",
        s.handshakes, (s.step gemmaFleet (customAuth "fleet-secret") .pass).isSome)) =
      some (1, listed, true, [.pumping 0], true)) :
    ∃ s s₁, (revocationSystem gemmaFleet (customAuth "fleet-secret")).Reachable s ∧
      s.connected "n1" = 1 ∧ (s.fleet.reg.get "n1").isSome = listed ∧
      s.fleet.db.isNodeRevoked "n1" = true ∧ .accepting "n1" ∉ s.handshakes ∧
      s.step gemmaFleet (customAuth "fleet-secret") .pass = some s₁ := by
  obtain ⟨s, run, same⟩ := Option.map_eq_some_iff.mp ran
  obtain ⟨opened, rest⟩ := Prod.mk.inj same
  obtain ⟨listed, rest⟩ := Prod.mk.inj rest
  obtain ⟨revoked, rest⟩ := Prod.mk.inj rest
  obtain ⟨handshakes, begins⟩ := Prod.mk.inj rest
  obtain ⟨s₁, begun⟩ := Option.isSome_iff_exists.mp begins
  have settled : .accepting "n1" ∉ s.handshakes := by
    rw [handshakes]
    decide
  rw [← run_opensTunnel] at run
  have reached := Transition.System.ReachableBy.of_run (M := revocationSystem gemmaFleet
    (customAuth "fleet-secret")) ⟨⟨rfl, rfl, rfl, rfl⟩, rfl, rfl, rfl, rfl⟩ run
  exact ⟨s, s₁, reached, opened, listed, revoked, settled, begun⟩

theorem revocation_cuts_iff_listed : ∃ s s₁,
    s.connected "n1" = 1 ∧ (s.fleet.reg.get "n1").isSome = true ∧
    RevocationState.CutsAfter gemmaFleet (customAuth "fleet-secret") "n1" s s₁ := by
  obtain ⟨s, s₁, reached, opened, listed, revoked, settled, begun⟩ :=
    reached_openedManager [.fleet (.write (.revokeNode "n1" 2))] true (by decide +kernel)
  exact ⟨s, s₁, opened, listed, (revocation_cuts_iff reached revoked settled begun).mpr
    (Or.inl listed)⟩

/-- The reaper forgets a worker that keeps its tunnel open; the pass after its revocation
does not list it. -/
theorem revocation_misses_forgotten :
    ¬ ∀ (cfg : ControlConfig) (auth : Authenticator) (n : NodeId) (s s₁ : RevocationState),
      (revocationSystem cfg auth).Reachable s → s.fleet.db.isNodeRevoked n = true →
      .accepting n ∉ s.handshakes → s.step cfg auth .pass = some s₁ →
      RevocationState.CutsAfter cfg auth n s s₁ := by
  intro cuts
  obtain ⟨s, s₁, reached, opened, unlisted, revoked, settled, begun⟩ :=
    reached_openedManager
      [.fleet (.reap 1000 30 300), .fleet (.write (.revokeNode "n1" 1001))] false
      (by decide +kernel)
  have some : s.tunnels.reg.connected "n1" ≠ 0 := by
    have opened : s.tunnels.reg.connected "n1" = 1 := opened
    omega
  obtain ⟨c, opens⟩ := not_forall_not.mp fun none => some (TunnelState.connected_eq_zero.mpr none)
  have inv := (RevocationState.base_of_reachable reached).1
  have absent : s.fleet.reg.get "n1" = none := by simpa using unlisted
  exact RevocationState.not_cutsAfter inv begun absent opens
    (cuts _ _ _ s s₁ reached revoked settled begun)

end Oumigo
