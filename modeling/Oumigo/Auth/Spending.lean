import Oumigo.Auth.Authorization
import Oumigo.Auth.JoinTokens

/-!
# What registrations spend, over every run

A call only adds to its trace and keeps the outcome it ended with (`Onward`), so what
its last state says is said of all its steps.  A revoked row stays in the database as it
is, so it authorizes nothing after.
-/

namespace Oumigo

/-- A call that ended without being granted anything: an error response, or an
exception. -/
def CallState.Refused (call : CallState) : Prop :=
  ∃ outcome, call.rest = .done outcome ∧ ∀ granted, outcome ≠ .ok (.ok granted)

/-- An accepted `/register`. -/
def CallState.Accepted (call : CallState) (req : RegisterRequest) : Prop :=
  call.call = .register req ∧ ∃ granted, call.rest = .done (.ok (.ok granted))

/-- An accepted `/register` that a join token authorized. -/
def CallState.admittedBy (hash : String) (call : CallState) : Bool :=
  match call.call, call.rest with
  | .register _, .done (.ok (.ok _)) => hash ∈ (grantedAlong call.trace).map Prod.fst
  | _, _ => false

theorem CallState.accepted_of_admittedBy {hash : String} {call : CallState}
    (admitted : call.admittedBy hash = true) :
    ∃ req, call.Accepted req ∧ ∃ time, (hash, time) ∈ grantedAlong call.trace := by
  unfold admittedBy at admitted
  split at admitted
  · next req granted registers ended =>
    obtain ⟨⟨_, time⟩, member, rfl⟩ := List.mem_map.mp (of_decide_eq_true admitted)
    exact ⟨req, ⟨registers, granted, ended⟩, time, member⟩
  · cases admitted

/-- A later state of a call. -/
structure CallState.Onward (c later : CallState) : Prop where
  call : later.call = c.call
  header : later.header = c.header
  trace : c.trace <:+ later.trace
  ended : ∀ outcome, c.rest = .done outcome → later.rest = .done outcome

theorem CallState.Onward.refl (call : CallState) : call.Onward call :=
  ⟨rfl, rfl, List.suffix_refl _, fun _ ended => ended⟩

theorem CallState.Onward.trans {c₁ c₂ c₃ : CallState} (first : c₁.Onward c₂)
    (second : c₂.Onward c₃) : c₁.Onward c₃ :=
  ⟨second.call.trans first.call, second.header.trans first.header,
    first.trace.trans second.trace,
    fun outcome ended => second.ended outcome (first.ended outcome ended)⟩

namespace RegistrationState

variable {cfg : ControlConfig} {auth : Authenticator} {s s' : RegistrationState}

/-- The accepted registrations that a token authorized. -/
def authorized (s : RegistrationState) (hash : String) : Nat := s.calls.countP (·.admittedBy hash)

/-- Only a finite-use join token admits the caller: the fleet is not open, and the
credential is neither the reusable token nor the node's own token. -/
def OnlyFinite (auth : Authenticator) (s : RegistrationState) (header : Option String)
    (nodeId : NodeId) (token : String) : Prop :=
  auth.enforced = true ∧ auth.isReusable (bearer header) = .ok false ∧
  bearer header = some token ∧ auth.nodeFromToken token ≠ .ok (some nodeId) ∧
  ∃ row ∈ s.minted, row.tokenHash = auth.digests.hash token ∧ row.usesLeft ≠ none

/-! ## Calls only go on -/

theorem onward_set {index i : Nat} {call call' : CallState} {calls : List CallState}
    (here : calls[index]? = some call) (onward : call.Onward call') {c : CallState}
    (found : calls[i]? = some c) : ∃ c', (calls.set index call')[i]? = some c' ∧ c.Onward c' := by
  by_cases same : index = i
  · subst same
    cases here.symm.trans found
    obtain ⟨inside, -⟩ := List.getElem?_eq_some_iff.mp found
    exact ⟨call', List.getElem?_set_self inside, onward⟩
  · refine ⟨c, ?_, .refl c⟩
    rw [List.getElem?_set_ne same]
    exact found

theorem onward_advance {index : Nat} {now : Rat} {call : CallState}
    (here : s.calls[index]? = some call) {i : Nat} {c : CallState} (found : s.calls[i]? = some c) :
    ∃ c', (s.advance index now call).calls[i]? = some c' ∧ c.Onward c' := by
  cases rest : call.rest with
  | ask stmt next =>
    rw [advance_ask rest]
    have onward : call.Onward (s.asked now call stmt next) :=
      ⟨rfl, rfl, List.suffix_cons _ _, fun outcome ended => nomatch rest.symm.trans ended⟩
    exact onward_set here onward found
  | done outcome =>
    rw [advance_done rest]
    have onward : call.Onward { call with answered := true } :=
      ⟨rfl, rfl, List.suffix_refl _, fun _ ended => ended⟩
    exact onward_set here onward found

theorem step_advance_iff {index : Nat} {now : Rat} :
    s.step cfg auth (.advance index now) = some s' ↔
      ∃ call, s.calls[index]? = some call ∧ call.answered = false ∧
        s' = s.advance index now call := by
  unfold step
  dsimp only
  cases here : s.calls[index]? with
  | none => exact ⟨nofun, fun ⟨_, found, _⟩ => nomatch found⟩
  | some call =>
    dsimp only
    constructor
    · intro run
      obtain ⟨pending, next⟩ := Option.ite_none_left_eq_some.mp run
      exact ⟨call, rfl, (Bool.not_eq_true _).mp pending, (Option.some.inj next).symm⟩
    · rintro ⟨other, same, pending, rfl⟩
      cases same
      rw [pending]
      rfl

/-- What holds of every end of a program holds of the calls under way. -/
theorem ends_step {P : Option String → WorkerCall → List (Sigma Statement.Answer) →
      Except Python.Exn (Except HttpError Admitted) → Prop}
    (starts : ∀ header (call : WorkerCall), (call.program cfg auth header).Ends (P header call) [])
    (all : ∀ call ∈ s.calls, call.rest.Ends (P call.header call.call) call.trace)
    {e : RegistrationEvent} (run : s.step cfg auth e = some s') :
    ∀ call ∈ s'.calls, call.rest.Ends (P call.header call.call) call.trace := by
  cases e with
  | advance index now =>
    obtain ⟨call, here, -, rfl⟩ := step_advance_iff.mp run
    have ends := all call (List.mem_of_getElem? here)
    cases rest : call.rest with
    | ask stmt next =>
      rw [rest] at ends
      rw [advance_ask rest]
      intro other member
      rcases mem_set member with rfl | earlier
      · exact ends _
      · exact all other earlier
    | done outcome =>
      rw [advance_done rest]
      intro other member
      rcases mem_set member with rfl | earlier
      · exact ends
      · exact all other earlier
  | call call header =>
    cases run
    intro other member
    rcases List.mem_append.mp member with earlier | new
    · exact all other earlier
    · cases List.mem_singleton.mp new
      exact starts header call
  | write op =>
    obtain ⟨db, -, rfl⟩ := Option.map_eq_some_iff.mp run
    exact all
  | heartbeat | reap | remove =>
    cases run
    exact all

theorem onward_step {e : RegistrationEvent} (run : s.step cfg auth e = some s') {i : Nat}
    {c : CallState} (found : s.calls[i]? = some c) : ∃ c', s'.calls[i]? = some c' ∧ c.Onward c' := by
  cases e with
  | advance index now =>
    obtain ⟨call, here, -, rfl⟩ := step_advance_iff.mp run
    exact onward_advance here found
  | call call header =>
    cases run
    obtain ⟨inside, -⟩ := List.getElem?_eq_some_iff.mp found
    refine ⟨c, ?_, .refl c⟩
    exact (List.getElem?_append_left inside).trans found
  | write op =>
    obtain ⟨db, -, rfl⟩ := Option.map_eq_some_iff.mp run
    exact ⟨c, found, .refl c⟩
  | heartbeat | reap | remove =>
    cases run
    exact ⟨c, found, .refl c⟩

theorem onward_run {events : List RegistrationEvent}
    (run : (registrationSystem cfg auth).run s events = some s') {i : Nat} {c : CallState}
    (found : s.calls[i]? = some c) :
    ∃ c', s'.calls[i]? = some c' ∧ c.Onward c' := by
  induction events generalizing s c with
  | nil =>
    cases run
    exact ⟨c, found, .refl c⟩
  | cons e events ih =>
    obtain ⟨next, first, later⟩ := Option.bind_eq_some_iff.mp run
    obtain ⟨c₁, found₁, onward₁⟩ := onward_step first found
    obtain ⟨c₂, found₂, onward₂⟩ := ih later found₁
    exact ⟨c₂, found₂, onward₁.trans onward₂⟩

/-! ## Refused, and read -/

theorem spentAlong_of_refused {call : CallState} (inv : Inv cfg auth s) (member : call ∈ s.calls)
    (refused : call.Refused) : spentAlong call.trace = [] := by
  obtain ⟨outcome, ended, denied⟩ := refused
  have fate := inv.calls call member
  rw [ended] at fate
  change Fate cfg auth call.header call.call call.trace outcome at fate
  unfold Fate at fate
  split at fate
  · exact absurd rfl (denied _)
  · exact fate.1

/-- A step of a call that is refused in the end changes nothing. -/
theorem unchanged {i : Nat} {now : Rat} {s₁ s₂ : RegistrationState}
    {events : List RegistrationEvent} {call : CallState}
    (reached : (registrationSystem cfg auth).Reachable s)
    (step : s.step cfg auth (.advance i now) = some s₁)
    (run : (registrationSystem cfg auth).run s₁ events = some s₂) (found : s₂.calls[i]? = some call)
    (refused : call.Refused) : s₁.reg = s.reg ∧ s₁.db = s.db := by
  have next : (registrationSystem cfg auth).Reachable s₁ :=
    .step (e := .advance i now) reached trivial step
  have after : (registrationSystem cfg auth).Reachable s₂ := next.run (fun _ _ _ => trivial) run
  have nothing :=
    spentAlong_of_refused (inv_of_reachable after) (List.mem_of_getElem? found) refused
  obtain ⟨c, here, -, rfl⟩ := step_advance_iff.mp step
  obtain ⟨inside, -⟩ := List.getElem?_eq_some_iff.mp here
  cases rest : c.rest with
  | ask stmt next =>
    rw [advance_ask rest] at run ⊢
    refine ⟨rfl, answer_quiet ?_⟩
    obtain ⟨later, found', onward⟩ := onward_run run (List.getElem?_set_self inside)
    cases found.symm.trans found'
    obtain ⟨new, trace⟩ := onward.trace
    rw [← trace] at nothing
    exact List.filterMap_eq_nil_iff.mp nothing _ (List.mem_append_right _ List.mem_cons_self)
  | done outcome =>
    rw [advance_done rest] at run ⊢
    refine ⟨?_, rfl⟩
    obtain ⟨later, found', onward⟩ := onward_run run (List.getElem?_set_self inside)
    cases found.symm.trans found'
    obtain ⟨outcome', ended, denied⟩ := refused
    cases ended.symm.trans (onward.ended outcome rest)
    rcases outcome with e | refusal | granted
    · rfl
    · rfl
    · exact absurd rfl (denied granted)

/-- What has spent nothing at every end has spent nothing yet. -/
theorem spentAlong_of_ends {trace : List (Sigma Statement.Answer)} {m : CallM}
    (ends : m.Ends (fun after _ => spentAlong after = []) trace) : spentAlong trace = [] := by
  induction m generalizing trace with
  | done outcome => exact ends
  | ask stmt next ih =>
    have answer : stmt.Answer := by
      cases stmt with
      | clock => exact 0
      | peek | spend | unlimited | isRevoked => exact false
    have longer := ih answer (ends answer)
    exact List.filterMap_eq_nil_iff.mpr fun entry member =>
      List.filterMap_eq_nil_iff.mp longer entry (List.mem_cons_of_mem _ member)

theorem spentAlong_of_spec {call : CallState} {profile model : Option String}
    (inv : Inv cfg auth s) (member : call ∈ s.calls) (spec : call.call = .spec profile model) :
    spentAlong call.trace = [] := by
  have ends := inv.calls call member
  rw [spec] at ends
  exact spentAlong_of_ends (ends.mono fun _ _ fate => fate.1)

/-! ## Accepted -/

theorem minted_unique (inv : Inv cfg auth s) {row row' : JoinTokenRow} (left : row ∈ s.minted)
    (right : row' ∈ s.minted) (same : row.tokenHash = row'.tokenHash) : row = row' :=
  List.inj_on_of_nodup_map inv.unique left right same

theorem kept_of_minted (inv : Inv cfg auth s) {row : JoinTokenRow} (member : row ∈ s.minted) :
    ∃ left ∈ s.db.joinTokens, Kept s row left :=
  exists_of_forall₂ inv.rows.flip member

/-- A token that a call spent has a finite number of uses. -/
theorem finite_of_spent {call : CallState} {hash : String} (inv : Inv cfg auth s)
    (member : call ∈ s.calls) (spent : hash ∈ spentAlong call.trace) :
    ∃ row ∈ s.minted, row.tokenHash = hash ∧ row.usesLeft ≠ none := by
  obtain ⟨time, granted⟩ := grantedAlong_of_spent spent
  obtain ⟨row, from_minted, rfl, -⟩ := inv.grants call member _ granted
  refine ⟨row, from_minted, rfl, fun endless => ?_⟩
  obtain ⟨left, -, kept⟩ := kept_of_minted inv from_minted
  have none_spent := List.sum_eq_zero_iff_forall_eq_nat.mp (kept.endless endless) _
    (List.mem_map.mpr ⟨call, member, rfl⟩)
  exact List.count_eq_zero.mp none_spent spent

theorem fate_of_accepted {call : CallState} {req : RegisterRequest} (inv : Inv cfg auth s)
    (member : call ∈ s.calls) (accepted : call.Accepted req) :
    (spentAlong call.trace = [] ∧ Free auth call.header req.nodeId call.trace) ∨
      Paid auth call.header req.nodeId call.trace := by
  obtain ⟨registers, granted, ended⟩ := accepted
  have fate := inv.calls call member
  rw [ended, registers] at fate
  exact fate.2

theorem not_onlyFinite_of_free {call : CallState} {n : NodeId} {token : String}
    (inv : Inv cfg auth s) (member : call ∈ s.calls)
    (free : Free auth call.header n call.trace) : ¬ OnlyFinite auth s call.header n token := by
  rintro ⟨enforced, custom, presented, foreign, row, from_minted, same, finite⟩
  rcases free with ⟨opened, -⟩ | ⟨reusable, -⟩ | ⟨own, shown, reads, -⟩ |
    ⟨shown, time, presented', found, -⟩
  · exact absurd (enforced.symm.trans opened) nofun
  · exact absurd (custom.symm.trans reusable) nofun
  · cases presented.symm.trans shown
    exact foreign reads
  · cases presented.symm.trans presented'
    obtain ⟨row', from_minted', same', endless⟩ := inv.unlimited call member _ _ found
    cases minted_unique inv from_minted from_minted' (same.trans same'.symm)
    exact finite endless

/-- An accepted registration spends one use if only a finite-use token admits it, and
none otherwise. -/
theorem spent_of_accepted {call : CallState} {req : RegisterRequest} (inv : Inv cfg auth s)
    (member : call ∈ s.calls) (accepted : call.Accepted req) :
    (∃ token, OnlyFinite auth s call.header req.nodeId token ∧
      spentAlong call.trace = [auth.digests.hash token]) ∨
    (∀ token, ¬ OnlyFinite auth s call.header req.nodeId token) ∧ spentAlong call.trace = [] := by
  rcases fate_of_accepted inv member accepted with ⟨nothing, free⟩ | paid
  · exact Or.inr ⟨fun token => not_onlyFinite_of_free inv member free, nothing⟩
  · obtain ⟨enforced, custom, token, time, presented, foreign, -, spent, -⟩ := paid
    have finite := finite_of_spent inv member (spent ▸ List.mem_singleton_self _)
    exact Or.inl ⟨token, ⟨enforced, custom, presented, foreign, finite⟩, spent⟩

/-- What authorized a registration had been looked up before its expiry. -/
theorem fresh_of_accepted {call : CallState} {req : RegisterRequest} {hash : String} {time : Rat}
    (inv : Inv cfg auth s) (member : call ∈ s.calls) (accepted : call.Accepted req)
    (granted : (hash, time) ∈ grantedAlong call.trace) :
    ⟨.clock, time⟩ ∈ call.trace ∧
      ∃ row ∈ s.minted, row.tokenHash = hash ∧
        ∀ expiry, row.expiresAt = some expiry → time < expiry := by
  refine ⟨?_, inv.grants call member _ granted⟩
  rcases fate_of_accepted inv member accepted with
    ⟨-, ⟨-, none⟩ | ⟨-, none⟩ | ⟨-, -, -, none⟩ | ⟨_, now, -, -, read, one⟩⟩ |
    ⟨-, -, _, now, -, -, read, -, one⟩
  · exact absurd (none ▸ granted) List.not_mem_nil
  · exact absurd (none ▸ granted) List.not_mem_nil
  · exact absurd (none ▸ granted) List.not_mem_nil
  · cases List.mem_singleton.mp (one ▸ granted)
    exact read
  · cases List.mem_singleton.mp (one ▸ granted)
    exact read

/-- A token authorizes no more registrations than it was minted with uses. -/
theorem authorized_le {row : JoinTokenRow} {uses : Int} (inv : Inv cfg auth s)
    (member : row ∈ s.minted) (finite : row.usesLeft = some uses) :
    s.authorized row.tokenHash ≤ uses.toNat := by
  have paid : ∀ call ∈ s.calls, call.admittedBy row.tokenHash = true →
      1 ≤ (spentAlong call.trace).count row.tokenHash := by
    intro call from_calls admitted
    obtain ⟨req, accepted, time, granted⟩ := CallState.accepted_of_admittedBy admitted
    rcases fate_of_accepted inv from_calls accepted with
      ⟨-, ⟨-, none⟩ | ⟨-, none⟩ | ⟨-, -, -, none⟩ | ⟨token, now, -, found, -, one⟩⟩ |
      ⟨-, -, token, now, -, -, -, spent, one⟩
    · exact absurd (none ▸ granted) List.not_mem_nil
    · exact absurd (none ▸ granted) List.not_mem_nil
    · exact absurd (none ▸ granted) List.not_mem_nil
    · have same := congrArg Prod.fst (List.mem_singleton.mp (one ▸ granted))
      obtain ⟨row', from_minted', same', endless⟩ := inv.unlimited call from_calls _ _ found
      cases minted_unique inv member from_minted' (same.trans same'.symm)
      exact absurd (finite.symm.trans endless) nofun
    · have same := congrArg Prod.fst (List.mem_singleton.mp (one ▸ granted))
      rw [spent, show row.tokenHash = auth.digests.hash token from same,
        List.count_singleton_self]
  obtain ⟨left, -, kept⟩ := kept_of_minted inv member
  have counted : s.authorized row.tokenHash ≤ s.uses row.tokenHash := countP_le_sum paid
  have bound := kept.bound uses finite
  omega

/-! ## Revoked -/

theorem not_usable_of_revoked {hash : String} {now : Rat} {row : JoinTokenRow}
    (revoked : row.revoked = true) : row.usable hash now = false := by
  unfold JoinTokenRow.usable
  rw [revoked]
  simp

theorem mem_answer {stmt : Statement} {now : Rat} {db : AuthDb} {row : JoinTokenRow}
    (member : row ∈ db.joinTokens) (revoked : row.revoked = true) :
    row ∈ (AuthDb.answer now stmt db).2.joinTokens := by
  cases stmt with
  | spend hash time =>
    refine List.mem_map.mpr ⟨row, member, if_neg ?_⟩
    unfold AuthDb.spends
    rw [not_usable_of_revoked revoked]
    exact nofun
  | clock | peek | isRevoked | unlimited => exact member

theorem mem_apply {op : AuthOp} {db db' : AuthDb} {row : JoinTokenRow}
    (member : row ∈ db.joinTokens) (revoked : row.revoked = true)
    (done : db.apply op = some db') : row ∈ db'.joinTokens := by
  cases op with
  | createJoinToken =>
    obtain ⟨-, written⟩ := Option.ite_none_right_eq_some.mp done
    cases written
    exact List.mem_append_left _ member
  | revokeJoinToken id =>
    cases done
    refine List.mem_map.mpr ⟨row, member, ?_⟩
    split
    · rw [← revoked]
    · rfl
  | createApiKey =>
    obtain ⟨-, written⟩ := Option.ite_none_right_eq_some.mp done
    cases written
    exact member
  | revokeApiKey | revokeNode | unrevokeNode =>
    cases done
    exact member

/-- A revoked row stays as it is. -/
theorem mem_step {e : RegistrationEvent} {row : JoinTokenRow} (member : row ∈ s.db.joinTokens)
    (revoked : row.revoked = true) (run : s.step cfg auth e = some s') :
    row ∈ s'.db.joinTokens := by
  cases e with
  | write op =>
    obtain ⟨db, done, rfl⟩ := Option.map_eq_some_iff.mp run
    exact mem_apply member revoked done
  | advance index now =>
    obtain ⟨call, -, -, rfl⟩ := step_advance_iff.mp run
    cases rest : call.rest with
    | ask stmt next =>
      rw [advance_ask rest]
      exact mem_answer member revoked
    | done outcome =>
      rw [advance_done rest]
      exact member
  | call | heartbeat | reap | remove =>
    cases run
    exact member

theorem grants_set {index : Nat} {call : CallState} (reg : Registry) (db : AuthDb)
    (call' : CallState) (here : s.calls[index]? = some call) (hash : String) :
    RegistrationState.grants { s with db := db, reg := reg, calls := s.calls.set index call' } hash +
      ((grantedAlong call.trace).map Prod.fst).count hash =
    s.grants hash + ((grantedAlong call'.trace).map Prod.fst).count hash :=
  sum_map_set here

theorem grants_step {e : RegistrationEvent} {row : JoinTokenRow} (inv : Inv cfg auth s)
    (member : row ∈ s.db.joinTokens) (revoked : row.revoked = true)
    (run : s.step cfg auth e = some s') : s'.grants row.tokenHash = s.grants row.tokenHash := by
  cases e with
  | advance index now =>
    obtain ⟨call, here, -, rfl⟩ := step_advance_iff.mp run
    cases rest : call.rest with
    | done outcome =>
      rw [advance_done rest]
      exact Nat.add_right_cancel (grants_set (s.filed now call.call outcome) s.db
        { call with answered := true } here row.tokenHash)
    | ask stmt next =>
      have counted := grants_set s.reg (AuthDb.answer now stmt s.db).2
        (s.asked now call stmt next) here row.tokenHash
      rw [advance_ask rest]
      have same : ((grantedAlong (s.asked now call stmt next).trace).map Prod.fst).count
          row.tokenHash = ((grantedAlong call.trace).map Prod.fst).count row.tokenHash := by
        unfold asked grantedAlong
        dsimp only
        cases granted : Statement.granted ⟨stmt, (AuthDb.answer now stmt s.db).1⟩ with
        | none => rw [List.filterMap_cons_none granted]
        | some g =>
          rw [List.filterMap_cons_some granted, List.map_cons]
          refine List.count_cons_of_ne fun same => ?_
          obtain ⟨row', member', usable⟩ := usable_of_granted granted
          have paid := (JoinTokenRow.usable_iff.mp usable).1
          cases row_unique inv member' member (paid.trans same)
          rw [not_usable_of_revoked revoked] at usable
          cases usable
      omega
  | call call header =>
    cases run
    unfold grants
    simp [grantedAlong]
  | write op =>
    obtain ⟨db, -, rfl⟩ := Option.map_eq_some_iff.mp run
    rfl
  | heartbeat | reap | remove =>
    cases run
    rfl

/-- A revoked token authorizes nothing after. -/
theorem grants_run {events : List RegistrationEvent} {row : JoinTokenRow} (inv : Inv cfg auth s)
    (member : row ∈ s.db.joinTokens) (revoked : row.revoked = true)
    (run : (registrationSystem cfg auth).run s events = some s') :
    s'.grants row.tokenHash = s.grants row.tokenHash := by
  induction events generalizing s with
  | nil =>
    cases run
    rfl
  | cons e events ih =>
    obtain ⟨next, first, later⟩ := Option.bind_eq_some_iff.mp run
    have rest := ih (inv_step inv first) (mem_step member revoked first) later
    exact rest.trans (grants_step inv member revoked first)

end RegistrationState

/-! ## The discipline -/

open RegistrationState in
/-- What holds of a state of the fleet, and of every run from there. -/
structure RegistrationDiscipline (cfg : ControlConfig) (auth : Authenticator)
    (s : RegistrationState) : Prop where
  /-- no step of a call that is refused changes the registry or the database -/
  refused : ∀ i now s₁ events s₂ call, s.step cfg auth (.advance i now) = some s₁ →
    (registrationSystem cfg auth).run s₁ events = some s₂ → s₂.calls[i]? = some call →
    call.Refused → s₁.reg = s.reg ∧ s₁.db = s.db
  accepted : ∀ call ∈ s.calls, ∀ req, call.Accepted req →
    (∃ token, OnlyFinite auth s call.header req.nodeId token ∧
      spentAlong call.trace = [auth.digests.hash token]) ∨
    (∀ token, ¬ OnlyFinite auth s call.header req.nodeId token) ∧ spentAlong call.trace = []
  spec : ∀ call ∈ s.calls, ∀ profile model, call.call = .spec profile model →
    spentAlong call.trace = []
  /-- what is left of a token is what it had, less what the calls spent -/
  left : List.Forall₂ (fun minted row => row.tokenHash = minted.tokenHash ∧
    row.usesLeft = minted.usesLeft.map fun (uses : Int) => uses - s.uses minted.tokenHash)
    s.minted s.db.joinTokens
  bounded : ∀ row ∈ s.minted, ∀ uses, row.usesLeft = some uses →
    s.authorized row.tokenHash ≤ uses.toNat
  /-- a token that authorized a registration was looked up before its expiry -/
  fresh : ∀ call ∈ s.calls, ∀ req, call.Accepted req → ∀ hash time,
    (hash, time) ∈ grantedAlong call.trace → ⟨.clock, time⟩ ∈ call.trace ∧
      ∃ row ∈ s.minted, row.tokenHash = hash ∧
        ∀ expiry, row.expiresAt = some expiry → time < expiry
  /-- a revoked token authorizes nothing any more -/
  revoked : ∀ row ∈ s.db.joinTokens, row.revoked = true → ∀ events s',
    (registrationSystem cfg auth).run s events = some s' →
    s'.grants row.tokenHash = s.grants row.tokenHash
  allowed : cfg.catalog.closed = true → ∀ record ∈ s.reg.list,
    ∃ p, cfg.catalog.get p.id = some p ∧ record.servedName = some p.id

open RegistrationState in
/-- **Registrations are atomic and join tokens bounded.** -/
theorem registration_discipline {cfg : ControlConfig} {auth : Authenticator} {s : RegistrationState}
    (reached : (registrationSystem cfg auth).Reachable s) : RegistrationDiscipline cfg auth s := by
  have inv := inv_of_reachable reached
  refine ⟨fun i now s₁ events s₂ call step run found denied => ?_,
    fun call member req ok => spent_of_accepted inv member ok,
    fun call member profile model spec => spentAlong_of_spec inv member spec,
    inv.rows.imp fun minted row kept => ⟨kept.hash, kept.left⟩,
    fun row member uses finite => authorized_le inv member finite,
    fun call member req ok hash time granted => fresh_of_accepted inv member ok granted,
    fun row member revoked events s' run => grants_run inv member revoked run,
    fun closed record listed => ?_⟩
  · exact unchanged reached step run found denied
  · have found := Registry.mem_list.mp listed
    obtain ⟨p, got, profile, nonempty⟩ := inv.records closed _ _ found
    refine ⟨p, got, ?_⟩
    unfold NodeRecord.servedName
    rw [profile]
    exact if_pos (decide_eq_true nonempty)

/-- A closed fleet of one profile. -/
def gemmaFleet : ControlConfig where
  catalog :=
    { profiles := Dict.empty.set "gemma"
        { id := "gemma", model := "google/gemma", engine := { maxConcurrentRequests := 2 } }
      default := some "gemma"
      default_mem := fun id same => by cases same; exact ⟨_, rfl⟩
      keyed := fun id p found => by
        rw [Dict.get?_set] at found
        split at found
        · next same => cases found; exact same.symm
        · cases found }
  vllmPort := 7001
  heartbeatInterval := 10
  tunnelEnabled := true
  tunnelPoolSpare := 1
  nodeToken := id
  vllmApiKey := id

/-- The registration of a worker on that profile. -/
def joins (nodeId : NodeId) : RegisterRequest where
  nodeId := nodeId
  address := "10.0.0.1"
  profile := some "gemma"

/-- Two workers race for the one use of a token, statement by statement. -/
def lastUse : List RegistrationEvent :=
  [.write (.createJoinToken "t" (zeroSecret.hash "oumigo-join-x") none 0 none (some 1)),
    .call (.register (joins "n1")) (some "Bearer oumigo-join-x"),
    .call (.register (joins "n2")) (some "Bearer oumigo-join-x")] ++
  ((List.range 6).flatMap fun _ => [.advance 0 1, .advance 1 1]) ++ [.advance 1 1, .advance 1 1]

theorem registration_discipline_raced : ∃ s,
    (s.calls.map fun call => spentAlong call.trace) = [[zeroSecret.hash "oumigo-join-x"], []] ∧
    s.authorized (zeroSecret.hash "oumigo-join-x") = 1 ∧ s.reg.list.map (·.nodeId) = ["n1"] ∧
    RegistrationDiscipline gemmaFleet (customAuth "fleet-secret") s := by
  have ran : ((registrationSystem gemmaFleet (customAuth "fleet-secret")).run
      ⟨⟨[], [], .empty⟩, .empty, [], []⟩ lastUse).map (fun s =>
        (s.calls.map fun call => spentAlong call.trace,
          s.authorized (zeroSecret.hash "oumigo-join-x"), s.reg.list.map (·.nodeId))) =
      some ([[zeroSecret.hash "oumigo-join-x"], []], 1, ["n1"]) := by
    decide +kernel
  obtain ⟨s, run, same⟩ := Option.map_eq_some_iff.mp ran
  obtain ⟨spent, rest⟩ := Prod.mk.inj same
  obtain ⟨authorized, listed⟩ := Prod.mk.inj rest
  have reached := Transition.System.ReachableBy.of_run (M := registrationSystem gemmaFleet
    (customAuth "fleet-secret")) ⟨rfl, rfl, rfl, rfl⟩ run
  exact ⟨s, spent, authorized, listed, registration_discipline reached⟩

end Oumigo
