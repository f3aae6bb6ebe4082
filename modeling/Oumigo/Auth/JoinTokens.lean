import Mathlib.Algebra.GroupWithZero.Nat
import Oumigo.Auth.Registration

/-!
# Join tokens are spent by accepted registrations

`Fate` says what a call may have asked for by the time it ends; it holds of every
program, so of every call in the middle of any interleaving.  The runs then count: what
is left of a token and what its calls spent is what it was minted with.
-/

namespace Oumigo

/-- The token hash whose use a statement spent. -/
def Statement.spent : Sigma Statement.Answer → Option String
  | ⟨.spend hash _, answer⟩ => if answer then some hash else none
  | _ => none

/-- The token hash a statement authorized a registration by, and when it looked. -/
def Statement.granted : Sigma Statement.Answer → Option (String × Rat)
  | ⟨.spend hash now, answer⟩ => if answer then some (hash, now) else none
  | ⟨.unlimited hash now, answer⟩ => if answer then some (hash, now) else none
  | _ => none

/-- The uses spent along a trace. -/
def spentAlong (trace : List (Sigma Statement.Answer)) : List String :=
  trace.filterMap Statement.spent

/-- The join tokens that authorized along a trace. -/
def grantedAlong (trace : List (Sigma Statement.Answer)) : List (String × Rat) :=
  trace.filterMap Statement.granted

/-- What was spent authorized. -/
theorem grantedAlong_of_spent {trace : List (Sigma Statement.Answer)} {hash : String}
    (spent : hash ∈ spentAlong trace) : ∃ now, (hash, now) ∈ grantedAlong trace := by
  obtain ⟨⟨stmt, answer⟩, member, spends⟩ := List.mem_filterMap.mp spent
  cases stmt with
  | spend hash' now =>
    unfold Statement.spent at spends
    dsimp only at spends
    split at spends
    · next found =>
      cases spends
      refine ⟨now, List.mem_filterMap.mpr ⟨_, member, ?_⟩⟩
      exact if_pos found
    · cases spends
  | clock | peek | isRevoked | unlimited => cases spends

/-! ## What a program may ask for -/

section

variable {cfg : ControlConfig} {auth : Authenticator} {header : Option String}
  {trace : List (Sigma Statement.Answer)} {α : Type}

/-- A program that authorizes nothing by a join token. -/
def Quiet (trace : List (Sigma Statement.Answer)) (m : AuthM α) : Prop :=
  m.Ends (fun after _ => spentAlong after = spentAlong trace ∧
    grantedAlong after = grantedAlong trace) trace

theorem Quiet.bind {β : Type} {m : AuthM α} {f : α → AuthM β} (first : Quiet trace m)
    (rest : ∀ a trace, Quiet trace (f a)) : Quiet trace (m >>= f) := by
  refine Query.Ends.bind (first.mono fun after outcome same => ?_)
  cases outcome with
  | error e => exact same
  | ok a =>
    refine (rest a after).mono fun _ _ same' => ?_
    exact ⟨same'.1.trans same.1, same'.2.trans same.2⟩

theorem Quiet.pure (a : α) : Quiet trace (pure a : AuthM α) := ⟨rfl, rfl⟩

theorem Quiet.lift (x : Except Python.Exn α) : Quiet trace (Query.lift x : AuthM α) := ⟨rfl, rfl⟩

theorem Quiet.ite {c : Prop} [Decidable c] {m m' : AuthM α} (yes : Quiet trace m)
    (no : Quiet trace m') : Quiet trace (if c then m else m') := by
  split
  · exact yes
  · exact no

theorem Quiet.isNodeRevoked (n : NodeId) : Quiet trace (Statement.isNodeRevoked n) :=
  fun _ => ⟨rfl, rfl⟩

theorem Quiet.validNode (token : Option String) : Quiet trace (auth.validNode token) := by
  unfold Authenticator.validNode
  cases token with
  | none => exact .pure none
  | some token =>
    refine Quiet.bind (.lift _) fun r trace => ?_
    cases r with
    | none => exact .pure none
    | some n => exact Quiet.bind (.isNodeRevoked n) fun revoked trace => .pure _

theorem Quiet.peekBearer (token : Option String) : Quiet trace (auth.peekBearer token) := by
  unfold Authenticator.peekBearer Authenticator.peekJoinToken
  cases token with
  | none => exact .pure false
  | some token => exact Quiet.ite (fun now answer => ⟨rfl, rfl⟩) (.pure false)

theorem Quiet.mayReadSpec (header : Option String) : Quiet trace (auth.mayReadSpec header) := by
  unfold Authenticator.mayReadSpec
  refine Quiet.ite (.pure true) (Quiet.bind (.lift _) fun reusable trace => ?_)
  refine Quiet.ite (.pure true) (Quiet.bind (.peekBearer _) fun joins trace => ?_)
  exact Quiet.ite (.pure true) (Quiet.bind (.validNode _) fun node trace => .pure _)

theorem Quiet.deny (n : NodeId) : Quiet trace (WorkerCall.deny n) := by
  unfold WorkerCall.deny
  exact Quiet.bind (.isNodeRevoked n) fun revoked trace => .pure _

/-- How a registration was authorized, if no use of a join token was spent for it. -/
def Free (auth : Authenticator) (header : Option String) (nodeId : NodeId)
    (trace : List (Sigma Statement.Answer)) : Prop :=
  (auth.enforced = false ∧ grantedAlong trace = []) ∨
  (auth.isReusable (bearer header) = .ok true ∧ grantedAlong trace = []) ∨
  (∃ token, bearer header = some token ∧ auth.nodeFromToken token = .ok (some nodeId) ∧
    grantedAlong trace = []) ∨
  ∃ token now, bearer header = some token ∧
    ⟨.unlimited (auth.digests.hash token) now, true⟩ ∈ trace ∧ ⟨.clock, now⟩ ∈ trace ∧
    grantedAlong trace = [(auth.digests.hash token, now)]

/-- A registration was authorized by a finite-use join token only, and one use of it was
spent. -/
def Paid (auth : Authenticator) (header : Option String) (nodeId : NodeId)
    (trace : List (Sigma Statement.Answer)) : Prop :=
  auth.enforced = true ∧ auth.isReusable (bearer header) = .ok false ∧
  ∃ token now, bearer header = some token ∧ auth.nodeFromToken token ≠ .ok (some nodeId) ∧
    ⟨.clock, now⟩ ∈ trace ∧ spentAlong trace = [auth.digests.hash token] ∧
    grantedAlong trace = [(auth.digests.hash token, now)]

theorem ends_validNode (token : Option String) :
    (auth.validNode token).Ends (fun after outcome =>
      (spentAlong after = spentAlong trace ∧ grantedAlong after = grantedAlong trace) ∧
      ∀ n, outcome = .ok (some n) →
        ∃ t, token = some t ∧ auth.nodeFromToken t = .ok (some n)) trace := by
  unfold Authenticator.validNode
  cases token with
  | none => exact ⟨⟨rfl, rfl⟩, nofun⟩
  | some token =>
    dsimp only
    cases read : auth.nodeFromToken token with
    | error e => exact ⟨⟨rfl, rfl⟩, nofun⟩
    | ok r =>
      cases r with
      | none => exact ⟨⟨rfl, rfl⟩, nofun⟩
      | some m =>
        intro revoked
        refine ⟨⟨rfl, rfl⟩, fun n valid => ⟨token, rfl, ?_⟩⟩
        have named : (if revoked then none else some m) = some n := Except.ok.inj valid
        cases revoked with
        | true => cases named
        | false =>
          cases named
          exact read

/-- A join token is nobody's node token. -/
theorem nodeFromToken_join {token : String}
    (begins : joinPrefix.toList.isPrefixOf token.toList = true) :
    auth.nodeFromToken token = .ok none := by
  have foreign : Python.afterStart nodePrefix token = none := by
    cases found : Python.afterStart nodePrefix token with
    | none => rfl
    | some rest =>
      have whole := Python.afterStart_eq_some.mp found
      obtain ⟨tail, same⟩ := List.isPrefixOf_iff_prefix.mp begins
      have join : token.toList[7]? = some 'j' := by
        rw [← same, List.getElem?_append_left (by decide)]
        decide
      rw [whole, String.toList_append, List.getElem?_append_left (by decide)] at join
      exact absurd join (by decide)
  unfold Authenticator.nodeFromToken
  rw [foreign]

theorem ends_consumeBearer (header : Option String) (n : NodeId)
    (enforced : auth.enforced = true) (reusable : auth.isReusable (bearer header) = .ok false)
    (spent : spentAlong trace = []) (granted : grantedAlong trace = []) :
    (auth.consumeBearer (bearer header)).Ends (fun after outcome =>
      match outcome with
      | .ok true => (spentAlong after = [] ∧ Free auth header n after) ∨ Paid auth header n after
      | _ => spentAlong after = [] ∧ grantedAlong after = []) trace := by
  unfold Authenticator.consumeBearer
  cases presented : bearer header with
  | none => exact ⟨spent, granted⟩
  | some token =>
    dsimp only
    unfold Authenticator.consumeJoinToken
    split
    · next begins =>
      have foreign : auth.nodeFromToken token ≠ .ok (some n) := by
        rw [nodeFromToken_join begins]
        nofun
      intro now paid
      cases paid with
      | true =>
        refine Or.inr ⟨enforced, reusable, token, now, presented, foreign, ?_, ?_, ?_⟩
        · exact List.mem_cons_of_mem _ List.mem_cons_self
        · exact congrArg (List.cons _) spent
        · exact congrArg (List.cons _) granted
      | false =>
        intro found
        cases found with
        | true =>
          refine Or.inl ⟨spent, Or.inr (Or.inr (Or.inr ⟨token, now, presented, ?_, ?_, ?_⟩))⟩
          · exact List.mem_cons_self
          · exact List.mem_cons_of_mem _ (List.mem_cons_of_mem _ List.mem_cons_self)
          · exact congrArg (List.cons _) granted
        | false => exact ⟨spent, granted⟩
    · exact ⟨spent, granted⟩

theorem ends_mayRegister (header : Option String) (n : NodeId) (spent : spentAlong trace = [])
    (granted : grantedAlong trace = []) :
    (auth.mayRegister header n).Ends (fun after outcome =>
      match outcome with
      | .ok true => (spentAlong after = [] ∧ Free auth header n after) ∨ Paid auth header n after
      | _ => spentAlong after = [] ∧ grantedAlong after = []) trace := by
  unfold Authenticator.mayRegister
  intro revoked
  change Query.Ends _ (⟨.isRevoked n, revoked⟩ :: trace) (if revoked then _ else _)
  cases revoked with
  | true => exact ⟨spent, granted⟩
  | false =>
    cases enforced : auth.enforced with
    | false => exact Or.inl ⟨spent, Or.inl ⟨enforced, granted⟩⟩
    | true =>
      dsimp only [Bool.not_true, Bool.false_eq_true, if_false]
      cases compared : auth.isReusable (bearer header) with
      | error e => exact ⟨spent, granted⟩
      | ok b =>
        cases b with
        | true => exact Or.inl ⟨spent, Or.inr (Or.inl ⟨compared, granted⟩)⟩
        | false =>
          change Query.Ends _ _ (auth.validNode (bearer header) >>= fun node =>
            if node = some n then pure true else auth.consumeBearer (bearer header))
          refine Query.Ends.bind ((ends_validNode (bearer header)).mono
            fun after outcome same => ?_)
          obtain ⟨⟨spent', granted'⟩, named⟩ := same
          have spent : spentAlong after = [] := spent'.trans spent
          have granted : grantedAlong after = [] := granted'.trans granted
          cases outcome with
          | error e => exact ⟨spent, granted⟩
          | ok node =>
            dsimp only
            split
            · next own =>
              obtain ⟨token, presented, read⟩ := named n (congrArg _ own)
              exact Or.inl ⟨spent, Or.inr (Or.inr (Or.inl ⟨token, presented, read, granted⟩))⟩
            · exact ends_consumeBearer header n enforced compared spent granted

/-- What is known of a call when it ends. -/
def Fate (cfg : ControlConfig) (auth : Authenticator) (header : Option String)
    (call : WorkerCall) (after : List (Sigma Statement.Answer))
    (outcome : Except Python.Exn (Except HttpError Admitted)) : Prop :=
  match call, outcome with
  | .register req, .ok (.ok granted) =>
      cfg.checkProfile req = .ok (granted.resolved, granted.profileId) ∧
      ((spentAlong after = [] ∧ Free auth header req.nodeId after) ∨
        Paid auth header req.nodeId after)
  | _, _ => spentAlong after = [] ∧ grantedAlong after = []

theorem ends_registerProgram (cfg : ControlConfig) (auth : Authenticator)
    (header : Option String) (req : RegisterRequest) :
    (WorkerCall.registerProgram cfg auth header req).Ends
      (Fate cfg auth header (.register req)) [] := by
  have refused {after : List (Sigma Statement.Answer)} (spent : spentAlong after = [])
      (granted : grantedAlong after = []) :
      (WorkerCall.deny req.nodeId).Ends (Fate cfg auth header (.register req)) after := by
    intro revoked
    exact ⟨spent, granted⟩
  unfold WorkerCall.registerProgram
  split
  · exact ⟨rfl, rfl⟩
  · refine Query.Ends.bind ((Quiet.mayReadSpec header).mono fun after outcome same => ?_)
    obtain ⟨spent, granted⟩ := same
    cases outcome with
    | error e => exact ⟨spent, granted⟩
    | ok reads =>
      dsimp only
      split
      · exact refused spent granted
      · cases checked : cfg.checkProfile req with
        | error refusal => exact ⟨spent, granted⟩
        | ok admitted =>
          refine Query.Ends.bind ((ends_mayRegister header req.nodeId spent granted).mono
            fun after outcome ends => ?_)
          cases outcome with
          | error e => exact ends
          | ok registers =>
            cases registers with
            | false => exact refused ends.1 ends.2
            | true => exact ⟨checked, ends⟩

theorem ends_program (cfg : ControlConfig) (auth : Authenticator) (header : Option String)
    (call : WorkerCall) : (call.program cfg auth header).Ends (Fate cfg auth header call) [] := by
  cases call with
  | register req => exact ends_registerProgram cfg auth header req
  | spec profile model =>
    have quiet : Quiet [] (WorkerCall.specProgram cfg auth header profile model) := by
      unfold WorkerCall.specProgram
      refine Quiet.bind (.mayReadSpec header) fun reads trace => ?_
      exact Quiet.ite (.pure _) (.pure _)
    exact quiet

end

/-! ## Counting over the calls -/

/-- Replacing one element of a list replaces its share of a sum. -/
theorem sum_map_set {α : Type} {f : α → Nat} {l : List α} {i : Nat} {a b : α}
    (here : l[i]? = some a) : ((l.set i b).map f).sum + f a = (l.map f).sum + f b := by
  induction l generalizing i with
  | nil => cases here
  | cons head tail ih =>
    cases i with
    | zero =>
      cases here
      simp only [List.set_cons_zero, List.map_cons, List.sum_cons]
      omega
    | succ i =>
      have rest := ih (i := i) here
      simp only [List.set_cons_succ, List.map_cons, List.sum_cons]
      omega

/-- Elements that each count for one at least. -/
theorem countP_le_sum {α : Type} {f : α → Nat} {p : α → Bool} {l : List α}
    (each : ∀ a ∈ l, p a = true → 1 ≤ f a) : l.countP p ≤ (l.map f).sum := by
  induction l with
  | nil => exact Nat.le_refl 0
  | cons head tail ih =>
    have rest := ih fun a member => each a (List.mem_cons_of_mem _ member)
    have first := each head List.mem_cons_self
    rw [List.countP_cons, List.map_cons, List.sum_cons]
    split
    · next counted =>
      have one := first counted
      omega
    · omega

/-- Related lists, with where the elements are from. -/
theorem forall₂_mem {α β : Type} {R : α → β → Prop} {l : List α} {u : List β}
    (all : List.Forall₂ R l u) : List.Forall₂ (fun a b => R a b ∧ a ∈ l ∧ b ∈ u) l u := by
  induction all with
  | nil => exact .nil
  | cons related _ ih =>
    refine .cons ⟨related, List.mem_cons_self, List.mem_cons_self⟩ (ih.imp fun a b both => ?_)
    exact ⟨both.1, List.mem_cons_of_mem _ both.2.1, List.mem_cons_of_mem _ both.2.2⟩

theorem exists_of_forall₂ {α β : Type} {R : α → β → Prop} {l : List α} {u : List β} {b : β}
    (all : List.Forall₂ R l u) (member : b ∈ u) : ∃ a ∈ l, R a b := by
  induction all with
  | nil => cases member
  | cons related _ ih =>
    rcases List.mem_cons.mp member with rfl | later
    · exact ⟨_, List.mem_cons_self, related⟩
    · obtain ⟨a, from_l, related'⟩ := ih later
      exact ⟨a, List.mem_cons_of_mem _ from_l, related'⟩

namespace RegistrationState

variable {cfg : ControlConfig} {auth : Authenticator} {s s' : RegistrationState}

/-- The uses of a token that its calls spent. -/
def uses (s : RegistrationState) (hash : String) : Nat :=
  (s.calls.map fun call => (spentAlong call.trace).count hash).sum

/-- How often a token authorized. -/
def grants (s : RegistrationState) (hash : String) : Nat :=
  (s.calls.map fun call => ((grantedAlong call.trace).map Prod.fst).count hash).sum

/-- A row against the one that was minted: what is left of it is what it had, less what
was spent. -/
structure Kept (s : RegistrationState) (minted row : JoinTokenRow) : Prop where
  hash : row.tokenHash = minted.tokenHash
  expiry : row.expiresAt = minted.expiresAt
  left : row.usesLeft = minted.usesLeft.map fun (uses : Int) => uses - s.uses minted.tokenHash
  bound : ∀ uses, minted.usesLeft = some uses → (s.uses minted.tokenHash : Int) ≤ max uses 0
  endless : minted.usesLeft = none → s.uses minted.tokenHash = 0

/-- A record of a worker on an allowed profile. -/
def AllowedRecord (cfg : ControlConfig) (record : NodeRecord) : Prop :=
  ∃ p, cfg.catalog.get p.id = some p ∧ record.profile = some p.id ∧ p.id ≠ ""

/-- What holds between steps. -/
structure Inv (cfg : ControlConfig) (auth : Authenticator) (s : RegistrationState) : Prop where
  calls : ∀ call ∈ s.calls, call.rest.Ends (Fate cfg auth call.header call.call) call.trace
  unique : (s.minted.map (·.tokenHash)).Nodup
  rows : List.Forall₂ (Kept s) s.minted s.db.joinTokens
  grants : ∀ call ∈ s.calls, ∀ g ∈ grantedAlong call.trace, ∃ row ∈ s.minted,
    row.tokenHash = g.1 ∧ ∀ expiry, row.expiresAt = some expiry → g.2 < expiry
  unlimited : ∀ call ∈ s.calls, ∀ hash now, ⟨.unlimited hash now, true⟩ ∈ call.trace →
    ∃ row ∈ s.minted, row.tokenHash = hash ∧ row.usesLeft = none
  records : cfg.catalog.closed = true →
    ∀ n record, s.reg.get n = some record → AllowedRecord cfg record

theorem inv_initial (start : (registrationSystem cfg auth).init s) : Inv cfg auth s := by
  obtain ⟨rows, reg, calls, minted⟩ := start
  refine ⟨?_, ?_, ?_, ?_, ?_, ?_⟩
  · rw [calls]
    exact fun call member => nomatch member
  · rw [minted]
    exact List.nodup_nil
  · rw [minted, rows]
    exact .nil
  · rw [calls]
    exact fun call member => nomatch member
  · rw [calls]
    exact fun call member => nomatch member
  · rw [reg]
    exact fun _ n record found => nomatch found

/-! ## The registry -/

/-- A registration files an allowed profile. -/
theorem records_register {call : WorkerCall} {granted : Admitted} {header : Option String}
    {trace : List (Sigma Statement.Answer)} {now : Rat} (inv : Inv cfg auth s)
    (fate : Fate cfg auth header call trace (.ok (.ok granted)))
    (closed : cfg.catalog.closed = true) (n : NodeId) (record : NodeRecord)
    (found : (s.file now call granted).get n = some record) : AllowedRecord cfg record := by
  cases call with
  | spec profile model => exact inv.records closed n record found
  | register req =>
    obtain ⟨p, same, got, nonempty⟩ := ControlConfig.checkProfile_allowed closed fate.1
    rcases Registry.profile_of_get_register found with ⟨-, profile⟩ | earlier
    · rw [same] at profile
      exact ⟨p, got, profile, nonempty⟩
    · exact inv.records closed n record earlier

theorem records_heartbeat {req : HeartbeatRequest} {now : Rat} {n : NodeId}
    {record : NodeRecord}
    (records : ∀ n record, s.reg.get n = some record → AllowedRecord cfg record)
    (found : (s.reg.heartbeat now req.nodeId req.nodeState req.runState req.vllmPort
      req.maxConcurrentRequests req.tunnelRttMs).1.get n = some record) :
    AllowedRecord cfg record := by
  by_cases same : n = req.nodeId
  · subst same
    rw [Registry.get_heartbeat_self] at found
    obtain ⟨earlier, stored, rfl⟩ := Option.map_eq_some_iff.mp found
    exact records _ earlier stored
  · rw [Registry.get_heartbeat_ne same] at found
    exact records n record found

theorem records_reap {now timeout forgetAfter : Rat} {n : NodeId} {record : NodeRecord}
    (records : ∀ n record, s.reg.get n = some record → AllowedRecord cfg record)
    (found : (s.reg.reap now timeout forgetAfter).get n = some record) :
    AllowedRecord cfg record := by
  rw [Registry.get_reap] at found
  obtain ⟨earlier, stored, kept⟩ := Option.bind_eq_some_iff.mp found
  have allowed := records n earlier stored
  rcases Registry.reapRecord_cases kept with rfl | rfl
  · exact allowed
  · exact allowed

/-! ## Steps -/

theorem hashes_eq {minted rows : List JoinTokenRow} (kept : List.Forall₂ (Kept s) minted rows) :
    rows.map (·.tokenHash) = minted.map (·.tokenHash) := by
  induction kept with
  | nil => rfl
  | cons kept _ ih => rw [List.map_cons, List.map_cons, kept.hash, ih]

/-- Two rows with one hash are one row. -/
theorem row_unique (inv : Inv cfg auth s) {row row' : JoinTokenRow} (left : row ∈ s.db.joinTokens)
    (right : row' ∈ s.db.joinTokens) (same : row.tokenHash = row'.tokenHash) : row = row' := by
  have unique : (s.db.joinTokens.map (·.tokenHash)).Nodup := by
    rw [hashes_eq inv.rows]
    exact inv.unique
  exact List.inj_on_of_nodup_map unique left right same

/-- A usable row was minted, and has not expired. -/
theorem minted_of_usable {hash : String} {now : Rat} {row : JoinTokenRow}
    (inv : Inv cfg auth s) (member : row ∈ s.db.joinTokens)
    (usable : row.usable hash now = true) :
    ∃ minted ∈ s.minted, minted.tokenHash = hash ∧ (minted.usesLeft.isNone = row.usesLeft.isNone) ∧
      ∀ expiry, minted.expiresAt = some expiry → now < expiry := by
  obtain ⟨minted, from_minted, kept⟩ := exists_of_forall₂ inv.rows member
  obtain ⟨same, -, fresh, -⟩ := JoinTokenRow.usable_iff.mp usable
  refine ⟨minted, from_minted, kept.hash.symm.trans same, ?_, fun expiry expires => ?_⟩
  · rw [kept.left, Option.isNone_map]
  · exact fresh expiry (kept.expiry.trans expires)

/-- What authorizes is a usable row. -/
theorem usable_of_granted {stmt : Statement} {now time : Rat} {hash : String} {db : AuthDb}
    (granted : Statement.granted ⟨stmt, (AuthDb.answer now stmt db).1⟩ = some (hash, time)) :
    ∃ row ∈ db.joinTokens, row.usable hash time = true := by
  cases stmt with
  | spend | unlimited =>
    obtain ⟨found, same⟩ := Option.ite_none_right_eq_some.mp granted
    cases same
    obtain ⟨row, member, both⟩ := List.any_eq_true.mp found
    exact ⟨row, member, (Bool.and_eq_true_iff.mp both).1⟩
  | clock | peek | isRevoked => cases granted

theorem granted_row {stmt : Statement} {now time : Rat} {hash : String} (inv : Inv cfg auth s)
    (granted : Statement.granted ⟨stmt, (AuthDb.answer now stmt s.db).1⟩ = some (hash, time)) :
    ∃ row ∈ s.minted, row.tokenHash = hash ∧
      ∀ expiry, row.expiresAt = some expiry → time < expiry := by
  obtain ⟨row, member, usable⟩ := usable_of_granted granted
  obtain ⟨minted, from_minted, same, -, fresh⟩ := minted_of_usable inv member usable
  exact ⟨minted, from_minted, same, fresh⟩

theorem unlimited_row {stmt : Statement} {now time : Rat} {hash : String} (inv : Inv cfg auth s)
    (found : (⟨.unlimited hash time, true⟩ : Sigma Statement.Answer) =
      ⟨stmt, (AuthDb.answer now stmt s.db).1⟩) :
    ∃ row ∈ s.minted, row.tokenHash = hash ∧ row.usesLeft = none := by
  cases stmt with
  | unlimited hash' time' =>
    obtain ⟨stmts, answers⟩ := Sigma.mk.inj found
    cases stmts
    have any : s.db.joinTokens.any (fun row =>
        row.usable hash time && row.usesLeft.isNone) = true :=
      (eq_of_heq answers).symm
    obtain ⟨row, member, usable⟩ := List.any_eq_true.mp any
    rw [Bool.and_eq_true] at usable
    obtain ⟨minted, from_minted, same, endless, -⟩ := minted_of_usable inv member usable.1
    exact ⟨minted, from_minted, same, Option.isNone_iff_eq_none.mp (endless.trans usable.2)⟩
  | clock | peek | isRevoked | spend => cases (Sigma.mk.inj found).1

/-- A statement that spends nothing leaves the database as it was. -/
theorem answer_quiet {stmt : Statement} {now : Rat} {db : AuthDb}
    (quiet : Statement.spent ⟨stmt, (AuthDb.answer now stmt db).1⟩ = none) :
    (AuthDb.answer now stmt db).2 = db := by
  cases stmt with
  | spend hash time =>
    unfold Statement.spent at quiet
    dsimp only at quiet
    split at quiet
    · cases quiet
    · next missed =>
      refine AuthDb.spend_eq_self fun row member => ?_
      have none : db.joinTokens.any (AuthDb.spends hash time) = false :=
        (Bool.not_eq_true _).mp missed
      simpa using List.any_eq_false.mp none row member
  | clock | peek | isRevoked | unlimited => rfl

/-- The call at `index` after its next statement. -/
def asked (s : RegistrationState) (now : Rat) (call : CallState) (stmt : Statement)
    (next : stmt.Answer → CallM) : CallState :=
  { call with
    rest := next (AuthDb.answer now stmt s.db).1
    trace := ⟨stmt, (AuthDb.answer now stmt s.db).1⟩ :: call.trace }

theorem advance_ask {index : Nat} {now : Rat} {call : CallState} {stmt : Statement}
    {next : stmt.Answer → CallM} (rest : call.rest = .ask stmt next) :
    s.advance index now call =
      { s with
        db := (AuthDb.answer now stmt s.db).2
        calls := s.calls.set index (s.asked now call stmt next) } := by
  unfold advance asked
  rw [rest]

/-- Where a call of the new state is from. -/
theorem mem_set {calls : List CallState} {index : Nat} {call other : CallState}
    (member : other ∈ calls.set index call) : other = call ∨ other ∈ calls := by
  rcases List.mem_or_eq_of_mem_set member with earlier | same
  · exact Or.inr earlier
  · exact Or.inl same

theorem uses_set {index : Nat} {call : CallState} (reg : Registry) (db : AuthDb)
    (call' : CallState) (here : s.calls[index]? = some call) (hash : String) :
    RegistrationState.uses { s with db := db, reg := reg, calls := s.calls.set index call' } hash +
      (spentAlong call.trace).count hash =
    s.uses hash + (spentAlong call'.trace).count hash :=
  sum_map_set here

theorem Kept.same {minted row : JoinTokenRow} (kept : Kept s minted row)
    (same : s'.uses minted.tokenHash = s.uses minted.tokenHash) : Kept s' minted row := by
  refine ⟨kept.hash, kept.expiry, ?_, ?_, ?_⟩
  · rw [same]
    exact kept.left
  · rw [same]
    exact kept.bound
  · rw [same]
    exact kept.endless

/-- A use is spent on the row it is counted for. -/
theorem Kept.spend {minted row : JoinTokenRow} {time : Rat} (kept : Kept s minted row)
    (spends : AuthDb.spends minted.tokenHash time row = true)
    (more : s'.uses minted.tokenHash = s.uses minted.tokenHash + 1) :
    Kept s' minted row.spend := by
  unfold AuthDb.spends at spends
  rw [Bool.and_eq_true] at spends
  obtain ⟨-, -, -, positive⟩ := JoinTokenRow.usable_iff.mp spends.1
  refine ⟨kept.hash, kept.expiry, ?_, fun uses finite => ?_, fun endless => ?_⟩
  · unfold JoinTokenRow.spend
    dsimp only
    rw [kept.left, Option.map_map, more]
    congr 1
    funext uses
    simp only [Function.comp]
    omega
  · have left : row.usesLeft = some (uses - s.uses minted.tokenHash) := by
      rw [kept.left, finite]
      rfl
    have one_left := positive _ left
    rw [more]
    omega
  · rw [kept.left, endless] at spends
    exact absurd spends.2 nofun

theorem rows_ask {index : Nat} (now : Rat) {call : CallState} {stmt : Statement}
    {next : stmt.Answer → CallM} (inv : Inv cfg auth s) (here : s.calls[index]? = some call)
    (rest : call.rest = .ask stmt next) :
    List.Forall₂ (Kept (s.advance index now call)) s.minted
      (AuthDb.answer now stmt s.db).2.joinTokens := by
  have count := uses_set s.reg (AuthDb.answer now stmt s.db).2 (s.asked now call stmt next) here
  rw [advance_ask rest]
  have trace : spentAlong (s.asked now call stmt next).trace =
      (Statement.spent ⟨stmt, (AuthDb.answer now stmt s.db).1⟩).toList ++
        spentAlong call.trace := by
    unfold asked spentAlong
    dsimp only
    cases found : Statement.spent ⟨stmt, (AuthDb.answer now stmt s.db).1⟩ with
    | none => rw [List.filterMap_cons_none found]; rfl
    | some hash => rw [List.filterMap_cons_some found]; rfl
  cases spent : Statement.spent ⟨stmt, (AuthDb.answer now stmt s.db).1⟩ with
  | none =>
    rw [answer_quiet spent] at count ⊢
    refine inv.rows.imp fun minted row kept => kept.same ?_
    have same := count minted.tokenHash
    rw [trace, spent] at same
    simpa using same
  | some hash =>
    cases stmt with
    | spend hash' time =>
      obtain ⟨any, same⟩ := Option.ite_none_right_eq_some.mp spent
      cases same
      obtain ⟨paying, from_db, spends⟩ := List.any_eq_true.mp any
      refine List.forall₂_map_right_iff.mpr ((forall₂_mem inv.rows).imp ?_)
      rintro minted row ⟨kept, -, member⟩
      have more := count minted.tokenHash
      rw [trace, spent, List.count_append] at more
      by_cases same : row.tokenHash = hash
      · have usable := spends
        unfold AuthDb.spends at usable
        rw [Bool.and_eq_true] at usable
        have paid := (JoinTokenRow.usable_iff.mp usable.1).1
        have this_row : paying = row := row_unique inv from_db member (paid.trans same.symm)
        rw [this_row] at spends
        have key : minted.tokenHash = hash := kept.hash.symm.trans same
        have one : List.count minted.tokenHash [hash] = 1 := by
          rw [key]
          exact List.count_singleton_self
        rw [Option.toList_some, one] at more
        rw [if_pos spends]
        rw [← key] at spends
        refine kept.spend spends ?_
        omega
      · have spared : AuthDb.spends hash time row = false := by
          unfold AuthDb.spends JoinTokenRow.usable
          simp [same]
        rw [if_neg (by simp [spared])]
        refine kept.same ?_
        have key : minted.tokenHash ≠ hash := fun key => same (kept.hash.trans key)
        have zero : List.count minted.tokenHash [hash] = 0 :=
          List.count_eq_zero.mpr fun member => key (List.mem_singleton.mp member)
        rw [Option.toList_some, zero] at more
        omega
    | clock | peek | isRevoked | unlimited => cases spent

theorem inv_ask {index : Nat} {now : Rat} {call : CallState} {stmt : Statement}
    {next : stmt.Answer → CallM} (inv : Inv cfg auth s) (here : s.calls[index]? = some call)
    (rest : call.rest = .ask stmt next) : Inv cfg auth (s.advance index now call) := by
  have member : call ∈ s.calls := List.mem_of_getElem? here
  have rows := rows_ask now inv here rest
  rw [advance_ask rest] at rows ⊢
  refine ⟨fun other found => ?_, inv.unique, rows, fun other found g granted => ?_,
    fun other found hash time unlimited => ?_, inv.records⟩
  · rcases mem_set found with rfl | earlier
    · have ends := inv.calls call member
      rw [rest] at ends
      exact ends _
    · exact inv.calls other earlier
  · rcases mem_set found with rfl | earlier
    · obtain ⟨entry, at_trace, grants⟩ := List.mem_filterMap.mp granted
      rcases List.mem_cons.mp at_trace with rfl | old
      · have row := granted_row inv grants
        exact row
      · exact inv.grants call member g (List.mem_filterMap.mpr ⟨entry, old, grants⟩)
    · exact inv.grants other earlier g granted
  · rcases mem_set found with rfl | earlier
    · rcases List.mem_cons.mp unlimited with new | old
      · have row := unlimited_row inv new
        exact row
      · exact inv.unlimited call member hash time old
    · exact inv.unlimited other earlier hash time unlimited

/-- The registry when a call ended. -/
def filed (s : RegistrationState) (now : Rat) (call : WorkerCall) :
    Except Python.Exn (Except HttpError Admitted) → Registry
  | .ok (.ok granted) => s.file now call granted
  | _ => s.reg

theorem advance_done {index : Nat} {now : Rat} {call : CallState}
    {outcome : Except Python.Exn (Except HttpError Admitted)} (rest : call.rest = .done outcome) :
    s.advance index now call =
      { s with
        reg := s.filed now call.call outcome
        calls := s.calls.set index { call with answered := true } } := by
  obtain ⟨call, header, program, trace, answered⟩ := call
  cases rest
  unfold advance filed
  rcases outcome with e | refusal | granted <;> rfl

theorem inv_done {index : Nat} {now : Rat} {call : CallState}
    {outcome : Except Python.Exn (Except HttpError Admitted)} (inv : Inv cfg auth s)
    (here : s.calls[index]? = some call) (rest : call.rest = .done outcome) :
    Inv cfg auth (s.advance index now call) := by
  have member : call ∈ s.calls := List.mem_of_getElem? here
  have fate := inv.calls call member
  rw [rest] at fate
  have count (hash : String) := uses_set (s.filed now call.call outcome) s.db
    { call with answered := true } here hash
  have rows := inv.rows.imp fun minted row kept =>
    kept.same (Nat.add_right_cancel (count minted.tokenHash))
  rw [advance_done rest]
  refine ⟨fun other found => ?_, inv.unique, rows,
    fun other found => ?_, fun other found => ?_, fun closed n record found => ?_⟩
  · rcases mem_set found with rfl | earlier
    · exact inv.calls call member
    · exact inv.calls other earlier
  · rcases mem_set found with rfl | earlier
    · exact inv.grants call member
    · exact inv.grants other earlier
  · rcases mem_set found with rfl | earlier
    · exact inv.unlimited call member
    · exact inv.unlimited other earlier
  · rcases outcome with e | refusal | granted
    · exact inv.records closed n record found
    · exact inv.records closed n record found
    · exact records_register inv fate closed n record found

/-- A token that was not minted was not spent. -/
theorem uses_fresh {hash : String} (inv : Inv cfg auth s)
    (fresh : hash ∉ s.minted.map (·.tokenHash)) : s.uses hash = 0 := by
  refine List.sum_eq_zero_iff_forall_eq_nat.mpr fun count member => ?_
  obtain ⟨call, from_calls, rfl⟩ := List.mem_map.mp member
  refine List.count_eq_zero.mpr fun spent => fresh ?_
  obtain ⟨time, granted⟩ := grantedAlong_of_spent spent
  obtain ⟨row, from_minted, same, -⟩ := inv.grants call from_calls _ granted
  exact List.mem_map.mpr ⟨row, from_minted, same⟩

theorem Kept.minted {id hash : String} {label : Option String} {now : Rat} {ttl : Option Rat}
    {uses : Option Int} (unspent : s.uses hash = 0) :
    Kept s (.minted id hash label now ttl uses) (.minted id hash label now ttl uses) := by
  have none_spent : s.uses (JoinTokenRow.minted id hash label now ttl uses).tokenHash = 0 := unspent
  refine ⟨rfl, rfl, ?_, fun uses _ => ?_, fun _ => none_spent⟩
  · rw [none_spent]
    simp
  · rw [none_spent]
    exact Int.le_max_right _ _

/-- The rows after a method of the store. -/
theorem rows_write {op : AuthOp} {db : AuthDb} (inv : Inv cfg auth s)
    (done : s.db.apply op = some db) :
    ((s.minted ++ mints op).map (·.tokenHash)).Nodup ∧
    List.Forall₂ (Kept s) (s.minted ++ mints op) db.joinTokens := by
  cases op with
  | createJoinToken id hash label now ttl uses =>
    obtain ⟨fresh, written⟩ := Option.ite_none_right_eq_some.mp done
    cases written
    have unknown : hash ∉ s.minted.map (·.tokenHash) := by
      rw [← hashes_eq inv.rows]
      intro known
      obtain ⟨row, member, same⟩ := List.mem_map.mp known
      exact (fresh row member).2 same
    constructor
    · rw [mints, List.map_append, List.map_singleton]
      exact inv.unique.append (List.nodup_singleton _) (List.disjoint_singleton.mpr unknown)
    · exact List.rel_append inv.rows (.cons (.minted (uses_fresh inv unknown)) .nil)
  | revokeJoinToken id =>
    cases done
    rw [show mints (.revokeJoinToken id) = [] from rfl, List.append_nil]
    refine ⟨inv.unique, List.forall₂_map_right_iff.mpr (inv.rows.imp fun minted row kept => ?_)⟩
    split
    · exact ⟨kept.hash, kept.expiry, kept.left, kept.bound, kept.endless⟩
    · exact kept
  | createApiKey row =>
    obtain ⟨-, written⟩ := Option.ite_none_right_eq_some.mp done
    cases written
    rw [show mints (.createApiKey row) = [] from rfl, List.append_nil]
    exact ⟨inv.unique, inv.rows⟩
  | revokeApiKey | revokeNode | unrevokeNode =>
    cases done
    refine ⟨?_, ?_⟩
    · exact (List.append_nil s.minted).symm ▸ inv.unique
    · exact (List.append_nil s.minted).symm ▸ inv.rows

theorem inv_step {e : RegistrationEvent} (inv : Inv cfg auth s)
    (run : s.step cfg auth e = some s') : Inv cfg auth s' := by
  cases e with
  | write op =>
    obtain ⟨db, done, rfl⟩ := Option.map_eq_some_iff.mp run
    obtain ⟨unique, rows⟩ := rows_write inv done
    refine ⟨inv.calls, unique, rows.imp fun _ _ kept => kept.same rfl,
      fun call member g granted => ?_, fun call member hash now unlimited => ?_, inv.records⟩
    · obtain ⟨row, from_minted, found⟩ := inv.grants call member g granted
      exact ⟨row, List.mem_append_left _ from_minted, found⟩
    · obtain ⟨row, from_minted, found⟩ := inv.unlimited call member hash now unlimited
      exact ⟨row, List.mem_append_left _ from_minted, found⟩
  | call call header =>
    cases run
    have uses (hash : String) : ({ s with
        calls := s.calls ++ [⟨call, header, call.program cfg auth header, [], false⟩] } :
        RegistrationState).uses hash = s.uses hash := by
      unfold RegistrationState.uses
      simp [spentAlong]
    have fresh {other : CallState} (member : other ∈ s.calls ++
        [⟨call, header, call.program cfg auth header, [], false⟩]) :
        other ∈ s.calls ∨ other = ⟨call, header, call.program cfg auth header, [], false⟩ := by
      simpa using member
    refine ⟨fun other member => ?_, inv.unique, inv.rows.imp fun _ _ kept => kept.same (uses _),
      fun other member => ?_, fun other member => ?_, inv.records⟩
    · rcases fresh member with earlier | rfl
      · exact inv.calls other earlier
      · exact ends_program cfg auth header call
    · rcases fresh member with earlier | rfl
      · exact inv.grants other earlier
      · exact fun g granted => nomatch granted
    · rcases fresh member with earlier | rfl
      · exact inv.unlimited other earlier
      · exact fun hash now unlimited => nomatch unlimited
  | advance index now =>
    unfold step at run
    dsimp only at run
    split at run
    · cases run
    · next call here =>
      split at run
      · cases run
      · cases run
        cases rest : call.rest with
        | ask stmt next => exact inv_ask inv here rest
        | done outcome => exact inv_done inv here rest
  | heartbeat req now =>
    cases run
    exact ⟨inv.calls, inv.unique, inv.rows.imp fun _ _ kept => kept.same rfl, inv.grants,
      inv.unlimited, fun closed _ _ found => records_heartbeat (inv.records closed) found⟩
  | reap now timeout forgetAfter =>
    cases run
    exact ⟨inv.calls, inv.unique, inv.rows.imp fun _ _ kept => kept.same rfl, inv.grants,
      inv.unlimited, fun closed _ _ found => records_reap (inv.records closed) found⟩
  | remove nodeId =>
    cases run
    refine ⟨inv.calls, inv.unique, inv.rows.imp fun _ _ kept => kept.same rfl, inv.grants,
      inv.unlimited, fun closed n record found => ?_⟩
    dsimp only at found
    rw [Registry.get_remove] at found
    split at found
    · cases found
    · exact inv.records closed n record found

theorem inv_of_reachable (reached : (registrationSystem cfg auth).Reachable s) : Inv cfg auth s :=
  reached.invariant (I := Inv cfg auth) (fun _ start => inv_initial start)
    fun _ _ _ inv _ run => inv_step inv run

end RegistrationState

end Oumigo
