import Oumigo.Auth.Authorization
import Oumigo.Auth.Spending

/-!
# Denied credentials and the address they came from

`FailureLimiter` of `service/manager/access.py`, and the worker-facing endpoints of
`service/manager/control/server.py` up to where the caller's credential is accepted or denied.
`hmac.compare_digest` raises on strings that are not ASCII; `decides_iff` says for which headers
it is never handed one, and those are the headers that always get a decision and whose denials
are counted.
-/

namespace Oumigo

/-- `FailureLimiter`. -/
structure FailureLimiter where
  maxFailures : Nat := 30
  windowS : Rat := 60
  failures : String → List Rat

namespace FailureLimiter

variable (limiter : FailureLimiter)

/-- `_recent`: the failures of an address that have not aged out. -/
def recent (clock : Rat) (host : String) : List Rat :=
  (limiter.failures host).dropWhile (· < clock - limiter.windowS)

/-- The failures of one address replaced. -/
def withFailures (host : String) (times : List Rat) : FailureLimiter :=
  { limiter with failures := fun other => if other = host then times else limiter.failures other }

/-- `blocked`, and the limiter without the failures that aged out. -/
def blocked (clock : Rat) (host : Option String) : Bool × FailureLimiter :=
  match host with
  | none => (false, limiter)
  | some host =>
      let times := limiter.recent clock host
      (limiter.maxFailures ≤ times.length, limiter.withFailures host times)

/-- `record`. -/
def record (clock : Rat) (host : Option String) : FailureLimiter :=
  match host with
  | none => limiter
  | some host => limiter.withFailures host (limiter.recent clock host ++ [clock])

end FailureLimiter

/-- What `create_app` was given, as far as these endpoints read it. -/
structure WorkerGate where
  control : ControlConfig
  auth : Authenticator
  /-- `WorkerAllowlist.allows` -/
  allows : Option String → Bool

/-- A call of a worker-facing endpoint, with what it says of the node. -/
inductive GatedCall where
  | spec (profile model : Option String)
  | register (req : RegisterRequest)
  | heartbeat (nodeId : NodeId)
  | metrics (nodeId : NodeId)
  /-- `registered`: the nodes that are registered with the tunnel transport -/
  | tunnel (registered : NodeId → Bool)

/-- What a call is told before its endpoint does its work. -/
inductive GateReply where
  /-- the credential is denied, by `_deny` or by closing the tunnel -/
  | denied (error : HttpError)
  /-- the call is refused for another reason -/
  | refused (error : HttpError)
  | accepted
  deriving DecidableEq

/-- How the tunnel endpoint refuses: `ws.close(code=1008)` before the upgrade. -/
def tunnelClosed : HttpError := ⟨403, ""⟩

namespace WorkerGate

variable (gate : WorkerGate) (limiter : FailureLimiter) (clock : Rat) (host : Option String)

/-- `worker_source`; the tunnel endpoint makes the same checks. -/
def workerSource : Option HttpError × FailureLimiter :=
  if !gate.allows host then (some ⟨403, "source address not allowed"⟩, limiter)
  else
    let (blocked, limiter) := limiter.blocked clock host
    (if blocked then some ⟨429, "too many failed auth attempts"⟩ else none, limiter)

/-- `_deny`: it records the failure, and words the refusal. -/
def deny (nodeId : Option NodeId) : AuthM (GateReply × FailureLimiter) :=
  let limiter := limiter.record clock host
  match nodeId with
  | none => pure (.denied (ControlConfig.deny none ⟨false, false, false, false⟩), limiter)
  | some n => do
      let revoked ← Statement.isNodeRevoked n
      pure (.denied (ControlConfig.deny (some n) ⟨false, false, false, revoked⟩), limiter)

/-- The endpoint of a call that its source may make. -/
def endpoint (header : Option String) : GatedCall → AuthM (GateReply × FailureLimiter)
  | .spec profile model => do
      let reads ← gate.auth.mayReadSpec header
      if !reads then deny limiter clock host none
      else
        match gate.control.resolveSpec profile model with
        | .error error => pure (.refused error, limiter)
        | .ok _ => pure (.accepted, limiter)
  | .register req =>
      if req.transport = .tunnel && !gate.control.tunnelEnabled then
        pure (.refused
          ⟨400, "this manager does not accept tunnel workers (tunnel.enabled: false)"⟩, limiter)
      else do
        let reads ← gate.auth.mayReadSpec header
        if !reads then deny limiter clock host (some req.nodeId)
        else
          match gate.control.checkProfile req with
          | .error error => pure (.refused error, limiter)
          | .ok _ => do
              let registers ← gate.auth.mayRegister header req.nodeId
              if !registers then deny limiter clock host (some req.nodeId)
              else pure (.accepted, limiter)
  | .heartbeat nodeId => do
      let acts ← gate.auth.mayActAs header nodeId
      if !acts then deny limiter clock host (some nodeId) else pure (.accepted, limiter)
  | .metrics nodeId => do
      let acts ← gate.auth.mayActAs header nodeId
      if !acts then deny limiter clock host (some nodeId) else pure (.accepted, limiter)
  | .tunnel registered => do
      let node ← gate.auth.tunnelNode header
      match node with
      -- a bad credential, not just one that is not registered yet
      | none => pure (.denied tunnelClosed, limiter.record clock host)
      | some n =>
          if gate.control.tunnelEnabled && registered n then pure (.accepted, limiter)
          else pure (.refused tunnelClosed, limiter)

/-- A call: its source is checked, then its credential. -/
def answer (header : Option String) (call : GatedCall) : AuthM (GateReply × FailureLimiter) :=
  match gate.workerSource limiter clock host with
  | (some error, limiter) => pure (.refused error, limiter)
  | (none, limiter) => gate.endpoint limiter clock host header call

end WorkerGate

/-! ## Headers that are never compared -/

namespace Authenticator

/-- What `hmac.compare_digest` is handed for a header is ASCII: the bearer and the reusable
token, where there are both, and the signature in a bearer of the form of a node token. -/
structure AsciiCompared (auth : Authenticator) (header : Option String) : Prop where
  reusable : ∀ token reusable, bearer header = some token →
    auth.reusableToken = some reusable →
    Python.isAscii token = true ∧ Python.isAscii reusable = true
  signature : ∀ token rest, bearer header = some token →
    Python.afterStart nodePrefix token = some rest → (Python.partition rest '.').1 ≠ "" →
    Python.isAscii (Python.partition rest '.').2 = true

variable {auth : Authenticator} {header : Option String} {token rest : String}

theorem compareDigest_raises {a b : String}
    (foreign : ¬ (Python.isAscii a = true ∧ Python.isAscii b = true)) :
    ∃ e, Python.compareDigest a b = .error e := by
  unfold Python.compareDigest
  rw [if_neg (by simpa using foreign)]
  exact ⟨_, rfl⟩

theorem AsciiCompared.isReusable (compared : auth.AsciiCompared header) :
    ∃ b, auth.isReusable (bearer header) = .ok b := by
  unfold Authenticator.isReusable
  cases found : bearer header with
  | none => exact ⟨false, rfl⟩
  | some token =>
    cases set : auth.reusableToken with
    | none => exact ⟨false, rfl⟩
    | some reusable =>
      obtain ⟨ascii, ascii'⟩ := compared.reusable token reusable found set
      exact ⟨_, Python.compareDigest_ascii ascii ascii'⟩

theorem AsciiCompared.nodeFromToken (compared : auth.AsciiCompared header)
    (found : bearer header = some token) : ∃ r, auth.nodeFromToken token = .ok r := by
  unfold Authenticator.nodeFromToken
  cases begins : Python.afterStart nodePrefix token with
  | none => exact ⟨none, rfl⟩
  | some rest =>
    have signature := compared.signature token rest found begins
    rcases parts : Python.partition rest '.' with ⟨id, mac⟩
    rw [parts] at signature
    by_cases nameless : id = ""
    · simp only [parts, nameless, if_true]
      exact ⟨none, rfl⟩
    · have digest : Python.isAscii (auth.digests.macFor "node" id) = true :=
        Python.isAscii_of_hex (auth.digests.mac_hex _)
      simp only [parts, nameless, if_false,
        Python.compareDigest_ascii (signature nameless) digest]
      exact ⟨_, rfl⟩

/-! ## Every method returns -/

theorem returns_validNode (compared : auth.AsciiCompared header) :
    (auth.validNode (bearer header)).Returns fun _ => True := by
  unfold validNode
  cases found : bearer header with
  | none => exact trivial
  | some token =>
    obtain ⟨r, read⟩ := compared.nodeFromToken found
    simp only [read, Query.lift_ok, Query.pure_bind']
    cases r with
    | none => exact trivial
    | some n => exact (Query.returns_request _).bind fun _ _ => Query.returns_pure trivial

theorem returns_peekBearer (token : Option String) :
    (auth.peekBearer token).Returns fun _ => True := by
  unfold peekBearer
  cases token with
  | none => exact trivial
  | some token =>
    simp only [peekJoinToken]
    split
    · exact (Query.returns_request _).bind fun _ _ => Query.returns_request _
    · exact trivial

theorem returns_consumeBearer (token : Option String) :
    (auth.consumeBearer token).Returns fun _ => True := by
  unfold consumeBearer
  cases token with
  | none => exact trivial
  | some token =>
    simp only [consumeJoinToken]
    split
    · apply (Query.returns_request _).bind
      intro now _
      apply (Query.returns_request _).bind
      intro spent _
      split
      · exact Query.returns_pure trivial
      · exact Query.returns_request _
    · exact trivial

theorem returns_mayReadSpec (compared : auth.AsciiCompared header) :
    (auth.mayReadSpec header).Returns fun _ => True := by
  obtain ⟨reusable, read⟩ := compared.isReusable
  unfold mayReadSpec
  split
  · exact trivial
  · simp only [read, Query.lift_ok, Query.pure_bind']
    split
    · exact trivial
    · apply (returns_peekBearer _).bind
      intro joins _
      split
      · exact Query.returns_pure trivial
      · exact (returns_validNode compared).bind fun _ _ => Query.returns_pure trivial

theorem returns_mayRegister (compared : auth.AsciiCompared header) (n : NodeId) :
    (auth.mayRegister header n).Returns fun _ => True := by
  obtain ⟨reusable, read⟩ := compared.isReusable
  unfold mayRegister
  apply (Query.returns_request _).bind
  intro revoked _
  split
  · exact Query.returns_pure trivial
  · split
    · exact Query.returns_pure trivial
    · simp only [read, Query.lift_ok, Query.pure_bind']
      split
      · exact trivial
      · apply (returns_validNode compared).bind
        intro node _
        split
        · exact Query.returns_pure trivial
        · exact returns_consumeBearer _

theorem returns_mayActAs (compared : auth.AsciiCompared header) (n : NodeId) :
    (auth.mayActAs header n).Returns fun _ => True := by
  obtain ⟨reusable, read⟩ := compared.isReusable
  unfold mayActAs
  apply (Query.returns_request _).bind
  intro revoked _
  split
  · exact Query.returns_pure trivial
  · split
    · exact Query.returns_pure trivial
    · simp only [read, Query.lift_ok, Query.pure_bind']
      split
      · exact trivial
      · exact (returns_validNode compared).bind fun _ _ => Query.returns_pure trivial

/-- A header whose comparison raises: with the reusable token `/spec` raises, and with a node's
signature the tunnel does. -/
theorem asciiCompared_of_returns (reads : (auth.mayReadSpec header).Returns fun _ => True)
    (tunnels : (auth.tunnelNode header).Returns fun _ => True) : auth.AsciiCompared header := by
  constructor
  · intro token reusable found set
    by_contra foreign
    obtain ⟨e, raises⟩ := compareDigest_raises foreign
    have enforced : auth.enforced = true := by
      simp [enforced, set]
    have failed : auth.isReusable (bearer header) = .error e := by
      simp only [found, Authenticator.isReusable, set, raises]
    unfold mayReadSpec at reads
    simp only [enforced, Bool.not_true, Bool.false_eq_true, if_false, failed,
      Query.lift_error_bind] at reads
    exact reads
  · intro token rest found begins named
    by_contra foreign
    obtain ⟨e, raises⟩ := compareDigest_raises
      (b := auth.digests.macFor "node" (Python.partition rest '.').1)
      fun both => foreign both.1
    have failed : auth.nodeFromToken token = .error e := by
      rcases parts : Python.partition rest '.' with ⟨id, mac⟩
      rw [parts] at named raises
      simp only [Authenticator.nodeFromToken, begins, parts, named, if_false, raises]
      rfl
    unfold tunnelNode validNode at tunnels
    rw [found] at tunnels
    simp only [failed, Query.lift_error_bind] at tunnels
    exact tunnels

end Authenticator

/-! ## Every denial is recorded -/

namespace FailureLimiter

variable {limiter : FailureLimiter} {clock : Rat} {host : Option String} {h : String}

theorem dropWhile_dropWhile {α : Type} (old : α → Bool) (times : List α) :
    (times.dropWhile old).dropWhile old = times.dropWhile old := by
  induction times with
  | nil => rfl
  | cons t times ih =>
    cases aged : old t with
    | true => simpa [aged] using ih
    | false => simp [aged]

theorem recent_blocked :
    (limiter.blocked clock host).2.recent clock h = limiter.recent clock h := by
  unfold blocked
  cases host with
  | none => rfl
  | some host =>
    simp only [recent, withFailures]
    split
    · next same =>
      rw [same]
      exact dropWhile_dropWhile _ _
    · rfl

theorem failures_record :
    (limiter.record clock (some h)).failures h = limiter.recent clock h ++ [clock] :=
  if_pos rfl

end FailureLimiter

/-- A failure is recorded against the address of the call, if it has one. -/
def Recorded (limiter limiter' : FailureLimiter) (clock : Rat) (host : Option String) : Prop :=
  ∀ h, host = some h → limiter'.failures h = limiter.recent clock h ++ [clock]

/-- A denial is recorded. -/
def DenialRecorded (limiter : FailureLimiter) (clock : Rat) (host : Option String)
    (result : GateReply × FailureLimiter) : Prop :=
  (∃ error, result.1 = .denied error) → Recorded limiter result.2 clock host

namespace WorkerGate

open Authenticator

variable {gate : WorkerGate} {limiter : FailureLimiter} {clock : Rat} {host : Option String}
  {header : Option String}

theorem recorded_record : Recorded limiter (limiter.record clock host) clock host := by
  rintro h rfl
  exact FailureLimiter.failures_record

theorem returns_deny (nodeId : Option NodeId) :
    (deny limiter clock host nodeId).Returns (DenialRecorded limiter clock host) := by
  unfold deny
  cases nodeId with
  | none => exact Query.returns_pure fun _ => recorded_record
  | some n =>
    exact (Query.returns_request _).bind fun _ _ => Query.returns_pure fun _ => recorded_record

theorem denialRecorded_of_ne {reply : GateReply} (other : ∀ error, reply ≠ .denied error) :
    DenialRecorded limiter clock host (reply, limiter) := by
  rintro ⟨error, denied⟩
  exact absurd denied (other error)

theorem returns_accepted :
    Query.Returns (DenialRecorded limiter clock host)
      (pure (.accepted, limiter) : AuthM (GateReply × FailureLimiter)) :=
  Query.returns_pure (denialRecorded_of_ne (by simp))

theorem returns_refused (error : HttpError) :
    Query.Returns (DenialRecorded limiter clock host)
      (pure (.refused error, limiter) : AuthM (GateReply × FailureLimiter)) :=
  Query.returns_pure (denialRecorded_of_ne (by simp))

/-- An endpoint that asks the authenticator one question. -/
theorem returns_decision {method : AuthM Bool} {nodeId : Option NodeId}
    {next : AuthM (GateReply × FailureLimiter)} (returns : method.Returns fun _ => True)
    (goes : next.Returns (DenialRecorded limiter clock host)) :
    Query.Returns (DenialRecorded limiter clock host) (do
      let decision ← method
      if !decision then deny limiter clock host nodeId else next) := by
  apply returns.bind
  intro decision _
  split
  · exact returns_deny nodeId
  · exact goes

theorem returns_endpoint (compared : gate.auth.AsciiCompared header) (call : GatedCall) :
    (gate.endpoint limiter clock host header call).Returns
      (DenialRecorded limiter clock host) := by
  cases call with
  | spec profile model =>
    apply returns_decision (returns_mayReadSpec compared)
    split
    · exact returns_refused _
    · exact returns_accepted
  | register req =>
    rw [endpoint]
    split
    · exact returns_refused _
    · apply returns_decision (returns_mayReadSpec compared)
      split
      · exact returns_refused _
      · exact returns_decision (returns_mayRegister compared _) returns_accepted
  | heartbeat nodeId => exact returns_decision (returns_mayActAs compared _) returns_accepted
  | metrics nodeId => exact returns_decision (returns_mayActAs compared _) returns_accepted
  | tunnel registered =>
    apply (returns_validNode compared).bind
    intro node _
    cases node with
    | none => exact Query.returns_pure fun _ => recorded_record
    | some n =>
      simp only
      split
      · exact returns_accepted
      · exact returns_refused _

theorem returns_answer (compared : gate.auth.AsciiCompared header) (call : GatedCall) :
    (gate.answer limiter clock host header call).Returns
      (DenialRecorded limiter clock host) := by
  unfold answer workerSource
  split
  · next error limiter' checked =>
    apply Query.returns_pure
    rintro ⟨error, denied⟩
    cases denied
  · next limiter' checked =>
    -- the check only drops the failures that have aged out
    have same : ∀ h, limiter'.recent clock h = limiter.recent clock h := by
      intro h
      split at checked
      · cases checked
      · obtain ⟨-, rfl⟩ := Prod.mk.inj checked
        exact FailureLimiter.recent_blocked
    apply (returns_endpoint compared call).mono
    intro result recorded denied h here
    rw [recorded denied h here, same]

/-- What the worker-facing endpoints do with a header: the authenticator's methods return a
decision, and a call that is denied is recorded against its address. -/
structure Decides (gate : WorkerGate) (header : Option String) : Prop where
  reads : (gate.auth.mayReadSpec header).Returns fun _ => True
  registers : ∀ n, (gate.auth.mayRegister header n).Returns fun _ => True
  acts : ∀ n, (gate.auth.mayActAs header n).Returns fun _ => True
  tunnels : (gate.auth.tunnelNode header).Returns fun _ => True
  counted : ∀ limiter clock host call,
    (gate.answer limiter clock host header call).Returns (DenialRecorded limiter clock host)

/-- **A decision for every header**, and every denial counted, exactly when no comparison gets
a string that is not ASCII. -/
theorem decides_iff (gate : WorkerGate) (header : Option String) :
    gate.Decides header ↔ gate.auth.AsciiCompared header := by
  constructor
  · intro decides
    exact asciiCompared_of_returns decides.reads decides.tunnels
  · intro compared
    exact ⟨returns_mayReadSpec compared, returns_mayRegister compared,
      returns_mayActAs compared, returns_validNode compared,
      fun _ _ _ call => returns_answer compared call⟩

/-- A fleet with a reusable token, open to every address. -/
def openGate : WorkerGate := ⟨gemmaFleet, customAuth "fleet-secret", fun _ => true⟩

/-- **A header that gets no decision**: its bearer is not ASCII, so the comparison with the
reusable token raises, and nothing is recorded. -/
theorem foreign_header_raises :
    (∃ e, ((openGate.answer { failures := fun _ => [] } 0 (some "203.0.113.7")
        (some "Bearer \u00e9") (.heartbeat "node-1")).exec (AuthDb.answer 0)
          ⟨[], [], .empty⟩).1 = .error e) ∧
    ¬ ∀ (gate : WorkerGate) (header : Option String), gate.Decides header := by
  refine ⟨⟨_, rfl⟩, fun claim => ?_⟩
  have decides := claim openGate (some "Bearer \u00e9")
  have compared := asciiCompared_of_returns decides.reads decides.tunnels
  have ascii := compared.reusable "\u00e9" "fleet-secret" (by decide) rfl
  exact absurd ascii.1 (by decide)

end WorkerGate

end Oumigo
