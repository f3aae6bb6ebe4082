import Oumigo.Auth.Authorization
import Oumigo.Auth.Spending

/-!
# The token of a registration

`/register` takes any string for a node id and answers with the node's token.
`nodeFromToken_sound`: what a token names can be named, and has that token alone.
`credentials_round_trip_iff` says for which ids the token is good for the calls that
follow.
-/

namespace Oumigo

namespace Authenticator

variable {auth : Authenticator} {db : AuthDb} {now : Rat} {token : String} {n : NodeId}

/-- A token names a node only if it is the node's own, and the id has no separator. -/
theorem nodeFromToken_sound (named : auth.nodeFromToken token = .ok (some n)) :
    TokenId n ∧ token = auth.digests.nodeToken n := by
  unfold nodeFromToken at named
  cases begins : Python.afterStart nodePrefix token with
  | none =>
    rw [begins] at named
    cases named
  | some rest =>
    rw [begins] at named
    dsimp only at named
    cases parts : Python.partition rest '.' with
    | mk id mac =>
      rw [parts] at named
      dsimp only at named
      split at named
      · cases named
      · next nonempty =>
        have digest : Python.isAscii (auth.digests.macFor "node" id) = true :=
          Python.isAscii_of_hex (auth.digests.mac_hex _)
        cases ascii : Python.isAscii mac with
        | false =>
          have raises : Python.compareDigest mac (auth.digests.macFor "node" id) =
              .error (Python.typeError
                "comparing strings with non-ASCII characters is not supported") := by
            unfold Python.compareDigest
            rw [ascii]
            rfl
          rw [raises] at named
          cases named
        | true =>
          rw [Python.compareDigest_ascii ascii digest] at named
          by_cases valid : mac = auth.digests.macFor "node" id
          · rw [decide_eq_true valid] at named
            cases named
            have some : mac ≠ "" := valid ▸ auth.digests.mac_ne _
            obtain ⟨whole, single⟩ := Python.partition_eq parts some
            refine ⟨⟨nonempty, single⟩, ?_⟩
            rw [Python.afterStart_eq_some.mp begins, whole, valid]
            rfl
          · rw [decide_eq_false valid] at named
            cases named

theorem isAscii_nodeToken : Python.isAscii (auth.digests.nodeToken n) = Python.isAscii n := by
  have mac : Python.isAscii (auth.digests.macFor "node" n) = true :=
    Python.isAscii_of_hex (auth.digests.mac_hex _)
  have fixed : Python.isAscii nodePrefix = true := by decide
  have dot : Python.isAscii "." = true := by decide
  rw [Bool.eq_iff_iff]
  unfold Digests.nodeToken
  simp only [Python.isAscii_append, fixed, dot, mac, and_true, true_and]

/-- The header of a worker that has this node token. -/
def nodeHeader (auth : Authenticator) (n : NodeId) : Option String :=
  some ("Bearer " ++ auth.digests.nodeToken n)

/-- The reusable token, if there is one, can be compared with the node's token. -/
def Comparable (auth : Authenticator) (n : NodeId) : Prop :=
  ∀ reusable, auth.reusableToken = some reusable →
    Python.isAscii n = true ∧ Python.isAscii reusable = true

theorem isReusable_comparable (comparable : auth.Comparable n) :
    ∃ b, auth.isReusable (bearer (auth.nodeHeader n)) = .ok b := by
  unfold isReusable nodeHeader
  rw [bearer_nodeToken]
  cases set : auth.reusableToken with
  | none => exact ⟨false, rfl⟩
  | some reusable =>
    obtain ⟨id, ascii⟩ := comparable reusable set
    exact ⟨_, Python.compareDigest_ascii (isAscii_nodeToken.trans id) ascii⟩

theorem exec_validNode_own (id : TokenId n) (kept : db.isNodeRevoked n = false) :
    (auth.validNode (bearer (auth.nodeHeader n))).exec (AuthDb.answer now) db =
      (.ok (some n), db) := by
  unfold nodeHeader
  rw [bearer_nodeToken, exec_validNode]
  dsimp only
  rw [nodeFromToken_nodeToken auth id]
  simp [Except.map, Option.filter_some, kept]

/-- The calls a worker makes with its node token: heartbeats, metrics, another
registration, tunnels. -/
structure Accepted (auth : Authenticator) (db : AuthDb) (now : Rat) (n : NodeId) : Prop where
  acts : Allows db now (auth.mayActAs (auth.nodeHeader n) n)
  reads : Allows db now (auth.mayReadSpec (auth.nodeHeader n))
  registers : Allows db now (auth.mayRegister (auth.nodeHeader n) n)
  tunnels : ((auth.tunnelNode (auth.nodeHeader n)).exec (AuthDb.answer now) db).1 = .ok (some n)

theorem accepted_of_tokenId (id : TokenId n) (comparable : auth.Comparable n)
    (kept : db.isNodeRevoked n = false) : auth.Accepted db now n := by
  obtain ⟨b, compared⟩ := isReusable_comparable comparable
  have valid : (auth.validNode (bearer (auth.nodeHeader n))).exec (AuthDb.answer now) db =
      (.ok (some n), db) := exec_validNode_own id kept
  refine ⟨?_, ?_, ?_, ?_⟩
  · unfold Allows mayActAs
    rw [AuthDb.exec_isNodeRevoked_bind, kept]
    cases enforced : auth.enforced <;> cases b <;> simp [compared, Query.exec_bind, valid]
  · obtain ⟨j, peeked, -⟩ := exec_peekBearer auth db now (auth.nodeHeader n)
    unfold Allows mayReadSpec
    cases enforced : auth.enforced <;> cases b <;> cases j <;>
      simp [compared, Query.exec_bind, peeked, valid]
  · unfold Allows mayRegister
    rw [AuthDb.exec_isNodeRevoked_bind, kept]
    cases enforced : auth.enforced <;> cases b <;> simp [compared, Query.exec_bind, valid]
  · unfold tunnelNode
    rw [valid]

theorem not_acts_of_not_comparable (clash : ¬ auth.Comparable n)
    (kept : db.isNodeRevoked n = false) :
    ¬ Allows db now (auth.mayActAs (auth.nodeHeader n) n) := by
  unfold Comparable at clash
  push Not at clash
  obtain ⟨reusable, set, foreign⟩ := clash
  have enforced : auth.enforced = true := by
    unfold enforced
    rw [set, Option.isSome_some, Bool.or_true]
  have raises : ∃ e, auth.isReusable (bearer (auth.nodeHeader n)) = .error e := by
    unfold isReusable nodeHeader Python.compareDigest
    rw [bearer_nodeToken, set]
    dsimp only
    rw [isAscii_nodeToken, if_neg (by simpa using foreign)]
    exact ⟨_, rfl⟩
  obtain ⟨e, raised⟩ := raises
  unfold Allows mayActAs
  rw [AuthDb.exec_isNodeRevoked_bind, kept]
  simp [raised, enforced]

/-- The node's token names the node, every later call of the node with it is accepted while
the node is not revoked, and no other token names the node. -/
structure CredentialsRoundTrip (auth : Authenticator) (n : NodeId) : Prop where
  names : auth.nodeFromToken (auth.digests.nodeToken n) = .ok (some n)
  accepted : ∀ db now, db.isNodeRevoked n = false → auth.Accepted db now n
  own : ∀ token, auth.nodeFromToken token = .ok (some n) → token = auth.digests.nodeToken n

/-- **Credentials round-trip** for exactly the ids that are not empty and hold no dot, and
that `hmac.compare_digest` can compare with the reusable token. -/
theorem credentials_round_trip_iff (auth : Authenticator) (n : NodeId) :
    auth.CredentialsRoundTrip n ↔ TokenId n ∧ auth.Comparable n := by
  constructor
  · intro trip
    refine ⟨(nodeFromToken_sound trip.names).1, ?_⟩
    by_contra clash
    have kept : (⟨[], [], .empty⟩ : AuthDb).isNodeRevoked n = false := rfl
    exact not_acts_of_not_comparable clash kept (trip.accepted _ 0 kept).acts
  · rintro ⟨id, comparable⟩
    exact ⟨nodeFromToken_nodeToken auth id,
      fun db now kept => accepted_of_tokenId id comparable kept,
      fun token named => (nodeFromToken_sound named).2⟩

/-- `/register` accepts the id `a.b`, and no signing secret makes a token for it that names
it: the id is cut at its own dot. -/
theorem dotted_id_unnamed :
    (∃ granted, ((WorkerCall.registerProgram gemmaFleet (customAuth "fleet-secret")
        (some "Bearer fleet-secret") (joins "a.b")).exec (AuthDb.answer 0)
          ⟨[], [], .empty⟩).1 = .ok (.ok granted)) ∧
      ∀ digests : Digests, (Authenticator.mk digests (some "fleet-secret") true).nodeFromToken
        (digests.nodeToken "a.b") ≠ .ok (some "a.b") := by
  constructor
  · have reads : ((WorkerCall.registerProgram gemmaFleet (customAuth "fleet-secret")
        (some "Bearer fleet-secret") (joins "a.b")).exec (AuthDb.answer 0)
          ⟨[], [], .empty⟩).1.map (fun outcome => outcome.toOption.isSome) = .ok true := by
      decide +kernel
    cases ran : ((WorkerCall.registerProgram gemmaFleet (customAuth "fleet-secret")
        (some "Bearer fleet-secret") (joins "a.b")).exec (AuthDb.answer 0)
          ⟨[], [], .empty⟩).1 with
    | error raised =>
      rw [ran] at reads
      cases reads
    | ok outcome =>
      rw [ran] at reads
      cases outcome with
      | error refusal => cases reads
      | ok granted => exact ⟨granted, rfl⟩
  · intro digests named
    have dotted : ¬ TokenId "a.b" := by
      rintro ⟨-, single⟩
      exact single (by decide)
    exact dotted (nodeFromToken_sound named).1

end Authenticator

end Oumigo
