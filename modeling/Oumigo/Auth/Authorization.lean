import Oumigo.Auth.Authenticator
import Mathlib.Data.Set.Finite.Basic
import Mathlib.Data.Set.Finite.Range

/-!
# What the authenticator allows

The authenticator's methods on one state of the auth database: what each answers, in
terms of the bearer's credential.  `hmac.compare_digest` refuses strings that are not
ASCII, so a reusable token that is not breaks every call that carries a bearer.
-/

namespace Oumigo

namespace Authenticator

variable {auth : Authenticator} {db : AuthDb} {now : Rat} {header : Option String}
  {token : String} {n m : NodeId}

/-- A method returned true. -/
def Allows (db : AuthDb) (now : Rat) (method : AuthM Bool) : Prop :=
  (method.exec (AuthDb.answer now) db).1 = .ok true

/-- The bearer is the reusable token. -/
def PresentsReusable (auth : Authenticator) (header : Option String) : Prop :=
  ∃ token, bearer header = some token ∧ auth.reusableToken = some token

/-- The bearer is a usable minted join token. -/
def PresentsJoin (auth : Authenticator) (db : AuthDb) (now : Rat) (header : Option String) :
    Prop :=
  ∃ token, bearer header = some token ∧ joinPrefix.toList.isPrefixOf token.toList = true ∧
    ∃ row ∈ db.joinTokens, row.usable (auth.digests.hash token) now = true

/-- An Authorization header, if any, in ASCII. -/
def AsciiHeader (header : Option String) : Prop := ∀ h, header = some h → Python.isAscii h = true

/-- A node id a token can be issued to and read back from. -/
def TokenId (n : NodeId) : Prop := n ≠ "" ∧ '.' ∉ n.toList

/-! ## Node tokens -/

theorem ascii_bearer (ascii : AsciiHeader header) (found : bearer header = some token) :
    Python.isAscii token = true := by
  cases header with
  | none => cases found
  | some h =>
    have whole := ascii h rfl
    unfold bearer at found
    dsimp only at found
    cases parts : Python.partition h ' ' with
    | mk scheme value =>
      rw [parts] at found
      dsimp only at found
      split at found
      · cases found
      · split at found
        · cases found
        · have part : (Python.partition h ' ').2 = value := by rw [parts]
          have valueAscii : Python.isAscii value = true :=
            Python.isAscii_of_subset (part ▸ Python.partition_subset h ' ') whole
          rw [← Option.some.inj found]
          exact Python.isAscii_of_subset (Python.strip_subset value) valueAscii

variable (auth) in
/-- A node's own token names it. -/
theorem nodeFromToken_nodeToken (id : TokenId n) :
    auth.nodeFromToken (auth.digests.nodeToken n) = .ok (some n) := by
  have rest : Python.afterStart nodePrefix (auth.digests.nodeToken n) =
      some (n ++ "." ++ auth.digests.macFor "node" n) := Python.afterStart_eq_some.mpr rfl
  have parts : Python.partition (n ++ "." ++ auth.digests.macFor "node" n) '.' =
      (n, auth.digests.macFor "node" n) := Python.partition_of_toList (by simp) id.2
  have ascii : Python.isAscii (auth.digests.macFor "node" n) = true :=
    Python.isAscii_of_hex (auth.digests.mac_hex _)
  unfold nodeFromToken
  rw [rest]
  dsimp only
  rw [parts]
  dsimp only
  rw [if_neg id.1, Python.compareDigest_ascii ascii ascii, decide_eq_true rfl]
  rfl

variable (auth) in
/-- An ASCII token names a node only if it is the node's own. -/
theorem nodeFromToken_ascii (ascii : Python.isAscii token = true) :
    ∃ r, auth.nodeFromToken token = .ok r ∧
      ∀ n, r = some n → token = auth.digests.nodeToken n := by
  unfold nodeFromToken
  cases begins : Python.afterStart nodePrefix token with
  | none => exact ⟨none, rfl, nofun⟩
  | some rest =>
    have same := Python.afterStart_eq_some.mp begins
    rw [same, Python.isAscii_append] at ascii
    dsimp only
    cases parts : Python.partition rest '.' with
    | mk id mac =>
      dsimp only
      split
      · exact ⟨none, rfl, nofun⟩
      · have macAscii : Python.isAscii mac = true := by
          have part : (Python.partition rest '.').2 = mac := by rw [parts]
          rw [← part]
          exact Python.isAscii_of_subset (Python.partition_subset rest '.') ascii.2
        have digest : Python.isAscii (auth.digests.macFor "node" id) = true :=
          Python.isAscii_of_hex (auth.digests.mac_hex _)
        rw [Python.compareDigest_ascii macAscii digest]
        refine ⟨_, rfl, fun n named => ?_⟩
        split at named
        · next valid =>
          cases named
          have valid : mac = auth.digests.macFor "node" id := by simpa using valid
          have some : mac ≠ "" := valid ▸ auth.digests.mac_ne _
          obtain ⟨whole, -⟩ := Python.partition_eq parts some
          rw [same, whole, valid]
          rfl
        · cases named

theorem exec_validNode {token : Option String} :
    (auth.validNode token).exec (AuthDb.answer now) db =
      (match token with
        | none => .ok none
        | some token => (auth.nodeFromToken token).map fun r =>
            r.filter fun n => !db.isNodeRevoked n, db) := by
  unfold validNode
  cases token with
  | none => rfl
  | some token =>
    dsimp only
    rw [Query.exec_bind, Query.exec_lift]
    cases auth.nodeFromToken token with
    | error e => rfl
    | ok r =>
      cases r with
      | none => rfl
      | some n =>
        cases revoked : db.isNodeRevoked n <;>
          simp [Except.map, Option.filter_some, revoked]

variable (auth db now) in
/-- `_valid_node` answers with exactly the node whose token it is, unless revoked. -/
theorem validNode_ascii (ascii : AsciiHeader header) :
    ∃ r, (auth.validNode (bearer header)).exec (AuthDb.answer now) db = (.ok r, db) ∧
      (∀ n, TokenId n → (r = some n ↔
        bearer header = some (auth.digests.nodeToken n) ∧ db.isNodeRevoked n = false)) ∧
      ∀ n, r = some n → db.isNodeRevoked n = false := by
  rw [exec_validNode]
  cases found : bearer header with
  | none => exact ⟨none, rfl, fun n id => ⟨nofun, fun own => nomatch own.1⟩, nofun⟩
  | some token =>
    obtain ⟨r, read, own⟩ := nodeFromToken_ascii auth (ascii_bearer ascii found)
    dsimp only
    rw [read]
    refine ⟨_, rfl, fun n id => ⟨fun valid => ?_, fun valid => ?_⟩, fun n valid => ?_⟩
    · obtain ⟨named, kept⟩ := Option.filter_eq_some_iff.mp valid
      exact ⟨congrArg some (own n named), by simpa using kept⟩
    · obtain ⟨same, kept⟩ := valid
      rw [Option.some.inj same, nodeFromToken_nodeToken auth id] at read
      cases read
      exact Option.filter_eq_some_iff.mpr ⟨rfl, by simpa using kept⟩
    · obtain ⟨-, kept⟩ := Option.filter_eq_some_iff.mp valid
      simpa using kept

/-- With an ASCII reusable token, `_is_reusable` is a comparison. -/
theorem isReusable_ascii (ascii : AsciiHeader header)
    (reusable : ∀ r, auth.reusableToken = some r → Python.isAscii r = true) :
    ∃ b, auth.isReusable (bearer header) = .ok b ∧ (b = true ↔ auth.PresentsReusable header) := by
  unfold isReusable PresentsReusable
  cases found : bearer header with
  | none => exact ⟨false, rfl, nofun, fun ⟨_, presented, _⟩ => nomatch presented⟩
  | some token =>
    cases set : auth.reusableToken with
    | none => exact ⟨false, rfl, nofun, fun ⟨_, _, same⟩ => nomatch same⟩
    | some r =>
      dsimp only
      rw [Python.compareDigest_ascii (ascii_bearer ascii found) (reusable r set)]
      refine ⟨_, rfl, ?_⟩
      rw [decide_eq_true_eq]
      constructor
      · intro same
        exact ⟨token, rfl, congrArg some same.symm⟩
      · rintro ⟨token', presented, same⟩
        rw [Option.some.inj presented]
        exact (Option.some.inj same).symm

/-- `check_join_token` spends a use or finds an unlimited token: either way the row was
usable. -/
theorem exec_consumeJoinToken :
    ((auth.consumeJoinToken token).exec (AuthDb.answer now) db).1 = .ok true ↔
      joinPrefix.toList.isPrefixOf token.toList = true ∧
      ∃ row ∈ db.joinTokens, row.usable (auth.digests.hash token) now = true := by
  unfold consumeJoinToken
  split
  · next begins =>
    simp only [begins, true_and, AuthDb.exec_now_bind, AuthDb.exec_updateUses_bind]
    cases spent : db.joinTokens.any (AuthDb.spends (auth.digests.hash token) now) with
    | true =>
      obtain ⟨row, member, spends⟩ := List.any_eq_true.mp spent
      rw [AuthDb.spends, Bool.and_eq_true] at spends
      exact ⟨fun _ => ⟨row, member, spends.1⟩, fun _ => rfl⟩
    | false =>
      have spared : ∀ row ∈ db.joinTokens,
          AuthDb.spends (auth.digests.hash token) now row = false := by
        simpa using spent
      rw [AuthDb.spend_eq_self spared]
      simp only [Bool.false_eq_true, if_false, AuthDb.exec_selectUnlimited, Except.ok.injEq,
        List.any_eq_true, Bool.and_eq_true]
      constructor
      · rintro ⟨row, member, usable, -⟩
        exact ⟨row, member, usable⟩
      · rintro ⟨row, member, usable⟩
        have spare := spared row member
        rw [AuthDb.spends, usable, Bool.true_and] at spare
        exact ⟨row, member, usable, by simpa using spare⟩
  · next foreign => simp [foreign]

variable (auth db now header) in
/-- Peeking at the bearer finds out whether it is a usable join token. -/
theorem exec_peekBearer :
    ∃ j, (auth.peekBearer (bearer header)).exec (AuthDb.answer now) db = (.ok j, db) ∧
      (j = true ↔ auth.PresentsJoin db now header) := by
  unfold PresentsJoin peekBearer
  cases bearer header with
  | none => exact ⟨false, rfl, nofun, fun ⟨_, presented, _⟩ => nomatch presented⟩
  | some token =>
    dsimp only
    unfold peekJoinToken
    cases begins : joinPrefix.toList.isPrefixOf token.toList with
    | true =>
      refine ⟨db.joinTokens.any (·.usable (auth.digests.hash token) now), rfl, ?_⟩
      rw [List.any_eq_true]
      exact ⟨fun found => ⟨token, rfl, begins, found⟩, fun ⟨_, same, _, found⟩ => by
        cases same
        exact found⟩
    | false =>
      refine ⟨false, rfl, nofun, fun ⟨_, same, joins, _⟩ => ?_⟩
      cases same
      exact absurd (begins.symm.trans joins) Bool.false_ne_true

/-! ## The four entry points -/

section

variable (ascii : AsciiHeader header) (enforced : auth.enforced = true)
  (reusable : ∀ r, auth.reusableToken = some r → Python.isAscii r = true)

include ascii enforced reusable

theorem allows_mayActAs (id : TokenId n) :
    Allows db now (auth.mayActAs header n) ↔ db.isNodeRevoked n = false ∧
      (auth.PresentsReusable header ∨ bearer header = some (auth.digests.nodeToken n)) := by
  obtain ⟨b, compared, presents⟩ := isReusable_ascii ascii reusable
  obtain ⟨r, valid, own, -⟩ := validNode_ascii auth db now ascii
  unfold Allows mayActAs
  rw [AuthDb.exec_isNodeRevoked_bind]
  cases revoked : db.isNodeRevoked n with
  | true => simp
  | false =>
    dsimp only
    rw [compared, ← presents]
    cases b with
    | true => simp [enforced]
    | false =>
      have own := own n id
      rw [revoked] at own
      simp [enforced, Query.exec_bind, valid, own]

theorem allows_mayRegister (id : TokenId n) :
    Allows db now (auth.mayRegister header n) ↔ db.isNodeRevoked n = false ∧
      (auth.PresentsReusable header ∨ bearer header = some (auth.digests.nodeToken n) ∨
        auth.PresentsJoin db now header) := by
  obtain ⟨b, compared, presents⟩ := isReusable_ascii ascii reusable
  obtain ⟨r, valid, own, -⟩ := validNode_ascii auth db now ascii
  unfold Allows mayRegister
  rw [AuthDb.exec_isNodeRevoked_bind]
  cases revoked : db.isNodeRevoked n with
  | true => simp
  | false =>
    dsimp only
    rw [compared, ← presents]
    cases b with
    | true => simp [enforced]
    | false =>
      have own := own n id
      rw [revoked] at own
      simp only [enforced, Query.lift_ok, Query.pure_bind', Bool.false_eq_true, if_false,
        Bool.not_true, Query.exec_bind, valid, false_or, true_and]
      split
      · next named => simp [own.mp named]
      · next foreign =>
        have foreign : bearer header ≠ some (auth.digests.nodeToken n) := by
          simpa using own.not.mp foreign
        unfold PresentsJoin consumeBearer
        cases found : bearer header with
        | none => simp
        | some token =>
          rw [found] at foreign
          simp only [foreign, false_or, Option.some.injEq, exists_eq_left']
          exact exec_consumeJoinToken

/-- `/register` asks both questions; the second one decides. -/
theorem allows_mayReadSpec (id : TokenId n)
    (registers : Allows db now (auth.mayRegister header n)) :
    Allows db now (auth.mayReadSpec header) := by
  obtain ⟨kept, credential⟩ := (allows_mayRegister ascii enforced reusable id).mp registers
  obtain ⟨b, compared, presents⟩ := isReusable_ascii ascii reusable
  obtain ⟨r, valid, own, -⟩ := validNode_ascii auth db now ascii
  unfold Allows mayReadSpec
  simp only [enforced, compared, Query.lift_ok, Query.pure_bind', Bool.not_true,
    Bool.false_eq_true, if_false]
  cases b with
  | true => rfl
  | false =>
    obtain ⟨j, peeked, joins⟩ := exec_peekBearer auth db now header
    rw [if_neg Bool.false_ne_true, Query.exec_bind, peeked]
    cases j with
    | true => rfl
    | false =>
      have own : r = some n := by
        rcases credential with reusable | token | join
        · exact absurd (presents.mpr reusable) Bool.false_ne_true
        · exact (own n id).mpr ⟨token, kept⟩
        · exact absurd (joins.mpr join) Bool.false_ne_true
      simp [Query.exec_bind, valid, own]

end

theorem tunnelNode_eq (ascii : AsciiHeader header) (id : TokenId n) :
    ((auth.tunnelNode header).exec (AuthDb.answer now) db).1 = .ok (some n) ↔
      bearer header = some (auth.digests.nodeToken n) ∧ db.isNodeRevoked n = false := by
  obtain ⟨r, valid, own, -⟩ := validNode_ascii auth db now ascii
  unfold tunnelNode
  rw [valid, Except.ok.injEq]
  exact own n id

/-- No node token is a join token: they begin differently. -/
theorem nodeToken_not_join (digests : Digests) (n : NodeId) :
    ¬ joinPrefix.toList.isPrefixOf (digests.nodeToken n).toList = true := by
  intro begins
  obtain ⟨rest, same⟩ := List.isPrefixOf_iff_prefix.mp begins
  have join : (joinPrefix.toList ++ rest)[7]? = some 'j' := by
    rw [List.getElem?_append_left (by decide)]
    decide
  have node : (digests.nodeToken n).toList[7]? = some 'n' := by
    rw [Digests.nodeToken, String.toList_append, List.getElem?_append_left (by decide)]
    decide
  rw [same, node] at join
  cases join

/-! ## Revoked nodes -/

/-- No method answers for a revoked node, whatever the header is. -/
theorem revoked_refused (auth : Authenticator) (now : Rat) (header : Option String)
    (revoked : db.isNodeRevoked n = true) :
    ¬ Allows db now (auth.mayActAs header n) ∧ ¬ Allows db now (auth.mayRegister header n) ∧
    ((auth.tunnelNode header).exec (AuthDb.answer now) db).1 ≠ .ok (some n) := by
  refine ⟨?_, ?_, ?_⟩
  · unfold Allows mayActAs
    simp [revoked]
  · unfold Allows mayRegister
    simp [revoked]
  · unfold tunnelNode
    rw [exec_validNode]
    cases bearer header with
    | none => nofun
    | some token =>
      dsimp only
      cases auth.nodeFromToken token with
      | error e => nofun
      | ok r =>
        intro valid
        obtain ⟨-, kept⟩ := Option.filter_eq_some_iff.mp (Except.ok.inj valid)
        simp [revoked] at kept

/-- The bearer of a header that spells it out. -/
theorem bearer_nodeToken (digests : Digests) (n : NodeId) :
    bearer (some ("Bearer " ++ digests.nodeToken n)) = some (digests.nodeToken n) := by
  have parts : Python.partition ("Bearer " ++ digests.nodeToken n) ' ' =
      ("Bearer", digests.nodeToken n) :=
    Python.partition_of_toList (by simp) (by decide)
  have stripped : Python.strip (digests.nodeToken n) = digests.nodeToken n := by
    apply Python.strip_eq_self
    · have begins : nodePrefix.toList.head? = some 'o' := by decide
      intro c first
      rw [Digests.nodeToken, String.toList_append, List.head?_append, begins] at first
      cases first
      decide
    · intro c last
      have ne : digests.macFor "node" n ≠ "" := digests.mac_ne _
      have some : (digests.macFor "node" n).toList ≠ [] := by simpa using ne
      rw [Digests.nodeToken, String.toList_append, String.toList_append,
        List.getLast?_append_of_ne_nil _ (by simp), List.getLast?_append_of_ne_nil _ some] at last
      have digit := List.all_eq_true.mp (digests.mac_hex _) c (List.mem_of_getLast? last)
      exact Python.isSpace_of_hex digit
  have token : digests.nodeToken n ≠ "" := by
    intro empty
    have lengths := congrArg String.length empty
    rw [Digests.nodeToken, String.length_append] at lengths
    have long : nodePrefix.length = 12 := by decide
    rw [long, String.length_empty] at lengths
    omega
  have header : "Bearer " ++ digests.nodeToken n ≠ "" := by
    intro empty
    have lengths := congrArg String.length empty
    rw [String.length_append, String.length_empty] at lengths
    have long : "Bearer ".length = 7 := by decide
    omega
  have scheme : Python.lower "Bearer" = "bearer" := by decide
  unfold bearer
  dsimp only
  rw [if_neg header, parts]
  dsimp only
  rw [stripped, if_neg (by simp [scheme, token])]

end Authenticator

open Authenticator in
/-- What a worker's credential lets it do. -/
structure WorkerAuthorization (auth : Authenticator) (db : AuthDb) : Prop where
  /-- `/heartbeat` and `/metrics` -/
  acts : ∀ now header n, AsciiHeader header → TokenId n →
    (Allows db now (auth.mayActAs header n) ↔ db.isNodeRevoked n = false ∧
      (auth.PresentsReusable header ∨ bearer header = some (auth.digests.nodeToken n)))
  /-- `/register` -/
  registers : ∀ now header n, AsciiHeader header → TokenId n →
    (Allows db now (auth.mayReadSpec header) ∧ Allows db now (auth.mayRegister header n) ↔
      db.isNodeRevoked n = false ∧
        (auth.PresentsReusable header ∨ bearer header = some (auth.digests.nodeToken n) ∨
          auth.PresentsJoin db now header))
  /-- `/tunnel` -/
  tunnels : ∀ now header n, AsciiHeader header → TokenId n →
    (((auth.tunnelNode header).exec (AuthDb.answer now) db).1 = .ok (some n) ↔
      bearer header = some (auth.digests.nodeToken n) ∧ db.isNodeRevoked n = false)
  /-- a node token is of no use to another node -/
  foreign : ∀ now header m n, AsciiHeader header → TokenId m → TokenId n → n ≠ m →
    bearer header = some (auth.digests.nodeToken m) →
    ¬ Allows db now (auth.mayActAs header n) ∧
    ¬ (Allows db now (auth.mayReadSpec header) ∧ Allows db now (auth.mayRegister header n)) ∧
    ((auth.tunnelNode header).exec (AuthDb.answer now) db).1 ≠ .ok (some n)
  /-- a revocation lasts until it is taken back, also where auth is not enforced -/
  revoked : ∀ (any : Authenticator) (n : NodeId) (time : Rat) (events : List AuthDb.Event),
    (∀ e ∈ events, e ≠ .write (.unrevokeNode n)) → ∀ now header,
    let db := events.foldl AuthDb.after (db.after (.write (.revokeNode n time)))
    ¬ Allows db now (any.mayActAs header n) ∧ ¬ Allows db now (any.mayRegister header n) ∧
    ((any.tunnelNode header).exec (AuthDb.answer now) db).1 ≠ .ok (some n)

namespace Authenticator

variable {auth : Authenticator} {db : AuthDb}

/-- Some node id is not revoked. -/
theorem exists_unrevoked (db : AuthDb) :
    ∃ n, TokenId n ∧ Python.isAscii n = true ∧ db.isNodeRevoked n = false := by
  let name (k : Nat) : String := String.ofList (List.replicate (k + 1) 'a')
  have distinct : Function.Injective name := by
    intro j k same
    have lengths := congrArg (fun s => s.toList.length) same
    simpa [name] using lengths
  obtain ⟨n, ⟨k, rfl⟩, fresh⟩ :=
    (Set.infinite_range_of_injective distinct).exists_notMem_finset db.revokedNodes.keys.toFinset
  refine ⟨name k, ⟨?_, ?_⟩, ?_, ?_⟩
  · intro empty
    have lengths := congrArg (fun s => s.toList.length) empty
    simp [name] at lengths
  · simp [name]
  · simp [name, Python.isAscii]
  · unfold AuthDb.isNodeRevoked
    cases found : db.revokedNodes.get? (name k) with
    | none => rfl
    | some time =>
      have member : name k ∈ db.revokedNodes.keys :=
        List.mem_map.mpr ⟨_, Dict.mem_entries.mpr found, rfl⟩
      exact absurd (List.mem_toFinset.mpr member) fresh

/-- With a reusable token that is not ASCII, not even a node's own token is accepted. -/
theorem not_allows_of_not_ascii {now : Rat} {header : Option String} {n : NodeId}
    {token reusable : String} (enforced : auth.enforced = true)
    (presented : bearer header = some token) (set : auth.reusableToken = some reusable)
    (foreign : Python.isAscii reusable = false) :
    ¬ Allows db now (auth.mayActAs header n) := by
  have raises : ∃ e, auth.isReusable (bearer header) = .error e := by
    unfold isReusable Python.compareDigest
    rw [presented, set]
    dsimp only
    rw [foreign, Bool.and_false]
    exact ⟨_, rfl⟩
  obtain ⟨e, raised⟩ := raises
  unfold Allows mayActAs
  rw [AuthDb.exec_isNodeRevoked_bind]
  cases db.isNodeRevoked n with
  | true => simp
  | false =>
    dsimp only
    rw [raised]
    simp [enforced]

end Authenticator

open Authenticator in
/-- **Worker authorization.**  An enforcing authenticator decides as it should exactly
when its reusable token, if it has one, is ASCII. -/
theorem worker_authorization_iff (auth : Authenticator) (db : AuthDb)
    (enforced : auth.enforced = true)
    (unforged : ∀ m, auth.reusableToken ≠ some (auth.digests.nodeToken m)) :
    WorkerAuthorization auth db ↔
      ∀ reusable, auth.reusableToken = some reusable → Python.isAscii reusable = true := by
  constructor
  · intro authorized reusable set
    by_contra foreign
    rw [Bool.not_eq_true] at foreign
    obtain ⟨n, id, ascii, kept⟩ := exists_unrevoked db
    have spelled : AsciiHeader (some ("Bearer " ++ auth.digests.nodeToken n)) := by
      intro h same
      rw [← Option.some.inj same]
      have mac : Python.isAscii (auth.digests.macFor "node" n) = true :=
        Python.isAscii_of_hex (auth.digests.mac_hex _)
      simp only [Digests.nodeToken, Python.isAscii_append, ascii, mac, and_true, true_and]
      decide
    have presented := bearer_nodeToken auth.digests n
    have allowed := (authorized.acts 0 _ n spelled id).mpr ⟨kept, Or.inr presented⟩
    exact not_allows_of_not_ascii enforced presented set foreign allowed
  · intro reusable
    have notReusable {header : Option String} {m : NodeId}
        (presented : bearer header = some (auth.digests.nodeToken m)) :
        ¬ auth.PresentsReusable header := by
      rintro ⟨token, bears, set⟩
      rw [presented] at bears
      exact unforged m (bears ▸ set)
    have notOther {header : Option String} {m n : NodeId} (idm : TokenId m) (idn : TokenId n)
        (other : n ≠ m) (presented : bearer header = some (auth.digests.nodeToken m)) :
        bearer header ≠ some (auth.digests.nodeToken n) := by
      intro same
      have tokens := Option.some.inj (presented.symm.trans same)
      have read := nodeFromToken_nodeToken auth idm
      rw [tokens, nodeFromToken_nodeToken auth idn] at read
      exact other (Option.some.inj (Except.ok.inj read))
    have notJoin {header : Option String} {m : NodeId} {now : Rat}
        (presented : bearer header = some (auth.digests.nodeToken m)) :
        ¬ auth.PresentsJoin db now header := by
      rintro ⟨token, bears, begins, -⟩
      rw [← Option.some.inj (presented.symm.trans bears)] at begins
      exact nodeToken_not_join _ _ begins
    refine ⟨fun now header n ascii id => allows_mayActAs ascii enforced reusable id,
      fun now header n ascii id => ⟨fun both => ?_, fun credential => ?_⟩,
      fun now header n ascii id => tunnelNode_eq ascii id,
      fun now header m n ascii idm idn other presented => ⟨?_, ?_, ?_⟩,
      fun any n time events others now header => ?_⟩
    · exact (allows_mayRegister ascii enforced reusable id).mp both.2
    · have registers := (allows_mayRegister ascii enforced reusable id).mpr credential
      exact ⟨allows_mayReadSpec ascii enforced reusable id registers, registers⟩
    · rw [allows_mayActAs ascii enforced reusable idn]
      rintro ⟨-, same | own⟩
      · exact notReusable presented same
      · exact notOther idm idn other presented own
    · rintro ⟨-, registers⟩
      obtain ⟨-, same | own | join⟩ :=
        (allows_mayRegister ascii enforced reusable idn).mp registers
      · exact notReusable presented same
      · exact notOther idm idn other presented own
      · exact notJoin presented join
    · rw [Ne, tunnelNode_eq ascii idn]
      rintro ⟨own, -⟩
      exact notOther idm idn other presented own
    · refine revoked_refused any now header (AuthDb.isNodeRevoked_run ?_ others)
      change (db.revokedNodes.set n time).get? n |>.isSome
      rw [Dict.get?_set, if_pos rfl]
      rfl

/-- Digests as the signing secret of 32 zero bytes gives them for two nodes. -/
def zeroSecret : Digests where
  mac message :=
    if message = "node:n1" then
      "29b9ad51a2914a2411c2bc6b65e45e4fbe26dd315281ca20d444a2dbb86012c0"
    else "2c1355a50cbd96c5492c7cb7b5b8dac7ee40b7185e39305f406ecfce35f194ee"
  hash _ := "e0830b4d47fa02c6dedf0f2c4610b9c4c86a43618243939c7cd65913d987c1b1"
  mac_hex message := by
    split <;> decide
  mac_ne message := by
    split <;> decide

/-- Provider CUSTOM with a reusable token. -/
def customAuth (reusable : String) : Authenticator := ⟨zeroSecret, some reusable, true⟩

open Authenticator in
theorem worker_authorization_iff_custom :
    WorkerAuthorization (customAuth "fleet-secret") ⟨[], [], .empty⟩ := by
  refine (worker_authorization_iff (customAuth "fleet-secret") _ rfl fun m same => ?_).mpr ?_
  · have first := congrArg (fun s => s.toList.head?) (Option.some.inj same)
    have other : (zeroSecret.nodeToken m).toList.head? = some 'o' := by
      have begins : nodePrefix.toList.head? = some 'o' := by decide
      rw [Digests.nodeToken, String.toList_append, List.head?_append, begins]
      rfl
    exact absurd (first.trans other) (by decide)
  · intro reusable same
    cases same
    decide

open Authenticator in
/-- A reusable token with an accent: the node's own token raises `TypeError`. -/
theorem worker_authorization_not_ascii :
    ¬ ∀ (auth : Authenticator) (db : AuthDb), auth.enforced = true →
      (∀ m, auth.reusableToken ≠ some (auth.digests.nodeToken m)) →
      WorkerAuthorization auth db := by
  intro authorized
  have first : "café-fleet".toList.head? = some 'c' := by decide
  have unforged (m : NodeId) :
      (customAuth "café-fleet").reusableToken ≠ some (zeroSecret.nodeToken m) := by
    intro same
    have begins : nodePrefix.toList.head? = some 'o' := by decide
    have other : (zeroSecret.nodeToken m).toList.head? = some 'o' := by
      rw [Digests.nodeToken, String.toList_append, List.head?_append, begins]
      rfl
    rw [← Option.some.inj same, first] at other
    cases other
  have holds := authorized (customAuth "café-fleet") ⟨[], [], .empty⟩ rfl unforged
  have presented := bearer_nodeToken zeroSecret "n1"
  have ascii : AsciiHeader (some ("Bearer " ++ zeroSecret.nodeToken "n1")) := by
    intro h same
    rw [← Option.some.inj same]
    decide +kernel
  have allowed := (holds.acts 0 _ "n1" ascii ⟨by decide, by decide⟩).mpr
    ⟨rfl, Or.inr presented⟩
  exact not_allows_of_not_ascii rfl presented rfl (by decide) allowed

end Oumigo
