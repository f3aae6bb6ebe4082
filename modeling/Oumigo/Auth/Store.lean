import Oumigo.Foundation.Dict
import Oumigo.Foundation.Python
import Oumigo.Foundation.Query
import Oumigo.Protocol

/-!
# The manager's auth state

`AuthStore` of `service/manager/credentials.py`: a SQLite file that the manager and the
CLI share.  `Statement` are the SQL statements the authenticator's methods make, each
atomic on the file, and the clock; a method that makes several is a `Query`, so what
other processes do may fall between two of them.  `AuthOp` are the methods that write;
each is one statement.

HMAC-SHA256 and SHA-256 are parameters (`Digests`), of which the code relies on a hex
digest's form.
-/

namespace Oumigo

/-- What the standard library's `hmac` and `hashlib` compute. -/
structure Digests where
  /-- `hmac.new(secret, message, sha256).hexdigest()`, for the store's signing secret -/
  mac : String → String
  /-- `hashlib.sha256(token).hexdigest()` -/
  hash : String → String
  mac_hex : ∀ message, (mac message).toList.all Python.isHexDigit = true
  mac_ne : ∀ message, mac message ≠ ""

/-- A row of `join_tokens`. -/
structure JoinTokenRow where
  id : String
  tokenHash : String
  label : Option String
  createdAt : Rat
  expiresAt : Option Rat
  usesLeft : Option Int
  revoked : Bool
  deriving DecidableEq, Repr

/-- A row of `api_keys`. -/
structure ApiKeyRow where
  id : String
  keyHash : String
  label : Option String
  createdAt : Rat
  revoked : Bool
  deriving DecidableEq, Repr

/-- The tables; the signing secret is in `Digests.mac`. -/
structure AuthDb where
  joinTokens : List JoinTokenRow
  apiKeys : List ApiKeyRow
  revokedNodes : Dict NodeId Rat

def joinPrefix : String := "oumigo-join-"

def nodePrefix : String := "oumigo-node."

/-- `create_join_token`'s row: `ttl_s` and `uses` of 0 count as none. -/
def JoinTokenRow.minted (id tokenHash : String) (label : Option String) (now : Rat)
    (ttl : Option Rat) (uses : Option Int) : JoinTokenRow where
  id := id
  tokenHash := tokenHash
  label := label
  createdAt := now
  expiresAt := ttl.bind fun ttl => if ttl = 0 then none else some (now + ttl)
  usesLeft := uses.bind fun uses => if uses = 0 then none else some uses
  revoked := false

/-- `usable` in the `WHERE` of `check_join_token`, for a row. -/
def JoinTokenRow.usable (hash : String) (now : Rat) (row : JoinTokenRow) : Bool :=
  row.tokenHash = hash && !row.revoked && row.expiresAt.all (fun expiry => now < expiry) &&
    row.usesLeft.all fun uses => 0 < uses

theorem JoinTokenRow.usable_iff {hash : String} {now : Rat} {row : JoinTokenRow} :
    row.usable hash now = true ↔ row.tokenHash = hash ∧ row.revoked = false ∧
      (∀ expiry, row.expiresAt = some expiry → now < expiry) ∧
      ∀ uses, row.usesLeft = some uses → 0 < uses := by
  unfold usable
  cases row.expiresAt <;> cases row.usesLeft <;> simp [and_assoc]

/-- `UPDATE ... SET uses_left = uses_left - 1`, for a row. -/
def JoinTokenRow.spend (row : JoinTokenRow) : JoinTokenRow :=
  { row with usesLeft := row.usesLeft.map (· - 1) }

/-- What the authenticator asks. -/
inductive Statement where
  /-- `time.time()` -/
  | clock
  /-- `SELECT 1 FROM join_tokens WHERE usable` -/
  | peek (hash : String) (now : Rat)
  /-- `UPDATE join_tokens ... WHERE usable AND uses_left IS NOT NULL`: its row count is
  not 0 -/
  | spend (hash : String) (now : Rat)
  /-- `SELECT 1 FROM join_tokens WHERE usable AND uses_left IS NULL` -/
  | unlimited (hash : String) (now : Rat)
  /-- `is_node_revoked` -/
  | isRevoked (nodeId : NodeId)
  deriving DecidableEq, Repr

/-- What it is answered. -/
abbrev Statement.Answer : Statement → Type
  | .clock => Rat
  | _ => Bool

/-- A method of the store or the authenticator. -/
abbrev AuthM := Query Statement Statement.Answer Python.Exn

namespace Statement

def now : AuthM Rat := Query.request Statement.clock

def selectUsable (hash : String) (now : Rat) : AuthM Bool := Query.request (Statement.peek hash now)

def updateUses (hash : String) (now : Rat) : AuthM Bool := Query.request (Statement.spend hash now)

def selectUnlimited (hash : String) (now : Rat) : AuthM Bool :=
  Query.request (Statement.unlimited hash now)

def isNodeRevoked (nodeId : NodeId) : AuthM Bool := Query.request (Statement.isRevoked nodeId)

end Statement

/-- The methods of `AuthStore` that write, with what they draw at random. -/
inductive AuthOp where
  | createJoinToken (id tokenHash : String) (label : Option String) (now : Rat)
    (ttl : Option Rat) (uses : Option Int)
  | revokeJoinToken (id : String)
  | createApiKey (row : ApiKeyRow)
  | revokeApiKey (id : String)
  | revokeNode (nodeId : NodeId) (now : Rat)
  | unrevokeNode (nodeId : NodeId)
  deriving DecidableEq, Repr

namespace AuthDb

/-- `is_node_revoked`. -/
def isNodeRevoked (db : AuthDb) (nodeId : NodeId) : Bool := (db.revokedNodes.get? nodeId).isSome

/-- `revoked_nodes`. -/
def revoked (db : AuthDb) : List NodeId := db.revokedNodes.keys

/-- A row the `UPDATE` finds. -/
def spends (hash : String) (now : Rat) (row : JoinTokenRow) : Bool :=
  row.usable hash now && row.usesLeft.isSome

/-- What the `UPDATE` leaves. -/
def spend (db : AuthDb) (hash : String) (now : Rat) : AuthDb :=
  { db with
    joinTokens := db.joinTokens.map fun row => if spends hash now row then row.spend else row }

/-- Execute a statement at time `now`. -/
def answer (now : Rat) : (stmt : Statement) → AuthDb → stmt.Answer × AuthDb
  | .clock, db => (now, db)
  | .peek hash now, db => (db.joinTokens.any (·.usable hash now), db)
  | .spend hash now, db => (db.joinTokens.any (spends hash now), db.spend hash now)
  | .unlimited hash now, db =>
      (db.joinTokens.any fun row => row.usable hash now && row.usesLeft.isNone, db)
  | .isRevoked nodeId, db => (db.isNodeRevoked nodeId, db)

section

variable {α : Type} {now time : Rat} {hash : String} {nodeId : NodeId} {db : AuthDb}

@[simp] theorem exec_now_bind (f : Rat → AuthM α) :
    (Statement.now >>= f).exec (answer now) db = (f now).exec (answer now) db := rfl

@[simp] theorem exec_selectUsable :
    (Statement.selectUsable hash time).exec (answer now) db =
      (.ok (db.joinTokens.any (·.usable hash time)), db) := rfl

@[simp] theorem exec_updateUses_bind (f : Bool → AuthM α) :
    (Statement.updateUses hash time >>= f).exec (answer now) db =
      (f (db.joinTokens.any (spends hash time))).exec (answer now) (db.spend hash time) := rfl

@[simp] theorem exec_selectUnlimited :
    (Statement.selectUnlimited hash time).exec (answer now) db =
      (.ok (db.joinTokens.any fun row => row.usable hash time && row.usesLeft.isNone), db) := rfl

@[simp] theorem exec_isNodeRevoked_bind (f : Bool → AuthM α) :
    (Statement.isNodeRevoked nodeId >>= f).exec (answer now) db =
      (f (db.isNodeRevoked nodeId)).exec (answer now) db := rfl

end

/-- Nothing is spent when the `UPDATE` finds no row. -/
theorem spend_eq_self {db : AuthDb} {hash : String} {now : Rat}
    (spared : ∀ row ∈ db.joinTokens, spends hash now row = false) : db.spend hash now = db := by
  have same : (db.joinTokens.map fun row => if spends hash now row then row.spend else row) =
      db.joinTokens := by
    refine (List.map_congr_left (g := id) fun row member => ?_).trans (List.map_id _)
    rw [spared row member]
    rfl
  unfold spend
  rw [same]

/-- Execute a method that writes; `none` is an `IntegrityError`, on an id or a hash that
is there already. -/
def apply (db : AuthDb) : AuthOp → Option AuthDb
  | .createJoinToken id tokenHash label now ttl uses =>
      if ∀ row ∈ db.joinTokens, row.id ≠ id ∧ row.tokenHash ≠ tokenHash then
        some { db with
          joinTokens := db.joinTokens ++ [.minted id tokenHash label now ttl uses] }
      else none
  | .revokeJoinToken id =>
      some { db with joinTokens := db.joinTokens.map fun row =>
        if row.id = id then { row with revoked := true } else row }
  | .createApiKey row =>
      if ∀ other ∈ db.apiKeys, other.id ≠ row.id ∧ other.keyHash ≠ row.keyHash then
        some { db with apiKeys := db.apiKeys ++ [row] }
      else none
  | .revokeApiKey id =>
      some { db with apiKeys := db.apiKeys.map fun row =>
        if row.id = id then { row with revoked := true } else row }
  | .revokeNode nodeId now => some { db with revokedNodes := db.revokedNodes.set nodeId now }
  | .unrevokeNode nodeId => some { db with revokedNodes := db.revokedNodes.erase nodeId }

/-! ## What lasts -/

/-- Anything the manager or another process does to the database. -/
inductive Event where
  | write (op : AuthOp)
  | ask (stmt : Statement) (now : Rat)
  deriving DecidableEq, Repr

/-- The database afterwards; an `IntegrityError` leaves it as it was. -/
def after (db : AuthDb) : Event → AuthDb
  | .write op => (db.apply op).getD db
  | .ask stmt now => (answer now stmt db).2

theorem isNodeRevoked_apply {db db' : AuthDb} {op : AuthOp} {n : NodeId}
    (done : db.apply op = some db') (revoked : db.isNodeRevoked n = true)
    (other : op ≠ .unrevokeNode n) : db'.isNodeRevoked n = true := by
  unfold isNodeRevoked at *
  unfold apply at done
  cases op with
  | revokeNode m now =>
    cases done
    rw [Dict.get?_set]
    split
    · rfl
    · exact revoked
  | unrevokeNode m =>
    cases done
    have ne : n ≠ m := fun same => other (congrArg AuthOp.unrevokeNode same.symm)
    rw [Dict.get?_erase, if_neg ne]
    exact revoked
  | createJoinToken | createApiKey =>
    dsimp only at done
    split at done
    · cases done
      exact revoked
    · cases done
  | revokeJoinToken | revokeApiKey =>
    cases done
    exact revoked

/-- Only `unrevoke_node` takes a revocation back. -/
theorem isNodeRevoked_after {db : AuthDb} {e : Event} {n : NodeId}
    (revoked : db.isNodeRevoked n = true) (other : e ≠ .write (.unrevokeNode n)) :
    (db.after e).isNodeRevoked n = true := by
  cases e with
  | write op =>
    change ((db.apply op).getD db).isNodeRevoked n = true
    cases done : db.apply op with
    | none => exact revoked
    | some db' => exact isNodeRevoked_apply done revoked fun same => other (congrArg _ same)
  | ask stmt now => cases stmt <;> exact revoked

theorem isNodeRevoked_run {db : AuthDb} {events : List Event} {n : NodeId}
    (revoked : db.isNodeRevoked n = true) (others : ∀ e ∈ events, e ≠ .write (.unrevokeNode n)) :
    (events.foldl after db).isNodeRevoked n = true := by
  induction events generalizing db with
  | nil => exact revoked
  | cons e events ih =>
    have first := isNodeRevoked_after revoked (others e List.mem_cons_self)
    exact ih first fun e member => others e (List.mem_cons_of_mem _ member)

end AuthDb

end Oumigo
