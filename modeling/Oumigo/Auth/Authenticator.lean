import Oumigo.Auth.Store

/-!
# Who may call the worker-facing endpoints

`bearer`, the derived node tokens and `Authenticator` of
`service/manager/credentials.py`.
-/

namespace Oumigo

/-- `bearer`. -/
def bearer (authorization : Option String) : Option String :=
  match authorization with
  | none => none
  | some header =>
      if header = "" then none
      else
        let (scheme, value) := Python.partition header ' '
        if Python.lower scheme ≠ "bearer" ∨ Python.strip value = "" then none
        else some (Python.strip value)

/-- `_mac`. -/
def Digests.macFor (digests : Digests) (purpose : String) (nodeId : NodeId) : String :=
  digests.mac (purpose ++ ":" ++ nodeId)

/-- `node_token`. -/
def Digests.nodeToken (digests : Digests) (nodeId : NodeId) : String :=
  nodePrefix ++ (nodeId ++ "." ++ digests.macFor "node" nodeId)

/-- `Authenticator`. -/
structure Authenticator where
  digests : Digests
  reusableToken : Option String
  wan : Bool

namespace Authenticator

variable (auth : Authenticator)

/-- `enforced`. -/
def enforced : Bool := auth.wan || auth.reusableToken.isSome

/-- `node_from_token`. -/
def nodeFromToken (token : String) : Except Python.Exn (Option NodeId) :=
  match Python.afterStart nodePrefix token with
  | none => .ok none
  | some rest =>
      let (nodeId, mac) := Python.partition rest '.'
      if nodeId = "" then .ok none
      else do
        let valid ← Python.compareDigest mac (auth.digests.macFor "node" nodeId)
        .ok (if valid then some nodeId else none)

/-- `check_join_token` without `consume`. -/
def peekJoinToken (token : String) : AuthM Bool :=
  if joinPrefix.toList.isPrefixOf token.toList then do
    let now ← Statement.now
    Statement.selectUsable (auth.digests.hash token) now
  else pure false

/-- `check_join_token` with `consume`. -/
def consumeJoinToken (token : String) : AuthM Bool :=
  if joinPrefix.toList.isPrefixOf token.toList then do
    let now ← Statement.now
    let spent ← Statement.updateUses (auth.digests.hash token) now
    -- unlimited tokens aren't decremented; just check them
    if spent then pure true
    else Statement.selectUnlimited (auth.digests.hash token) now
  else pure false

/-- `_is_reusable`. -/
def isReusable (token : Option String) : Except Python.Exn Bool :=
  match token, auth.reusableToken with
  | some token, some reusable => Python.compareDigest token reusable
  | _, _ => .ok false

/-- `_valid_node`. -/
def validNode (token : Option String) : AuthM (Option NodeId) :=
  match token with
  | none => pure none
  | some token => do
      match ← Query.lift (auth.nodeFromToken token) with
      | none => pure none
      | some nodeId => do
          let revoked ← Statement.isNodeRevoked nodeId
          pure (if revoked then none else some nodeId)

/-- `token is not None and self.store.check_join_token(token, consume=False)`. -/
def peekBearer (token : Option String) : AuthM Bool :=
  match token with
  | some token => auth.peekJoinToken token
  | none => pure false

/-- `token is not None and self.store.check_join_token(token, consume=True)`. -/
def consumeBearer (token : Option String) : AuthM Bool :=
  match token with
  | some token => auth.consumeJoinToken token
  | none => pure false

/-- `may_read_spec`. -/
def mayReadSpec (authorization : Option String) : AuthM Bool :=
  if !auth.enforced then pure true
  else do
    let token := bearer authorization
    if ← Query.lift (auth.isReusable token) then pure true
    else do
      let joins ← auth.peekBearer token
      if joins then pure true
      else do
        let node ← auth.validNode token
        pure node.isSome

/-- `may_register`. -/
def mayRegister (authorization : Option String) (nodeId : NodeId) : AuthM Bool := do
  let revoked ← Statement.isNodeRevoked nodeId
  if revoked then pure false
  else if !auth.enforced then pure true
  else do
    let token := bearer authorization
    if ← Query.lift (auth.isReusable token) then pure true
    else do
      let node ← auth.validNode token
      if node = some nodeId then pure true
      else auth.consumeBearer token

/-- `may_act_as`. -/
def mayActAs (authorization : Option String) (nodeId : NodeId) : AuthM Bool := do
  let revoked ← Statement.isNodeRevoked nodeId
  if revoked then pure false
  else if !auth.enforced then pure true
  else do
    let token := bearer authorization
    if ← Query.lift (auth.isReusable token) then pure true
    else do
      let node ← auth.validNode token
      pure (decide (node = some nodeId))

/-- `tunnel_node`. -/
def tunnelNode (authorization : Option String) : AuthM (Option NodeId) :=
  auth.validNode (bearer authorization)

end Authenticator

end Oumigo
