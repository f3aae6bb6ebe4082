import Oumigo.Config

/-!
# The in-memory node registry

`service/manager/control/registry.py`.  Every operation holds the registry's lock
for its whole body, so each is one function of the state; `time.time()` is the
argument `now`.  `Registry.keyed` says that a record is filed under its own id.

The lookup lemmas give, for each operation, the record of every node afterwards.
-/

namespace Oumigo

/-- `NodeRecord`. -/
structure NodeRecord where
  nodeId : NodeId
  address : String
  state : NodeState
  incarnation : Int
  capabilities : NodeCapabilities
  registeredAt : Rat
  lastSeen : Rat
  runState : Option RunState := none
  seq : Nat := 0
  port : Option Nat := none
  model : Option String := none
  profile : Option String := none
  backend : Option Backend := none
  maxConcurrentRequests : Option Nat := none
  transport : Transport := .direct
  tunnelRttMs : Option Rat := none
  deriving DecidableEq, Repr

/-- `NodeRecord.served_name`: the model id the router routes by. -/
def NodeRecord.servedName (record : NodeRecord) : Option String :=
  pyOr record.profile record.model

/-- `Registry`: the records by node id, and the last `Worker#N` number given out. -/
structure Registry where
  nodes : Dict NodeId NodeRecord
  seq : Nat
  keyed : ∀ n record, nodes.get? n = some record → record.nodeId = n

namespace Registry

/-- `Registry()`. -/
def empty : Registry where
  nodes := .empty
  seq := 0
  keyed := fun n record found => by cases found

/-- `Registry.get`. -/
def get (reg : Registry) (nodeId : NodeId) : Option NodeRecord := reg.nodes.get? nodeId

/-- `Registry.list`. -/
def list (reg : Registry) : List NodeRecord := reg.nodes.values

/-- `Registry.count`. -/
def count (reg : Registry) : Nat := reg.nodes.entries.length

/-- File `record` under its own id. -/
def store (reg : Registry) (record : NodeRecord) (seq : Nat) : Registry where
  nodes := reg.nodes.set record.nodeId record
  seq := seq
  keyed := fun n r found => by
    rw [Dict.get?_set] at found
    split at found
    · next same => cases found; exact same.symm
    · exact reg.keyed n r found

/-- `Registry.register`. -/
def register (reg : Registry) (now : Rat) (nodeId : NodeId) (address : String)
    (state : NodeState) (incarnation : Int) (capabilities : NodeCapabilities)
    (port : Option Nat) (model : Option String) (backend : Option Backend)
    (transport : Transport) (profile : Option String) : Registry :=
  let existing := reg.get nodeId
  -- a known node keeps its number, and with it its name, across re-registrations
  let (last, seq) := match existing with
    | some r => (reg.seq, r.seq)
    | none => (reg.seq + 1, reg.seq + 1)
  let record : NodeRecord :=
    { nodeId, address, state, incarnation, capabilities, transport, seq
      registeredAt := match existing with
        | some r => r.registeredAt
        | none => now
      lastSeen := now
      port := port <|> existing.bind (·.port)
      model := model <|> existing.bind (·.model)
      profile := profile <|> existing.bind (·.profile)
      backend := backend <|> existing.bind (·.backend)
      -- the negotiated cap survives a re-registration
      maxConcurrentRequests := existing.bind (·.maxConcurrentRequests) }
  reg.store record last

/-- What a heartbeat changes in the record it finds. -/
def beat (record : NodeRecord) (now : Rat) (state : NodeState) (runState : Option RunState)
    (port maxConcurrentRequests : Option Nat) (tunnelRttMs : Option Rat) : NodeRecord :=
  { record with
    lastSeen := now
    state := state
    runState := runState
    port := port <|> record.port
    maxConcurrentRequests := maxConcurrentRequests <|> record.maxConcurrentRequests
    tunnelRttMs := tunnelRttMs <|> record.tunnelRttMs }

/-- `Registry.heartbeat`: the new registry, and whether the node is known. -/
def heartbeat (reg : Registry) (now : Rat) (nodeId : NodeId) (state : NodeState)
    (runState : Option RunState) (port maxConcurrentRequests : Option Nat)
    (tunnelRttMs : Option Rat) : Registry × Bool :=
  match reg.get nodeId with
  | none => (reg, false)
  | some record =>
      (reg.store (beat record now state runState port maxConcurrentRequests tunnelRttMs) reg.seq,
        true)

/-- `Registry.remove`. -/
def remove (reg : Registry) (nodeId : NodeId) : Registry × Bool :=
  ({ nodes := reg.nodes.erase nodeId
     seq := reg.seq
     keyed := fun n r found => by
       rw [Dict.get?_erase] at found
       split at found
       · cases found
       · exact reg.keyed n r found },
    (reg.get nodeId).isSome)

/-- The reaper's verdict on one record: forgotten, marked LOST, or left alone. -/
def reapRecord (now timeout forgetAfter : Rat) (record : NodeRecord) : Option NodeRecord :=
  if now - record.lastSeen > forgetAfter then none
  else if now - record.lastSeen > timeout ∧ record.state ≠ .lost then
    some { record with state := .lost }
  else some record

/-- The reaper changes nothing in a record but marks it LOST. -/
theorem reapRecord_cases {now timeout forgetAfter : Rat} {record record' : NodeRecord}
    (kept : reapRecord now timeout forgetAfter record = some record') :
    record' = { record with state := .lost } ∨ record' = record := by
  unfold reapRecord at kept
  split at kept
  · cases kept
  · split at kept
    · exact Or.inl (Option.some.inj kept).symm
    · exact Or.inr (Option.some.inj kept).symm

theorem reapRecord_nodeId {now timeout forgetAfter : Rat} {record record' : NodeRecord}
    (kept : reapRecord now timeout forgetAfter record = some record') :
    record'.nodeId = record.nodeId := by
  rcases reapRecord_cases kept with rfl | rfl <;> rfl

/-- `Registry.reap` without the two lists it returns for logging. -/
def reap (reg : Registry) (now timeout forgetAfter : Rat) : Registry where
  nodes := reg.nodes.filterMap fun _ record => reapRecord now timeout forgetAfter record
  seq := reg.seq
  keyed := fun n r found => by
    rw [Dict.get?_filterMap] at found
    obtain ⟨record, stored, kept⟩ := Option.bind_eq_some_iff.mp found
    exact (reapRecord_nodeId kept).trans (reg.keyed n record stored)

variable {reg : Registry} {n : NodeId} {record : NodeRecord}

/-- The listed records are the looked-up ones. -/
theorem mem_list : record ∈ reg.list ↔ reg.get record.nodeId = some record := by
  unfold list get
  rw [Dict.mem_values]
  constructor
  · rintro ⟨n, found⟩
    rw [reg.keyed n record found]
    exact found
  · exact fun found => ⟨_, found⟩

theorem get_nodeId (found : reg.get n = some record) : record.nodeId = n :=
  reg.keyed n record found

/-- Two listed records of one node are the same record. -/
theorem eq_of_mem_list {r r' : NodeRecord} (left : r ∈ reg.list) (right : r' ∈ reg.list)
    (same : r.nodeId = r'.nodeId) : r = r' := by
  have left := mem_list.mp left
  have right := mem_list.mp right
  rw [same] at left
  exact Option.some.inj (left.symm.trans right)

theorem get_store {seq : Nat} :
    (reg.store record seq).get n = if n = record.nodeId then some record else reg.get n :=
  Dict.get?_set

section Register

variable {now : Rat} {address : String} {state : NodeState} {incarnation : Int}
  {capabilities : NodeCapabilities} {port : Option Nat} {model profile : Option String}
  {backend : Option Backend} {transport : Transport}

variable (reg) in
/-- A registration files a record in the reported state; what it omits, and the
negotiated cap, are kept from the node's earlier record. -/
theorem get_register_self : ∃ record,
    (reg.register now n address state incarnation capabilities port model backend transport
      profile).get n = some record ∧ record.state = state ∧
    record.maxConcurrentRequests = (reg.get n).bind (·.maxConcurrentRequests) ∧
    record.profile = (profile <|> (reg.get n).bind (·.profile)) := by
  unfold register
  exact ⟨_, get_store.trans (if_pos rfl), rfl, rfl, rfl⟩

theorem get_register_ne {n' : NodeId} (other : n' ≠ n) :
    (reg.register now n address state incarnation capabilities port model backend transport
      profile).get n' = reg.get n' := by
  unfold register
  exact get_store.trans (if_neg other)

/-- The profile of a record after a registration. -/
theorem profile_of_get_register {n' : NodeId}
    (found : (reg.register now n address state incarnation capabilities port model backend
      transport profile).get n' = some record) :
    (n' = n ∧ record.profile = (profile <|> (reg.get n).bind (·.profile))) ∨
      reg.get n' = some record := by
  by_cases same : n' = n
  · subst same
    unfold register at found
    rw [get_store, if_pos rfl] at found
    cases found
    exact Or.inl ⟨rfl, rfl⟩
  · rw [get_register_ne same] at found
    exact Or.inr found

end Register

theorem get_heartbeat_ne {n' : NodeId} {now : Rat} {state : NodeState}
    {runState : Option RunState} {port cap : Option Nat} {rtt : Option Rat} (other : n' ≠ n) :
    (reg.heartbeat now n state runState port cap rtt).1.get n' = reg.get n' := by
  unfold heartbeat
  cases found : reg.get n with
  | none => rfl
  | some record =>
      have key : (beat record now state runState port cap rtt).nodeId = n :=
        (get_nodeId found : record.nodeId = n)
      rw [get_store, key, if_neg other]

theorem get_heartbeat_self {now : Rat} {state : NodeState} {runState : Option RunState}
    {port cap : Option Nat} {rtt : Option Rat} :
    (reg.heartbeat now n state runState port cap rtt).1.get n =
      (reg.get n).map fun record => beat record now state runState port cap rtt := by
  unfold heartbeat
  cases found : reg.get n with
  | none => exact found
  | some record =>
      have key : (beat record now state runState port cap rtt).nodeId = n :=
        (get_nodeId found : record.nodeId = n)
      rw [get_store, key, if_pos rfl, Option.map_some]

theorem heartbeat_known {now : Rat} {state : NodeState} {runState : Option RunState}
    {port cap : Option Nat} {rtt : Option Rat} :
    (reg.heartbeat now n state runState port cap rtt).2 = (reg.get n).isSome := by
  unfold heartbeat
  cases reg.get n <;> rfl

theorem get_remove {n' : NodeId} :
    (reg.remove n).1.get n' = if n' = n then none else reg.get n' :=
  Dict.get?_erase

theorem get_reap {now timeout forgetAfter : Rat} :
    (reg.reap now timeout forgetAfter).get n =
      (reg.get n).bind (reapRecord now timeout forgetAfter) :=
  Dict.get?_filterMap

end Registry

end Oumigo
