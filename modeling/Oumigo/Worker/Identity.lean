import Oumigo.Foundation.Dict
import Oumigo.Foundation.Python
import Oumigo.Foundation.Transition
import Oumigo.Protocol

/-!
# The identity of a worker, with other workers starting

`resolve_worker_identity` of `service/worker/identity.py`: the starts of the workers of one
host, which share a state directory, one file operation at a time.  A start reads the host
id or mints it, reads the incarnations, and renames a temporary file over each file it
changes.  The name of a temporary file is the same for every start.

The SHA-256 digest is a parameter.  A start that finds its temporary file renamed away fails,
as `os.replace` does.
-/

namespace Oumigo

/-- `str(uuid.uuid4())`: digits and hyphens. -/
structure Uuid4 where
  text : String
  length : text.toList.length = 36
  plain : (text.toList.all fun c => Python.isHexDigit c || c = '-') = true

/-- `NODE_ID_HEX_LEN`. -/
def nodeIdHexLen : Nat := 16

/-- `compute_node_id`, where `sha256` gives the `hexdigest()`. -/
def computeNodeId (sha256 : String → String) (hostId : String) (port : Nat) : NodeId :=
  String.ofList
    ((sha256 ("oumigo:" ++ hostId ++ ":" ++ toString port)).toList.take nodeIdHexLen)

/-- The text of `incarnations.json`: the dict `json.loads` makes of it, or a text it
refuses. -/
abbrev IncarnationsText := Option (Dict NodeId Int)

/-- The files of a state directory, with the temporary ones. -/
structure StateDir where
  hostId : Option String := none
  hostIdTmp : Option String := none
  incarnations : Option IncarnationsText := none
  incarnationsTmp : Option (Dict NodeId Int) := none

namespace StateDir

/-- The persisted host id, if there is one. -/
def persistedHostId (dir : StateDir) : Option String :=
  (dir.hostId.map Python.strip).filter (· ≠ "")

/-- The incarnations, none of them where the file is absent or corrupt. -/
def load (text : Option IncarnationsText) : Dict NodeId Int :=
  match text with
  | some (some incarnations) => incarnations
  | _ => .empty

/-- The incarnation the directory has for a node. -/
def incarnation (dir : StateDir) (nodeId : NodeId) : Int :=
  ((load dir.incarnations).get? nodeId).getD 0

end StateDir

/-- What a start holds between reading the incarnations and writing them. -/
structure Bump where
  nodeId : NodeId
  incarnation : Int
  incarnations : Dict NodeId Int
  /-- the text that was read -/
  read : Option IncarnationsText

/-- How far a start has come. -/
inductive Progress where
  | started
  /-- there is no host id: a new one -/
  | minted (hostId : String)
  /-- the new one is in the temporary file -/
  | wroteHostId (hostId : String)
  | resolvedHostId (hostId : String)
  | bumped (bump : Bump)
  /-- the bumped incarnations are in the temporary file -/
  | wroteIncarnations (bump : Bump)
  | returned (nodeId : NodeId) (incarnation : Int)
  /-- `os.replace` raised -/
  | failed

/-- A call of `resolve_worker_identity`. -/
structure IdentityCall where
  port : Nat
  progress : Progress := .started

/-- What a call has returned. -/
structure Identity where
  port : Nat
  nodeId : NodeId
  incarnation : Int

/-- The host: `$OUMIGO_HOST_ID`, the state directory, the calls, and what they have returned,
newest first. -/
structure IdentityState where
  environ : String := ""
  dir : StateDir := {}
  calls : List IdentityCall := []
  returned : List Identity := []

/-- One atomic step. -/
inductive IdentityEvent where
  /-- a worker has found its port -/
  | start (port : Nat)
  /-- the call's next file operation; `uuid` is what it mints, if it mints -/
  | advance (call : Nat) (uuid : Uuid4)

namespace Identity

variable (sha256 : String → String)

/-- `resolve_host_id` up to its `_atomic_write`. -/
def resolveHostId (environ : String) (dir : StateDir) (uuid : Uuid4) : Progress :=
  if Python.strip environ ≠ "" then .resolvedHostId (Python.strip environ)
  else
    match dir.persistedHostId with
    | some hostId => .resolvedHostId hostId
    | none => .minted uuid.text

/-- The incarnations read and bumped. -/
def bump (dir : StateDir) (nodeId : NodeId) : Bump :=
  let incarnations := StateDir.load dir.incarnations
  let incarnation := (incarnations.get? nodeId).getD 0 + 1
  ⟨nodeId, incarnation, incarnations.set nodeId incarnation, dir.incarnations⟩

/-- The next file operation of a call; none when it is over. -/
def advance (environ : String) (dir : StateDir) (port : Nat) (uuid : Uuid4) :
    Progress → Option (StateDir × Progress)
  | .started => some (dir, resolveHostId environ dir uuid)
  | .minted hostId =>
      some ({ dir with hostIdTmp := some (hostId ++ "\n") }, .wroteHostId hostId)
  | .wroteHostId hostId =>
      match dir.hostIdTmp with
      | some text => some ({ dir with hostId := some text, hostIdTmp := none },
          .resolvedHostId hostId)
      | none => some (dir, .failed)
  | .resolvedHostId hostId =>
      some (dir, .bumped (bump dir (computeNodeId sha256 hostId port)))
  | .bumped bump =>
      some ({ dir with incarnationsTmp := some bump.incarnations }, .wroteIncarnations bump)
  | .wroteIncarnations bump =>
      match dir.incarnationsTmp with
      | some incarnations =>
          some ({ dir with incarnations := some (some incarnations), incarnationsTmp := none },
            .returned bump.nodeId bump.incarnation)
      | none => some (dir, .failed)
  | .returned _ _ => none
  | .failed => none

/-- What a call returns, once it has. -/
def result (port : Nat) : Progress → List Identity
  | .returned nodeId incarnation => [⟨port, nodeId, incarnation⟩]
  | _ => []

/-- A step. -/
def step (s : IdentityState) : IdentityEvent → Option IdentityState
  | .start port => some { s with calls := s.calls ++ [⟨port, .started⟩] }
  | .advance i uuid =>
      s.calls[i]?.bind fun call =>
        (advance sha256 s.environ s.dir call.port uuid call.progress).map fun next =>
          { s with
            dir := next.1
            calls := s.calls.set i ⟨call.port, next.2⟩
            returned := result call.port next.2 ++ s.returned }

/-- The workers of a host, starting on a state directory as it may be found. -/
def system : Transition.System IdentityState IdentityEvent where
  init s := Python.strip s.environ = "" ∧ s.calls = [] ∧ s.returned = []
  step := step sha256

/-- Calls at the same port return the same node. -/
def SameNode (s : IdentityState) : Prop :=
  ∀ one ∈ s.returned, ∀ other ∈ s.returned, one.port = other.port → one.nodeId = other.nodeId

/-- A call returns an incarnation greater than the ones returned before it for that node. -/
def Rising (s : IdentityState) : Prop :=
  s.returned.Pairwise fun later earlier =>
    later.nodeId = earlier.nodeId → earlier.incarnation < later.incarnation

/-- What a call may rename without a race: the file is as the call read it, and the
temporary file is the one it wrote. -/
def Settled (dir : StateDir) : Progress → Prop
  | .wroteHostId hostId => dir.persistedHostId = none ∧ dir.hostIdTmp = some (hostId ++ "\n")
  | .wroteIncarnations bump =>
      dir.incarnations = bump.read ∧ dir.incarnationsTmp = some bump.incarnations
  | _ => True

/-- No call renames a file that another one renamed or wrote since it read it. -/
def Unraced (s : IdentityState) : IdentityEvent → Prop
  | .start _ => True
  | .advance i _ => ∀ call, s.calls[i]? = some call → Settled s.dir call.progress

/-! ## One file operation -/

variable {sha256} {dir dir' : StateDir} {port : Nat} {progress progress' : Progress}
  {environ : String} {uuid : Uuid4} {nodeId : NodeId} {s s' : IdentityState}
  {event : IdentityEvent}

theorem not_space (uuid : Uuid4) : ∀ c ∈ uuid.text.toList, Python.isSpace c = false := by
  intro c member
  have plain := List.all_eq_true.mp uuid.plain c member
  rw [Bool.or_eq_true, decide_eq_true_iff] at plain
  rcases plain with hex | rfl
  · exact Python.isSpace_of_hex hex
  · decide

/-- A minted host id is read back. -/
theorem strip_minted (uuid : Uuid4) : Python.strip (uuid.text ++ "\n") = uuid.text := by
  have visible := not_space uuid
  have kept {l : List Char} (all : ∀ c ∈ l, Python.isSpace c = false) (last : List Char) :
      l ≠ [] → (l ++ last).dropWhile Python.isSpace = l ++ last := by
    intro some_
    cases l with
    | nil => exact (some_ rfl).elim
    | cons c l => simp [all c List.mem_cons_self]
  have some_ : uuid.text.toList ≠ [] := by
    intro empty
    have length := uuid.length
    rw [empty] at length
    cases length
  have newline : Python.isSpace (Char.ofNat 10) = true := by decide
  have back : ∀ c ∈ uuid.text.toList.reverse, Python.isSpace c = false := by
    intro c member
    exact visible c (List.mem_reverse.mp member)
  have whole := kept back [] (by simpa using some_)
  rw [List.append_nil] at whole
  unfold Python.strip
  rw [String.toList_append, kept visible _ some_, List.reverse_append]
  show String.ofList (List.dropWhile Python.isSpace
    (Char.ofNat 10 :: uuid.text.toList.reverse)).reverse = uuid.text
  rw [List.dropWhile_cons_of_pos newline, whole, List.reverse_reverse, String.ofList_toList]

theorem persistedHostId_minted (uuid : Uuid4) (hostId : dir.hostId = some (uuid.text ++ "\n")) :
    dir.persistedHostId = some uuid.text := by
  have some_ : uuid.text ≠ "" := by
    intro empty
    have length := uuid.length
    rw [empty] at length
    cases length
  unfold StateDir.persistedHostId
  rw [hostId, Option.map_some, strip_minted]
  simp [some_]

/-- What a call holds agrees with what it read. -/
def Valid (sha256 : String → String) (dir : StateDir) (port : Nat) : Progress → Prop
  | .minted hostId | .wroteHostId hostId => ∃ uuid : Uuid4, hostId = uuid.text
  | .resolvedHostId hostId => dir.persistedHostId = some hostId
  | .bumped b | .wroteIncarnations b =>
      (∃ hostId, dir.persistedHostId = some hostId ∧ b.nodeId = computeNodeId sha256 hostId port) ∧
      b.incarnation = ((StateDir.load b.read).get? b.nodeId).getD 0 + 1 ∧
      b.incarnations = (StateDir.load b.read).set b.nodeId b.incarnation
  | _ => True

theorem Valid.mono (kept : ∀ hostId, dir.persistedHostId = some hostId →
    dir'.persistedHostId = some hostId) (valid : Valid sha256 dir port progress) :
    Valid sha256 dir' port progress := by
  cases progress with
  | resolvedHostId hostId => exact kept hostId valid
  | bumped b =>
    obtain ⟨⟨hostId, persisted, node⟩, bumped⟩ := valid
    exact ⟨⟨hostId, kept hostId persisted, node⟩, bumped⟩
  | wroteIncarnations b =>
    obtain ⟨⟨hostId, persisted, node⟩, bumped⟩ := valid
    exact ⟨⟨hostId, kept hostId persisted, node⟩, bumped⟩
  | started => trivial
  | minted hostId => exact valid
  | wroteHostId hostId => exact valid
  | returned nodeId incarnation => trivial
  | failed => trivial

/-- What a file operation without a race does: the host id stays once it is there, no
incarnation falls, and a call that returns has raised its own. -/
structure Advanced (sha256 : String → String) (dir dir' : StateDir) (port : Nat)
    (progress' : Progress) : Prop where
  hostId : ∀ hostId, dir.persistedHostId = some hostId → dir'.persistedHostId = some hostId
  valid : Valid sha256 dir' port progress'
  incarnation : ∀ nodeId, dir.incarnation nodeId ≤ dir'.incarnation nodeId
  node : ∀ r ∈ result port progress', r.port = port ∧ ∃ hostId,
    dir'.persistedHostId = some hostId ∧ r.nodeId = computeNodeId sha256 hostId port
  raised : ∀ r ∈ result port progress', dir.incarnation r.nodeId < r.incarnation ∧
    r.incarnation ≤ dir'.incarnation r.nodeId

/-- An operation that changes no file that is read, and does not return. -/
theorem Advanced.quiet (hostId : dir'.hostId = dir.hostId)
    (incarnations : dir'.incarnations = dir.incarnations)
    (valid : Valid sha256 dir' port progress') (pending : result port progress' = []) :
    Advanced sha256 dir dir' port progress' := by
  have persisted : dir'.persistedHostId = dir.persistedHostId := by
    unfold StateDir.persistedHostId
    rw [hostId]
  refine ⟨?_, valid, ?_, ?_, ?_⟩
  · intro h found
    rw [persisted, found]
  · intro nodeId
    unfold StateDir.incarnation
    rw [incarnations]
  · rw [pending]
    intro r member
    cases member
  · rw [pending]
    intro r member
    cases member

theorem resolveHostId_valid (unset : Python.strip environ = "") :
    Valid sha256 dir port (resolveHostId environ dir uuid) := by
  unfold resolveHostId
  rw [if_neg (by simpa using unset)]
  cases found : dir.persistedHostId with
  | none => exact ⟨uuid, rfl⟩
  | some hostId => exact found

theorem result_resolveHostId : result port (resolveHostId environ dir uuid) = [] := by
  unfold resolveHostId
  split
  · rfl
  · split <;> rfl

/-- The incarnations are renamed into place. -/
theorem advanced_incarnations {b : Bump} (valid : Valid sha256 dir port (.wroteIncarnations b))
    (settled : Settled dir (.wroteIncarnations b)) :
    Advanced sha256 dir
      { dir with incarnations := some (some b.incarnations), incarnationsTmp := none } port
      (.returned b.nodeId b.incarnation) := by
  obtain ⟨⟨hostId, persisted, node⟩, bumped, set⟩ := valid
  obtain ⟨unread, _⟩ := settled
  have after : ∀ nodeId, StateDir.incarnation
      { dir with incarnations := some (some b.incarnations), incarnationsTmp := none } nodeId =
        if nodeId = b.nodeId then b.incarnation else dir.incarnation nodeId := by
    intro nodeId
    unfold StateDir.incarnation
    rw [unread]
    show (b.incarnations.get? nodeId).getD 0 = _
    rw [set, Dict.get?_set]
    split <;> rfl
  have before : b.incarnation = dir.incarnation b.nodeId + 1 := by
    unfold StateDir.incarnation
    rw [unread]
    exact bumped
  refine ⟨fun _ found => found, trivial, ?_, ?_, ?_⟩
  · intro nodeId
    rw [after]
    split
    · next same =>
      rw [same, before]
      omega
    · exact le_refl _
  · intro r member
    rw [List.mem_singleton.mp member]
    exact ⟨rfl, hostId, persisted, node⟩
  · intro r member
    rw [List.mem_singleton.mp member, after, if_pos rfl]
    constructor
    · rw [before]
      exact Int.lt_succ _
    · exact le_refl _

/-- **One file operation**, when nothing raced with the call. -/
theorem advance_spec (unset : Python.strip environ = "")
    (valid : Valid sha256 dir port progress) (settled : Settled dir progress)
    (run : advance sha256 environ dir port uuid progress = some (dir', progress')) :
    Advanced sha256 dir dir' port progress' := by
  cases progress with
  | started =>
    cases run
    exact .quiet rfl rfl (resolveHostId_valid unset) result_resolveHostId
  | minted hostId =>
    cases run
    exact .quiet rfl rfl valid rfl
  | wroteHostId hostId =>
    obtain ⟨fresh, own⟩ := settled
    obtain ⟨minted, rfl⟩ := valid
    simp only [advance, own] at run
    cases run
    have persisted : StateDir.persistedHostId
        { dir with hostId := some (minted.text ++ "\n"), hostIdTmp := none } = some minted.text :=
      persistedHostId_minted minted rfl
    refine ⟨?_, persisted, fun _ => le_refl _, ?_, ?_⟩
    · intro h found
      rw [fresh] at found
      cases found
    · intro r member
      cases member
    · intro r member
      cases member
  | resolvedHostId hostId =>
    cases run
    exact .quiet rfl rfl ⟨⟨hostId, valid, rfl⟩, rfl, rfl⟩ rfl
  | bumped b =>
    cases run
    exact .quiet rfl rfl valid rfl
  | wroteIncarnations b =>
    have own := settled.2
    simp only [advance, own] at run
    cases run
    exact advanced_incarnations valid settled
  | returned nodeId incarnation => cases run
  | failed => cases run

/-! ## Whole runs -/

/-- **Invariant**: what was returned is named after the persisted host id, and no
incarnation of the file is below one that was returned. -/
structure Inv (sha256 : String → String) (s : IdentityState) : Prop where
  unset : Python.strip s.environ = ""
  valid : ∀ call ∈ s.calls, Valid sha256 s.dir call.port call.progress
  node : ∀ r ∈ s.returned, ∃ hostId, s.dir.persistedHostId = some hostId ∧
    r.nodeId = computeNodeId sha256 hostId r.port
  kept : ∀ r ∈ s.returned, r.incarnation ≤ s.dir.incarnation r.nodeId
  rising : Rising s

/-- A call returns at most once. -/
theorem result_pairwise {R : Identity → Identity → Prop} : (result port progress).Pairwise R := by
  cases progress <;> simp [result]

/-- A call that advances without a race keeps the invariant. -/
theorem Inv.advance {i : Nat} {call : IdentityCall} (inv : Inv sha256 s)
    (advanced : Advanced sha256 s.dir dir' call.port progress') :
    Inv sha256 { s with
      dir := dir'
      calls := s.calls.set i ⟨call.port, progress'⟩
      returned := result call.port progress' ++ s.returned } := by
  refine ⟨inv.unset, ?_, ?_, ?_, ?_⟩
  · intro other member
    rcases List.mem_or_eq_of_mem_set member with old | rfl
    · exact (inv.valid other old).mono advanced.hostId
    · exact advanced.valid
  · intro r member
    rcases List.mem_append.mp member with new | old
    · obtain ⟨here, hostId, persisted, node⟩ := advanced.node r new
      exact ⟨hostId, persisted, by rw [here]; exact node⟩
    · obtain ⟨hostId, persisted, node⟩ := inv.node r old
      exact ⟨hostId, advanced.hostId hostId persisted, node⟩
  · intro r member
    rcases List.mem_append.mp member with new | old
    · exact (advanced.raised r new).2
    · exact (inv.kept r old).trans (advanced.incarnation r.nodeId)
  · apply List.pairwise_append.mpr
    refine ⟨result_pairwise, inv.rising, fun later new earlier old same => ?_⟩
    -- the file already had what was returned earlier
    have kept := inv.kept earlier old
    have raised := (advanced.raised later new).1
    rw [same] at raised
    omega

theorem Inv.step (inv : Inv sha256 s) (unraced : Unraced s event)
    (run : step sha256 s event = some s') : Inv sha256 s' := by
  cases event with
  | start port =>
    cases run
    refine ⟨inv.unset, ?_, inv.node, inv.kept, inv.rising⟩
    intro call member
    rcases List.mem_append.mp member with old | new
    · exact inv.valid call old
    · rw [List.mem_singleton.mp new]
      trivial
  | advance i uuid =>
    obtain ⟨call, here, run⟩ := Option.bind_eq_some_iff.mp run
    obtain ⟨⟨dir', progress'⟩, moved, rfl⟩ := Option.map_eq_some_iff.mp run
    have valid := inv.valid call (List.mem_of_getElem? here)
    exact inv.advance (advance_spec inv.unset valid (unraced call here) moved)

theorem inv_of_reachable (reached : (system sha256).ReachableBy Unraced s) : Inv sha256 s := by
  apply reached.invariant
  · intro s start
    obtain ⟨unset, calls, returned⟩ := start
    refine ⟨unset, ?_, ?_, ?_, ?_⟩
    · rw [calls]
      intro call member
      cases member
    · rw [returned]
      intro r member
      cases member
    · rw [returned]
      intro r member
      cases member
    · unfold Rising
      rw [returned]
      exact List.Pairwise.nil
  · intro s event s' inv unraced run
    exact inv.step unraced run

instance : Decidable (SameNode s) :=
  inferInstanceAs (Decidable (∀ one ∈ s.returned, ∀ other ∈ s.returned, _ → _))

instance : Decidable (Rising s) := inferInstanceAs (Decidable (List.Pairwise _ _))

/-- Two uuids. -/
def uuid1 : Uuid4 := ⟨"00000000-0000-4000-8000-000000000001", rfl, rfl⟩
def uuid2 : Uuid4 := ⟨"00000000-0000-4000-8000-000000000002", rfl, rfl⟩

/-- The digests of the texts below. -/
def digest (text : String) : String :=
  if text = "oumigo:00000000-0000-4000-8000-000000000001:7001" then
    "52bb17381d7c1c87ba62dc45a3c190ef9a36514028f60ece363a3cf33b067cdc"
  else if text = "oumigo:00000000-0000-4000-8000-000000000001:7002" then
    "04ca5faf27616eb670be35b95e57a6ba5d79ae1d915dae77529605cdadd6776c"
  else
    "36e1a20c8e77cf9f90accde04a9a9d6bdf963bcd8c139cbe8bc6428c98c3e4fa"

/-- The file operations of a call that does not mint a host id. -/
def rest (i : Nat) : List IdentityEvent := List.replicate 4 (.advance i uuid1)

/-- Two workers start on a fresh host, and mint two host ids; the first one restarts. -/
def doubleMint : List IdentityEvent :=
  ([.start 7001, .start 7002, .advance 0 uuid1, .advance 1 uuid2, .advance 0 uuid1,
    .advance 0 uuid1, .advance 1 uuid2, .advance 1 uuid2, .advance 0 uuid1, .advance 0 uuid1,
    .advance 0 uuid1, .start 7001] : List IdentityEvent) ++ rest 2

/-- A directory with a host id. -/
def named : IdentityState :=
  { dir := { hostId := some "00000000-0000-4000-8000-000000000001\n" } }

/-- Two workers read the incarnations before either writes them; the first one restarts. -/
def lostUpdate : List IdentityEvent :=
  ([.start 7001, .start 7002, .advance 0 uuid1, .advance 1 uuid1,
    .advance 0 uuid1, .advance 1 uuid1, .advance 0 uuid1, .advance 0 uuid1,
    .advance 1 uuid1, .advance 1 uuid1, .start 7001] : List IdentityEvent) ++ rest 2

end Identity

end Oumigo
