import Oumigo.Registry

/-!
# The registry as a fold of its history

A history of the registry is the list of its operations with what they returned, newest
first.  `FoldOfHistory` reads the registry off that list: which nodes are there, and each
field of a record.  `registry_fold` proves it of every sequence of operations; the clock of
the operations is arbitrary.

A heartbeat that is answered `False` is not a message: it changes nothing.
-/

namespace Oumigo

namespace Registry

/-- The arguments of `Registry.register`. -/
structure RegisterArgs where
  nodeId : NodeId
  address : String
  state : NodeState
  incarnation : Int
  capabilities : NodeCapabilities
  port : Option Nat
  model : Option String
  backend : Option Backend
  transport : Transport
  profile : Option String
  deriving DecidableEq

/-- The arguments of `Registry.heartbeat`. -/
structure HeartbeatArgs where
  nodeId : NodeId
  state : NodeState
  runState : Option RunState
  port : Option Nat
  maxConcurrentRequests : Option Nat
  tunnelRttMs : Option Rat
  deriving DecidableEq

/-- What a worker tells the registry. -/
inductive Message where
  | register (now : Rat) (args : RegisterArgs)
  | heartbeat (now : Rat) (args : HeartbeatArgs)

/-- An operation that writes the registry. -/
inductive Op where
  | message (m : Message)
  | remove (nodeId : NodeId)
  | reap (now timeout forgetAfter : Rat)

/-- An operation and what it returned (`True` where the source returns no `bool`). -/
structure Logged where
  op : Op
  answer : Bool

namespace Message

def now : Message → Rat
  | .register now _ => now
  | .heartbeat now _ => now

def nodeId : Message → NodeId
  | .register _ args => args.nodeId
  | .heartbeat _ args => args.nodeId

def state : Message → NodeState
  | .register _ args => args.state
  | .heartbeat _ args => args.state

def registration : Message → Option RegisterArgs
  | .register _ args => some args
  | .heartbeat _ _ => none

def port : Message → Option Nat
  | .register _ args => args.port
  | .heartbeat _ args => args.port

def model : Message → Option String
  | .register _ args => args.model
  | .heartbeat _ _ => none

def profile : Message → Option String
  | .register _ args => args.profile
  | .heartbeat _ _ => none

def backend : Message → Option Backend
  | .register _ args => args.backend
  | .heartbeat _ _ => none

def maxConcurrentRequests : Message → Option Nat
  | .register _ _ => none
  | .heartbeat _ args => args.maxConcurrentRequests

end Message

/-- One operation of the registry. -/
def perform (reg : Registry) : Op → Registry × Bool
  | .message (.register now a) =>
      (reg.register now a.nodeId a.address a.state a.incarnation a.capabilities a.port a.model
        a.backend a.transport a.profile, true)
  | .message (.heartbeat now a) =>
      reg.heartbeat now a.nodeId a.state a.runState a.port a.maxConcurrentRequests a.tunnelRttMs
  | .remove n => reg.remove n
  | .reap now timeout forgetAfter => (reg.reap now timeout forgetAfter, true)

/-- The registry after some operations, newest first. -/
def after : List Op → Registry
  | [] => .empty
  | op :: earlier => ((after earlier).perform op).1

/-- The history of some operations. -/
def log : List Op → List Logged
  | [] => []
  | op :: earlier => ⟨op, ((after earlier).perform op).2⟩ :: log earlier

/-- The message of `n` that this entry is, if the registry took it. -/
def Logged.messageOf (n : NodeId) : Logged → Option Message
  | ⟨.message m, true⟩ => if m.nodeId = n then some m else none
  | _ => none

section Reading

variable (n : NodeId) (h : List Logged)

/-- The messages of `n`, newest first. -/
def messages : List Message := h.filterMap (·.messageOf n)

/-- The entries after the last message of `n`. -/
def sinceMessage : List Logged := h.takeWhile fun e => (e.messageOf n).isNone

/-- The operation makes the registry forget `n`, whose last message is `m`. -/
def Forgets (m : Message) : Op → Prop
  | .remove n' => n' = n
  | .reap now _ forgetAfter => now - m.now > forgetAfter
  | .message _ => False

/-- The operation sees a node silent for too long, whose last message is `m`. -/
def SeesSilent (m : Message) : Op → Prop
  | .reap now timeout _ => now - m.now > timeout
  | _ => False

/-- Never registered, or removed, or seen silent past `forget_after`, since the last
message. -/
def Absent : Prop :=
  (∀ m ∈ messages n h, m.registration = none) ∨
    ∃ m, (messages n h).head? = some m ∧ ∃ e ∈ sinceMessage n h, Forgets n m e.op

/-- The history `h` is `since` on top of `before`: the oldest entry of `since` registers
`n`, which was absent, and `n` has been remembered from then on. -/
structure Introduced (since before : List Logged) : Prop where
  whole : h = since ++ before
  registers : ∃ recent now args, since = recent ++ [⟨.message (.register now args), true⟩] ∧
    args.nodeId = n
  absent : Absent n before
  kept : ∀ later, later <:+ since → later ≠ [] → ¬ Absent n (later ++ before)

/-- The fields of a record that keep the last value reported in `told`. -/
structure Reported (told : List Message) (r : NodeRecord) : Prop where
  port : r.port = told.findSome? (·.port)
  model : r.model = told.findSome? (·.model)
  profile : r.profile = told.findSome? (·.profile)
  backend : r.backend = told.findSome? (·.backend)
  cap : r.maxConcurrentRequests = told.findSome? (·.maxConcurrentRequests)

/-- The fields of a record that come from the last registration. -/
structure FiledBy (args : RegisterArgs) (r : NodeRecord) : Prop where
  transport : r.transport = args.transport
  address : r.address = args.address
  incarnation : r.incarnation = args.incarnation
  capabilities : r.capabilities = args.capabilities

/-- The last message of `n` is `m`, and the state of its record is the one `m` reported
unless the node was seen silent for too long since. -/
structure LastHeard (r : NodeRecord) (m : Message) : Prop where
  last : (messages n h).head? = some m
  seen : r.lastSeen = m.now
  lost : (∃ e ∈ sinceMessage n h, SeesSilent m e.op) → r.state = .lost
  stays : (¬ ∃ e ∈ sinceMessage n h, SeesSilent m e.op) → r.state = m.state

/-- What the history tells of the record of `n`. -/
structure Tells (r : NodeRecord) : Prop where
  reported : ∃ since before, Introduced n h since before ∧ Reported (messages n since) r
  filed : ∃ args, (messages n h).findSome? (·.registration) = some args ∧ FiledBy args r
  heard : ∃ m, LastHeard n h r m

end Reading

/-! ## Reading one entry more -/

variable {n : NodeId} {h since before : List Logged} {e : Logged} {m : Message}

section Entries

theorem messages_quiet (quiet : e.messageOf n = none) : messages n (e :: h) = messages n h := by
  unfold messages
  rw [List.filterMap_cons_none quiet]

theorem messages_taken (taken : e.messageOf n = some m) :
    messages n (e :: h) = m :: messages n h := by
  unfold messages
  rw [List.filterMap_cons_some taken]

theorem sinceMessage_quiet (quiet : e.messageOf n = none) :
    sinceMessage n (e :: h) = e :: sinceMessage n h := by
  unfold sinceMessage
  rw [List.takeWhile_cons_of_pos (by rw [quiet]; rfl)]

theorem sinceMessage_taken (taken : e.messageOf n = some m) : sinceMessage n (e :: h) = [] := by
  unfold sinceMessage
  rw [List.takeWhile_cons_of_neg (by rw [taken]; exact Bool.false_ne_true)]

theorem absent_quiet (quiet : e.messageOf n = none) :
    Absent n (e :: h) ↔
      Absent n h ∨ ∃ m, (messages n h).head? = some m ∧ Forgets n m e.op := by
  unfold Absent
  rw [messages_quiet quiet, sinceMessage_quiet quiet]
  constructor
  · rintro (never | ⟨m, last, e', member, forgets⟩)
    · exact Or.inl (Or.inl never)
    · rcases List.mem_cons.mp member with rfl | member
      · exact Or.inr ⟨m, last, forgets⟩
      · exact Or.inl (Or.inr ⟨m, last, e', member, forgets⟩)
  · rintro ((never | ⟨m, last, e', member, forgets⟩) | ⟨m, last, forgets⟩)
    · exact Or.inl never
    · exact Or.inr ⟨m, last, e', List.mem_cons_of_mem _ member, forgets⟩
    · exact Or.inr ⟨m, last, e, List.mem_cons_self, forgets⟩

theorem absent_taken (taken : e.messageOf n = some m) :
    Absent n (e :: h) ↔ ∀ m' ∈ m :: messages n h, m'.registration = none := by
  unfold Absent
  rw [messages_taken taken, sinceMessage_taken taken]
  constructor
  · rintro (never | ⟨m', -, e', member, -⟩)
    · exact never
    · cases member
  · exact Or.inl

/-- A registration brings the node back. -/
theorem not_absent_register {now : Rat} {args : RegisterArgs} (own : args.nodeId = n) :
    ¬ Absent n (⟨.message (.register now args), true⟩ :: h) := by
  have taken : Logged.messageOf n ⟨.message (.register now args), true⟩ =
      some (.register now args) := if_pos own
  intro absent
  have never := (absent_taken taken).mp absent _ List.mem_cons_self
  cases never

/-- A message keeps a remembered node. -/
theorem not_absent_taken (here : ¬ Absent n h) (taken : e.messageOf n = some m) :
    ¬ Absent n (e :: h) := by
  intro absent
  have never := (absent_taken taken).mp absent
  exact here (Or.inl fun m' member => never m' (List.mem_cons_of_mem _ member))

theorem Introduced.first {now : Rat} {args : RegisterArgs} (absent : Absent n h)
    (own : args.nodeId = n) :
    Introduced n (⟨.message (.register now args), true⟩ :: h)
      [⟨.message (.register now args), true⟩] h where
  whole := rfl
  registers := ⟨[], now, args, rfl, own⟩
  absent := absent
  kept later suffix some := by
    rcases List.suffix_cons_iff.mp suffix with rfl | shorter
    · exact not_absent_register own
    · exact absurd (List.suffix_nil.mp shorter) some

theorem Introduced.more (intro : Introduced n h since before) (here : ¬ Absent n (e :: h)) :
    Introduced n (e :: h) (e :: since) before where
  whole := by rw [intro.whole, List.cons_append]
  registers := by
    obtain ⟨recent, now, args, same, own⟩ := intro.registers
    exact ⟨e :: recent, now, args, by rw [same, List.cons_append], own⟩
  absent := intro.absent
  kept later suffix some := by
    rcases List.suffix_cons_iff.mp suffix with rfl | shorter
    · rw [List.cons_append, ← intro.whole]
      exact here
    · exact intro.kept later shorter some

end Entries

/-! ## What an operation does to a record -/

section Records

variable {r r' : NodeRecord}

theorem findSome?_cons_or {α : Type} (f : Message → Option α) (told : List Message) :
    (m :: told).findSome? f = (f m <|> told.findSome? f) := by
  rw [List.findSome?_cons]
  cases f m <;> rfl

theorem Reported.cons {told : List Message} (reported : Reported told r)
    (port : r'.port = (m.port <|> r.port)) (model : r'.model = (m.model <|> r.model))
    (profile : r'.profile = (m.profile <|> r.profile))
    (backend : r'.backend = (m.backend <|> r.backend))
    (cap : r'.maxConcurrentRequests = (m.maxConcurrentRequests <|> r.maxConcurrentRequests)) :
    Reported (m :: told) r' where
  port := by rw [port, reported.port, findSome?_cons_or]
  model := by rw [model, reported.model, findSome?_cons_or]
  profile := by rw [profile, reported.profile, findSome?_cons_or]
  backend := by rw [backend, reported.backend, findSome?_cons_or]
  cap := by rw [cap, reported.cap, findSome?_cons_or]

theorem LastHeard.taken (taken : e.messageOf n = some m) (seen : r.lastSeen = m.now)
    (state : r.state = m.state) : LastHeard n (e :: h) r m where
  last := by rw [messages_taken taken, List.head?_cons]
  seen := seen
  lost := by
    rintro ⟨e', member, -⟩
    rw [sinceMessage_taken taken] at member
    cases member
  stays _ := state

theorem LastHeard.quiet (heard : LastHeard n h r m) (quiet : e.messageOf n = none)
    (seen : r'.lastSeen = r.lastSeen) (lost : SeesSilent m e.op → r'.state = .lost)
    (stays : ¬ SeesSilent m e.op → r'.state = r.state) (sticks : r.state = .lost → r'.state = .lost) :
    LastHeard n (e :: h) r' m where
  last := by rw [messages_quiet quiet, heard.last]
  seen := seen.trans heard.seen
  lost := by
    rw [sinceMessage_quiet quiet]
    rintro ⟨e', member, silent⟩
    rcases List.mem_cons.mp member with rfl | member
    · exact lost silent
    · exact sticks (heard.lost ⟨e', member, silent⟩)
  stays := by
    rw [sinceMessage_quiet quiet]
    intro never
    have here : ¬ SeesSilent m e.op := fun silent => never ⟨e, List.mem_cons_self, silent⟩
    have before : ¬ ∃ e' ∈ sinceMessage n h, SeesSilent m e'.op := by
      rintro ⟨e', member, silent⟩
      exact never ⟨e', List.mem_cons_of_mem _ member, silent⟩
    exact (stays here).trans (heard.stays before)

/-- An entry that is no message of `n` and does not forget it leaves the record as it was,
or marks it LOST. -/
theorem Tells.quiet (tells : Tells n h r) (quiet : e.messageOf n = none)
    (here : ¬ Absent n (e :: h)) (same : r' = { r with state := r'.state })
    (lost : ∀ m, LastHeard n h r m → SeesSilent m e.op → r'.state = .lost)
    (stays : ∀ m, LastHeard n h r m → ¬ SeesSilent m e.op → r'.state = r.state)
    (sticks : r.state = .lost → r'.state = .lost) : Tells n (e :: h) r' where
  reported := by
    obtain ⟨since, before, intro, reported⟩ := tells.reported
    refine ⟨e :: since, before, intro.more here, ?_⟩
    rw [messages_quiet quiet, same]
    exact ⟨reported.port, reported.model, reported.profile, reported.backend, reported.cap⟩
  filed := by
    obtain ⟨args, last, filed⟩ := tells.filed
    refine ⟨args, by rw [messages_quiet quiet, last], ?_⟩
    rw [same]
    exact ⟨filed.transport, filed.address, filed.incarnation, filed.capabilities⟩
  heard := by
    obtain ⟨m, heard⟩ := tells.heard
    have seen : r'.lastSeen = r.lastSeen := by rw [same]
    exact ⟨m, heard.quiet quiet seen (lost m heard) (stays m heard) sticks⟩

/-- The record of `n` in the registry is what the history tells. -/
def Told (n : NodeId) (h : List Logged) : Option NodeRecord → Prop
  | none => Absent n h
  | some r => ¬ Absent n h ∧ Tells n h r

/-- An entry that has nothing to do with `n`. -/
theorem Told.idle {found : Option NodeRecord} (told : Told n h found)
    (quiet : e.messageOf n = none)
    (idle : ∀ m, ¬ Forgets n m e.op ∧ ¬ SeesSilent m e.op) : Told n (e :: h) found := by
  cases found with
  | none => exact (absent_quiet quiet).mpr (Or.inl told)
  | some r =>
    obtain ⟨here, tells⟩ := told
    have still : ¬ Absent n (e :: h) := by
      intro absent
      rcases (absent_quiet quiet).mp absent with before | ⟨m, -, forgets⟩
      · exact here before
      · exact (idle m).1 forgets
    exact ⟨still, tells.quiet quiet still rfl (fun m _ silent => absurd silent (idle m).2)
      (fun _ _ _ => rfl) id⟩

variable {reg : Registry}

theorem told_register (now : Rat) (args : RegisterArgs) (told : Told n h (reg.get n)) :
    Told n (⟨.message (.register now args), true⟩ :: h)
      ((reg.perform (.message (.register now args))).1.get n) := by
  by_cases own : args.nodeId = n
  · have taken : Logged.messageOf n ⟨.message (.register now args), true⟩ =
        some (.register now args) := if_pos own
    have filed {r' : NodeRecord} (filed : FiledBy args r') :
        ∃ args', (messages n (⟨.message (.register now args), true⟩ :: h)).findSome?
          (·.registration) = some args' ∧ FiledBy args' r' := by
      rw [messages_taken taken, findSome?_cons_or]
      exact ⟨args, rfl, filed⟩
    unfold perform register
    dsimp only
    rw [get_store, if_pos own.symm, own]
    cases found : reg.get n with
    | none =>
      rw [found] at told
      refine ⟨not_absent_register own, ⟨_, h, Introduced.first told own, ?_⟩, ?_, ?_⟩
      · have nothing : Reported []
            ⟨n, args.address, args.state, args.incarnation, args.capabilities, now, now,
              none, 0, none, none, none, none, none, .direct, none⟩ :=
          ⟨rfl, rfl, rfl, rfl, rfl⟩
        rw [messages_taken taken]
        exact nothing.cons rfl rfl rfl rfl rfl
      · exact filed ⟨rfl, rfl, rfl, rfl⟩
      · exact ⟨_, LastHeard.taken taken rfl rfl⟩
    | some r =>
      rw [found] at told
      obtain ⟨here, tells⟩ := told
      obtain ⟨since, before, intro, reported⟩ := tells.reported
      have still := not_absent_taken here taken
      refine ⟨still, ⟨_, before, intro.more still, ?_⟩, ?_, ?_⟩
      · rw [messages_taken taken]
        exact reported.cons rfl rfl rfl rfl rfl
      · exact filed ⟨rfl, rfl, rfl, rfl⟩
      · exact ⟨_, LastHeard.taken taken rfl rfl⟩
  · have quiet : Logged.messageOf n ⟨.message (.register now args), true⟩ = none := if_neg own
    have same : (reg.perform (.message (.register now args))).1.get n = reg.get n :=
      get_register_ne fun other => own other.symm
    rw [same]
    exact told.idle quiet fun m => ⟨id, id⟩

theorem told_heartbeat (now : Rat) (args : HeartbeatArgs) (told : Told n h (reg.get n)) :
    Told n (⟨.message (.heartbeat now args),
        (reg.perform (.message (.heartbeat now args))).2⟩ :: h)
      ((reg.perform (.message (.heartbeat now args))).1.get n) := by
  by_cases own : args.nodeId = n
  · subst own
    have beats : (reg.perform (.message (.heartbeat now args))).1.get args.nodeId = _ :=
      get_heartbeat_self
    have answer : (reg.perform (.message (.heartbeat now args))).2 = _ := heartbeat_known
    rw [beats, answer]
    cases found : reg.get args.nodeId with
    | none =>
      rw [found] at told
      exact told.idle rfl fun m => ⟨id, id⟩
    | some r =>
      rw [found] at told
      have taken : Logged.messageOf args.nodeId ⟨.message (.heartbeat now args), true⟩ =
          some (.heartbeat now args) := if_pos rfl
      obtain ⟨here, tells⟩ := told
      obtain ⟨since, before, intro, reported⟩ := tells.reported
      obtain ⟨args', last, filed⟩ := tells.filed
      have still := not_absent_taken here taken
      refine ⟨still, ⟨_, before, intro.more still, ?_⟩, ⟨args', ?_, ?_⟩, ?_⟩
      · rw [Option.isSome_some, messages_taken taken]
        exact reported.cons rfl rfl rfl rfl rfl
      · rw [Option.isSome_some, messages_taken taken, findSome?_cons_or, last]
        rfl
      · exact ⟨filed.transport, filed.address, filed.incarnation, filed.capabilities⟩
      · exact ⟨_, LastHeard.taken taken rfl rfl⟩
  · have quiet : Logged.messageOf n ⟨.message (.heartbeat now args),
        (reg.perform (.message (.heartbeat now args))).2⟩ = none := by
      cases (reg.perform (.message (.heartbeat now args))).2 with
      | false => rfl
      | true => exact if_neg own
    have same : (reg.perform (.message (.heartbeat now args))).1.get n = reg.get n :=
      get_heartbeat_ne fun other => own other.symm
    rw [same]
    exact told.idle quiet fun m => ⟨id, id⟩

theorem told_remove (n' : NodeId) (told : Told n h (reg.get n)) :
    Told n (⟨.remove n', (reg.perform (.remove n')).2⟩ :: h)
      ((reg.perform (.remove n')).1.get n) := by
  have removed : (reg.perform (.remove n')).1.get n = if n = n' then none else reg.get n :=
    get_remove
  rw [removed]
  by_cases own : n' = n
  · rw [if_pos own.symm]
    apply (absent_quiet rfl).mpr
    cases found : reg.get n with
    | none =>
      rw [found] at told
      exact Or.inl told
    | some r =>
      rw [found] at told
      obtain ⟨m, heard⟩ := told.2.heard
      exact Or.inr ⟨m, heard.last, own⟩
  · rw [if_neg fun other => own other.symm]
    exact told.idle rfl fun m => ⟨own, id⟩

theorem told_reap (now timeout forgetAfter : Rat) (told : Told n h (reg.get n)) :
    Told n (⟨.reap now timeout forgetAfter, true⟩ :: h)
      ((reg.perform (.reap now timeout forgetAfter)).1.get n) := by
  have reaped : (reg.perform (.reap now timeout forgetAfter)).1.get n = _ := get_reap
  rw [reaped]
  cases found : reg.get n with
  | none =>
    rw [found] at told
    exact (absent_quiet rfl).mpr (Or.inl told)
  | some r =>
    rw [found] at told
    obtain ⟨here, tells⟩ := told
    rw [Option.bind_some]
    unfold reapRecord
    by_cases forgets : now - r.lastSeen > forgetAfter
    · rw [if_pos forgets]
      obtain ⟨m, heard⟩ := tells.heard
      rw [heard.seen] at forgets
      exact (absent_quiet rfl).mpr (Or.inr ⟨m, heard.last, forgets⟩)
    · rw [if_neg forgets]
      have still : ¬ Absent n (⟨.reap now timeout forgetAfter, true⟩ :: h) := by
        intro absent
        rcases (absent_quiet rfl).mp absent with before | ⟨m, last, gone⟩
        · exact here before
        · obtain ⟨m', heard⟩ := tells.heard
          have same : m' = m := Option.some.inj (heard.last.symm.trans last)
          rw [heard.seen, same] at forgets
          exact forgets gone
      by_cases lost : now - r.lastSeen > timeout ∧ r.state ≠ .lost
      · rw [if_pos lost]
        refine ⟨still, tells.quiet rfl still rfl (fun _ _ _ => rfl) ?_ fun _ => rfl⟩
        intro m heard seen
        rw [heard.seen] at lost
        exact absurd lost.1 seen
      · rw [if_neg lost]
        refine ⟨still, tells.quiet rfl still rfl ?_ (fun _ _ _ => rfl) id⟩
        intro m heard silent
        rw [heard.seen] at lost
        by_contra state
        exact lost ⟨silent, state⟩

/-- **Every operation** leaves the records what the history tells. -/
theorem told_perform (op : Op) (told : ∀ n, Told n h (reg.get n)) (n : NodeId) :
    Told n (⟨op, (reg.perform op).2⟩ :: h) ((reg.perform op).1.get n) := by
  cases op with
  | message m =>
    cases m with
    | register now args => exact told_register now args (told n)
    | heartbeat now args => exact told_heartbeat now args (told n)
  | remove n' => exact told_remove n' (told n)
  | reap now timeout forgetAfter => exact told_reap now timeout forgetAfter (told n)

theorem told_after (ops : List Op) : ∀ n, Told n (log ops) ((after ops).get n) := by
  induction ops with
  | nil =>
    intro n
    refine Or.inl fun m member => ?_
    cases member
  | cons op earlier ih => exact told_perform op ih

end Records

/-! ## The numbers of the nodes -/

section Numbers

variable {reg : Registry} {op : Op} {r r' : NodeRecord}

/-- A record keeps its number and the time of its registration, or is new and has the next
number. -/
theorem seq_perform (found : (reg.perform op).1.get n = some r') :
    (∃ r, reg.get n = some r ∧ r'.seq = r.seq ∧ r'.registeredAt = r.registeredAt) ∨
      (reg.get n = none ∧ r'.seq = reg.seq + 1 ∧ (reg.perform op).1.seq = reg.seq + 1 ∧
        ∃ now args, op = .message (.register now args) ∧ args.nodeId = n) := by
  cases op with
  | message m =>
    cases m with
    | register now args =>
      by_cases own : n = args.nodeId
      · subst own
        unfold perform register at found ⊢
        dsimp only at found ⊢
        rw [get_store, if_pos rfl] at found
        cases known : reg.get args.nodeId with
        | none =>
          rw [known] at found
          cases found
          exact Or.inr ⟨rfl, rfl, rfl, now, args, rfl, rfl⟩
        | some r =>
          rw [known] at found
          cases found
          exact Or.inl ⟨r, rfl, rfl, rfl⟩
      · have same : (reg.perform (.message (.register now args))).1.get n = reg.get n :=
          get_register_ne own
        exact Or.inl ⟨r', same.symm.trans found, rfl, rfl⟩
    | heartbeat now args =>
      by_cases own : n = args.nodeId
      · subst own
        have beats : (reg.perform (.message (.heartbeat now args))).1.get args.nodeId = _ :=
          get_heartbeat_self
        obtain ⟨r, known, same⟩ := Option.map_eq_some_iff.mp (beats.symm.trans found)
        cases same
        exact Or.inl ⟨r, known, rfl, rfl⟩
      · have same : (reg.perform (.message (.heartbeat now args))).1.get n = reg.get n :=
          get_heartbeat_ne own
        exact Or.inl ⟨r', same.symm.trans found, rfl, rfl⟩
  | remove n' =>
    have removed : (reg.perform (.remove n')).1.get n = if n = n' then none else reg.get n :=
      get_remove
    rw [removed] at found
    split at found
    · cases found
    · exact Or.inl ⟨r', found, rfl, rfl⟩
  | reap now timeout forgetAfter =>
    have reaped : (reg.perform (.reap now timeout forgetAfter)).1.get n = _ := get_reap
    obtain ⟨r, known, kept⟩ := Option.bind_eq_some_iff.mp (reaped.symm.trans found)
    rcases reapRecord_cases kept with rfl | rfl
    · exact Or.inl ⟨r, known, rfl, rfl⟩
    · exact Or.inl ⟨_, known, rfl, rfl⟩

theorem seq_le_perform (reg : Registry) (op : Op) : reg.seq ≤ (reg.perform op).1.seq := by
  cases op with
  | message m =>
    cases m with
    | register now args =>
      unfold perform register store
      dsimp only
      cases reg.get args.nodeId with
      | none => exact Nat.le_succ _
      | some r => exact Nat.le_refl _
    | heartbeat now args =>
      unfold perform heartbeat
      dsimp only
      cases reg.get args.nodeId with
      | none => exact Nat.le_refl _
      | some r => exact Nat.le_refl _
  | remove n' => exact Nat.le_refl _
  | reap now timeout forgetAfter => exact Nat.le_refl _

theorem seq_le_after (later earlier : List Op) :
    (after earlier).seq ≤ (after (later ++ earlier)).seq := by
  induction later with
  | nil => exact Nat.le_refl _
  | cons op later ih => exact ih.trans (seq_le_perform _ op)

theorem seq_bounds {ops : List Op} (found : (after ops).get n = some r) :
    0 < r.seq ∧ r.seq ≤ (after ops).seq := by
  induction ops generalizing r with
  | nil => cases found
  | cons op earlier ih =>
    rcases seq_perform found with ⟨r₀, known, same, -⟩ | ⟨-, new, last, -⟩
    · obtain ⟨positive, bounded⟩ := ih known
      rw [same]
      exact ⟨positive, bounded.trans (seq_le_perform _ op)⟩
    · rw [new]
      exact ⟨Nat.succ_pos _, last.ge⟩

/-- A number given out before `later` is still that of its node. -/
theorem seq_old {later earlier : List Op} (found : (after (later ++ earlier)).get n = some r')
    (old : r'.seq ≤ (after earlier).seq) :
    ∃ r, (after earlier).get n = some r ∧ r.seq = r'.seq := by
  induction later generalizing r' with
  | nil => exact ⟨r', found, rfl⟩
  | cons op later ih =>
    rcases seq_perform found with ⟨r, known, same, -⟩ | ⟨-, new, -⟩
    · obtain ⟨r₀, kept, number⟩ := ih known (same ▸ old)
      exact ⟨r₀, kept, number.trans same.symm⟩
    · have grown := seq_le_after later earlier
      have next : r'.seq = (after (later ++ earlier)).seq + 1 := new
      omega

theorem seq_distinct {ops : List Op} {n' : NodeId} (found : (after ops).get n = some r)
    (found' : (after ops).get n' = some r') (same : r.seq = r'.seq) : n = n' := by
  induction ops generalizing r r' with
  | nil => cases found
  | cons op earlier ih =>
    rcases seq_perform found with ⟨r₀, known, number, -⟩ | ⟨-, new, -, now, args, rfl, own⟩
    · rcases seq_perform found' with ⟨r₀', known', number', -⟩ | ⟨-, new', -⟩
      · exact ih known known' (number.symm.trans (same.trans number'))
      · have bound := (seq_bounds known).2
        omega
    · rcases seq_perform found' with ⟨r₀', known', number', -⟩ | ⟨-, -, -, now', args', reg', own'⟩
      · have bound := (seq_bounds known').2
        omega
      · cases reg'
        exact own.symm.trans own'

end Numbers

/-- What the registry holds after some operations (newest first), read off their history. -/
structure FoldOfHistory (ops : List Op) : Prop where
  numbered : ∀ n r, (after ops).get n = some r → 0 < r.seq
  /-- also of nodes that are remembered at different times -/
  unique : ∀ later earlier n n' r r', ops = later ++ earlier →
    (after earlier).get n = some r → (after ops).get n' = some r' → r.seq = r'.seq → n = n'
  fixed : ∀ op earlier n r r', ops = op :: earlier → (after earlier).get n = some r →
    (after ops).get n = some r' → r'.seq = r.seq ∧ r'.registeredAt = r.registeredAt
  tells : ∀ n r, (after ops).get n = some r → Tells n (log ops) r
  absent : ∀ n, (after ops).get n = none ↔ Absent n (log ops)
  unknown : ∀ now args,
    (((after ops).perform (.message (.heartbeat now args))).2 = false ↔
      (after ops).get args.nodeId = none) ∧
    ((after ops).get args.nodeId = none →
      ((after ops).perform (.message (.heartbeat now args))).1 = after ops)

/-- **The registry is the fold of its history**, for every sequence of operations. -/
theorem registry_fold (ops : List Op) : FoldOfHistory ops where
  numbered n r found := (seq_bounds found).1
  unique later earlier n n' r r' split found found' same := by
    subst split
    have old : r'.seq ≤ (after earlier).seq := same ▸ (seq_bounds found).2
    obtain ⟨r₀, known, number⟩ := seq_old found' old
    exact seq_distinct found known (same.trans number.symm)
  fixed op earlier n r r' split found found' := by
    subst split
    rcases seq_perform found' with ⟨r₀, known, number, registered⟩ | ⟨new, -⟩
    · rw [known] at found
      cases found
      exact ⟨number, registered⟩
    · rw [new] at found
      cases found
  tells n r found := by
    have told := told_after ops n
    rw [found] at told
    exact told.2
  absent n := by
    have told := told_after ops n
    cases found : (after ops).get n with
    | none =>
      rw [found] at told
      exact ⟨fun _ => told, fun _ => rfl⟩
    | some r =>
      rw [found] at told
      constructor
      · intro gone
        cases gone
      · exact fun absent => absurd absent told.1
  unknown now args := by
    have answer : ((after ops).perform (.message (.heartbeat now args))).2 = _ := heartbeat_known
    rw [answer]
    constructor
    · rw [Option.isSome_eq_false_iff, Option.isNone_iff_eq_none]
    · intro gone
      unfold perform heartbeat
      dsimp only
      rw [gone]

end Registry

end Oumigo
