import Oumigo.Agent.Session

/-!
# What a chat remembers of a withheld message

A request whose `USER_INPUT` chain halts sends nothing, but `_run` passes the text as
submitted to `_remember`, so a later request carries it to the model; a rewrite that
is not a string leaves the text in place at once.  In a session where neither happens
(`InputContained`) no request sends a text that was refused or rewritten.
-/

namespace Oumigo

open Python Trace Effect

variable {W : Type} {chat : OumiGoChat W}

/-- A chain at `USER_INPUT` that halts meets a chat without memory, and one that
rewrites gives a string. -/
def InputContained (chat : OumiGoChat W) (ask : Ask W) : Prop :=
  ∀ text profile outcome world, ask.contents = .str text → chat.agent.profile = some profile →
    profile.evaluate .userInput { content := .str text, system := chat.system } ask.world =
      .ok outcome world →
    if outcome.verdict.halts then chat.maxHistoryTurns = 0 else outcome.content.str?.isSome

/-! ## Entries that hold no withheld text -/

/-- The content was submitted by one of the first `n` requests, if by any, and by none
of the withheld ones. -/
def Entry.Clear (n : Nat) (withheld : List Nat) (entry : Entry) : Prop :=
  ∀ k, entry.origin = some k → k < n ∧ k ∉ withheld

def Turn.Clear (n : Nat) (withheld : List Nat) (turn : Turn) : Prop :=
  ∀ entry ∈ turn.own :: turn.carried, entry.Clear n withheld

theorem Entry.Clear.of_none {n : Nat} {withheld : List Nat} {entry : Entry}
    (free : entry.origin = none) : entry.Clear n withheld := by
  intro k submitted
  rw [free] at submitted
  cases submitted

/-- The next request is not among the earlier ones. -/
theorem Entry.Clear.succ {n : Nat} {withheld : List Nat} {entry : Entry}
    (clear : entry.Clear n withheld) : entry.Clear (n + 1) withheld :=
  fun k submitted => ⟨(clear k submitted).1.trans (Nat.lt_succ_self n), (clear k submitted).2⟩

/-- Withholding the next request does not touch the earlier ones. -/
theorem Entry.Clear.withhold {n : Nat} {withheld : List Nat} {entry : Entry}
    (clear : entry.Clear n withheld) : entry.Clear (n + 1) (n :: withheld) := by
  intro k submitted
  have ⟨below, kept⟩ := clear k submitted
  refine ⟨by omega, fun member => ?_⟩
  rcases List.mem_cons.mp member with rfl | old
  · omega
  · exact kept old

/-- No entry of the history and no body holds a withheld text. -/
structure Sealed (chat : OumiGoChat W) (r : Record) : Prop where
  output : r.output = replay r.trace
  course : Justified (Due chat fun turn _ => turn.Clear r.requests r.withheld) r.trace
  history : ∀ entry ∈ r.history, entry.Clear r.requests r.withheld
  withheld : ∀ k ∈ r.withheld, k < r.requests

/-! ## One request -/

/-- What `_guard` returns is its content, or what the chain makes of it. -/
theorem guard_returned {point : InterceptPoint} {content : PyVal} {toolName : Option String}
    {messages : Option (List PyVal)} {s s' : ChatState W} {x : PyVal × Verdict × List Verdict}
    (returned : chat.guard point content toolName messages s = .ok x s') :
    (x = (content, .allow, []) ∧
      ∀ profile, chat.agent.profile = some profile → profile.guards = []) ∨
    ∃ profile outcome world, chat.agent.profile = some profile ∧
      profile.evaluate point ⟨content, toolName, messages, chat.system⟩ s.world =
        .ok outcome world ∧ x = (outcome.content, outcome.verdict, outcome.flags) := by
  unfold OumiGoChat.guard at returned
  cases present : chat.agent.profile with
  | none =>
    rw [present] at returned
    cases returned
    exact Or.inl ⟨rfl, fun _ impossible => nomatch impossible⟩
  | some profile =>
    rw [present] at returned
    dsimp only at returned
    split at returned
    · next empty =>
      cases returned
      refine Or.inl ⟨rfl, fun other same => ?_⟩
      cases same
      exact List.isEmpty_iff.mp empty
    · right
      change EStateM.bind (zoom _ _ _) _ s = _ at returned
      unfold EStateM.bind zoom at returned
      cases chain : profile.evaluate point ⟨content, toolName, messages, chat.system⟩ s.world with
      | error exn world =>
        rw [chain] at returned
        cases returned
      | ok outcome world =>
        rw [chain] at returned
        cases returned
        exact ⟨profile, outcome, world, rfl, chain, rfl⟩

/-- A turn that is over leaves the chat sealed, if its user message may be remembered. -/
theorem Closed.sealed {n : Nat} {withheld : List Nat} {r₀ r : Record} {user : Entry}
    (closed : Closed chat (fun turn _ => turn.Clear n withheld) r₀ user r)
    (requests : r₀.requests = n) (same : r₀.withheld = withheld)
    (below : ∀ k ∈ withheld, k < n) (history : ∀ entry ∈ r₀.history, entry.Clear n withheld)
    (remembered : chat.maxHistoryTurns ≠ 0 → user.Clear n withheld) : Sealed chat r := by
  have requests := closed.requests.trans requests
  have same := closed.withheld.trans same
  refine ⟨closed.output, ?_, ?_, ?_⟩
  · rw [requests, same]
    exact closed.course
  · rw [requests, same]
    intro entry member
    rcases closed.history entry member with old | ⟨memory, rfl | free⟩
    · exact history entry old
    · exact remembered memory
    · exact .of_none free
  · rw [requests, same]
    exact below

/-- The decision on a contained request, as `_run` gets it. -/
theorem InputContained.decision {s s' : ChatState W} {text : String} {stream : Bool}
    {contents : PyVal} {verdict : Verdict} {flags : List Verdict}
    (contained : InputContained chat ⟨.str text, stream, s.world⟩)
    (returned : chat.guard .userInput (.str text) none none (chat.begin text s) =
      .ok (contents, verdict, flags) s') :
    if verdict.halts then chat.maxHistoryTurns = 0 else contents.str?.isSome := by
  rcases guard_returned returned with ⟨same, -⟩ | ⟨profile, outcome, world, present, chain, same⟩
  · cases same
    rfl
  · cases same
    exact contained text profile outcome world rfl present chain

/-- Request `n` is being made, with the message of `user`; so far the chat was sealed. -/
structure Asking (chat : OumiGoChat W) (n : Nat) (withheld : List Nat) (user : Entry)
    (r : Record) : Prop where
  output : r.output = replay r.trace
  course : Justified (Due chat fun turn _ => turn.Clear n withheld) r.trace
  history : ∀ entry ∈ r.history, entry.Clear n withheld
  below : ∀ k ∈ withheld, k < n
  requests : r.requests = n + 1
  withheld : r.withheld = withheld
  turn : r.turn = ⟨n, r.history, user⟩

namespace Asking

variable {n : Nat} {withheld : List Nat} {user : Entry} {r r' : Record}
  {x : PyVal × Verdict × List Verdict} {content : PyVal}

theorem consulted (asking : Asking chat n withheld user r)
    (consulted : Consulted chat .userInput content r x r') : Asking chat n withheld user r' := by
  cases consulted with
  | idle => exact asking
  | screened outcome =>
    have due : Due chat (fun turn _ => turn.Clear n withheld)
        (.screened .userInput content outcome) r.trace := due_screened (by decide) (by decide)
    exact { asking with course := .cons due asking.course }

/-- The turns that may send when this request is not withheld. -/
theorem kept (asking : Asking chat n withheld user r) :
    Running chat (fun turn _ => turn.Clear (n + 1) withheld) r r :=
  .start asking.output (asking.course.mono
    (Due.mono fun _ _ held entry member => (held entry member).succ))

/-- The turns that may send when it is. -/
theorem held (asking : Asking chat n withheld user r) :
    Running chat (fun turn _ => turn.Clear (n + 1) (n :: withheld)) r r :=
  .start asking.output (asking.course.mono
    (Due.mono fun _ _ held entry member => (held entry member).withhold))

theorem below_succ (asking : Asking chat n withheld user r) : ∀ k ∈ withheld, k < n + 1 :=
  fun k member => (asking.below k member).trans (Nat.lt_succ_self n)

theorem below_cons (asking : Asking chat n withheld user r) : ∀ k ∈ n :: withheld, k < n + 1 := by
  intro k member
  rcases List.mem_cons.mp member with rfl | old
  · exact Nat.lt_succ_self k
  · exact asking.below_succ k old

/-- The turn is over, and its message was not withheld. -/
theorem sealed_of_kept (asking : Asking chat n withheld user r) {own : Entry}
    (closed : Closed chat (fun turn _ => turn.Clear (n + 1) withheld) r own r')
    (remembered : chat.maxHistoryTurns ≠ 0 → own.Clear (n + 1) withheld) : Sealed chat r' :=
  closed.sealed asking.requests asking.withheld asking.below_succ
    (fun entry member => (asking.history entry member).succ) remembered

theorem sealed_of_running (asking : Asking chat n withheld user r)
    (running : Running chat (fun turn _ => turn.Clear (n + 1) withheld) r r') : Sealed chat r' :=
  asking.sealed_of_kept (running.closed ⟨.user, "", none⟩) fun _ => .of_none rfl

theorem withhold_eq (asking : Asking chat n withheld user r) :
    r.withhold.withheld = n :: withheld := by
  unfold Record.withhold
  rw [asking.turn, asking.withheld]

/-- The turn is over, and its message was withheld. -/
theorem sealed_of_held (asking : Asking chat n withheld user r) {own : Entry}
    (closed : Closed chat (fun turn _ => turn.Clear (n + 1) (n :: withheld)) r.withhold own r')
    (remembered : chat.maxHistoryTurns ≠ 0 → own.Clear (n + 1) (n :: withheld)) :
    Sealed chat r' :=
  closed.sealed asking.requests asking.withhold_eq asking.below_cons
    (fun entry member => (asking.history entry member).withhold) remembered

theorem guard (asking : Asking chat n withheld user r) (content : PyVal) :
    Ensures ChatState.record (chat.guard .userInput content) r
      (Consulted chat .userInput content r) (Sealed chat) :=
  (keeps_guard asking.kept).mono (fun _ _ => id) fun _ => asking.sealed_of_running

/-- A refused message is not remembered by a chat without memory. -/
theorem refuse (asking : Asking chat n withheld user r) (forgets : chat.maxHistoryTurns = 0)
    (verdict : Verdict) :
    Ensures ChatState.record (chat.refuse user verdict) r (fun _ => Sealed chat) (Sealed chat) := by
  exact of_closed (keeps_refuse asking.held user verdict) fun _ closed =>
    asking.sealed_of_held closed fun memory => absurd forgets memory

theorem accept (asking : Asking chat n withheld user r) (submitted : user.origin = some n)
    (stream : Bool) {P : Turn → List Event → Prop} (due : Due chat P user.proceeds r.trace) :
    Ensures ChatState.record (chat.accept user stream) r (fun _ => Sealed chat) (Sealed chat) := by
  have own : user.Clear (n + 1) withheld := by
    intro k same
    cases submitted.symm.trans same
    exact ⟨Nat.lt_succ_self n, fun member => Nat.lt_irrefl n (asking.below n member)⟩
  have allowed : Allowed (fun turn _ => turn.Clear (n + 1) withheld) (r.push user.proceeds) := by
    intro _ _
    change r.turn.Clear (n + 1) withheld
    rw [asking.turn]
    intro entry member
    rcases List.mem_cons.mp member with rfl | carried
    · exact own
    · exact (asking.history entry carried).succ
  exact of_closed (keeps_accept asking.kept user stream allowed due) fun _ closed =>
    asking.sealed_of_kept closed fun _ => own

theorem rewrite (asking : Asking chat n withheld user r) {contents : PyVal}
    (isStr : contents.str?.isSome) (stream : Bool) {P : Turn → List Event → Prop}
    (due : Due chat P (rewritten user contents).proceeds r.trace) :
    Ensures ChatState.record (chat.rewrite user contents stream) r
      (fun _ => Sealed chat) (Sealed chat) := by
  have own : (rewritten user contents).Clear (n + 1) (n :: withheld) := by
    obtain ⟨text, isStr⟩ := Option.isSome_iff_exists.mp isStr
    refine .of_none ?_
    unfold rewritten
    rw [isStr]
    rfl
  have allowed : Allowed (fun turn _ => turn.Clear (n + 1) (n :: withheld))
      ((r.withhold.own (rewritten user contents)).push (rewritten user contents).proceeds) := by
    intro _ _ entry member
    rcases List.mem_cons.mp member with rfl | carried
    · exact own
    · change entry ∈ r.turn.carried at carried
      rw [asking.turn] at carried
      exact (asking.history entry carried).withhold
  exact of_closed (keeps_rewrite asking.held user contents stream allowed due) fun _ closed =>
    asking.sealed_of_held closed fun _ => own

end Asking

theorem Sealed.asking {s : ChatState W} (before : Sealed chat s.record) (text : String) :
    Asking chat s.requests s.withheld ⟨.user, text, some s.requests⟩ (chat.begin text s).record :=
  ⟨rfl, .cons trivial before.course, before.history, before.withheld, rfl, rfl, rfl⟩

/-- A request whose `USER_INPUT` decision is contained keeps the chat sealed. -/
theorem sealed_run {s : ChatState W} {text : String} {stream : Bool}
    (contained : InputContained chat ⟨.str text, stream, s.world⟩) (before : Sealed chat s.record) :
    Sealed chat (final (chat.run (chat.begin text s).turn.own stream)
      (chat.begin text s)).record := by
  have asking := before.asking text
  have guarded := asking.guard (.str text) (chat.begin text s) rfl
  unfold OumiGoChat.run
  refine final_bind (I := fun s : ChatState W => Sealed chat s.record) (fun exn s' raised => ?_)
    fun ⟨contents, verdict, flags⟩ s' returned => ?_
  · change chat.guard .userInput (.str text) none none (chat.begin text s) = _ at raised
    rw [raised] at guarded
    exact guarded
  · change chat.guard .userInput (.str text) none none (chat.begin text s) = _ at returned
    rw [returned] at guarded
    have asking := asking.consulted guarded
    have decision := contained.decision returned
    refine Ensures.final (I := Sealed chat) (r := s'.record) ?_ rfl
    refine .silent_bind (silent_recordFlags _ _) (asking.sealed_of_running asking.kept) fun _ => ?_
    refine .ite (fun halts => ?_) fun passes => ?_
    · rw [if_pos halts] at decision
      exact asking.refuse decision verdict
    · rw [if_neg passes] at decision
      have due := guarded.proceeds (P := SendsOwn) passes
      refine .ite (fun same => ?_) fun _ => ?_
      · change contents.str? = some text at same
        rw [adopted_input, same] at due
        exact asking.accept rfl stream due
      · rw [adopted_input] at due
        refine asking.rewrite decision stream (P := SendsOwn) ?_
        unfold Entry.proceeds
        rw [rewritten_content]
        exact due

/-! ## A request that is not contained -/

theorem contained_of_decision {s s' : ChatState W} {text : String} {stream : Bool}
    {contents : PyVal} {verdict : Verdict} {flags : List Verdict}
    (returned : chat.guard .userInput (.str text) none none (chat.begin text s) =
      .ok (contents, verdict, flags) s')
    (decision : if verdict.halts then chat.maxHistoryTurns = 0 else contents.str?.isSome) :
    InputContained chat ⟨.str text, stream, s.world⟩ := by
  rintro text profile outcome world ⟨⟩ present chain
  rcases guard_returned returned with
    ⟨-, unguarded⟩ | ⟨profile', outcome', world', present', chain', same⟩
  · unfold GuardProfile.evaluate at chain
    rw [unguarded profile present] at chain
    cases chain
    rfl
  · cases present.symm.trans present'
    cases chain.symm.trans chain'
    cases same
    exact decision

/-- The history holds a withheld text. -/
def Holds (r : Record) : Prop :=
  ∃ entry ∈ r.history, ∃ k ∈ r.withheld, entry.origin = some k

/-- A chat with memory remembers the text of a request that is not contained, once the
request returns. -/
theorem holds_run {s s' : ChatState W} {text : String} {stream : Bool} (kept : Kept chat s.record)
    (memory : chat.maxHistoryTurns ≠ 0)
    (broken : ¬ InputContained chat ⟨.str text, stream, s.world⟩)
    (returned : chat.run (chat.begin text s).turn.own stream (chat.begin text s) = .ok () s') :
    Holds s'.record := by
  let user : Entry := ⟨.user, text, some s.requests⟩
  have begun : Running chat (fun _ _ => True) (chat.begin text s).record
      (chat.begin text s).record :=
    .start rfl (.cons trivial (kept.course.mono (Due.mono fun _ _ _ => trivial)))
  obtain ⟨⟨contents, verdict, flags⟩, s₁, guarded, rest⟩ := bind_ok returned
  have decision (held : if verdict.halts then chat.maxHistoryTurns = 0 else contents.str?.isSome) :
      False := broken (contained_of_decision guarded held)
  have consulted : Consulted chat .userInput (.str text) _ _ s₁.record :=
    (keeps_guard begun).returned rfl guarded
  have running := consulted.running begun fun _ => due_screened (by decide) (by decide)
  have index : s₁.turn.index = s.requests := congrArg Turn.index running.turn
  have holds {r' : Record} (done : Done chat (fun _ _ => True) s₁.record.withhold user r') :
      Holds r' := by
    refine ⟨user, done.remembered memory, s.requests, ?_, rfl⟩
    rw [done.withheld]
    exact List.mem_cons.mpr (Or.inl index.symm)
  refine Ensures.returned (Q := fun _ => Holds) (E := fun _ => True) ?_ rfl rest
  refine .silent_bind (silent_recordFlags _ _) trivial fun _ => ?_
  refine .ite (fun halts => ?_) fun passes => ?_
  · exact (keeps_refuse running user verdict).mono (fun _ _ => holds) fun _ _ => trivial
  · rw [if_neg passes] at decision
    have noStr : contents.str? = none := by
      cases isStr : contents.str? with
      | none => rfl
      | some _ => exact (decision (by rw [isStr]; rfl)).elim
    have same : rewritten user contents = user := by
      unfold rewritten
      rw [noStr]
      rfl
    refine .ite (fun unchanged => ?_) fun _ => ?_
    · rw [noStr] at unchanged
      cases unchanged
    · have due := consulted.proceeds (P := fun _ _ => True) passes
      rw [adopted_input, ← rewritten_content user] at due
      refine (keeps_rewrite running user contents stream (fun _ _ => trivial) due).mono
        (fun _ _ done => ?_) fun _ _ => trivial
      rw [same] at done
      exact holds done

/-! ## All requests of a chat -/

/-- Seeded entries are not texts of this chat's requests. -/
theorem normalizeEntry_origin {m : PyVal} {entry : Entry}
    (read : chat.normalizeEntry m = .ok entry) : entry.origin = none := by
  unfold OumiGoChat.normalizeEntry at read
  cases m with
  | dict entries =>
    dsimp only at read
    split at read
    · cases read
    · split at read
      · cases read
        rfl
      · cases read
  | _ => cases read

theorem normalizeHistory_origin {history : List PyVal} {entries : List Entry}
    (read : chat.normalizeHistory history = .ok entries) :
    ∀ entry ∈ entries, entry.origin = none := by
  unfold OumiGoChat.normalizeHistory at read
  induction history generalizing entries with
  | nil =>
    cases read
    intro entry member
    cases member
  | cons m rest ih =>
    rw [List.mapM_cons] at read
    cases first : chat.normalizeEntry m with
    | error exn =>
      rw [first] at read
      cases read
    | ok entry =>
      rw [first] at read
      cases others : rest.mapM chat.normalizeEntry with
      | error exn =>
        rw [others] at read
        cases read
      | ok tail =>
        rw [others] at read
        cases read
        intro other member
        rcases List.mem_cons.mp member with rfl | old
        · exact normalizeEntry_origin first
        · exact ih others other old

theorem sealed_of_reachable {s : ChatState W}
    (reached : (session chat).ReachableBy (fun _ ask => InputContained chat ask) s) :
    Sealed chat s.record := by
  refine reached.invariant (I := fun s => Sealed chat s.record) (fun s start => ?_)
    fun s ask s' before contained run => ?_
  · obtain ⟨history, world, created⟩ := start
    obtain ⟨entries, read, rfl⟩ := create_ok created
    refine ⟨rfl, trivial, fun entry member => ?_, fun k member => nomatch member⟩
    exact .of_none (normalizeHistory_origin read entry (mem_trimHistory member))
  · cases run
    obtain ⟨contents, stream, world⟩ := ask
    cases contents with
    | str text =>
      dsimp only
      rw [final_request]
      exact sealed_run (s := { s with world := world }) contained before
    | _ => exact before

/-- Blocks one message. -/
def secretGuard : Guard (List PyVal) :=
  guardAt .userInput fun content => if content.str? = some "secret" then .block "no" else .allow

end Oumigo
