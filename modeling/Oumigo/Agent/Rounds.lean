import Oumigo.Agent.Session

/-!
# The rounds of a request

What a request asks the model, and what its tools may do, when no guard rewrites the
assembled prompt (`Tame`).  A round is an assistant message with the calls it makes,
each of them handled once (`Round`); the messages of a request are those it began with
and its rounds (`WellFormed`).  `Gated` says of each event what must have come before.
-/

namespace Oumigo

open Python Trace Effect

variable {W : Type} {chat : OumiGoChat W}

/-! ## Guards that keep to the type -/

/-- A rewrite of the assembled prompt leaves it as it is; any other keeps the type. -/
def Preserves (point : InterceptPoint) (content original : PyVal) : Prop :=
  if point = .assembledPrompt then content = original else content.sameType original

/-- The rewrites of every guard preserve what they rewrite. -/
def OumiGoChat.Tame (chat : OumiGoChat W) : Prop :=
  ∀ profile, chat.agent.profile = some profile → ∀ guard ∈ profile.guards,
    ∀ point ctx world verdict world', guard.applies point →
      guard.intercept point ctx world = .ok verdict world' → verdict.isTransform →
      Preserves point verdict.content ctx.content

/-! ## One tool call -/

/-- The function and the raw arguments that a call asks for. -/
def requested (tc : PyVal) : Except Exn (PyVal × PyVal) := do
  let fn := (← tc.get "function").or (.dict [])
  let name ← fn.getD "name" (.str "")
  let arguments ← fn.get "arguments"
  pure (name, arguments.or (.str "{}"))

/-- A tool can be invoked with these arguments. -/
def invocable : PyVal → Bool
  | .dict kwargs => !kwargs.any fun entry => entry.1 = "self"
  | _ => false

/-- The chain at `point` lets `content` pass after the events `past`: what goes on, and
the events then.  It is what the chain returned, if the chat takes that type. -/
inductive Passed (chat : OumiGoChat W) (point : InterceptPoint) (content : PyVal)
    (past : List Event) : PyVal → List Event → Prop
  | idle : chat.guarding = false → Passed chat point content past content past
  | screened (outcome : ChainOutcome) : ¬ outcome.verdict.halts →
    Passed chat point content past (if accepts point content then outcome.content else content)
      (.screened point content outcome :: past)

/-- What became of a call to `name` with arguments `given` after the events `past`: its
arguments in the end, its result, and the events then. -/
inductive Settled (chat : OumiGoChat W) (name : String) (given : PyVal) (past : List Event) :
    PyVal → String → List Event → Prop
  | refused (outcome : ChainOutcome) : outcome.verdict.halts →
    Settled chat name given past given
      (outcome.verdict.reasonOr
        ("Tool " ++ Python.reprStr name ++ " was blocked by a guardrail."))
      (.screened .toolCall given outcome :: past)
  | uncallable {args : PyVal} {before : List Event} (exn : Exn) :
    Passed chat .toolCall given past args before → invocable args = false →
    Settled chat name given past args (OumiGoChat.errorText exn)
      (.proceeded .toolCall args :: before)
  | raised {kwargs : List (String × PyVal)} {before : List Event} (exn : Exn) :
    Passed chat .toolCall given past (.dict kwargs) before →
    Settled chat name given past (.dict kwargs) (OumiGoChat.errorText exn)
      (.ran name kwargs (.error exn) :: .proceeded .toolCall (.dict kwargs) :: before)
  | withheld {kwargs : List (String × PyVal)} {before : List Event} (text : String)
      (outcome : ChainOutcome) :
    Passed chat .toolCall given past (.dict kwargs) before → outcome.verdict.halts →
    Settled chat name given past (.dict kwargs)
      (outcome.verdict.reasonOr
        ("The result of tool " ++ Python.reprStr name ++ " was withheld by a guardrail."))
      (.screened .toolResult (.str text) outcome :: .ran name kwargs (.ok text) ::
        .proceeded .toolCall (.dict kwargs) :: before)
  | returned {kwargs : List (String × PyVal)} {before after : List Event} (text result : String) :
    Passed chat .toolCall given past (.dict kwargs) before →
    Passed chat .toolResult (.str text)
      (.ran name kwargs (.ok text) :: .proceeded .toolCall (.dict kwargs) :: before)
      (.str result) after →
    Settled chat name given past (.dict kwargs) result
      (.proceeded .toolResult (.str result) :: after)

/-- The last event is part of a tool call that has no entry yet. -/
def callOpen : List Event → Bool
  | .screened .toolCall _ _ :: _ => true
  | .screened .toolResult _ _ :: _ => true
  | .proceeded .toolCall _ :: _ => true
  | .proceeded .toolResult _ :: _ => true
  | .ran .. :: _ => true
  | _ => false

/-- An entry of `tool_calls_made`, with the events before it. -/
structure Made where
  call : ToolCallMade
  before : List Event

/-- The entry is what came of the call `tc`. -/
inductive Handled (chat : OumiGoChat W) (tc : PyVal) : Made → Prop
  | unknown {name raw : PyVal} {before : List Event} : requested tc = .ok (name, raw) →
    chat.toolNamed name = .ok none → callOpen before = false →
    Handled chat tc ⟨⟨name, raw, "Error: unknown tool " ++ chat.reprValue name⟩, before⟩
  | unparsed {name raw : PyVal} {found : String × Tool W} {exn : Exn} {before : List Event} :
    requested tc = .ok (name, raw) → chat.toolNamed name = .ok (some found) →
    chat.loadArguments raw = .error exn → callOpen before = false →
    Handled chat tc
      ⟨⟨name, raw, "Error: could not parse arguments (" ++ exn.text ++ ")"⟩, before⟩
  | parsed {name raw given args : PyVal} {found : String × Tool W} {result : String}
      {past before : List Event} :
    requested tc = .ok (name, raw) → chat.toolNamed name = .ok (some found) →
    chat.loadArguments raw = .ok given → callOpen past = false →
    Settled chat found.1 given past args result before →
    Handled chat tc ⟨⟨name, args, result⟩, before⟩

/-! ## Conversations -/

/-- `tc.get("id")` of a call. -/
def callId (tc : PyVal) : PyVal :=
  match tc.get "id" with
  | .ok id => id
  | .error _ => .none

/-- The `tool` message for a call. -/
def toolMessage (tc : PyVal) (made : Made) : PyVal :=
  .dict [("role", .str "tool"), ("tool_call_id", callId tc), ("content", .str made.call.result)]

/-- An assistant message, with each of its calls handled once, in order. -/
structure Round (chat : OumiGoChat W) where
  assistant : AssistantMessage
  calls : List PyVal
  made : List Made
  listed : assistant.toolCallsOr.iter = .ok calls
  handled : List.Forall₂ (Handled chat) calls made

/-- The assistant message, and the `tool` message of each of its calls. -/
def Round.messages (round : Round chat) : List PyVal :=
  round.assistant.toMessage :: List.zipWith toolMessage round.calls round.made

/-- What the events of a request amount to so far. -/
structure Status where
  asked : Turn := ⟨0, [], ⟨.user, "", none⟩⟩
  /-- what went on from `USER_INPUT` -/
  input : Option PyVal := none
  /-- a verdict ended the turn -/
  ended : Bool := false
  /-- how many bodies were sent -/
  sends : Nat := 0
  made : List Made := []
  /-- the last completion calls tools -/
  calling : Option Bool := none
  /-- the turn was cut short -/
  late : Bool := false

/-- The verdict of a chain ends the turn: at the points of a tool call a skip does not. -/
def endsTurn (point : InterceptPoint) (verdict : Verdict) : Bool :=
  match point with
  | .toolCall => verdict.blocks || verdict.stops
  | .toolResult => verdict.blocks || verdict.stops
  | _ => verdict.halts

/-- After `event`, which came after `before`. -/
def Status.next (st : Status) (before : List Event) : Event → Status
  | .asked turn => { asked := turn }
  | .screened point _ outcome => { st with ended := st.ended || endsTurn point outcome.verdict }
  | .proceeded .userInput content => { st with input := some content }
  | .sent _ _ => { st with sends := st.sends + 1 }
  | .completed _ hasToolCalls => { st with calling := some hasToolCalls }
  | .recorded call => { st with made := st.made ++ [⟨call, before⟩] }
  | .released .timeout _ => { st with late := true }
  | _ => st

def status : List Event → Status
  | [] => {}
  | event :: before => (status before).next before event

/-- The turn is the one asked for, with the user message that went on. -/
structure AskedFor (st : Status) (turn : Turn) : Prop where
  index : turn.index = st.asked.index
  carried : turn.carried = st.asked.carried
  role : turn.own.role = .user
  input : st.input = some (.str turn.own.content)

/-- The messages are those the turn began with, and a round for each body sent. -/
def WellFormed (chat : OumiGoChat W) (st : Status) (turn : Turn) (messages : List PyVal) :
    Prop :=
  ∃ rounds : List (Round chat),
    messages = chat.buildMessages turn ++ rounds.flatMap Round.messages ∧
    rounds.length = st.sends ∧ rounds.flatMap Round.made = st.made

/-- What must have come before an event: a body is sent, or a function run, only while no
verdict has ended the turn; what is sent is well formed; a function runs right after the
chain let its arguments pass; and every entry is what came of a call. -/
def Gated (chat : OumiGoChat W) : Event → List Event → Prop
  | .proceeded .userInput content, before => ∃ turn rest,
      Passed chat .userInput (.str turn.own.content) (.asked turn :: rest) content before
  | .sent turn messages, before => (status before).ended = false ∧
      AskedFor (status before) turn ∧ WellFormed chat (status before) turn messages
  | .ran _ kwargs _, before => (status before).ended = false ∧ ∃ given past rest,
      before = .proceeded .toolCall (.dict kwargs) :: rest ∧
      Passed chat .toolCall given past (.dict kwargs) rest
  | .recorded call, before => ∃ tc, Handled chat tc ⟨call, before⟩
  | .fedBack result, before => ∃ call rest, before = .recorded call :: rest ∧ call.result = result
  | _, _ => True

/-- Why a request that returned sent no further body: a verdict ended the turn, it was cut
short, the last completion calls no tools, or all round-trips are used, and the last round
is complete too. -/
def WentNoFurther (chat : OumiGoChat W) (s : ChatState W) : Prop :=
  (status s.trace).ended ∨ (status s.trace).late ∨ (status s.trace).calling = some false ∨
    (status s.trace).sends = chat.agent.maxIterations ∧
    WellFormed chat (status s.trace) s.turn s.messages

end Oumigo
