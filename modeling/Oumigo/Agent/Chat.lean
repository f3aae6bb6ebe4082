import Oumigo.Agent.Wire

/-!
# One request of a chat

`OumiGoChat` of `api/agent/chat.py`: the guard chain at its intercept points, one
round-trip streamed or not, the tools a completion calls, the loop over them, and
`request` with the history it reads and writes.  A loop of the source is a recursion;
`messages` and the response of the turn are part of the state.
-/

namespace Oumigo

open Python

variable {W : Type}

/-- `_TIMEOUT_TEXT`. -/
def timeoutText : String := "\n\n[OumiGo] Timed out before the model finished this turn."

/-- `_DEFAULT_BLOCK_TEXT`. -/
def defaultBlockText : String := "This request was blocked by a guardrail policy."

/-- The assistant message of a completion; `tool_calls` is there when it is truthy. -/
structure AssistantMessage where
  content : PyVal
  toolCalls : Option PyVal

def AssistantMessage.toMessage (message : AssistantMessage) : PyVal :=
  .dict ([("role", .str "assistant"), ("content", message.content)] ++
    message.toolCalls.toList.map fun calls => ("tool_calls", calls))

/-- `assistant.get("tool_calls") or []`. -/
def AssistantMessage.toolCallsOr (message : AssistantMessage) : PyVal :=
  (message.toolCalls.getD .none).or (.list [])

/-- `(data.get("choices") or [{}])[0]`. -/
def firstChoice (data : PyVal) : Except Exn PyVal := do
  ((← data.get "choices").or (.list [.dict []])).first

/-- `"".join(parts)`. -/
def joinParts : List PyVal → Except Exn String
  | [] => .ok ""
  | .str s :: rest => do
      let tail ← joinParts rest
      pure (s ++ tail)
  | other :: _ => .error (typeError ("expected str instance, " ++ other.typeName ++ " found"))

/-- `messages[-1] = {**messages[-1], "content": content}`. -/
def setLastContent (content : PyVal) : ChatM W Unit := do
  match (← get).messages.getLast? with
  | some (.dict entries) => replaceLast (.dict (Dict.setEntries entries "content" content))
  | some other => throw (typeError (Python.reprStr other.typeName ++ " object is not a mapping"))
  | none => throw ⟨.exception, "IndexError", "list index out of range"⟩

/-- Keeps the last message in step with its text, when that is not the answer itself. -/
def syncLast (text : Option String) (answer : PyVal) : ChatM W Unit :=
  match text with
  | some s => if answer.str? = some s then pure () else setLastContent (.str s)
  | none => pure ()

/-- The reason a halting verdict ends the turn with. -/
def haltReason (verdict : Verdict) : String := if verdict.stops then "stopped" else "blocked"

/-- `_record_flags`. -/
def recordFlags (point : InterceptPoint) (flags : List Verdict) : ChatM W Unit :=
  withResponse fun resp => { resp with
    guardEvents := resp.guardEvents ++
      flags.map fun flag => ⟨point.value, flag.decision.value, flag.reason⟩ }

/-- `OumiGoResponse._note_reasoning`. -/
def noteReasoning (text : PyVal) : ChatM W Unit := do
  if text.truthy then
    let text ← Effect.lift text.asStr
    withResponse fun resp => { resp with
      reasoning := if resp.reasoning = "" then text else resp.reasoning ++ "\n\n" ++ text }
  else pure ()

namespace OumiGoChat

variable (chat : OumiGoChat W)

/-- `resp.text += text` and `yield "answer", text`. -/
def answer (source : PieceSource) (text : String) : ChatM W Unit := do
  withResponse fun resp => { resp with text := resp.text ++ text }
  note (.released source text)
  outside (chat.outer.resume .answer (.str text))

/-- Appends prose to `resp.text` and yields it, when there is any. -/
def releaseProse (text : PyVal) : ChatM W Unit :=
  if text.truthy then do
    let piece ← Effect.lift text.asStr
    chat.answer .prose piece
  else pure ()

/-- Prose that arrives is released at once, unless the output is buffered. -/
def passThrough (text : PyVal) : ChatM W Unit :=
  if chat.bufferOutput then pure () else chat.releaseProse text

/-- `yield "reasoning", text`, when there is any. -/
def yieldReasoning (text : PyVal) : ChatM W Unit :=
  if text.truthy then outside (chat.outer.resume .reasoning text) else pure ()

/-! ## The guard chain -/

/-- `_guard`. -/
def guard (point : InterceptPoint) (content : PyVal) (toolName : Option String := none)
    (messages : Option (List PyVal) := none) : ChatM W (PyVal × Verdict × List Verdict) :=
  match chat.agent.profile with
  | none => pure (content, .allow, [])
  | some profile =>
      if profile.isEmpty then pure (content, .allow, [])
      else do
        let outcome ← outside (profile.evaluate point
          { content := content, toolName := toolName, messages := messages,
            system := chat.system })
        note (.screened point content outcome)
        pure (outcome.content, outcome.verdict, outcome.flags)

/-- `_guard_prompt`. -/
def guardPrompt : ChatM W Verdict :=
  if !chat.guarding then pure .allow
  else do
    let messages := (← get).messages
    let (newMessages, verdict, flags) ←
      chat.guard .assembledPrompt (.list messages) none (some messages)
    recordFlags .assembledPrompt flags
    modify fun s => { s with messages := newMessages.list?.getD messages }
    pure verdict

/-- `_halt`. -/
def halt (verdict : Verdict) : ChatM W Unit :=
  chat.answer .verdict (verdict.reasonOr defaultBlockText)

/-- `_guard_output`; `none` when the turn goes on. -/
def guardOutput (answer : PyVal) (hasToolCalls : Bool) : ChatM W (Option String) := do
  let point : InterceptPoint := if hasToolCalls then .assistantTurn else .finalAnswer
  let messages := (← get).messages
  let (text, verdict, flags) ← chat.guard point answer none (some messages)
  recordFlags point flags
  if verdict.halts then
    chat.halt verdict
    setLastContent (.str (← get).resp.text)
    pure (some (haltReason verdict))
  else
    let accepted : PyVal := (text.str?.map .str).getD answer
    note (.proceeded point accepted)
    chat.releaseProse accepted
    syncLast text.str? answer
    pure none

/-- The output guards, when they are due. -/
def screenOutput (answer : PyVal) (hasToolCalls : Bool) : ChatM W (Option String) :=
  if chat.bufferOutput then chat.guardOutput answer hasToolCalls else pure none

/-! ## One round-trip -/

/-- What `_stream_turn` collects. -/
structure StreamAcc where
  contentParts : List PyVal := []
  reasoningParts : List PyVal := []
  toolCalls : Dict IndexKey ToolCallSlot := .empty
  finish : PyVal := .none

/-- The body of the loop of `_stream_turn`. -/
def streamEvent (event : PyVal) (acc : StreamAcc) : ChatM W StreamAcc := do
  withResponse fun resp => { resp with raw := event }
  let choice ← Effect.lift (firstChoice event)
  let finish ← Effect.lift (choice.get "finish_reason")
  let finish := if finish.truthy then finish else acc.finish
  let delta := (← Effect.lift (choice.get "delta")).or (.dict [])
  let reasoning ← Effect.lift (delta.get "reasoning_content")
  let reasoningParts := if reasoning.truthy then acc.reasoningParts ++ [reasoning]
    else acc.reasoningParts
  chat.yieldReasoning reasoning
  let content ← Effect.lift (delta.get "content")
  let contentParts := if content.truthy then acc.contentParts ++ [content] else acc.contentParts
  chat.passThrough content
  let deltas ← Effect.lift ((← Effect.lift (delta.get "tool_calls")).or (.list [])).iter
  let toolCalls ← Effect.lift (deltas.foldlM accumulateToolCall acc.toolCalls)
  pure ⟨contentParts, reasoningParts, toolCalls, finish⟩

/-- The loop of `_stream_turn` over the lines of the reply. -/
def streamEvents : List (EStateM Exn W String) → StreamAcc → ChatM W StreamAcc
  | [], acc => pure acc
  | line :: rest, acc => do
      let line ← outside line
      match ← Effect.lift (parseLine chat.outer.loads line) with
      | .skipped => streamEvents rest acc
      | .done => pure acc
      | .event event => do
          let acc ← chat.streamEvent event acc
          streamEvents rest acc

/-- `_stream_turn`: the assistant message, the finish reason and the turn's prose. -/
def streamTurn : ChatM W (AssistantMessage × PyVal × PyVal) := do
  let lines ← chat.postStream
  let acc ← chat.streamEvents lines {}
  let reasoning ← Effect.lift (joinParts acc.reasoningParts)
  noteReasoning (.str reasoning)
  let answer ← Effect.lift (joinParts acc.contentParts)
  let content : PyVal := if answer = "" then .none else .str answer
  if acc.toolCalls.entries.isEmpty then pure (⟨content, none⟩, acc.finish, .str answer)
  else do
    let calls ← Effect.lift (assembledToolCalls acc.toolCalls)
    pure (⟨content, some (.list calls)⟩, acc.finish, .str answer)

/-- The non-streamed part of `_complete_turn`. -/
def jsonTurn : ChatM W (AssistantMessage × PyVal × PyVal) := do
  let data ← chat.postJson
  withResponse fun resp => { resp with raw := data }
  let choice ← Effect.lift (firstChoice data)
  let msg := (← Effect.lift (choice.get "message")).or (.dict [])
  let reasoning := (← Effect.lift (msg.get "reasoning_content")).or (.str "")
  noteReasoning reasoning
  chat.yieldReasoning reasoning
  let content ← Effect.lift (msg.get "content")
  let toolCalls ← Effect.lift (msg.get "tool_calls")
  let assistant : AssistantMessage :=
    ⟨content, if toolCalls.truthy then some toolCalls else none⟩
  let content := content.or (.str "")
  chat.passThrough content
  let finish ← Effect.lift (choice.get "finish_reason")
  pure (assistant, finish, content)

def roundTrip (stream : Bool) : ChatM W (AssistantMessage × PyVal × PyVal) :=
  if stream then chat.streamTurn else chat.jsonTurn

/-- `_complete_turn`; the assistant message is `none` when the prompt was refused. -/
def completeTurn (stream : Bool) : ChatM W (Option AssistantMessage × PyVal × PyVal) := do
  let verdict ← chat.guardPrompt
  if verdict.halts then
    chat.halt verdict
    pure (none, .str (haltReason verdict), .str "")
  else
    note (.proceeded .assembledPrompt (.list (← get).messages))
    let (assistant, finish, answer) ← chat.roundTrip stream
    pure (some assistant, finish, answer)

/-! ## Tools -/

/-- `tool.invoke(**args)` and the text of its result, or the `Exception` that came
instead. -/
def invoke (tool : Tool W) (name : String) (args : PyVal) : ChatM W (Except Exn String) :=
  match args with
  | .dict kwargs =>
      -- `invoke(self, **kwargs)` has no room for a second `self`
      if kwargs.any fun entry => entry.1 = "self" then
        pure (.error (typeError "Tool.invoke() got multiple values for argument 'self'"))
      else do
        let outcome ← tryCatch
          (do
            let out ← outside (tool.fn kwargs)
            match out with
            | .str s => pure (.ok s)
            | other => do
                let text ← outside (chat.outer.dumps other)
                pure (.ok text))
          fun exn => if exn.isException then pure (.error exn) else throw exn
        note (.ran name kwargs outcome)
        pure outcome
  | other => pure (.error (typeError
      ("argument after ** must be a mapping, not " ++ other.typeName)))

/-- `f"Error: {type(exc).__name__}: {exc}"`. -/
def errorText (exn : Exn) : String := "Error: " ++ exn.typeName ++ ": " ++ exn.text

/-- The verdict of a halted call, unless it only skips. -/
def unlessSkip (verdict : Verdict) : Option Verdict :=
  if verdict.skips then none else some verdict

/-- `_invoke_guarded`. -/
def invokeGuarded (tool : Tool W) (name : String) (args : PyVal) :
    ChatM W (PyVal × String × Option Verdict) := do
  let (gArgs, verdict, flags) ← chat.guard .toolCall args (some name)
  recordFlags .toolCall flags
  if verdict.halts then
    pure (args, verdict.reasonOr
      ("Tool " ++ Python.reprStr name ++ " was blocked by a guardrail."), unlessSkip verdict)
  else
    let args := (gArgs.dict?.map .dict).getD args
    note (.proceeded .toolCall args)
    match ← chat.invoke tool name args with
    | .error exn => pure (args, errorText exn, none)
    | .ok result => do
        let (gResult, verdict, flags) ← chat.guard .toolResult (.str result) (some name)
        recordFlags .toolResult flags
        if verdict.halts then
          pure (args, verdict.reasonOr ("The result of tool " ++ Python.reprStr name ++
            " was withheld by a guardrail."), unlessSkip verdict)
        else
          let result := gResult.str?.getD result
          note (.proceeded .toolResult (.str result))
          pure (args, result, none)

/-- `self._agent.tools.get(name)`. -/
def toolNamed : PyVal → Except Exn (Option (String × Tool W))
  | .str name => .ok ((chat.agent.tools.get? name).map fun tool => (name, tool))
  | other =>
      if other.hashable then .ok none
      else .error (typeError ("unhashable type: " ++ Python.reprStr other.typeName))

/-- `f"{v!r}"`. -/
def reprValue : PyVal → String
  | .str s => Python.reprStr s
  | other => chat.outer.repr other

/-- `json.loads(raw_args)`. -/
def loadArguments : PyVal → Except Exn PyVal
  | .str s => chat.outer.loads s
  | other => .error (typeError
      ("the JSON object must be str, bytes or bytearray, not " ++ other.typeName))

/-- Appends to `tool_calls_made`. -/
def recordCall (call : ToolCallMade) : ChatM W Unit := do
  withResponse fun resp => { resp with toolCallsMade := resp.toolCallsMade ++ [call] }
  note (.recorded call)

/-- `_execute_tool`. -/
def executeTool (tc : PyVal) : ChatM W (String × Option Verdict) := do
  let fn := (← Effect.lift (tc.get "function")).or (.dict [])
  let name ← Effect.lift (fn.getD "name" (.str ""))
  let rawArgs := (← Effect.lift (fn.get "arguments")).or (.str "{}")
  match ← Effect.lift (chat.toolNamed name) with
  | none => do
      let result := "Error: unknown tool " ++ chat.reprValue name
      recordCall ⟨name, rawArgs, result⟩
      pure (result, none)
  | some (toolName, tool) =>
      match chat.loadArguments rawArgs with
      | .error exn =>
          if exn.kind = .valueError then do
            let result := "Error: could not parse arguments (" ++ exn.text ++ ")"
            recordCall ⟨name, rawArgs, result⟩
            pure (result, none)
          else throw exn
      | .ok args => do
          let (args, result, halted) ← chat.invokeGuarded tool toolName args
          recordCall ⟨name, args, result⟩
          pure (result, halted)

/-- Appends the `tool` message of a call. -/
def feedBack (tc : PyVal) (result : String) : ChatM W Unit := do
  let id ← Effect.lift (tc.get "id")
  appendMessage (.dict [("role", .str "tool"), ("tool_call_id", id), ("content", .str result)])
  note (.fedBack result)

/-- The loop over the tool calls of one completion: the reason to end the turn, or
`none` when all calls are done. -/
def runTools : List PyVal → ChatM W (Option PyVal)
  | [] => pure none
  | tc :: rest => do
      let (result, halted) ← chat.executeTool tc
      feedBack tc result
      match halted.filter fun verdict => verdict.blocks || verdict.stops with
      | some verdict => pure (some (.str (haltReason verdict)))
      | none => do
          let late ← chat.expired
          if late then pure (some (.str "timeout")) else runTools rest

/-! ## The turn -/

/-- `_trim_history`. -/
def trimHistory (history : List Entry) : List Entry :=
  let keep := 2 * chat.maxHistoryTurns
  if keep = 0 then []
  else if keep < history.length then history.drop (history.length - keep)
  else history

/-- `_remember`. -/
def remember (user : Entry) (answer : String) : ChatM W Unit :=
  if chat.maxHistoryTurns = 0 then pure ()
  else modify fun s => { s with
    history := chat.trimHistory (s.history ++ [user, ⟨.assistant, answer, none⟩]) }

/-- The loop of `_run`, with the number of round-trips left: why it ended. -/
def turns (stream : Bool) : Nat → ChatM W PyVal
  | 0 => pure (.str "max_iterations")
  | left + 1 => do
      let late ← chat.expired
      if late then pure (.str "timeout")
      else
        let completion ← tryCatch (some <$> chat.completeTurn stream) fun exn =>
          if exn.kind = .timeoutException then pure none else throw exn
        match completion with
        | none => pure (.str "timeout")
        | some (none, finish, _) => pure (finish.or (.str "blocked"))
        | some (some assistant, finish, answer) => do
            appendMessage assistant.toMessage
            let toolCalls := assistant.toolCallsOr
            note (.completed answer toolCalls.truthy)
            match ← chat.screenOutput answer toolCalls.truthy with
            | some reason => pure (.str reason)
            | none =>
                if !toolCalls.truthy then pure (finish.or (.str "stop"))
                else do
                  let calls ← Effect.lift toolCalls.iter
                  match ← chat.runTools calls with
                  | some reason => pure reason
                  | none => turns stream left

/-- The visible marker of a turn cut short. -/
def markTimeout (reason : PyVal) : ChatM W Unit :=
  if reason.str? = some "timeout" then chat.answer .timeout timeoutText else pure ()

/-- `_run` from the loop on, for the user message `user`. -/
def finishTurn (user : Entry) (stream : Bool) : ChatM W Unit := do
  chat.armDeadline
  let reason ← chat.turns stream chat.agent.maxIterations
  chat.markTimeout reason
  withResponse fun resp => { resp with finishReason := reason }
  chat.remember user (← get).resp.text

/-- `USER_INPUT` refused the text of the request, or rewrote it. -/
def withhold : ChatM W Unit :=
  modify fun s => { s with withheld := s.turn.index :: s.withheld }

/-- `_run` when `USER_INPUT` halts. -/
def refuse (user : Entry) (verdict : Verdict) : ChatM W Unit := do
  withhold
  chat.halt verdict
  withResponse fun resp => { resp with finishReason := .str (haltReason verdict) }
  chat.remember user (← get).resp.text

/-- `_run` when `USER_INPUT` leaves the message as it is. -/
def accept (user : Entry) (stream : Bool) : ChatM W Unit := do
  note (.proceeded .userInput (.str user.content))
  chat.finishTurn user stream

/-- `_run` when `USER_INPUT` gives another content for the message. -/
def rewrite (user : Entry) (contents : PyVal) (stream : Bool) : ChatM W Unit := do
  withhold
  let user := (contents.str?.map fun s => ⟨.user, s, none⟩).getD user
  modify fun s => { s with turn := { s.turn with own := user } }
  note (.proceeded .userInput (.str user.content))
  replaceLast user.toMessage
  chat.finishTurn user stream

/-- `_run`. -/
def run (user : Entry) (stream : Bool) : ChatM W Unit := do
  let (contents, verdict, flags) ← chat.guard .userInput (.str user.content)
  recordFlags .userInput flags
  if verdict.halts then chat.refuse user verdict
  else if contents.str? = some user.content then chat.accept user stream
  else chat.rewrite user contents stream

/-- `_build_messages`. -/
def buildMessages (turn : Turn) : List PyVal :=
  let system := match chat.system with
    | some system => if system = "" then [] else
        [.dict [("role", .str "system"), ("content", .str system)]]
    | none => []
  system ++ turn.carried.map Entry.toMessage ++ [turn.own.toMessage]

/-- A new response and the messages of a new turn, for the text of the request. -/
def begin (text : String) (s : ChatState W) : ChatState W :=
  let turn : Turn := ⟨s.requests, s.history, ⟨.user, text, some s.requests⟩⟩
  { s with
    messages := chat.buildMessages turn
    resp := {}
    requests := s.requests + 1
    turn := turn
    trace := .asked turn :: s.trace }

/-- `request`, with the response iterated to its end or closed before. -/
def request (contents : PyVal) (stream : Bool) : ChatM W Unit :=
  match contents with
  | .str text => do
      modify (chat.begin text)
      chat.run (← get).turn.own stream
  | other => throw (typeError ("contents must be a str, got " ++ other.typeName))

/-! ## A new chat -/

/-- One entry of `_normalize_history`. -/
def normalizeEntry (m : PyVal) : Except Exn Entry :=
  match m with
  | .dict entries =>
      let role := (PyVal.lookup entries "role").getD .none
      let content := (PyVal.lookup entries "content").getD .none
      let known : Option Role := match role with
        | .str s => if s = "user" then some .user else if s = "assistant" then some .assistant
            else none
        | _ => none
      match known with
      | none => .error ⟨.valueError, "ValueError",
          "history role must be 'user' or 'assistant', got " ++ chat.reprValue role ++
          " — system/tool roles are server-owned and not accepted from stored/client history"⟩
      | some known =>
          match content with
          | .str s => .ok ⟨known, s, none⟩
          | other => .error ⟨.valueError, "ValueError",
              "history " ++ known.value ++ " content must be a str, got " ++ other.typeName⟩
  | other => .error ⟨.valueError, "ValueError",
      "history entries must be dicts, got " ++ other.typeName⟩

/-- `_normalize_history`. -/
def normalizeHistory (history : List PyVal) : Except Exn (List Entry) :=
  history.mapM chat.normalizeEntry

/-- `OumiGoChat.__init__`, with the history it is seeded with. -/
def create (history : List PyVal) (world : W) : Except Exn (ChatState W) := do
  let history ← chat.normalizeHistory history
  pure {
    world := world
    history := chat.trimHistory history
    deadline := none
    messages := []
    resp := {}
    requests := 0
    turn := ⟨0, [], ⟨.user, "", none⟩⟩
    withheld := []
    trace := [] }

end OumiGoChat

end Oumigo
