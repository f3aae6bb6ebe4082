import Oumigo.Agent.State

/-!
# The data plane as a chat sees it

`_payload`, the turn's clock, `_post_json`, `_post_stream` with the shape of one SSE
line, and `_accumulate_tool_call` of `api/agent/chat.py`.
-/

namespace Oumigo

open Python

variable {W : Type}

/-! ## The request body -/

/-- `d.update(entries)`. -/
def updateEntries (d entries : List (String × PyVal)) : List (String × PyVal) :=
  entries.foldl (fun d entry => Dict.setEntries d entry.1 entry.2) d

def runtimeError (text : String) : Exn := ⟨.exception, "RuntimeError", text⟩

/-- `_raise_for_status`. -/
def raiseForStatus (status : Nat) (text : String) : Except Exn Unit :=
  if status = 200 then .ok ()
  else if status = 503 then
    .error (runtimeError ("no SERVING workers available (data plane 503): " ++ text))
  else .error (runtimeError ("data plane returned HTTP " ++ toString status ++ ": " ++ text))

namespace OumiGoChat

/-- `_payload`. -/
def payload (chat : OumiGoChat W) (messages : List PyVal) (stream : Bool) : PyVal :=
  let body := [("model", .str chat.agent.model), ("messages", .list messages),
    ("stream", .bool stream)]
  let body := if chat.agent.tools.entries.isEmpty then body
    else body ++ [("tools", .list (chat.agent.tools.values.map Tool.toOpenai))]
  .dict (updateEntries body chat.agent.sampling)

/-! ## The clock -/

/-- `_remaining`. -/
def remaining (chat : OumiGoChat W) : ChatM W (Option Rat) := do
  match (← get).deadline with
  | none => pure none
  | some deadline => do
      let now ← outside chat.outer.monotonic
      pure (some (deadline - now))

/-- `_expired`. -/
def expired (chat : OumiGoChat W) : ChatM W Bool := do
  match ← chat.remaining with
  | none => pure false
  | some left => pure (decide (left ≤ 0))

/-- `_CONNECT_TIMEOUT_S`. -/
def connectTimeout : Rat := 10

/-- `_timeout`. -/
def timeout (chat : OumiGoChat W) : ChatM W Timeout := do
  match ← chat.remaining with
  | none => pure ⟨chat.stallTimeout, connectTimeout⟩
  | some left =>
      match chat.stallTimeout with
      | none => pure ⟨some left, connectTimeout⟩
      | some stall => pure ⟨some (min stall left), connectTimeout⟩

/-- Sets the deadline of the turn. -/
def armDeadline (chat : OumiGoChat W) : ChatM W Unit := do
  match chat.turnTimeout with
  | none => modify fun s => { s with deadline := none }
  | some budget =>
      if budget = 0 then modify fun s => { s with deadline := none }
      else do
        let now ← outside chat.outer.monotonic
        modify fun s => { s with deadline := some (now + budget) }

/-! ## Round-trips -/

/-- The request to the data plane; from here on its messages are sent. -/
def httpRequest (chat : OumiGoChat W) (stream : Bool) : ChatM W HttpRequest := do
  let messages := (← get).messages
  let timeout ← chat.timeout
  note (.sent (← get).turn messages)
  pure ⟨chat.url, chat.payload messages stream, chat.headers, timeout⟩

/-- `_post_json`. -/
def postJson (chat : OumiGoChat W) : ChatM W PyVal := do
  let request ← chat.httpRequest false
  let reply ← outside (chat.outer.post request)
  Effect.lift (raiseForStatus reply.statusCode reply.text)
  Effect.lift reply.json

/-- `_post_stream`, up to the status of the reply. -/
def postStream (chat : OumiGoChat W) : ChatM W (List (EStateM Exn W String)) := do
  let request ← chat.httpRequest true
  let reply ← outside (chat.outer.stream request)
  if reply.statusCode = 200 then pure reply.lines
  else do
    let body ← outside reply.read
    Effect.lift (raiseForStatus reply.statusCode body)
    pure reply.lines

end OumiGoChat

/-- What `_post_stream` does with a line. -/
inductive LineKind where
  | skipped
  | done
  | event (value : PyVal)

/-- One line of a streamed reply. -/
def parseLine (loads : String → Except Exn PyVal) (line : String) : Except Exn LineKind :=
  if !"data:".toList.isPrefixOf line.toList then .ok .skipped
  else
    let data := strip (String.ofList (line.toList.drop 5))
    if data = "[DONE]" then .ok .done
    else match loads data with
      | .ok value => .ok (.event value)
      | .error exn => if exn.kind = .valueError then .ok .skipped else .error exn

/-! ## Streamed tool calls -/

/-- A value as a dictionary key; numbers that are equal are one key. -/
inductive IndexKey where
  | number (x : Rat)
  | text (s : String)
  | other (v : String) (id : Nat)
  deriving DecidableEq

/-- The key of an index, unless it cannot be hashed. -/
def indexKey : PyVal → Except Exn IndexKey
  | .bool b => .ok (.number (if b then 1 else 0))
  | .int i => .ok (.number i)
  | .float x => .ok (.number x)
  | .str s => .ok (.text s)
  | .none => .ok (.other "NoneType" 0)
  | .object typeName id => .ok (.other typeName (id + 1))
  | unhashable => .error (typeError ("unhashable type: " ++ Python.reprStr unhashable.typeName))

/-- One entry of the accumulator of `_stream_turn`. -/
structure ToolCallSlot where
  id : PyVal
  name : String
  arguments : String

def ToolCallSlot.toMessage (slot : ToolCallSlot) : PyVal :=
  .dict [("id", slot.id), ("type", .str "function"), ("function",
    .dict [("name", .str slot.name), ("arguments", .str slot.arguments)])]

/-- `slot["function"][field] += value`, when `value` is truthy. -/
def extend (text : String) (value : PyVal) : Except Exn String := do
  if value.truthy then
    let more ← value.asStr
    pure (text ++ more)
  else pure text

/-- `_accumulate_tool_call`. -/
def accumulateToolCall (acc : Dict IndexKey ToolCallSlot) (delta : PyVal) :
    Except Exn (Dict IndexKey ToolCallSlot) := do
  let key ← indexKey (← delta.getD "index" (.int 0))
  let slot := (acc.get? key).getD ⟨.none, "", ""⟩
  let id ← delta.get "id"
  let fn := (← delta.get "function").or (.dict [])
  let name ← extend slot.name (← fn.get "name")
  let arguments ← extend slot.arguments (← fn.get "arguments")
  pure (acc.set key ⟨if id.truthy then id else slot.id, name, arguments⟩)

/-- `sorted` of the accumulator's keys: numbers, or strings, or one key. -/
def sortedKeys (keys : List IndexKey) : Except Exn (List IndexKey) :=
  if keys.length ≤ 1 then .ok keys
  else if keys.all fun key => match key with | .number _ => true | _ => false then
    .ok (keys.mergeSort fun a b => match a, b with
      | .number x, .number y => decide (x ≤ y)
      | _, _ => true)
  else if keys.all fun key => match key with | .text _ => true | _ => false then
    .ok (keys.mergeSort fun a b => match a, b with
      | .text s, .text t => decide (s ≤ t)
      | _, _ => true)
  else .error (typeError "'<' not supported between instances of different types")

/-- `[tool_calls[i] for i in sorted(tool_calls)]`. -/
def assembledToolCalls (acc : Dict IndexKey ToolCallSlot) : Except Exn (List PyVal) := do
  let keys ← sortedKeys acc.keys
  pure ((keys.filterMap acc.get?).map ToolCallSlot.toMessage)

end Oumigo
