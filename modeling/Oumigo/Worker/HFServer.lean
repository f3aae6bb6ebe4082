import Oumigo.Foundation.Transition
import Oumigo.Metrics.VllmStats
import Oumigo.Protocol

/-!
# The transformer backend

`HFServer._handle` and `HFServer._stream` of `service/worker/hf_server.py`, and the supervisor's
`run_state` that reads the backend's metrics.

A request waits for the engine in a thread, or streams: its generator takes one text piece after
the other, and after each frame it yields it stands still until the consumer goes on.  At any of
these points it may be aborted: the engine raises, the client disconnects, or the task is
cancelled.  The requests of the server interleave in any way.
-/

namespace Oumigo

open Python

/-! ## What goes over the wire -/

/-- What the server is built with; `countTokens` is the engine's, `dumps` is `json.dumps`. -/
structure HFServer where
  servedModelName : String
  countTokens : String → Int
  dumps : PyVal → String

/-- What a finished request adds to the statistics. -/
structure HFServed where
  latency : Rat
  promptTokens : Int
  completionTokens : Int

/-- How far `_stream` is. -/
inductive StreamPc where
  /-- the generator has not begun -/
  | created
  /-- `_next_piece` -/
  | generating
  /-- `thread.join` -/
  | joining
  /-- the last frames -/
  | closing
  deriving DecidableEq

/-- A run of `_stream`. -/
structure HFStream where
  chat : Bool
  model : PyVal
  includeUsage : Bool
  cid : String
  created : Int
  inputLen : Int
  pieces : List String
  pc : StreamPc
  /-- the frames it yields before it goes on -/
  outbox : List String
  /-- the frames the consumer has taken -/
  sent : List String

/-- A request. -/
inductive HFRequest where
  /-- `asyncio.to_thread(self.engine.generate, body, chat)` -/
  | whole (chat : Bool) (model : PyVal)
  | stream (stream : HFStream)
  | answered (served : HFServed) (payload : PyVal)
  | streamed (served : HFServed) (stream : HFStream)
  /-- aborted, with the stream as it stood -/
  | aborted (stream : Option HFStream)

/-- `usage`. -/
def usageValue (promptTokens completionTokens : Int) : PyVal :=
  .dict [("prompt_tokens", .int promptTokens), ("completion_tokens", .int completionTokens),
    ("total_tokens", .int (promptTokens + completionTokens))]

/-- `_chat_payload`. -/
def chatPayload (id text : String) (created : Int) (model : PyVal) (pToks cToks : Int) : PyVal :=
  .dict [("id", .str ("chatcmpl-hf-" ++ id)), ("object", .str "chat.completion"),
    ("created", .int created), ("model", model),
    ("choices", .list [.dict [("index", .int 0),
      ("message", .dict [("role", .str "assistant"), ("content", .str text)]),
      ("finish_reason", .str "stop")]]),
    ("usage", usageValue pToks cToks)]

/-- `_completion_payload`. -/
def completionPayload (id text : String) (created : Int) (model : PyVal) (pToks cToks : Int) :
    PyVal :=
  .dict [("id", .str ("cmpl-hf-" ++ id)), ("object", .str "text_completion"),
    ("created", .int created), ("model", model),
    ("choices", .list [.dict [("index", .int 0), ("text", .str text),
      ("finish_reason", .str "stop")]]),
    ("usage", usageValue pToks cToks)]

/-- `_chat_chunk`. -/
def chatChunk (cid : String) (created : Int) (model : PyVal) (delta : List (String × PyVal))
    (finish : PyVal) : PyVal :=
  .dict [("id", .str cid), ("object", .str "chat.completion.chunk"), ("created", .int created),
    ("model", model), ("choices", .list [.dict [("index", .int 0), ("delta", .dict delta),
      ("finish_reason", finish)]])]

/-- `_text_chunk`. -/
def textChunk (cid : String) (created : Int) (model : PyVal) (text : String) (finish : PyVal) :
    PyVal :=
  .dict [("id", .str cid), ("object", .str "text_completion"), ("created", .int created),
    ("model", model), ("choices", .list [.dict [("index", .int 0), ("text", .str text),
      ("finish_reason", finish)]])]

namespace HFServer

variable (server : HFServer)

/-- `_sse`. -/
def sse (value : PyVal) : String := "data: " ++ server.dumps value ++ "\n\n"

/-- `_handle`, up to its first `await` after the body; it raises when the body is not an object. -/
def handle (body : PyVal) (chat : Bool) : Except Exn HFRequest := do
  let model := (← body.get "model").or (.str server.servedModelName)
  if (← body.get "stream").truthy then
    let options := (← body.get "stream_options").or (.dict [])
    let includeUsage := (← options.get "include_usage").truthy
    pure (.stream ⟨chat, model, includeUsage, "", 0, 0, [], .created, [], []⟩)
  else pure (.whole chat model)

end HFServer

namespace HFStream

variable (server : HFServer) (s : HFStream)

/-- The chunk before the first piece. -/
def roleValues : List PyVal :=
  if s.chat then [chatChunk s.cid s.created s.model [("role", .str "assistant")] .none] else []

/-- The chunk of a piece. -/
def pieceValue (piece : String) : PyVal :=
  if s.chat then chatChunk s.cid s.created s.model [("content", .str piece)] .none
  else textChunk s.cid s.created s.model piece .none

/-- The chunk that says why the text ends. -/
def finishValue : PyVal :=
  if s.chat then chatChunk s.cid s.created s.model [] (.str "stop")
  else textChunk s.cid s.created s.model "" (.str "stop")

/-- `count_tokens("".join(pieces))`. -/
def cToks : Int := server.countTokens (String.join s.pieces)

/-- The usage report, if it was asked for. -/
def usageValues : List PyVal :=
  if s.includeUsage then
    [.dict [("id", .str s.cid),
      ("object", .str (if s.chat then "chat.completion.chunk" else "text_completion")),
      ("created", .int s.created), ("model", s.model), ("choices", .list []),
      ("usage", usageValue s.inputLen (s.cToks server))]]
  else []

/-- The last frame. -/
def doneFrame : String := "data: [DONE]\n\n"

/-- The frames after the last piece. -/
def lastFrames : List String :=
  (s.finishValue :: s.usageValues server).map server.sse ++ [doneFrame]

/-- What the statistics record of it. -/
def served (latency : Rat) : HFServed := ⟨latency, s.inputLen, s.cToks server⟩

end HFStream

/-! ## The server's steps -/

structure HFState where
  stats : VllmStats
  requests : List HFRequest

/-- What happens next; a request is named by its place. -/
inductive HFEvent where
  | request (body : PyVal) (chat : Bool)
  /-- `generate` returns -/
  | generated (i : Nat) (text id : String) (created : Int) (served : HFServed)
  /-- the generator of a stream begins, and the engine starts -/
  | begins (i : Nat) (id : String) (created inputLen : Int)
  /-- the streamer gives a piece -/
  | piece (i : Nat) (text : String)
  /-- the streamer is exhausted -/
  | exhausted (i : Nat)
  /-- the engine's thread has ended -/
  | joined (i : Nat)
  /-- the consumer takes a frame -/
  | taken (i : Nat)
  /-- the consumer goes on after the last frame -/
  | finishes (i : Nat) (latency : Rat)
  /-- an exception, a cancellation or a close where the request stands -/
  | aborts (i : Nat)

namespace HFState

variable (server : HFServer) (s : HFState)

/-- `self.stats.record(...)`. -/
def record (stats : VllmStats) (served : HFServed) : VllmStats :=
  stats.call (.record served.latency served.promptTokens served.completionTokens "stop")

/-- Request `i` becomes `r`. -/
def become (i : Nat) (r : HFRequest) (stats : VllmStats) : HFState :=
  ⟨stats, s.requests.set i r⟩

/-- The stream with place `i`. -/
def streamAt (i : Nat) : Option HFStream :=
  match s.requests[i]? with
  | some (.stream stream) => some stream
  | _ => none

/-- A step of stream `i` from `pc`, when the consumer has taken all frames. -/
def goesOn (i : Nat) (pc : StreamPc) (next : HFStream → HFStream) : Option HFState :=
  (s.streamAt i).bind fun stream =>
    if stream.pc = pc ∧ stream.outbox = [] then
      some (s.become i (.stream (next stream)) s.stats)
    else none

/-- The `finally` of the request. -/
def release : HFRequest → Option (HFRequest × VllmStats)
  | .whole _ _ => some (.aborted none, s.stats.call .decRunning)
  | .stream stream =>
      -- a generator that has not begun has no `finally` to run
      some (.aborted stream,
        if stream.pc = .created then s.stats else s.stats.call .decRunning)
  | _ => none

def step : HFEvent → Option HFState
  | .request body chat =>
      match server.handle body chat with
      | .ok (.whole chat model) =>
          some ⟨s.stats.call .incRunning, s.requests ++ [.whole chat model]⟩
      | .ok r => some ⟨s.stats, s.requests ++ [r]⟩
      | .error _ => some s
  | .generated i text id created served =>
      match s.requests[i]? with
      | some (.whole chat model) =>
          let payload := if chat then chatPayload else completionPayload
          some (s.become i
            (.answered served
              (payload id text created model served.promptTokens served.completionTokens))
            (record (s.stats.call .decRunning) served))
      | _ => none
  | .begins i id created inputLen =>
      (s.streamAt i).bind fun stream =>
        if stream.pc = .created then
          let stream := { stream with
            cid := (if stream.chat then "chatcmpl" else "cmpl") ++ "-hf-" ++ id
            created := created
            inputLen := inputLen
            pc := .generating }
          some (s.become i (.stream { stream with outbox := stream.roleValues.map server.sse })
            (s.stats.call .incRunning))
        else none
  | .piece i text => s.goesOn i .generating fun stream =>
      { stream with
        pieces := stream.pieces ++ [text]
        outbox := [server.sse (stream.pieceValue text)] }
  | .exhausted i => s.goesOn i .generating fun stream => { stream with pc := .joining }
  | .joined i => s.goesOn i .joining fun stream =>
      { stream with pc := .closing, outbox := stream.lastFrames server }
  | .taken i =>
      (s.streamAt i).bind fun stream =>
        match stream.outbox with
        | [] => none
        | frame :: rest => some (s.become i
            (.stream { stream with outbox := rest, sent := stream.sent ++ [frame] }) s.stats)
  | .finishes i latency =>
      (s.streamAt i).bind fun stream =>
        if stream.pc = .closing ∧ stream.outbox = [] then
          let served := stream.served server latency
          some (s.become i (.streamed served stream) ((record s.stats served).call .decRunning))
        else none
  | .aborts i =>
      (s.requests[i]?).bind fun r => (s.release r).map fun after => s.become i after.1 after.2

end HFState

/-- Every interleaving of the server's requests. -/
def hfSystem (server : HFServer) : Transition.System HFState HFEvent where
  init s := s = ⟨{}, []⟩
  step := HFState.step server

/-! ## The supervisor's view -/

/-- `line.rsplit(" ", 1)[1]`, if there is a space. -/
def afterLastSpace (line : String) : Option String :=
  if ' ' ∈ line.toList then
    some (String.ofList (line.toList.reverse.takeWhile (· ≠ ' ')).reverse)
  else none

/-- What `_sum_gauges` adds for a line. -/
def gaugeOf (wanted : List String) (line : String) : Option PyFloat :=
  if startsWith "#" line || strip line = "" then none
  else if wanted.any (startsWith · line) then (afterLastSpace line).bind floatOf
  else none

/-- `_sum_gauges`. -/
def sumGauges (prometheusText : String) (metricNames : List String) : PyFloat :=
  ((splitlines prometheusText).filterMap (gaugeOf metricNames)).foldl PyFloat.add (.num 0)

/-- The gauges that `run_state` reads. -/
def runGauges : List String := ["vllm:num_requests_running", "vllm:num_requests_waiting"]

/-- `run_state`, given the status and the text of `/metrics`, if it answers. -/
def observedRunState : Option (Nat × String) → RunState
  | some (status, text) =>
      if status ≠ 200 then .idle
      else if (PyFloat.num 0).lt (sumGauges text runGauges) then .executing
      else .idle
  | none => .idle

end Oumigo
