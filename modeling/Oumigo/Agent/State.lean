import Oumigo.Foundation.Dict
import Oumigo.Guard.Chain

/-!
# A chat: its agent, its surroundings and its state

The data of `api/agent/agent.py`, `api/agent/tool.py`, `api/agent/response.py` and
`OumiGoChat.__init__`.  `Surroundings` is everything a chat calls that is not part
of it: the HTTP client, the clock, `json`, `repr`, and the consumer that iterates a
response.

Beside what the code stores, the state keeps a `trace`, newest event first, and
says for each entry of the history whether its content is a text as submitted.
-/

namespace Oumigo

open Python

variable {W : Type}

/-! ## The agent -/

/-- A callback with its schema.  It gets its arguments by keyword. -/
structure Tool (W : Type) where
  fn : List (String × PyVal) → EStateM Exn W PyVal
  name : String
  description : String
  parameters : PyVal

/-- `Tool.to_openai`. -/
def Tool.toOpenai (tool : Tool W) : PyVal :=
  .dict [("type", .str "function"), ("function", .dict [("name", .str tool.name),
    ("description", .str tool.description), ("parameters", tool.parameters)])]

structure OumiGoAgent (W : Type) where
  model : String
  tools : Dict String (Tool W)
  maxIterations : Nat
  maxIterations_pos : 0 < maxIterations
  sampling : List (String × PyVal)
  profile : Option (GuardProfile W)

/-! ## Surroundings -/

/-- `httpx.Timeout(read, connect=...)`. -/
structure Timeout where
  read : Option Rat
  connect : Rat

structure HttpRequest where
  url : String
  json : PyVal
  headers : List (String × String)
  timeout : Timeout

structure HttpReply where
  statusCode : Nat
  text : String
  json : Except Exn PyVal

/-- A streamed reply: its lines, each the effect of reading it. -/
structure StreamReply (W : Type) where
  statusCode : Nat
  read : EStateM Exn W String
  lines : List (EStateM Exn W String)

/-- The tag of a yielded piece. -/
inductive PieceKind where
  | answer
  | reasoning
  deriving DecidableEq, Repr

structure Surroundings (W : Type) where
  /-- `httpx.post` -/
  post : HttpRequest → EStateM Exn W HttpReply
  /-- `httpx.stream("POST", ...)` -/
  stream : HttpRequest → EStateM Exn W (StreamReply W)
  /-- `time.monotonic` -/
  monotonic : EStateM Exn W Rat
  /-- `json.loads` -/
  loads : String → Except Exn PyVal
  /-- `json.dumps(value, default=str)` -/
  dumps : PyVal → EStateM Exn W String
  /-- `repr` of a value that is not a string -/
  repr : PyVal → String
  /-- what happens at a `yield`: the consumer goes on, or closes the generator -/
  resume : PieceKind → PyVal → EStateM Exn W Unit

/-! ## The chat -/

structure OumiGoChat (W : Type) where
  agent : OumiGoAgent W
  system : Option String
  maxHistoryTurns : Nat
  url : String
  headers : List (String × String)
  turnTimeout : Option Rat
  stallTimeout : Option Rat
  outer : Surroundings W

namespace OumiGoChat

/-- `_guarding`. -/
def guarding (chat : OumiGoChat W) : Bool :=
  match chat.agent.profile with
  | some profile => !profile.isEmpty
  | none => false

/-- `_buffer_output`. -/
def bufferOutput (chat : OumiGoChat W) : Bool :=
  chat.guarding && match chat.agent.profile with
    | some profile => profile.activePoints.any fun point => outputPoints.contains point
    | none => false

end OumiGoChat

inductive Role where
  | user
  | assistant
  deriving DecidableEq, Repr

def Role.value : Role → String
  | user => "user"
  | assistant => "assistant"

/-- An entry of the history.  `origin` is `some k` when the content is the text of
request `k` as it was submitted. -/
structure Entry where
  role : Role
  content : String
  origin : Option Nat
  deriving DecidableEq, Repr

def Entry.toMessage (entry : Entry) : PyVal :=
  .dict [("role", .str entry.role.value), ("content", .str entry.content)]

/-- What request `index` starts from: the history it carries, and its own message. -/
structure Turn where
  index : Nat
  carried : List Entry
  own : Entry
  deriving DecidableEq, Repr

structure ToolCallMade where
  name : PyVal
  arguments : PyVal
  result : String

structure GuardEvent where
  point : String
  decision : String
  reason : Option String

structure OumiGoResponse where
  text : String := ""
  reasoning : String := ""
  finishReason : PyVal := .none
  toolCallsMade : List ToolCallMade := []
  guardEvents : List GuardEvent := []
  raw : PyVal := .none

/-- Where a piece of the answer text comes from. -/
inductive PieceSource where
  /-- the prose of a completion -/
  | prose
  /-- the reason of a halting verdict -/
  | verdict
  /-- `_TIMEOUT_TEXT` -/
  | timeout
  deriving DecidableEq, Repr

/-- What happens in a request, as far as screening is concerned. -/
inductive Event where
  /-- a request began -/
  | asked (turn : Turn)
  /-- the chain was evaluated on `content` -/
  | screened (point : InterceptPoint) (content : PyVal) (outcome : ChainOutcome)
  /-- nothing was refused at this point, and the code goes on with `content` -/
  | proceeded (point : InterceptPoint) (content : PyVal)
  /-- a request body with these messages was handed to the HTTP client -/
  | sent (turn : Turn) (messages : List PyVal)
  /-- a completion arrived, with its prose and whether it calls tools -/
  | completed (answer : PyVal) (hasToolCalls : Bool)
  /-- a tool body ran and gave this text, or this exception -/
  | ran (name : String) (kwargs : List (String × PyVal)) (outcome : Except Exn String)
  /-- an entry of `tool_calls_made` -/
  | recorded (call : ToolCallMade)
  /-- a `tool` message for the model -/
  | fedBack (result : String)
  /-- text for the caller: appended to `resp.text` and yielded -/
  | released (source : PieceSource) (text : String)

structure ChatState (W : Type) where
  world : W
  history : List Entry
  deadline : Option Rat
  messages : List PyVal
  resp : OumiGoResponse
  /-- how many requests were made -/
  requests : Nat
  turn : Turn
  /-- the requests whose text `USER_INPUT` refused or rewrote -/
  withheld : List Nat
  trace : List Event

abbrev ChatM (W : Type) := EStateM Exn (ChatState W)

section

variable {α : Type}

/-- Run something outside the chat. -/
def outside (action : EStateM Exn W α) : ChatM W α :=
  Effect.zoom ChatState.world (fun world s => { s with world := world }) action

def note (event : Event) : ChatM W Unit :=
  modify fun s => { s with trace := event :: s.trace }

def withResponse (change : OumiGoResponse → OumiGoResponse) : ChatM W Unit :=
  modify fun s => { s with resp := change s.resp }

def appendMessage (message : PyVal) : ChatM W Unit :=
  modify fun s => { s with messages := s.messages ++ [message] }

/-- `messages[-1] = message`. -/
def replaceLast (message : PyVal) : ChatM W Unit :=
  modify fun s => { s with messages := s.messages.dropLast ++ [message] }

end

end Oumigo
