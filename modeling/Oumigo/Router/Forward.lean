import Oumigo.Foundation.Transition
import Oumigo.Registry

/-!
# One proxied request, from its slot to its end

The part of `_forward` in `service/manager/router/server.py` that follows
`pool.acquire`, with `_send_with_retry` and `_relay`.  `outgoing` is the code up to
the first await; each later `ForwardEvent` is the outcome of the await the request
is suspended at, or what the server does with the body iterator of a streaming
response.  `releases` lists the calls of `pool.release`.

The shaping of the payload and the response constructors of the web framework
enter as parameters that may do anything, raise included.
-/

namespace Oumigo

abbrev Bytes := List UInt8

/-- Headers in order, repeated names included. -/
abbrev Headers := List (String × String)

/-- `httpx.HTTPError`, by the classes `_RETRYABLE` names. -/
inductive HttpxError where
  | connectError
  | writeError
  | remoteProtocolError
  | other
  deriving DecidableEq, Repr

/-- The exceptions the `except` clauses of `_forward` tell apart. -/
inductive ForwardExn where
  | httpException (status : Nat) (detail : String)
  | httpx (error : HttpxError) (text : String)
  | cancelled
  | generatorExit
  | other (text : String)
  deriving DecidableEq, Repr

/-- `isinstance(exc, _RETRYABLE)`. -/
def ForwardExn.retryable : ForwardExn → Bool
  | .httpx .connectError _ => true
  | .httpx .writeError _ => true
  | .httpx .remoteProtocolError _ => true
  | _ => false

/-- What `create_router_app` was given, as far as forwarding reads it. -/
structure ForwardConfig where
  vllmPort : Option Nat
  clientAuth : Bool
  /-- `auth_store.vllm_api_key`, when there is an auth store -/
  authStore : Option (NodeId → String)

/-- What the payload becomes for the chosen worker. -/
structure Shaped where
  streaming : Bool
  body : Bytes
  extraHeaders : Headers
  deriving DecidableEq, Repr

/-- The client's request. -/
structure ForwardRequest where
  method : String
  path : String
  headers : Headers

/-- The request for the worker, and how often it may be sent. -/
structure Outgoing where
  transport : Transport
  method : String
  url : String
  content : Option Bytes
  headers : Dict String String
  streaming : Bool
  extraHeaders : Headers
  attempts : Nat

/-- A response of the worker whose body has not been read. -/
structure Upstream where
  statusCode : Nat
  headers : Headers
  deriving DecidableEq, Repr

/-- `StreamingResponse` or `Response`, without its body. -/
structure ForwardResponse where
  statusCode : Nat
  headers : Dict String String
  mediaType : Option String

/-- Everything outside this code that a request can meet before its first await. -/
structure ForwardWorld where
  config : ForwardConfig
  request : ForwardRequest
  /-- the shaping of the payload for the chosen worker -/
  shape : NodeRecord → Except ForwardExn Shaped
  /-- what the response constructor raises, if it does -/
  construct : ForwardResponse → Option ForwardExn

/-! ## Up to the first await -/

/-- `{k: v for k, v in items}`: a repeated name keeps its first place and last value. -/
def headerDict (items : Headers) : Dict String String :=
  items.foldl (fun d item => d.set item.1 item.2) .empty

def dropRequest : List String :=
  ["host", "content-length", "connection", "keep-alive", "transfer-encoding", "upgrade"]

def dropResponse : List String :=
  ["content-length", "content-encoding", "transfer-encoding", "connection", "keep-alive",
    "content-type"]

/-- `_filter_request_headers`. -/
def filterRequestHeaders (headers : Headers) : Dict String String :=
  headerDict (headers.filter fun item => item.1.toLower ∉ dropRequest)

/-- `_filter_response_headers`. -/
def filterResponseHeaders (up : Upstream) : Headers :=
  up.headers.filter fun item => item.1.toLower ∉ dropResponse

/-- `{k: v for k, v in headers.items() if k.lower() != "authorization"}`. -/
def withoutAuthorization (headers : Dict String String) : Dict String String :=
  headers.filterMap fun name value => if name.toLower ≠ "authorization" then some value else none

/-- `tunnel_host`. -/
def tunnelHost (nodeId : NodeId) : String := nodeId ++ ".tunnel"

/-- The request for the worker, or the exception raised while preparing it. -/
def outgoing (world : ForwardWorld) (record : NodeRecord) : Except ForwardExn Outgoing := do
  let port ← match record.port <|> world.config.vllmPort with
    | some port => pure port
    | none => throw (.httpException 503 "no model configured; workers have no vLLM to route to")
  let headers := filterRequestHeaders world.request.headers
  -- the client's API key was checked before; it never leaves the manager
  let headers := if world.config.clientAuth then withoutAuthorization headers else headers
  let (url, headers) ← match record.transport, world.config.authStore with
    | .direct, _ =>
        pure ("http://" ++ record.address ++ ":" ++ toString port ++ world.request.path, headers)
    | .tunnel, some vllmApiKey =>
        pure ("http://" ++ tunnelHost record.nodeId ++ ":" ++ toString port ++ world.request.path,
          -- the backend requires the node's key in place of the client's
          (withoutAuthorization headers).set "Authorization"
            ("Bearer " ++ vllmApiKey record.nodeId))
    | .tunnel, none =>
        throw (.httpException 503 "tunnel workers are not routable (no auth store)")
  let shaped ← world.shape record
  return {
    transport := record.transport
    method := world.request.method
    url := url
    content := if shaped.streaming || shaped.body ≠ [] then some shaped.body else none
    headers := headers
    streaming := shaped.streaming
    extraHeaders := shaped.extraHeaders
    -- a parked tunnel connection may be dead: one retry, before any response
    attempts := if record.transport = .tunnel then 2 else 1 }

/-- The response built from the worker's. -/
def forwardResponse (out : Outgoing) (up : Upstream) : ForwardResponse where
  statusCode := up.statusCode
  headers := headerDict (filterResponseHeaders up ++ out.extraHeaders ++
    if out.streaming then [("X-Accel-Buffering", "no")] else [])
  mediaType := (up.headers.find? fun item => item.1.toLower = "content-type").map Prod.snd

/-! ## The awaits -/

inductive ForwardResult where
  | raised (exn : ForwardExn)
  | responded (response : ForwardResponse) (content : Bytes)
  /-- the body iterator of a streaming response has ended, with an exception or not -/
  | streamed (exn : Option ForwardExn)

/-- Where a request is suspended. -/
inductive ForwardPhase where
  /-- in `client.send`, for the attempt of that number -/
  | sending (out : Outgoing) (attempt : Nat)
  /-- in `upstream.aread()` -/
  | reading (out : Outgoing) (up : Upstream)
  /-- in the `upstream.aclose()` after it -/
  | closing (out : Outgoing) (up : Upstream) (content : Except ForwardExn Bytes)
  /-- the streaming response is returned; `_relay` has not started -/
  | unstarted
  /-- `_relay`, in the next of `upstream.aiter_bytes()` -/
  | receiving
  /-- `_relay`, at its `yield` -/
  | yielded
  /-- `_relay`, in the `upstream.aclose()` of its `finally` -/
  | relayClosing (exn : Option ForwardExn)
  | over (result : ForwardResult)

/-- A request that holds a slot on `record`. -/
structure ForwardState where
  record : NodeRecord
  phase : ForwardPhase
  released : Bool
  releases : List NodeId

inductive ForwardEvent where
  | sent (result : Except ForwardExn Upstream)
  | read (result : Except ForwardExn Bytes)
  | closed (result : Except ForwardExn Unit)
  /-- the server asks the body iterator for its next item -/
  | next
  /-- the next chunk, the end of the body, or an exception -/
  | chunk (result : Except ForwardExn (Option Bytes))
  /-- the server closes the body iterator -/
  | closeBody

namespace ForwardState

/-- `_release`. -/
def release (s : ForwardState) : ForwardState :=
  if s.released then s
  else { s with released := true, releases := s.releases ++ [s.record.nodeId] }

/-- The `except` clauses: release the slot, and raise. -/
def fail (s : ForwardState) (exn : ForwardExn) : ForwardState :=
  let raised := match exn with
    | .httpx _ text => .httpException 502
        ("upstream error talking to worker " ++ s.record.address ++ ": " ++ text)
    | exn => exn
  { s.release with phase := .over (.raised raised) }

/-- `_forward` after `pool.acquire` returned `record`, up to its first await. -/
def start (world : ForwardWorld) (record : NodeRecord) : ForwardState :=
  let s : ForwardState := ⟨record, .over (.streamed none), false, []⟩
  match outgoing world record with
  | .ok out => { s with phase := .sending out 0 }
  | .error exn => s.fail exn

/-- `_send_with_retry` gets a response or an exception for one attempt. -/
def sent (world : ForwardWorld) (s : ForwardState) (out : Outgoing) (attempt : Nat) :
    Except ForwardExn Upstream → ForwardState
  | .error exn =>
      if exn.retryable && attempt + 1 < out.attempts then
        { s with phase := .sending out (attempt + 1) }
      else s.fail exn
  | .ok up =>
      if out.streaming then
        match world.construct (forwardResponse out up) with
        | none => { s with phase := .unstarted }  -- the slot is now `_relay`'s to release
        | some exn => s.fail exn
      else { s with phase := .reading out up }

/-- The body is read and the upstream response closed. -/
def finish (world : ForwardWorld) (s : ForwardState) (out : Outgoing) (up : Upstream) :
    Except ForwardExn Bytes → ForwardState
  | .error exn => s.fail exn
  | .ok content =>
      match world.construct (forwardResponse out up) with
      | none => { s.release with phase := .over (.responded (forwardResponse out up) content) }
      | some exn => s.fail exn

def step (world : ForwardWorld) (s : ForwardState) (e : ForwardEvent) : Option ForwardState :=
  match s.phase, e with
  | .sending out attempt, .sent result => some (s.sent world out attempt result)
  | .reading out up, .read result => some { s with phase := .closing out up result }
  | .closing out up content, .closed (.ok ()) => some (s.finish world out up content)
  | .closing _ _ _, .closed (.error exn) => some (s.fail exn)
  | .unstarted, .next => some { s with phase := .receiving }
  -- closing a generator that was never started runs none of its code
  | .unstarted, .closeBody => some { s with phase := .over (.streamed none) }
  | .receiving, .chunk (.ok (some _)) => some { s with phase := .yielded }
  | .receiving, .chunk (.ok none) => some { s with phase := .relayClosing none }
  | .receiving, .chunk (.error exn) => some { s with phase := .relayClosing (some exn) }
  | .yielded, .next => some { s with phase := .receiving }
  | .yielded, .closeBody => some { s with phase := .relayClosing (some .generatorExit) }
  | .relayClosing exn, .closed (.ok ()) =>
      some { s.release with phase := .over (.streamed exn) }
  -- `on_done` comes after the await that failed
  | .relayClosing _, .closed (.error exn) =>
      some { s with phase := .over (.streamed (some exn)) }
  | _, _ => none

/-- The request is over. -/
def isOver (s : ForwardState) : Prop := ∃ result, s.phase = .over result

end ForwardState

/-- Every course a request can take once it holds a slot. -/
def forwardSystem (world : ForwardWorld) : Transition.System ForwardState ForwardEvent where
  init s := ∃ record, s = .start world record
  step := ForwardState.step world

end Oumigo
