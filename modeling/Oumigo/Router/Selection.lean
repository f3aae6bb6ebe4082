import Oumigo.Router.Body
import Oumigo.Router.Pool

/-!
# Which workers a request accepts, and what it is told when there are none

The part of `_forward` in `service/manager/router/server.py` before it holds a slot, with
`_known`, `_queue_seconds` and `_not_ready`.  How a float is printed is a parameter: it is
part of the message to a request whose `model` is a float.
-/

namespace Oumigo

open Python

/-- `ANY_MODEL`. -/
def anyModel : String := "any-model"

/-- `RETRY_AFTER_S`. -/
def retryAfterS : Nat := 30

/-- The response `_model_error` builds. -/
structure ModelError where
  status : Nat
  code : String
  message : String
  retryAfter : Option Nat := none
  deriving DecidableEq, Repr

/-- The `type` of the response's error. -/
def ModelError.kind (error : ModelError) : String :=
  if error.status < 500 then "invalid_request_error" else "server_error"

/-- The `requested` of `_forward`. -/
def RequestBody.requested (body : RequestBody) : Option Json :=
  match body.parsed with
  | some (.obj payload) => Fields.get? payload "model"
  | _ => none

/-- What `_forward` makes of `requested`. -/
inductive Selection where
  /-- any worker will do -/
  | any
  | named (modelId : String)
  | notFound (error : ModelError)
  /-- a list or a dict is not hashable -/
  | typeError

/-- `repr` of a value that is neither a list nor a dict. -/
def reprScalar (reprFloat : PyFloat → String) : Json → String
  | .bool true => "True"
  | .bool false => "False"
  | .int n => toString n
  | .float x => reprFloat x
  | .str s => Python.reprStr s
  | _ => "None"

namespace RouterConfig

variable (cfg : RouterConfig)

/-- `_known`. -/
def known (registry : Registry) : List String :=
  let ids := match cfg.catalog with
    | some catalog => catalog.profiles.keys
    | none => []
  let served := (registry.list.filterMap cfg.served).filter (· ≠ "")
  let default := (cfg.nodeSpec.bind NodeSpec.servedName).toList.filter (· ≠ "")
  (ids ++ served ++ default).dedup

/-- The 404 response. -/
def modelNotFound (registry : Registry) (requested : String) : ModelError :=
  let available := (cfg.known registry).mergeSort fun a b => decide (a ≤ b)
  ⟨404, "model_not_found", "Model " ++ requested ++ " is not available. Available models: " ++
    String.intercalate ", " (available ++ [anyModel]) ++ ".", none⟩

/-- The selection of `_forward`. -/
def select (reprFloat : PyFloat → String) (registry : Registry) (body : RequestBody) :
    Selection :=
  match body.requested with
  | none => .any
  | some .null => .any
  | some (.str id) =>
      if id = "" ∨ id = anyModel then .any
      else if id ∈ cfg.known registry then .named id
      else .notFound (cfg.modelNotFound registry (Python.reprStr id))
  | some (.arr _) => .typeError
  | some (.obj _) => .typeError
  | some scalar => .notFound (cfg.modelNotFound registry (reprScalar reprFloat scalar))

/-- The `eligible` of a request for the model. -/
def eligible : Option String → Eligible
  | some modelId => some fun record => cfg.served record = some modelId
  | none => none

/-- `_queue_seconds` of a model id. -/
def modelQueueSeconds (modelId : String) : Rat :=
  (((cfg.profile (some modelId)).bind fun profile => profile.caps.maxQueueSeconds).filter
    (· ≠ 0)).getD cfg.queueTimeout

/-- `_queue_seconds`. -/
def queueSeconds (pool : WorkerPool) : Option String → Rat
  | some modelId => cfg.modelQueueSeconds modelId
  | none =>
      (((pool.serving none).filterMap cfg.served).map cfg.modelQueueSeconds).max?.getD
        cfg.queueTimeout

/-- The timeout `acquire` waits with: `timeout or self.queue_timeout`. -/
def waitSeconds (timeout : Rat) : Rat := if timeout = 0 then cfg.queueTimeout else timeout

/-- Whether a worker is on its way: `_STARTING`, or SERVING and not routable. -/
def starting (pool : WorkerPool) (record : NodeRecord) : Bool :=
  record.state = .registering || record.state = .initializing ||
    (record.state = .serving && !pool.routable record)

/-- `_not_ready`. -/
def notReady (pool : WorkerPool) (modelId : Option String) : ModelError :=
  let records := pool.registry.list.filter fun record => (cfg.eligible modelId).accepts record
  if records.any fun record => starting pool record then
    let message := match modelId with
      | some id => id ++ " is starting, retry shortly."
      | none => "A model is starting, retry shortly."
    ⟨503, "model_loading", message, some retryAfterS⟩
  else
    let message := match modelId with
      | some id => id ++ " is not available right now."
      | none => "No model is available right now."
    ⟨503, "model_unavailable", message, none⟩

/-- The response to a request that queued too long. -/
def busy (modelId : Option String) : ModelError :=
  let message := match modelId with
    | some id => id ++ " is busy, retry shortly."
    | none => "All models are busy, retry shortly."
  ⟨503, "model_busy", message, some retryAfterS⟩

end RouterConfig

end Oumigo
