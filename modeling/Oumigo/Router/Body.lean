import Oumigo.Config
import Oumigo.Router.Forward
import Oumigo.Router.Shaping

/-!
# The body a worker gets

The part of `_forward` in `service/manager/router/server.py` between choosing a worker and
sending the request: the payload names the chosen worker's model and is held to that model's
caps, and is written out again if that changed it.

A body comes with what `json.loads` makes of it.  The bytes `json.dumps` writes are a
parameter; `json.loads` reads back the payload they were written from.
-/

namespace Oumigo

open Python Shaping

/-- What `create_router_app` was given, as far as models go. -/
structure RouterConfig where
  catalog : Option FleetCatalog
  nodeSpec : Option NodeSpec
  queueTimeout : Rat := 300

/-- A request body. -/
structure RequestBody where
  bytes : Bytes
  /-- `json.loads`, or nothing where it raises `ValueError` -/
  parsed : Option Json
  empty : bytes = [] → parsed = none

/-- `CHAT_PATH`. -/
def chatPath : String := "/v1/chat/completions"

namespace RouterConfig

variable (cfg : RouterConfig)

/-- `_served`: the model id a worker answers to. -/
def served (record : NodeRecord) : Option String :=
  pyOr record.servedName (cfg.nodeSpec.bind NodeSpec.servedName)

/-- `_profile`. -/
def profile (modelId : Option String) : Option Profile :=
  if truthy modelId then modelId.bind fun id => cfg.catalog.bind fun catalog => catalog.get id
  else none

/-- `_caps`: the audio and the output cap for the worker's model. -/
def caps (record : NodeRecord) : Option Rat × Option Nat :=
  match cfg.profile record.profile with
  | some profile => (profile.caps.maxAudioSeconds, profile.caps.maxOutputTokens)
  | none =>
      match cfg.nodeSpec with
      | some spec => (spec.maxAudioSeconds, spec.maxOutputTokens)
      | none => (none, none)

/-- The payload with the chosen worker's model, and whether that changed it. -/
def nameModel (record : NodeRecord) (payload : Fields) : Fields × Bool :=
  match cfg.served record with
  | some served =>
      if ((Fields.get? payload "model").map (Json.eqStr served)).getD false then (payload, false)
      else (Fields.set payload "model" (.str served), true)
  | none => (payload, false)

/-- The payload under the model's caps, whether they changed it, and the headers that say
so. -/
def applyCaps (record : NodeRecord) (path : String) (payload : Fields) :
    Fields × Bool × Headers :=
  if path = chatPath then
    let (shaping, payload) := capAudio payload (cfg.caps record).1
    let (payload, clamped) := clampOutputTokens payload (cfg.caps record).2
    (payload, shaping.trimmed || clamped, shapingHeaders shaping)
  else (payload, false, [])

/-- The payload a worker gets. -/
def shapePayload (record : NodeRecord) (path : String) (payload : Fields) :
    Fields × Bool × Headers :=
  let (payload, named) := cfg.nameModel record payload
  let (payload, capped, extraHeaders) := cfg.applyCaps record path payload
  (payload, named || capped, extraHeaders)

/-- What becomes of the body: the one that is sent, with what `json.loads` makes of it. -/
def shapeBody (dumps : Json → Bytes) (record : NodeRecord) (path : String)
    (body : RequestBody) : Bytes × Option Json :=
  match body.parsed with
  | some (.obj payload) =>
      let (payload, mutated, _) := cfg.shapePayload record path payload
      if mutated then (dumps (.obj payload), some (.obj payload)) else (body.bytes, body.parsed)
  | _ => (body.bytes, body.parsed)

/-- The shaping of `_forward`. -/
def shape (dumps : Json → Bytes) (path : String) (body : RequestBody) (record : NodeRecord) :
    Shaped :=
  match body.parsed with
  | some (.obj payload) =>
      { streaming := ((Fields.get? payload "stream").map Json.truthy).getD false
        body := (cfg.shapeBody dumps record path body).1
        extraHeaders := (cfg.shapePayload record path payload).2.2 }
  | _ => ⟨false, body.bytes, []⟩

end RouterConfig

end Oumigo
