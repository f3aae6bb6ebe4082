import Oumigo.Foundation.Dict
import Oumigo.Protocol
import Mathlib.Algebra.Order.Ring.Rat

/-!
# Profiles, specs and the fleet catalog

`config/spec.py` and `config/catalog.py`, with the fields the manager and the
router read.  Bounds that the pydantic models check are fields of the structures
here, so a profile that fails its own validation cannot be built, and a
`FleetCatalog` carries what its constructor refuses to violate.
-/

namespace Oumigo

/-- `NodeSpec`: one replica, as the manager hands it to a worker. -/
structure NodeSpec where
  model : String
  profile : Option String := none
  port : Nat := 7001
  maxConcurrentRequests : Nat := 4
  maxModelLen : Option Nat := none
  maxAudioSeconds : Option Rat := none
  maxOutputTokens : Option Nat := none
  one_le_maxConcurrentRequests : 1 ≤ maxConcurrentRequests := by decide

/-- `NodeSpec.served_name`. -/
def NodeSpec.servedName (spec : NodeSpec) : Option String :=
  pyOr spec.profile (some spec.model)

/-- `EngineSettings`: what is fixed when the backend starts. -/
structure EngineSettings where
  maxModelLen : Option Nat := none
  maxConcurrentRequests : Nat := 1
  one_le_maxConcurrentRequests : 1 ≤ maxConcurrentRequests := by decide

/-- `Caps`: limits the router enforces for the model. -/
structure Caps where
  maxOutputTokens : Option Nat := none
  maxAudioSeconds : Option Rat := none
  maxQueueSeconds : Option Rat := none

/-- `Profile`: one model as the fleet serves it. -/
structure Profile where
  id : String
  model : String
  engine : EngineSettings := {}
  caps : Caps := {}

/-- `Profile.node_spec`: the spec of a worker that runs this profile. -/
def Profile.nodeSpec (p : Profile) (port : Nat) : NodeSpec where
  model := p.model
  profile := some p.id
  port := port
  maxConcurrentRequests := p.engine.maxConcurrentRequests
  maxModelLen := p.engine.maxModelLen
  maxAudioSeconds := p.caps.maxAudioSeconds
  maxOutputTokens := p.caps.maxOutputTokens
  one_le_maxConcurrentRequests := p.engine.one_le_maxConcurrentRequests

/-- `FleetCatalog`: the allowed profiles and the default.  The constructor raises
when the default is not allowed; every caller keys a profile by its id. -/
structure FleetCatalog where
  profiles : Dict String Profile
  default : Option String
  default_mem : ∀ id, default = some id → ∃ p, profiles.get? id = some p
  keyed : ∀ id p, profiles.get? id = some p → p.id = id

namespace FleetCatalog

/-- `FleetCatalog.get`. -/
def get (catalog : FleetCatalog) (profileId : String) : Option Profile :=
  catalog.profiles.get? profileId

/-- `FleetCatalog.default_profile`. -/
def defaultProfile (catalog : FleetCatalog) : Option Profile :=
  if truthy catalog.default then catalog.default.bind catalog.profiles.get? else none

/-- `bool(catalog.profiles)`: the fleet only runs what the catalog allows. -/
def closed (catalog : FleetCatalog) : Bool := !catalog.profiles.entries.isEmpty

theorem get_id {catalog : FleetCatalog} {id : String} {p : Profile}
    (found : catalog.get id = some p) : p.id = id :=
  catalog.keyed id p found

end FleetCatalog

/-- `build_node_spec`: the default profile's spec, or nothing without a default. -/
def buildNodeSpec (catalog : FleetCatalog) (vllmPort : Nat) : Option NodeSpec :=
  catalog.defaultProfile.map fun p => p.nodeSpec vllmPort

end Oumigo
