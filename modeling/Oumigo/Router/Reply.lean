import Oumigo.Foundation.Nesting
import Oumigo.Router.Selection
import Oumigo.Router.Trimming

/-!
# What a request gets for its body

`_forward` in `service/manager/router/server.py` from the bytes of a body to the request for
the worker, with the exceptions that the body can make it raise.  A body is `Answerable` when
`json.loads` does not give up on its nesting and its `model` can be hashed; `reply_answered_iff`
shows that exactly those bodies are forwarded or answered with an error of the router's own.
-/

namespace Oumigo

open Python Shaping

/-! ## Reading and writing JSON -/

/-- What `json.loads` does with bytes. -/
inductive Loaded where
  | value (value : Json)
  /-- `ValueError` -/
  | invalid
  /-- `RecursionError` -/
  | tooDeep

/-- `json.loads` and `json.dumps`, which have no limit on nesting but the interpreter's. -/
structure JsonCodec where
  loads : Bytes → Loaded
  /-- nothing where it raises `RecursionError` -/
  dumps : Json → Option Bytes
  /-- how deep the interpreter recurses -/
  limit : Nat
  loads_depth : ∀ bytes value, loads bytes = .value value → value.depth ≤ limit
  dumps_isSome : ∀ value, value.depth ≤ limit → (dumps value).isSome = true

namespace JsonCodec

variable (codec : JsonCodec)

/-- The body of a request, as `_forward` reads it. -/
def read (bytes : Bytes) : Except ForwardExn RequestBody :=
  if none_ : bytes = [] then .ok ⟨bytes, none, fun _ => rfl⟩
  else
    match codec.loads bytes with
    | .value value => .ok ⟨bytes, some value, fun empty => absurd empty none_⟩
    | .invalid => .ok ⟨bytes, none, fun _ => rfl⟩
    | .tooDeep => .error (.other "RecursionError")

/-- The bytes `json.dumps` writes, where it returns. -/
def written (value : Json) : Bytes := (codec.dumps value).getD []

end JsonCodec

namespace RouterConfig

/-- The shaping of `_forward`, with the exception that `json.dumps` raises. -/
def tryShape (cfg : RouterConfig) (codec : JsonCodec) (path : String) (body : RequestBody)
    (record : NodeRecord) : Except ForwardExn Shaped :=
  match body.parsed with
  | some (.obj payload) =>
      let (payload', mutated, _) := cfg.shapePayload record path payload
      if mutated && (codec.dumps (.obj payload')).isNone then .error (.other "RecursionError")
      else .ok (cfg.shape codec.written path body record)
  | _ => .ok (cfg.shape codec.written path body record)

end RouterConfig

/-! ## The reply -/

/-- How `pool.acquire` ends, for a client that waits for it. -/
inductive Acquired where
  | granted (record : NodeRecord)
  /-- `NoWorkersAvailable` -/
  | noWorkers
  /-- `TimeoutError` -/
  | timedOut

/-- What `_forward` comes to before it sends anything. -/
inductive ForwardReply where
  /-- the request for the worker -/
  | forwarded (out : Outgoing)
  /-- the response of `_model_error` -/
  | modelError (error : ModelError)
  | raised (exn : ForwardExn)

/-- What the router was given, but for the fleet's models. -/
structure RouterWorld where
  cfg : RouterConfig
  forward : ForwardConfig
  codec : JsonCodec
  reprFloat : PyFloat → String

namespace RouterWorld

variable (world : RouterWorld)

/-- `_forward` from `pool.acquire` on: it was called on a pool that has become `pool`. -/
def dispatch (request : ForwardRequest) (body : RequestBody) (pool : WorkerPool)
    (model : Option String) : Acquired → ForwardReply
  | .granted record =>
      match outgoing { config := world.forward, request := request,
                       shape := world.cfg.tryShape world.codec request.path body,
                       construct := fun _ => none } record with
      | .ok out => .forwarded out
      | .error exn => .raised exn
  | .noWorkers => .modelError (world.cfg.notReady pool model)
  | .timedOut => .modelError (RouterConfig.busy model)

/-- `_forward` up to its first await on the worker, for a request whose body is `bytes`. -/
def reply (request : ForwardRequest) (bytes : Bytes) (registry : Registry) (pool : WorkerPool)
    (acquired : Acquired) : ForwardReply :=
  match world.codec.read bytes with
  | .error exn => .raised exn
  | .ok body =>
      match world.cfg.select world.reprFloat registry body with
      | .any => world.dispatch request body pool none acquired
      | .named modelId => world.dispatch request body pool (some modelId) acquired
      | .notFound error => .modelError error
      | .typeError => .raised (.other "TypeError: unhashable type")

end RouterWorld

/-- The errors about a request's model that the router documents. -/
inductive ModelError.Documented : ModelError → Prop
  | notFound (message : String) : Documented ⟨404, "model_not_found", message, none⟩
  | loading (message : String) : Documented ⟨503, "model_loading", message, some retryAfterS⟩
  | unavailable (message : String) : Documented ⟨503, "model_unavailable", message, none⟩
  | busy (message : String) : Documented ⟨503, "model_busy", message, some retryAfterS⟩

/-- The request is forwarded, or answered with an error the router made. -/
inductive ForwardReply.Answered : ForwardReply → Prop
  | forwarded (out : Outgoing) : Answered (.forwarded out)
  | modelError {error : ModelError} : error.Documented → Answered (.modelError error)
  | httpException (detail : String) : Answered (.raised (.httpException 503 detail))

/-! ## Shaping nests nothing deeper -/

section Depth

variable {parts kept new : List Json} {message message' : Json} {messages messages' : List Json}
  {payload : Fields}

theorem PrunedParts.exists_audio (pruned : PrunedParts parts kept)
    (fewer : kept.length < parts.length) : ∃ part ∈ parts, isAudioPart part = true := by
  by_contra silent
  push Not at silent
  have whole : (parts.filter fun part => !isAudioPart part) = parts :=
    List.filter_eq_self.mpr fun part member => by simpa using silent part member
  have left := pruned.others
  rw [whole] at left
  have length := congrArg List.length left
  have le := List.length_filter_le (fun part => !isAudioPart part) kept
  omega

theorem depth_audioPart {part : Json} (audio : isAudioPart part = true) : 1 ≤ part.depth := by
  cases part with
  | obj fields =>
    rw [Json.depth_obj]
    omega
  | null => cases audio
  | bool b => cases audio
  | int n => cases audio
  | float x => cases audio
  | str s => cases audio
  | arr items => cases audio

/-- A text part is nested no deeper than the audio part it came for. -/
theorem LostAudio.depth_le (lost : LostAudio new message message')
    (shallow : ∀ part ∈ new, part.depth ≤ 1) : message'.depth ≤ message.depth := by
  obtain ⟨fields, parts, kept, rfl, content, pruned, fewer, rfl⟩ := lost
  obtain ⟨part, member, audio⟩ := pruned.exists_audio fewer
  have deep := (depth_audioPart audio).trans (Json.depth_le_depthItems member)
  have items : Json.depthItems (new ++ kept) ≤ Json.depthItems parts := by
    apply Json.depthItems_le_iff.mpr
    intro item member
    rcases List.mem_append.mp member with first | later
    · exact (shallow item first).trans deep
    · exact Json.depth_le_depthItems (pruned.sublist.subset later)
  have whole := Json.depth_le_of_get? content
  rw [Json.depth_arr] at whole
  rw [Json.depth_obj, Json.depth_obj, Nat.add_le_add_iff_right]
  apply Json.depthFields_set
  rw [Json.depth_arr]
  omega

theorem Pruned.depth_le (pruned : Pruned messages messages') :
    Json.depthItems messages' ≤ Json.depthItems messages := by
  induction pruned with
  | nil => exact le_refl _
  | @cons message message' rest rest' head _ ih =>
    have first : message'.depth ≤ message.depth := by
      rcases head with rfl | lost
      · exact le_refl _
      · exact lost.depth_le (by simp)
    rw [Json.depthItems, Json.depthItems]
    exact max_le_max first ih

theorem depthItems_append (items more : List Json) :
    Json.depthItems (items ++ more) = max (Json.depthItems items) (Json.depthItems more) := by
  induction items with
  | nil => simp [Json.depthItems]
  | cons item rest ih => simp [Json.depthItems, ih, max_assoc]

theorem FirstLost.depth_le {i : Nat} {text : String}
    (lost : FirstLost [textPart text] i messages messages') :
    Json.depthItems messages' ≤ Json.depthItems messages := by
  obtain ⟨before, first, first', after, after', rfl, rfl, -, here, pruned⟩ := lost
  have note : (textPart text).depth ≤ 1 := by
    simp [textPart, Json.depthFields]
  rw [depthItems_append, depthItems_append, Json.depthItems, Json.depthItems]
  apply max_le_max (le_refl _)
  apply max_le_max _ pruned.depth_le
  apply here.depth_le
  intro part member
  rw [List.mem_singleton.mp member]
  exact note

theorem capAudio_depth (payload : Fields) (limitS : Option Rat) :
    Json.depthFields (capAudio payload limitS).2 ≤ Json.depthFields payload := by
  rcases capAudio_lost payload limitS with same | ⟨messages, messages', i, text, found, left, lost⟩
  · rw [same]
  · have whole := Json.depth_le_of_get? found
    have shallow := lost.depth_le
    rw [left]
    apply Json.depthFields_set
    rw [Json.depth_arr] at whole ⊢
    omega

theorem clampField_depth (ceiling : Nat) (field : String) (payload : Fields) :
    Json.depthFields (clampField ceiling field payload).1 ≤ Json.depthFields payload := by
  unfold clampField
  simp only
  split
  · exact le_refl _
  · apply Json.depthFields_set
    rw [Json.depth_int]
    exact Nat.zero_le _

theorem clampOutputTokens_depth (payload : Fields) (ceiling : Option Nat) :
    Json.depthFields (clampOutputTokens payload ceiling).1 ≤ Json.depthFields payload := by
  unfold clampOutputTokens
  split
  · exact le_refl _
  · exact le_refl _
  · next ceiling _ =>
    have first := clampField_depth ceiling "max_tokens" payload
    simp only
    split
    · exact first
    · exact (clampField_depth _ _ _).trans first

theorem shapePayload_depth (cfg : RouterConfig) (record : NodeRecord) (path : String)
    (payload : Fields) :
    Json.depthFields (cfg.shapePayload record path payload).1 ≤ Json.depthFields payload := by
  have named : Json.depthFields (cfg.nameModel record payload).1 ≤ Json.depthFields payload := by
    unfold RouterConfig.nameModel
    split
    · split
      · exact le_refl _
      · apply Json.depthFields_set
        rw [Json.depth_str]
        exact Nat.zero_le _
    · exact le_refl _
  have capped (payload : Fields) :
      Json.depthFields (cfg.applyCaps record path payload).1 ≤ Json.depthFields payload := by
    unfold RouterConfig.applyCaps
    split
    · exact (clampOutputTokens_depth _ _).trans (capAudio_depth _ _)
    · exact le_refl _
  exact (capped _).trans named

end Depth

/-! ## Every answerable body is answered -/

/-- A body that `_forward` can take: it is not nested too deep, and a `model` in it can be
hashed. -/
def JsonCodec.Answerable (codec : JsonCodec) (bytes : Bytes) : Prop :=
  bytes ≠ [] → codec.loads bytes ≠ .tooDeep ∧
    ∀ payload model, codec.loads bytes = .value (.obj payload) →
      Fields.get? payload "model" = some model → model.hashable = true

variable {cfg : RouterConfig} {codec : JsonCodec} {body : RequestBody} {bytes : Bytes}
  {registry : Registry} {reprFloat : PyFloat → String}

/-- `json.dumps` writes what shaping leaves of a payload that was read. -/
theorem tryShape_ok {path : String} {record : NodeRecord}
    (read : ∀ value, body.parsed = some value → value.depth ≤ codec.limit) :
    cfg.tryShape codec path body record = .ok (cfg.shape codec.written path body record) := by
  unfold RouterConfig.tryShape
  split
  · next payload parsed =>
    have depth := read _ parsed
    have shaped := shapePayload_depth cfg record path payload
    rw [Json.depth_obj] at depth
    have writes := codec.dumps_isSome (.obj (cfg.shapePayload record path payload).1) (by
      rw [Json.depth_obj]
      omega)
    simp only
    apply if_neg
    rw [Bool.and_eq_true, Option.isNone_iff_eq_none]
    rintro ⟨-, none⟩
    rw [none] at writes
    cases writes
  · rfl

/-- Before it sends anything, `_forward` raises the router's own errors only. -/
theorem outgoing_error {world : ForwardWorld} {record : NodeRecord} {exn : ForwardExn}
    {shaped : Shaped} (shapes : world.shape record = .ok shaped)
    (failed : outgoing world record = .error exn) :
    ∃ detail, exn = .httpException 503 detail := by
  unfold outgoing at failed
  cases port : (record.port <|> world.config.vllmPort) with
  | none =>
    rw [port] at failed
    cases failed
    exact ⟨_, rfl⟩
  | some port' =>
    cases transport : record.transport with
    | direct =>
      simp only [port, transport, shapes, bind, Except.bind, pure, Except.pure] at failed
      cases failed
    | tunnel =>
      cases store : world.config.authStore with
      | none =>
        simp only [port, transport, store, bind, Except.bind, pure, Except.pure] at failed
        cases failed
        exact ⟨_, rfl⟩
      | some vllmApiKey =>
        simp only [port, transport, store, shapes, bind, Except.bind, pure, Except.pure] at failed
        cases failed

theorem notReady_documented (pool : WorkerPool) (model : Option String) :
    (cfg.notReady pool model).Documented := by
  unfold RouterConfig.notReady
  simp only
  split
  · exact .loading _
  · exact .unavailable _

theorem dispatch_answered {world : RouterWorld} (request : ForwardRequest) (pool : WorkerPool)
    (model : Option String) (acquired : Acquired)
    (read : ∀ value, body.parsed = some value → value.depth ≤ world.codec.limit) :
    (world.dispatch request body pool model acquired).Answered := by
  cases acquired with
  | granted record =>
    unfold RouterWorld.dispatch
    simp only
    split
    · exact .forwarded _
    · next exn failed =>
      obtain ⟨detail, rfl⟩ := outgoing_error (tryShape_ok read) failed
      exact .httpException detail
  | noWorkers => exact .modelError (notReady_documented pool model)
  | timedOut => exact .modelError (.busy _)

/-- The bodies whose `model` cannot be hashed. -/
theorem select_typeError :
    cfg.select reprFloat registry body = .typeError ↔
      ∃ model, body.requested = some model ∧ model.hashable = false := by
  unfold RouterConfig.select
  cases requested : body.requested with
  | none => simp
  | some model =>
    cases model with
    | null => simp [Json.hashable]
    | bool b => simp [Json.hashable]
    | int n => simp [Json.hashable]
    | float x => simp [Json.hashable]
    | str id =>
      simp only [Option.some.injEq, exists_eq_left', Json.hashable, Bool.true_eq_false, iff_false]
      split
      · simp
      · split
        · simp
        · simp
    | arr items => simp [Json.hashable]
    | obj fields => simp [Json.hashable]

theorem select_notFound {error : ModelError}
    (selected : cfg.select reprFloat registry body = .notFound error) : error.Documented := by
  unfold RouterConfig.select at selected
  split at selected
  · cases selected
  · cases selected
  · split at selected
    · cases selected
    · split at selected
      · cases selected
      · cases selected
        exact .notFound _
  · cases selected
  · cases selected
  · cases selected
    exact .notFound _

/-- A body that is read: what it holds, and what its `model` is. -/
theorem read_ok (read : codec.read bytes = .ok body) :
    (∀ value, body.parsed = some value → value.depth ≤ codec.limit) ∧
    (codec.Answerable bytes ↔ ∀ model, body.requested = some model → model.hashable = true) := by
  unfold JsonCodec.read at read
  unfold JsonCodec.Answerable RequestBody.requested
  split at read
  · next empty =>
    cases read
    refine ⟨by simp, ?_⟩
    simp [empty]
  · next some_ =>
    split at read
    · next value loaded =>
      cases read
      refine ⟨fun value' parsed => ?_, ?_⟩
      · cases parsed
        exact codec.loads_depth _ _ loaded
      · simp only [ne_eq, some_, not_false_eq_true, forall_true_left, loaded, reduceCtorEq,
          true_and, Loaded.value.injEq]
        cases value with
        | obj payload =>
          simp only [Json.obj.injEq]
          constructor
          · intro answers model found
            exact answers payload model rfl found
          · rintro answers other model rfl found
            exact answers model found
        | null => simp
        | bool b => simp
        | int n => simp
        | float x => simp
        | str s => simp
        | arr items => simp
    · next loaded =>
      cases read
      refine ⟨by simp, ?_⟩
      simp [loaded]
    · cases read

theorem read_error {exn : ForwardExn} (failed : codec.read bytes = .error exn) :
    exn = .other "RecursionError" ∧ ¬ codec.Answerable bytes := by
  unfold JsonCodec.read at failed
  split at failed
  · cases failed
  · next some_ =>
    split at failed
    · cases failed
    · cases failed
    · next deep =>
      cases failed
      exact ⟨rfl, fun answerable => (answerable some_).1 deep⟩

theorem not_answered_other {text : String} : ¬ (ForwardReply.raised (.other text)).Answered := by
  intro answered
  cases answered

/-- **Any body is answered**, exactly when it is answerable: forwarded, or refused with an
error that the router documents. -/
theorem reply_answered_iff (world : RouterWorld) (request : ForwardRequest) (bytes : Bytes)
    (registry : Registry) (pool : WorkerPool) (acquired : Acquired) :
    (world.reply request bytes registry pool acquired).Answered ↔
      world.codec.Answerable bytes := by
  unfold RouterWorld.reply
  cases read : world.codec.read bytes with
  | error exn =>
    obtain ⟨rfl, refused⟩ := read_error read
    exact iff_of_false not_answered_other refused
  | ok body =>
    obtain ⟨depth, answerable⟩ := read_ok read
    have plain : ∀ {selection}, world.cfg.select world.reprFloat registry body = selection →
        selection ≠ .typeError → world.codec.Answerable bytes := by
      intro selection selected other
      rw [answerable]
      intro model requested
      by_contra unhashable
      have raises : world.cfg.select world.reprFloat registry body = .typeError :=
        select_typeError.mpr ⟨model, requested, by simpa using unhashable⟩
      exact other (selected.symm.trans raises)
    simp only
    cases selected : world.cfg.select world.reprFloat registry body with
    | any => exact iff_of_true (dispatch_answered _ _ _ _ depth) (plain selected (by simp))
    | named modelId => exact iff_of_true (dispatch_answered _ _ _ _ depth) (plain selected (by simp))
    | notFound error =>
      exact iff_of_true (.modelError (select_notFound selected)) (plain selected (by simp))
    | typeError =>
      obtain ⟨model, requested, unhashable⟩ := select_typeError.mp selected
      refine iff_of_false not_answered_other fun ok => ?_
      rw [answerable.mp ok model requested] at unhashable
      cases unhashable

/-- The body `{"model": []}`. -/
def listModelBytes : Bytes := ascii "\x7b\"model\": []\x7d"

/-- A router without a catalog, whose JSON is read as far as that body goes. -/
def listModelWorld : RouterWorld where
  cfg := { catalog := none, nodeSpec := none }
  forward := ⟨none, false, none⟩
  codec :=
    { loads := fun bytes =>
        if bytes = listModelBytes then .value (.obj [("model", .arr [])]) else .invalid
      dumps := fun _ => some []
      limit := 2
      loads_depth := by
        intro bytes value loaded
        split at loaded
        · cases loaded
          simp [Json.depthFields, Json.depthItems]
        · cases loaded
      dumps_isSome := fun _ _ => rfl }
  reprFloat := fun _ => ""

/-- **A body that is not answered**: a list as `model` cannot be hashed. -/
theorem list_model_raises :
    listModelWorld.reply ⟨"POST", chatPath, []⟩ listModelBytes .empty
        ⟨.empty, none, 4, [], fun _ => 0, []⟩ .noWorkers =
      .raised (.other "TypeError: unhashable type") ∧
    ¬ ∀ (world : RouterWorld) (request : ForwardRequest) (bytes : Bytes) (registry : Registry)
      (pool : WorkerPool) (acquired : Acquired),
      (world.reply request bytes registry pool acquired).Answered := by
  have raised : listModelWorld.reply ⟨"POST", chatPath, []⟩ listModelBytes .empty
      ⟨.empty, none, 4, [], fun _ => 0, []⟩ .noWorkers =
        .raised (.other "TypeError: unhashable type") := rfl
  refine ⟨raised, fun claim => ?_⟩
  have answered := claim listModelWorld ⟨"POST", chatPath, []⟩ listModelBytes .empty
    ⟨.empty, none, 4, [], fun _ => 0, []⟩ .noWorkers
  rw [raised] at answered
  exact not_answered_other answered

end Oumigo
