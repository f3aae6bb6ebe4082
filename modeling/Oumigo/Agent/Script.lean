import Oumigo.Agent.Chat
import Oumigo.Agent.Deltas

/-!
# A chat whose model follows a script

The data plane holds a script of assistant turns, each with its JSON completion and
with the lines that stream it.  Tools, guards and the clock act on a state of their
own beside it (`aside`), and the consumer keeps what is yielded to it.

`sees_readJson` and `sees_readStream` say what either round-trip makes of a scripted
turn, in terms of what both modes have in common (`Seen`).
-/

namespace Oumigo

open Python Effect

variable {V : Type} {loads : String → Except Exn PyVal}

/-! ## The script -/

/-- A turn with the reply that carries it, whole and streamed. -/
structure ScriptedReply (loads : String → Except Exn PyVal) where
  turn : AssistantTurn
  body : PyVal
  lines : List String
  chunks : List Chunk
  whole : turn.Whole body
  carries : Carries loads lines chunks
  splits : turn.Splits chunks

structure DataPlane (V : Type) (loads : String → Except Exn PyVal) where
  /-- what tools, guards and the clock work on -/
  aside : V
  /-- the replies to come -/
  script : List (ScriptedReply loads)
  /-- what the consumer got, oldest first -/
  yielded : List (PieceKind × PyVal)

namespace DataPlane

/-- The pieces of answer text among what was yielded. -/
def pieces (plane : DataPlane V loads) : List String :=
  plane.yielded.filterMap fun piece => if piece.1 = .answer then piece.2.str? else none

/-- An action that does not concern the data plane. -/
def beside {α : Type} (action : EStateM Exn V α) : EStateM Exn (DataPlane V loads) α :=
  zoom aside (fun v plane => { plane with aside := v }) action

/-- The next reply of the script. -/
def reply : EStateM Exn (DataPlane V loads) (ScriptedReply loads) := fun plane =>
  match plane.script with
  | reply :: rest => .ok reply { plane with script := rest }
  | [] => .error ⟨.exception, "ConnectError", "the script is over"⟩ plane

/-- The surroundings of a chat, with the script for a model. -/
def surroundings (outer : Surroundings V) : Surroundings (DataPlane V loads) where
  post _ := do
    let reply ← reply
    pure ⟨200, "", .ok reply.body⟩
  stream _ := do
    let reply ← reply
    pure ⟨200, pure "", reply.lines.map pure⟩
  monotonic := beside outer.monotonic
  loads := loads
  dumps value := beside (outer.dumps value)
  repr := outer.repr
  resume kind piece := modify fun plane => { plane with yielded := plane.yielded ++ [(kind, piece)] }

end DataPlane

open DataPlane

def Tool.scripted (tool : Tool V) : Tool (DataPlane V loads) :=
  { tool with fn := fun kwargs => beside (tool.fn kwargs) }

def Guard.scripted (guard : Guard V) : Guard (DataPlane V loads) where
  points := guard.points
  intercept point ctx := beside (guard.intercept point ctx)

def GuardProfile.scripted (profile : GuardProfile V) : GuardProfile (DataPlane V loads) :=
  ⟨profile.name, profile.guards.map Guard.scripted⟩

/-- The chat with the script for a model. -/
def OumiGoChat.scripted (chat : OumiGoChat V) : OumiGoChat (DataPlane V chat.outer.loads) :=
  { chat with
    agent := { chat.agent with
      tools := chat.agent.tools.filterMap fun _ tool => some tool.scripted
      profile := chat.agent.profile.map GuardProfile.scripted }
    outer := surroundings chat.outer }

/-! ## What both modes have in common -/

/-- A chat's state without the raw payload, the trace and the cuts between the pieces
of the answer. -/
structure Seen (V : Type) (loads : String → Except Exn PyVal) where
  aside : V
  script : List (ScriptedReply loads)
  answers : String
  resp : OumiGoResponse
  history : List Entry
  deadline : Option Rat
  messages : List PyVal
  requests : Nat
  turn : Turn
  withheld : List Nat

def ChatState.seen (s : ChatState (DataPlane V loads)) : Seen V loads :=
  ⟨s.world.aside, s.world.script, String.join s.world.pieces, { s.resp with raw := .none },
    s.history, s.deadline, s.messages, s.requests, s.turn, s.withheld⟩

namespace Seen

/-- Answer text is appended to the response and yielded. -/
def release (r : Seen V loads) (text : String) : Seen V loads :=
  { r with
    answers := r.answers ++ text
    resp := { r.resp with text := r.resp.text ++ text } }

theorem release_empty (r : Seen V loads) : r.release "" = r := by
  unfold release
  rw [String.append_empty, String.append_empty]

theorem release_append (r : Seen V loads) (s t : String) :
    (r.release s).release t = r.release (s ++ t) := by
  unfold release
  simp only [String.append_assoc]

/-- Prose that arrives, which the output guards may hold back. -/
def arrive (r : Seen V loads) (buffered : Bool) (text : String) : Seen V loads :=
  if buffered then r else r.release text

theorem arrive_append (r : Seen V loads) (buffered : Bool) (s t : String) :
    (r.arrive buffered s).arrive buffered t = r.arrive buffered (s ++ t) := by
  unfold arrive
  cases buffered
  · exact r.release_append s t
  · rfl

theorem arrive_empty (r : Seen V loads) (buffered : Bool) : r.arrive buffered "" = r := by
  unfold arrive
  cases buffered
  · exact r.release_empty
  · rfl

/-- The reasoning of one turn is noted. -/
def think (r : Seen V loads) (text : String) : Seen V loads :=
  { r with resp := { r.resp with
    reasoning := if text = "" then r.resp.reasoning
      else if r.resp.reasoning = "" then text else r.resp.reasoning ++ "\n\n" ++ text } }

theorem arrive_think (r : Seen V loads) (buffered : Bool) (prose reasoning : String) :
    (r.arrive buffered prose).think reasoning = (r.think reasoning).arrive buffered prose := by
  cases buffered <;> rfl

/-- A whole turn arrives. -/
def take (r : Seen V loads) (buffered : Bool) (turn : AssistantTurn) : Seen V loads :=
  (r.think (turn.reasoning.getD "")).arrive buffered turn.prose

end Seen

theorem scripted_tool {chat : OumiGoChat V} {name : String}
    {tool : Tool (DataPlane V chat.outer.loads)}
    (found : chat.scripted.agent.tools.get? name = some tool) :
    ∃ given : Tool V, tool = given.scripted := by
  change (chat.agent.tools.filterMap fun _ tool => some tool.scripted).get? name = _ at found
  rw [Dict.get?_filterMap] at found
  obtain ⟨given, -, same⟩ := Option.bind_eq_some_iff.mp found
  exact ⟨given, (Option.some.inj same).symm⟩

theorem toolNamed_some {W : Type} {chat : OumiGoChat W} {value : PyVal} {name : String}
    {tool : Tool W} (named : chat.toolNamed value = .ok (some (name, tool))) :
    chat.agent.tools.get? name = some tool := by
  cases value with
  | str text =>
    obtain ⟨found, present, pair⟩ := Option.map_eq_some_iff.mp (Except.ok.inj named)
    cases pair
    exact present
  | none | bool | int | float | object => cases named
  | list | dict => cases named

/-! ## Replies in one piece -/

namespace AssistantTurn

/-- The completion that carries the turn whole. -/
def body (turn : AssistantTurn) : PyVal :=
  .dict [("choices", .list [.dict [
    ("message", .dict [("role", .str "assistant"), ("content", turn.contentValue),
      ("reasoning_content", .str (turn.reasoning.getD "")),
      ("tool_calls", .list (turn.toolCalls.map ModelCall.toMessage))]),
    ("finish_reason", .str (turn.finish.getD ""))]])]

theorem whole_body (turn : AssistantTurn) : turn.Whole turn.body := by
  refine .completion _ _ _ _ rfl (told_str _) rfl (told_str _) rfl ?_
  cases turn.toolCalls <;> rfl

/-- The deltas that each give a whole call, numbered from `i`. -/
def callDeltas : List ModelCall → Nat → List CallDelta
  | [], _ => []
  | call :: rest, i => ⟨i, call.id, call.name, call.arguments⟩ :: callDeltas rest (i + 1)

/-- The chunk that gives the whole turn. -/
def chunk (turn : AssistantTurn) : Chunk where
  reasoning := turn.reasoning.getD ""
  content := turn.prose
  finish := turn.finish.getD ""
  calls := callDeltas turn.toolCalls 0

/-- The value of a delta that gives a whole call. -/
def deltaValue (delta : CallDelta) : PyVal :=
  .dict [("index", .int delta.index), ("id", .str delta.id), ("type", .str "function"),
    ("function", .dict [("name", .str delta.name), ("arguments", .str delta.arguments)])]

/-- The event that streams the turn in one piece. -/
def event (turn : AssistantTurn) : PyVal :=
  .dict [("choices", .list [.dict [
    ("delta", .dict [("content", .str turn.prose),
      ("reasoning_content", .str (turn.reasoning.getD "")),
      ("tool_calls", .list (turn.chunk.calls.map deltaValue))]),
    ("finish_reason", .str (turn.finish.getD ""))]])]

theorem shows_event (turn : AssistantTurn) : Shows turn.chunk turn.event := by
  refine .delta _ _ _ _ _ (turn.chunk.calls.map deltaValue) rfl (told_str _) rfl (told_str _)
    (told_str _) ?_ ?_
  · cases turn.chunk.calls <;> rfl
  · rw [List.forall₂_map_right_iff, List.forall₂_same]
    intro delta _
    exact .call _ _ rfl (told_str _) rfl (told_str _) (told_str _)

theorem callDeltas_index {calls : List ModelCall} {i : Nat} {delta : CallDelta}
    (member : delta ∈ callDeltas calls i) : i ≤ delta.index ∧ delta.index < i + calls.length := by
  induction calls generalizing i with
  | nil => cases member
  | cons call rest ih =>
    rw [List.length_cons]
    rcases List.mem_cons.mp member with rfl | later
    · exact ⟨le_refl i, by dsimp only; omega⟩
    · have := ih later
      omega

theorem deltasOf_callDeltas {calls : List ModelCall} {i j : Nat} {call : ModelCall}
    (found : calls[j]? = some call) :
    deltasOf (callDeltas calls i) (i + j) =
      [⟨i + j, call.id, call.name, call.arguments⟩] := by
  induction calls generalizing i j with
  | nil => cases found
  | cons head rest ih =>
    unfold deltasOf callDeltas
    cases j with
    | zero =>
      cases found
      have later : (callDeltas rest (i + 1)).filter (fun delta => delta.index = i + 0) = [] := by
        refine List.filter_eq_nil_iff.mpr fun delta member => ?_
        have := callDeltas_index member
        rw [decide_eq_true_eq]
        omega
      rw [List.filter_cons_of_pos (by simp), later]
      rfl
    | succ j =>
      rw [List.filter_cons_of_neg (by simp)]
      have rest := ih (i := i + 1) found
      rw [show i + 1 + j = i + (j + 1) by omega] at rest
      exact rest

theorem splits_chunk (turn : AssistantTurn) : turn.Splits [turn.chunk] := by
  have calls : [turn.chunk].flatMap Chunk.calls = callDeltas turn.toolCalls 0 :=
    List.flatMap_singleton ..
  refine ⟨join_singleton _, join_singleton _, lastSaid_singleton _, ?_, ?_⟩
  · rw [calls]
    intro delta member
    have := (callDeltas_index member).2
    omega
  · rw [calls]
    intro i call found
    have deltas := deltasOf_callDeltas (i := 0) found
    rw [Nat.zero_add] at deltas
    rw [deltas]
    refine ⟨List.cons_ne_nil _ _, ?_⟩
    unfold joinDeltas
    simp only [List.map_cons, List.map_nil, lastSaid_singleton, join_singleton]

end AssistantTurn

/-- The reply that carries a turn in one piece, streamed in one event. -/
def ScriptedReply.ofTurn (turn : AssistantTurn) (data : String) (open_ : strip data ≠ "[DONE]")
    (read : loads (strip data) = .ok turn.event) : ScriptedReply loads where
  turn := turn
  body := turn.body
  lines := ["data:" ++ data]
  chunks := [turn.chunk]
  whole := turn.whole_body
  carries := .event data turn.event open_ read turn.shows_event .nil
  splits := turn.splits_chunk

/-! ## Reading what a reply says -/

theorem firstChoice_list {entries : List (String × PyVal)} {choice : PyVal} {more : List PyVal}
    (choices : fieldOf entries "choices" = .list (choice :: more)) :
    firstChoice (.dict entries) = .ok choice := by
  unfold firstChoice
  rw [get_dict, choices]
  rfl

theorem firstChoice_usage {entries : List (String × PyVal)}
    (choices : (fieldOf entries "choices").or (.list []) = .list []) :
    firstChoice (.dict entries) = .ok (.dict []) := by
  unfold firstChoice
  rw [get_dict]
  unfold PyVal.or at choices
  split at choices
  · rw [choices]
    rfl
  · next falsy =>
    change ((fieldOf entries "choices").or (.list [.dict []])).first = _
    unfold PyVal.or
    rw [if_neg falsy]
    rfl

theorem joinParts_append {parts : List PyVal} {s : String} (joined : joinParts parts = .ok s)
    (t : String) : joinParts (parts ++ [.str t]) = .ok (s ++ t) := by
  induction parts generalizing s with
  | nil =>
    cases joined
    rw [String.empty_append]
    change Except.ok (t ++ "") = _
    rw [String.append_empty]
  | cons part parts ih =>
    cases part with
    | str u =>
      cases tail : joinParts parts with
      | error exn =>
        change (joinParts parts >>= _) = _ at joined
        rw [tail] at joined
        cases joined
      | ok v =>
        change (joinParts parts >>= _) = _ at joined
        rw [tail] at joined
        cases joined
        change (joinParts (parts ++ [.str t]) >>= _) = _
        rw [ih tail, String.append_assoc]
        rfl
    | _ => cases joined

/-- A part is kept when it is not empty. -/
theorem joinParts_told {parts : List PyVal} {s t : String} {value : PyVal}
    (joined : joinParts parts = .ok s) (told : Says value t) :
    joinParts (if value.truthy then parts ++ [value] else parts) = .ok (s ++ t) := by
  rcases told.cases with ⟨truthy, -, rfl⟩ | ⟨falsy, rfl⟩
  · rw [if_pos truthy]
    exact joinParts_append joined t
  · rw [if_neg (by simp [falsy]), String.append_empty]
    exact joined

/-- What `_stream_turn` has collected from these chunks. -/
structure Collected (acc : OumiGoChat.StreamAcc) (chunks : List Chunk) : Prop where
  content : joinParts acc.contentParts = .ok (String.join (chunks.map Chunk.content))
  reasoning : joinParts acc.reasoningParts = .ok (String.join (chunks.map Chunk.reasoning))
  finish : Says acc.finish (lastSaid (chunks.map Chunk.finish))
  calls : Gathered acc.toolCalls (chunks.flatMap Chunk.calls)

theorem collected_nil : Collected {} [] := ⟨rfl, rfl, rfl, gathered_empty⟩

theorem finish_after {finish finish' : PyVal} {texts : List String} {text : String}
    (before : Says finish (lastSaid texts)) (told : Says finish' text) :
    Says (if finish'.truthy then finish' else finish) (lastSaid (texts ++ [text])) := by
  rw [lastSaid_append]
  rcases told.cases with ⟨truthy, some, -⟩ | ⟨falsy, rfl⟩
  · rw [if_pos truthy, if_neg some]
    exact told
  · rw [if_neg (by simp [falsy]), if_pos rfl]
    exact before

section

variable {chat : OumiGoChat V} {r : Seen V chat.outer.loads} {α : Type}
  {E : Seen V chat.outer.loads → Prop}

/-! ## Steps, as both modes see them -/

/-- What a yielded piece adds to the answer. -/
def pieceText (kind : PieceKind) (piece : PyVal) : String :=
  if kind = .answer then piece.str?.getD "" else ""

theorem join_pieces (plane : DataPlane V loads) (kind : PieceKind) (piece : PyVal) :
    String.join { plane with yielded := plane.yielded ++ [(kind, piece)] }.pieces =
      String.join plane.pieces ++ pieceText kind piece := by
  unfold pieces pieceText
  rw [List.filterMap_append, String.join_append]
  congr 1
  cases kind with
  | answer => cases piece <;> simp [PyVal.str?]
  | reasoning => rfl

theorem sees_resume (kind : PieceKind) (piece : PyVal) :
    Ensures ChatState.seen (outside (chat.scripted.outer.resume kind piece)) r
      (fun _ r' => r' = { r with answers := r.answers ++ pieceText kind piece }) E := by
  refine .update (g := fun r : Seen V _ => { r with answers := r.answers ++ pieceText kind piece })
    (f := fun s : ChatState (DataPlane V _) => { s with world := { s.world with
      yielded := s.world.yielded ++ [(kind, piece)] } }) (fun s => ?_) rfl
  unfold ChatState.seen
  rw [join_pieces]

/-- The trace and the raw payload are not seen. -/
theorem sees_note_bind {event : Event} {rest : Unit → ChatM (DataPlane V loads) α}
    {r : Seen V loads} {Q : α → Seen V loads → Prop} {E : Seen V loads → Prop}
    (next : Ensures ChatState.seen (rest ()) r Q E) :
    Ensures ChatState.seen (note event >>= rest) r Q E :=
  .update_bind (g := id) (fun _ => rfl) next

theorem sees_raw_bind {data : PyVal} {rest : Unit → ChatM (DataPlane V loads) α}
    {r : Seen V loads} {Q : α → Seen V loads → Prop} {E : Seen V loads → Prop}
    (next : Ensures ChatState.seen (rest ()) r Q E) :
    Ensures ChatState.seen ((withResponse fun resp => { resp with raw := data }) >>= rest) r Q E :=
  .update_bind (g := id) (fun _ => rfl) next

theorem sees_answer (source : PieceSource) (text : String) :
    Ensures ChatState.seen (chat.scripted.answer source text) r
      (fun _ r' => r' = r.release text) E := by
  refine .update_bind
    (g := fun r => { r with resp := { r.resp with text := r.resp.text ++ text } })
    (fun _ => rfl) ?_
  exact sees_note_bind (sees_resume .answer (.str text))

theorem sees_releaseProse {value : PyVal} {text : String} (told : Says value text) :
    Ensures ChatState.seen (chat.scripted.releaseProse value) r
      (fun _ r' => r' = r.release text) E := by
  rcases told.cases with ⟨truthy, -, rfl⟩ | ⟨falsy, rfl⟩
  · refine .ite (fun _ => ?_) fun none => absurd truthy none
    exact .value_bind rfl (sees_answer _ _)
  · refine .ite (fun truthy => ?_) fun _ => .pure r.release_empty.symm
    rw [falsy] at truthy
    cases truthy

theorem sees_passThrough {value : PyVal} {text : String} (told : Says value text) :
    Ensures ChatState.seen (chat.scripted.passThrough value) r
      (fun _ r' => r' = r.arrive chat.scripted.bufferOutput text) E := by
  unfold Seen.arrive
  refine .ite (fun held => .pure ?_) fun live => ?_
  · rw [if_pos held]
  · rw [if_neg live]
    exact sees_releaseProse told

theorem sees_yieldReasoning (value : PyVal) :
    Ensures ChatState.seen (chat.scripted.yieldReasoning value) r (fun _ r' => r' = r) E := by
  refine .ite (fun _ => (sees_resume .reasoning value).mono ?_ fun _ => id) fun _ => .pure rfl
  intro _ r' same
  rw [same]
  change { r with answers := r.answers ++ "" } = r
  rw [String.append_empty]

theorem sees_noteReasoning {value : PyVal} {text : String} (told : Says value text) :
    Ensures ChatState.seen (noteReasoning value : ChatM (DataPlane V chat.outer.loads) Unit) r
      (fun _ r' => r' = r.think text) E := by
  unfold Seen.think
  rcases told.cases with ⟨truthy, some, rfl⟩ | ⟨falsy, rfl⟩
  · rw [if_neg some]
    refine .ite (fun _ => ?_) fun none => absurd truthy none
    refine .value_bind rfl ?_
    exact .update (g := fun r => { r with resp := { r.resp with
      reasoning := if r.resp.reasoning = "" then text else r.resp.reasoning ++ "\n\n" ++ text } })
      (fun _ => rfl) rfl
  · rw [if_pos rfl]
    refine .ite (fun truthy => ?_) fun _ => .pure rfl
    rw [falsy] at truthy
    cases truthy

/-! ## A streamed turn -/

/-- An event without a choice, or with an empty delta, adds nothing. -/
theorem Collected.usage {acc : OumiGoChat.StreamAcc} {chunks : List Chunk}
    (collected : Collected acc chunks) : Collected acc (chunks ++ [({} : Chunk)]) := by
  refine ⟨?_, ?_, ?_, ?_⟩
  · rw [List.map_append, String.join_append, collected.content]
    simp
  · rw [List.map_append, String.join_append, collected.reasoning]
    simp
  · rw [List.map_append]
    exact @finish_after _ .none _ _ collected.finish rfl
  · rw [List.flatMap_append]
    simpa using collected.calls

theorem sees_streamEvent {chunk : Chunk} {value : PyVal} (shows : Shows chunk value)
    {acc : OumiGoChat.StreamAcc} {chunks : List Chunk} (collected : Collected acc chunks) :
    Ensures ChatState.seen (chat.scripted.streamEvent value acc) r
      (fun acc r' => Collected acc (chunks ++ [chunk]) ∧
        r' = r.arrive chat.scripted.bufferOutput chunk.content) E := by
  refine sees_raw_bind ?_
  cases shows with
  | usage entries none =>
    refine .value_bind (firstChoice_usage none) ?_
    refine .value_bind rfl ?_
    refine .value_bind rfl ?_
    refine .value_bind rfl ?_
    refine .bind (sees_yieldReasoning _) fun _ r₁ same => ?_
    subst same
    refine .value_bind rfl ?_
    refine .bind (@sees_passThrough _ _ _ _ .none "" rfl) fun _ r₂ same => ?_
    exact .value_bind rfl (.value_bind rfl (.value_bind rfl (.pure ⟨collected.usage, same⟩)))
  | delta _ entries choice delta more calls some finish present reasoning content listed shown =>
    refine .value_bind (firstChoice_list some) ?_
    refine .value_bind (get_dict choice _) ?_
    refine .value_bind (get_dict choice _) ?_
    rw [present]
    refine .value_bind (get_dict delta _) ?_
    refine .bind (sees_yieldReasoning _) fun _ r₁ same => ?_
    subst same
    refine .value_bind (get_dict delta _) ?_
    refine .bind (sees_passThrough content) fun _ r₂ same => ?_
    refine .value_bind (get_dict delta _) ?_
    rw [listed]
    refine .value_bind rfl ?_
    obtain ⟨acc', folded, gathered⟩ := gathered_fold collected.calls shown
    refine .value_bind folded ?_
    refine .pure ⟨⟨?_, ?_, ?_, ?_⟩, same⟩
    · rw [List.map_append, String.join_append]
      simpa using joinParts_told collected.content content
    · rw [List.map_append, String.join_append]
      simpa using joinParts_told collected.reasoning reasoning
    · rw [List.map_append]
      exact finish_after collected.finish finish
    · rw [List.flatMap_append]
      simpa using gathered

theorem parseLine_data (data : String) :
    parseLine loads ("data:" ++ data) =
      if strip data = "[DONE]" then .ok .done
      else match loads (strip data) with
        | .ok value => .ok (.event value)
        | .error exn => if exn.kind = .valueError then .ok .skipped else .error exn := by
  have begins : "data:".toList.isPrefixOf ("data:" ++ data).toList = true := by
    rw [String.toList_append, List.isPrefixOf_iff_prefix]
    exact List.prefix_append _ _
  have rest : String.ofList (("data:" ++ data).toList.drop 5) = data := by
    rw [String.toList_append]
    exact String.ofList_toList
  unfold parseLine
  rw [begins, rest]
  rfl

theorem parseLine_comment {line : String} (other : ¬ "data:".toList <+: line.toList) :
    parseLine loads line = .ok .skipped := by
  rw [← List.isPrefixOf_iff_prefix] at other
  unfold parseLine
  rw [Bool.eq_false_iff.mpr other]
  rfl

/-- **All lines of a reply.** -/
theorem sees_streamEvents {lines : List String} {more : List Chunk}
    (carries : Carries chat.outer.loads lines more) {acc : OumiGoChat.StreamAcc}
    {chunks : List Chunk} (collected : Collected acc chunks) :
    Ensures ChatState.seen (chat.scripted.streamEvents (lines.map pure) acc) r
      (fun acc r' => Collected acc (chunks ++ more) ∧ r' = r.arrive chat.scripted.bufferOutput
        (String.join (more.map Chunk.content))) E := by
  induction carries generalizing acc chunks r with
  | nil =>
    refine .pure ⟨by rwa [List.append_nil], ?_⟩
    exact (r.arrive_empty _).symm
  | done data rest done =>
    refine .value_bind (x := .ok _) rfl ?_
    refine .value_bind ((parseLine_data data).trans (if_pos done)) ?_
    refine .pure ⟨by rwa [List.append_nil], ?_⟩
    exact (r.arrive_empty _).symm
  | comment line other _ ih =>
    refine .value_bind (x := .ok _) rfl ?_
    exact .value_bind (parseLine_comment other) (ih collected)
  | keepAlive data exn open_ failed kind _ ih =>
    refine .value_bind (x := .ok _) rfl ?_
    refine .value_bind (a := .skipped) ?_ (ih collected)
    change parseLine chat.outer.loads _ = _
    rw [parseLine_data, if_neg open_, failed]
    exact if_pos kind
  | @event data value chunk rest more open_ read shows _ ih =>
    refine .value_bind (x := .ok _) rfl ?_
    refine .value_bind (a := .event value) ?_ ?_
    · change parseLine chat.outer.loads _ = _
      rw [parseLine_data, if_neg open_, read]
    refine .bind (sees_streamEvent shows collected) ?_
    rintro acc₁ r₁ ⟨collected₁, rfl⟩
    refine (ih collected₁).mono ?_ fun _ => id
    rintro acc₂ r₂ ⟨collected₂, rfl⟩
    refine ⟨by rwa [List.append_assoc] at collected₂, ?_⟩
    rw [Seen.arrive_append, List.map_cons, String.join_cons]

/-! ## A round-trip -/

namespace AssistantTurn

/-- The tool calls of the assistant message that either mode makes of the turn. -/
def calls (turn : AssistantTurn) (stream : Bool) : List PyVal :=
  turn.toolCalls.map fun call => if stream then call.slot.toMessage else call.toMessage

/-- The assistant message. -/
def message (turn : AssistantTurn) (stream : Bool) : AssistantMessage :=
  ⟨turn.contentValue, if turn.toolCalls.isEmpty then none else some (.list (turn.calls stream))⟩

end AssistantTurn

/-- What `_complete_turn` gives for a turn: the message, a finish reason that says the
turn's, and its prose. -/
structure Taken (turn : AssistantTurn) (stream : Bool) (x : AssistantMessage × PyVal × PyVal) :
    Prop where
  message : x.1 = turn.message stream
  finish : Says x.2.1 (turn.finish.getD "")
  answer : x.2.2 = .str turn.prose

/-- `_stream_turn` once the reply is there. -/
def OumiGoChat.readStream {W : Type} (chat : OumiGoChat W) (lines : List (EStateM Exn W String)) :
    ChatM W (AssistantMessage × PyVal × PyVal) := do
  let acc ← chat.streamEvents lines {}
  let reasoning ← Effect.lift (joinParts acc.reasoningParts)
  noteReasoning (.str reasoning)
  let answer ← Effect.lift (joinParts acc.contentParts)
  let content : PyVal := if answer = "" then .none else .str answer
  if acc.toolCalls.entries.isEmpty then pure (⟨content, none⟩, acc.finish, .str answer)
  else do
    let calls ← Effect.lift (assembledToolCalls acc.toolCalls)
    pure (⟨content, some (.list calls)⟩, acc.finish, .str answer)

/-- The non-streamed part of `_complete_turn` once the reply is there. -/
def OumiGoChat.readJson {W : Type} (chat : OumiGoChat W) (data : PyVal) :
    ChatM W (AssistantMessage × PyVal × PyVal) := do
  withResponse fun resp => { resp with raw := data }
  let choice ← Effect.lift (firstChoice data)
  let msg := (← Effect.lift (choice.get "message")).or (.dict [])
  let reasoning := (← Effect.lift (msg.get "reasoning_content")).or (.str "")
  noteReasoning reasoning
  chat.yieldReasoning reasoning
  let content ← Effect.lift (msg.get "content")
  let toolCalls ← Effect.lift (msg.get "tool_calls")
  let assistant : AssistantMessage :=
    ⟨content, if toolCalls.truthy then some toolCalls else none⟩
  let content := content.or (.str "")
  chat.passThrough content
  let finish ← Effect.lift (choice.get "finish_reason")
  pure (assistant, finish, content)

theorem streamTurn_eq {W : Type} (chat : OumiGoChat W) :
    chat.streamTurn = chat.postStream >>= chat.readStream := rfl

theorem jsonTurn_eq {W : Type} (chat : OumiGoChat W) :
    chat.jsonTurn = chat.postJson >>= chat.readJson := rfl

/-- The content a streamed turn ends up with. -/
theorem content_of_prose (turn : AssistantTurn) :
    (if turn.prose = "" then .none else .str turn.prose) = turn.contentValue := by
  rcases turn.prose_cases with ⟨empty, value⟩ | ⟨some, value⟩
  · rw [if_pos empty, value]
  · rw [if_neg some, value]

theorem message_streamed (turn : AssistantTurn) :
    turn.message true = ⟨turn.contentValue, if turn.toolCalls.isEmpty then none
      else some (.list (turn.toolCalls.map fun call => call.slot.toMessage))⟩ := rfl

/-- **A streamed turn** is put together from its deltas. -/
theorem sees_readStream (reply : ScriptedReply chat.outer.loads) :
    Ensures ChatState.seen (chat.scripted.readStream (reply.lines.map pure)) r
      (fun x r' => Taken reply.turn true x ∧ r' = r.take chat.scripted.bufferOutput reply.turn)
      E := by
  refine .bind (sees_streamEvents reply.carries collected_nil) ?_
  rintro acc r₁ ⟨collected, rfl⟩
  rw [List.nil_append] at collected
  have content := collected.content
  have reasoning := collected.reasoning
  have finish := collected.finish
  rw [reply.splits.content] at content ⊢
  rw [reply.splits.reasoning] at reasoning
  rw [reply.splits.finish] at finish
  refine .value_bind reasoning ?_
  refine .bind (sees_noteReasoning (told_str _)) fun _ r₂ same => ?_
  rw [Seen.arrive_think] at same
  refine .value_bind content ?_
  obtain ⟨length, calls⟩ := assembled_calls collected.calls reply.splits
  rw [content_of_prose]
  refine .ite (fun none => ?_) fun some => ?_
  · refine .pure ⟨⟨?_, finish, rfl⟩, same⟩
    have empty : reply.turn.toolCalls.isEmpty = true := by
      rw [List.isEmpty_iff] at none
      rw [List.isEmpty_iff, ← List.length_eq_zero_iff, ← length, none, List.length_nil]
    rw [message_streamed, empty]
    rfl
  · refine .value_bind calls (.pure ⟨⟨?_, finish, rfl⟩, same⟩)
    have full : ¬ reply.turn.toolCalls.isEmpty = true := by
      rw [List.isEmpty_iff, ← List.length_eq_zero_iff] at some ⊢
      rwa [← length]
    rw [message_streamed, if_neg full]

theorem or_dict (entries : List (String × PyVal)) :
    (PyVal.dict entries).or (.dict []) = .dict entries := by
  cases entries <;> rfl

theorem or_calls {value : PyVal} {calls : List PyVal}
    (listed : value.or (.list []) = .list calls) :
    (if value.truthy then some value else none) =
      if calls.isEmpty then none else some (.list calls) := by
  unfold PyVal.or at listed
  split at listed
  · next truthy =>
    subst listed
    rw [if_pos truthy]
    cases calls with
    | nil => cases truthy
    | cons => rfl
  · next falsy =>
    cases listed
    rw [if_neg falsy]
    rfl

/-- **A turn that is not streamed** is read off the completion. -/
theorem sees_readJson {turn : AssistantTurn} {body : PyVal} (whole : turn.Whole body) :
    Ensures ChatState.seen (chat.scripted.readJson body) r
      (fun x r' => Taken turn false x ∧ r' = r.take chat.scripted.bufferOutput turn) E := by
  obtain ⟨entries, choice, message, more, choices, finish, present, reasoning, content, calls⟩ :=
    whole
  have prose : Says (fieldOf message "content") turn.prose := by
    rw [content]
    rcases turn.prose_cases with ⟨empty, value⟩ | ⟨some, value⟩
    · rw [value, empty]
      rfl
    · rw [value]
      exact told_str _
  refine sees_raw_bind ?_
  refine .value_bind (firstChoice_list choices) ?_
  refine .value_bind (get_dict choice _) ?_
  rw [present, or_dict]
  refine .value_bind (get_dict message _) ?_
  rw [reasoning]
  refine .bind (sees_noteReasoning (told_str _)) fun _ r₁ same => ?_
  subst same
  refine .bind (sees_yieldReasoning _) fun _ r₂ same => ?_
  subst same
  refine .value_bind (get_dict message _) ?_
  refine .value_bind (get_dict message _) ?_
  rw [prose]
  refine .bind (sees_passThrough (told_str _)) fun _ r₃ same => ?_
  refine .value_bind (get_dict choice _) (.pure ⟨⟨?_, finish, rfl⟩, same⟩)
  rw [or_calls calls, content, List.isEmpty_map]
  rfl

end

/-! ## A script for samples -/

/-- The model calls `lookup`, with this id and content. -/
def lookupTurn (id : String) (content : Option String) (content_ne : content ≠ some "") :
    AssistantTurn :=
  ⟨none, content, content_ne, [⟨id, "lookup", "{}"⟩], "tool_calls"⟩

/-- The model answers "42". -/
def answerTurn : AssistantTurn := ⟨none, "42", by decide, [], "stop"⟩

/-- `json.loads` on the arguments and events that occur here. -/
def loadsLookup (text : String) : Except Exn PyVal :=
  if text = "{}" then .ok (.dict [])
  else if text = "silent" then .ok (lookupTurn "c1" none (by decide)).event
  else if text = "talking" then .ok (lookupTurn "c1" "Let me check. " (by decide)).event
  else if text = "nameless" then .ok (lookupTurn "" none (by decide)).event
  else if text = "answer" then .ok answerTurn.event
  else .error ⟨.valueError, "JSONDecodeError", "Expecting value"⟩

/-- The computation returns, in a state that passes a check. -/
def returnsIn {ε σ α : Type} (check : σ → Bool) : EStateM.Result ε σ α → Bool
  | .ok _ s => check s
  | .error _ _ => false

theorem ok_of_returnsIn {ε σ α : Type} {check : σ → Bool} {r : EStateM.Result ε σ α}
    (returns : returnsIn check r = true) : ∃ a s, r = .ok a s ∧ check s = true := by
  cases r with
  | ok a s => exact ⟨a, s, rfl, returns⟩
  | error e s => cases returns

/-- An agent with one tool, and these guards. -/
def lookupChat (profile : Option (GuardProfile Unit)) : OumiGoChat Unit where
  agent := ⟨"any-model", ⟨[("lookup", ⟨fun _ => pure (.str "42"), "lookup", "", .dict []⟩)],
    List.nodup_singleton _⟩, 2, Nat.zero_lt_two, [], profile⟩
  system := none
  maxHistoryTurns := 3
  url := "http://manager/v1/chat/completions"
  headers := []
  turnTimeout := none
  stallTimeout := none
  outer := {
    post := fun _ => throw ⟨.exception, "ConnectError", ""⟩
    stream := fun _ => throw ⟨.exception, "ConnectError", ""⟩
    monotonic := pure 0
    loads := loadsLookup
    dumps := fun _ => pure "null"
    repr := PyVal.typeName
    resume := fun _ _ => pure () }

def silentReply : ScriptedReply loadsLookup :=
  .ofTurn (lookupTurn "c1" none (by decide)) "silent" (by decide +kernel) (by rfl)

def talkingReply : ScriptedReply loadsLookup :=
  .ofTurn (lookupTurn "c1" "Let me check. " (by decide)) "talking" (by decide +kernel) (by rfl)

/-- The id of the call is empty. -/
def namelessReply : ScriptedReply loadsLookup :=
  .ofTurn (lookupTurn "" none (by decide)) "nameless" (by decide +kernel) (by rfl)

def answerReply : ScriptedReply loadsLookup :=
  .ofTurn answerTurn "answer" (by decide +kernel) (by rfl)

/-- A new chat before this script. -/
def beforeScript (script : List (ScriptedReply loadsLookup)) :
    ChatState (DataPlane Unit loadsLookup) :=
  ⟨⟨(), script, []⟩, [], none, [], {}, 0, ⟨0, [], ⟨.user, "", none⟩⟩, [], []⟩

end Oumigo
