import Oumigo.Agent.Script
import Oumigo.Worker.Streaming

/-!
# A chat with the transformer backend

The frames of a chat completion that `hf_server.py` streams to its end, cut into lines and read by
`_stream_turn`, give the turn whose text is the pieces put together; and its payload of the same
text, read by `_json_turn`, gives that turn too.
-/

namespace Oumigo

open Python Effect

/-! ## Frames and lines -/

/-- What `json.dumps` writes for `v` is one line, and `json.loads` reads it back. -/
structure Prints (dumps : PyVal → String) (loads : String → Except Exn PyVal) (v : PyVal) :
    Prop where
  reads : loads (dumps v) = .ok v
  whole : ∀ c ∈ (dumps v).toList, isLineBreak c = false
  stripped : strip (" " ++ dumps v) = dumps v
  object : dumps v ≠ "[DONE]"

theorem linesOf_frame {text : String} {rest : List Char}
    (whole : ∀ c ∈ text.toList, isLineBreak c = false) :
    linesOf (("data: " ++ text ++ "\n\n").toList ++ rest) =
      ("data: " ++ text).toList :: [] :: linesOf rest := by
  have shape : ("data: " ++ text ++ "\n\n").toList ++ rest =
      ("data: " ++ text).toList ++ '\n' :: ([] ++ '\n' :: rest) := by
    simp
  have unbroken : ∀ c ∈ ("data: " ++ text).toList, isLineBreak c = false := by
    intro c member
    rw [String.toList_append] at member
    rcases List.mem_append.mp member with front | inside
    · have plain : ("data: ".toList.all fun c => !isLineBreak c) = true := by decide
      simpa using List.all_eq_true.mp plain c front
    · exact whole c inside
  rw [shape, linesOf_append unbroken, linesOf_append (by simp)]

/-- A stream of frames, line by line. -/
theorem splitlines_frames {texts : List String}
    (whole : ∀ text ∈ texts, ∀ c ∈ text.toList, isLineBreak c = false) :
    splitlines (String.join (texts.map fun text => "data: " ++ text ++ "\n\n")) =
      texts.flatMap fun text => ["data: " ++ text, ""] := by
  induction texts with
  | nil => rfl
  | cons text rest ih =>
    have later := ih fun t member => whole t (List.mem_cons_of_mem _ member)
    unfold splitlines at later ⊢
    rw [List.map_cons, String.join_cons, String.toList_append,
      linesOf_frame (whole text List.mem_cons_self), List.map_cons, List.map_cons, later,
      String.ofList_toList, List.flatMap_cons]
    rfl

/-! ## The turn -/

/-- The turn that says a text and no more. -/
def proseTurn (text : String) : AssistantTurn where
  reasoning := none
  content := if text = "" then none else some text
  content_ne := by split <;> simp_all
  toolCalls := []
  finish := some "stop"

theorem prose_proseTurn (text : String) : (proseTurn text).prose = text := by
  unfold AssistantTurn.prose proseTurn
  by_cases empty : text = "" <;> simp [empty]

namespace HFStream

variable (server : HFServer) (s : HFStream)

/-- What the chunks of a chat add to the turn. -/
def chunks : List Chunk :=
  ({} : Chunk) :: (s.pieces.map (fun piece => ({ content := piece } : Chunk)) ++
    ({ finish := "stop" } : Chunk) :: (s.usageValues server).map fun _ => ({} : Chunk))

variable {server s}

/-- A chunk of a chat shows its delta. -/
theorem shows_chatChunk {chunk : Chunk} {cid : String} {created : Int} {model finish : PyVal}
    {delta : List (String × PyVal)} (silent : chunk.reasoning = "") (calls : chunk.calls = [])
    (reason : Says finish chunk.finish) (content : Says (fieldOf delta "content") chunk.content)
    (thought : fieldOf delta "reasoning_content" = .none)
    (tools : fieldOf delta "tool_calls" = .none) :
    Shows chunk (chatChunk cid created model delta finish) := by
  refine .delta chunk _ [("index", .int 0), ("delta", .dict delta), ("finish_reason", finish)]
    delta [] [] rfl reason ?_ ?_ content ?_ ?_
  · cases delta <;> rfl
  · rw [thought, silent]
    rfl
  · rw [tools]
    rfl
  · rw [calls]
    exact .nil

theorem shows_values (chat : s.chat = true) :
    List.Forall₂ Shows (s.chunks server) (s.values server) := by
  have role : s.roleValues =
      [chatChunk s.cid s.created s.model [("role", .str "assistant")] .none] := if_pos chat
  have piece (text : String) : s.pieceValue text =
      chatChunk s.cid s.created s.model [("content", .str text)] .none := if_pos chat
  have finish : s.finishValue = chatChunk s.cid s.created s.model [] (.str "stop") := if_pos chat
  unfold chunks values textValues
  rw [role, finish, List.append_assoc]
  have stops : Shows ({ finish := "stop" } : Chunk)
      (chatChunk s.cid s.created s.model [] (.str "stop")) :=
    shows_chatChunk rfl rfl (told_str _) rfl rfl rfl
  have texts : List.Forall₂ Shows (s.pieces.map fun piece => ({ content := piece } : Chunk))
      (s.pieces.map s.pieceValue) := by
    rw [List.forall₂_map_left_iff, List.forall₂_map_right_iff, List.forall₂_same]
    intro text _
    rw [piece]
    exact shows_chatChunk rfl rfl rfl (told_str text) rfl rfl
  have usage : List.Forall₂ Shows ((s.usageValues server).map fun _ => ({} : Chunk))
      (s.usageValues server) := by
    rw [List.forall₂_map_left_iff, List.forall₂_same]
    intro value member
    unfold usageValues at member
    split at member
    · rw [List.mem_singleton.mp member]
      exact .usage _ rfl
    · cases member
  exact .cons (shows_chatChunk rfl rfl rfl rfl rfl rfl)
    (List.rel_append texts (.cons stops usage))

theorem lastSaid_silent {texts : List String} (before : List String)
    (silent : ∀ text ∈ texts, text = "") : lastSaid (before ++ texts) = lastSaid before := by
  induction texts using List.reverseRecOn with
  | nil => rw [List.append_nil]
  | append_singleton texts text ih =>
    rw [← List.append_assoc, lastSaid_append, if_pos (silent text (by simp))]
    exact ih fun text member => silent text (List.mem_append_left _ member)

theorem join_silent {texts : List String} (silent : ∀ text ∈ texts, text = "") :
    String.join texts = "" := by
  induction texts with
  | nil => rfl
  | cons text texts ih =>
    rw [String.join_cons, silent text List.mem_cons_self, String.empty_append]
    exact ih fun text member => silent text (List.mem_cons_of_mem _ member)

/-- The chunks make the turn of the pieces put together. -/
theorem splits_chunks : (proseTurn (String.join s.pieces)).Splits (s.chunks server) := by
  have usage (f : Chunk → String) (empty : f {} = "") :
      ∀ text ∈ ((s.usageValues server).map fun _ => ({} : Chunk)).map f, text = "" := by
    intro text member
    rw [List.map_map] at member
    obtain ⟨value, -, rfl⟩ := List.mem_map.mp member
    exact empty
  have calls : (s.chunks server).flatMap Chunk.calls = [] := by
    rw [List.flatMap_eq_nil_iff]
    intro chunk member
    simp only [chunks, List.mem_cons, List.mem_append, List.mem_map] at member
    rcases member with rfl | ⟨piece, -, rfl⟩ | rfl | ⟨value, -, rfl⟩ <;> rfl
  have texts (f : Chunk → String) : (s.chunks server).map f =
      f {} :: (s.pieces.map (fun piece => f { content := piece }) ++
        f { finish := "stop" } :: ((s.usageValues server).map fun _ => ({} : Chunk)).map f) := by
    simp [chunks, Function.comp_def]
  refine ⟨?_, ?_, ?_, ?_, ?_⟩
  · rw [texts]
    apply join_silent
    intro text member
    simp only [List.mem_cons, List.mem_append, List.mem_map] at member
    rcases member with rfl | ⟨piece, -, rfl⟩ | rfl | ⟨chunk, ⟨value, -, rfl⟩, rfl⟩ <;> rfl
  · rw [texts, String.join_cons, String.join_append, String.join_cons,
      join_silent (usage Chunk.content rfl), prose_proseTurn]
    simp
  · have before (front : List String) : lastSaid (front ++ "stop" ::
        ((s.usageValues server).map fun _ => ({} : Chunk)).map Chunk.finish) = "stop" := by
      rw [← List.singleton_append, ← List.append_assoc,
        lastSaid_silent _ (usage Chunk.finish rfl), lastSaid_append, if_neg (by decide)]
    rw [texts, ← List.cons_append]
    exact before _
  · rw [calls]
    exact fun delta member => nomatch member
  · exact fun i call found => nomatch found

/-- The lines of the frames carry the chunks. -/
theorem carries_frames {dumps : PyVal → String} {loads : String → Except Exn PyVal}
    {chunks : List Chunk} {values : List PyVal} (shows : List.Forall₂ Shows chunks values)
    (prints : ∀ v ∈ values, Prints dumps loads v) :
    Carries loads ((values.map dumps ++ ["[DONE]"]).flatMap fun text => ["data: " ++ text, ""])
      chunks := by
  induction shows with
  | nil => exact .done " [DONE]" [""] (by decide)
  | @cons chunk v chunks values first rest ih =>
    have printed := prints v List.mem_cons_self
    have later := ih fun v member => prints v (List.mem_cons_of_mem _ member)
    have line : "data: " ++ dumps v = "data:" ++ (" " ++ dumps v) := by
      rw [← String.append_assoc]
      rfl
    rw [List.map_cons, List.cons_append, List.flatMap_cons, line]
    refine .event (" " ++ dumps v) v ?_ ?_ first (.comment "" (by decide) later)
    · rw [printed.stripped]
      exact printed.object
    · rw [printed.stripped]
      exact printed.reads

end HFStream

/-- The payload of a text that is not empty is the whole turn. -/
theorem whole_chatPayload {text : String} (some : text ≠ "") (id : String) (created : Int)
    (model : PyVal) (pToks cToks : Int) :
    (proseTurn text).Whole (chatPayload id text created model pToks cToks) := by
  refine .completion _ [("index", .int 0),
    ("message", .dict [("role", .str "assistant"), ("content", .str text)]),
    ("finish_reason", .str "stop")] [("role", .str "assistant"), ("content", .str text)] []
    rfl (told_str _) rfl rfl ?_ rfl
  simp only [AssistantTurn.contentValue, proseTurn, if_neg some]
  rfl

/-- A stream that came to its end and its lines, beside the payload of a turn: a reply that a chat
reads. -/
def HFStream.reply {server : HFServer} {loads : String → Except Exn PyVal} (s : HFStream)
    (chat : s.chat = true) (prints : ∀ v ∈ s.values server, Prints server.dumps loads v) :
    ScriptedReply loads where
  turn := proseTurn (String.join s.pieces)
  body := (proseTurn (String.join s.pieces)).body
  lines := ((s.values server).map server.dumps ++ ["[DONE]"]).flatMap fun text =>
    ["data: " ++ text, ""]
  chunks := s.chunks server
  whole := (proseTurn (String.join s.pieces)).whole_body
  carries := HFStream.carries_frames (HFStream.shows_values chat) prints
  splits := HFStream.splits_chunks

/-- The consumer's text, line by line. -/
theorem HFStream.splitlines_sent {server : HFServer} {loads : String → Except Exn PyVal}
    {s : HFStream} (whole : s.sent = s.frames server)
    (prints : ∀ v ∈ s.values server, Prints server.dumps loads v) :
    splitlines (String.join s.sent) =
      ((s.values server).map server.dumps ++ ["[DONE]"]).flatMap fun text =>
        ["data: " ++ text, ""] := by
  have texts : s.sent = ((s.values server).map server.dumps ++ ["[DONE]"]).map
      fun text => "data: " ++ text ++ "\n\n" := by
    rw [whole, frames, List.map_append, List.map_map]
    rfl
  rw [texts]
  apply splitlines_frames
  intro text member
  rcases List.mem_append.mp member with printed | done
  · obtain ⟨v, value, rfl⟩ := List.mem_map.mp printed
    exact (prints v value).whole
  · rw [List.mem_singleton.mp done]
    have plain : ("[DONE]".toList.all fun c => !isLineBreak c) = true := by decide
    intro c inside
    simpa using List.all_eq_true.mp plain c inside

open HFState in
/-- **A stream of the backend says what its pieces say.**  In every state that any interleaving of
the backend's requests reaches, and for every chat stream there:

* while it runs, and if it was aborted, what its consumer took is a front of its frames, and
  neither the reason nor `[DONE]` is among them before the engine has given its last piece;
* if it came to its end, a chat that reads the consumer's text line by line takes the turn whose
  prose is the pieces put together, with reason `stop` and no tool call, and has yielded that
  prose; and the payload of the same text, if it is not empty, is the same turn whole. -/
theorem hf_stream_read {V : Type} {chat : OumiGoChat V} {server : HFServer} {s : HFState}
    (reached : (hfSystem server).Reachable s) :
    (∀ st, .stream st ∈ s.requests ∨ .aborted (some st) ∈ s.requests →
      st.sent <+: st.frames server ∧
        (st.pc ≠ .closing → st.sent <+: st.textValues.map server.sse)) ∧
    ∀ served st, .streamed served st ∈ s.requests → st.chat = true →
      (∀ v ∈ st.values server, Prints server.dumps chat.outer.loads v) →
      (∀ r E, Ensures ChatState.seen
        (chat.scripted.readStream ((splitlines (String.join st.sent)).map pure)) r
        (fun x r' => Taken (proseTurn (String.join st.pieces)) true x ∧
          r' = r.take chat.scripted.bufferOutput (proseTurn (String.join st.pieces))) E) ∧
      (String.join st.pieces ≠ "" → ∀ id created model pToks cToks r E,
        Ensures ChatState.seen (chat.scripted.readJson
          (chatPayload id (String.join st.pieces) created model pToks cToks)) r
        (fun x r' => Taken (proseTurn (String.join st.pieces)) false x ∧
          r' = r.take chat.scripted.bufferOutput (proseTurn (String.join st.pieces))) E) := by
  have framed := allFramed_of_reachable reached
  refine ⟨fun st known => ?_, fun served st known chatty prints => ⟨fun r E => ?_, ?_⟩⟩
  · have here : st.Framed server := by
      rcases known with known | known
      · exact framed _ known
      · exact framed _ known
    exact ⟨here.sent_prefix, here.sent_early⟩
  · obtain ⟨-, sent⟩ := framed _ known
    rw [HFStream.splitlines_sent sent prints]
    exact sees_readStream (st.reply chatty prints)
  · intro some id created model pToks cToks r E
    exact sees_readJson (whole_chatPayload some id created model pToks cToks)

/-! ## One stream -/

/-- The chunks of a stream of one piece, as JSON. -/
def oneText (delta finish : String) : String :=
  "\x7b" ++ ("\"id\": \"chatcmpl-hf-1\", \"object\": \"chat.completion.chunk\", " ++
    "\"created\": 0, \"model\": \"m\", \"choices\": [\x7b\"index\": 0, \"delta\": " ++ delta ++
    ", \"finish_reason\": " ++ finish ++ "\x7d]") ++ "\x7d"

def oneChunk (delta : List (String × PyVal)) (finish : PyVal) : PyVal :=
  chatChunk "chatcmpl-hf-1" 0 (.str "m") delta finish

/-- The chunks of this stream, by their JSON. -/
def oneTable : Dict String PyVal where
  entries := [(oneText "\x7b\"role\": \"assistant\"\x7d" "null",
      oneChunk [("role", .str "assistant")] .none),
    (oneText "\x7b\"content\": \"hi\"\x7d" "null", oneChunk [("content", .str "hi")] .none),
    (oneText "\x7b\x7d" "\"stop\"", oneChunk [] (.str "stop"))]
  nodup := by decide +kernel

/-- `json.dumps` of these chunks. -/
def oneDumps : PyVal → String
  | .dict [_, _, _, _, (_, .list [.dict [_, (_, .dict [(key, _)]), _]])] =>
      if key = "role" then oneText "\x7b\"role\": \"assistant\"\x7d" "null"
      else oneText "\x7b\"content\": \"hi\"\x7d" "null"
  | _ => oneText "\x7b\x7d" "\"stop\""

/-- `json.loads` of these texts. -/
def oneLoads (text : String) : Except Exn PyVal :=
  (oneTable.get? text).elim (.error ⟨.valueError, "JSONDecodeError", "Expecting value"⟩) .ok

/-- An object keeps its braces, and loses the space before it. -/
theorem strip_object (inner : String) :
    strip (" " ++ ("\x7b" ++ inner ++ "\x7d")) = "\x7b" ++ inner ++ "\x7d" := by
  have opened : isSpace '\x7b' = false := by decide
  have closed : isSpace '\x7d' = false := by decide
  have blank : isSpace ' ' = true := by decide
  apply String.toList_inj.mp
  simp [strip, opened, closed, blank]

theorem whole_oneText {delta finish : String}
    (first : (delta.toList.all (!isLineBreak ·)) = true)
    (last : (finish.toList.all (!isLineBreak ·)) = true) :
    ((oneText delta finish).toList.all (!isLineBreak ·)) = true := by
  simp only [oneText, String.toList_append, List.all_append, first, last, Bool.and_true,
    Bool.and_eq_true]
  decide +kernel

/-- The chunks are printed on one line and read back. -/
theorem prints_one : ∀ entry ∈ oneTable.entries, Prints oneDumps oneLoads entry.2 := by
  intro entry member
  obtain ⟨delta, finish, first, last, text, printed⟩ : ∃ delta finish,
      (delta.toList.all (!isLineBreak ·)) = true ∧ (finish.toList.all (!isLineBreak ·)) = true ∧
        entry.1 = oneText delta finish ∧ oneDumps entry.2 = oneText delta finish := by
    simp only [oneTable, List.mem_cons, List.not_mem_nil, or_false] at member
    rcases member with rfl | rfl | rfl <;>
      exact ⟨_, _, by simp [isLineBreak], by simp [isLineBreak], rfl, rfl⟩
  refine ⟨?_, ?_, ?_, ?_⟩
  · unfold oneLoads
    rw [printed, ← text, oneTable.mem_entries.mp member]
    rfl
  · rw [printed]
    simpa using whole_oneText first last
  · rw [printed]
    exact strip_object _
  · intro same
    have braced := congrArg (fun text : String => text.toList.head?) (printed.symm.trans same)
    simp [oneText] at braced

def oneServer : HFServer := ⟨"m", fun _ => 1, oneDumps⟩

/-- A request for a stream, which the engine answers with one piece. -/
def oneStream : List HFEvent :=
  [.request (.dict [("stream", .bool true)]) true, .begins 0 "1" 0 5, .taken 0, .piece 0 "hi",
    .taken 0, .exhausted 0, .joined 0, .taken 0, .taken 0, .finishes 0 2]

/-- The stream at its end. -/
def oneSent : HFStream :=
  ⟨true, .str "m", false, "chatcmpl-hf-1", 0, 5, ["hi"], .closing, [],
    oneTable.entries.map (fun entry => oneServer.sse entry.2) ++ [HFStream.doneFrame]⟩

/-- A chat whose `json.loads` reads this stream. -/
def oneChat : OumiGoChat Unit :=
  { lookupChat none with outer := { (lookupChat none).outer with loads := oneLoads } }

theorem run_oneStream : ∃ s, (hfSystem oneServer).run ⟨{}, []⟩ oneStream = some s ∧
    s.requests = [.streamed ⟨2, 5, 1⟩ oneSent] := by
  have requests : ((hfSystem oneServer).run ⟨{}, []⟩ oneStream).map (·.requests) =
      some [.streamed ⟨2, 5, 1⟩ oneSent] := by
    rfl
  exact Option.map_eq_some_iff.mp requests

/-- A chat that reads this stream says its piece. -/
theorem hf_stream_read_one : ∃ s, (hfSystem oneServer).run ⟨{}, []⟩ oneStream = some s ∧
    ∀ r E, Ensures ChatState.seen
      (oneChat.scripted.readStream ((splitlines (String.join oneSent.sent)).map pure)) r
      (fun x r' => Taken (proseTurn "hi") true x ∧
        r' = r.take oneChat.scripted.bufferOutput (proseTurn "hi")) E := by
  obtain ⟨s, steps, requests⟩ := run_oneStream
  have known : .streamed ⟨2, 5, 1⟩ oneSent ∈ s.requests := by
    rw [requests]
    exact List.mem_cons_self
  have prints : ∀ v ∈ oneSent.values oneServer, Prints oneServer.dumps oneChat.outer.loads v := by
    have values : oneSent.values oneServer = oneTable.entries.map Prod.snd := rfl
    intro v member
    rw [values] at member
    obtain ⟨entry, inside, rfl⟩ := List.mem_map.mp member
    exact prints_one entry inside
  have said : String.join oneSent.pieces = "hi" := by decide
  obtain ⟨reads, -⟩ := (hf_stream_read (.of_run rfl steps)).2 _ _ known rfl prints
  rw [said] at reads
  exact ⟨s, steps, @reads⟩

end Oumigo
