import Oumigo.Foundation.Transition
import Oumigo.Agent.Steps

/-!
# A chat over its requests

A session is a chat with the requests made on it one after the other.  Each request
may end with an exception; the chat stays usable.  Between requests the world may
change in any way.  `session_kept`: every event of every session is due.
-/

namespace Oumigo

open Python Trace Effect

variable {W : Type} {chat : OumiGoChat W} {P : Turn → List Event → Prop} {r₀ r r' : Record}

/-! ## What a turn leaves behind -/

/-- A turn of `user` is over: the chat may remember it, and an answer. -/
structure Closed (chat : OumiGoChat W) (P : Turn → List Event → Prop) (r₀ : Record) (user : Entry)
    (r : Record) : Prop where
  requests : r.requests = r₀.requests
  withheld : r.withheld = r₀.withheld
  output : r.output = replay r.trace
  course : Justified (Due chat P) r.trace
  history : ∀ entry ∈ r.history, entry ∈ r₀.history ∨
    chat.maxHistoryTurns ≠ 0 ∧ (entry = user ∨ entry.origin = none)

/-- The turn returned, and a chat with memory has remembered it. -/
structure Done (chat : OumiGoChat W) (P : Turn → List Event → Prop) (r₀ : Record) (user : Entry)
    (r : Record) : Prop extends Closed chat P r₀ user r where
  remembered : chat.maxHistoryTurns ≠ 0 → user ∈ r.history

theorem Running.closed (running : Running chat P r₀ r) (user : Entry) :
    Closed chat P r₀ user r :=
  ⟨running.requests, running.withheld, running.output, running.course,
    fun _ member => Or.inl (running.history ▸ member)⟩

/-- What every closed turn gives holds however the turn ends. -/
theorem of_closed {α : Type} {m : ChatM W α} {user : Entry} {I : Record → Prop}
    (turn : Ensures ChatState.record m r (fun _ => Done chat P r₀ user) (Closed chat P r₀ user))
    (gives : ∀ r', Closed chat P r₀ user r' → I r') :
    Ensures ChatState.record m r (fun _ => I) I :=
  turn.mono (fun _ r' done => gives r' done.toClosed) gives

theorem mem_trimHistory {history : List Entry} {entry : Entry}
    (member : entry ∈ chat.trimHistory history) : entry ∈ history := by
  unfold OumiGoChat.trimHistory at member
  dsimp only at member
  split at member
  · cases member
  · split at member
    · exact List.mem_of_mem_drop member
    · exact member

/-- The latest exchange survives the trimming. -/
theorem mem_trimHistory_latest (memory : chat.maxHistoryTurns ≠ 0) (history : List Entry)
    (user answer : Entry) : user ∈ chat.trimHistory (history ++ [user, answer]) := by
  unfold OumiGoChat.trimHistory
  dsimp only
  rw [if_neg (by omega)]
  split
  · have recent : (history ++ [user, answer]).length - 2 * chat.maxHistoryTurns ≤
        history.length := by
      rw [List.length_append]
      simp only [List.length_cons, List.length_nil]
      omega
    rw [List.drop_append_of_le_length recent]
    exact List.mem_append_right _ List.mem_cons_self
  · exact List.mem_append_right _ List.mem_cons_self

theorem keeps_remember (running : Running chat P r₀ r) (user : Entry) (answer : String) :
    Ensures ChatState.record (chat.remember user answer) r (fun _ => Done chat P r₀ user)
      (Closed chat P r₀ user) := by
  refine .ite (fun forgets => ?_) fun memory => ?_
  · exact .pure ⟨running.closed user, fun memory => absurd forgets memory⟩
  refine .update (g := fun r => { r with
    history := chat.trimHistory (r.history ++ [user, ⟨.assistant, answer, none⟩]) })
    (fun _ => rfl) ⟨⟨running.requests, running.withheld, running.output, running.course,
      fun entry member => ?_⟩, fun _ => mem_trimHistory_latest memory r.history _ _⟩
  rcases List.mem_append.mp (mem_trimHistory member) with old | new
  · exact Or.inl (running.history ▸ old)
  · rcases List.mem_pair.mp new with rfl | rfl
    · exact Or.inr ⟨memory, Or.inl rfl⟩
    · exact Or.inr ⟨memory, Or.inr rfl⟩

theorem keeps_markTimeout (running : Running chat P r₀ r) (reason : PyVal) :
    Keeps chat P r₀ (chat.markTimeout reason) r fun _ => Running chat P r₀ := by
  refine .ite (fun _ => ?_) fun _ => .pure running
  have due : Due chat P (.released .timeout timeoutText) r.trace := fun prose => nomatch prose
  exact (keeps_answer running due).mono (fun _ _ resting => resting.toRunning) fun _ => id

theorem keeps_finishTurn (resting : Resting chat P r₀ r) (allowed : Allowed P r₀) (user : Entry)
    (stream : Bool) :
    Ensures ChatState.record (chat.finishTurn user stream) r (fun _ => Done chat P r₀ user)
      (Closed chat P r₀ user) := by
  have closed := resting.toRunning.closed user
  refine .silent_bind (silent_armDeadline (silent_outside _) fun _ _ => rfl) closed fun _ => ?_
  refine .bind ((keeps_turns resting allowed stream _).mono (fun _ _ => id)
    fun _ running => running.closed user) fun reason r₁ running => ?_
  refine .bind ((keeps_markTimeout running reason).mono (fun _ _ => id)
    fun _ running => running.closed user) fun _ r₂ running => ?_
  refine .silent_bind (silent_withResponse fun _ => rfl) (running.closed user) fun _ => ?_
  exact .get_bind fun s _ => keeps_remember running user s.resp.text

/-! ## The message of the request -/

namespace Record

/-- The text of the turn's request is withheld. -/
def withhold (r : Record) : Record := { r with withheld := r.turn.index :: r.withheld }

/-- The turn goes on with another message of its own. -/
def own (r : Record) (user : Entry) : Record := { r with turn := { r.turn with own := user } }

end Record

theorem adopted_input (content : PyVal) (text : String) :
    adopted .userInput content (.str text) = .str (content.str?.getD text) := by
  cases content <;> rfl

theorem keeps_refuse (running : Running chat P r₀ r) (user : Entry) (verdict : Verdict) :
    Ensures ChatState.record (chat.refuse user verdict) r
      (fun _ => Done chat P r.withhold user) (Closed chat P r.withhold user) := by
  have start : Running chat P r.withhold r.withhold := .start running.output running.course
  refine .update_bind (g := Record.withhold) (fun _ => rfl) ?_
  refine .bind ((keeps_halt start verdict).mono (fun _ _ => id)
    fun _ running => running.closed user) fun _ r₁ resting => ?_
  refine .silent_bind (silent_withResponse fun _ => rfl) (resting.toRunning.closed user) fun _ => ?_
  exact .get_bind fun s _ => keeps_remember resting.toRunning user s.resp.text

/-- The event that `user` has the message of the turn. -/
def Entry.proceeds (user : Entry) : Event := .proceeded .userInput (.str user.content)

theorem keeps_accept (running : Running chat P r₀ r) (user : Entry) (stream : Bool)
    (allowed : Allowed P (r.push user.proceeds)) (due : Due chat P user.proceeds r.trace) :
    Ensures ChatState.record (chat.accept user stream) r (fun _ => Done chat P r user)
      (Closed chat P r user) := by
  have start : Resting chat P (r.push user.proceeds) (r.push user.proceeds) :=
    ⟨.start running.output (.cons due running.course), rfl⟩
  refine ensures_note_bind ?_
  exact (keeps_finishTurn start allowed user stream).mono (fun _ _ done => { done with })
    fun _ closed => { closed with }

/-- The message a rewritten turn goes on with. -/
def rewritten (user : Entry) (contents : PyVal) : Entry :=
  (contents.str?.map fun s => ⟨.user, s, none⟩).getD user

theorem rewritten_content (user : Entry) (contents : PyVal) :
    (rewritten user contents).content = contents.str?.getD user.content := by
  cases contents <;> rfl

theorem keeps_rewrite (running : Running chat P r₀ r) (user : Entry) (contents : PyVal)
    (stream : Bool)
    (allowed : Allowed P ((r.withhold.own (rewritten user contents)).push
      (rewritten user contents).proceeds))
    (due : Due chat P (rewritten user contents).proceeds r.trace) :
    Ensures ChatState.record (chat.rewrite user contents stream) r
      (fun _ => Done chat P r.withhold (rewritten user contents))
      (Closed chat P r.withhold (rewritten user contents)) := by
  let next := (r.withhold.own (rewritten user contents)).push (rewritten user contents).proceeds
  have start : Resting chat P next next :=
    ⟨.start running.output (.cons due running.course), rfl⟩
  refine .update_bind (g := Record.withhold) (fun _ => rfl) ?_
  refine .update_bind (g := fun r => r.own (rewritten user contents)) (fun _ => rfl) ?_
  refine ensures_note_bind ?_
  refine ensures_replaceLast_bind ?_
  exact (keeps_finishTurn (start.withMessages _) allowed (rewritten user contents) stream).mono
    (fun _ _ done => { done with }) fun _ closed => { closed with }

/-! ## One request -/

/-- The message of the turn is the one that went on from `USER_INPUT`. -/
def SendsOwn (turn : Turn) (before : List Event) : Prop := turn.own.proceeds ∈ before

theorem allowed_own {user : Entry} (own : r.turn.own = user) :
    Allowed SendsOwn (r.push user.proceeds) := by
  intro trace grown
  refine grown.subset ?_
  change r.turn.own.proceeds ∈ user.proceeds :: r.trace
  rw [own]
  exact List.mem_cons_self

/-- What holds of a chat before and after each request. -/
structure Kept (chat : OumiGoChat W) (r : Record) : Prop where
  output : r.output = replay r.trace
  course : Justified (Due chat SendsOwn) r.trace

theorem Closed.kept {user : Entry} (closed : Closed chat SendsOwn r₀ user r) : Kept chat r :=
  ⟨closed.output, closed.course⟩

theorem keeps_run (kept : Kept chat r) {user : Entry} (own : r.turn.own = user) (stream : Bool) :
    Ensures ChatState.record (chat.run user stream) r (fun _ => Kept chat) (Kept chat) := by
  have running : Running chat SendsOwn r r := .start kept.output kept.course
  refine .bind ((keeps_guard running).mono (fun _ _ => id)
    fun _ running => ⟨running.output, running.course⟩) ?_
  rintro ⟨contents, verdict, flags⟩ r₁ consulted
  have running₁ := consulted.running running fun _ => due_screened (by decide) (by decide)
  have own₁ : r₁.turn.own = user := (congrArg Turn.own running₁.turn).trans own
  refine .silent_bind (silent_recordFlags _ _) ⟨running₁.output, running₁.course⟩ fun _ => ?_
  refine .ite (fun _ => ?_) fun passes => ?_
  · exact of_closed (keeps_refuse running₁ user verdict) fun _ closed => closed.kept
  · have due := consulted.proceeds (P := SendsOwn) passes
    refine .ite (fun same => ?_) fun _ => ?_
    · change contents.str? = some user.content at same
      rw [adopted_input, same] at due
      exact of_closed (keeps_accept running₁ user stream (allowed_own own₁) due)
        fun _ closed => closed.kept
    · rw [adopted_input, ← rewritten_content] at due
      exact of_closed (keeps_rewrite running₁ user contents stream (allowed_own rfl) due)
        fun _ closed => closed.kept

/-! ## All requests of a chat -/

/-- One call of `request`, in the world as it is then. -/
structure Ask (W : Type) where
  contents : PyVal
  stream : Bool
  world : W

/-- A chat and the requests made on it. -/
def session (chat : OumiGoChat W) : Transition.System (ChatState W) (Ask W) where
  init s := ∃ history world, chat.create history world = .ok s
  step s ask := some (final (chat.request ask.contents ask.stream) { s with world := ask.world })

theorem create_ok {history : List PyVal} {world : W} {s : ChatState W}
    (created : chat.create history world = .ok s) :
    ∃ entries, chat.normalizeHistory history = .ok entries ∧ s = ⟨world,
      chat.trimHistory entries, none, [], {}, 0, ⟨0, [], ⟨.user, "", none⟩⟩, [], []⟩ := by
  unfold OumiGoChat.create at created
  cases read : chat.normalizeHistory history with
  | error exn =>
    rw [read] at created
    cases created
  | ok entries =>
    rw [read] at created
    cases created
    exact ⟨entries, rfl, rfl⟩

theorem final_request (text : String) (stream : Bool) (s : ChatState W) :
    final (chat.request (.str text) stream) s =
      final (chat.run (chat.begin text s).turn.own stream) (chat.begin text s) := by
  unfold OumiGoChat.request
  rfl

/-- **Every event of every session is due**, and the response is what the events of the
request gave. -/
theorem session_kept {s : ChatState W} (reached : (session chat).Reachable s) :
    Kept chat s.record := by
  refine reached.invariant (I := fun s => Kept chat s.record)
    (fun s start => ?_) fun s ask s' kept _ run => ?_
  · obtain ⟨history, world, created⟩ := start
    obtain ⟨entries, -, rfl⟩ := create_ok created
    exact ⟨rfl, trivial⟩
  · cases run
    cases ask.contents with
    | str text =>
      rw [final_request]
      have begun : Kept chat (chat.begin text { s with world := ask.world }).record :=
        ⟨rfl, .cons trivial kept.course⟩
      exact (keeps_run begun rfl ask.stream).final rfl
    | _ => exact kept

/-! ## Chats with a scripted data plane -/

/-- The data plane answers from a script, which is the world. -/
def scripted : Surroundings (List PyVal) where
  post _ := fun replies => match replies with
    | reply :: rest => .ok ⟨200, "", .ok reply⟩ rest
    | [] => .error ⟨.exception, "ConnectError", "no more replies"⟩ []
  stream _ := throw ⟨.exception, "ConnectError", "not streamed"⟩
  monotonic := pure 0
  loads _ := .ok (.dict [])
  dumps _ := pure "null"
  repr value := value.typeName
  resume _ _ := pure ()

/-- A chat whose agent has one guard and up to two round-trips. -/
def scriptedChat (guard : Guard (List PyVal)) (tools : Dict String (Tool (List PyVal)))
    (maxHistoryTurns : Nat) : OumiGoChat (List PyVal) where
  agent := ⟨"any-model", tools, 2, by decide, [], some ⟨"default", [guard]⟩⟩
  system := none
  maxHistoryTurns := maxHistoryTurns
  url := "http://manager/v1/chat/completions"
  headers := []
  turnTimeout := none
  stallTimeout := none
  outer := scripted

/-- A guard at one point. -/
def guardAt (point : InterceptPoint) (decision : PyVal → Verdict) : Guard (List PyVal) where
  points := some [point]
  intercept _ ctx := pure (decision ctx.content)

def newChat : ChatState (List PyVal) :=
  ⟨[], [], none, [], {}, 0, ⟨0, [], ⟨.user, "", none⟩⟩, [], []⟩

theorem init_newChat {guard : Guard (List PyVal)} {tools : Dict String (Tool (List PyVal))}
    {maxHistoryTurns : Nat} :
    (session (scriptedChat guard tools maxHistoryTurns)).init newChat := by
  refine ⟨[], [], ?_⟩
  unfold OumiGoChat.create OumiGoChat.trimHistory
  dsimp only
  split <;> rfl

/-- A completion with one choice. -/
def completion (message : List (String × PyVal)) : PyVal :=
  .dict [("choices", .list [.dict [("message", .dict message), ("finish_reason", .str "stop")]])]

/-- A completion without tool calls. -/
def proseReply (text : String) : PyVal := completion [("content", .str text)]

/-- A completion that calls tool `name` without arguments. -/
def callReply (content : PyVal) (name : String) : PyVal :=
  completion [("content", content), ("tool_calls", .list [.dict [("id", .str "c1"),
    ("function", .dict [("name", .str name), ("arguments", .str "{}")])]])]

/-- A request that is not streamed, and the replies it will get. -/
def askWith (text : String) (replies : List PyVal) : Ask (List PyVal) :=
  ⟨.str text, false, replies⟩

end Oumigo
