import Oumigo.Foundation.Relational
import Oumigo.Agent.Session

/-!
# A chat kept, and a chat rebuilt for every message

`OumiGoChat.history` exports what a chat carries, and `create_chat(history=...)` takes it
back.  A server may keep one chat for a conversation, or create a fresh one per message from
the history the last one exported; `stateful_rehydrated` says that nobody can tell.

Two chats are twins when they differ at most in what no request reads: where an entry of the
history came from, how many requests there were, and, until a turn sets its own, the deadline.
-/

namespace Oumigo

open Python Effect

variable {W : Type}

/-! ## The two ways to hold a conversation -/

/-- `OumiGoChat.history`. -/
def ChatState.exported (s : ChatState W) : List PyVal := s.history.map Entry.toMessage

/-- The messages an event hands to the HTTP client. -/
def Event.sent? : Event → Option (List PyVal)
  | .sent _ messages => some messages
  | _ => none

/-- The messages handed to the HTTP client, newest first. -/
def sentMessages (trace : List Event) : List (List PyVal) := trace.filterMap Event.sent?

/-- A message of the conversation, and what its surroundings go through before it. -/
structure Message (W : Type) where
  contents : String
  stream : Bool
  meanwhile : W → W

/-- What can be told of one request. -/
structure Exchange where
  /-- the request bodies, in order -/
  bodies : List PyVal
  /-- whether the turn ran to its end, or the exception that ended it -/
  ending : Except Exn Unit
  response : OumiGoResponse
  /-- the history exported afterwards -/
  history : List PyVal

namespace OumiGoChat

variable (chat : OumiGoChat W)

/-- The chat that gets a message.  Its trace starts anew. -/
def receive (message : Message W) (s : ChatState W) : ChatState W :=
  { s with world := message.meanwhile s.world, trace := [] }

/-- What is told of a request that ended so. -/
def told (stream : Bool) : EStateM.Result Exn (ChatState W) Unit → Exchange
  | .ok _ s => ⟨(sentMessages s.trace).reverse.map (chat.payload · stream), .ok (), s.resp,
      s.exported⟩
  | .error exn s => ⟨(sentMessages s.trace).reverse.map (chat.payload · stream), .error exn,
      s.resp, s.exported⟩

/-- One message: what is told of it, and the chat after it. -/
def exchange (message : Message W) (s : ChatState W) : Exchange × ChatState W :=
  let turn := chat.request (.str message.contents) message.stream
  (chat.told message.stream (turn (receive message s)), final turn (receive message s))

/-- All messages on one chat. -/
def stateful : List (Message W) → ChatState W → List Exchange
  | [], _ => []
  | message :: rest, s =>
      let (told, s) := chat.exchange message s
      told :: stateful rest s

/-- A fresh chat for each message, from the history that the last one exported. -/
def rehydrated : List (Message W) → List PyVal → W → Except Exn (List Exchange)
  | [], _, _ => pure []
  | message :: rest, history, world => do
      let s ← chat.create history world
      let (told, s) := chat.exchange message s
      let more ← rehydrated rest told.history s.world
      pure (told :: more)

end OumiGoChat

/-! ## Twins -/

/-- What a request may read of a chat, besides its deadline. -/
structure Visible (W : Type) where
  world : W
  history : List PyVal
  messages : List PyVal
  resp : OumiGoResponse
  sent : List (List PyVal)

def ChatState.visible (s : ChatState W) : Visible W :=
  ⟨s.world, s.exported, s.messages, s.resp, sentMessages s.trace⟩

/-- The chats differ in what no request reads; their deadlines are related by `D`. -/
structure Twin (chat : OumiGoChat W) (D : Option Rat → Option Rat → Prop) (s s' : ChatState W) :
    Prop where
  visible : s.visible = s'.visible
  deadline : D s.deadline s'.deadline
  bounded : s.history.length ≤ 2 * chat.maxHistoryTurns

variable {chat : OumiGoChat W} {D : Option Rat → Option Rat → Prop}

section

variable {s s' : ChatState W} (twin : Twin chat D s s')

include twin

theorem Twin.world : s.world = s'.world := congrArg Visible.world twin.visible

theorem Twin.exported : s.exported = s'.exported := congrArg Visible.history twin.visible

theorem Twin.messages : s.messages = s'.messages := congrArg Visible.messages twin.visible

theorem Twin.resp : s.resp = s'.resp := congrArg Visible.resp twin.visible

theorem Twin.sent : sentMessages s.trace = sentMessages s'.trace :=
  congrArg Visible.sent twin.visible

end

/-- A change that both see alike, and that leaves history and deadline. -/
theorem twin_modify {f : ChatState W → ChatState W} {g : Visible W → Visible W}
    (moves : ∀ s, (f s).visible = g s.visible) (deadline : ∀ s, (f s).deadline = s.deadline)
    (history : ∀ s, (f s).history = s.history) :
    Steady (Twin chat D) (modify f : ChatM W Unit) := by
  refine .modify fun s s' twin => ⟨?_, ?_, ?_⟩
  · rw [moves, moves, twin.visible]
  · rw [deadline, deadline]
    exact twin.deadline
  · rw [history]
    exact twin.bounded

section

variable {α : Type}

theorem twin_outside (action : EStateM Exn W α) :
    Steady (Twin chat D) (outside action : ChatM W α) := by
  refine .zoom (fun _ _ twin => twin.world) (fun w s s' twin => ?_) action
  exact ⟨congrArg (fun v : Visible W => { v with world := w }) twin.visible, twin.deadline,
    twin.bounded⟩

/-- What a computation reads of the messages and the response is the same. -/
theorem twin_get {f : ChatState W → ChatM W α}
    (reads : ∀ s s', s.messages = s'.messages → s.resp = s'.resp → f s = f s')
    (rest : ∀ s, Steady (Twin chat D) (f s)) : Steady (Twin chat D) (get >>= f) := by
  refine Agree.get_bind fun s s' twin => ?_
  rw [reads s s' twin.messages twin.resp]
  exact rest s'

end

theorem twin_note {event : Event} (unsent : event.sent? = none) :
    Steady (Twin chat D) (note event : ChatM W Unit) := by
  refine twin_modify (g := id) (fun s => ?_) (fun _ => rfl) fun _ => rfl
  have same : sentMessages (event :: s.trace) = sentMessages s.trace :=
    List.filterMap_cons_none unsent
  exact congrArg (fun sent => { s.visible with sent := sent }) same

theorem twin_withResponse (change : OumiGoResponse → OumiGoResponse) :
    Steady (Twin chat D) (withResponse change : ChatM W Unit) :=
  twin_modify (g := fun v => { v with resp := change v.resp }) (fun _ => rfl) (fun _ => rfl)
    fun _ => rfl

theorem twin_recordFlags (point : InterceptPoint) (flags : List Verdict) :
    Steady (Twin chat D) (recordFlags point flags : ChatM W Unit) :=
  twin_withResponse _

theorem twin_appendMessage (message : PyVal) :
    Steady (Twin chat D) (appendMessage message : ChatM W Unit) :=
  twin_modify (g := fun v => { v with messages := v.messages ++ [message] }) (fun _ => rfl)
    (fun _ => rfl) fun _ => rfl

theorem twin_replaceLast (message : PyVal) :
    Steady (Twin chat D) (replaceLast message : ChatM W Unit) :=
  twin_modify (g := fun v => { v with messages := v.messages.dropLast ++ [message] })
    (fun _ => rfl) (fun _ => rfl) fun _ => rfl

theorem twin_setLastContent (content : PyVal) :
    Steady (Twin chat D) (setLastContent content : ChatM W Unit) := by
  refine twin_get (fun s s' messages _ => by simp only [messages]) fun s => ?_
  split
  · exact twin_replaceLast _
  · exact .throw _
  · exact .throw _

theorem twin_syncLast (text : Option String) (answer : PyVal) :
    Steady (Twin chat D) (syncLast text answer : ChatM W Unit) := by
  cases text with
  | some s => exact .ite (.pure _) (twin_setLastContent _)
  | none => exact .pure _

theorem twin_noteReasoning (text : PyVal) :
    Steady (Twin chat D) (noteReasoning text : ChatM W Unit) :=
  .ite (.bind (.lift _) fun _ => twin_withResponse _) (.pure _)

theorem twin_answer (source : PieceSource) (text : String) :
    Steady (Twin chat D) (chat.answer source text) :=
  .bind (twin_withResponse _) fun _ => .bind (twin_note rfl) fun _ => twin_outside _

theorem twin_releaseProse (text : PyVal) : Steady (Twin chat D) (chat.releaseProse text) :=
  .ite (.bind (.lift _) fun _ => twin_answer _ _) (.pure _)

theorem twin_passThrough (text : PyVal) : Steady (Twin chat D) (chat.passThrough text) :=
  .ite (.pure _) (twin_releaseProse _)

theorem twin_yieldReasoning (text : PyVal) : Steady (Twin chat D) (chat.yieldReasoning text) :=
  .ite (twin_outside _) (.pure _)

/-! ## The guard chain -/

theorem twin_guard (point : InterceptPoint) (content : PyVal) (toolName : Option String)
    (messages : Option (List PyVal)) :
    Steady (Twin chat D) (chat.guard point content toolName messages) := by
  unfold OumiGoChat.guard
  cases chat.agent.profile with
  | none => exact .pure _
  | some profile =>
    refine .ite (.pure _) (.bind (twin_outside _) fun outcome => ?_)
    exact .bind (twin_note rfl) fun _ => .pure _

theorem twin_guardPrompt : Steady (Twin chat D) chat.guardPrompt := by
  refine .ite (.pure _) (twin_get (fun s s' same _ => by simp only [same]) fun s => ?_)
  refine .bind (twin_guard _ _ _ _) fun x => .bind (twin_recordFlags _ _) fun _ => ?_
  have adopts : Steady (Twin chat D) (modify (fun t => { t with
      messages := x.1.list?.getD s.messages }) : ChatM W Unit) :=
    twin_modify (g := fun v => { v with messages := x.1.list?.getD s.messages }) (fun _ => rfl)
      (fun _ => rfl) fun _ => rfl
  exact .bind adopts fun _ => .pure _

theorem twin_halt (verdict : Verdict) : Steady (Twin chat D) (chat.halt verdict) :=
  twin_answer _ _

theorem twin_guardOutput (answer : PyVal) (hasToolCalls : Bool) :
    Steady (Twin chat D) (chat.guardOutput answer hasToolCalls) := by
  refine twin_get (fun s s' same _ => by simp only [same]) fun s => ?_
  refine .bind (twin_guard _ _ _ _) fun x => .bind (twin_recordFlags _ _) fun _ => .ite ?_ ?_
  · refine .bind (twin_halt _) fun _ => ?_
    refine twin_get (fun s s' _ same => by simp only [same]) fun _ => ?_
    exact .bind (twin_setLastContent _) fun _ => .pure _
  · refine .bind (twin_note rfl) fun _ => .bind (twin_releaseProse _) fun _ => ?_
    exact .bind (twin_syncLast _ _) fun _ => .pure _

theorem twin_screenOutput (answer : PyVal) (hasToolCalls : Bool) :
    Steady (Twin chat D) (chat.screenOutput answer hasToolCalls) :=
  .ite (twin_guardOutput _ _) (.pure _)

/-! ## Tools -/

theorem twin_invoke (tool : Tool W) (name : String) (args : PyVal) :
    Steady (Twin chat D) (chat.invoke tool name args) := by
  unfold OumiGoChat.invoke
  split
  · refine .ite (.pure _) (.bind (.tryCatch ?_ fun exn => .ite (.pure _) (.throw _)) fun _ => ?_)
    · refine .bind (twin_outside _) fun out => ?_
      cases out with
      | str text => exact .pure _
      | _ => exact .bind (twin_outside _) fun _ => .pure _
    · exact .bind (twin_note rfl) fun _ => .pure _
  · exact .pure _

theorem twin_invokeGuarded (tool : Tool W) (name : String) (args : PyVal) :
    Steady (Twin chat D) (chat.invokeGuarded tool name args) := by
  refine .bind (twin_guard _ _ _ _) fun x => .bind (twin_recordFlags _ _) fun _ => ?_
  refine .ite (.pure _) (.bind (twin_note rfl) fun _ => .bind (twin_invoke _ _ _) fun outcome => ?_)
  cases outcome with
  | error exn => exact .pure _
  | ok result =>
    refine .bind (twin_guard _ _ _ _) fun x => .bind (twin_recordFlags _ _) fun _ => ?_
    exact .ite (.pure _) (.bind (twin_note rfl) fun _ => .pure _)

theorem twin_recordCall (call : ToolCallMade) :
    Steady (Twin chat D) (OumiGoChat.recordCall call : ChatM W Unit) :=
  .bind (twin_withResponse _) fun _ => twin_note rfl

theorem twin_executeTool (tc : PyVal) : Steady (Twin chat D) (chat.executeTool tc) := by
  refine .bind (.lift _) fun _ => .bind (.lift _) fun name => .bind (.lift _) fun rawArgs => ?_
  refine .bind (.lift _) fun found => ?_
  cases found with
  | none => exact .bind (twin_recordCall _) fun _ => .pure _
  | some found =>
    dsimp only
    split
    · exact .ite (.bind (twin_recordCall _) fun _ => .pure _) (.throw _)
    · refine .bind (twin_invokeGuarded _ _ _) fun _ => ?_
      exact .bind (twin_recordCall _) fun _ => .pure _

theorem twin_feedBack (tc : PyVal) (result : String) :
    Steady (Twin chat D) (OumiGoChat.feedBack tc result : ChatM W Unit) :=
  .bind (.lift _) fun _ => .bind (twin_appendMessage _) fun _ => twin_note rfl

/-! ## Under one deadline -/

theorem twin_remaining : Steady (Twin chat Eq) chat.remaining := by
  refine Agree.get_bind fun s s' twin => ?_
  rw [twin.deadline]
  cases s'.deadline with
  | none => exact Steady.pure _
  | some deadline => exact Steady.bind (twin_outside _) fun _ => .pure _

theorem twin_expired : Steady (Twin chat Eq) chat.expired := by
  refine .bind twin_remaining fun left => ?_
  cases left with
  | none => exact .pure _
  | some left => exact .pure _

theorem twin_timeout : Steady (Twin chat Eq) chat.timeout := by
  refine .bind twin_remaining fun left => ?_
  cases left with
  | none => exact .pure _
  | some left =>
    cases stall : chat.stallTimeout with
    | none => exact .pure _
    | some stall => exact .pure _

theorem twin_runTools (calls : List PyVal) :
    Steady (Twin chat Eq) (chat.runTools calls) := by
  induction calls with
  | nil => exact .pure _
  | cons tc rest ih =>
    refine .bind (twin_executeTool tc) fun x => .bind (twin_feedBack tc _) fun _ => ?_
    split
    · exact .pure _
    · exact .bind twin_expired fun _ => .ite (.pure _) ih

/-- The body that is sent is the same, whatever the number of the turn. -/
theorem twin_httpRequest (stream : Bool) : Steady (Twin chat Eq) (chat.httpRequest stream) := by
  refine Agree.get_bind fun s s' twin => ?_
  rw [twin.messages]
  refine Steady.bind twin_timeout fun timeout => Agree.get_bind fun t t' twin' => ?_
  have told : Agree (Twin chat Eq) Eq (note (.sent t.turn s'.messages) : ChatM W Unit)
      (note (.sent t'.turn s'.messages)) := by
    intro u u' twin
    refine ⟨rfl, ?_, twin.deadline, twin.bounded⟩
    exact congrArg (fun v : Visible W => { v with sent := s'.messages :: v.sent }) twin.visible
  exact told.bind fun _ _ _ => .pure rfl

theorem twin_postJson : Steady (Twin chat Eq) chat.postJson :=
  .bind (twin_httpRequest _) fun _ => .bind (twin_outside _) fun _ => .bind (.lift _) fun _ =>
    .lift _

theorem twin_postStream : Steady (Twin chat Eq) chat.postStream := by
  refine .bind (twin_httpRequest _) fun _ => .bind (twin_outside _) fun reply => ?_
  refine .ite (.pure _) (.bind (twin_outside _) fun _ => .bind (.lift _) fun _ => .pure _)

theorem twin_streamEvent (event : PyVal) (acc : OumiGoChat.StreamAcc) :
    Steady (Twin chat D) (chat.streamEvent event acc) := by
  refine .bind (twin_withResponse _) fun _ => .bind (.lift _) fun _ => .bind (.lift _) fun _ => ?_
  refine .bind (.lift _) fun _ => .bind (.lift _) fun _ => ?_
  refine .bind (twin_yieldReasoning _) fun _ => .bind (.lift _) fun _ => ?_
  refine .bind (twin_passThrough _) fun _ => .bind (.lift _) fun _ => ?_
  exact .bind (.lift _) fun _ => .bind (.lift _) fun _ => .pure _

theorem twin_streamEvents (lines : List (EStateM Exn W String)) (acc : OumiGoChat.StreamAcc) :
    Steady (Twin chat D) (chat.streamEvents lines acc) := by
  induction lines generalizing acc with
  | nil => exact .pure _
  | cons line rest ih =>
    refine .bind (twin_outside _) fun line => .bind (.lift _) fun kind => ?_
    cases kind with
    | skipped => exact ih acc
    | done => exact .pure _
    | event event => exact .bind (twin_streamEvent _ _) fun acc => ih acc

theorem twin_streamTurn : Steady (Twin chat Eq) chat.streamTurn := by
  refine .bind twin_postStream fun lines => .bind (twin_streamEvents _ _) fun acc => ?_
  refine .bind (.lift _) fun _ => .bind (twin_noteReasoning _) fun _ => .bind (.lift _) fun _ => ?_
  exact .ite (.pure _) (.bind (.lift _) fun _ => .pure _)

theorem twin_jsonTurn : Steady (Twin chat Eq) chat.jsonTurn := by
  refine .bind twin_postJson fun _ => .bind (twin_withResponse _) fun _ => ?_
  refine .bind (.lift _) fun _ => .bind (.lift _) fun _ => .bind (.lift _) fun _ => ?_
  refine .bind (twin_noteReasoning _) fun _ => .bind (twin_yieldReasoning _) fun _ => ?_
  refine .bind (.lift _) fun _ => .bind (.lift _) fun _ => .bind (twin_passThrough _) fun _ => ?_
  exact .bind (.lift _) fun _ => .pure _

theorem twin_roundTrip (stream : Bool) : Steady (Twin chat Eq) (chat.roundTrip stream) :=
  .ite twin_streamTurn twin_jsonTurn

theorem twin_completeTurn (stream : Bool) : Steady (Twin chat Eq) (chat.completeTurn stream) := by
  refine .bind twin_guardPrompt fun _ => .ite (.bind (twin_halt _) fun _ => .pure _) ?_
  refine twin_get (fun s s' same _ => by simp only [same]) fun s => ?_
  exact .bind (twin_note rfl) fun _ => .bind (twin_roundTrip _) fun _ => .pure _

theorem twin_turns (stream : Bool) (left : Nat) :
    Steady (Twin chat Eq) (chat.turns stream left) := by
  induction left with
  | zero => exact .pure _
  | succ left ih =>
    refine .bind twin_expired fun _ => .ite (.pure _) ?_
    have body : Steady (Twin chat Eq) (some <$> chat.completeTurn stream) :=
      .bind (twin_completeTurn stream) fun _ => .pure _
    refine .bind (.tryCatch body fun _ => .ite (.pure _) (.throw _)) fun completion => ?_
    rcases completion with _ | ⟨_ | assistant, finish, answer⟩
    · exact .pure _
    · exact .pure _
    refine .bind (twin_appendMessage _) fun _ => .bind (twin_note rfl) fun _ => ?_
    refine .bind (twin_screenOutput _ _) fun reason => ?_
    cases reason with
    | some reason => exact .pure _
    | none =>
      refine .ite (.pure _) (.bind (.lift _) fun calls => .bind (twin_runTools calls) ?_)
      intro reason
      cases reason with
      | some reason => exact .pure _
      | none => exact ih

/-! ## The history -/

theorem length_trimHistory (history : List Entry) :
    (chat.trimHistory history).length ≤ 2 * chat.maxHistoryTurns := by
  unfold OumiGoChat.trimHistory
  dsimp only
  split
  · exact Nat.zero_le _
  · split
    · rw [List.length_drop]
      omega
    · omega

/-- What is kept is decided by the number of entries alone. -/
theorem trimHistory_congr {history history' : List Entry}
    (same : history.map Entry.toMessage = history'.map Entry.toMessage) :
    (chat.trimHistory history).map Entry.toMessage =
      (chat.trimHistory history').map Entry.toMessage := by
  have length : history.length = history'.length := by
    have mapped := congrArg List.length same
    rwa [List.length_map, List.length_map] at mapped
  unfold OumiGoChat.trimHistory
  simp only [length]
  split
  · rfl
  · split
    · rw [List.map_drop, List.map_drop, same]
    · exact same

theorem trimHistory_of_le {history : List Entry}
    (bounded : history.length ≤ 2 * chat.maxHistoryTurns) : chat.trimHistory history = history := by
  unfold OumiGoChat.trimHistory
  dsimp only
  split
  · next forgets => exact (List.eq_nil_of_length_eq_zero (by omega)).symm
  · exact if_neg (by omega)

theorem content_of_toMessage {user user' : Entry} (same : user.toMessage = user'.toMessage) :
    user.content = user'.content := by
  simp only [Entry.toMessage, PyVal.dict.injEq, List.cons.injEq, Prod.mk.injEq, true_and,
    PyVal.str.injEq, and_true] at same
  exact same.2

theorem twin_remember {user user' : Entry} (same : user.toMessage = user'.toMessage)
    (answer : String) :
    Agree (Twin chat D) Eq (chat.remember user answer) (chat.remember user' answer) := by
  refine .ite (fun _ => .pure rfl) fun _ s s' twin => ⟨rfl, ?_, twin.deadline, ?_⟩
  · have exchanged : (s.history ++ [user, ⟨.assistant, answer, none⟩]).map Entry.toMessage =
        (s'.history ++ [user', ⟨.assistant, answer, none⟩]).map Entry.toMessage := by
      have before : s.history.map Entry.toMessage = s'.history.map Entry.toMessage := twin.exported
      rw [List.map_append, List.map_append, before]
      simp [same]
    have kept : (chat.trimHistory (s.history ++ _)).map Entry.toMessage = _ :=
      trimHistory_congr exchanged
    exact congrArg₂ (fun (v : Visible W) history => { v with history := history })
      twin.visible kept
  · exact length_trimHistory _

/-! ## One request -/

theorem twin_markTimeout (reason : PyVal) : Steady (Twin chat D) (chat.markTimeout reason) :=
  .ite (twin_answer _ _) (.pure _)

/-- **Arming the deadline** makes up for the one difference that a turn could read. -/
theorem twin_armDeadline :
    Tightens (Twin chat fun _ _ => True) (Twin chat Eq) Eq chat.armDeadline chat.armDeadline := by
  have sets (deadline : Option Rat) : Tightens (Twin chat fun _ _ => True) (Twin chat Eq) Eq
      (modify fun s => { s with deadline := deadline } : ChatM W Unit)
      (modify fun s => { s with deadline := deadline }) :=
    .modify fun _ _ twin => ⟨twin.visible, rfl, twin.bounded⟩
  unfold OumiGoChat.armDeadline
  cases chat.turnTimeout with
  | none => exact sets none
  | some budget =>
    dsimp only
    split
    · exact sets none
    · refine Agree.tightens (twin_outside _) ?_
      rintro now _ rfl
      exact sets _

theorem twin_finishTurn {user user' : Entry} (same : user.toMessage = user'.toMessage)
    (stream : Bool) :
    Agree (Twin chat fun _ _ => True) Eq (chat.finishTurn user stream)
      (chat.finishTurn user' stream) := by
  refine twin_armDeadline.bind (fun _ _ twin => ⟨twin.visible, trivial, twin.bounded⟩) ?_
  rintro _ _ -
  refine .bind (twin_turns stream _) ?_
  rintro reason _ rfl
  refine .bind (twin_markTimeout reason) fun _ _ _ => .bind (twin_withResponse _) fun _ _ _ => ?_
  refine .get_bind fun s s' twin => ?_
  rw [twin.resp]
  exact twin_remember same _

theorem twin_withhold : Steady (Twin chat D) (OumiGoChat.withhold : ChatM W Unit) :=
  twin_modify (g := id) (fun _ => rfl) (fun _ => rfl) fun _ => rfl

theorem twin_refuse {user user' : Entry} (same : user.toMessage = user'.toMessage)
    (verdict : Verdict) :
    Agree (Twin chat D) Eq (chat.refuse user verdict) (chat.refuse user' verdict) := by
  refine .bind twin_withhold fun _ _ _ => .bind (twin_halt verdict) fun _ _ _ => ?_
  refine .bind (twin_withResponse _) fun _ _ _ => .get_bind fun s s' twin => ?_
  rw [twin.resp]
  exact twin_remember same _

theorem twin_accept {user user' : Entry} (same : user.toMessage = user'.toMessage)
    (stream : Bool) :
    Agree (Twin chat fun _ _ => True) Eq (chat.accept user stream) (chat.accept user' stream) := by
  unfold OumiGoChat.accept
  rw [content_of_toMessage same]
  exact .bind (twin_note rfl) fun _ _ _ => twin_finishTurn same stream

theorem twin_own {user user' : Entry} :
    Agree (Twin chat D) Eq
      (modify fun s => { s with turn := { s.turn with own := user } } : ChatM W Unit)
      (modify fun s => { s with turn := { s.turn with own := user' } }) :=
  fun _ _ twin => ⟨rfl, twin.visible, twin.deadline, twin.bounded⟩

theorem rewritten_toMessage {user user' : Entry} (same : user.toMessage = user'.toMessage)
    (contents : PyVal) :
    (rewritten user contents).toMessage = (rewritten user' contents).toMessage := by
  unfold rewritten
  cases contents.str? with
  | none => exact same
  | some text => rfl

theorem twin_rewrite {user user' : Entry} (same : user.toMessage = user'.toMessage)
    (contents : PyVal) (stream : Bool) :
    Agree (Twin chat fun _ _ => True) Eq (chat.rewrite user contents stream)
      (chat.rewrite user' contents stream) := by
  have next := rewritten_toMessage same contents
  refine .bind twin_withhold fun _ _ _ => .bind twin_own fun _ _ _ => ?_
  refine .bind (V := Eq) ?_ fun _ _ _ => .bind (V := Eq) ?_ fun _ _ _ => twin_finishTurn next stream
  · change Agree _ _ (note (rewritten user contents).proceeds)
      (note (rewritten user' contents).proceeds)
    unfold Entry.proceeds
    rw [content_of_toMessage next]
    exact twin_note rfl
  · change Agree _ _ (replaceLast (rewritten user contents).toMessage)
      (replaceLast (rewritten user' contents).toMessage)
    rw [next]
    exact twin_replaceLast _

theorem twin_run {user user' : Entry} (same : user.toMessage = user'.toMessage) (stream : Bool) :
    Agree (Twin chat fun _ _ => True) Eq (chat.run user stream) (chat.run user' stream) := by
  unfold OumiGoChat.run
  rw [content_of_toMessage same]
  refine .bind (twin_guard _ _ _ _) ?_
  rintro x _ rfl
  refine .bind (twin_recordFlags _ _) fun _ _ _ => .ite (fun _ => twin_refuse same _) fun _ => ?_
  exact .ite (fun _ => twin_accept same stream) fun _ => twin_rewrite same _ stream

/-- Between requests, the chats carry the same conversation in the same world. -/
structure InStep (chat : OumiGoChat W) (s s' : ChatState W) : Prop where
  world : s.world = s'.world
  exported : s.exported = s'.exported
  bounded : s.history.length ≤ 2 * chat.maxHistoryTurns

theorem Twin.inStep {s s' : ChatState W} (twin : Twin chat D s s') : InStep chat s s' :=
  ⟨twin.world, twin.exported, twin.bounded⟩

/-- A message makes twins of them. -/
theorem InStep.twin {s s' : ChatState W} (inStep : InStep chat s s') (message : Message W) :
    Twin chat (fun _ _ => True)
      (chat.begin message.contents (OumiGoChat.receive message s))
      (chat.begin message.contents (OumiGoChat.receive message s')) := by
  obtain ⟨world, exported, bounded⟩ := inStep
  refine ⟨?_, trivial, bounded⟩
  have carried : s.history.map Entry.toMessage = s'.history.map Entry.toMessage := exported
  have asked (s : ChatState W) :
      sentMessages (chat.begin message.contents (OumiGoChat.receive message s)).trace = [] := rfl
  unfold ChatState.visible
  rw [asked, asked]
  simp [OumiGoChat.begin, OumiGoChat.receive, OumiGoChat.buildMessages, ChatState.exported,
    Entry.toMessage, world, carried]

/-- One ending of twins is told alike. -/
theorem told_of_ends {x x' : EStateM.Result Exn (ChatState W) Unit}
    (ends : SameEnd (Twin chat D) Eq x x') (stream : Bool) :
    chat.told stream x = chat.told stream x' := by
  cases x <;> cases x'
  · obtain ⟨-, twin⟩ := ends
    simp only [OumiGoChat.told, twin.sent, twin.resp, twin.exported]
  · exact ends.elim
  · exact ends.elim
  · obtain ⟨rfl, twin⟩ := ends
    simp only [OumiGoChat.told, twin.sent, twin.resp, twin.exported]

theorem inStep_of_ends {m m' : ChatM W Unit} {s s' : ChatState W}
    (ends : SameEnd (Twin chat D) Eq (m s) (m' s')) : InStep chat (final m s) (final m' s') := by
  unfold final
  cases outcome : m s <;> cases outcome' : m' s' <;> rw [outcome, outcome'] at ends
  · exact ends.2.inStep
  · exact ends.elim
  · exact ends.elim
  · exact ends.2.inStep

/-- **One request of the two** sends the same bodies, gives the same response, ends the same
way, and leaves them with the same conversation. -/
theorem InStep.exchange {s s' : ChatState W} (inStep : InStep chat s s')
    (message : Message W) :
    (chat.exchange message s).1 = (chat.exchange message s').1 ∧
      InStep chat (chat.exchange message s).2 (chat.exchange message s').2 := by
  let own (s : ChatState W) : Entry :=
    (chat.begin message.contents (OumiGoChat.receive message s)).turn.own
  have mine (s : ChatState W) : (own s).toMessage =
      .dict [("role", .str "user"), ("content", .str message.contents)] := rfl
  have runs : Agree (Twin chat fun _ _ => True) Eq (chat.run (own s) message.stream)
      (chat.run (own s') message.stream) := twin_run ((mine s).trans (mine s').symm) _
  have ends : SameEnd (Twin chat fun _ _ => True) Eq
      (chat.request (.str message.contents) message.stream (OumiGoChat.receive message s))
      (chat.request (.str message.contents) message.stream (OumiGoChat.receive message s')) :=
    runs _ _ (inStep.twin message)
  unfold OumiGoChat.exchange
  dsimp only
  constructor
  · exact told_of_ends ends message.stream
  · exact inStep_of_ends ends

theorem exchange_history (message : Message W) (s : ChatState W) :
    (chat.exchange message s).1.history = (chat.exchange message s).2.exported := by
  unfold OumiGoChat.exchange final
  dsimp only
  cases chat.request (.str message.contents) message.stream (OumiGoChat.receive message s) <;> rfl

/-! ## The round trip of a history -/

theorem normalizeEntry_toMessage (entry : Entry) :
    chat.normalizeEntry entry.toMessage = .ok { entry with origin := none } := by
  obtain ⟨role, content, origin⟩ := entry
  cases role <;> rfl

theorem normalizeHistory_exported (history : List Entry) :
    chat.normalizeHistory (history.map Entry.toMessage) =
      .ok (history.map fun entry => { entry with origin := none }) := by
  unfold OumiGoChat.normalizeHistory
  induction history with
  | nil => rfl
  | cons entry rest ih =>
    rw [List.map_cons, List.mapM_cons, normalizeEntry_toMessage, ih]
    rfl

/-- An exported history is taken back whole. -/
theorem create_exported {s : ChatState W} (bounded : s.history.length ≤ 2 * chat.maxHistoryTurns)
    (world : W) : ∃ s', chat.create s.exported world = .ok s' ∧ s'.world = world ∧
      s'.exported = s.exported := by
  unfold OumiGoChat.create ChatState.exported
  rw [normalizeHistory_exported]
  refine ⟨_, rfl, rfl, ?_⟩
  dsimp only
  rw [trimHistory_of_le (by rwa [List.length_map]), List.map_map]
  rfl

/-- A history that can be stored, and handed to a new chat. -/
structure Portable (chat : OumiGoChat W) (history : List PyVal) : Prop where
  accepted : ∀ world, ∃ s, chat.create history world = .ok s ∧ s.exported = history
  entries : ∀ message ∈ history, ∃ (role : Role) (content : String),
    message = .dict [("role", .str role.value), ("content", .str content)]
  bounded : history.length ≤ 2 * chat.maxHistoryTurns

theorem portable_exported {s : ChatState W}
    (bounded : s.history.length ≤ 2 * chat.maxHistoryTurns) : Portable chat s.exported := by
  refine ⟨fun world => ?_, fun message member => ?_, ?_⟩
  · obtain ⟨s', created, -, same⟩ := create_exported bounded world
    exact ⟨s', created, same⟩
  · obtain ⟨entry, -, rfl⟩ := List.mem_map.mp member
    exact ⟨entry.role, entry.content, rfl⟩
  · unfold ChatState.exported
    rwa [List.length_map]

theorem bounded_create {history : List PyVal} {world : W} {s : ChatState W}
    (created : chat.create history world = .ok s) :
    s.history.length ≤ 2 * chat.maxHistoryTurns := by
  obtain ⟨entries, -, rfl⟩ := create_ok created
  exact length_trimHistory entries

/-! ## All messages -/

theorem stateful_cons (message : Message W) (rest : List (Message W)) (s : ChatState W) :
    chat.stateful (message :: rest) s =
      (chat.exchange message s).1 :: chat.stateful rest (chat.exchange message s).2 := rfl

theorem rehydrated_cons {message : Message W} {rest : List (Message W)} {history : List PyVal}
    {world : W} {s : ChatState W} {more : List Exchange}
    (created : chat.create history world = .ok s)
    (later : chat.rehydrated rest (chat.exchange message s).1.history
      (chat.exchange message s).2.world = .ok more) :
    chat.rehydrated (message :: rest) history world = .ok ((chat.exchange message s).1 :: more) := by
  unfold OumiGoChat.rehydrated
  rw [created]
  change Except.bind (chat.rehydrated rest (chat.exchange message s).1.history
    (chat.exchange message s).2.world) _ = _
  rw [later]
  rfl

/-- The conversation on one chat, and on chats rebuilt from an equal one. -/
theorem rehydrated_of_inStep (messages : List (Message W)) {history : List PyVal} {world : W}
    {s s' : ChatState W} (created : chat.create history world = .ok s')
    (inStep : InStep chat s s') :
    chat.rehydrated messages history world = .ok (chat.stateful messages s) ∧
      ∀ told ∈ chat.stateful messages s, Portable chat told.history := by
  induction messages generalizing history world s s' with
  | nil => exact ⟨rfl, fun _ member => nomatch member⟩
  | cons message rest ih =>
    obtain ⟨same, after⟩ := inStep.exchange message
    obtain ⟨next, created', world', exported⟩ :=
      create_exported after.bounded (chat.exchange message s').2.world
    rw [after.exported, ← exchange_history] at created'
    have restored : InStep chat (chat.exchange message s).2 next :=
      ⟨after.world.trans world'.symm, exported.symm, after.bounded⟩
    obtain ⟨runs, portable⟩ := ih created' restored
    constructor
    · rw [rehydrated_cons created runs, stateful_cons, same]
    · intro told member
      rw [stateful_cons] at member
      rcases List.mem_cons.mp member with rfl | later
      · rw [exchange_history]
        exact portable_exported after.bounded
      · exact portable told later

/-- **A chat that is kept, and one that is rebuilt for every message**, send the same request
bodies and give the same responses and histories, whatever the guards and the tools do.  Every
history they export is one that a new chat takes back unchanged. -/
theorem stateful_rehydrated (messages : List (Message W)) {seed : List PyVal} {world : W}
    {s : ChatState W} (accepted : chat.create seed world = .ok s) :
    chat.rehydrated messages seed world = .ok (chat.stateful messages s) ∧
      ∀ history ∈ s.exported :: (chat.stateful messages s).map Exchange.history,
        Portable chat history := by
  have bounded := bounded_create accepted
  obtain ⟨runs, portable⟩ := rehydrated_of_inStep messages accepted ⟨rfl, rfl, bounded⟩
  refine ⟨runs, fun history member => ?_⟩
  rcases List.mem_cons.mp member with rfl | later
  · exact portable_exported bounded
  · obtain ⟨told, among, rfl⟩ := List.mem_map.mp later
    exact portable told among

/-- A chat with room for one exchange, whose guard shouts. -/
def loudChat : OumiGoChat (List PyVal) :=
  scriptedChat (guardAt .userInput fun _ => .transform (.str "SHOUTED")) .empty 1

/-- A stored history with more than the chat keeps, and a key it drops. -/
def storedHistory : List PyVal :=
  [.dict [("role", .str "user"), ("content", .str "Hello.")],
    .dict [("role", .str "user"), ("content", .str "I like sci-fi.")],
    .dict [("role", .str "assistant"), ("content", .str "Noted."), ("tool_calls", .list [])]]

def seededChat : ChatState (List PyVal) :=
  { newChat with
    history := [⟨.user, "I like sci-fi.", none⟩, ⟨.assistant, "Noted.", none⟩] }

/-- Two messages, each answered. -/
def twoMessages : List (Message (List PyVal)) :=
  [⟨"recommend one", false, fun _ => [proseReply "Solaris."]⟩,
    ⟨"another", false, fun _ => [proseReply "Stalker."]⟩]

theorem stateful_rehydrated_seeded :
    loudChat.create storedHistory [] = .ok seededChat ∧
    loudChat.rehydrated twoMessages storedHistory [] =
        .ok (loudChat.stateful twoMessages seededChat) ∧
      ∀ history ∈ seededChat.exported ::
          (loudChat.stateful twoMessages seededChat).map Exchange.history,
        Portable loudChat history := by
  have accepted : loudChat.create storedHistory [] = .ok seededChat := by rfl
  exact ⟨accepted, stateful_rehydrated twoMessages accepted⟩

example : (loudChat.stateful twoMessages seededChat).map (fun told => told.history.length) =
    [2, 2] := by decide +kernel

end Oumigo
