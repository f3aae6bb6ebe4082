import Oumigo.Foundation.Relational
import Oumigo.Agent.Script

/-!
# Streamed or not, a request is the same

Two chats that follow one script, one asked with `stream=True` and iterated to the end,
the other with `stream=False`, go side by side: before and after every function of
`_run` they differ at most in the raw payload and in where the answer is cut
(`Seen`).  Only the two round-trips differ as programs, and what they read is the same
turn.  `streaming_parity` puts this together.
-/

namespace Oumigo

open Python Effect DataPlane

variable {V : Type} {loads : String → Except Exn PyVal}

/-- Every tool call has an id. -/
def Named (script : List (ScriptedReply loads)) : Prop :=
  ∀ reply ∈ script, ∀ call ∈ reply.turn.toolCalls, call.id ≠ ""

/-- The script names its calls, and what was yielded since `start` is the answer. -/
structure Fit (start : String) (r : Seen V loads) : Prop where
  named : Named r.script
  told : r.answers = start ++ r.resp.text

/-- The two chats are at the same point. -/
abbrev Even (start : String) :
    ChatState (DataPlane V loads) → ChatState (DataPlane V loads) → Prop :=
  Alike ChatState.seen (Fit start)

/-! ## Guards and tools stay beside the data plane -/

section

variable {α β : Type}

theorem beside_bind (m : EStateM Exn V α) (f : α → EStateM Exn V β) :
    (beside (m >>= f) : EStateM Exn (DataPlane V loads) β) =
      beside m >>= fun a => beside (f a) := by
  refine zoom_bind ?_ ?_ m f
  · exact fun _ _ => rfl
  · exact fun _ _ _ => rfl

theorem beside_tryCatch (m : EStateM Exn V α) (handler : Exn → EStateM Exn V α) :
    (beside (tryCatch m handler) : EStateM Exn (DataPlane V loads) α) =
      tryCatch (beside m) fun exn => beside (handler exn) := by
  refine zoom_tryCatch ?_ ?_ m handler
  · exact fun _ _ => rfl
  · exact fun _ _ _ => rfl

theorem scripted_consult (guard : Guard V) (point : InterceptPoint) (ctx : GuardContext) :
    GuardChain.consult (guard.scripted : Guard (DataPlane V loads)) point ctx =
      beside (GuardChain.consult guard point ctx) := by
  unfold GuardChain.consult
  rw [beside_tryCatch]
  congr 1
  funext exn
  split <;> rfl

/-- A chain of scripted guards is the chain, beside the data plane. -/
theorem scripted_evaluate (point : InterceptPoint) (ctx : GuardContext) (guards : List (Guard V))
    (content : PyVal) (flags : List Verdict) :
    GuardChain.evaluate point ctx (guards.map Guard.scripted) content flags =
      (beside (GuardChain.evaluate point ctx guards content flags) :
        EStateM Exn (DataPlane V loads) ChainOutcome) := by
  induction guards generalizing content flags with
  | nil => rfl
  | cons guard rest ih =>
    rw [List.map_cons]
    unfold GuardChain.evaluate
    have applies : (guard.scripted : Guard (DataPlane V loads)).applies point =
      guard.applies point := rfl
    rw [applies, scripted_consult]
    split
    · exact ih content flags
    · rw [beside_bind]
      congr 1
      funext verdict
      split
      · exact ih content flags
      · split
        · exact ih content _
        · split
          · exact ih _ flags
          · rfl

end

section

variable {chat : OumiGoChat V} {start : String} {α : Type}

/-! ## What both modes share -/

theorem even_beside (action : EStateM Exn V α) :
    Steady (Even start) (outside (beside action) : ChatM (DataPlane V loads) α) := by
  rintro s s' ⟨same, fit⟩
  have aside : s.world.aside = s'.world.aside := congrArg Seen.aside same
  unfold outside beside zoom
  rw [aside]
  have moved (v : V) : Even start { s with world := { s.world with aside := v } }
      { s' with world := { s'.world with aside := v } } :=
    ⟨congrArg (fun r : Seen V loads => { r with aside := v }) same, ⟨fit.named, fit.told⟩⟩
  cases action s'.world.aside with
  | ok a v => exact ⟨rfl, moved v⟩
  | error e v => exact ⟨rfl, moved v⟩

/-- A change that both see, and that gives no text to the caller. -/
theorem even_modify {f : ChatState (DataPlane V loads) → ChatState (DataPlane V loads)}
    {g : Seen V loads → Seen V loads} (moves : ∀ s, (f s).seen = g s.seen)
    (script : ∀ r, (g r).script = r.script) (answers : ∀ r, (g r).answers = r.answers)
    (text : ∀ r, (g r).resp.text = r.resp.text) :
    Steady (Even start) (modify f : ChatM (DataPlane V loads) Unit) := by
  refine .modify (Alike.step moves fun r fit => ⟨?_, ?_⟩)
  · rw [script]
    exact fit.named
  · rw [answers, text]
    exact fit.told

theorem even_note (event : Event) :
    Steady (Even start) (note event : ChatM (DataPlane V loads) Unit) :=
  even_modify (g := id) (fun _ => rfl) (fun _ => rfl) (fun _ => rfl) fun _ => rfl

theorem even_withResponse {change : OumiGoResponse → OumiGoResponse}
    (blind : ∀ resp, { change resp with raw := .none } = change { resp with raw := .none })
    (text : ∀ resp, (change resp).text = resp.text) :
    Steady (Even start) (withResponse change : ChatM (DataPlane V loads) Unit) := by
  refine even_modify (g := fun r => { r with resp := change r.resp }) (fun s => ?_) (fun _ => rfl)
    (fun _ => rfl) fun r => text r.resp
  unfold ChatState.seen
  rw [blind]

theorem even_recordFlags (point : InterceptPoint) (flags : List Verdict) :
    Steady (Even start) (recordFlags point flags : ChatM (DataPlane V loads) Unit) :=
  even_withResponse (fun _ => rfl) fun _ => rfl

theorem even_appendMessage (message : PyVal) :
    Steady (Even start) (appendMessage message : ChatM (DataPlane V loads) Unit) :=
  even_modify (g := fun r => { r with messages := r.messages ++ [message] }) (fun _ => rfl)
    (fun _ => rfl) (fun _ => rfl) fun _ => rfl

theorem even_replaceLast (message : PyVal) :
    Steady (Even start) (replaceLast message : ChatM (DataPlane V loads) Unit) :=
  even_modify (g := fun r => { r with messages := r.messages.dropLast ++ [message] })
    (fun _ => rfl) (fun _ => rfl) (fun _ => rfl) fun _ => rfl

/-- What a computation reads of the state is seen. -/
theorem even_get {f : ChatState (DataPlane V loads) → ChatM (DataPlane V loads) α}
    (reads : ∀ s s', s.seen = s'.seen → f s = f s') (rest : ∀ s, Steady (Even start) (f s)) :
    Steady (Even start) (get >>= f) := by
  refine Agree.get_bind fun s s' alike => ?_
  rw [reads s s' alike.1]
  exact rest s'

/-- The same, of a computation that reads the messages. -/
theorem even_messages {f : ChatState (DataPlane V loads) → ChatM (DataPlane V loads) α}
    (reads : ∀ s s', s.messages = s'.messages → f s = f s')
    (rest : ∀ s, Steady (Even start) (f s)) : Steady (Even start) (get >>= f) :=
  even_get (fun s s' same => reads s s' (congrArg Seen.messages same)) rest

/-- The same, of a computation that reads the text of the answer. -/
theorem even_text {f : ChatState (DataPlane V loads) → ChatM (DataPlane V loads) α}
    (reads : ∀ s s', s.resp.text = s'.resp.text → f s = f s')
    (rest : ∀ s, Steady (Even start) (f s)) : Steady (Even start) (get >>= f) :=
  even_get (fun s s' same => reads s s' (congrArg (fun r => r.resp.text) same)) rest

theorem even_setLastContent (content : PyVal) :
    Steady (Even start) (setLastContent content : ChatM (DataPlane V loads) Unit) := by
  refine even_messages (fun s s' same => by simp only [same]) fun s => ?_
  split
  · exact even_replaceLast _
  · exact .throw _
  · exact .throw _

theorem even_syncLast (text : Option String) (answer : PyVal) :
    Steady (Even start) (syncLast text answer : ChatM (DataPlane V loads) Unit) := by
  cases text with
  | some s => exact .ite (.pure _) (even_setLastContent _)
  | none => exact .pure _

theorem Fit.release {r : Seen V loads} (fit : Fit start r) (text : String) :
    Fit start (r.release text) :=
  ⟨fit.named, by
    unfold Seen.release
    rw [fit.told, String.append_assoc]⟩

theorem even_answer (source : PieceSource) (text : String) :
    Steady (Even start) (chat.scripted.answer source text) := by
  refine .of_ensures (a := ()) (g := fun r => r.release text) (fun r => ?_)
    fun r fit => fit.release text
  exact (sees_answer source text).mono (fun _ _ same => ⟨rfl, same⟩) fun _ => id

theorem even_releaseProse (value : PyVal) :
    Steady (Even start) (chat.scripted.releaseProse value) :=
  .ite (.lift_bind fun _ _ => even_answer _ _) (.pure _)

theorem even_guard (point : InterceptPoint) (content : PyVal) (toolName : Option String)
    (messages : Option (List PyVal)) :
    Steady (Even start) (chat.scripted.guard point content toolName messages) := by
  have profile : chat.scripted.agent.profile = chat.agent.profile.map GuardProfile.scripted := rfl
  unfold OumiGoChat.guard
  rw [profile]
  cases chat.agent.profile with
  | none => exact .pure _
  | some profile =>
    refine .ite (.pure _) (.bind ?_ fun outcome => .bind (even_note _) fun _ => .pure _)
    unfold GuardProfile.evaluate GuardProfile.scripted
    rw [scripted_evaluate]
    exact even_beside _

theorem even_guardPrompt : Steady (Even start) chat.scripted.guardPrompt := by
  refine .ite (.pure _) (even_messages (fun s s' same => by simp only [same]) fun s => ?_)
  refine .bind (even_guard _ _ _ _) fun x => .bind (even_recordFlags _ _) fun _ => ?_
  refine .bind (even_modify (g := fun r => { r with messages := x.1.list?.getD s.messages })
    (fun _ => rfl) (fun _ => rfl) (fun _ => rfl) fun _ => rfl) fun _ => ?_
  exact .pure _

theorem even_halt (verdict : Verdict) : Steady (Even start) (chat.scripted.halt verdict) :=
  even_answer _ _

theorem even_guardOutput (answer : PyVal) (hasToolCalls : Bool) :
    Steady (Even start) (chat.scripted.guardOutput answer hasToolCalls) := by
  refine even_messages (fun s s' same => by simp only [same]) fun s => ?_
  refine .bind (even_guard _ _ _ _) fun x => .bind (even_recordFlags _ _) fun _ => .ite ?_ ?_
  · refine .bind (even_halt _) fun _ => even_text (fun s s' same => by simp only [same]) fun _ => ?_
    exact .bind (even_setLastContent _) fun _ => .pure _
  · refine .bind (even_note _) fun _ => .bind (even_releaseProse _) fun _ => ?_
    exact .bind (even_syncLast _ _) fun _ => .pure _

theorem even_screenOutput (answer : PyVal) (hasToolCalls : Bool) :
    Steady (Even start) (chat.scripted.screenOutput answer hasToolCalls) :=
  .ite (even_guardOutput _ _) (.pure _)

theorem even_tool {name : String} {tool : Tool (DataPlane V chat.outer.loads)}
    (found : chat.scripted.agent.tools.get? name = some tool) (kwargs : List (String × PyVal)) :
    Steady (Even start) (outside (tool.fn kwargs)) := by
  obtain ⟨given, rfl⟩ := scripted_tool found
  exact even_beside _

theorem even_invoke {name : String} {tool : Tool (DataPlane V chat.outer.loads)}
    (found : chat.scripted.agent.tools.get? name = some tool) (args : PyVal) :
    Steady (Even start) (chat.scripted.invoke tool name args) := by
  unfold OumiGoChat.invoke
  split
  · refine .ite (.pure _) (.bind (.tryCatch ?_ fun exn => .ite (.pure _) (.throw _)) fun _ => ?_)
    · refine .bind (even_tool found _) fun out => ?_
      cases out with
      | str text => exact .pure _
      | _ => exact .bind (even_beside _) fun _ => .pure _
    · exact .bind (even_note _) fun _ => .pure _
  · exact .pure _

theorem even_invokeGuarded {name : String} {tool : Tool (DataPlane V chat.outer.loads)}
    (found : chat.scripted.agent.tools.get? name = some tool) (args : PyVal) :
    Steady (Even start) (chat.scripted.invokeGuarded tool name args) := by
  refine .bind (even_guard _ _ _ _) fun x => .bind (even_recordFlags _ _) fun _ => ?_
  refine .ite (.pure _) (.bind (even_note _) fun _ => .bind (even_invoke found _) fun outcome => ?_)
  cases outcome with
  | error exn => exact .pure _
  | ok result =>
    refine .bind (even_guard _ _ _ _) fun x => .bind (even_recordFlags _ _) fun _ => ?_
    exact .ite (.pure _) (.bind (even_note _) fun _ => .pure _)

theorem even_recordCall (call : ToolCallMade) :
    Steady (Even start) (OumiGoChat.recordCall call : ChatM (DataPlane V loads) Unit) :=
  .bind (even_withResponse (fun _ => rfl) fun _ => rfl) fun _ => even_note _

theorem even_executeTool (tc : PyVal) : Steady (Even start) (chat.scripted.executeTool tc) := by
  refine .bind (.lift _) fun _ => .bind (.lift _) fun name => .bind (.lift _) fun rawArgs => ?_
  refine .lift_bind fun found named => ?_
  cases found with
  | none => exact .bind (even_recordCall _) fun _ => .pure _
  | some found =>
    dsimp only
    split
    · exact .ite (.bind (even_recordCall _) fun _ => .pure _) (.throw _)
    · refine .bind (even_invokeGuarded (toolNamed_some named) _) fun _ => ?_
      exact .bind (even_recordCall _) fun _ => .pure _

theorem even_feedBack (tc : PyVal) (result : String) :
    Steady (Even start) (OumiGoChat.feedBack tc result : ChatM (DataPlane V loads) Unit) :=
  .bind (.lift _) fun _ => .bind (even_appendMessage _) fun _ => even_note _

theorem even_remaining : Steady (Even start) chat.scripted.remaining := by
  refine even_get (fun s s' same => ?_) fun s => ?_
  · have deadline : s.deadline = s'.deadline := congrArg Seen.deadline same
    simp only [deadline]
  cases s.deadline with
  | none => exact .pure _
  | some deadline => exact .bind (even_beside _) fun _ => .pure _

theorem even_expired : Steady (Even start) chat.scripted.expired := by
  refine .bind even_remaining fun left => ?_
  cases left with
  | none => exact .pure _
  | some left => exact .pure _

theorem even_timeout : Steady (Even start) chat.scripted.timeout := by
  refine .bind even_remaining fun left => ?_
  cases left with
  | none => exact .pure _
  | some left =>
    cases stall : chat.scripted.stallTimeout with
    | none => exact .pure _
    | some stall => exact .pure _

theorem even_runTools (calls : List PyVal) :
    Steady (Even start) (chat.scripted.runTools calls) := by
  induction calls with
  | nil => exact .pure _
  | cons tc rest ih =>
    refine .bind (even_executeTool tc) fun x => .bind (even_feedBack tc _) fun _ => ?_
    split
    · exact .pure _
    · exact .bind even_expired fun _ => .ite (.pure _) ih

/-! ## The two round-trips -/

theorem even_httpRequest : Agree (Even start) (fun _ _ => True)
    (chat.scripted.httpRequest true) (chat.scripted.httpRequest false) := by
  refine .get_bind fun s s' alike => .bind even_timeout ?_
  rintro timeout _ rfl
  refine .get_bind fun t t' alike' => ?_
  have messages : s.messages = s'.messages := congrArg Seen.messages alike.1
  have turn : t.turn = t'.turn := congrArg Seen.turn alike'.1
  rw [messages, turn]
  exact .bind (even_note _) fun _ _ _ => .pure trivial

/-- What one reply is, streamed and not. -/
structure SameReply (http : StreamReply (DataPlane V loads)) (http' : HttpReply)
    (reply : ScriptedReply loads) : Prop where
  streamed : http = ⟨200, pure "", reply.lines.map pure⟩
  whole : http' = ⟨200, "", .ok reply.body⟩
  named : ∀ call ∈ reply.turn.toolCalls, call.id ≠ ""

/-- Both draw the same reply of the script. -/
theorem even_reply (request request' : HttpRequest) :
    Agree (Even start) (fun http http' => ∃ reply, SameReply http http' reply)
      (outside (chat.scripted.outer.stream request))
      (outside (chat.scripted.outer.post request')) := by
  rintro ⟨⟨aside, script, yielded⟩, _⟩ ⟨⟨aside', script', yielded'⟩, _⟩ ⟨same, fit⟩
  obtain rfl : script = script' := congrArg Seen.script same
  have named : Named script := fit.named
  cases script with
  | nil => exact ⟨rfl, same, fit⟩
  | cons reply rest =>
    refine ⟨⟨reply, rfl, rfl, named reply List.mem_cons_self⟩,
      congrArg (fun r : Seen V _ => { r with script := rest }) same, ⟨?_, fit.told⟩⟩
    exact fun reply member => named reply (List.mem_cons_of_mem _ member)

theorem even_post : Agree (Even start)
    (fun lines data => ∃ reply : ScriptedReply chat.outer.loads,
      lines = reply.lines.map pure ∧ data = reply.body ∧
      ∀ call ∈ reply.turn.toolCalls, call.id ≠ "")
    chat.scripted.postStream chat.scripted.postJson := by
  refine .bind even_httpRequest fun request request' _ => ?_
  refine .bind (even_reply request request') ?_
  rintro http http' ⟨reply, rfl, rfl, named⟩
  exact Agree.pure ⟨reply, rfl, rfl, named⟩

/-- What a round-trip gives, as far as it goes on. -/
def SameTurn {μ : Type} (x x' : μ × PyVal × PyVal) : Prop :=
  x.1 = x'.1 ∧ x.2.2 = x'.2.2 ∧ ∀ default, x.2.1.or default = x'.2.1.or default

theorem or_of_told {value : PyVal} {text : String} (told : Says value text) (default : PyVal) :
    value.or default = if text = "" then default else .str text := by
  unfold PyVal.or
  rcases told.cases with ⟨truthy, some, rfl⟩ | ⟨falsy, rfl⟩
  · rw [if_pos truthy, if_neg some]
  · rw [if_neg (by simp [falsy]), if_pos rfl]

theorem message_same {turn : AssistantTurn} (named : ∀ call ∈ turn.toolCalls, call.id ≠ "") :
    turn.message true = turn.message false := by
  have calls : turn.calls true = turn.calls false := by
    refine List.map_congr_left fun call member => ?_
    have id : idValue call.id = .str call.id := if_neg (named call member)
    change ToolCallSlot.toMessage ⟨idValue call.id, _, _⟩ = _
    rw [id]
    rfl
  unfold AssistantTurn.message
  rw [calls]

theorem taken_same {turn : AssistantTurn} (named : ∀ call ∈ turn.toolCalls, call.id ≠ "")
    {x x' : AssistantMessage × PyVal × PyVal} (streamed : Taken turn true x)
    (whole : Taken turn false x') : SameTurn x x' := by
  refine ⟨?_, streamed.answer.trans whole.answer.symm, fun default => ?_⟩
  · rw [streamed.message, whole.message, message_same named]
  · rw [or_of_told streamed.finish, or_of_told whole.finish]

theorem Fit.take {r : Seen V loads} (fit : Fit start r) (buffered : Bool) (turn : AssistantTurn) :
    Fit start (r.take buffered turn) := by
  have thought : Fit start (r.think (turn.reasoning.getD "")) := ⟨fit.named, fit.told⟩
  cases buffered with
  | true => exact thought
  | false => exact thought.release _

/-- **A round-trip**, streamed or not, reads the same turn. -/
theorem even_roundTrip : Agree (Even start) SameTurn
    (chat.scripted.roundTrip true) (chat.scripted.roundTrip false) := by
  refine .bind even_post ?_
  rintro _ _ ⟨reply, rfl, rfl, named⟩
  exact .of_ensures (fun _ => sees_readStream reply) (fun _ => sees_readJson reply.whole)
    (fun _ fit => fit.take _ _) fun _ _ => taken_same named

theorem even_completeTurn : Agree (Even start) SameTurn
    (chat.scripted.completeTurn true) (chat.scripted.completeTurn false) := by
  refine .bind even_guardPrompt ?_
  rintro verdict _ rfl
  refine .ite (fun _ => .bind (even_halt _) fun _ _ _ => ?_) fun _ => ?_
  · exact .pure ⟨rfl, rfl, fun _ => rfl⟩
  · refine .get_bind fun s s' alike => ?_
    rw [show s.messages = s'.messages from congrArg Seen.messages alike.1]
    refine .bind (even_note _) fun _ _ _ => .bind even_roundTrip ?_
    rintro ⟨message, finish, answer⟩ ⟨message', finish', answer'⟩ ⟨message, answer, finish⟩
    exact .pure ⟨congrArg some message, answer, finish⟩

/-! ## The turn -/

/-- The loop of `_run` ends for the same reason. -/
theorem even_turns (left : Nat) : Agree (Even start) Eq
    (chat.scripted.turns true left) (chat.scripted.turns false left) := by
  induction left with
  | zero => exact .pure rfl
  | succ left ih =>
    refine .bind even_expired ?_
    rintro late _ rfl
    refine .ite (fun _ => .pure rfl) fun _ => ?_
    refine .bind (V := fun c c' => c = none ∧ c' = none ∨
      ∃ x x', c = some x ∧ c' = some x' ∧ SameTurn x x') ?_ ?_
    · refine .tryCatch (.bind even_completeTurn fun x x' same => ?_) fun exn => ?_
      · exact .pure (Or.inr ⟨x, x', rfl, rfl, same⟩)
      · exact .ite (fun _ => .pure (Or.inl ⟨rfl, rfl⟩)) fun _ => .throw _
    · rintro _ _ (⟨rfl, rfl⟩ | ⟨⟨assistant, finish, answer⟩, ⟨_, finish', _⟩, rfl, rfl, same⟩)
      · exact .pure rfl
      obtain ⟨rfl, rfl, finish⟩ := same
      dsimp only at finish
      cases assistant with
      | none =>
        dsimp only
        rw [finish]
        exact .pure rfl
      | some assistant =>
        refine .bind (even_appendMessage _) fun _ _ _ => ?_
        refine .bind (even_note _) fun _ _ _ => ?_
        refine .bind (even_screenOutput _ _) ?_
        rintro halted _ rfl
        cases halted with
        | some reason => exact .pure rfl
        | none =>
          refine .ite (fun _ => ?_) fun _ => ?_
          · rw [finish]
            exact .pure rfl
          · refine .bind (Steady.lift _) ?_
            rintro calls _ rfl
            refine .bind (even_runTools calls) ?_
            rintro reason _ rfl
            cases reason with
            | some reason => exact .pure rfl
            | none => exact ih

theorem even_deadline (deadline : Option Rat) :
    Steady (Even start) (modify fun s => { s with deadline := deadline } :
      ChatM (DataPlane V loads) Unit) :=
  even_modify (g := fun r => { r with deadline := deadline }) (fun _ => rfl) (fun _ => rfl)
    (fun _ => rfl) fun _ => rfl

theorem even_own (user : Entry) :
    Steady (Even start) (modify fun s => { s with turn := { s.turn with own := user } } :
      ChatM (DataPlane V loads) Unit) :=
  even_modify (g := fun r => { r with turn := { r.turn with own := user } }) (fun _ => rfl)
    (fun _ => rfl) (fun _ => rfl) fun _ => rfl

theorem even_armDeadline : Steady (Even start) chat.scripted.armDeadline := by
  unfold OumiGoChat.armDeadline
  cases chat.scripted.turnTimeout with
  | none => exact even_deadline _
  | some budget => exact .ite (even_deadline _) (.bind (even_beside _) fun _ => even_deadline _)

theorem even_remember (user : Entry) (answer : String) :
    Steady (Even start) (chat.scripted.remember user answer) := by
  refine .ite (.pure _) ?_
  exact even_modify (g := fun r => { r with
    history := chat.scripted.trimHistory (r.history ++ [user, ⟨.assistant, answer, none⟩]) })
    (fun _ => rfl) (fun _ => rfl) (fun _ => rfl) fun _ => rfl

theorem even_finishReason (reason : PyVal) :
    Steady (Even start) (withResponse (fun resp => { resp with finishReason := reason }) :
      ChatM (DataPlane V loads) Unit) :=
  even_withResponse (fun _ => rfl) fun _ => rfl

theorem even_finishTurn (user : Entry) : Agree (Even start) Eq
    (chat.scripted.finishTurn user true) (chat.scripted.finishTurn user false) := by
  refine .bind even_armDeadline fun _ _ _ => .bind (even_turns _) ?_
  rintro reason _ rfl
  have marked : Steady (Even start) (chat.scripted.markTimeout reason) :=
    .ite (even_answer _ _) (.pure _)
  refine .bind marked fun _ _ _ => .bind (even_finishReason reason) fun _ _ _ => ?_
  exact even_text (fun s s' same => by simp only [same]) fun s => even_remember _ _

theorem even_withhold : Steady (Even start) (OumiGoChat.withhold : ChatM (DataPlane V loads) Unit) :=
  even_modify (g := fun r => { r with withheld := r.turn.index :: r.withheld }) (fun _ => rfl)
    (fun _ => rfl) (fun _ => rfl) fun _ => rfl

theorem even_run (user : Entry) : Agree (Even start) Eq
    (chat.scripted.run user true) (chat.scripted.run user false) := by
  refine .bind (even_guard _ _ _ _) ?_
  rintro x _ rfl
  refine .bind (even_recordFlags _ _) fun _ _ _ => .ite (fun _ => ?_) fun _ => ?_
  · refine .bind even_withhold fun _ _ _ => .bind (even_halt _) fun _ _ _ => ?_
    refine .bind (even_finishReason _) fun _ _ _ => ?_
    exact even_text (fun s s' same => by simp only [same]) fun s => even_remember _ _
  · refine .ite (fun _ => ?_) fun _ => ?_
    · exact .bind (even_note _) fun _ _ _ => even_finishTurn user
    · refine .bind even_withhold fun _ _ _ => .bind (even_own _) fun _ _ _ => ?_
      refine .bind (even_note _) fun _ _ _ => .bind (even_replaceLast _) fun _ _ _ => ?_
      exact even_finishTurn _

/-! ## The request -/

/-- `OumiGoResponse.__iter__` once the response is consumed. -/
def OumiGoChat.reiterate {W : Type} (chat : OumiGoChat W) : ChatM W Unit := do
  let text := (← get).resp.text
  if text = "" then pure () else outside (chat.outer.resume .answer (.str text))

/-- The pieces yielded since `s` are the text of the response, and iterating it again
yields the text once. -/
structure Iterated (chat : OumiGoChat V) (s s' : ChatState (DataPlane V chat.outer.loads)) :
    Prop where
  text : String.join s'.world.pieces = String.join s.world.pieces ++ s'.resp.text
  again : (final chat.scripted.reiterate s').world.pieces =
    s'.world.pieces ++ if s'.resp.text = "" then [] else [s'.resp.text]

theorem pieces_reiterate (s : ChatState (DataPlane V chat.outer.loads)) :
    (final chat.scripted.reiterate s).world.pieces =
      s.world.pieces ++ if s.resp.text = "" then [] else [s.resp.text] := by
  have read : final chat.scripted.reiterate s = final (if s.resp.text = "" then pure () else
    outside (chat.scripted.outer.resume .answer (.str s.resp.text))) s := rfl
  rw [read]
  split
  · exact (List.append_nil _).symm
  · change List.filterMap _ (s.world.yielded ++ [(PieceKind.answer, PyVal.str s.resp.text)]) = _
    rw [List.filterMap_append]
    rfl

theorem iterated_of_fit {s s' : ChatState (DataPlane V chat.outer.loads)}
    (fit : Fit (String.join s.world.pieces) s'.seen) : Iterated chat s s' :=
  ⟨fit.told, pieces_reiterate s'⟩

/-- What a caller gets of a request. -/
structure SameResponse (s s' : ChatState (DataPlane V loads)) : Prop where
  text : s.resp.text = s'.resp.text
  reasoning : s.resp.reasoning = s'.resp.reasoning
  toolCallsMade : s.resp.toolCallsMade = s'.resp.toolCallsMade
  finishReason : s.resp.finishReason = s'.resp.finishReason
  history : s.history = s'.history

theorem SameResponse.of_seen {s s' : ChatState (DataPlane V loads)} (same : s.seen = s'.seen) :
    SameResponse s s' :=
  ⟨congrArg (fun r => r.resp.text) same, congrArg (fun r => r.resp.reasoning) same,
    congrArg (fun r => r.resp.toolCallsMade) same, congrArg (fun r => r.resp.finishReason) same,
    congrArg Seen.history same⟩

/-- **Streaming parity.**  A request that is streamed and iterated to its end, and one
that is not, return the same response, or raise the same exception; in both, the text
is what was yielded. -/
theorem streaming_parity (text : String) {s : ChatState (DataPlane V chat.outer.loads)}
    (named : Named s.world.script) :
    SameEnd (fun s₁ s₂ => SameResponse s₁ s₂ ∧ Iterated chat s s₁ ∧ Iterated chat s s₂) Eq
      (chat.scripted.request (.str text) true s) (chat.scripted.request (.str text) false s) := by
  let begun := chat.scripted.begin text s
  have fit : Fit (String.join s.world.pieces) begun.seen := ⟨named, String.append_empty.symm⟩
  refine SameEnd.mono (even_run begun.turn.own begun begun ⟨rfl, fit⟩) ?_
  rintro s₁ s₂ ⟨same, fit₁⟩
  have fit₂ : Fit (String.join s.world.pieces) s₂.seen := same ▸ fit₁
  exact ⟨.of_seen same, iterated_of_fit fit₁, iterated_of_fit fit₂⟩

end

/-- A turn with a tool call and one without, both read in pieces. -/
theorem streaming_parity_lookup :
    Named [silentReply, answerReply] ∧
    SameEnd (fun s₁ s₂ => SameResponse s₁ s₂ ∧
        Iterated (lookupChat none) (beforeScript [silentReply, answerReply]) s₁ ∧
        Iterated (lookupChat none) (beforeScript [silentReply, answerReply]) s₂) Eq
      ((lookupChat none).scripted.request (.str "How many?") true
        (beforeScript [silentReply, answerReply]))
      ((lookupChat none).scripted.request (.str "How many?") false
        (beforeScript [silentReply, answerReply])) := by
  have named : Named [silentReply, answerReply] := by
    simp [Named, silentReply, answerReply, ScriptedReply.ofTurn, lookupTurn, answerTurn]
  -- through `And`, since a term of type `SameEnd` would be evaluated where it is applied
  exact And.imp_right (@streaming_parity _ (lookupChat none) "How many?"
    (beforeScript [silentReply, answerReply])) ⟨named, named⟩

/-- A guard that refuses a prompt with a tool message whose `tool_call_id` is `None`. -/
def idGuard : Guard Unit where
  points := some [.assembledPrompt]
  intercept _ ctx :=
    let nameless := (ctx.content.list?.getD []).any fun message =>
      match message with
      | .dict entries => match PyVal.lookup entries "tool_call_id" with
        | some .none => true
        | _ => false
      | _ => false
    pure (if nameless then .block "no tool_call_id" else .allow)

/-- The text of a response that was returned. -/
def answerOf {W : Type} : EStateM.Result Exn (ChatState W) Unit → Option String
  | .ok _ s => some s.resp.text
  | .error _ _ => none

theorem not_same_of_answers {x x' : EStateM.Result Exn (ChatState (DataPlane V loads)) Unit}
    {text text' : String} (left : answerOf x = some text) (right : answerOf x' = some text')
    (other : text ≠ text') : ¬ SameEnd SameResponse Eq x x' := by
  intro ends
  cases x <;> cases x'
  · obtain ⟨-, same⟩ := ends
    exact other (Option.some.inj (left.symm.trans ((congrArg some same.text).trans right)))
  · exact ends
  · exact ends
  · cases left

/-- The request of a chat with `idGuard`, whose model gives an empty id. -/
def askNameless (stream : Bool) :
    EStateM.Result Exn (ChatState (DataPlane Unit loadsLookup)) Unit :=
  (lookupChat (some ⟨"default", [idGuard]⟩)).scripted.request (.str "How many?") stream
    (beforeScript [namelessReply, answerReply])

/-- An empty id is sent back as it is, or as `None` when it was streamed, which the guard
refuses. -/
theorem empty_id_differs :
    answerOf (askNameless true) = some "no tool_call_id" ∧
    answerOf (askNameless false) = some "42" ∧
    ¬ SameEnd SameResponse Eq (askNameless true) (askNameless false) := by
  have streamed : answerOf (askNameless true) = some "no tool_call_id" := by decide +kernel
  have whole : answerOf (askNameless false) = some "42" := by decide +kernel
  exact ⟨streamed, whole, not_same_of_answers streamed whole (by decide)⟩

end Oumigo
