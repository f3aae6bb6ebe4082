import Oumigo.Foundation.Trace
import Oumigo.Agent.Chat

/-!
# The course of a request

Every event of a request is justified by the events right before it: what is sent
is what the assembled prompt became, a tool runs on what its arguments became, an
entry of `tool_calls_made` holds what the result became or comes from a path that
never reached `TOOL_RESULT`, and so on (`Due`).  `Running` says that a turn has kept to
this so far; it holds where a run ends with an exception as well.
-/

namespace Oumigo

open Python Trace Effect

variable {W : Type}

/-! ## What the code does with a chain's content -/

/-- The chat takes a content of this type at `point`. -/
def accepts : InterceptPoint → PyVal → Bool
  | .assembledPrompt, content => content.list?.isSome
  | .toolCall, content => content.dict?.isSome
  | _, content => content.str?.isSome

/-- What goes on for `original` when the chain gave `content` and did not halt. -/
def adopted (point : InterceptPoint) (content original : PyVal) : PyVal :=
  if accepts point content then content else original

/-! ## Justified events -/

/-- The last event is that a tool body gave a text, or that the text is kept. -/
def bodyPending : List Event → Bool
  | .ran .. :: _ => true
  | .proceeded .toolResult _ :: _ => true
  | _ => false

/-- Where the result of a call comes from. -/
def Delivered (result : String) (before : List Event) : Prop :=
  (∃ name kwargs exn rest, before = .ran name kwargs (.error exn) :: rest ∧
    result = OumiGoChat.errorText exn) ∨
  (∃ rest, before = .proceeded .toolResult (.str result) :: rest) ∨
  bodyPending before = false

/-- What is due before an event, in a chat whose turns satisfy `P` when they send. -/
def Due (chat : OumiGoChat W) (P : Turn → List Event → Prop) : Event → List Event → Prop
  | .asked _, _ => True
  | .screened point content _, before =>
      (point = .toolResult → ∃ name kwargs text rest,
        before = .ran name kwargs (.ok text) :: rest ∧ content = .str text) ∧
      (point ∈ outputPoints → ∃ hasToolCalls rest,
        before = .completed content hasToolCalls :: rest ∧
        point = if hasToolCalls then .assistantTurn else .finalAnswer)
  | .proceeded point content, before => chat.guarding →
      ∃ original outcome rest, before = .screened point original outcome :: rest ∧
        ¬ outcome.verdict.halts ∧ content = adopted point outcome.content original
  | .sent turn messages, before =>
      P turn before ∧ ∃ rest, before = .proceeded .assembledPrompt (.list messages) :: rest
  | .completed .., _ => True
  | .ran _ kwargs _, before => ∃ rest, before = .proceeded .toolCall (.dict kwargs) :: rest
  | .recorded call, before => Delivered call.result before
  | .fedBack result, before => ∃ call rest, before = .recorded call :: rest ∧ call.result = result
  | .released source text, before => source = .prose → chat.bufferOutput →
      ∃ point rest, point ∈ outputPoints ∧ before = .proceeded point (.str text) :: rest

/-- The text and the calls of the response, as the events of the request give them. -/
def replay : List Event → String × List ToolCallMade
  | [] => ("", [])
  | .asked _ :: _ => ("", [])
  | .released _ text :: before => ((replay before).1 ++ text, (replay before).2)
  | .recorded call :: before => ((replay before).1, (replay before).2 ++ [call])
  | _ :: before => replay before

def OumiGoResponse.output (resp : OumiGoResponse) : String × List ToolCallMade :=
  (resp.text, resp.toolCallsMade)

theorem Due.mono {chat : OumiGoChat W} {P Q : Turn → List Event → Prop}
    (weaken : ∀ turn before, P turn before → Q turn before) (event : Event) (before : List Event)
    (due : Due chat P event before) : Due chat Q event before := by
  cases event with
  | sent turn messages => exact ⟨weaken turn before due.1, due.2⟩
  | _ => exact due

/-- What the rules for a request speak of. -/
structure Record where
  messages : List PyVal
  history : List Entry
  turn : Turn
  requests : Nat
  withheld : List Nat
  trace : List Event
  output : String × List ToolCallMade

def ChatState.record (s : ChatState W) : Record :=
  ⟨s.messages, s.history, s.turn, s.requests, s.withheld, s.trace, s.resp.output⟩

namespace Record

def push (r : Record) (event : Event) : Record := { r with trace := event :: r.trace }

/-- `event` gives a piece of the response. -/
def deliver (r : Record) (event : Event) : Record :=
  { r with trace := event :: r.trace, output := replay (event :: r.trace) }

def withMessages (r : Record) (messages : List PyVal) : Record := { r with messages := messages }

end Record

/-- `r` is a point of the turn that started at `r₀`. -/
structure Running (chat : OumiGoChat W) (P : Turn → List Event → Prop) (r₀ r : Record) : Prop where
  history : r.history = r₀.history
  turn : r.turn = r₀.turn
  requests : r.requests = r₀.requests
  withheld : r.withheld = r₀.withheld
  grows : r₀.trace <:+ r.trace
  output : r.output = replay r.trace
  course : Justified (Due chat P) r.trace

/-- No tool result is under way. -/
structure Resting (chat : OumiGoChat W) (P : Turn → List Event → Prop) (r₀ r : Record) : Prop
    extends Running chat P r₀ r where
  idle : bodyPending r.trace = false

section

variable {chat : OumiGoChat W} {P : Turn → List Event → Prop} {r₀ r r' : Record} {α β : Type}

namespace Running

/-- An event that gives no piece of the response. -/
theorem push (running : Running chat P r₀ r) {event : Event} (due : Due chat P event r.trace)
    (inner : replay (event :: r.trace) = replay r.trace) : Running chat P r₀ (r.push event) :=
  ⟨running.history, running.turn, running.requests, running.withheld,
    running.grows.trans (List.suffix_cons event r.trace), running.output.trans inner.symm,
    .cons due running.course⟩

theorem deliver (running : Running chat P r₀ r) {event : Event}
    (due : Due chat P event r.trace) : Running chat P r₀ (r.deliver event) :=
  ⟨running.history, running.turn, running.requests, running.withheld,
    running.grows.trans (List.suffix_cons event r.trace), rfl, .cons due running.course⟩

theorem withMessages (running : Running chat P r₀ r) (messages : List PyVal) :
    Running chat P r₀ (r.withMessages messages) :=
  ⟨running.history, running.turn, running.requests, running.withheld, running.grows, running.output,
    running.course⟩

/-- The turn seen from `r` on. -/
theorem start (output : r.output = replay r.trace) (course : Justified (Due chat P) r.trace) :
    Running chat P r r :=
  ⟨rfl, rfl, rfl, rfl, List.suffix_refl _, output, course⟩

end Running

namespace Resting

theorem of_push (running : Running chat P r₀ r) {event : Event}
    (due : Due chat P event r.trace) (inner : replay (event :: r.trace) = replay r.trace)
    (idle : bodyPending (event :: r.trace) = false) : Resting chat P r₀ (r.push event) :=
  ⟨running.push due inner, idle⟩

theorem withMessages (resting : Resting chat P r₀ r) (messages : List PyVal) :
    Resting chat P r₀ (r.withMessages messages) :=
  ⟨resting.toRunning.withMessages messages, resting.idle⟩

end Resting

/-- From `r`, `m` returns with `Q` or raises, in the course of the turn from `r₀`. -/
abbrev Keeps (chat : OumiGoChat W) (P : Turn → List Event → Prop) (r₀ : Record)
    (m : ChatM W α) (r : Record) (Q : α → Record → Prop) : Prop :=
  Ensures ChatState.record m r Q (Running chat P r₀)

/-! ## Silent steps -/

theorem silent_outside (action : EStateM Exn W α) :
    Silent ChatState.record (outside action) := by
  refine Silent.zoom ?_ action
  intro _ _
  rfl

theorem silent_withResponse {change : OumiGoResponse → OumiGoResponse}
    (same : ∀ resp, (change resp).output = resp.output) :
    Silent ChatState.record (withResponse change : ChatM W Unit) := by
  refine .modify fun s => ?_
  unfold ChatState.record
  rw [same]

theorem silent_recordFlags (point : InterceptPoint) (flags : List Verdict) :
    Silent ChatState.record (recordFlags point flags : ChatM W Unit) :=
  silent_withResponse fun _ => rfl

theorem silent_noteReasoning (text : PyVal) :
    Silent ChatState.record (noteReasoning text : ChatM W Unit) :=
  .ite (.bind (.lift _) fun _ => silent_withResponse fun _ => rfl) (.pure _)

theorem silent_yieldReasoning (text : PyVal) :
    Silent ChatState.record (chat.yieldReasoning text) :=
  .ite (silent_outside _) (.pure _)

section

variable {ρ : Type} {view : ChatState W → ρ}
  (clock : Silent view (outside chat.outer.monotonic))

include clock

theorem silent_remaining : Silent view chat.remaining := by
  refine .bind .get fun s => ?_
  cases s.deadline with
  | none => exact .pure _
  | some deadline => exact .bind clock fun _ => .pure _

theorem silent_expired : Silent view chat.expired := by
  refine .bind (silent_remaining clock) fun left => ?_
  cases left with
  | none => exact .pure _
  | some left => exact .pure _

theorem silent_timeout : Silent view chat.timeout := by
  refine .bind (silent_remaining clock) fun left => ?_
  cases left with
  | none => exact .pure _
  | some left =>
    cases stall : chat.stallTimeout with
    | none => exact .pure _
    | some stall => exact .pure _

theorem silent_armDeadline
    (hidden : ∀ (s : ChatState W) deadline, view { s with deadline := deadline } = view s) :
    Silent view chat.armDeadline := by
  unfold OumiGoChat.armDeadline
  cases chat.turnTimeout with
  | none => exact .modify fun s => hidden s _
  | some budget =>
    exact .ite (.modify fun s => hidden s _)
      (.bind clock fun _ => .modify fun s => hidden s _)

end

/-! ## Steps that write -/

variable {E : Record → Prop}

theorem ensures_note {event : Event} {Q : Unit → Record → Prop} (post : Q () (r.push event)) :
    Ensures ChatState.record (note event : ChatM W Unit) r Q E :=
  .update (g := fun r => r.push event) (fun _ => rfl) post

theorem ensures_note_bind {event : Event} {rest : Unit → ChatM W β} {Q : β → Record → Prop}
    (next : Ensures ChatState.record (rest ()) (r.push event) Q E) :
    Ensures ChatState.record (note event >>= rest) r Q E :=
  .update_bind (g := fun r => r.push event) (fun _ => rfl) next

theorem ensures_appendMessage_bind {message : PyVal} {rest : Unit → ChatM W β}
    {Q : β → Record → Prop}
    (next : Ensures ChatState.record (rest ()) (r.withMessages (r.messages ++ [message])) Q E) :
    Ensures ChatState.record (appendMessage message >>= rest) r Q E :=
  .update_bind (g := fun r => r.withMessages (r.messages ++ [message])) (fun _ => rfl) next

theorem ensures_replaceLast {message : PyVal} {Q : Unit → Record → Prop}
    (post : Q () (r.withMessages (r.messages.dropLast ++ [message]))) :
    Ensures ChatState.record (replaceLast message : ChatM W Unit) r Q E :=
  .update (g := fun r => r.withMessages (r.messages.dropLast ++ [message])) (fun _ => rfl) post

theorem ensures_replaceLast_bind {message : PyVal} {rest : Unit → ChatM W β}
    {Q : β → Record → Prop}
    (next : Ensures ChatState.record (rest ())
      (r.withMessages (r.messages.dropLast ++ [message])) Q E) :
    Ensures ChatState.record (replaceLast message >>= rest) r Q E :=
  .update_bind (g := fun r => r.withMessages (r.messages.dropLast ++ [message])) (fun _ => rfl)
    next

theorem keeps_setLastContent (resting : Resting chat P r₀ r) (content : PyVal) :
    Keeps chat P r₀ (setLastContent content) r fun _ => Resting chat P r₀ := by
  refine .get_bind fun s _ => ?_
  split
  · exact ensures_replaceLast (resting.withMessages _)
  · exact .throw resting.toRunning
  · exact .throw resting.toRunning

theorem keeps_syncLast (resting : Resting chat P r₀ r) (text : Option String) (answer : PyVal) :
    Keeps chat P r₀ (syncLast text answer) r fun _ => Resting chat P r₀ := by
  cases text with
  | some s => exact .ite (fun _ => .pure resting) fun _ => keeps_setLastContent resting _
  | none => exact .pure resting

/-- Text for the caller is noted before the consumer gets it. -/
theorem keeps_answer (running : Running chat P r₀ r) {source : PieceSource} {text : String}
    (due : Due chat P (.released source text) r.trace) :
    Keeps chat P r₀ (chat.answer source text) r fun _ => Resting chat P r₀ := by
  have delivered := running.deliver due
  refine .update_bind (g := fun r => { r with output := (r.output.1 ++ text, r.output.2) })
    (fun _ => rfl) ?_
  refine ensures_note_bind ?_
  have same : ({ r with output := (r.output.1 ++ text, r.output.2) } : Record).push
      (.released source text) = r.deliver (.released source text) := by
    unfold Record.push Record.deliver replay
    rw [running.output]
  rw [same]
  exact .silent (silent_outside _) (fun _ => ⟨delivered, rfl⟩) delivered

theorem keeps_halt (running : Running chat P r₀ r) (verdict : Verdict) :
    Keeps chat P r₀ (chat.halt verdict) r fun _ => Resting chat P r₀ :=
  keeps_answer running fun prose => nomatch prose

/-- Prose is released when nothing is buffered, or when an output point let it pass. -/
theorem keeps_releaseProse (resting : Resting chat P r₀ r) {text : PyVal}
    (due : chat.bufferOutput → ∃ point rest, point ∈ outputPoints ∧
      r.trace = .proceeded point text :: rest) :
    Keeps chat P r₀ (chat.releaseProse text) r fun _ => Resting chat P r₀ := by
  refine .ite (fun _ => ?_) fun _ => .pure resting
  refine .lift_bind resting.toRunning fun piece isStr => ?_
  have same : text = .str piece := by
    cases text <;> cases isStr
    rfl
  subst same
  exact keeps_answer resting.toRunning fun _ => due

theorem keeps_passThrough (resting : Resting chat P r₀ r) (text : PyVal) :
    Keeps chat P r₀ (chat.passThrough text) r fun _ => Resting chat P r₀ :=
  .ite (fun _ => .pure resting) fun live =>
    keeps_releaseProse resting fun buffered => absurd buffered live

end

end Oumigo
