import Oumigo.Agent.Course

/-!
# Each function of a chat keeps to the course

One lemma per function of `api/agent/chat.py`, callees first, up to the loop of
`_run`.
-/

namespace Oumigo

open Python Trace Effect

variable {W : Type} {chat : OumiGoChat W} {P : Turn → List Event → Prop} {r₀ r r' : Record}

/-! ## What the acceptance tests amount to -/

theorem adopted_prompt (content : PyVal) (original : List PyVal) :
    adopted .assembledPrompt content (.list original) =
      .list (content.list?.getD original) := by
  cases content <;> rfl

theorem adopted_call (content original : PyVal) :
    adopted .toolCall content original = (content.dict?.map .dict).getD original := by
  cases content <;> rfl

theorem adopted_result (content : PyVal) (original : String) :
    adopted .toolResult content (.str original) =
      .str (content.str?.getD original) := by
  cases content <;> rfl

theorem adopted_output (hasToolCalls : Bool) (content original : PyVal) :
    adopted (if hasToolCalls then .assistantTurn else .finalAnswer) content original =
      (content.str?.map .str).getD original := by
  cases hasToolCalls <;> cases content <;> rfl

theorem output_mem (hasToolCalls : Bool) :
    (if hasToolCalls then InterceptPoint.assistantTurn else .finalAnswer) ∈ outputPoints := by
  cases hasToolCalls <;> decide

/-! ## The chain -/

/-- What `_guard` returned, and the record then. -/
inductive Consulted (chat : OumiGoChat W) (point : InterceptPoint) (content : PyVal) (r : Record) :
    PyVal × Verdict × List Verdict → Record → Prop
  | idle : chat.guarding = false → Consulted chat point content r (content, .allow, []) r
  | screened (outcome : ChainOutcome) :
    Consulted chat point content r (outcome.content, outcome.verdict, outcome.flags)
      (r.push (.screened point content outcome))

namespace Consulted

variable {point : InterceptPoint} {content : PyVal} {x : PyVal × Verdict × List Verdict}

theorem running (consulted : Consulted chat point content r x r') (running : Running chat P r₀ r)
    (due : ∀ outcome, Due chat P (.screened point content outcome) r.trace) :
    Running chat P r₀ r' := by
  cases consulted with
  | idle => exact running
  | screened outcome => exact running.push (due outcome) rfl

/-- A refusal leaves no tool result under way. -/
theorem idle_of_halts (consulted : Consulted chat point content r x r') (halts : x.2.1.halts) :
    bodyPending r'.trace = false := by
  cases consulted with
  | idle => cases halts
  | screened => rfl

/-- A chain that does not halt entitles the chat to go on with what it adopts. -/
theorem proceeds (consulted : Consulted chat point content r x r') (passes : ¬ x.2.1.halts) :
    Due chat P (.proceeded point (adopted point x.1 content)) r'.trace := by
  cases consulted with
  | idle off => exact fun guarding => absurd guarding (by simp [off])
  | screened outcome => exact fun _ => ⟨content, outcome, r.trace, rfl, passes, rfl⟩

end Consulted

theorem keeps_guard (running : Running chat P r₀ r) {point : InterceptPoint} {content : PyVal}
    {toolName : Option String} {messages : Option (List PyVal)} :
    Keeps chat P r₀ (chat.guard point content toolName messages) r
      (Consulted chat point content r) := by
  unfold OumiGoChat.guard
  split
  · next absent => exact .pure (.idle (by simp [OumiGoChat.guarding, absent]))
  · next profile present =>
    refine .ite (fun empty => ?_) fun _ => ?_
    · exact .pure (.idle (by simp [OumiGoChat.guarding, present, empty]))
    · refine .silent_bind (silent_outside _) running fun outcome => ?_
      refine ensures_note_bind ?_
      exact .pure (.screened outcome)

theorem due_screened {point : InterceptPoint} {content : PyVal} {outcome : ChainOutcome}
    {trace : List Event} (noResult : point ≠ .toolResult) (noOutput : point ∉ outputPoints) :
    Due chat P (.screened point content outcome) trace :=
  ⟨fun same => (noResult same).elim, fun output => (noOutput output).elim⟩

/-- Unless the prompt is refused, the chat may go on with its messages as they are now. -/
theorem keeps_guardPrompt (running : Running chat P r₀ r) :
    Keeps chat P r₀ chat.guardPrompt r fun verdict r' => Running chat P r₀ r' ∧ (¬ verdict.halts →
      Due chat P (.proceeded .assembledPrompt (.list r'.messages)) r'.trace) := by
  refine .ite (fun off => .pure ⟨running, fun _ guarding => ?_⟩) fun _ => ?_
  · simp [guarding] at off
  · refine .get_bind fun s shows => ?_
    have same : s.messages = r.messages := congrArg Record.messages shows
    refine .bind (keeps_guard running) ?_
    rintro ⟨newMessages, verdict, flags⟩ r' consulted
    have running' := consulted.running running fun _ => due_screened (by decide) (by decide)
    refine .silent_bind (silent_recordFlags _ _) running' fun _ => ?_
    refine .update_bind (g := fun r => r.withMessages (newMessages.list?.getD s.messages))
      (fun _ => rfl) ?_
    refine .pure ⟨running'.withMessages _, fun passes => ?_⟩
    have proceeds := consulted.proceeds (P := P) passes
    rw [adopted_prompt] at proceeds
    exact proceeds

/-! ## Model output -/

/-- `_guard_output` releases the prose of the completion that just arrived. -/
theorem keeps_guardOutput (running : Running chat P r₀ r) {answer : PyVal} {hasToolCalls : Bool}
    {rest : List Event} (arrived : r.trace = .completed answer hasToolCalls :: rest) :
    Keeps chat P r₀ (chat.guardOutput answer hasToolCalls) r fun _ => Resting chat P r₀ := by
  refine .get_bind fun s _ => ?_
  refine .bind (keeps_guard running) ?_
  rintro ⟨text, verdict, flags⟩ r₁ consulted
  have running₁ : Running chat P r₀ r₁ := by
    refine consulted.running running fun _ => ⟨fun same => ?_, fun _ => ⟨_, _, arrived, rfl⟩⟩
    cases hasToolCalls <;> cases same
  refine .silent_bind (silent_recordFlags _ _) running₁ fun _ => ?_
  refine .ite (fun _ => ?_) fun passes => ?_
  · refine .bind (keeps_halt running₁ verdict) fun _ r₂ resting => ?_
    refine .get_bind fun s _ => ?_
    exact .bind (keeps_setLastContent resting _) fun _ _ resting => .pure resting
  · have proceeds := consulted.proceeds (P := P) passes
    rw [adopted_output] at proceeds
    have resting := Resting.of_push running₁ proceeds rfl (by cases hasToolCalls <;> rfl)
    refine ensures_note_bind ?_
    refine .bind (keeps_releaseProse resting fun _ => ⟨_, _, output_mem hasToolCalls, rfl⟩)
      fun _ r₂ resting => ?_
    exact .bind (keeps_syncLast resting _ _) fun _ _ resting => .pure resting

theorem keeps_screenOutput (running : Resting chat P r₀ r) {answer : PyVal} {hasToolCalls : Bool}
    {rest : List Event} (arrived : r.trace = .completed answer hasToolCalls :: rest) :
    Keeps chat P r₀ (chat.screenOutput answer hasToolCalls) r fun _ => Resting chat P r₀ :=
  .ite (fun _ => keeps_guardOutput running.toRunning arrived) fun _ => .pure running

/-! ## One round-trip -/

/-- The turn of `r₀` may send, however its trace grows. -/
def Allowed (P : Turn → List Event → Prop) (r₀ : Record) : Prop :=
  ∀ trace, r₀.trace <:+ trace → P r₀.turn trace

/-- The messages are what the assembled prompt became. -/
def Prompted (r : Record) : Prop :=
  ∃ rest, r.trace = .proceeded .assembledPrompt (.list r.messages) :: rest

/-- The messages that the prompt became are what is sent. -/
theorem keeps_httpRequest (running : Running chat P r₀ r) (allowed : Allowed P r₀)
    (prompted : Prompted r) (stream : Bool) :
    Keeps chat P r₀ (chat.httpRequest stream) r fun _ => Resting chat P r₀ := by
  refine .get_bind fun s shows => ?_
  refine .silent_bind (silent_timeout (silent_outside _)) running fun _ => ?_
  refine .get_bind fun s' shows' => ?_
  have messages : s.messages = r.messages := congrArg Record.messages shows
  have turn : s'.turn = r₀.turn := (congrArg Record.turn shows').trans running.turn
  have due : Due chat P (.sent s'.turn s.messages) r.trace := by
    rw [turn, messages]
    exact ⟨allowed r.trace running.grows, prompted⟩
  exact ensures_note_bind (.pure (.of_push running due rfl rfl))

theorem keeps_postJson (running : Running chat P r₀ r) (allowed : Allowed P r₀)
    (prompted : Prompted r) :
    Keeps chat P r₀ chat.postJson r fun _ => Resting chat P r₀ := by
  refine .bind (keeps_httpRequest running allowed prompted false) fun _ r₁ resting => ?_
  refine .silent_bind (silent_outside _) resting.toRunning fun reply => ?_
  refine .silent_bind (.lift _) resting.toRunning fun _ => ?_
  exact .silent (.lift _) (fun _ => resting) resting.toRunning

theorem keeps_postStream (running : Running chat P r₀ r) (allowed : Allowed P r₀)
    (prompted : Prompted r) :
    Keeps chat P r₀ chat.postStream r fun _ => Resting chat P r₀ := by
  refine .bind (keeps_httpRequest running allowed prompted true) fun _ r₁ resting => ?_
  refine .silent_bind (silent_outside _) resting.toRunning fun reply => ?_
  refine .ite (fun _ => .pure resting) fun _ => ?_
  refine .silent_bind (silent_outside _) resting.toRunning fun _ => ?_
  exact .silent_bind (.lift _) resting.toRunning fun _ => .pure resting

theorem keeps_streamEvent (resting : Resting chat P r₀ r) (event : PyVal)
    (acc : OumiGoChat.StreamAcc) :
    Keeps chat P r₀ (chat.streamEvent event acc) r fun _ => Resting chat P r₀ := by
  have running := resting.toRunning
  refine .silent_bind (silent_withResponse fun _ => rfl) running fun _ => ?_
  refine .silent_bind (.lift _) running fun _ => ?_
  refine .silent_bind (.lift _) running fun _ => ?_
  refine .silent_bind (.lift _) running fun _ => ?_
  refine .silent_bind (.lift _) running fun _ => ?_
  refine .silent_bind (silent_yieldReasoning _) running fun _ => ?_
  refine .silent_bind (.lift _) running fun _ => ?_
  refine .bind (keeps_passThrough resting _) fun _ r₁ resting => ?_
  refine .silent_bind (.lift _) resting.toRunning fun _ => ?_
  refine .silent_bind (.lift _) resting.toRunning fun _ => ?_
  exact .silent_bind (.lift _) resting.toRunning fun _ => .pure resting

theorem keeps_streamEvents (resting : Resting chat P r₀ r) (lines : List (EStateM Exn W String))
    (acc : OumiGoChat.StreamAcc) :
    Keeps chat P r₀ (chat.streamEvents lines acc) r fun _ => Resting chat P r₀ := by
  induction lines generalizing r acc with
  | nil => exact .pure resting
  | cons line rest ih =>
    refine .silent_bind (silent_outside _) resting.toRunning fun line => ?_
    refine .silent_bind (.lift _) resting.toRunning fun kind => ?_
    cases kind with
    | skipped => exact ih resting acc
    | done => exact .pure resting
    | event event =>
      exact .bind (keeps_streamEvent resting event acc) fun acc _ resting => ih resting acc

theorem keeps_streamTurn (running : Running chat P r₀ r) (allowed : Allowed P r₀)
    (prompted : Prompted r) :
    Keeps chat P r₀ chat.streamTurn r fun _ => Resting chat P r₀ := by
  refine .bind (keeps_postStream running allowed prompted) fun lines r₁ resting => ?_
  refine .bind (keeps_streamEvents resting lines _) fun acc r₂ resting => ?_
  refine .silent_bind (.lift _) resting.toRunning fun _ => ?_
  refine .silent_bind (silent_noteReasoning _) resting.toRunning fun _ => ?_
  refine .silent_bind (.lift _) resting.toRunning fun _ => ?_
  refine .ite (fun _ => .pure resting) fun _ => ?_
  exact .silent_bind (.lift _) resting.toRunning fun _ => .pure resting

theorem keeps_jsonTurn (running : Running chat P r₀ r) (allowed : Allowed P r₀)
    (prompted : Prompted r) :
    Keeps chat P r₀ chat.jsonTurn r fun _ => Resting chat P r₀ := by
  refine .bind (keeps_postJson running allowed prompted) fun data r₁ resting => ?_
  have running := resting.toRunning
  refine .silent_bind (silent_withResponse fun _ => rfl) running fun _ => ?_
  refine .silent_bind (.lift _) running fun _ => ?_
  refine .silent_bind (.lift _) running fun _ => ?_
  refine .silent_bind (.lift _) running fun _ => ?_
  refine .silent_bind (silent_noteReasoning _) running fun _ => ?_
  refine .silent_bind (silent_yieldReasoning _) running fun _ => ?_
  refine .silent_bind (.lift _) running fun _ => ?_
  refine .silent_bind (.lift _) running fun _ => ?_
  refine .bind (keeps_passThrough resting _) fun _ r₂ resting => ?_
  exact .silent_bind (.lift _) resting.toRunning fun _ => .pure resting

theorem keeps_completeTurn (running : Running chat P r₀ r) (allowed : Allowed P r₀)
    (stream : Bool) : Keeps chat P r₀ (chat.completeTurn stream) r fun _ => Resting chat P r₀ := by
  refine .bind (keeps_guardPrompt running) ?_
  rintro verdict r₁ ⟨running₁, prompt⟩
  refine .ite (fun _ => ?_) fun passes => ?_
  · exact .bind (keeps_halt running₁ verdict) fun _ _ resting => .pure resting
  · refine .get_bind fun s shows => ?_
    have messages : s.messages = r₁.messages := congrArg Record.messages shows
    refine ensures_note_bind ?_
    rw [messages]
    have running₂ := running₁.push (prompt passes) rfl
    refine .bind (R := fun _ => Resting chat P r₀) ?_ fun _ _ resting => .pure resting
    cases stream with
    | true => exact keeps_streamTurn running₂ allowed ⟨r₁.trace, rfl⟩
    | false => exact keeps_jsonTurn running₂ allowed ⟨r₁.trace, rfl⟩

/-! ## Tools -/

/-- After the body ran, its text or its exception is the last event; an exception may
also come from the call itself. -/
def Invoked (outcome : Except Exn String) (trace : List Event) : Prop :=
  (∃ name kwargs rest, trace = .ran name kwargs outcome :: rest) ∨
  ((∃ exn, outcome = .error exn) ∧ bodyPending trace = false)

theorem keeps_invoke (running : Running chat P r₀ r) (tool : Tool W) (name : String) {args : PyVal}
    {rest : List Event} (passed : r.trace = .proceeded .toolCall args :: rest) :
    Keeps chat P r₀ (chat.invoke tool name args) r fun outcome r' =>
      Running chat P r₀ r' ∧ Invoked outcome r'.trace := by
  have idle : bodyPending r.trace = false := by rw [passed]; rfl
  unfold OumiGoChat.invoke
  split
  · next kwargs =>
    refine .ite (fun _ => .pure ⟨running, Or.inr ⟨⟨_, rfl⟩, idle⟩⟩) fun _ => ?_
    refine .bind (R := fun _ r' => r' = r) ?_ fun outcome r' same => ?_
    · refine .tryCatch (F := (· = r)) (.silent ?_ (fun _ => rfl) rfl) fun exn r' same => ?_
      · refine .bind (silent_outside _) fun out => ?_
        cases out with
        | str text => exact .pure _
        | _ => exact .bind (silent_outside _) fun _ => .pure _
      · subst same
        exact .ite (fun _ => .pure rfl) fun _ => .throw running
    · subst same
      have ran : Invoked outcome (r'.push (.ran name kwargs outcome)).trace :=
        Or.inl ⟨name, kwargs, r'.trace, rfl⟩
      exact ensures_note_bind (.pure ⟨running.push ⟨rest, passed⟩ rfl, ran⟩)
  · exact .pure ⟨running, Or.inr ⟨⟨_, rfl⟩, idle⟩⟩

theorem keeps_invokeGuarded (resting : Resting chat P r₀ r) (tool : Tool W) (name : String)
    (args : PyVal) :
    Keeps chat P r₀ (chat.invokeGuarded tool name args) r fun x r' =>
      Running chat P r₀ r' ∧ Delivered x.2.1 r'.trace := by
  refine .bind (keeps_guard resting.toRunning) ?_
  rintro ⟨gArgs, verdict, flags⟩ r₁ consulted
  have running₁ := consulted.running resting.toRunning fun _ =>
    due_screened (by decide) (by decide)
  refine .silent_bind (silent_recordFlags _ _) running₁ fun _ => ?_
  refine .ite (fun halts => ?_) fun passes => ?_
  · exact .pure ⟨running₁, Or.inr (Or.inr (consulted.idle_of_halts halts))⟩
  · have proceeds := consulted.proceeds (P := P) passes
    rw [adopted_call] at proceeds
    refine ensures_note_bind ?_
    refine .bind (keeps_invoke (running₁.push proceeds rfl) tool name rfl) ?_
    rintro (exn | text) r₂ ⟨running₂, invoked⟩
    · refine .pure ⟨running₂, ?_⟩
      rcases invoked with ⟨name, kwargs, rest, last⟩ | ⟨-, idle⟩
      · exact Or.inl ⟨name, kwargs, exn, rest, last, rfl⟩
      · exact Or.inr (Or.inr idle)
    · obtain ⟨name, kwargs, rest, last⟩ : ∃ name kwargs rest,
          r₂.trace = .ran name kwargs (.ok text) :: rest := by
        rcases invoked with ran | ⟨⟨exn, failed⟩, -⟩
        · exact ran
        · cases failed
      refine .bind (keeps_guard running₂) ?_
      rintro ⟨gResult, verdict, flags⟩ r₃ consulted
      have running₃ := consulted.running running₂ fun _ =>
        ⟨fun _ => ⟨name, kwargs, text, rest, last, rfl⟩, fun output => absurd output (by decide)⟩
      refine .silent_bind (silent_recordFlags _ _) running₃ fun _ => ?_
      refine .ite (fun halts => ?_) fun passes => ?_
      · exact .pure ⟨running₃, Or.inr (Or.inr (consulted.idle_of_halts halts))⟩
      · have proceeds := consulted.proceeds (P := P) passes
        rw [adopted_result] at proceeds
        exact ensures_note_bind (.pure ⟨running₃.push proceeds rfl, Or.inr (Or.inl ⟨_, rfl⟩)⟩)

/-- An executed call ends with its entry, whose result is the one fed back. -/
def Ended (result : String) (trace : List Event) : Prop :=
  ∃ call rest, trace = .recorded call :: rest ∧ call.result = result

theorem keeps_recordCall (running : Running chat P r₀ r) {call : ToolCallMade}
    (delivered : Delivered call.result r.trace) :
    Keeps chat P r₀ (OumiGoChat.recordCall call) r fun _ r' =>
      Running chat P r₀ r' ∧ Ended call.result r'.trace := by
  have due : Due chat P (.recorded call) r.trace := delivered
  have recorded := running.deliver due
  refine .update_bind (g := fun r => { r with output := (r.output.1, r.output.2 ++ [call]) })
    (fun _ => rfl) ?_
  have same : ({ r with output := (r.output.1, r.output.2 ++ [call]) } : Record).push
      (.recorded call) = r.deliver (.recorded call) := by
    unfold Record.push Record.deliver replay
    rw [running.output]
  refine ensures_note ?_
  rw [same]
  exact ⟨recorded, call, r.trace, rfl, rfl⟩

theorem keeps_executeTool (resting : Resting chat P r₀ r) (tc : PyVal) :
    Keeps chat P r₀ (chat.executeTool tc) r fun x r' =>
      Running chat P r₀ r' ∧ Ended x.1 r'.trace := by
  have running := resting.toRunning
  refine .silent_bind (.lift _) running fun _ => ?_
  refine .silent_bind (.lift _) running fun name => ?_
  refine .silent_bind (.lift _) running fun rawArgs => ?_
  refine .silent_bind (.lift _) running fun tool => ?_
  cases tool with
  | none =>
    refine .bind (keeps_recordCall running (Or.inr (Or.inr resting.idle))) ?_
    exact fun _ _ ended => .pure ended
  | some tool =>
    dsimp only
    split
    · refine .ite (fun _ => ?_) fun _ => .throw running
      refine .bind (keeps_recordCall running (Or.inr (Or.inr resting.idle))) ?_
      exact fun _ _ ended => .pure ended
    · next args _ =>
      refine .bind (keeps_invokeGuarded resting tool.2 tool.1 args) ?_
      rintro ⟨args, result, halted⟩ r₁ ⟨running₁, delivered⟩
      exact .bind (keeps_recordCall running₁ delivered) fun _ _ ended => .pure ended

theorem keeps_feedBack (running : Running chat P r₀ r) (tc : PyVal) {result : String}
    (ended : Ended result r.trace) :
    Keeps chat P r₀ (OumiGoChat.feedBack tc result) r fun _ => Resting chat P r₀ := by
  refine .silent_bind (.lift _) running fun _ => ?_
  refine ensures_appendMessage_bind ?_
  exact ensures_note (.of_push (running.withMessages _) ended rfl rfl)

theorem keeps_runTools (resting : Resting chat P r₀ r) (calls : List PyVal) :
    Keeps chat P r₀ (chat.runTools calls) r fun _ => Resting chat P r₀ := by
  induction calls generalizing r with
  | nil => exact .pure resting
  | cons tc rest ih =>
    refine .bind (keeps_executeTool resting tc) ?_
    rintro ⟨result, halted⟩ r₁ ⟨running₁, ended⟩
    refine .bind (keeps_feedBack running₁ tc ended) fun _ r₂ resting => ?_
    split
    · exact .pure resting
    · refine .silent_bind (silent_expired (silent_outside _)) resting.toRunning fun _ => ?_
      exact .ite (fun _ => .pure resting) fun _ => ih resting

/-! ## The loop -/

/-- **Every event of a turn is due.**  The loop of `_run` keeps to the course, whether
it ends or raises. -/
theorem keeps_turns (resting : Resting chat P r₀ r) (allowed : Allowed P r₀) (stream : Bool)
    (left : Nat) :
    Keeps chat P r₀ (chat.turns stream left) r fun _ => Running chat P r₀ := by
  induction left generalizing r with
  | zero => exact .pure resting.toRunning
  | succ left ih =>
    refine .silent_bind (silent_expired (silent_outside _)) resting.toRunning fun _ => ?_
    refine .ite (fun _ => .pure resting.toRunning) fun _ => ?_
    refine .bind (R := fun _ => Running chat P r₀) ?_ ?_
    · refine .tryCatch (F := Running chat P r₀) ?_ fun exn r' running => ?_
      · refine .bind (keeps_completeTurn resting.toRunning allowed stream) fun _ r' resting => ?_
        exact .pure resting.toRunning
      · exact .ite (fun _ => .pure running) fun _ => .throw running
    · rintro (_ | ⟨_ | assistant, finish, answer⟩) r₁ running₁
      · exact .pure running₁
      · exact .pure running₁
      · refine ensures_appendMessage_bind ?_
        refine ensures_note_bind ?_
        have arrived : Resting chat P r₀ ((r₁.withMessages (r₁.messages ++
            [assistant.toMessage])).push (.completed answer assistant.toolCallsOr.truthy)) :=
          .of_push (running₁.withMessages _) trivial rfl rfl
        refine .bind (keeps_screenOutput arrived rfl) fun halted r₂ resting₂ => ?_
        cases halted with
        | some reason => exact .pure resting₂.toRunning
        | none =>
          refine .ite (fun _ => .pure resting₂.toRunning) fun _ => ?_
          refine .silent_bind (.lift _) resting₂.toRunning fun calls => ?_
          refine .bind (keeps_runTools resting₂ calls) fun reason r₃ resting₃ => ?_
          cases reason with
          | some reason => exact .pure resting₃.toRunning
          | none => exact ih resting₃

end Oumigo
