import Oumigo.Agent.Script

/-!
# What a view of a chat does not show

Guards, tools and the consumer work beside the data plane.  `Aside chat view` says so of a
view of the chat's state: nothing they do shows, nor do the messages, the trace, and the
response but for its finish reason.  The functions of `api/agent/chat.py` that do no more
than that are then silent; what shows are its round-trips, its clock and how a turn ends.
-/

namespace Oumigo

open Python Effect

variable {W ρ : Type}

structure Aside (chat : OumiGoChat W) (view : ChatState W → ρ) : Prop where
  evaluates : ∀ profile, chat.agent.profile = some profile → ∀ point ctx,
    Silent view (outside (profile.evaluate point ctx))
  invokes : ∀ name tool, chat.agent.tools.get? name = some tool → ∀ kwargs,
    Silent view (outside (tool.fn kwargs))
  dumps : ∀ value, Silent view (outside (chat.outer.dumps value))
  resumes : ∀ kind piece, Silent view (outside (chat.outer.resume kind piece))
  notes : ∀ event, Silent view (note event)
  responds : ∀ change, (∀ resp, (change resp).finishReason = resp.finishReason) →
    Silent view (withResponse change)
  messages : ∀ messages s, view { s with messages := messages } = view s

namespace Aside

variable {chat : OumiGoChat W} {view : ChatState W → ρ} (aside : Aside chat view)

include aside

theorem recordFlags (point : InterceptPoint) (flags : List Verdict) :
    Silent view (recordFlags point flags) :=
  aside.responds _ fun _ => rfl

theorem noteReasoning (text : PyVal) : Silent view (noteReasoning text) :=
  .ite (.bind (.lift _) fun _ => aside.responds _ fun _ => rfl) (.pure _)

theorem appendMessage (message : PyVal) : Silent view (appendMessage message : ChatM W Unit) :=
  .modify fun s => aside.messages (s.messages ++ [message]) s

theorem replaceLast (message : PyVal) : Silent view (replaceLast message : ChatM W Unit) :=
  .modify fun s => aside.messages (s.messages.dropLast ++ [message]) s

theorem setLastContent (content : PyVal) :
    Silent view (setLastContent content : ChatM W Unit) := by
  refine .bind .get fun s => ?_
  split
  · exact aside.replaceLast _
  · exact .throw _
  · exact .throw _

theorem syncLast (text : Option String) (answer : PyVal) :
    Silent view (syncLast text answer : ChatM W Unit) := by
  cases text with
  | some s => exact .ite (.pure _) (aside.setLastContent _)
  | none => exact .pure _

theorem answer (source : PieceSource) (text : String) : Silent view (chat.answer source text) :=
  .bind (aside.responds _ fun _ => rfl) fun _ =>
    .bind (aside.notes _) fun _ => aside.resumes _ _

theorem halt (verdict : Verdict) : Silent view (chat.halt verdict) := aside.answer _ _

theorem markTimeout (reason : PyVal) : Silent view (chat.markTimeout reason) :=
  .ite (aside.answer _ _) (.pure _)

theorem releaseProse (text : PyVal) : Silent view (chat.releaseProse text) :=
  .ite (.bind (.lift _) fun _ => aside.answer _ _) (.pure _)

theorem passThrough (text : PyVal) : Silent view (chat.passThrough text) :=
  .ite (.pure _) (aside.releaseProse _)

theorem yieldReasoning (text : PyVal) : Silent view (chat.yieldReasoning text) :=
  .ite (aside.resumes _ _) (.pure _)

/-! ## The guard chain -/

theorem guard (point : InterceptPoint) (content : PyVal) (toolName : Option String)
    (messages : Option (List PyVal)) :
    Silent view (chat.guard point content toolName messages) := by
  unfold OumiGoChat.guard
  split
  · exact .pure _
  · next profile present =>
    refine .ite (.pure _) (.bind (aside.evaluates profile present _ _) fun _ => ?_)
    exact .bind (aside.notes _) fun _ => .pure _

theorem guardPrompt : Silent view chat.guardPrompt := by
  refine .ite (.pure _) (.bind .get fun s => .bind (aside.guard _ _ _ _) fun _ => ?_)
  exact .bind (aside.recordFlags _ _) fun _ =>
    .bind (.modify fun t => aside.messages _ t) fun _ => .pure _

theorem screenOutput (answer : PyVal) (hasToolCalls : Bool) :
    Silent view (chat.screenOutput answer hasToolCalls) := by
  refine .ite (.bind .get fun s => .bind (aside.guard _ _ _ _) fun x => ?_) (.pure _)
  refine .bind (aside.recordFlags _ _) fun _ => .ite ?_ ?_
  · refine .bind (aside.halt _) fun _ => .bind .get fun s => ?_
    exact .bind (aside.setLastContent _) fun _ => .pure _
  · refine .bind (aside.notes _) fun _ => .bind (aside.releaseProse _) fun _ => ?_
    exact .bind (aside.syncLast _ _) fun _ => .pure _

/-! ## What a reply is read into -/

theorem streamEvent (event : PyVal) (acc : OumiGoChat.StreamAcc) :
    Silent view (chat.streamEvent event acc) := by
  refine .bind (aside.responds _ fun _ => rfl) fun _ => .bind (.lift _) fun _ => ?_
  refine .bind (.lift _) fun _ => .bind (.lift _) fun _ => .bind (.lift _) fun _ => ?_
  refine .bind (aside.yieldReasoning _) fun _ => .bind (.lift _) fun _ => ?_
  refine .bind (aside.passThrough _) fun _ => .bind (.lift _) fun _ => ?_
  exact .bind (.lift _) fun _ => .bind (.lift _) fun _ => .pure _

/-- What reading the lines keeps is kept until the turn is put together. -/
theorem readStream {I : ρ → Prop} {lines : List (EStateM Exn W String)} {r : ρ}
    (reads : ∀ line ∈ lines, ∀ r, I r → Ensures view (outside line) r (fun _ => I) I)
    (start : I r) : Ensures view (chat.readStream lines) r (fun _ => I) I := by
  have events (acc : OumiGoChat.StreamAcc) :
      Ensures view (chat.streamEvents lines acc) r (fun _ => I) I := by
    induction lines generalizing r acc with
    | nil => exact .pure start
    | cons line rest ih =>
      have later := fun line member => reads line (List.mem_cons_of_mem _ member)
      refine .bind (reads line List.mem_cons_self r start) fun text r₁ kept => ?_
      refine .silent_bind (.lift _) kept fun kind => ?_
      cases kind with
      | skipped => exact ih later kept acc
      | done => exact .pure kept
      | event event => exact .silent_bind (aside.streamEvent _ _) kept fun acc => ih later kept acc
  refine .bind (events _) fun acc r₁ kept => .silent_bind (.lift _) kept fun _ => ?_
  refine .silent_bind (aside.noteReasoning _) kept fun _ => .silent_bind (.lift _) kept fun _ => ?_
  exact .ite (fun _ => .pure kept) fun _ => .silent_bind (.lift _) kept fun _ => .pure kept

theorem readJson (data : PyVal) : Silent view (chat.readJson data) := by
  refine .bind (aside.responds _ fun _ => rfl) fun _ => .bind (.lift _) fun _ => ?_
  refine .bind (.lift _) fun _ => .bind (.lift _) fun _ => ?_
  refine .bind (aside.noteReasoning _) fun _ => .bind (aside.yieldReasoning _) fun _ => ?_
  refine .bind (.lift _) fun _ => .bind (.lift _) fun _ => ?_
  exact .bind (aside.passThrough _) fun _ => .bind (.lift _) fun _ => .pure _

/-! ## Tools -/

theorem invoke {name : String} {tool : Tool W}
    (found : chat.agent.tools.get? name = some tool) (args : PyVal) :
    Silent view (chat.invoke tool name args) := by
  unfold OumiGoChat.invoke
  split
  · refine .ite (.pure _) (.bind (.tryCatch ?_ fun exn => .ite (.pure _) (.throw _)) fun _ => ?_)
    · refine .bind (aside.invokes name tool found _) fun out => ?_
      cases out with
      | str text => exact .pure _
      | _ => exact .bind (aside.dumps _) fun _ => .pure _
    · exact .bind (aside.notes _) fun _ => .pure _
  · exact .pure _

theorem invokeGuarded {name : String} {tool : Tool W}
    (found : chat.agent.tools.get? name = some tool) (args : PyVal) :
    Silent view (chat.invokeGuarded tool name args) := by
  refine .bind (aside.guard _ _ _ _) fun _ => .bind (aside.recordFlags _ _) fun _ => ?_
  refine .ite (.pure _) (.bind (aside.notes _) fun _ => ?_)
  refine .bind (aside.invoke found _) fun outcome => ?_
  cases outcome with
  | error exn => exact .pure _
  | ok result =>
    refine .bind (aside.guard _ _ _ _) fun _ => .bind (aside.recordFlags _ _) fun _ => ?_
    exact .ite (.pure _) (.bind (aside.notes _) fun _ => .pure _)

theorem recordCall (call : ToolCallMade) :
    Silent view (OumiGoChat.recordCall call : ChatM W Unit) :=
  .bind (aside.responds _ fun _ => rfl) fun _ => aside.notes _

theorem executeTool (tc : PyVal) : Silent view (chat.executeTool tc) := by
  refine .bind (.lift _) fun _ => .bind (.lift _) fun name => .bind (.lift _) fun rawArgs => ?_
  refine .lift_bind fun found named => ?_
  cases found with
  | none => exact .bind (aside.recordCall _) fun _ => .pure _
  | some found =>
    dsimp only
    split
    · exact .ite (.bind (aside.recordCall _) fun _ => .pure _) (.throw _)
    · refine .bind (aside.invokeGuarded (toolNamed_some named) _) fun _ => ?_
      exact .bind (aside.recordCall _) fun _ => .pure _

theorem feedBack (tc : PyVal) (result : String) :
    Silent view (OumiGoChat.feedBack tc result : ChatM W Unit) :=
  .bind (.lift _) fun _ => .bind (aside.appendMessage _) fun _ => aside.notes _

end Aside

end Oumigo
