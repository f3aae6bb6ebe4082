import Oumigo.Agent.Screening
import Oumigo.Agent.Script

/-!
# A tool call that fails is fed back

`_execute_tool` turns an unknown tool, arguments that do not parse and an exception of the
tool body into a text for the model.  The arguments are parsed outside of the `try` that
guards the body, and only `ValueError` is caught there, so a call whose arguments are not a
text makes `json.loads` raise a `TypeError` that nobody catches.  `executeTool_returns_iff`
says for which calls `_execute_tool` does return.
-/

namespace Oumigo

open Python Effect

variable {W : Type} {chat : OumiGoChat W}

/-! ## Calls and surroundings -/

/-- A tool call as the data plane may return it: the function is missing or an object, its
name missing or a string; these are its name and its arguments. -/
def CallShape (tc : PyVal) (name : String) (rawArgs : PyVal) : Prop :=
  ∃ entries fn, tc = .dict entries ∧
    (fn = [] ∧ (PyVal.lookup entries "function" = none ∨
        PyVal.lookup entries "function" = some .none) ∨
      PyVal.lookup entries "function" = some (.dict fn)) ∧
    (PyVal.lookup fn "name").getD (.str "") = .str name ∧
    rawArgs = ((PyVal.lookup fn "arguments").getD .none).or (.str "{}")

/-- What the chat calls raises nothing but an `Exception`. -/
structure Mannered (chat : OumiGoChat W) : Prop where
  guards : ∀ profile, chat.agent.profile = some profile → ∀ guard ∈ profile.guards,
    ∀ point ctx, Raises (fun exn => exn.isException) (guard.intercept point ctx)
  tools : ∀ name tool, chat.agent.tools.get? name = some tool → ∀ kwargs,
    Raises (fun exn => exn.isException) (tool.fn kwargs)
  dumps : ∀ value, Raises (fun exn => exn.isException) (chat.outer.dumps value)

/-- The tool is unknown, or its arguments parse, or fail to with a `ValueError`. -/
def Answerable (chat : OumiGoChat W) (name : String) (rawArgs : PyVal) : Prop :=
  chat.agent.tools.get? name = none ∨
    ∀ exn, chat.loadArguments rawArgs = .error exn → exn.kind = .valueError

/-- `_execute_tool` returned a text, and recorded the call with it. -/
def Recovers (chat : OumiGoChat W) (tc : PyVal) (name : String) (s : ChatState W) : Prop :=
  ∃ result halted s', chat.executeTool tc s = .ok (result, halted) s' ∧
    ∃ arguments, s'.resp.toolCallsMade = s.resp.toolCallsMade ++ [⟨.str name, arguments, result⟩]

/-! ## Nothing is raised -/

section

variable {A : Exn → Prop} {α : Type}

theorem raises_evaluate {point : InterceptPoint} {ctx : GuardContext} {guards : List (Guard W)}
    (mannered : ∀ guard ∈ guards, ∀ point ctx,
      Raises (fun exn => exn.isException) (guard.intercept point ctx))
    (content : PyVal) (flags : List Verdict) :
    Raises A (GuardChain.evaluate point ctx guards content flags) := by
  induction guards generalizing content flags with
  | nil => exact .pure _
  | cons guard rest ih =>
    have later := ih fun guard member => mannered guard (List.mem_cons_of_mem _ member)
    refine .ite (fun _ => later content flags) fun _ => .bind ?_ fun verdict => ?_
    · refine .tryCatch (mannered guard List.mem_cons_self point _) fun exn caught => ?_
      exact .ite (fun _ => .pure _) fun uncaught => absurd caught uncaught
    · refine .ite (fun _ => later content flags) fun _ => .ite (fun _ => later content _) fun _ => ?_
      exact .ite (fun _ => later _ flags) fun _ => .pure _

variable (mannered : Mannered chat)

include mannered

theorem raises_guard (point : InterceptPoint) (content : PyVal) (toolName : Option String)
    (messages : Option (List PyVal)) :
    Raises A (chat.guard point content toolName messages) := by
  unfold OumiGoChat.guard
  split
  · exact .pure _
  · next profile present =>
    refine .ite (fun _ => .pure _) fun _ => .bind (.zoom ?_) fun _ => ?_
    · exact raises_evaluate (mannered.guards profile present) _ _
    · exact .bind (.modify _) fun _ => .pure _

/-- An exception of the body is caught. -/
theorem raises_invoke {name : String} {tool : Tool W}
    (found : chat.agent.tools.get? name = some tool) (args : PyVal) :
    Raises A (chat.invoke tool name args) := by
  unfold OumiGoChat.invoke
  split
  · refine .ite (fun _ => .pure _) fun _ => .bind ?_ fun _ => .bind (.modify _) fun _ => .pure _
    refine .tryCatch (A := fun exn => exn.isException) ?_ fun exn caught => ?_
    · refine .bind (.zoom (mannered.tools name tool found _)) fun out => ?_
      cases out with
      | str text => exact .pure _
      | _ => exact .bind (.zoom (mannered.dumps _)) fun _ => .pure _
    · exact .ite (fun _ => .pure _) fun uncaught => absurd caught uncaught
  · exact .pure _

theorem raises_invokeGuarded {name : String} {tool : Tool W}
    (found : chat.agent.tools.get? name = some tool) (args : PyVal) :
    Raises A (chat.invokeGuarded tool name args) := by
  refine .bind (raises_guard mannered _ _ _ _) fun _ => .bind (.modify _) fun _ => ?_
  refine .ite (fun _ => .pure _) fun _ => .bind (.modify _) fun _ => ?_
  refine .bind (raises_invoke mannered found _) fun outcome => ?_
  cases outcome with
  | error exn => exact .pure _
  | ok result =>
    refine .bind (raises_guard mannered _ _ _ _) fun _ => .bind (.modify _) fun _ => ?_
    exact .ite (fun _ => .pure _) fun _ => .bind (.modify _) fun _ => .pure _

end

/-! ## What is recorded -/

/-- The entries of `tool_calls_made`. -/
def ChatState.made (s : ChatState W) : List ToolCallMade := s.resp.toolCallsMade

theorem unrecorded_outside {α : Type} (action : EStateM Exn W α) :
    Silent ChatState.made (outside action) := by
  refine Silent.zoom ?_ action
  intro _ _
  rfl

theorem unrecorded_guard (point : InterceptPoint) (content : PyVal) (toolName : Option String)
    (messages : Option (List PyVal)) :
    Silent ChatState.made (chat.guard point content toolName messages) := by
  unfold OumiGoChat.guard
  split
  · exact .pure _
  · refine .ite (.pure _) (.bind (unrecorded_outside _) fun _ => ?_)
    exact .bind (.modify fun _ => rfl) fun _ => .pure _

theorem unrecorded_recordFlags (point : InterceptPoint) (flags : List Verdict) :
    Silent ChatState.made (recordFlags point flags : ChatM W Unit) := .modify fun _ => rfl

theorem unrecorded_invoke (tool : Tool W) (name : String) (args : PyVal) :
    Silent ChatState.made (chat.invoke tool name args) := by
  unfold OumiGoChat.invoke
  split
  · refine .ite (.pure _) (.bind (.tryCatch ?_ fun exn => .ite (.pure _) (.throw _)) fun _ => ?_)
    · refine .bind (unrecorded_outside _) fun out => ?_
      cases out with
      | str text => exact .pure _
      | _ => exact .bind (unrecorded_outside _) fun _ => .pure _
    · exact .bind (.modify fun _ => rfl) fun _ => .pure _
  · exact .pure _

theorem unrecorded_invokeGuarded (tool : Tool W) (name : String) (args : PyVal) :
    Silent ChatState.made (chat.invokeGuarded tool name args) := by
  refine .bind (unrecorded_guard _ _ _ _) fun _ => .bind (unrecorded_recordFlags _ _) fun _ => ?_
  refine .ite (.pure _) (.bind (.modify fun _ => rfl) fun _ => ?_)
  refine .bind (unrecorded_invoke _ _ _) fun outcome => ?_
  cases outcome with
  | error exn => exact .pure _
  | ok result =>
    refine .bind (unrecorded_guard _ _ _ _) fun _ => ?_
    refine .bind (unrecorded_recordFlags _ _) fun _ => ?_
    exact .ite (.pure _) (.bind (.modify fun _ => rfl) fun _ => .pure _)

/-! ## One call -/

/-- `_execute_tool` from the lookup of the tool on. -/
def OumiGoChat.executeNamed (chat : OumiGoChat W) (name : String) (rawArgs : PyVal) :
    ChatM W (String × Option Verdict) :=
  match chat.agent.tools.get? name with
  | none => do
      let result := "Error: unknown tool " ++ chat.reprValue (.str name)
      OumiGoChat.recordCall ⟨.str name, rawArgs, result⟩
      pure (result, none)
  | some tool =>
      match chat.loadArguments rawArgs with
      | .error exn =>
          if exn.kind = .valueError then do
            let result := "Error: could not parse arguments (" ++ exn.text ++ ")"
            OumiGoChat.recordCall ⟨.str name, rawArgs, result⟩
            pure (result, none)
          else throw exn
      | .ok args => do
          let (args, result, halted) ← chat.invokeGuarded tool name args
          OumiGoChat.recordCall ⟨.str name, args, result⟩
          pure (result, halted)

theorem getD_or_dict {value : Option PyVal} {fn : List (String × PyVal)}
    (function : fn = [] ∧ (value = none ∨ value = some .none) ∨ value = some (.dict fn)) :
    (value.getD .none).or (.dict []) = .dict fn := by
  rcases function with ⟨rfl, rfl | rfl⟩ | rfl
  · rfl
  · rfl
  · cases fn <;> rfl

/-- What `_execute_tool` does with a call of that shape. -/
theorem executeTool_eq {tc rawArgs : PyVal} {name : String} (call : CallShape tc name rawArgs) :
    chat.executeTool tc = chat.executeNamed name rawArgs := by
  obtain ⟨entries, fn, rfl, function, named, rfl⟩ := call
  have taken := getD_or_dict function
  unfold OumiGoChat.executeTool OumiGoChat.executeNamed
  simp only [PyVal.get, PyVal.getD, Effect.lift, pure_bind, taken, named, OumiGoChat.toolNamed]
  cases chat.agent.tools.get? name with
  | none => rfl
  | some tool => rfl

theorem records (call : ToolCallMade) {α : Type} (x : α) {made : List ToolCallMade}
    {Q : α → List ToolCallMade → Prop} {E : List ToolCallMade → Prop} (post : Q x (made ++ [call])) :
    Ensures ChatState.made (OumiGoChat.recordCall call >>= fun _ => (pure x : ChatM W α)) made
      Q E := by
  have recorded : Ensures ChatState.made (OumiGoChat.recordCall call : ChatM W Unit) made
      (fun _ made' => made' = made ++ [call]) E := by
    refine .update_bind (g := fun made => made ++ [call]) (fun _ => rfl) ?_
    exact .update (g := id) (fun _ => rfl) rfl
  refine .bind recorded ?_
  rintro _ _ rfl
  exact .pure post

/-- A call that returns is recorded once, with the text that is fed back. -/
theorem records_executeNamed (name : String) (rawArgs : PyVal) (made : List ToolCallMade) :
    Ensures ChatState.made (chat.executeNamed name rawArgs) made
      (fun x made' => ∃ arguments, made' = made ++ [⟨.str name, arguments, x.1⟩])
      fun _ => True := by
  unfold OumiGoChat.executeNamed
  split
  · exact records _ _ ⟨_, rfl⟩
  · split
    · exact .ite (fun _ => records _ _ ⟨_, rfl⟩) fun _ => .throw trivial
    · refine .silent_bind (unrecorded_invokeGuarded _ _ _) trivial fun x => ?_
      exact records _ _ ⟨_, rfl⟩

theorem raises_recordCall {A : Exn → Prop} (call : ToolCallMade) :
    Raises A (OumiGoChat.recordCall call : ChatM W Unit) :=
  .bind (.modify _) fun _ => .modify _

theorem raises_executeNamed {A : Exn → Prop} (mannered : Mannered chat) {name : String}
    {rawArgs : PyVal} (handled : Answerable chat name rawArgs) :
    Raises A (chat.executeNamed name rawArgs) := by
  unfold OumiGoChat.executeNamed
  cases found : chat.agent.tools.get? name with
  | none => exact .bind (raises_recordCall _) fun _ => .pure _
  | some tool =>
    have parses : ∀ exn, chat.loadArguments rawArgs = .error exn → exn.kind = .valueError := by
      rcases handled with unknown | parses
      · rw [found] at unknown
        cases unknown
      · exact parses
    dsimp only
    split
    · next exn failed =>
      exact .ite (fun _ => .bind (raises_recordCall _) fun _ => .pure _)
        fun other => absurd (parses exn failed) other
    · refine .bind (raises_invokeGuarded mannered found _) fun x => ?_
      exact .bind (raises_recordCall _) fun _ => .pure _

/-- **A tool call is answered**, with a text that is recorded once, exactly when its tool is
unknown or `json.loads` returns on its arguments or raises a `ValueError`. -/
theorem executeTool_returns_iff (mannered : Mannered chat) {tc rawArgs : PyVal} {name : String}
    (call : CallShape tc name rawArgs) (s : ChatState W) :
    Recovers chat tc name s ↔ Answerable chat name rawArgs := by
  constructor
  · rintro ⟨result, halted, s', returned, -⟩
    rw [executeTool_eq call] at returned
    unfold OumiGoChat.executeNamed at returned
    unfold Answerable
    cases found : chat.agent.tools.get? name with
    | none => exact Or.inl rfl
    | some tool =>
      refine Or.inr fun exn failed => ?_
      by_contra other
      simp only [found, failed, if_neg other] at returned
      cases returned
  · intro handled
    obtain ⟨⟨result, halted⟩, s', returned⟩ :=
      (raises_executeNamed mannered handled).returns s
    have recorded := (records_executeNamed name rawArgs s.made).returned rfl returned
    rw [← executeTool_eq call] at returned
    exact ⟨result, halted, s', returned, recorded⟩

/-- A chat with a tool that fails. -/
def failingChat : OumiGoChat (List PyVal) :=
  scriptedChat (guardAt .toolCall fun _ => .allow)
    (tool "ping" (throw ⟨.exception, "RuntimeError", "boom"⟩)) 3

/-- A call of the tool with these arguments. -/
def pingCall (arguments : PyVal) : PyVal :=
  .dict [("id", .str "c1"), ("function",
    .dict [("name", .str "ping"), ("arguments", arguments)])]

theorem failingChat_mannered : Mannered failingChat := by
  refine ⟨?_, ?_, fun _ => .pure _⟩
  · rintro _ ⟨⟩ guard member point ctx
    rw [List.mem_singleton.mp member]
    exact .pure _
  · intro name called found kwargs
    have among : called ∈ failingChat.agent.tools.values := Dict.mem_values.mpr ⟨name, found⟩
    rw [List.mem_singleton.mp among]
    exact .throw rfl

theorem pingCall_shape {arguments : PyVal} (some : arguments.truthy) :
    CallShape (pingCall arguments) "ping" arguments :=
  ⟨_, _, rfl, Or.inr rfl, rfl, (if_pos some).symm⟩

/-- The body raises, and the call is answered all the same. -/
theorem executeTool_returns_iff_failing :
    Mannered failingChat ∧ Recovers failingChat (pingCall (.str "{}")) "ping" newChat := by
  refine And.intro failingChat_mannered ?_
  refine (executeTool_returns_iff failingChat_mannered (pingCall_shape rfl) newChat).mpr ?_
  exact Or.inr fun exn failed => nomatch failed

/-- Arguments that are an object, not its text: `json.loads` raises a `TypeError`. -/
theorem object_arguments_raise :
    Mannered failingChat ∧
      CallShape (pingCall (.dict [("x", .int 1)])) "ping" (.dict [("x", .int 1)]) ∧
      ¬ Recovers failingChat (pingCall (.dict [("x", .int 1)])) "ping" newChat := by
  refine ⟨failingChat_mannered, pingCall_shape rfl, ?_⟩
  rintro ⟨result, halted, s', returned, -⟩
  cases returned

end Oumigo
