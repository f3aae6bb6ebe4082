import Oumigo.Agent.Course
import Oumigo.Agent.Script

/-!
# What a chat gives for an answer

A chat without guards, whose model follows a script.  Every turn of the script that
a request takes leaves its prose in the answer (`takes_turns`), so the answer is the
last turn's content exactly when the earlier turns have none: `only_final_answer_iff`.
-/

namespace Oumigo

open Python Effect

variable {V : Type} {loads : String → Except Exn PyVal}

/-! ## The answer of a request -/

/-- What a caller gets of a request for an answer is `content`: the text of the response,
the pieces yielded since `s`, and the entry of the history. -/
structure OnlyAnswer (chat : OumiGoChat V) (content : String)
    (s s' : ChatState (DataPlane V loads)) : Prop where
  text : s'.resp.text = content
  yielded : String.join s'.world.pieces = String.join s.world.pieces ++ content
  stored : chat.maxHistoryTurns ≠ 0 → s'.history.getLast? = some ⟨.assistant, content, none⟩

/-- The prose of the turns of these replies. -/
def proseOf (replies : List (ScriptedReply loads)) : String :=
  String.join (replies.map fun reply => reply.turn.prose)

/-- Why a turn without tool calls ends the request. -/
def AssistantTurn.reason (turn : AssistantTurn) : String :=
  if turn.finish.getD "" = "" then "stop" else turn.finish.getD ""

theorem reason_of_told {turn : AssistantTurn} {finish : PyVal}
    (told : Says finish (turn.finish.getD "")) : finish.or (.str "stop") = .str turn.reason := by
  unfold AssistantTurn.reason PyVal.or
  rcases told.cases with ⟨truthy, some, same⟩ | ⟨falsy, empty⟩
  · rw [if_pos truthy, if_neg some, same]
  · rw [if_neg (by simp [falsy]), if_pos empty]

theorem reason_timeout (turn : AssistantTurn) :
    turn.reason = "timeout" ↔ turn.finish = some "timeout" := by
  unfold AssistantTurn.reason
  cases turn.finish with
  | none => decide
  | some text =>
    rw [Option.getD_some, Option.some.injEq]
    split
    · next empty =>
      subst empty
      decide
    · exact Iff.rfl

/-! ## What is said so far -/

/-- The script to come, the answer and the history. -/
structure Told (loads : String → Except Exn PyVal) where
  script : List (ScriptedReply loads)
  text : String
  answers : String
  history : List Entry

def Seen.told (r : Seen V loads) : Told loads := ⟨r.script, r.resp.text, r.answers, r.history⟩

def ChatState.told (s : ChatState (DataPlane V loads)) : Told loads := s.seen.told

/-- More answer text. -/
def Told.release (r : Told loads) (text : String) : Told loads :=
  { r with text := r.text ++ text, answers := r.answers ++ text }

theorem Told.release_append (r : Told loads) (s t : String) :
    (r.release s).release t = r.release (s ++ t) := by
  unfold Told.release
  simp only [String.append_assoc]

theorem Told.release_empty (r : Told loads) : r.release "" = r := by
  unfold Told.release
  simp only [String.append_empty]

/-! ## Steps that say nothing -/

section

variable {chat : OumiGoChat V} {r : Told chat.outer.loads} {α : Type}
  {E : Told chat.outer.loads → Prop}

theorem quiet_beside (action : EStateM Exn V α) :
    Silent ChatState.told (outside (DataPlane.beside action) : ChatM (DataPlane V loads) α) := by
  refine fun s => ?_
  unfold final outside zoom DataPlane.beside zoom
  cases action s.world.aside <;> rfl

theorem quiet_clock : Silent ChatState.told (outside chat.scripted.outer.monotonic) :=
  quiet_beside _

theorem quiet_httpRequest (stream : Bool) :
    Silent ChatState.told (chat.scripted.httpRequest stream) := by
  refine .bind .get fun s => .bind (silent_timeout quiet_clock) fun _ => .bind .get fun _ => ?_
  exact .bind (.modify fun _ => rfl) fun _ => .pure _

theorem quiet_recordFlags (point : InterceptPoint) (flags : List Verdict) :
    Silent ChatState.told (recordFlags point flags : ChatM (DataPlane V loads) Unit) :=
  .modify fun _ => rfl

/-! ## Without guards -/

theorem scripted_guarding (unguarded : chat.guarding = false) :
    chat.scripted.guarding = false := by
  have profile : chat.scripted.agent.profile = chat.agent.profile.map GuardProfile.scripted := rfl
  unfold OumiGoChat.guarding at unguarded ⊢
  rw [profile]
  cases present : chat.agent.profile with
  | none => rfl
  | some profile =>
    rw [present] at unguarded
    change (!(profile.guards.map Guard.scripted).isEmpty) = false
    rw [List.isEmpty_map]
    exact unguarded

theorem guard_idle {W : Type} {chat : OumiGoChat W} (unguarded : chat.guarding = false)
    (point : InterceptPoint) (content : PyVal) (toolName : Option String)
    (messages : Option (List PyVal)) :
    chat.guard point content toolName messages = pure (content, .allow, []) := by
  unfold OumiGoChat.guard
  unfold OumiGoChat.guarding at unguarded
  split
  · rfl
  · next profile present =>
    rw [present] at unguarded
    rw [if_pos (by simpa using unguarded)]

theorem quiet_tool {name : String} {tool : Tool (DataPlane V chat.outer.loads)}
    (found : chat.scripted.agent.tools.get? name = some tool) (kwargs : List (String × PyVal)) :
    Silent ChatState.told (outside (tool.fn kwargs)) := by
  obtain ⟨given, rfl⟩ := scripted_tool found
  exact quiet_beside _

theorem quiet_invoke {name : String} {tool : Tool (DataPlane V chat.outer.loads)}
    (found : chat.scripted.agent.tools.get? name = some tool) (args : PyVal) :
    Silent ChatState.told (chat.scripted.invoke tool name args) := by
  unfold OumiGoChat.invoke
  split
  · refine .ite (.pure _) (.bind (.tryCatch ?_ fun exn => .ite (.pure _) (.throw _)) fun _ => ?_)
    · refine .bind (quiet_tool found _) fun out => ?_
      cases out with
      | str text => exact .pure _
      | _ => exact .bind (quiet_beside _) fun _ => .pure _
    · exact .bind (.modify fun _ => rfl) fun _ => .pure _
  · exact .pure _

theorem quiet_invokeGuarded (unguarded : chat.guarding = false) {name : String}
    {tool : Tool (DataPlane V chat.outer.loads)}
    (found : chat.scripted.agent.tools.get? name = some tool) (args : PyVal) :
    Silent ChatState.told (chat.scripted.invokeGuarded tool name args) := by
  have idle := guard_idle (scripted_guarding unguarded)
  unfold OumiGoChat.invokeGuarded
  simp only [idle]
  refine .bind (.pure _) fun _ => .bind (.modify fun _ => rfl) fun _ => .ite (.pure _) ?_
  refine .bind (.modify fun _ => rfl) fun _ => .bind (quiet_invoke found _) fun outcome => ?_
  cases outcome with
  | error exn => exact .pure _
  | ok result =>
    refine .bind (.pure _) fun _ => .bind (.modify fun _ => rfl) fun _ => .ite (.pure _) ?_
    exact .bind (.modify fun _ => rfl) fun _ => .pure _

theorem quiet_recordCall (call : ToolCallMade) :
    Silent ChatState.told (OumiGoChat.recordCall call : ChatM (DataPlane V loads) Unit) :=
  .bind (.modify fun _ => rfl) fun _ => .modify fun _ => rfl

theorem quiet_executeTool (unguarded : chat.guarding = false) (tc : PyVal) :
    Silent ChatState.told (chat.scripted.executeTool tc) := by
  refine .bind (.lift _) fun _ => .bind (.lift _) fun name => .bind (.lift _) fun rawArgs => ?_
  refine .lift_bind fun found named => ?_
  cases found with
  | none => exact .bind (quiet_recordCall _) fun _ => .pure _
  | some found =>
    dsimp only
    split
    · exact .ite (.bind (quiet_recordCall _) fun _ => .pure _) (.throw _)
    · refine .bind (quiet_invokeGuarded unguarded (toolNamed_some named) _) fun _ => ?_
      exact .bind (quiet_recordCall _) fun _ => .pure _

theorem quiet_feedBack (tc : PyVal) (result : String) :
    Silent ChatState.told (OumiGoChat.feedBack tc result : ChatM (DataPlane V loads) Unit) :=
  .bind (.lift _) fun _ => .bind (.modify fun _ => rfl) fun _ => .modify fun _ => rfl

/-- The tools a turn calls say nothing to the caller. -/
theorem quiet_runTools (unguarded : chat.guarding = false) (calls : List PyVal) :
    Silent ChatState.told (chat.scripted.runTools calls) := by
  induction calls with
  | nil => exact .pure _
  | cons tc rest ih =>
    refine .bind (quiet_executeTool unguarded tc) fun x => ?_
    refine .bind (quiet_feedBack tc _) fun _ => ?_
    split
    · exact .pure _
    · exact .bind (silent_expired quiet_clock) fun _ => .ite (.pure _) ih

/-! ## One turn of the script -/

theorem bufferOutput_off (unguarded : chat.guarding = false) :
    chat.scripted.bufferOutput = false := by
  unfold OumiGoChat.bufferOutput
  rw [scripted_guarding unguarded]
  rfl

/-- Taking a turn releases its prose. -/
theorem told_take (r : Seen V loads) (turn : AssistantTurn) :
    (r.take false turn).told = r.told.release turn.prose := rfl

/-- The next reply of the script was handed out. -/
def Drawn (r : Told loads) (reply : ScriptedReply loads) (r' : Told loads) : Prop :=
  r.script = reply :: r'.script ∧ r' = { r with script := r'.script }

theorem tells_postJson : Ensures ChatState.told chat.scripted.postJson r
    (fun data r' => ∃ reply, Drawn r reply r' ∧ data = reply.body) fun r' => r' = r := by
  refine .silent_bind (quiet_httpRequest false) rfl fun request => ?_
  refine .bind (R := fun http r' => ∃ reply, Drawn r reply r' ∧
    http = ⟨200, "", .ok reply.body⟩) ?_ ?_
  · rintro ⟨⟨aside, script, yielded⟩, _⟩ rfl
    cases script with
    | nil => exact rfl
    | cons reply rest => exact ⟨reply, ⟨rfl, rfl⟩, rfl⟩
  · rintro _ r' ⟨reply, drawn, rfl⟩
    exact .value_bind rfl (.pure ⟨reply, drawn, rfl⟩)

theorem tells_postStream : Ensures ChatState.told chat.scripted.postStream r
    (fun lines r' => ∃ reply, Drawn r reply r' ∧ lines = reply.lines.map pure)
    fun r' => r' = r := by
  refine .silent_bind (quiet_httpRequest true) rfl fun request => ?_
  refine .bind (R := fun http r' => ∃ reply, Drawn r reply r' ∧
    http = ⟨200, pure "", reply.lines.map pure⟩) ?_ ?_
  · rintro ⟨⟨aside, script, yielded⟩, _⟩ rfl
    cases script with
    | nil => exact rfl
    | cons reply rest => exact ⟨reply, ⟨rfl, rfl⟩, rfl⟩
  · rintro _ r' ⟨reply, drawn, rfl⟩
    exact .pure ⟨reply, drawn, rfl⟩

/-- The next reply of the script is taken, and its turn read. -/
structure Took (r : Told loads) (stream : Bool) (x : AssistantMessage × PyVal × PyVal)
    (reply : ScriptedReply loads) (r' : Told loads) : Prop where
  script : r.script = reply :: r'.script
  taken : Taken reply.turn stream x
  text : r'.text = r.text ++ reply.turn.prose
  answers : r'.answers = r.answers ++ reply.turn.prose
  history : r'.history = r.history

/-- **A round-trip takes one turn of the script** and releases its prose. -/
theorem tells_roundTrip (unguarded : chat.guarding = false) (stream : Bool) :
    Ensures ChatState.told (chat.scripted.roundTrip stream) r
      (fun x r' => ∃ reply, Took r stream x reply r') fun r' => r' = r := by
  have took {x reply r₁} (drawn : Drawn r reply r₁) (taken : Taken reply.turn stream x) :
      Took r stream x reply (r₁.release reply.turn.prose) := by
    obtain ⟨script, same⟩ := drawn
    rw [same]
    exact ⟨script, taken, rfl, rfl, rfl⟩
  cases stream with
  | true =>
    refine .bind tells_postStream ?_
    rintro _ r₁ ⟨reply, drawn, rfl⟩
    refine .coarsen Seen.told fun seen shows => ?_
    subst shows
    refine (sees_readStream reply).mono ?_ fun _ => False.elim
    rintro x _ ⟨taken, rfl⟩
    rw [bufferOutput_off unguarded, told_take]
    exact ⟨reply, took drawn taken⟩
  | false =>
    refine .bind tells_postJson ?_
    rintro _ r₁ ⟨reply, drawn, rfl⟩
    refine .coarsen Seen.told fun seen shows => ?_
    subst shows
    refine (sees_readJson reply.whole).mono ?_ fun _ => False.elim
    rintro x _ ⟨taken, rfl⟩
    rw [bufferOutput_off unguarded, told_take]
    exact ⟨reply, took drawn taken⟩

theorem tells_completeTurn (unguarded : chat.guarding = false) (stream : Bool) :
    Ensures ChatState.told (chat.scripted.completeTurn stream) r
      (fun x r' => ∃ message reply, x.1 = some message ∧
        Took r stream (message, x.2.1, x.2.2) reply r') fun r' => r' = r := by
  refine .bind (R := fun verdict r' => verdict = .allow ∧ r' = r) ?_ ?_
  · refine .ite (fun _ => .pure ⟨rfl, rfl⟩) fun guarding => ?_
    rw [scripted_guarding unguarded] at guarding
    exact absurd rfl guarding
  · rintro _ _ ⟨rfl, rfl⟩
    refine .ite (fun halts => absurd halts (by decide)) fun _ => ?_
    refine .silent_bind .get rfl fun s => ?_
    refine .silent_bind (.modify fun _ => rfl) rfl fun _ => ?_
    refine .bind (tells_roundTrip unguarded stream) ?_
    rintro x r' ⟨reply, took⟩
    exact .pure ⟨x.1, reply, rfl, took⟩

/-! ## All turns of a request -/

/-- These replies were taken, and their prose released. -/
structure TookAll (r : Told loads) (replies : List (ScriptedReply loads)) (r' : Told loads) :
    Prop where
  script : r.script = replies ++ r'.script
  text : r'.text = r.text ++ proseOf replies
  answers : r'.answers = r.answers ++ proseOf replies
  history : r'.history = r.history

theorem TookAll.nil : TookAll r [] r :=
  ⟨rfl, String.append_empty.symm, String.append_empty.symm, rfl⟩

theorem proseOf_cons (reply : ScriptedReply loads) (replies : List (ScriptedReply loads)) :
    proseOf (reply :: replies) = reply.turn.prose ++ proseOf replies := by
  unfold proseOf
  rw [List.map_cons, String.join_cons]

theorem Took.cons {r r₁ r₂ : Told loads} {stream : Bool} {x : AssistantMessage × PyVal × PyVal}
    {reply : ScriptedReply loads} {replies : List (ScriptedReply loads)}
    (first : Took r stream x reply r₁) (rest : TookAll r₁ replies r₂) :
    TookAll r (reply :: replies) r₂ := by
  refine ⟨?_, ?_, ?_, rest.history.trans first.history⟩
  · rw [first.script, rest.script, List.cons_append]
  · rw [rest.text, first.text, proseOf_cons, String.append_assoc]
  · rw [rest.answers, first.answers, proseOf_cons, String.append_assoc]

/-- How the loop of `_run` ends: a last turn without tool calls gives the reason. -/
structure Finished (r : Told loads) (reason : PyVal) (replies : List (ScriptedReply loads))
    (r' : Told loads) : Prop extends TookAll r replies r' where
  reason : ∀ last, replies.getLast? = some last → last.turn.toolCalls = [] →
    reason = .str last.turn.reason

theorem calls_of_taken {turn : AssistantTurn} {stream : Bool}
    {x : AssistantMessage × PyVal × PyVal} (taken : Taken turn stream x) :
    x.1.toolCallsOr.truthy = !turn.toolCalls.isEmpty := by
  rw [taken.message]
  unfold AssistantMessage.toolCallsOr AssistantTurn.message AssistantTurn.calls
  cases turn.toolCalls <;> rfl

/-- **Every turn taken leaves its prose in the answer**, whether it calls tools or not. -/
theorem tells_turns (unguarded : chat.guarding = false) (stream : Bool) (left : Nat) :
    Ensures ChatState.told (chat.scripted.turns stream left) r
      (fun reason r' => ∃ replies, Finished r reason replies r') fun _ => True := by
  induction left generalizing r with
  | zero => exact .pure ⟨[], .nil, nofun⟩
  | succ left ih =>
    refine .silent_bind (silent_expired quiet_clock) trivial fun _ => ?_
    refine .ite (fun _ => .pure ⟨[], .nil, nofun⟩) fun _ => ?_
    refine .bind (R := fun completion r' => completion = none ∧ r' = r ∨
      ∃ message finish answer reply, completion = some (some message, finish, answer) ∧
        Took r stream (message, finish, answer) reply r') ?_ ?_
    · refine .tryCatch (F := fun r' => r' = r) ?_ fun exn r' same => ?_
      · refine .bind ((tells_completeTurn unguarded stream).mono (fun _ _ => id) fun _ => id) ?_
        rintro ⟨_, finish, answer⟩ r' ⟨message, reply, rfl, took⟩
        exact .pure (Or.inr ⟨message, finish, answer, reply, rfl, took⟩)
      · exact .ite (fun _ => .pure (Or.inl ⟨rfl, same⟩)) fun _ => .throw trivial
    · intro completion r₁ outcome
      rcases outcome with ⟨rfl, rfl⟩ | ⟨message, finish, answer, reply, rfl, took⟩
      · exact .pure ⟨[], .nil, nofun⟩
      refine .silent_bind (.modify fun _ => rfl) trivial fun _ => ?_
      refine .silent_bind (.modify fun _ => rfl) trivial fun _ => ?_
      have calls := calls_of_taken took.taken
      have screened : Ensures ChatState.told (chat.scripted.screenOutput answer
          message.toolCallsOr.truthy) r₁ (fun reason r' => reason = none ∧ r' = r₁)
          fun _ => True := by
        refine .ite (fun buffered => ?_) fun _ => .pure ⟨rfl, rfl⟩
        rw [bufferOutput_off unguarded] at buffered
        cases buffered
      refine .bind screened ?_
      rintro _ r₂ ⟨rfl, rfl⟩
      have one : TookAll r [reply] r₂ := took.cons .nil
      refine .ite (fun last => ?_) fun more => ?_
      · refine .pure ⟨[reply], one, ?_⟩
        rintro _ ⟨⟩ _
        exact reason_of_told took.taken.finish
      · have calling : reply.turn.toolCalls ≠ [] := by
          rw [calls] at more
          simpa using more
        refine .silent_bind (.lift _) trivial fun tcs => ?_
        refine .silent_bind (quiet_runTools unguarded tcs) trivial fun reason => ?_
        cases reason with
        | some reason =>
          refine .pure ⟨[reply], one, ?_⟩
          rintro _ ⟨⟩ none
          exact absurd none calling
        | none =>
          refine ih.mono ?_ fun _ => id
          rintro reason r₃ ⟨replies, finished⟩
          refine ⟨reply :: replies, took.cons finished.toTookAll, fun last latest none => ?_⟩
          cases replies with
          | nil =>
            cases latest
            exact absurd none calling
          | cons => exact finished.reason last latest none

/-! ## The request -/

/-- The timeout marker, when the reason asks for it. -/
def marker (reason : PyVal) : String := if reason.str? = some "timeout" then timeoutText else ""

theorem tells_answer (source : PieceSource) (text : String) :
    Ensures ChatState.told (chat.scripted.answer source text) r
      (fun _ r' => r' = r.release text) E := by
  refine .coarsen Seen.told fun seen shows => ?_
  subst shows
  exact (sees_answer source text).mono (fun _ _ same => congrArg Seen.told same)
    fun _ => False.elim

/-- The history after a turn of `user` with this answer. -/
def remembered (chat : OumiGoChat V) (history : List Entry) (user : Entry) (answer : String) :
    List Entry :=
  if chat.scripted.maxHistoryTurns = 0 then history
  else chat.scripted.trimHistory (history ++ [user, ⟨.assistant, answer, none⟩])

/-- What a turn of `user` leaves, in terms of the replies it took. -/
def Answered (chat : OumiGoChat V) (user : Entry) (r r' : Told chat.outer.loads) : Prop :=
  ∃ reason replies r₁, Finished r reason replies r₁ ∧
    r' = { r₁.release (marker reason) with
      history := remembered chat r₁.history user (r₁.text ++ marker reason) }

theorem tells_finishTurn (unguarded : chat.guarding = false) (user : Entry) (stream : Bool) :
    Ensures ChatState.told (chat.scripted.finishTurn user stream) r
      (fun _ => Answered chat user r) fun _ => True := by
  refine .silent_bind (silent_armDeadline quiet_clock fun _ _ => rfl) trivial fun _ => ?_
  refine .bind (tells_turns unguarded stream _) ?_
  rintro reason r₁ ⟨replies, finished⟩
  refine .bind (R := fun _ r' => r' = r₁.release (marker reason)) ?_ ?_
  · unfold marker
    refine .ite (fun late => ?_) fun onTime => .pure ?_
    · rw [if_pos late]
      exact tells_answer _ _
    · rw [if_neg onTime, Told.release_empty]
  rintro _ _ rfl
  refine .silent_bind (.modify fun _ => rfl) trivial fun _ => ?_
  refine .get_bind fun s shows => ?_
  have text : s.resp.text = r₁.text ++ marker reason := congrArg Told.text shows
  rw [text]
  refine .ite (fun forgets => .pure ⟨reason, replies, r₁, finished, ?_⟩) fun memory => ?_
  · unfold remembered
    rw [if_pos forgets]
    rfl
  · refine .update (g := fun r => { r with
      history := chat.scripted.trimHistory
        (r.history ++ [user, ⟨.assistant, r₁.text ++ marker reason, none⟩]) })
      (fun _ => rfl) ⟨reason, replies, r₁, finished, ?_⟩
    unfold remembered
    rw [if_neg memory]
    rfl

theorem tells_run (unguarded : chat.guarding = false) (user : Entry) (stream : Bool) :
    Ensures ChatState.told (chat.scripted.run user stream) r
      (fun _ => Answered chat user r) fun _ => True := by
  unfold OumiGoChat.run
  rw [guard_idle (scripted_guarding unguarded)]
  refine .bind (R := fun x r' => x = (.str user.content, .allow, []) ∧ r' = r)
    (.pure ⟨rfl, rfl⟩) ?_
  rintro _ _ ⟨rfl, rfl⟩
  refine .silent_bind (quiet_recordFlags _ _) trivial fun _ => ?_
  refine .ite (fun halts => absurd halts (by decide)) fun _ => ?_
  refine .ite (fun _ => ?_) fun changed => absurd rfl changed
  exact .silent_bind (.modify fun _ => rfl) trivial fun _ => tells_finishTurn unguarded user stream

/-- What a request leaves. -/
theorem tells_request (unguarded : chat.guarding = false) {text : String} {stream : Bool}
    {s s' : ChatState (DataPlane V chat.outer.loads)}
    (returned : chat.scripted.request (.str text) stream s = .ok () s') :
    Answered chat ⟨.user, text, some s.requests⟩ { s.told with text := "" } s'.told :=
  (tells_run unguarded _ stream).returned (s := chat.scripted.begin text s) rfl returned

theorem getLast?_trimHistory {W : Type} {chat : OumiGoChat W} (memory : chat.maxHistoryTurns ≠ 0)
    (history : List Entry) (user answer : Entry) :
    (chat.trimHistory (history ++ [user, answer])).getLast? = some answer := by
  unfold OumiGoChat.trimHistory
  dsimp only
  rw [if_neg (by omega)]
  split
  · rw [List.getLast?_drop, if_neg (by simp; omega)]
    simp
  · simp

theorem proseOf_eq_empty {replies : List (ScriptedReply loads)} :
    proseOf replies = "" ↔ ∀ reply ∈ replies, reply.turn.prose = "" := by
  induction replies with
  | nil => exact ⟨fun _ => nofun, fun _ => rfl⟩
  | cons reply rest ih =>
    rw [proseOf_cons, String.append_eq_empty_iff, ih, List.forall_mem_cons]

theorem append_around_eq {before text after : String} :
    before ++ text ++ after = text ↔ before = "" ∧ after = "" := by
  constructor
  · intro same
    have length := congrArg String.length same
    rw [String.length_append, String.length_append] at length
    rw [← String.length_eq_zero_iff, ← String.length_eq_zero_iff]
    omega
  · rintro ⟨rfl, rfl⟩
    rw [String.empty_append, String.append_empty]

/-- The marker is there only when the model itself says "timeout". -/
theorem marker_eq_empty (turn : AssistantTurn) :
    marker (.str turn.reason) = "" ↔ turn.finish ≠ some "timeout" := by
  rw [Ne, ← reason_timeout]
  unfold marker
  split
  · next late =>
    exact ⟨fun empty => absurd empty (by decide), fun other => absurd (Option.some.inj late) other⟩
  · next other => exact ⟨fun _ late => other (congrArg some late), fun _ => rfl⟩

/-- **Only the final answer is the answer**, provided that no earlier turn has prose and
that the model does not give "timeout" for a finish reason. -/
theorem only_final_answer_iff (unguarded : chat.guarding = false) (text : String) (stream : Bool)
    {s s' : ChatState (DataPlane V chat.outer.loads)}
    {earlier : List (ScriptedReply chat.outer.loads)} {last : ScriptedReply chat.outer.loads}
    (returned : chat.scripted.request (.str text) stream s = .ok () s')
    (taken : s.world.script = earlier ++ last :: s'.world.script)
    (final : last.turn.toolCalls = []) :
    OnlyAnswer chat last.turn.prose s s' ↔
      (∀ reply ∈ earlier, reply.turn.prose = "") ∧ last.turn.finish ≠ some "timeout" := by
  obtain ⟨reason, replies, r₁, finished, after⟩ := tells_request unguarded returned
  have script : s'.world.script = r₁.script := congrArg Told.script after
  have same : earlier ++ [last] = replies := by
    have all : s.world.script = replies ++ r₁.script := finished.script
    rw [taken, script, List.append_cons] at all
    exact List.append_cancel_right all
  subst same
  have ends := finished.reason last List.getLast?_concat final
  subst ends
  have prose : proseOf (earlier ++ [last]) = proseOf earlier ++ last.turn.prose := by
    unfold proseOf
    rw [List.map_append, String.join_append]
    exact congrArg _ (join_singleton _)
  have told := finished.text
  have answers := finished.answers
  rw [prose] at told answers
  rw [String.empty_append] at told
  have text : s'.resp.text = proseOf earlier ++ last.turn.prose ++ marker (.str last.turn.reason) :=
    (congrArg Told.text after).trans (congrArg (· ++ _) told)
  have yielded : String.join s'.world.pieces = String.join s.world.pieces ++
      (proseOf earlier ++ last.turn.prose) ++ marker (.str last.turn.reason) :=
    (congrArg Told.answers after).trans (congrArg (· ++ _) answers)
  rw [← proseOf_eq_empty, ← marker_eq_empty]
  rw [← @append_around_eq _ last.turn.prose]
  constructor
  · intro only
    exact text.symm.trans only.text
  · intro content
    rw [content] at text
    refine ⟨text, ?_, fun memory => ?_⟩
    · rw [yielded, String.append_assoc, content]
    · have history : s'.history = remembered chat r₁.history ⟨.user, _, some s.requests⟩
          (r₁.text ++ marker (.str last.turn.reason)) := congrArg Told.history after
      rw [history, told, content]
      unfold remembered
      change chat.scripted.maxHistoryTurns ≠ 0 at memory
      rw [if_neg memory]
      exact getLast?_trimHistory memory _ _ _

end

/-! ## A tool call with and without prose -/

/-- A tool call without prose, then the answer, streamed. -/
theorem only_final_answer_iff_silent : ∃ s',
    (lookupChat none).scripted.request (.str "How many?") true
      (beforeScript [silentReply, answerReply]) = .ok () s' ∧ s'.resp.text = "42" ∧
    (OnlyAnswer (lookupChat none) answerTurn.prose (beforeScript [silentReply, answerReply]) s' ↔
      (∀ reply ∈ [silentReply], reply.turn.prose = "") ∧ answerTurn.finish ≠ some "timeout") := by
  have ran : returnsIn (fun s' => s'.world.script.isEmpty && decide (s'.resp.text = "42"))
      ((lookupChat none).scripted.request (.str "How many?") true
        (beforeScript [silentReply, answerReply])) = true := by
    decide +kernel
  obtain ⟨_, s', returned, checked⟩ := ok_of_returnsIn ran
  obtain ⟨left, text⟩ := Bool.and_eq_true_iff.mp checked
  have taken : (beforeScript [silentReply, answerReply]).world.script =
      [silentReply] ++ answerReply :: s'.world.script := by
    rw [List.isEmpty_iff.mp left]
    rfl
  exact ⟨s', returned, of_decide_eq_true text,
    only_final_answer_iff rfl "How many?" true returned taken rfl⟩

/-- A tool call with prose, then the answer: the prose is in the answer. -/
theorem earlier_prose_answered : ∃ s',
    (lookupChat none).scripted.request (.str "How many?") false
      (beforeScript [talkingReply, answerReply]) = .ok () s' ∧
    s'.world.script = [] ∧ s'.resp.text = "Let me check. 42" ∧
    ¬ OnlyAnswer (lookupChat none) answerTurn.prose (beforeScript [talkingReply, answerReply])
      s' := by
  have other : "Let me check. 42" ≠ "42" := by decide
  have ran : returnsIn
      (fun s' => s'.world.script.isEmpty && decide (s'.resp.text = "Let me check. 42"))
      ((lookupChat none).scripted.request (.str "How many?") false
        (beforeScript [talkingReply, answerReply])) = true := by
    decide +kernel
  obtain ⟨_, s', returned, checked⟩ := ok_of_returnsIn ran
  obtain ⟨left, text⟩ := Bool.and_eq_true_iff.mp checked
  exact ⟨s', returned, List.isEmpty_iff.mp left, of_decide_eq_true text,
    fun only => other ((of_decide_eq_true text).symm.trans only.text)⟩

end Oumigo
