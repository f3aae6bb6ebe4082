import Oumigo.Agent.Aside

/-!
# A watched chat

A watched chat logs, newest first, what its clock said, the timeout of every model call and
the lines of streamed replies.  Everything it calls may take time and change its
surroundings.  Nothing else that a request does shows in the log (`aside_watched`).
-/

namespace Oumigo

open Python Effect

variable {V : Type}

/-! ## The log -/

deriving instance DecidableEq for Timeout

inductive Observation where
  /-- `time.monotonic` was read -/
  | clock (now : Rat)
  /-- a call was issued with this timeout -/
  | call (timeout : Timeout)
  /-- a line of a streamed reply was read -/
  | line (text : String)
  deriving DecidableEq

structure Watched (V : Type) where
  aside : V
  log : List Observation

namespace Watched

def beside {α : Type} (action : EStateM Exn V α) : EStateM Exn (Watched V) α :=
  zoom aside (fun v world => { world with aside := v }) action

def observe (observation : Observation) : EStateM Exn (Watched V) Unit :=
  modify fun world => { world with log := observation :: world.log }

/-- Reading a line of a streamed reply. -/
def readLine (line : EStateM Exn V String) : EStateM Exn (Watched V) String := do
  let text ← beside line
  observe (.line text)
  pure text

/-- The surroundings of a chat, with the log. -/
def surroundings (outer : Surroundings V) : Surroundings (Watched V) where
  post request := do
    observe (.call request.timeout)
    beside (outer.post request)
  stream request := do
    observe (.call request.timeout)
    let reply ← beside (outer.stream request)
    pure ⟨reply.statusCode, beside reply.read, reply.lines.map readLine⟩
  monotonic := do
    let now ← beside outer.monotonic
    observe (.clock now)
    pure now
  loads := outer.loads
  dumps value := beside (outer.dumps value)
  repr := outer.repr
  resume kind piece := beside (outer.resume kind piece)

end Watched

open Watched

def Tool.watched (tool : Tool V) : Tool (Watched V) :=
  { tool with fn := fun kwargs => beside (tool.fn kwargs) }

def Guard.watched (guard : Guard V) : Guard (Watched V) where
  points := guard.points
  intercept point ctx := beside (guard.intercept point ctx)

def GuardProfile.watched (profile : GuardProfile V) : GuardProfile (Watched V) :=
  ⟨profile.name, profile.guards.map Guard.watched⟩

/-- The chat with its log. -/
def OumiGoChat.watched (chat : OumiGoChat V) : OumiGoChat (Watched V) :=
  { chat with
    agent := { chat.agent with
      tools := chat.agent.tools.filterMap fun _ tool => some tool.watched
      profile := chat.agent.profile.map GuardProfile.watched }
    outer := surroundings chat.outer }

/-! ## What is logged -/

/-- The log, the deadline and the finish reason. -/
structure Watch where
  log : List Observation
  deadline : Option Rat
  finish : PyVal

def ChatState.watch (s : ChatState (Watched V)) : Watch :=
  ⟨s.world.log, s.deadline, s.resp.finishReason⟩

def Watch.observe (r : Watch) (observation : Observation) : Watch :=
  { r with log := observation :: r.log }

section

variable {chat : OumiGoChat V} {r : Watch}

theorem unlogged_beside {α : Type} (action : EStateM Exn V α) :
    Silent Watched.log (beside action) := by
  refine Silent.zoom ?_ action
  intro _ _
  rfl

theorem unlogged_outside {α : Type} {action : EStateM Exn (Watched V) α}
    (quiet : Silent Watched.log action) : Silent ChatState.watch (outside action) := by
  intro s
  have same := quiet s.world
  unfold final at same ⊢
  unfold outside zoom
  cases outcome : action s.world with
  | ok a world =>
    rw [outcome] at same
    exact congrArg (fun log => (⟨log, s.deadline, s.resp.finishReason⟩ : Watch)) same
  | error exn world =>
    rw [outcome] at same
    exact congrArg (fun log => (⟨log, s.deadline, s.resp.finishReason⟩ : Watch)) same

theorem unlogged_evaluate (point : InterceptPoint) (ctx : GuardContext) (guards : List (Guard V))
    (content : PyVal) (flags : List Verdict) :
    Silent Watched.log (GuardChain.evaluate point ctx (guards.map Guard.watched) content flags) := by
  induction guards generalizing content flags with
  | nil => exact .pure _
  | cons guard rest ih =>
    refine .ite (ih content flags) (.bind ?_ fun verdict => ?_)
    · exact .tryCatch (unlogged_beside _) fun exn => .ite (.pure _) (.throw _)
    · exact .ite (ih content flags) (.ite (ih content _) (.ite (ih _ flags) (.pure _)))

/-- Nothing but the clock, the calls and the end of the turn is watched. -/
theorem aside_watched (chat : OumiGoChat V) : Aside chat.watched ChatState.watch where
  evaluates profile present point ctx := by
    obtain ⟨given, -, rfl⟩ := Option.map_eq_some_iff.mp present
    exact unlogged_outside (unlogged_evaluate point _ given.guards _ [])
  invokes name tool found kwargs := by
    change (chat.agent.tools.filterMap fun _ tool => some tool.watched).get? name = _ at found
    rw [Dict.get?_filterMap] at found
    obtain ⟨given, -, same⟩ := Option.bind_eq_some_iff.mp found
    cases same
    exact unlogged_outside (unlogged_beside _)
  dumps _ := unlogged_outside (unlogged_beside _)
  resumes _ _ := unlogged_outside (unlogged_beside _)
  notes _ := .modify fun _ => rfl
  responds change same := by
    refine .modify fun s => ?_
    unfold ChatState.watch
    rw [same]
  messages _ _ := rfl

theorem watches_outside {α : Type} {action : EStateM Exn (Watched V) α} {Q : α → Watch → Prop}
    {E : Watch → Prop} (sat : Ensures Watched.log action r.log
      (fun a log => Q a { r with log := log }) fun log => E { r with log := log }) :
    Ensures ChatState.watch (outside action) r Q E := by
  intro s shows
  obtain rfl := shows
  have given := sat s.world rfl
  unfold outside zoom
  cases outcome : action s.world with
  | ok a world =>
    rw [outcome] at given
    exact given
  | error exn world =>
    rw [outcome] at given
    exact given

theorem watches_clock {E : Watch → Prop} (raised : E r) :
    Ensures ChatState.watch (outside chat.watched.outer.monotonic) r
      (fun now r' => r' = r.observe (.clock now)) E := by
  refine watches_outside (.silent_bind (unlogged_beside _) raised fun now => ?_)
  refine .update_bind (g := fun log => .clock now :: log) (fun _ => rfl) ?_
  exact .pure rfl

/-- A call is logged, and its reply does not show. -/
theorem watches_post {E : Watch → Prop} (request : HttpRequest)
    (raised : E (r.observe (.call request.timeout))) :
    Ensures ChatState.watch (outside (chat.watched.outer.post request)) r
      (fun _ r' => r' = r.observe (.call request.timeout)) E := by
  refine watches_outside ?_
  refine .update_bind (g := fun log => .call request.timeout :: log) (fun _ => rfl) ?_
  exact .silent (unlogged_beside _) (fun _ => rfl) raised

theorem watches_stream {E : Watch → Prop} (request : HttpRequest)
    (raised : E (r.observe (.call request.timeout))) :
    Ensures ChatState.watch (outside (chat.watched.outer.stream request)) r
      (fun reply r' => r' = r.observe (.call request.timeout) ∧
        Silent ChatState.watch (outside reply.read) ∧
        ∀ line ∈ reply.lines, ∃ given, line = Watched.readLine given) E := by
  refine watches_outside ?_
  refine .update_bind (g := fun log => .call request.timeout :: log) (fun _ => rfl) ?_
  refine .silent_bind (unlogged_beside _) raised fun reply => .pure ⟨rfl, ?_, ?_⟩
  · exact unlogged_outside (unlogged_beside _)
  · intro line member
    obtain ⟨given, -, rfl⟩ := List.mem_map.mp member
    exact ⟨given, rfl⟩

theorem watches_readLine {E : Watch → Prop} (line : EStateM Exn V String) (raised : E r) :
    Ensures ChatState.watch (outside (Watched.readLine line) : ChatM (Watched V) String) r
      (fun text r' => r' = r.observe (.line text)) E := by
  refine watches_outside (.silent_bind (unlogged_beside _) raised fun text => ?_)
  refine .update_bind (g := fun log => .line text :: log) (fun _ => rfl) ?_
  exact .pure rfl

theorem watches_finishReason (reason : PyVal) {Q : Unit → Watch → Prop} {E : Watch → Prop}
    (post : Q () { r with finish := reason }) :
    Ensures ChatState.watch (withResponse (fun resp => { resp with finishReason := reason }) :
      ChatM (Watched V) Unit) r Q E :=
  .update (g := fun r => { r with finish := reason }) (fun _ => rfl) post

theorem unlogged_remember (user : Entry) (answer : String) :
    Silent ChatState.watch (chat.watched.remember user answer) :=
  .ite (.pure _) (.modify fun _ => rfl)

end

end Oumigo
