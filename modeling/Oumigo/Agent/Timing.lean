import Mathlib.Tactic.Linarith
import Oumigo.Agent.Aside
import Oumigo.Agent.Script
import Oumigo.Agent.Session

/-!
# The time a turn takes

A data plane with a clock: a reply has a silence before each of its reads, and a read
ends when its silence does, or at the read timeout of the request.  Tools, guards and
the consumer take no time.  A read timeout limits one silence; `fits` says when the
silences of a reply together stay within what is left of the budget.
-/

namespace Oumigo

open Python Effect

variable {V : Type}

/-! ## A data plane with a clock -/

/-- A silence, in seconds. -/
abbrev Gap := { seconds : Rat // 0 ≤ seconds }

structure TimedReply where
  statusCode : Nat
  text : String
  /-- before the reads of the whole reply -/
  gaps : List Gap
  /-- before the head of the reply, when it is streamed -/
  head : Gap
  /-- the lines of the reply, when it is streamed, each after its silence -/
  lines : List (Gap × String)

structure Timed (V : Type) where
  /-- what tools, guards and the consumer work on -/
  aside : V
  now : Rat
  /-- the replies to come -/
  replies : List TimedReply
  /-- when requests were started -/
  starts : List Rat
  /-- when output was accepted -/
  reads : List Rat
  /-- a read timed out -/
  stalled : Bool

namespace Timed

/-- An action that takes no time. -/
def beside {α : Type} (action : EStateM Exn V α) : EStateM Exn (Timed V) α :=
  zoom aside (fun v plane => { plane with aside := v }) action

/-- A request is started; it gets the next reply. -/
def start : EStateM Exn (Timed V) TimedReply := fun plane =>
  match plane.replies with
  | reply :: rest => .ok reply { plane with replies := rest, starts := plane.now :: plane.starts }
  | [] => .error ⟨.exception, "ConnectError", "the script is over"⟩ plane

def readTimeout : Exn := ⟨.timeoutException, "ReadTimeout", "timed out"⟩

/-- A read: it ends with the silence, or at its timeout. -/
def await (limit : Option Rat) (gap : Gap) : EStateM Exn (Timed V) Unit := fun plane =>
  match limit with
  | none => .ok () { plane with now := plane.now + gap }
  | some limit =>
      if limit ≤ gap then
        .error readTimeout { plane with now := plane.now + max 0 limit, stalled := true }
      else .ok () { plane with now := plane.now + gap }

def awaitAll (limit : Option Rat) : List Gap → EStateM Exn (Timed V) Unit
  | [] => pure ()
  | gap :: rest => do
      await limit gap
      awaitAll limit rest

/-- What was read is accepted. -/
def accept : EStateM Exn (Timed V) Unit :=
  modify fun plane => { plane with reads := plane.now :: plane.reads }

def readLine (limit : Option Rat) (line : Gap × String) : EStateM Exn (Timed V) String := do
  await limit line.1
  accept
  pure line.2

/-- The surroundings of a chat, with the timed data plane. -/
def surroundings (outer : Surroundings V) : Surroundings (Timed V) where
  post request := do
    let reply ← start
    awaitAll request.timeout.read reply.gaps
    accept
    pure ⟨reply.statusCode, reply.text, outer.loads reply.text⟩
  stream request := do
    let reply ← start
    await request.timeout.read reply.head
    let read := do
      awaitAll request.timeout.read reply.gaps
      pure reply.text
    pure ⟨reply.statusCode, read, reply.lines.map (readLine request.timeout.read)⟩
  monotonic := do
    pure (← get).now
  loads := outer.loads
  dumps value := beside (outer.dumps value)
  repr := outer.repr
  resume kind piece := beside (outer.resume kind piece)

end Timed

open Timed

def Tool.timed (tool : Tool V) : Tool (Timed V) :=
  { tool with fn := fun kwargs => beside (tool.fn kwargs) }

def Guard.timed (guard : Guard V) : Guard (Timed V) where
  points := guard.points
  intercept point ctx := beside (guard.intercept point ctx)

def GuardProfile.timed (profile : GuardProfile V) : GuardProfile (Timed V) :=
  ⟨profile.name, profile.guards.map Guard.timed⟩

/-- The chat with the timed data plane. -/
def OumiGoChat.timed (chat : OumiGoChat V) : OumiGoChat (Timed V) :=
  { chat with
    agent := { chat.agent with
      tools := chat.agent.tools.filterMap fun _ tool => some tool.timed
      profile := chat.agent.profile.map GuardProfile.timed }
    outer := surroundings chat.outer }

/-! ## How long a reply takes -/

/-- The time reads take, up to the last one or to the read timeout. -/
def lasts (limit : Option Rat) : List Gap → Rat
  | [] => 0
  | gap :: rest =>
      match limit with
      | none => gap + lasts limit rest
      | some left => if left ≤ gap then max 0 left else gap + lasts limit rest

/-- The silences before the lines that are read: up to `[DONE]`. -/
def lineGaps (loads : String → Except Exn PyVal) : List (Gap × String) → List Gap
  | [] => []
  | line :: rest => line.1 ::
      match parseLine loads line.2 with
      | .ok .done => []
      | _ => lineGaps loads rest

/-- The silences of a reply. -/
def OumiGoChat.silences (chat : OumiGoChat V) (stream : Bool) (reply : TimedReply) : List Gap :=
  if stream then reply.head ::
    if reply.statusCode = 200 then lineGaps chat.outer.loads reply.lines else reply.gaps
  else reply.gaps

/-- The read timeout when this much is left of the budget. -/
def OumiGoChat.readLimit (chat : OumiGoChat V) (left : Rat) : Rat :=
  match chat.stallTimeout with
  | none => left
  | some stall => min stall left

/-- How long a reply takes when it is requested with this much left. -/
def OumiGoChat.takes (chat : OumiGoChat V) (stream : Bool) (left : Rat) (reply : TimedReply) : Rat :=
  lasts (some (chat.readLimit left)) (chat.silences stream reply)

/-- No reply, requested one after the other from `now` on, takes longer than what is left. -/
def OumiGoChat.fits (chat : OumiGoChat V) (stream : Bool) (deadline : Rat) :
    Rat → List TimedReply → Prop
  | _, [] => True
  | now, reply :: rest =>
      chat.takes stream (deadline - now) reply ≤ deadline - now ∧
      chat.fits stream deadline (now + chat.takes stream (deadline - now) reply) rest

/-- Requests were started before the deadline, output was accepted by then, and now is no
later. -/
structure InBudget (deadline : Rat) (plane : Timed V) : Prop where
  starts : ∀ time ∈ plane.starts, time < deadline
  reads : ∀ time ∈ plane.reads, time ≤ deadline
  now : plane.now ≤ deadline

/-! ## What takes no time -/

/-- The plane without what tools work on. -/
def Timed.bare (plane : Timed V) : Timed Unit := { plane with aside := () }

/-- The data plane, the deadline and the finish reason. -/
structure Clock where
  plane : Timed Unit
  deadline : Option Rat
  finish : PyVal

def ChatState.clock (s : ChatState (Timed V)) : Clock :=
  ⟨s.world.bare, s.deadline, s.resp.finishReason⟩

section

variable {α : Type} {chat : OumiGoChat V}

theorem timeless_beside (action : EStateM Exn V α) : Silent Timed.bare (beside action) := by
  refine Silent.zoom ?_ action
  intro _ _
  rfl

theorem timeless_outside {action : EStateM Exn (Timed V) α} (quiet : Silent Timed.bare action) :
    Silent ChatState.clock (outside action) := by
  intro s
  have same := quiet s.world
  unfold final at same ⊢
  unfold outside zoom
  cases outcome : action s.world with
  | ok a world =>
    rw [outcome] at same
    exact congrArg (fun plane => (⟨plane, s.deadline, s.resp.finishReason⟩ : Clock)) same
  | error exn world =>
    rw [outcome] at same
    exact congrArg (fun plane => (⟨plane, s.deadline, s.resp.finishReason⟩ : Clock)) same

theorem timeless_evaluate (point : InterceptPoint) (ctx : GuardContext) (guards : List (Guard V))
    (content : PyVal) (flags : List Verdict) :
    Silent Timed.bare (GuardChain.evaluate point ctx (guards.map Guard.timed) content flags) := by
  induction guards generalizing content flags with
  | nil => exact .pure _
  | cons guard rest ih =>
    refine .ite (ih content flags) (.bind ?_ fun verdict => ?_)
    · exact .tryCatch (timeless_beside _) fun exn => .ite (.pure _) (.throw _)
    · exact .ite (ih content flags) (.ite (ih content _) (.ite (ih _ flags) (.pure _)))

theorem timed_tool {name : String} {tool : Tool (Timed V)}
    (found : chat.timed.agent.tools.get? name = some tool) :
    ∃ given : Tool V, tool = given.timed := by
  change (chat.agent.tools.filterMap fun _ tool => some tool.timed).get? name = _ at found
  rw [Dict.get?_filterMap] at found
  obtain ⟨given, -, same⟩ := Option.bind_eq_some_iff.mp found
  exact ⟨given, (Option.some.inj same).symm⟩

/-- Nothing but the round-trips and the deadline shows on the clock. -/
theorem aside_timed (chat : OumiGoChat V) : Aside chat.timed ChatState.clock where
  evaluates profile present point ctx := by
    obtain ⟨given, -, rfl⟩ := Option.map_eq_some_iff.mp present
    exact timeless_outside (timeless_evaluate point _ given.guards _ [])
  invokes name tool found kwargs := by
    obtain ⟨given, rfl⟩ := timed_tool found
    exact timeless_outside (timeless_beside _)
  dumps _ := timeless_outside (timeless_beside _)
  resumes _ _ := timeless_outside (timeless_beside _)
  notes _ := .modify fun _ => rfl
  responds change same := by
    refine .modify fun s => ?_
    unfold ChatState.clock
    rw [same]
  messages _ _ := rfl

theorem timeless_clock : Silent ChatState.clock (outside chat.timed.outer.monotonic) :=
  timeless_outside (.bind .get fun _ => .pure _)

theorem timeless_runTools (calls : List PyVal) :
    Silent ChatState.clock (chat.timed.runTools calls) := by
  induction calls with
  | nil => exact .pure _
  | cons tc rest ih =>
    refine .bind ((aside_timed chat).executeTool tc) fun x =>
      .bind ((aside_timed chat).feedBack tc _) fun _ => ?_
    split
    · exact .pure _
    · exact .bind (silent_expired timeless_clock) fun _ => .ite (.pure _) ih

end

/-! ## What takes time -/

section

variable {α : Type} {chat : OumiGoChat V} {r : Clock} {p : Timed Unit} {Q : α → Clock → Prop}
  {E : Clock → Prop}

theorem times_outside {action : EStateM Exn (Timed V) α}
    (sat : Ensures Timed.bare action r.plane (fun a plane => Q a { r with plane := plane })
      fun plane => E { r with plane := plane }) :
    Ensures ChatState.clock (outside action) r Q E := by
  intro s shows
  obtain rfl := shows
  have given := sat s.world rfl
  unfold outside zoom
  cases outcome : action s.world with
  | ok a world =>
    rw [outcome] at given
    exact given
  | error exn world =>
    rw [outcome] at given
    exact given

/-- The plane after reads that took this long, some of them accepted. -/
structure Elapsed (p : Timed Unit) (time : Rat) (p' : Timed Unit) : Prop where
  replies : p'.replies = p.replies
  starts : p'.starts = p.starts
  now : p'.now = p.now + time
  reads : ∀ read ∈ p'.reads, read ∈ p.reads ∨ read ≤ p'.now

/-- The reads took no longer than `time`. -/
def AtMost (p : Timed Unit) (time : Rat) (p' : Timed Unit) : Prop :=
  ∃ spent, 0 ≤ spent ∧ spent ≤ time ∧ Elapsed p spent p'

theorem Elapsed.refl (p : Timed Unit) : Elapsed p 0 p :=
  ⟨rfl, rfl, (add_zero _).symm, fun _ => Or.inl⟩

theorem Elapsed.trans {p p' p'' : Timed Unit} {time more : Rat} (first : Elapsed p time p')
    (later : 0 ≤ more) (second : Elapsed p' more p'') : Elapsed p (time + more) p'' := by
  refine ⟨second.replies.trans first.replies, second.starts.trans first.starts, ?_, ?_⟩
  · rw [second.now, first.now, add_assoc]
  · intro read member
    rcases second.reads read member with old | new
    · rcases first.reads read old with older | recent
      · exact Or.inl older
      · refine Or.inr ?_
        rw [second.now]
        linarith
    · exact Or.inr new

theorem AtMost.after {p p' p'' : Timed Unit} {time more : Rat} (first : Elapsed p time p')
    (nonneg : 0 ≤ time) (second : AtMost p' more p'') : AtMost p (time + more) p'' := by
  obtain ⟨spent, later, bound, elapsed⟩ := second
  exact ⟨time + spent, by linarith, by linarith, first.trans later elapsed⟩

theorem AtMost.mono {p p' : Timed Unit} {time more : Rat} (within : AtMost p time p')
    (le : time ≤ more) : AtMost p more p' := by
  obtain ⟨spent, later, bound, elapsed⟩ := within
  exact ⟨spent, later, bound.trans le, elapsed⟩

theorem lasts_nonneg (left : Rat) (gaps : List Gap) : 0 ≤ lasts (some left) gaps := by
  induction gaps with
  | nil => exact le_refl 0
  | cons gap rest ih =>
    unfold lasts
    dsimp only
    split
    · exact le_max_left 0 left
    · exact add_nonneg gap.2 ih

theorem times_await (left : Rat) (gap : Gap) :
    Ensures Timed.bare (await (some left) gap : EStateM Exn (Timed V) Unit) p
      (fun _ p' => ¬ left ≤ gap ∧ Elapsed p gap p' ∧ p'.stalled = p.stalled)
      (fun p' => left ≤ gap ∧ Elapsed p (max 0 left) p') := by
  intro plane shows
  obtain rfl := shows
  unfold await
  dsimp only
  by_cases stalls : left ≤ gap
  · rw [if_pos stalls]
    exact ⟨stalls, rfl, rfl, rfl, fun _ => Or.inl⟩
  · rw [if_neg stalls]
    exact ⟨stalls, ⟨rfl, rfl, rfl, fun _ => Or.inl⟩, rfl⟩

theorem times_awaitAll (left : Rat) (gaps : List Gap) :
    Ensures Timed.bare (awaitAll (some left) gaps : EStateM Exn (Timed V) Unit) p
      (fun _ p' => Elapsed p (lasts (some left) gaps) p' ∧ p'.stalled = p.stalled)
      (AtMost p (lasts (some left) gaps)) := by
  induction gaps generalizing p with
  | nil => exact .pure ⟨.refl p, rfl⟩
  | cons gap rest ih =>
    refine .bind ((times_await left gap).mono (fun _ _ => id) ?_) ?_
    · rintro p' ⟨stalls, elapsed⟩
      have time : lasts (some left) (gap :: rest) = max 0 left := if_pos stalls
      rw [time]
      exact ⟨_, le_max_left 0 left, le_refl _, elapsed⟩
    · rintro _ p' ⟨reads, elapsed, steady⟩
      have time : lasts (some left) (gap :: rest) = gap + lasts (some left) rest := if_neg reads
      rw [time]
      refine (ih (p := p')).mono (fun _ p'' more => ?_) fun p'' more => more.after elapsed gap.2
      exact ⟨elapsed.trans (lasts_nonneg left rest) more.1, more.2.trans steady⟩

theorem times_accept :
    Ensures Timed.bare (accept : EStateM Exn (Timed V) Unit) p
      (fun _ p' => Elapsed p 0 p' ∧ p'.stalled = p.stalled) (· = p) := by
  refine .update (g := fun p => { p with reads := p.now :: p.reads }) (fun _ => rfl) ?_
  refine ⟨⟨rfl, rfl, (add_zero _).symm, fun read member => ?_⟩, rfl⟩
  rcases List.mem_cons.mp member with rfl | old
  · exact Or.inr (le_refl _)
  · exact Or.inl old

theorem times_readLine (left : Rat) (line : Gap × String) :
    Ensures Timed.bare (readLine (some left) line : EStateM Exn (Timed V) String) p
      (fun text p' => text = line.2 ∧ ¬ left ≤ line.1 ∧ Elapsed p line.1 p' ∧
        p'.stalled = p.stalled)
      (AtMost p (lasts (some left) [line.1])) := by
  have done (reads : ¬ left ≤ line.1) : lasts (some left) [line.1] = line.1 := by
    rw [lasts, if_neg reads, lasts, add_zero]
  refine .bind ((times_await left line.1).mono (fun _ _ => id) ?_) ?_
  · rintro p' ⟨stalls, elapsed⟩
    have time : lasts (some left) [line.1] = max 0 left := if_pos stalls
    rw [time]
    exact ⟨_, le_max_left 0 left, le_refl _, elapsed⟩
  · rintro _ p' ⟨reads, elapsed, steady⟩
    refine .bind (times_accept.mono (fun _ _ => id) ?_) ?_
    · rintro _ rfl
      exact ⟨_, line.1.2, (done reads).ge, elapsed⟩
    · rintro _ p'' ⟨noted, same⟩
      have total := elapsed.trans (le_refl 0) noted
      rw [add_zero] at total
      exact .pure ⟨rfl, reads, total, same.trans steady⟩

/-- A reply is taken from the script. -/
def Timed.started (p : Timed Unit) (rest : List TimedReply) : Timed Unit :=
  { p with replies := rest, starts := p.now :: p.starts }

theorem times_start :
    Ensures Timed.bare (start : EStateM Exn (Timed V) TimedReply) p
      (fun reply p' => ∃ rest, p.replies = reply :: rest ∧ p' = p.started rest) (· = p) := by
  intro plane shows
  obtain rfl := shows
  unfold start
  cases script : plane.replies with
  | nil => rfl
  | cons reply rest => exact ⟨rest, script, rfl⟩

/-! ## One round-trip -/

/-- Reads that took this long, and nothing else the clock shows. -/
structure Later (r : Clock) (time : Rat) (r' : Clock) : Prop where
  elapsed : Elapsed r.plane time r'.plane
  steady : r'.plane.stalled = r.plane.stalled
  deadline : r'.deadline = r.deadline
  finish : r'.finish = r.finish

/-- The reads raised before `time` had passed. -/
structure Raised (r : Clock) (time : Rat) (r' : Clock) : Prop where
  within : AtMost r.plane time r'.plane
  deadline : r'.deadline = r.deadline
  finish : r'.finish = r.finish

theorem Later.raised {time : Rat} {r' : Clock} (later : Later r time r') (nonneg : 0 ≤ time) :
    Raised r time r' :=
  ⟨⟨time, nonneg, le_refl _, later.elapsed⟩, later.deadline, later.finish⟩

theorem Later.refl (r : Clock) : Later r 0 r := ⟨.refl _, rfl, rfl, rfl⟩

theorem Later.trans {time more : Rat} {r' r'' : Clock} (first : Later r time r')
    (nonneg : 0 ≤ more) (second : Later r' more r'') : Later r (time + more) r'' :=
  ⟨first.elapsed.trans nonneg second.elapsed, second.steady.trans first.steady,
    second.deadline.trans first.deadline, second.finish.trans first.finish⟩

theorem Raised.after {time more : Rat} {r' r'' : Clock} (first : Later r time r')
    (nonneg : 0 ≤ time) (second : Raised r' more r'') : Raised r (time + more) r'' :=
  ⟨second.within.after first.elapsed nonneg, second.deadline.trans first.deadline,
    second.finish.trans first.finish⟩

theorem Raised.mono {time more : Rat} {r' : Clock} (raised : Raised r time r')
    (le : time ≤ more) : Raised r more r' :=
  ⟨raised.within.mono le, raised.deadline, raised.finish⟩

theorem lasts_cons {left : Rat} {gap : Gap} (reads : ¬ left ≤ gap) (rest : List Gap) :
    lasts (some left) (gap :: rest) = gap + lasts (some left) rest := if_neg reads

theorem lasts_single_le (left : Rat) (gap : Gap) (rest : List Gap) :
    lasts (some left) [gap] ≤ lasts (some left) (gap :: rest) := by
  by_cases stalls : left ≤ gap
  · exact (if_pos stalls).le.trans (if_pos stalls).ge
  · rw [lasts_cons stalls, lasts_cons stalls]
    exact add_le_add_right (lasts_nonneg left rest) _

theorem times_streamEvents (left : Rat) (lines : List (Gap × String)) (acc : OumiGoChat.StreamAcc) :
    Ensures ChatState.clock (chat.timed.streamEvents (lines.map (readLine (some left))) acc) r
      (fun _ => Later r (lasts (some left) (lineGaps chat.outer.loads lines)))
      (Raised r (lasts (some left) (lineGaps chat.outer.loads lines))) := by
  induction lines generalizing r acc with
  | nil => exact .pure (.refl r)
  | cons line rest ih =>
    have all : lineGaps chat.outer.loads (line :: rest) = line.1 ::
        match parseLine chat.outer.loads line.2 with
        | .ok .done => []
        | _ => lineGaps chat.outer.loads rest := rfl
    have read : Ensures ChatState.clock
        (outside (readLine (some left) line) : ChatM (Timed V) String) r
        (fun text r' => text = line.2 ∧ ¬ left ≤ line.1 ∧ Later r line.1 r')
        (Raised r (lasts (some left) (lineGaps chat.outer.loads (line :: rest)))) := by
      refine times_outside ((times_readLine left line).mono ?_ fun p' within => ?_)
      · rintro text p' ⟨same, reads, elapsed, steady⟩
        exact ⟨same, reads, elapsed, steady, rfl, rfl⟩
      · rw [all]
        exact ⟨within.mono (lasts_single_le left _ _), rfl, rfl⟩
    refine .bind read ?_
    rintro _ r₁ ⟨rfl, reads, later⟩
    rw [all, lasts_cons reads]
    have here := (later.raised line.1.2).mono (le_add_of_nonneg_right (lasts_nonneg left
      (match parseLine chat.outer.loads line.2 with
        | .ok .done => []
        | _ => lineGaps chat.outer.loads rest)))
    refine .lift_bind here fun kind parsed => ?_
    change parseLine chat.outer.loads line.2 = .ok kind at parsed
    rw [parsed] at here ⊢
    have goOn (acc : OumiGoChat.StreamAcc) := (ih (r := r₁) acc).mono
      (fun _ r' more => later.trans (lasts_nonneg left _) more)
      fun r' more => more.after later line.1.2
    cases kind with
    | skipped => exact goOn acc
    | done =>
      refine .pure ?_
      rw [lasts, add_zero]
      exact later
    | event event => exact .silent_bind ((aside_timed chat).streamEvent event acc) here fun acc => goOn acc

/-- The clock when a reply has been taken from the script. -/
def Clock.started (r : Clock) (rest : List TimedReply) : Clock :=
  { r with plane := r.plane.started rest }

/-- A round-trip is done: it took as long as its reply. -/
def Replied (chat : OumiGoChat V) (stream : Bool) (deadline : Rat) (r r' : Clock) : Prop :=
  ∃ reply rest, r.plane.replies = reply :: rest ∧
    Later (r.started rest) (chat.takes stream (deadline - r.plane.now) reply) r'

/-- A round-trip raised: before it was started, or in its reply. -/
def Broken (chat : OumiGoChat V) (stream : Bool) (deadline : Rat) (r r' : Clock) : Prop :=
  r' = r ∨ ∃ reply rest, r.plane.replies = reply :: rest ∧
    Raised (r.started rest) (chat.takes stream (deadline - r.plane.now) reply) r'

theorem Replied.broken {stream : Bool} {deadline : Rat} {r' : Clock}
    (replied : Replied chat stream deadline r r') : Broken chat stream deadline r r' := by
  obtain ⟨reply, rest, script, later⟩ := replied
  exact Or.inr ⟨reply, rest, script, later.raised (lasts_nonneg _ _)⟩

variable {deadline : Rat} (armed : r.deadline = some deadline)

include armed

theorem times_remaining : Ensures ChatState.clock chat.timed.remaining r
    (fun left r' => left = some (deadline - r.plane.now) ∧ r' = r) E := by
  refine .get_bind fun s shows => ?_
  have armed : s.deadline = some deadline := (congrArg Clock.deadline shows).trans armed
  rw [armed]
  have clock : Ensures ChatState.clock (outside chat.timed.outer.monotonic) r
      (fun now r' => now = r.plane.now ∧ r' = r) E := by
    refine times_outside (.get_bind fun plane same => .pure ⟨?_, rfl⟩)
    exact congrArg Timed.now same
  refine .bind clock ?_
  rintro _ _ ⟨rfl, rfl⟩
  exact .pure ⟨rfl, rfl⟩

theorem times_expired : Ensures ChatState.clock chat.timed.expired r
    (fun late r' => late = decide (deadline ≤ r.plane.now) ∧ r' = r) E := by
  refine .bind (times_remaining armed) ?_
  rintro _ _ ⟨rfl, rfl⟩
  refine .pure ⟨?_, rfl⟩
  exact decide_eq_decide.mpr sub_nonpos

theorem times_httpRequest (stream : Bool) :
    Ensures ChatState.clock (chat.timed.httpRequest stream) r (fun request r' =>
      request.timeout.read = some (chat.readLimit (deadline - r.plane.now)) ∧ r' = r) E := by
  have timeout : Ensures ChatState.clock chat.timed.timeout r (fun timeout r' =>
      timeout.read = some (chat.readLimit (deadline - r.plane.now)) ∧ r' = r) E := by
    refine .bind (times_remaining armed) ?_
    rintro _ r' ⟨rfl, rfl⟩
    unfold OumiGoChat.readLimit
    change Ensures ChatState.clock (match chat.stallTimeout with
      | none => pure _
      | some stall => pure _) r' _ E
    cases chat.stallTimeout with
    | none => exact .pure ⟨rfl, rfl⟩
    | some stall => exact .pure ⟨rfl, rfl⟩
  refine .get_bind fun s _ => .bind timeout ?_
  rintro timeout r' ⟨read, rfl⟩
  refine .get_bind fun s _ => .update_bind (g := id) (fun _ => rfl) ?_
  exact .pure ⟨read, rfl⟩

theorem times_postJson : Ensures ChatState.clock chat.timed.postJson r
    (fun _ => Replied chat false deadline r) (Broken chat false deadline r) := by
  refine .bind (times_httpRequest armed false) ?_
  rintro request r ⟨read, rfl⟩
  have post : Ensures ChatState.clock (outside (chat.timed.outer.post request)) r
      (fun _ => Replied chat false deadline r) (Broken chat false deadline r) := by
    refine times_outside (.bind (times_start.mono (fun _ _ => id) fun _ same => Or.inl ?_) ?_)
    · rw [same]
    · rintro reply _ ⟨rest, script, rfl⟩
      rw [read]
      refine .bind ((times_awaitAll _ reply.gaps).mono (fun _ _ => id) fun p' within => ?_) ?_
      · exact Or.inr ⟨reply, rest, script, within, rfl, rfl⟩
      · rintro _ p' ⟨elapsed, steady⟩
        have replied : Replied chat false deadline r { r with plane := p' } :=
          ⟨reply, rest, script, elapsed, steady, rfl, rfl⟩
        refine .bind (times_accept.mono (fun _ _ => id) fun _ same => same ▸ replied.broken) ?_
        rintro _ p'' ⟨noted, same⟩
        have total := elapsed.trans (le_refl 0) noted
        rw [add_zero] at total
        exact .pure ⟨reply, rest, script, total, same.trans steady, rfl, rfl⟩
  refine .bind post fun reply r₁ replied => ?_
  refine .silent_bind (.lift _) replied.broken fun _ => ?_
  exact .silent (.lift _) (fun _ => replied) replied.broken

/-- The head of the reply is read; what is left of it are its lines. -/
def Opened (chat : OumiGoChat V) (deadline : Rat) (r : Clock)
    (lines : List (EStateM Exn (Timed V) String)) (r' : Clock) : Prop :=
  ∃ reply rest, r.plane.replies = reply :: rest ∧
    lines = reply.lines.map (readLine (some (chat.readLimit (deadline - r.plane.now)))) ∧
    chat.silences true reply = reply.head :: lineGaps chat.outer.loads reply.lines ∧
    ¬ chat.readLimit (deadline - r.plane.now) ≤ reply.head ∧
    Later (r.started rest) reply.head r'

omit armed in
theorem takes_stream (left : Rat) (reply : TimedReply) :
    chat.takes true left reply = lasts (some (chat.readLimit left)) (reply.head ::
      if reply.statusCode = 200 then lineGaps chat.outer.loads reply.lines else reply.gaps) := rfl

omit armed in
/-- The read timeout may strike before the head of the reply, or after it. -/
theorem head_le_takes (left : Rat) (reply : TimedReply) :
    lasts (some (chat.readLimit left)) [reply.head] ≤ chat.takes true left reply :=
  lasts_single_le _ _ _

theorem times_postStream : Ensures ChatState.clock chat.timed.postStream r
    (Opened chat deadline r) (Broken chat true deadline r) := by
  refine .bind (times_httpRequest armed true) ?_
  rintro request r ⟨read, rfl⟩
  let left := chat.readLimit (deadline - r.plane.now)
  have stream : Ensures ChatState.clock (outside (chat.timed.outer.stream request)) r
      (fun opened r' => ∃ reply rest, r.plane.replies = reply :: rest ∧
        opened = ⟨reply.statusCode, (do
          awaitAll (some left) reply.gaps
          pure reply.text), reply.lines.map (readLine (some left))⟩ ∧
        ¬ left ≤ reply.head ∧ Later (r.started rest) reply.head r')
      (Broken chat true deadline r) := by
    refine times_outside (.bind (times_start.mono (fun _ _ => id) fun _ same => Or.inl ?_) ?_)
    · rw [same]
    · rintro reply _ ⟨rest, script, rfl⟩
      rw [read]
      refine .bind ((times_await left reply.head).mono (fun _ _ => id) ?_) ?_
      · rintro p' ⟨stalls, elapsed⟩
        have time : lasts (some left) [reply.head] = max 0 left := if_pos stalls
        have bound : max 0 left ≤ chat.takes true (deadline - r.plane.now) reply :=
          time.ge.trans (head_le_takes _ reply)
        exact Or.inr ⟨reply, rest, script, ⟨_, le_max_left 0 left, bound, elapsed⟩, rfl, rfl⟩
      · rintro _ p' ⟨reads, elapsed, steady⟩
        exact .pure ⟨reply, rest, script, rfl, reads, elapsed, steady, rfl, rfl⟩
  refine .bind stream ?_
  rintro _ r₁ ⟨reply, rest, script, rfl, reads, later⟩
  have head : chat.takes true (deadline - r.plane.now) reply = reply.head + lasts (some left)
      (if reply.statusCode = 200 then lineGaps chat.outer.loads reply.lines else reply.gaps) :=
    lasts_cons reads _
  refine .ite (fun ok => .pure ⟨reply, rest, script, rfl, ?_, reads, later⟩) fun failed => ?_
  · unfold OumiGoChat.silences
    rw [if_pos rfl, if_pos ok]
  · change reply.statusCode ≠ 200 at failed
    rw [if_neg failed] at head
    have broken {r' : Clock} (raised : Raised r₁ (lasts (some left) reply.gaps) r') :
        Broken chat true deadline r r' := by
      refine Or.inr ⟨reply, rest, script, ?_⟩
      rw [head]
      exact raised.after later reply.head.2
    have body : Ensures ChatState.clock (outside (do
        awaitAll (some left) reply.gaps
        pure reply.text) : ChatM (Timed V) String) r₁
        (fun _ r' => Raised r₁ (lasts (some left) reply.gaps) r') (Broken chat true deadline r) := by
      refine times_outside (.bind ((times_awaitAll left reply.gaps).mono (fun _ _ => id)
        fun p' within => broken ⟨within, rfl, rfl⟩) ?_)
      rintro _ p' ⟨elapsed, -⟩
      exact .pure ⟨⟨_, lasts_nonneg _ _, le_refl _, elapsed⟩, rfl, rfl⟩
    refine .bind body fun text r₂ raised => .lift_bind (broken raised) fun _ ok => ?_
    unfold raiseForStatus at ok
    rw [if_neg failed] at ok
    split at ok <;> cases ok

theorem times_streamTurn : Ensures ChatState.clock chat.timed.streamTurn r
    (fun _ => Replied chat true deadline r) (Broken chat true deadline r) := by
  refine .bind (times_postStream armed) ?_
  rintro _ r₁ ⟨reply, rest, script, rfl, silences, reads, later⟩
  have total : chat.takes true (deadline - r.plane.now) reply = reply.head +
      lasts (some (chat.readLimit (deadline - r.plane.now)))
        (lineGaps chat.outer.loads reply.lines) := by
    unfold OumiGoChat.takes
    rw [silences, lasts_cons reads]
  refine .bind ((times_streamEvents _ reply.lines _).mono (fun _ _ => id) fun r' raised => ?_) ?_
  · refine Or.inr ⟨reply, rest, script, ?_⟩
    rw [total]
    exact raised.after later reply.head.2
  · intro acc r₂ more
    have replied : Replied chat true deadline r r₂ := by
      refine ⟨reply, rest, script, ?_⟩
      rw [total]
      exact later.trans (lasts_nonneg _ _) more
    refine .silent_bind (.lift _) replied.broken fun _ => ?_
    refine .silent_bind ((aside_timed chat).noteReasoning _) replied.broken fun _ => ?_
    refine .silent_bind (.lift _) replied.broken fun _ => ?_
    refine .ite (fun _ => .pure replied) fun _ => ?_
    exact .silent_bind (.lift _) replied.broken fun _ => .pure replied

theorem times_jsonTurn : Ensures ChatState.clock chat.timed.jsonTurn r
    (fun _ => Replied chat false deadline r) (Broken chat false deadline r) := by
  refine .bind (times_postJson armed) fun data r₁ replied => ?_
  exact .silent ((aside_timed chat).readJson data) (fun _ => replied) replied.broken

theorem times_completeTurn (stream : Bool) : Ensures ChatState.clock (chat.timed.completeTurn stream)
    r (fun x r' => if x.1.isNone then r' = r else Replied chat stream deadline r r')
    (Broken chat stream deadline r) := by
  refine .silent_bind (aside_timed chat).guardPrompt (Or.inl rfl) fun verdict => ?_
  refine .ite (fun _ => ?_) fun _ => ?_
  · exact .silent_bind ((aside_timed chat).answer _ _) (Or.inl rfl) fun _ => .pure rfl
  · refine .get_bind fun s _ => .silent_bind ((aside_timed chat).notes _) (Or.inl rfl) fun _ => ?_
    refine .bind (R := fun _ => Replied chat stream deadline r) ?_ fun _ _ replied => .pure replied
    cases stream with
    | true => exact times_streamTurn armed
    | false => exact times_jsonTurn armed

end

/-! ## The loop -/

/-- When these replies, requested one after the other, are over. -/
def OumiGoChat.after (chat : OumiGoChat V) (stream : Bool) (deadline : Rat) :
    Rat → List TimedReply → Rat
  | now, [] => now
  | now, reply :: rest =>
      chat.after stream deadline (now + chat.takes stream (deadline - now) reply) rest

section

variable {chat : OumiGoChat V} {stream : Bool} {deadline now : Rat} {script : List TimedReply}
  {r r' : Clock} {E : Clock → Prop}

theorem after_append (taken : List TimedReply) (reply : TimedReply) :
    chat.after stream deadline now (taken ++ [reply]) =
      chat.after stream deadline now taken +
        chat.takes stream (deadline - chat.after stream deadline now taken) reply := by
  induction taken generalizing now with
  | nil => rfl
  | cons first rest ih => exact ih

theorem fits_append (taken : List TimedReply) (reply : TimedReply) :
    chat.fits stream deadline now (taken ++ [reply]) ↔ chat.fits stream deadline now taken ∧
      chat.takes stream (deadline - chat.after stream deadline now taken) reply ≤
        deadline - chat.after stream deadline now taken := by
  induction taken generalizing now with
  | nil => exact ⟨fun fits => ⟨trivial, fits.1⟩, fun fits => ⟨fits.2, trivial⟩⟩
  | cons first rest ih =>
    constructor
    · rintro ⟨fit, fits⟩
      obtain ⟨before, last⟩ := ih.mp fits
      exact ⟨⟨fit, before⟩, last⟩
    · rintro ⟨⟨fit, before⟩, last⟩
      exact ⟨fit, ih.mpr ⟨before, last⟩⟩

/-- If the replies taken from the script fit, so does the plane. -/
def Paced (chat : OumiGoChat V) (stream : Bool) (deadline now : Rat) (script : List TimedReply)
    (r : Clock) : Prop :=
  ∃ taken, script = taken ++ r.plane.replies ∧
    (chat.fits stream deadline now taken → InBudget deadline r.plane)

/-- Between round-trips the plane is where the replies taken have brought it. -/
structure Punctual (chat : OumiGoChat V) (stream : Bool) (deadline now : Rat)
    (script taken : List TimedReply) (r : Clock) : Prop where
  armed : r.deadline = some deadline
  steady : r.plane.stalled = false
  script : script = taken ++ r.plane.replies
  clock : r.plane.now = chat.after stream deadline now taken
  budget : chat.fits stream deadline now taken → InBudget deadline r.plane

variable {taken : List TimedReply}

theorem Punctual.paced (punctual : Punctual chat stream deadline now script taken r) :
    Paced chat stream deadline now script r :=
  ⟨taken, punctual.script, punctual.budget⟩

/-- Another reply that fits, and took at most its time. -/
theorem Punctual.more (punctual : Punctual chat stream deadline now script taken r)
    (early : r.plane.now < deadline) {reply : TimedReply} {rest : List TimedReply}
    (next : r.plane.replies = reply :: rest)
    (raised : Raised (r.started rest) (chat.takes stream (deadline - r.plane.now) reply) r') :
    script = (taken ++ [reply]) ++ r'.plane.replies ∧
      (chat.fits stream deadline now (taken ++ [reply]) → InBudget deadline r'.plane) := by
  obtain ⟨⟨spent, nonneg, bound, elapsed⟩, -, -⟩ := raised
  refine ⟨?_, fun fits => ?_⟩
  · rw [elapsed.replies, punctual.script, next, List.append_assoc]
    rfl
  · obtain ⟨before, last⟩ := (fits_append taken reply).mp fits
    rw [← punctual.clock] at last
    have budget := punctual.budget before
    have time : r'.plane.now ≤ deadline := by
      rw [elapsed.now]
      change r.plane.now + spent ≤ deadline
      linarith
    refine ⟨fun start member => ?_, fun read member => ?_, time⟩
    · rw [elapsed.starts] at member
      rcases List.mem_cons.mp member with rfl | old
      · exact early
      · exact budget.starts start old
    · rcases elapsed.reads read member with old | new
      · exact budget.reads read old
      · exact new.trans time

theorem Punctual.broken (punctual : Punctual chat stream deadline now script taken r)
    (early : r.plane.now < deadline) (broken : Broken chat stream deadline r r') :
    Paced chat stream deadline now script r' := by
  rcases broken with rfl | ⟨reply, rest, next, raised⟩
  · exact punctual.paced
  · exact ⟨_, punctual.more early next raised⟩

theorem Punctual.replied (punctual : Punctual chat stream deadline now script taken r)
    (early : r.plane.now < deadline) (replied : Replied chat stream deadline r r') :
    ∃ taken, Punctual chat stream deadline now script taken r' := by
  obtain ⟨reply, rest, next, later⟩ := replied
  obtain ⟨split, budget⟩ := punctual.more early next (later.raised (lasts_nonneg _ _))
  refine ⟨taken ++ [reply], later.deadline.trans punctual.armed, later.steady.trans punctual.steady,
    split, ?_, budget⟩
  rw [after_append, ← punctual.clock]
  exact later.elapsed.now

/-- The loop ended with `reason`: a read that timed out gives it. -/
structure Halted (chat : OumiGoChat V) (stream : Bool) (deadline now : Rat)
    (script : List TimedReply) (reason : PyVal) (r : Clock) : Prop where
  paced : Paced chat stream deadline now script r
  cut : r.plane.stalled = true → reason = .str "timeout"

theorem Punctual.halted (punctual : Punctual chat stream deadline now script taken r) (reason : PyVal) :
    Halted chat stream deadline now script reason r :=
  ⟨punctual.paced, fun stalled => nomatch punctual.steady.symm.trans stalled⟩

theorem times_turns (left : Nat) (punctual : Punctual chat stream deadline now script taken r) :
    Ensures ChatState.clock (chat.timed.turns stream left) r
      (Halted chat stream deadline now script) (Paced chat stream deadline now script) := by
  induction left generalizing r taken with
  | zero => exact .pure (punctual.halted _)
  | succ left ih =>
    refine .bind (times_expired punctual.armed) ?_
    rintro _ r ⟨rfl, rfl⟩
    refine .ite (fun _ => .pure (punctual.halted _)) fun waits => ?_
    have early : r.plane.now < deadline := by simpa using waits
    refine .bind (R := fun completion r' => match completion with
      | none => Paced chat stream deadline now script r'
      | some x => if x.1.isNone then r' = r else Replied chat stream deadline r r') ?_ ?_
    · refine .tryCatch (F := Broken chat stream deadline r) ?_ fun exn r' broken => ?_
      · exact .bind (times_completeTurn punctual.armed stream) fun x r₁ completed => .pure completed
      · have paced := punctual.broken early broken
        exact .ite (fun _ => .pure paced) fun _ => .throw paced
    · rintro (_ | ⟨_ | assistant, finish, answer⟩) r₁ completed
      · exact .pure ⟨completed, fun _ => rfl⟩
      · cases completed
        exact .pure (punctual.halted _)
      · obtain ⟨taken, punctual⟩ := punctual.replied early completed
        have append : Silent ChatState.clock
            (appendMessage assistant.toMessage : ChatM (Timed V) Unit) := .modify fun _ => rfl
        refine .silent_bind append punctual.paced fun _ => ?_
        refine .silent_bind ((aside_timed chat).notes _) punctual.paced fun _ => ?_
        refine .silent_bind ((aside_timed chat).screenOutput _ _) punctual.paced fun halted => ?_
        cases halted with
        | some reason => exact .pure (punctual.halted _)
        | none =>
          refine .ite (fun _ => .pure (punctual.halted _)) fun _ => ?_
          refine .silent_bind (.lift _) punctual.paced fun calls => ?_
          refine .silent_bind (timeless_runTools calls) punctual.paced fun reason => ?_
          cases reason with
          | some reason => exact .pure (punctual.halted _)
          | none => exact ih punctual

/-! ## One request -/

/-- The finish reason of a turn with a read that timed out. -/
def Cut (r : Clock) : Prop := r.plane.stalled = true → r.finish = .str "timeout"

theorem times_finishReason {reason : PyVal} {Q : Unit → Clock → Prop}
    (post : Q () { r with finish := reason }) :
    Ensures ChatState.clock (withResponse (fun resp => { resp with finishReason := reason }) :
      ChatM (Timed V) Unit) r Q E :=
  .update (g := fun r => { r with finish := reason }) (fun _ => rfl) post

theorem timeless_remember (user : Entry) (answer : String) :
    Silent ChatState.clock (chat.timed.remember user answer) :=
  .ite (.pure _) (.modify fun _ => rfl)

/-- A chat before a turn, whose budget starts now. -/
structure Fresh (r : Clock) : Prop where
  starts : r.plane.starts = []
  reads : r.plane.reads = []
  steady : r.plane.stalled = false

theorem Fresh.inBudget (fresh : Fresh r) {budget : Rat} (positive : 0 < budget) :
    InBudget (r.plane.now + budget) r.plane := by
  refine ⟨?_, ?_, by linarith⟩
  · rw [fresh.starts]
    exact fun _ member => nomatch member
  · rw [fresh.reads]
    exact fun _ member => nomatch member

theorem Fresh.paced (fresh : Fresh r) {budget : Rat} (positive : 0 < budget) :
    Paced chat stream (r.plane.now + budget) r.plane.now r.plane.replies r :=
  ⟨[], rfl, fun _ => fresh.inBudget positive⟩

variable {budget : Rat} (given : chat.turnTimeout = some budget) (positive : 0 < budget)
  (fresh : Fresh r)

include given positive fresh

theorem times_finishTurn (user : Entry) :
    Ensures ChatState.clock (chat.timed.finishTurn user stream) r
      (fun _ r' => Paced chat stream (r.plane.now + budget) r.plane.now r.plane.replies r' ∧ Cut r')
      (Paced chat stream (r.plane.now + budget) r.plane.now r.plane.replies) := by
  have armed : Ensures ChatState.clock chat.timed.armDeadline r (fun _ r' =>
      r' = { r with deadline := some (r.plane.now + budget) })
      (Paced chat stream (r.plane.now + budget) r.plane.now r.plane.replies) := by
    unfold OumiGoChat.armDeadline
    change Ensures ChatState.clock (match chat.turnTimeout with
      | none => _
      | some budget => _) r _ _
    rw [given]
    refine .ite (fun zero => absurd zero positive.ne') fun _ => ?_
    have clock : Ensures ChatState.clock (outside chat.timed.outer.monotonic) r
        (fun now r' => now = r.plane.now ∧ r' = r)
        (Paced chat stream (r.plane.now + budget) r.plane.now r.plane.replies) := by
      refine times_outside (.get_bind fun plane same => .pure ⟨?_, rfl⟩)
      exact congrArg Timed.now same
    refine .bind clock ?_
    rintro _ r ⟨rfl, rfl⟩
    exact .update (g := fun r' => { r' with deadline := some (r.plane.now + budget) })
      (fun _ => rfl) rfl
  refine .bind armed ?_
  rintro _ _ rfl
  have start : Punctual chat stream (r.plane.now + budget) r.plane.now r.plane.replies []
      { r with deadline := some (r.plane.now + budget) } :=
    ⟨rfl, fresh.steady, rfl, rfl, fun _ => fresh.inBudget positive⟩
  refine .bind (times_turns _ start) fun reason r₁ halted => ?_
  have mark : Silent ChatState.clock (chat.timed.markTimeout reason) :=
    .ite ((aside_timed chat).answer _ _) (.pure _)
  refine .silent_bind mark halted.paced fun _ => ?_
  refine .bind (R := fun _ r' => r' = { r₁ with finish := reason }) (times_finishReason rfl) ?_
  rintro _ _ rfl
  refine .get_bind fun s _ => .silent (timeless_remember _ _) (fun _ => ?_) halted.paced
  exact ⟨halted.paced, halted.cut⟩

omit given in
theorem times_refuse (user : Entry) (verdict : Verdict) :
    Ensures ChatState.clock (chat.timed.refuse user verdict) r
      (fun _ r' => Paced chat stream (r.plane.now + budget) r.plane.now r.plane.replies r' ∧ Cut r')
      (Paced chat stream (r.plane.now + budget) r.plane.now r.plane.replies) := by
  have paced : Paced chat stream (r.plane.now + budget) r.plane.now r.plane.replies r :=
    fresh.paced positive
  refine .silent_bind (.modify fun _ => rfl) paced fun _ => ?_
  refine .silent_bind ((aside_timed chat).answer _ _) paced fun _ => ?_
  refine .bind (R := fun _ r' => r' = { r with finish := .str (haltReason verdict) })
    (times_finishReason rfl) ?_
  rintro _ _ rfl
  refine .get_bind fun s _ => .silent (timeless_remember _ _) (fun _ => ⟨paced, ?_⟩) paced
  exact fun stalled => nomatch fresh.steady.symm.trans stalled

theorem times_run (user : Entry) :
    Ensures ChatState.clock (chat.timed.run user stream) r
      (fun _ r' => Paced chat stream (r.plane.now + budget) r.plane.now r.plane.replies r' ∧ Cut r')
      (Paced chat stream (r.plane.now + budget) r.plane.now r.plane.replies) := by
  have paced : Paced chat stream (r.plane.now + budget) r.plane.now r.plane.replies r :=
    fresh.paced positive
  refine .silent_bind ((aside_timed chat).guard _ _ _ _) paced fun x => ?_
  refine .silent_bind ((aside_timed chat).recordFlags _ _) paced fun _ => ?_
  refine .ite (fun _ => times_refuse positive fresh user x.2.1) fun _ => ?_
  refine .ite (fun _ => ?_) fun _ => ?_
  · exact .silent_bind ((aside_timed chat).notes _) paced fun _ =>
      times_finishTurn given positive fresh user
  · refine .silent_bind (.modify fun _ => rfl) paced fun _ => ?_
    refine .silent_bind (.modify fun _ => rfl) paced fun _ => ?_
    refine .silent_bind ((aside_timed chat).notes _) paced fun _ => ?_
    refine .silent_bind (.modify fun _ => rfl) paced fun _ => ?_
    exact times_finishTurn given positive fresh _

omit fresh in
/-- **The budget bounds the turn**, if each reply it takes lasts no longer than what is left
when it is requested: no request is started and no output accepted after the deadline, the
turn is over by then, and when a read timed out it ends with "timeout". -/
theorem turn_in_budget (text : String) {s : ChatState (Timed V)} (starts : s.world.starts = [])
    (reads : s.world.reads = []) (steady : s.world.stalled = false) {taken : List TimedReply}
    (split : s.world.replies =
      taken ++ (final (chat.timed.request (.str text) stream) s).world.replies)
    (fits : chat.fits stream (s.world.now + budget) s.world.now taken) :
    InBudget (s.world.now + budget) (final (chat.timed.request (.str text) stream) s).world ∧
    ∀ s', chat.timed.request (.str text) stream s = .ok () s' → s'.world.stalled = true →
      s'.resp.finishReason = .str "timeout" := by
  have fresh : Fresh (chat.timed.begin text s).clock := ⟨starts, reads, steady⟩
  have run := @times_run V chat stream _ budget given positive fresh (chat.timed.begin text s).turn.own
  constructor
  · rw [final_request] at split ⊢
    have paced := (run.mono (fun _ _ both => both.1) fun _ => id).final
      (s := chat.timed.begin text s) rfl
    obtain ⟨others, script, budget⟩ := paced
    have same : others = taken := List.append_cancel_right (script.symm.trans split)
    have inBudget := budget (same ▸ fits)
    exact ⟨inBudget.starts, inBudget.reads, inBudget.now⟩
  · intro s' returned
    exact (run.returned (s := chat.timed.begin text s) rfl returned).2

end

/-! ## A stream of closely spaced events -/

/-- A chat with a budget of one second. -/
def hastyChat : OumiGoChat Unit where
  agent := ⟨"any-model", .empty, 2, Nat.zero_lt_two, [], none⟩
  system := none
  maxHistoryTurns := 3
  url := "http://manager/v1/chat/completions"
  headers := []
  turnTimeout := some 1
  stallTimeout := none
  outer := {
    post := fun _ => throw ⟨.exception, "ConnectError", ""⟩
    stream := fun _ => throw ⟨.exception, "ConnectError", ""⟩
    monotonic := pure 0
    loads := fun text => if text = "tick"
      then .ok (.dict [("choices", .list [.dict [("delta", .dict [("content", .str "tick")])]])])
      else .error ⟨.valueError, "JSONDecodeError", ""⟩
    dumps := fun _ => pure "null"
    repr := PyVal.typeName
    resume := fun _ _ => pure () }

/-- Three events, each after this silence. -/
def ticking (gap : Gap) : TimedReply :=
  ⟨200, "", [], ⟨0, le_refl 0⟩, [(gap, "data: tick"), (gap, "data: tick"), (gap, "data: tick"),
    (⟨0, le_refl 0⟩, "data: [DONE]")]⟩

def quarter : Gap := ⟨1/4, by norm_num⟩

def half : Gap := ⟨1/2, by norm_num⟩

/-- A new chat before this script. -/
def beforeReplies (replies : List TimedReply) : ChatState (Timed Unit) :=
  ⟨⟨(), 0, replies, [], [], false⟩, [], none, [], {}, 0, ⟨0, [], ⟨.user, "", none⟩⟩, [], []⟩

/-- What the request leaves of a streamed reply with these silences. -/
def afterTicking (gap : Gap) : ChatState (Timed Unit) :=
  final (hastyChat.timed.request (.str "hi") true) (beforeReplies [ticking gap])

/-- A quarter of a second between the events: the reply is over in time. -/
theorem turn_in_budget_ticking :
    hastyChat.fits true 1 0 [ticking quarter] ∧ InBudget 1 (afterTicking quarter).world := by
  have budget : (0 : Rat) + 1 = 1 := zero_add 1
  have fits : hastyChat.fits true 1 0 [ticking quarter] := ⟨by decide +kernel, trivial⟩
  have used : (afterTicking quarter).world.replies = [] :=
    List.eq_nil_of_length_eq_zero (by decide +kernel)
  have split : (beforeReplies [ticking quarter]).world.replies =
      [ticking quarter] ++ (afterTicking quarter).world.replies := by rw [used]; rfl
  have bounded := (@turn_in_budget Unit hastyChat true 1 rfl one_pos "hi"
    (beforeReplies [ticking quarter]) rfl rfl rfl _ split (budget.symm ▸ fits)).1
  exact And.intro fits (budget ▸ bounded)

/-- Half a second between the events, each shorter than the read timeout of one second: the
last event is accepted after one second and a half. -/
theorem closely_spaced_overrun :
    (∀ line ∈ (ticking half).lines, line.1 < hastyChat.readLimit 1) ∧
    (afterTicking half).resp.finishReason.str? = some "stop" ∧
    3/2 ∈ (afterTicking half).world.reads ∧ ¬ InBudget 1 (afterTicking half).world := by
  refine ⟨by decide +kernel, by decide +kernel, by decide +kernel, fun budget => ?_⟩
  exact absurd budget.now (by decide +kernel)

end Oumigo
