import Mathlib.Tactic.Linarith
import Oumigo.Agent.Timing
import Oumigo.Agent.Watch

/-!
# The read timeout of every model call

`_run` checks the budget before a round-trip, and `_timeout` reads the clock again to hand
what is left to httpx.  In between stand the guards of the assembled prompt, and the second
reading is not checked: when the deadline falls between the two, the call is issued with a
read timeout that is zero or negative.

`timely_iff` says which runs keep to the budget: those where no deadline falls between the
check and the call.
-/

namespace Oumigo

open Python Trace Effect

variable {V : Type}

/-! ## Runs that keep to the budget -/

/-- The deadline of a request: its first clock reading and the budget. -/
def OumiGoChat.deadlineOf (chat : OumiGoChat V) (log : List Observation) : Option Rat :=
  match chat.turnTimeout, log.getLast? with
  | some budget, some (.clock now) => if budget = 0 then none else some (now + budget)
  | _, _ => none

/-- A call after these observations is issued with a positive read timeout, at most what is
left of the budget and at most the stall timeout. -/
structure SoundCall (chat : OumiGoChat V) (deadline : Option Rat) (timeout : Timeout)
    (before : List Observation) : Prop where
  positive : ∀ read, timeout.read = some read → 0 < read
  within : ∀ d, deadline = some d → ∃ read now rest, timeout.read = some read ∧
    before = .clock now :: rest ∧ read ≤ d - now
  stall : ∀ stall, chat.stallTimeout = some stall → ∃ read, timeout.read = some read ∧
    read ≤ stall

def SoundEntry (chat : OumiGoChat V) (deadline : Option Rat) :
    Observation → List Observation → Prop
  | .call timeout, before => SoundCall chat deadline timeout before
  | _, _ => True

/-- The clock never goes back. -/
def ClockMonotone (log : List Observation) : Prop :=
  Justified (fun observation before => ∀ now, observation = .clock now →
    ∀ past, .clock past ∈ before → past ≤ now) log

/-- A request keeps to its budget: every call is sound, and when the budget was seen to be
used up the turn ends with "timeout". -/
structure Timely (chat : OumiGoChat V) (text : String) (stream : Bool)
    (s : ChatState (Watched V)) : Prop where
  calls : ∀ log, (final (chat.watched.request (.str text) stream) s).world.log = log →
    Justified (SoundEntry chat (chat.deadlineOf log)) log
  expiry : ∀ s', chat.watched.request (.str text) stream s = .ok () s' →
    ∀ d now, chat.deadlineOf s'.world.log = some d → .clock now ∈ s'.world.log → d ≤ now →
      s'.resp.finishReason = .str "timeout"

/-- A stall timeout is positive, and the deadline does not fall between the last two clock
readings before a call. -/
def Undisturbed (chat : OumiGoChat V) (deadline : Option Rat) :
    Observation → List Observation → Prop
  | .call _, before => (∀ stall, chat.stallTimeout = some stall → 0 < stall) ∧
      ∀ d checked read rest, deadline = some d → before = .clock read :: .clock checked :: rest →
        checked < d → read < d
  | _, _ => True

section

variable {chat : OumiGoChat V} {r : Watch}

/-! ## What holds of the log -/

/-- How a call is issued: right after two readings, of which the first is before the deadline
and the second gives the read timeout. -/
def Issued (chat : OumiGoChat V) (deadline : Option Rat) :
    Observation → List Observation → Prop
  | .call timeout, before => match deadline with
      | none => timeout.read = chat.stallTimeout
      | some d => ∃ checked read rest, before = .clock read :: .clock checked :: rest ∧
          checked < d ∧ timeout.read = some (chat.readLimit (d - read))
  | _, _ => True

/-- A positive limit: of the two that make it, both are. -/
theorem readLimit_pos {left : Rat} : 0 < chat.readLimit left ↔
    (∀ stall, chat.stallTimeout = some stall → 0 < stall) ∧ 0 < left := by
  unfold OumiGoChat.readLimit
  cases chat.stallTimeout with
  | none => simp
  | some stall => simp

theorem readLimit_le (left : Rat) : chat.readLimit left ≤ left := by
  unfold OumiGoChat.readLimit
  cases chat.stallTimeout with
  | none => exact le_refl _
  | some stall => exact min_le_right _ _

theorem readLimit_le_stall {stall : Rat} (given : chat.stallTimeout = some stall) (left : Rat) :
    chat.readLimit left ≤ stall := by
  unfold OumiGoChat.readLimit
  rw [given]
  exact min_le_left _ _

/-- **A call is sound** exactly when nothing came between the check and the reading. -/
theorem sound_iff {deadline : Option Rat} {observation : Observation} {before : List Observation}
    (issued : Issued chat deadline observation before) :
    SoundEntry chat deadline observation before ↔ Undisturbed chat deadline observation before := by
  cases observation with
  | clock | line => exact Iff.rfl
  | call timeout =>
    cases deadline with
    | none =>
      change timeout.read = chat.stallTimeout at issued
      constructor
      · intro sound
        refine ⟨fun stall given => sound.positive stall (issued.trans given), ?_⟩
        exact fun d _ _ _ impossible => nomatch impossible
      · intro ⟨positive, _⟩
        refine ⟨fun read given => positive read (issued.symm.trans given), ?_, ?_⟩
        · exact fun d impossible => nomatch impossible
        · exact fun stall given => ⟨stall, issued.trans given, le_refl _⟩
    | some d =>
      obtain ⟨checked, read, rest, rfl, early, limit⟩ := issued
      constructor
      · intro sound
        obtain ⟨stalls, left⟩ := readLimit_pos.mp (sound.positive _ limit)
        refine ⟨stalls, fun d' checked' read' rest' same shape _ => ?_⟩
        cases same
        cases shape
        linarith
      · intro ⟨stalls, between⟩
        have left := between d checked read rest rfl rfl early
        have positive : 0 < chat.readLimit (d - read) := readLimit_pos.mpr ⟨stalls, by linarith⟩
        refine ⟨fun limit' given => ?_, fun d' same => ?_, fun stall given => ?_⟩
        · rw [limit] at given
          cases given
          exact positive
        · cases same
          exact ⟨_, read, _, limit, rfl, readLimit_le _⟩
        · exact ⟨_, limit, readLimit_le_stall given _⟩

/-- Every clock reading was before the deadline. -/
def Clear (deadline : Option Rat) (log : List Observation) : Prop :=
  ∀ d, deadline = some d → ∀ now, .clock now ∈ log → now < d

/-- In an undisturbed run on a monotone clock, the budget was never seen to be used up. -/
def Ample (chat : OumiGoChat V) (deadline : Option Rat) (log : List Observation) : Prop :=
  ClockMonotone log → Justified (Undisturbed chat deadline) log → Clear deadline log

/-- A turn is under way with this deadline. -/
structure Held (chat : OumiGoChat V) (deadline : Option Rat) (r : Watch) : Prop where
  armed : r.deadline = deadline
  unlimited : deadline = none → chat.turnTimeout = none ∨ chat.turnTimeout = some 0
  origin : chat.deadlineOf r.log = deadline
  issued : Justified (Issued chat deadline) r.log

theorem deadlineOf_unlimited (unlimited : chat.turnTimeout = none ∨ chat.turnTimeout = some 0)
    (log : List Observation) : chat.deadlineOf log = none := by
  unfold OumiGoChat.deadlineOf
  rcases unlimited with none | zero
  · rw [none]
  · rw [zero]
    cases log.getLast? with
    | none => rfl
    | some oldest => cases oldest <;> rfl

/-- The first reading stays the first. -/
theorem deadlineOf_cons {log : List Observation} {d : Rat}
    (origin : chat.deadlineOf log = some d) (observation : Observation) :
    chat.deadlineOf (observation :: log) = some d := by
  cases log with
  | nil =>
    unfold OumiGoChat.deadlineOf at origin
    cases budget : chat.turnTimeout <;> simp [budget] at origin
  | cons earlier rest =>
    rw [← origin]
    unfold OumiGoChat.deadlineOf
    rw [List.getLast?_cons_cons]

theorem Held.observe {deadline : Option Rat} (held : Held chat deadline r)
    {observation : Observation} (issued : Issued chat deadline observation r.log) :
    Held chat deadline (r.observe observation) := by
  refine ⟨held.armed, held.unlimited, ?_, .cons issued held.issued⟩
  cases deadline with
  | none => exact deadlineOf_unlimited (held.unlimited rfl) _
  | some d => exact deadlineOf_cons held.origin observation

/-- The last reading is before the deadline. -/
def Checked (deadline : Option Rat) (log : List Observation) : Prop :=
  ∀ d, deadline = some d → ∃ now rest, log = .clock now :: rest ∧ now < d

/-- On a monotone clock, the last reading vouches for the earlier ones. -/
theorem Checked.ample {deadline : Option Rat} {log : List Observation}
    (checked : Checked deadline log) : Ample chat deadline log := by
  intro monotone _ d due now member
  obtain ⟨last, rest, rfl, early⟩ := checked d due
  rcases List.mem_cons.mp member with same | past
  · cases same
    exact early
  · exact (monotone.1 last rfl now past).trans_lt early

/-! ## One round-trip -/

section

variable {deadline : Option Rat} (held : Held chat deadline r)

include held

theorem watches_remaining : Ensures ChatState.watch chat.watched.remaining r
    (fun left r' => Held chat deadline r' ∧ match deadline with
      | none => left = none ∧ r' = r
      | some d => ∃ now, left = some (d - now) ∧ r' = r.observe (.clock now))
    (Held chat deadline) := by
  refine .get_bind fun s shows => ?_
  have armed : s.deadline = deadline := (congrArg Watch.deadline shows).trans held.armed
  rw [armed]
  cases deadline with
  | none => exact .pure ⟨held, rfl, rfl⟩
  | some d =>
    refine .bind (watches_clock held) ?_
    rintro now _ rfl
    exact .pure ⟨held.observe trivial, now, rfl, rfl⟩

/-- A budget that is not used up was checked. -/
theorem watches_expired : Ensures ChatState.watch chat.watched.expired r
    (fun late r' => Held chat deadline r' ∧ (late = false → Checked deadline r'.log))
    (Held chat deadline) := by
  refine .bind (watches_remaining held) ?_
  rintro left r' ⟨held', read⟩
  cases deadline with
  | none =>
    obtain ⟨rfl, rfl⟩ := read
    exact .pure ⟨held', fun _ d impossible => nomatch impossible⟩
  | some d =>
    obtain ⟨now, rfl, rfl⟩ := read
    refine .pure ⟨held', fun early d' same => ?_⟩
    cases same
    have left : ¬ d - now ≤ 0 := by simpa using early
    exact ⟨now, r.log, rfl, by linarith⟩

/-- The request is ready to be issued. -/
def Ready (chat : OumiGoChat V) (deadline : Option Rat) (r : Watch) (request : HttpRequest)
    (r' : Watch) : Prop :=
  match deadline with
  | none => r' = r ∧ request.timeout.read = chat.stallTimeout
  | some d => ∃ now, r' = r.observe (.clock now) ∧
      request.timeout.read = some (chat.readLimit (d - now))

theorem watches_httpRequest (stream : Bool) :
    Ensures ChatState.watch (chat.watched.httpRequest stream) r
      (fun request r' => Held chat deadline r' ∧ Ready chat deadline r request r')
      (Held chat deadline) := by
  have timeout : Ensures ChatState.watch chat.watched.timeout r
      (fun timeout r' => Held chat deadline r' ∧
        ∀ url json headers, Ready chat deadline r ⟨url, json, headers, timeout⟩ r')
      (Held chat deadline) := by
    refine .bind (watches_remaining held) ?_
    rintro left r' ⟨held', read⟩
    cases deadline with
    | none =>
      obtain ⟨rfl, rfl⟩ := read
      exact .pure ⟨held', fun _ _ _ => ⟨rfl, rfl⟩⟩
    | some d =>
      obtain ⟨now, rfl, rfl⟩ := read
      change Ensures ChatState.watch (match chat.stallTimeout with
        | none => pure _
        | some stall => pure _) (r.observe (.clock now)) _ _
      cases given : chat.stallTimeout with
      | none =>
        have limit : chat.readLimit (d - now) = d - now := by
          unfold OumiGoChat.readLimit
          rw [given]
        exact .pure ⟨held', fun _ _ _ => ⟨now, rfl, congrArg some limit.symm⟩⟩
      | some stall =>
        have limit : chat.readLimit (d - now) = min stall (d - now) := by
          unfold OumiGoChat.readLimit
          rw [given]
        exact .pure ⟨held', fun _ _ _ => ⟨now, rfl, congrArg some limit.symm⟩⟩
  refine .get_bind fun s _ => .bind timeout ?_
  rintro timeout r' ⟨held', ready⟩
  refine .get_bind fun s _ => .silent_bind ((aside_watched chat).notes _) held' fun _ => ?_
  exact .pure ⟨held', ready _ _ _⟩

end

/-- A call that follows a check: its read timeout is the last reading's. -/
theorem Ready.called {deadline : Option Rat} {r' : Watch} {request : HttpRequest}
    (ready : Ready chat deadline r request r') (checked : Checked deadline r.log)
    (held : Held chat deadline r') :
    Held chat deadline (r'.observe (.call request.timeout)) ∧
      Ample chat deadline (r'.observe (.call request.timeout)).log := by
  cases deadline with
  | none =>
    obtain ⟨rfl, limit⟩ := ready
    exact ⟨held.observe limit, fun _ _ d impossible => nomatch impossible⟩
  | some d =>
    obtain ⟨now, rfl, limit⟩ := ready
    obtain ⟨last, rest, log, early⟩ := checked d rfl
    have shape : (r.observe (.clock now)).log = .clock now :: .clock last :: rest :=
      congrArg (Observation.clock now :: ·) log
    refine ⟨held.observe ⟨last, now, rest, shape, early, limit⟩, ?_⟩
    intro monotone undisturbed d' same past member
    cases same
    have between : now < d := undisturbed.1.2 d last now rest rfl shape early
    have earlier : Ample chat (some d) r.log := Checked.ample checked
    rcases List.mem_cons.mp member with impossible | member
    · cases impossible
    rcases List.mem_cons.mp member with same | member
    · cases same
      exact between
    · exact earlier monotone.2.2 undisturbed.2.2 d rfl past member

section

variable {deadline : Option Rat}

/-- The turn goes on, or ends, with the budget not seen to be used up. -/
def Goes (chat : OumiGoChat V) (deadline : Option Rat) (r : Watch) : Prop :=
  Held chat deadline r ∧ Ample chat deadline r.log

/-- A line that is read tells nothing of the clock. -/
theorem Goes.line (goes : Goes chat deadline r) (text : String) :
    Goes chat deadline (r.observe (.line text)) := by
  refine ⟨goes.1.observe trivial, fun monotone undisturbed d due now member => ?_⟩
  rcases List.mem_cons.mp member with impossible | earlier
  · cases impossible
  · exact goes.2 monotone.2 undisturbed.2 d due now earlier

theorem watches_roundTrip (held : Held chat deadline r) (checked : Checked deadline r.log)
    (stream : Bool) : Ensures ChatState.watch (chat.watched.roundTrip stream) r
      (fun _ => Goes chat deadline) (Held chat deadline) := by
  refine .ite (fun _ => ?_) fun _ => ?_
  · rw [streamTurn_eq]
    refine .bind (R := fun lines r' => Goes chat deadline r' ∧
      ∀ line ∈ lines, ∃ given, line = Watched.readLine given) ?_ ?_
    · refine .bind (watches_httpRequest held true) ?_
      rintro request r₁ ⟨held₁, ready⟩
      have called := ready.called checked held₁
      refine .bind (watches_stream request called.1) ?_
      rintro reply _ ⟨rfl, read, lines⟩
      refine .ite (fun _ => .pure ⟨called, lines⟩) fun _ => ?_
      refine .silent_bind read called.1 fun _ => .silent_bind (.lift _) called.1 fun _ => ?_
      exact .pure ⟨called, lines⟩
    · rintro lines r' ⟨goes, reads⟩
      refine ((aside_watched chat).readStream (fun line member r goes => ?_) goes).mono
        (fun _ _ => id) fun _ goes => goes.1
      obtain ⟨given, rfl⟩ := reads line member
      refine (watches_readLine given goes).mono ?_ fun _ => id
      rintro text _ rfl
      exact goes.line text
  · rw [jsonTurn_eq]
    refine .bind (R := fun _ => Goes chat deadline) ?_ fun data r' goes => ?_
    · refine .bind (watches_httpRequest held false) ?_
      rintro request r₁ ⟨held₁, ready⟩
      have called := ready.called checked held₁
      refine .bind (watches_post request called.1) ?_
      rintro reply _ rfl
      refine .silent_bind (.lift _) called.1 fun _ => ?_
      exact .silent (.lift _) (fun _ => called) called.1
    · exact .silent ((aside_watched chat).readJson data) (fun _ => goes) goes.1

theorem watches_completeTurn (held : Held chat deadline r) (checked : Checked deadline r.log)
    (stream : Bool) : Ensures ChatState.watch (chat.watched.completeTurn stream) r
      (fun _ => Goes chat deadline) (Held chat deadline) := by
  refine .silent_bind (aside_watched chat).guardPrompt held fun verdict => ?_
  refine .ite (fun _ => ?_) fun _ => .get_bind fun s _ => ?_
  · exact .silent_bind ((aside_watched chat).halt _) held fun _ => .pure ⟨held, checked.ample⟩
  · refine .silent_bind ((aside_watched chat).notes _) held fun _ => ?_
    exact .bind (watches_roundTrip held checked stream) fun _ _ goes => .pure goes

/-! ## The turn -/

theorem watches_runTools (calls : List PyVal) (goes : Goes chat deadline r) :
    Ensures ChatState.watch (chat.watched.runTools calls) r
      (fun reason r' => Held chat deadline r' ∧
        (reason = some (.str "timeout") ∨ Ample chat deadline r'.log))
      (Held chat deadline) := by
  induction calls generalizing r with
  | nil => exact .pure ⟨goes.1, Or.inr goes.2⟩
  | cons tc rest ih =>
    refine .silent_bind ((aside_watched chat).executeTool tc) goes.1 fun x => ?_
    refine .silent_bind ((aside_watched chat).feedBack tc x.1) goes.1 fun _ => ?_
    split
    · exact .pure ⟨goes.1, Or.inr goes.2⟩
    · refine .bind (watches_expired goes.1) ?_
      rintro late r' ⟨held, checked⟩
      refine .ite (fun _ => .pure ⟨held, Or.inl rfl⟩) fun early => ?_
      exact ih ⟨held, (checked (by simpa using early)).ample⟩

/-- **The loop of `_run`** ends with "timeout", or without having seen the deadline pass. -/
theorem watches_turns (stream : Bool) (left : Nat) (held : Held chat deadline r)
    (ample : left = 0 → Ample chat deadline r.log) :
    Ensures ChatState.watch (chat.watched.turns stream left) r
      (fun reason r' => Held chat deadline r' ∧
        (reason = .str "timeout" ∨ Ample chat deadline r'.log))
      (Held chat deadline) := by
  induction left generalizing r with
  | zero => exact .pure ⟨held, Or.inr (ample rfl)⟩
  | succ left ih =>
    refine .bind (watches_expired held) ?_
    rintro late r₁ ⟨held₁, passes⟩
    refine .ite (fun _ => .pure ⟨held₁, Or.inl rfl⟩) fun early => ?_
    have checked : Checked deadline r₁.log := passes (by simpa using early)
    refine .bind (R := fun completion r' => Held chat deadline r' ∧
      (completion = none ∨ Ample chat deadline r'.log)) ?_ ?_
    · refine .tryCatch (F := Held chat deadline) ?_ fun exn r' held => ?_
      · refine .bind (watches_completeTurn held₁ checked stream) fun x r' goes => ?_
        exact .pure ⟨goes.1, Or.inr goes.2⟩
      · exact .ite (fun _ => .pure ⟨held, Or.inl rfl⟩) fun _ => .throw held
    · rintro (_ | ⟨assistant, finish, answer⟩) r₂ ⟨held₂, completed⟩
      · exact .pure ⟨held₂, Or.inl rfl⟩
      have ample₂ : Ample chat deadline r₂.log := by
        rcases completed with impossible | ample
        · cases impossible
        · exact ample
      cases assistant with
      | none => exact .pure ⟨held₂, Or.inr ample₂⟩
      | some assistant =>
        refine .silent_bind ((aside_watched chat).appendMessage _) held₂ fun _ => ?_
        refine .silent_bind ((aside_watched chat).notes _) held₂ fun _ => ?_
        refine .silent_bind ((aside_watched chat).screenOutput _ _) held₂ fun halted => ?_
        cases halted with
        | some reason => exact .pure ⟨held₂, Or.inr ample₂⟩
        | none =>
          refine .ite (fun _ => .pure ⟨held₂, Or.inr ample₂⟩) fun _ => ?_
          refine .silent_bind (.lift _) held₂ fun calls => ?_
          refine .bind (watches_runTools calls ⟨held₂, ample₂⟩) ?_
          rintro reason r₃ ⟨held₃, ended⟩
          cases reason with
          | some reason =>
            refine .pure ⟨held₃, ?_⟩
            rcases ended with same | ample
            · exact Or.inl (Option.some.inj same)
            · exact Or.inr ample
          | none =>
            refine ih held₃ fun _ => ?_
            rcases ended with impossible | ample
            · cases impossible
            · exact ample

end

/-! ## One request -/

/-- What holds of the log when the request is over. -/
def Logged (chat : OumiGoChat V) (r : Watch) : Prop :=
  Justified (Issued chat (chat.deadlineOf r.log)) r.log

/-- It returned: with "timeout", or without having seen the deadline pass. -/
def Concluded (chat : OumiGoChat V) (r : Watch) : Prop :=
  Logged chat r ∧ (r.finish = .str "timeout" ∨ Ample chat (chat.deadlineOf r.log) r.log)

theorem Held.logged {deadline : Option Rat} (held : Held chat deadline r) : Logged chat r := by
  unfold Logged
  rw [held.origin]
  exact held.issued

theorem logged_nil (new : r.log = []) : Logged chat r := by
  unfold Logged
  rw [new]
  trivial

/-- A turn that starts has its deadline from its first reading. -/
theorem watches_armDeadline (new : r.log = []) :
    Ensures ChatState.watch chat.watched.armDeadline r
      (fun _ r' => ∃ deadline, Held chat deadline r') (Logged chat) := by
  have unlimited (endless : chat.turnTimeout = none ∨ chat.turnTimeout = some 0) :
      Held chat none { r with deadline := none } := by
    refine ⟨rfl, fun _ => endless, deadlineOf_unlimited endless _, ?_⟩
    change Justified _ r.log
    rw [new]
    trivial
  unfold OumiGoChat.armDeadline
  change Ensures ChatState.watch (match chat.turnTimeout with
    | none => _
    | some budget => _) r _ _
  cases given : chat.turnTimeout with
  | none =>
    exact .update (g := fun r => { r with deadline := none }) (fun _ => rfl)
      ⟨none, unlimited (Or.inl given)⟩
  | some budget =>
    refine .ite (fun zero => ?_) fun limited => ?_
    · exact .update (g := fun r => { r with deadline := none }) (fun _ => rfl)
        ⟨none, unlimited (Or.inr (given.trans (congrArg _ zero)))⟩
    · refine .bind (watches_clock (logged_nil new)) ?_
      rintro now _ rfl
      refine .update (g := fun r => { r with deadline := some (now + budget) }) (fun _ => rfl)
        ⟨some (now + budget), rfl, (nomatch ·), ?_, ?_⟩
      · change chat.deadlineOf (.clock now :: r.log) = _
        unfold OumiGoChat.deadlineOf
        rw [given, new]
        exact if_neg limited
      · change Justified _ (.clock now :: r.log)
        rw [new]
        exact ⟨trivial, trivial⟩

theorem watches_finishTurn (new : r.log = []) (user : Entry) (stream : Bool) :
    Ensures ChatState.watch (chat.watched.finishTurn user stream) r
      (fun _ => Concluded chat) (Logged chat) := by
  refine .bind (watches_armDeadline new) ?_
  rintro _ r₁ ⟨deadline, held⟩
  have runs : chat.watched.agent.maxIterations ≠ 0 := chat.agent.maxIterations_pos.ne'
  refine .bind ((watches_turns stream _ held fun zero => absurd zero runs).mono
    (fun _ _ => id) fun _ held => held.logged) ?_
  rintro reason r₂ ⟨held, ended⟩
  refine .silent_bind ((aside_watched chat).markTimeout reason) held.logged fun _ => ?_
  refine .bind (R := fun _ r' => r' = { r₂ with finish := reason })
    (watches_finishReason reason rfl) ?_
  rintro _ _ rfl
  refine .get_bind fun s _ => .silent (unlogged_remember _ _) (fun _ => ?_) held.logged
  refine ⟨held.logged, ?_⟩
  rw [held.origin]
  exact ended

theorem watches_refuse (new : r.log = []) (user : Entry) (verdict : Verdict) :
    Ensures ChatState.watch (chat.watched.refuse user verdict) r
      (fun _ => Concluded chat) (Logged chat) := by
  refine .silent_bind (.modify fun _ => rfl) (logged_nil new) fun _ => ?_
  refine .silent_bind ((aside_watched chat).halt _) (logged_nil new) fun _ => ?_
  refine .bind (R := fun _ r' => r' = { r with finish := .str (haltReason verdict) })
    (watches_finishReason _ rfl) ?_
  rintro _ _ rfl
  refine .get_bind fun s _ => .silent (unlogged_remember _ _) (fun _ => ?_) (logged_nil new)
  refine ⟨logged_nil new, Or.inr fun _ _ d _ now member => ?_⟩
  rw [show ({ r with finish := .str (haltReason verdict) } : Watch).log = [] from new] at member
  cases member

theorem watches_run (new : r.log = []) (user : Entry) (stream : Bool) :
    Ensures ChatState.watch (chat.watched.run user stream) r
      (fun _ => Concluded chat) (Logged chat) := by
  refine .silent_bind ((aside_watched chat).guard _ _ _ _) (logged_nil new) fun x => ?_
  refine .silent_bind ((aside_watched chat).recordFlags _ _) (logged_nil new) fun _ => ?_
  refine .ite (fun _ => watches_refuse new user x.2.1) fun _ => .ite (fun _ => ?_) fun _ => ?_
  · refine .silent_bind ((aside_watched chat).notes _) (logged_nil new) fun _ => ?_
    exact watches_finishTurn new user stream
  · refine .silent_bind (.modify fun _ => rfl) (logged_nil new) fun _ => ?_
    refine .silent_bind (.modify fun _ => rfl) (logged_nil new) fun _ => ?_
    refine .silent_bind ((aside_watched chat).notes _) (logged_nil new) fun _ => ?_
    refine .silent_bind ((aside_watched chat).replaceLast _) (logged_nil new) fun _ => ?_
    exact watches_finishTurn new _ stream

/-- **A request keeps to its budget** exactly when no deadline falls between the check of a
round-trip and the call, and no stall timeout of zero or less is handed on. -/
theorem timely_iff (text : String) (stream : Bool) {s : ChatState (Watched V)}
    (new : s.world.log = [])
    (monotone : ClockMonotone (final (chat.watched.request (.str text) stream) s).world.log) :
    Timely chat text stream s ↔
      Justified (Undisturbed chat (chat.deadlineOf
          (final (chat.watched.request (.str text) stream) s).world.log))
        (final (chat.watched.request (.str text) stream) s).world.log := by
  have begun : (chat.watched.begin text s).watch.log = [] := new
  have run : Ensures ChatState.watch (chat.watched.run (chat.watched.begin text s).turn.own stream)
      _ (fun _ => Concluded chat) (Logged chat) := watches_run begun _ stream
  have logged : Logged chat (final (chat.watched.request (.str text) stream) s).watch := by
    rw [final_request]
    exact (run.mono (fun _ _ concluded => concluded.1) fun _ => id).final rfl
  have calls := logged.iff fun _ _ issued _ => sound_iff issued
  constructor
  · exact fun timely => calls.mp (timely.calls _ rfl)
  · intro undisturbed
    refine ⟨fun log same => same ▸ calls.mpr undisturbed, fun s' returned d now due seen past => ?_⟩
    have ending : final (chat.watched.request (.str text) stream) s = s' := by
      unfold final
      rw [returned]
    rw [ending] at monotone undisturbed
    obtain ⟨-, timeout | ample⟩ := run.returned (s := chat.watched.begin text s) rfl returned
    · exact timeout
    · exact absurd (ample monotone undisturbed d due now seen) (not_lt.mpr past)

end

/-! ## A guard that takes its time -/

/-- A chat with a budget of one second, whose clock is the world, and whose guard screens
the prompt for this long. -/
def screenedChat (pause : Rat) : OumiGoChat Rat where
  agent := ⟨"any-model", .empty, 2, Nat.zero_lt_two, [], some ⟨"default",
    [⟨some [.assembledPrompt], fun _ _ => fun now => .ok .allow (now + pause)⟩]⟩⟩
  system := none
  maxHistoryTurns := 3
  url := "http://manager/v1/chat/completions"
  headers := []
  turnTimeout := some 1
  stallTimeout := none
  outer := {
    post := fun _ => pure ⟨200, "", .ok (proseReply "Hi!")⟩
    stream := fun _ => throw ⟨.exception, "ConnectError", ""⟩
    monotonic := get
    loads := fun _ => .ok (.dict [])
    dumps := fun _ => pure "null"
    repr := PyVal.typeName
    resume := fun _ _ => pure () }

/-- A new chat at time zero. -/
def unwatched : ChatState (Watched Rat) :=
  ⟨⟨0, []⟩, [], none, [], {}, 0, ⟨0, [], ⟨.user, "", none⟩⟩, [], []⟩

/-- The log of its first request. -/
def screenedLog (pause : Rat) : List Observation :=
  (final ((screenedChat pause).watched.request (.str "hi") false) unwatched).world.log

/-- What is handed on after a reading at `read`. -/
def handedOn (limit read : Rat) : List Observation :=
  [.call ⟨some limit, 10⟩, .clock read, .clock 0, .clock 0]

theorem clockMonotone_handedOn {limit read : Rat} (later : 0 ≤ read) :
    ClockMonotone (handedOn limit read) := by
  refine ⟨by simp, ?_, ?_, ?_, trivial⟩
  · rintro _ ⟨⟩ past member
    simp only [List.mem_cons, Observation.clock.injEq, List.not_mem_nil, or_false, or_self]
      at member
    exact member.trans_le later
  · rintro _ ⟨⟩ past member
    simp only [List.mem_cons, Observation.clock.injEq, List.not_mem_nil, or_false] at member
    exact member.le
  · rintro _ ⟨⟩ past member
    cases member

/-- A quarter of a second in the guard leaves three quarters for the call. -/
theorem timely_iff_quarter :
    screenedLog (1/4) = handedOn (3/4) (1/4) ∧ Timely (screenedChat (1/4)) "hi" false unwatched := by
  have log : screenedLog (1/4) = handedOn (3/4) (1/4) := by decide +kernel
  have monotone : ClockMonotone (screenedLog (1/4)) := by
    rw [log]
    exact clockMonotone_handedOn (by norm_num)
  refine And.intro log ((timely_iff "hi" false rfl monotone).mpr ?_)
  change Justified (Undisturbed _ ((screenedChat (1/4)).deadlineOf (screenedLog (1/4))))
    (screenedLog (1/4))
  rw [log]
  have stalls (stall : Rat) (given : (screenedChat (1/4)).stallTimeout = some stall) :
      0 < stall := by
    cases given
  refine ⟨⟨stalls, ?_⟩, trivial, trivial, trivial, trivial⟩
  rintro d checked read rest due ⟨⟩ early
  have deadline : (screenedChat (1/4)).deadlineOf (handedOn (3/4) (1/4)) = some 1 := by
    decide +kernel
  rw [deadline] at due
  cases due
  norm_num

/-- Two seconds in the guard overdraw the budget of one: the call is issued with a read
timeout of minus one second. -/
theorem slow_guard_overdraws :
    screenedLog 2 = handedOn (-1) 2 ∧ ClockMonotone (screenedLog 2) ∧
      ¬ Timely (screenedChat 2) "hi" false unwatched := by
  have log : screenedLog 2 = handedOn (-1) 2 := by decide +kernel
  refine ⟨log, ?_, fun timely => ?_⟩
  · rw [log]
    exact clockMonotone_handedOn (by norm_num)
  · have calls : Justified (SoundEntry (screenedChat 2) _) (handedOn (-1) 2) := timely.calls _ log
    have positive : (0 : Rat) < -1 := calls.1.positive (-1) rfl
    norm_num at positive

end Oumigo
