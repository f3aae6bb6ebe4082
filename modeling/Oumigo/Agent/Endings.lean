import Oumigo.Agent.Session
import Oumigo.Agent.Watch

/-!
# The finish reason of a streamed request

`_stream_turn` keeps the last `finish_reason` that an event of the stream carries, and `_run`
puts "stop" where there is none.  A stream that breaks off, or ends in an error event, has
none; its request is over with "stop", like one whose model said so (`broken_stream_stops`).
`finish_reported` says where the finish reason of a streamed request comes from.
-/

namespace Oumigo

open Python Effect

variable {V : Type} {chat : OumiGoChat V} {r r' : Watch}

/-! ## What a stream reports -/

/-- The lines read since the last call. -/
def heard : List Observation → List String
  | .line text :: before => heard before ++ [text]
  | _ => []

/-- The finish reason that a line carries. -/
def carried (loads : String → Except Exn PyVal) (line : String) : Option PyVal :=
  match parseLine loads line with
  | .ok (.event event) =>
      match firstChoice event >>= fun choice => choice.get "finish_reason" with
      | .ok finish => if finish.truthy then some finish else none
      | .error _ => none
  | _ => none

/-- The last finish reason that these lines carry. -/
def reported (loads : String → Except Exn PyVal) (lines : List String) : Option PyVal :=
  (lines.filterMap (carried loads)).getLast?

/-- The finish reasons that `_run` sets itself. -/
def ownReasons : List String := ["timeout", "blocked", "stopped", "max_iterations"]

/-- It is one of the loop's own, or what the last stream reported, or "stop". -/
def Explained (chat : OumiGoChat V) (log : List Observation) (finish : PyVal) : Prop :=
  (∃ own ∈ ownReasons, finish = .str own) ∨
    finish = (reported chat.outer.loads (heard log)).getD (.str "stop")

/-! ## One stream -/

/-- The stream so far is what was heard, and this is its finish reason. -/
def Follows (chat : OumiGoChat V) (log : List Observation) (finish : PyVal) : Prop :=
  finish = (reported chat.outer.loads (heard log)).getD .none

theorem Follows.line {log : List Observation} {finish : PyVal}
    (follows : Follows chat log finish) (text : String) :
    Follows chat (.line text :: log) ((carried chat.outer.loads text).getD finish) := by
  unfold Follows at *
  unfold heard reported
  rw [List.filterMap_append, List.filterMap_cons, List.filterMap_nil, follows]
  cases carried chat.outer.loads text with
  | none => rw [List.append_nil]; rfl
  | some finish => rw [List.getLast?_concat]; rfl

/-- The body of the loop keeps the finish reason of its event. -/
theorem follows_streamEvent {event : PyVal} {text : String} {acc : OumiGoChat.StreamAcc}
    (parsed : parseLine chat.outer.loads text = .ok (.event event)) :
    Ensures ChatState.watch (chat.watched.streamEvent event acc) r
      (fun acc' r' => r' = r ∧
        acc'.finish = (carried chat.outer.loads text).getD acc.finish)
      fun _ => True := by
  have quiet := (aside_watched chat)
  refine .silent_bind (quiet.responds _ fun _ => rfl) trivial fun _ => ?_
  refine .lift_bind trivial fun choice chosen => .lift_bind trivial fun finish given => ?_
  have kept : (if finish.truthy then finish else acc.finish) =
      (carried chat.outer.loads text).getD acc.finish := by
    have both : (firstChoice event >>= fun choice => choice.get "finish_reason") = .ok finish := by
      rw [chosen]
      exact given
    unfold carried
    rw [parsed]
    dsimp only
    rw [both]
    dsimp only
    split <;> rfl
  refine .silent_bind (.lift _) trivial fun _ => .silent_bind (.lift _) trivial fun _ => ?_
  refine .silent_bind (quiet.yieldReasoning _) trivial fun _ => ?_
  refine .silent_bind (.lift _) trivial fun _ => ?_
  refine .silent_bind (quiet.passThrough _) trivial fun _ => ?_
  refine .silent_bind (.lift _) trivial fun _ => .silent_bind (.lift _) trivial fun _ => ?_
  exact .silent_bind (.lift _) trivial fun _ => .pure ⟨rfl, kept⟩

/-- **The loop over a stream** ends with what the lines read report. -/
theorem follows_streamEvents {lines : List (EStateM Exn (Watched V) String)}
    (reads : ∀ line ∈ lines, ∃ given, line = Watched.readLine given)
    {acc : OumiGoChat.StreamAcc} (follows : Follows chat r.log acc.finish) :
    Ensures ChatState.watch (chat.watched.streamEvents lines acc) r
      (fun acc' r' => Follows chat r'.log acc'.finish) fun _ => True := by
  induction lines generalizing r acc with
  | nil => exact .pure follows
  | cons line rest ih =>
    have later := fun line member => reads line (List.mem_cons_of_mem _ member)
    obtain ⟨given, rfl⟩ := reads line List.mem_cons_self
    refine .bind (watches_readLine given trivial) ?_
    rintro text _ rfl
    have follows' := follows.line text
    refine .lift_bind trivial fun kind parsed => ?_
    change parseLine chat.outer.loads text = .ok kind at parsed
    cases kind with
    | skipped =>
      have nothing : carried chat.outer.loads text = none := by
        unfold carried
        rw [parsed]
      rw [nothing] at follows'
      exact ih later follows'
    | done =>
      have nothing : carried chat.outer.loads text = none := by
        unfold carried
        rw [parsed]
      rw [nothing] at follows'
      exact .pure follows'
    | event event =>
      refine .bind (follows_streamEvent parsed) ?_
      rintro acc' _ ⟨rfl, kept⟩
      exact ih later (kept ▸ follows')

theorem follows_streamTurn :
    Ensures ChatState.watch chat.watched.streamTurn r
      (fun x r' => Follows chat r'.log x.2.1) fun _ => True := by
  rw [streamTurn_eq]
  refine .bind (R := fun lines r' => heard r'.log = [] ∧
    ∀ line ∈ lines, ∃ given, line = Watched.readLine given) ?_ ?_
  · refine .bind .anything fun request r₁ _ => .bind (watches_stream request trivial) ?_
    rintro reply _ ⟨rfl, read, lines⟩
    refine .ite (fun _ => .pure ⟨rfl, lines⟩) fun _ => ?_
    refine .silent_bind read trivial fun _ => .silent_bind (.lift _) trivial fun _ => ?_
    exact .pure ⟨rfl, lines⟩
  · rintro lines r₁ ⟨nothing, reads⟩
    have start : Follows chat r₁.log ({} : OumiGoChat.StreamAcc).finish := by
      unfold Follows reported
      rw [nothing]
      rfl
    refine .bind (follows_streamEvents reads start) fun acc r₂ follows => ?_
    refine .silent_bind (.lift _) trivial fun _ => ?_
    refine .silent_bind ((aside_watched chat).noteReasoning _) trivial fun _ => ?_
    refine .silent_bind (.lift _) trivial fun _ => .ite (fun _ => .pure follows) fun _ => ?_
    exact .silent_bind (.lift _) trivial fun _ => .pure follows

/-! ## The turn -/

theorem own_haltReason (verdict : Verdict) : haltReason verdict ∈ ownReasons := by
  unfold haltReason
  split <;> decide

/-- What is put for a reason that was not reported is "stop". -/
theorem Follows.explained {log : List Observation} {finish : PyVal}
    (follows : Follows chat log finish) : Explained chat log (finish.or (.str "stop")) := by
  right
  rw [follows]
  cases told : reported chat.outer.loads (heard log) with
  | none => rfl
  | some finish =>
    have member := List.mem_of_getLast? told
    obtain ⟨line, -, carries⟩ := List.mem_filterMap.mp member
    have truthy : finish.truthy = true := by
      unfold carried at carries
      split at carries
      · split at carries
        · split at carries
          · next holds =>
            cases carries
            exact holds
          · cases carries
        · cases carries
      · cases carries
    exact if_pos truthy

/-- The loop over the tools ends the turn for a reason of its own. -/
theorem own_runTools (calls : List PyVal) :
    Ensures ChatState.watch (chat.watched.runTools calls) r
      (fun reason _ => ∀ value, reason = some value → ∃ own ∈ ownReasons, value = .str own)
      fun _ => True := by
  induction calls generalizing r with
  | nil => exact .pure fun _ impossible => nomatch impossible
  | cons tc rest ih =>
    refine .bind .anything fun x r₁ _ => .bind .anything fun _ r₂ _ => ?_
    split
    · next verdict _ =>
      refine .pure fun value same => ?_
      cases same
      exact ⟨_, own_haltReason verdict, rfl⟩
    · refine .bind .anything fun late r₃ _ => .ite (fun _ => .pure fun value same => ?_) fun _ => ih
      cases same
      exact ⟨"timeout", by decide, rfl⟩

/-- The output guards end the turn for a reason of the loop's own, or let it go on. -/
theorem own_screenOutput (answer : PyVal) (hasToolCalls : Bool) :
    Ensures ChatState.watch (chat.watched.screenOutput answer hasToolCalls) r
      (fun reason r' => r' = r ∧ ∀ own, reason = some own → own ∈ ownReasons)
      fun _ => True := by
  have quiet := aside_watched chat
  refine .ite (fun _ => ?_) fun _ => .pure ⟨rfl, fun _ impossible => nomatch impossible⟩
  refine .get_bind fun s _ => .silent_bind (quiet.guard _ _ _ _) trivial fun x => ?_
  refine .silent_bind (quiet.recordFlags _ _) trivial fun _ => .ite (fun _ => ?_) fun _ => ?_
  · refine .silent_bind (quiet.halt _) trivial fun _ => .get_bind fun s _ => ?_
    refine .silent_bind (quiet.setLastContent _) trivial fun _ => .pure ⟨rfl, ?_⟩
    rintro _ ⟨⟩
    exact own_haltReason x.2.1
  · refine .silent_bind (quiet.notes _) trivial fun _ => ?_
    refine .silent_bind (quiet.releaseProse _) trivial fun _ => ?_
    refine .silent_bind (quiet.syncLast _ _) trivial fun _ => .pure ⟨rfl, ?_⟩
    exact fun _ impossible => nomatch impossible

/-- **The loop of `_run`** over streamed round-trips ends for an explained reason. -/
theorem explains_turns (left : Nat) :
    Ensures ChatState.watch (chat.watched.turns true left) r
      (fun reason r' => Explained chat r'.log reason) fun _ => True := by
  have timeout {log : List Observation} : Explained chat log (.str "timeout") :=
    Or.inl ⟨"timeout", by decide, rfl⟩
  induction left generalizing r with
  | zero => exact .pure (Or.inl ⟨"max_iterations", by decide, rfl⟩)
  | succ left ih =>
    refine .bind .anything fun late r₁ _ => .ite (fun _ => .pure timeout) fun _ => ?_
    refine .bind (R := fun completion r' => ∀ x, completion = some x →
      (x.1 = none → ∃ own ∈ ownReasons, x.2.1 = .str own) ∧
      (x.1 ≠ none → Follows chat r'.log x.2.1)) ?_ ?_
    · refine .tryCatch (F := fun _ => True) ?_ fun exn r' _ => ?_
      · refine .bind (R := fun x r' => (x.1 = none → ∃ own ∈ ownReasons, x.2.1 = .str own) ∧
          (x.1 ≠ none → Follows chat r'.log x.2.1)) ?_ fun x r' outcome => .pure ?_
        · refine .bind .anything fun verdict r₂ _ => .ite (fun _ => ?_) fun _ => ?_
          · refine .bind .anything fun _ r₃ _ => .pure ⟨fun _ => ?_, fun some => absurd rfl some⟩
            exact ⟨_, own_haltReason verdict, rfl⟩
          · refine .bind .anything fun _ _ _ => .bind .anything fun _ _ _ => ?_
            refine .bind follows_streamTurn fun x r' follows => .pure ⟨?_, fun _ => follows⟩
            exact fun impossible => nomatch impossible
        · rintro _ ⟨⟩
          exact outcome
      · exact .ite (fun _ => .pure fun _ impossible => nomatch impossible) fun _ => .throw trivial
    · rintro (_ | ⟨_ | assistant, finish, answer⟩) r₂ completed
      · exact .pure timeout
      · obtain ⟨own, member, same⟩ := (completed _ rfl).1 rfl
        have some : own ≠ "" := by
          rintro rfl
          exact absurd member (by decide)
        change finish = .str own at same
        rw [same]
        exact .pure (Or.inl ⟨own, member, if_pos (decide_eq_true some)⟩)
      · have follows : Follows chat r₂.log finish := (completed _ rfl).2 (by simp)
        have quiet := aside_watched chat
        refine .silent_bind (quiet.appendMessage _) trivial fun _ => ?_
        refine .silent_bind (quiet.notes _) trivial fun _ => ?_
        refine .bind (own_screenOutput _ _) ?_
        rintro halted _ ⟨rfl, own⟩
        cases halted with
        | some reason => exact .pure (Or.inl ⟨reason, own reason rfl, rfl⟩)
        | none =>
          refine .ite (fun _ => .pure follows.explained) fun _ => ?_
          refine .silent_bind (.lift _) trivial fun calls => ?_
          refine .bind (own_runTools calls) fun reason r₃ own => ?_
          cases reason with
          | some reason => exact .pure (Or.inl (own reason rfl))
          | none => exact ih

/-! ## One request -/

theorem explains_finishTurn (user : Entry) :
    Ensures ChatState.watch (chat.watched.finishTurn user true) r
      (fun _ r' => Explained chat r'.log r'.finish) fun _ => True := by
  refine .bind .anything fun _ r₁ _ => .bind (explains_turns _) fun reason r₂ explained => ?_
  refine .silent_bind ((aside_watched chat).markTimeout reason) trivial fun _ => ?_
  refine .bind (R := fun _ r' => r' = { r₂ with finish := reason })
    (watches_finishReason reason rfl) ?_
  rintro _ _ rfl
  exact .get_bind fun s _ => .silent (unlogged_remember _ _) (fun _ => explained) trivial

theorem explains_refuse (user : Entry) (verdict : Verdict) :
    Ensures ChatState.watch (chat.watched.refuse user verdict) r
      (fun _ r' => Explained chat r'.log r'.finish) fun _ => True := by
  refine .bind .anything fun _ r₁ _ => .bind .anything fun _ r₂ _ => ?_
  refine .bind (R := fun _ r' => r' = { r₂ with finish := .str (haltReason verdict) })
    (watches_finishReason _ rfl) ?_
  rintro _ _ rfl
  refine .get_bind fun s _ => .silent (unlogged_remember _ _) (fun _ => Or.inl ?_) trivial
  exact ⟨_, own_haltReason verdict, rfl⟩

theorem explains_run (user : Entry) :
    Ensures ChatState.watch (chat.watched.run user true) r
      (fun _ r' => Explained chat r'.log r'.finish) fun _ => True := by
  refine .bind .anything fun x r₁ _ => .bind .anything fun _ r₂ _ => ?_
  refine .ite (fun _ => explains_refuse user x.2.1) fun _ => .ite (fun _ => ?_) fun _ => ?_
  · exact .bind .anything fun _ r₃ _ => explains_finishTurn user
  · refine .bind .anything fun _ r₃ _ => .bind .anything fun _ r₄ _ => ?_
    exact .bind .anything fun _ r₅ _ => .bind .anything fun _ r₆ _ => explains_finishTurn _

/-- **A streamed request that returns** ends for a reason of the loop's own, or for the last
one that an event of its last stream carried, or with "stop" when none carried one. -/
theorem finish_reported (text : String) {s s' : ChatState (Watched V)}
    (returned : chat.watched.request (.str text) true s = .ok () s') :
    Explained chat s'.world.log s'.resp.finishReason :=
  (explains_run (chat.watched.begin text s).turn.own).returned (s := chat.watched.begin text s)
    rfl returned

/-! ## A broken stream -/

/-- A chat whose data plane streams these lines; `json.loads` knows two events. -/
def streamedChat (lines : List String) : OumiGoChat Unit where
  agent := ⟨"any-model", .empty, 2, Nat.zero_lt_two, [], none⟩
  system := none
  maxHistoryTurns := 3
  url := "http://manager/v1/chat/completions"
  headers := []
  turnTimeout := none
  stallTimeout := none
  outer := {
    post := fun _ => throw ⟨.exception, "ConnectError", ""⟩
    stream := fun _ => pure ⟨200, pure "", lines.map pure⟩
    monotonic := pure 0
    loads := fun text =>
      if text = "partial" then
        .ok (.dict [("choices", .list [.dict [("delta", .dict [("content", .str "The")])]])])
      else .ok (.dict [("error", .dict [("message", .str "worker lost")])])
    dumps := fun _ => pure "null"
    repr := PyVal.typeName
    resume := fun _ _ => pure () }

/-- Part of an answer, an error, and the end marker. -/
def brokenStream : List String := ["data: partial", "data: failed", "data: [DONE]"]

/-- Before the first request of a watched chat. -/
def unasked : ChatState (Watched Unit) :=
  ⟨⟨(), []⟩, [], none, [], {}, 0, ⟨0, [], ⟨.user, "", none⟩⟩, [], []⟩

/-- What its first request leaves. -/
def afterBroken : ChatState (Watched Unit) :=
  final ((streamedChat brokenStream).watched.request (.str "hi") true) unasked

theorem returned_broken :
    (streamedChat brokenStream).watched.request (.str "hi") true unasked = .ok () afterBroken := by
  rfl

theorem finish_reported_broken :
    Explained (streamedChat brokenStream) afterBroken.world.log afterBroken.resp.finishReason :=
  finish_reported "hi" returned_broken

/-- **A broken stream stops.**  No event carries a finish reason, one is an error, and the
request is over with "stop". -/
theorem broken_stream_stops :
    (streamedChat brokenStream).watched.request (.str "hi") true unasked = .ok () afterBroken ∧
    heard afterBroken.world.log = brokenStream ∧
    (∀ line ∈ brokenStream, carried (streamedChat brokenStream).outer.loads line = none) ∧
    afterBroken.resp.text = "The" ∧ afterBroken.resp.finishReason = .str "stop" := by
  refine ⟨returned_broken, by decide +kernel, ?_, by decide +kernel, rfl⟩
  intro line member
  simp only [brokenStream, List.mem_cons, List.not_mem_nil, or_false] at member
  rcases member with rfl | rfl | rfl
  · rfl
  · rfl
  · rfl

end Oumigo
