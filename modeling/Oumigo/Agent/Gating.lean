import Oumigo.Agent.Rounds
import Oumigo.Agent.Screening

/-!
# Tools run only behind the gate

One lemma per function of a request, callees first, over what is said and what happened
(`Talk`).  `Going` holds while no verdict has ended the turn, with the messages and the
status spelled out; `tool_gating` gives every event of every session its justification,
and every request that returns the reason why it went no further.
-/

namespace Oumigo

open Python Trace Effect

variable {W : Type} {chat : OumiGoChat W}

/-! ## Chains that keep to the type -/

theorem Preserves.refl (point : InterceptPoint) (content : PyVal) :
    Preserves point content content := by
  unfold Preserves
  split
  · rfl
  · exact content.sameType_refl

theorem Preserves.trans {point : InterceptPoint} {u v w : PyVal} (first : Preserves point u v)
    (second : Preserves point v w) : Preserves point u w := by
  unfold Preserves at *
  by_cases prompt : point = .assembledPrompt
  · rw [if_pos prompt] at *
    exact first.trans second
  · rw [if_neg prompt] at *
    exact PyVal.sameType_trans first second

theorem Preserves.accepts {point : InterceptPoint} {content original : PyVal}
    (kept : Preserves point content original) :
    Oumigo.accepts point content = Oumigo.accepts point original := by
  unfold Preserves at kept
  split at kept
  · rw [kept]
  · cases point <;> cases content <;> cases original <;> first | rfl | cases kept

/-- Of a chain that keeps to the type, what is adopted is decided by the original. -/
theorem Preserves.adopted {point : InterceptPoint} {content original : PyVal}
    (kept : Preserves point content original) : Oumigo.adopted point content original =
      if Oumigo.accepts point original then content else original := by
  unfold Oumigo.adopted
  rw [kept.accepts]

theorem consult_preserves {guard : Guard W} {point : InterceptPoint} {ctx : GuardContext}
    (tame : ∀ world verdict world', guard.intercept point ctx world = .ok verdict world' →
      verdict.isTransform → Preserves point verdict.content ctx.content) :
    Ensures (fun _ : W => ()) (GuardChain.consult guard point ctx) ()
      (fun verdict _ => verdict.isTransform → Preserves point verdict.content ctx.content)
      fun _ => True := by
  refine .tryCatch (F := fun _ => True) ?_ fun exn _ _ => ?_
  · intro world _
    cases outcome : guard.intercept point ctx world with
    | ok verdict world' => exact tame world verdict world' outcome
    | error exn world' => trivial
  · exact .ite (fun _ => .pure fun transforms => nomatch transforms) fun _ => .throw trivial

theorem evaluate_preserves {point : InterceptPoint} {ctx : GuardContext} {guards : List (Guard W)}
    (tame : ∀ guard ∈ guards, guard.applies point → ∀ ctx world verdict world',
      guard.intercept point ctx world = .ok verdict world' → verdict.isTransform →
      Preserves point verdict.content ctx.content) (content : PyVal) (flags : List Verdict) :
    Ensures (fun _ : W => ()) (GuardChain.evaluate point ctx guards content flags) ()
      (fun outcome _ => Preserves point outcome.content content) fun _ => True := by
  induction guards generalizing content flags with
  | nil => exact .pure (.refl point content)
  | cons guard rest ih =>
    have later := ih fun guard member => tame guard (List.mem_cons_of_mem _ member)
    refine .ite (fun _ => later content flags) fun applies => ?_
    have applies : guard.applies point := by simpa using applies
    refine .bind (consult_preserves (tame guard List.mem_cons_self applies _)) ?_
    intro verdict _ kept
    refine .ite (fun _ => later content flags) fun _ => ?_
    refine .ite (fun _ => later content _) fun _ => ?_
    refine .ite (fun transforms => ?_) fun _ => .pure (.refl point content)
    exact (later verdict.content flags).mono (fun _ _ same => same.trans (kept transforms))
      fun _ => id

/-! ## What is said, and what happened -/

structure Talk where
  messages : List PyVal
  turn : Turn
  trace : List Event

def ChatState.talk (s : ChatState W) : Talk := ⟨s.messages, s.turn, s.trace⟩

def Talk.push (r : Talk) (event : Event) : Talk := { r with trace := event :: r.trace }

/-- Every event so far is justified. -/
abbrev Sound (chat : OumiGoChat W) (r : Talk) : Prop := Justified (Gated chat) r.trace

variable {r r' : Talk}

section

variable {α β : Type} {E : Talk → Prop}

theorem unheard_outside (action : EStateM Exn W α) : Silent ChatState.talk (outside action) := by
  refine Silent.zoom ?_ action
  intro _ _
  rfl

theorem unheard_withResponse (change : OumiGoResponse → OumiGoResponse) :
    Silent ChatState.talk (withResponse change : ChatM W Unit) := .modify fun _ => rfl

theorem unheard_noteReasoning (text : PyVal) :
    Silent ChatState.talk (noteReasoning text : ChatM W Unit) :=
  .ite (.bind (.lift _) fun _ => unheard_withResponse _) (.pure _)

/-- What an action returns does not depend on what is said. -/
theorem hears_outside {action : EStateM Exn W α} {A : α → Prop}
    (sat : Ensures (fun _ => ()) action () (fun a _ => A a) fun _ => True) :
    Ensures ChatState.talk (outside action) r (fun a r' => A a ∧ r' = r) (· = r) := by
  refine .zoom ?_ sat (fun a holds => And.intro holds rfl) rfl
  intro _ _
  rfl

theorem hears_note {event : Event} {Q : Unit → Talk → Prop} (post : Q () (r.push event)) :
    Ensures ChatState.talk (note event : ChatM W Unit) r Q E :=
  .update (g := fun r => r.push event) (fun _ => rfl) post

theorem hears_note_bind {event : Event} {rest : Unit → ChatM W β} {Q : β → Talk → Prop}
    (next : Ensures ChatState.talk (rest ()) (r.push event) Q E) :
    Ensures ChatState.talk (note event >>= rest) r Q E :=
  .update_bind (g := fun r => r.push event) (fun _ => rfl) next

end

/-! ## The chain -/

/-- What `_guard` returned, and the talk then. -/
inductive Judged (chat : OumiGoChat W) (point : InterceptPoint) (content : PyVal) (r : Talk) :
    PyVal × Verdict × List Verdict → Talk → Prop
  | idle : chat.guarding = false → Judged chat point content r (content, .allow, []) r
  | screened (outcome : ChainOutcome) : Preserves point outcome.content content →
    Judged chat point content r (outcome.content, outcome.verdict, outcome.flags)
      (r.push (.screened point content outcome))

theorem judges_guard (tame : chat.Tame) (r : Talk) {point : InterceptPoint} {content : PyVal}
    {toolName : Option String} {messages : Option (List PyVal)} :
    Ensures ChatState.talk (chat.guard point content toolName messages) r
      (Judged chat point content r) (· = r) := by
  unfold OumiGoChat.guard
  split
  · next absent => exact .pure (.idle (by simp [OumiGoChat.guarding, absent]))
  · next profile present =>
    refine .ite (fun empty => ?_) fun _ => ?_
    · exact .pure (.idle (by simp [OumiGoChat.guarding, present, empty]))
    · refine .bind (hears_outside (evaluate_preserves (fun guard member applies ctx => ?_) _ _)) ?_
      · exact fun world verdict world' =>
          tame profile present guard member point ctx world verdict world' applies
      rintro outcome _ ⟨kept, rfl⟩
      exact hears_note_bind (.pure (.screened outcome kept))

/-! ## While the turn goes on -/

/-- The messages are `messages`, the events amount to `st`, and no tool call is under way. -/
structure Going (chat : OumiGoChat W) (turn : Turn) (messages : List PyVal) (st : Status)
    (r : Talk) : Prop where
  sound : Sound chat r
  turn : r.turn = turn
  messages : r.messages = messages
  status : status r.trace = st
  closed : callOpen r.trace = false

/-- A verdict has ended the turn. -/
structure TurnOver (chat : OumiGoChat W) (r : Talk) : Prop where
  sound : Sound chat r
  ended : (status r.trace).ended = true

variable {turn : Turn} {messages : List PyVal} {st : Status}

theorem Going.push (going : Going chat turn messages st r) (event : Event)
    (gated : Gated chat event r.trace) (closed : callOpen (event :: r.trace) = false) :
    Going chat turn messages (st.next r.trace event) (r.push event) := by
  have status : Oumigo.status (r.push event).trace = st.next r.trace event := by
    rw [← going.status]
    rfl
  exact ⟨.cons gated going.sound, going.turn, going.messages, status, closed⟩

theorem TurnOver.released (done : TurnOver chat r) (source : PieceSource) (text : String) :
    TurnOver chat (r.push (.released source text)) := by
  refine ⟨.cons trivial done.sound, ?_⟩
  cases source <;> exact done.ended

theorem endsTurn_of_passes {verdict : Verdict} (passes : ¬ verdict.halts) (point : InterceptPoint) :
    endsTurn point verdict = false := by
  unfold Verdict.halts halting at passes
  unfold endsTurn Verdict.blocks Verdict.stops Verdict.halts halting
  cases kind : verdict.decision <;> rw [kind] at passes <;> cases point <;> simp_all

namespace Judged

variable {point : InterceptPoint} {content : PyVal} {x : PyVal × Verdict × List Verdict}
  (judged : Judged chat point content r x r')

include judged

theorem sound (sound : Sound chat r) : Sound chat r' := by
  cases judged with
  | idle => exact sound
  | screened => exact .cons trivial sound

theorem same_messages : r'.messages = r.messages := by
  cases judged <;> rfl

theorem same_turn : r'.turn = r.turn := by
  cases judged <;> rfl

theorem status : status r'.trace =
    { status r.trace with ended := (status r.trace).ended || endsTurn point x.2.1 } := by
  cases judged with
  | idle =>
    have allowed : endsTurn point .allow = false := by cases point <;> rfl
    rw [allowed, Bool.or_false]
  | screened => rfl

theorem status_of_passes (passes : ¬ x.2.1.halts) : Oumigo.status r'.trace =
    Oumigo.status r.trace := by
  rw [judged.status, endsTurn_of_passes passes, Bool.or_false]

/-- What the chat adopts is what the chain let pass. -/
theorem passed (passes : ¬ x.2.1.halts) :
    Passed chat point content r.trace (adopted point x.1 content) r'.trace := by
  cases judged with
  | idle off =>
    rw [(Preserves.refl point content).adopted, ite_self]
    exact .idle off
  | screened outcome kept =>
    rw [kept.adopted]
    exact .screened outcome passes

/-- A chain outside a tool call that does not halt leaves the turn going. -/
theorem going (outer : endsTurn point = Verdict.halts) (passes : ¬ x.2.1.halts)
    (going : Going chat turn messages st r) : Going chat turn messages st r' := by
  have closed : callOpen r'.trace = false := by
    cases judged with
    | idle => exact going.closed
    | screened =>
      cases point with
      | toolCall => exact absurd (congrFun outer (.skip "")) (by decide)
      | toolResult => exact absurd (congrFun outer (.skip "")) (by decide)
      | _ => rfl
  exact ⟨judged.sound going.sound, judged.same_turn.trans going.turn,
    judged.same_messages.trans going.messages, (judged.status_of_passes passes).trans going.status,
    closed⟩

theorem turnOver (outer : endsTurn point = Verdict.halts) (halts : x.2.1.halts)
    (sound : Sound chat r) : TurnOver chat r' := by
  refine ⟨judged.sound sound, ?_⟩
  rw [judged.status, outer, halts, Bool.or_true]

end Judged

/-! ## Text for the caller -/

theorem hears_answer {source : PieceSource} {text : String} {Q : Unit → Talk → Prop}
    {E : Talk → Prop} (post : Q () (r.push (.released source text)))
    (raised : E (r.push (.released source text))) :
    Ensures ChatState.talk (chat.answer source text) r Q E := by
  refine .update_bind (g := id) (fun _ => rfl) ?_
  exact hears_note_bind (.silent (unheard_outside _) (fun _ => post) raised)

theorem ends_halt (done : TurnOver chat r) (verdict : Verdict) :
    Ensures ChatState.talk (chat.halt verdict) r (fun _ => TurnOver chat) (Sound chat) :=
  hears_answer (done.released _ _) (done.released _ _).sound

/-- Nothing happened since but that answer text was released. -/
inductive Said (r : Talk) : Talk → Prop
  | refl : Said r r
  | more {r' : Talk} {source : PieceSource} {text : String} : Said r r' → source ≠ .timeout →
    Said r (r'.push (.released source text))

theorem Said.trans (r₁ r₂ r₃ : Talk) (first : Said r₁ r₂) (second : Said r₂ r₃) :
    Said r₁ r₃ := by
  induction second with
  | refl => exact first
  | more _ live ih => exact .more ih live

theorem Going.said (going : Going chat turn messages st r) (said : Said r r') :
    Going chat turn messages st r' := by
  induction said with
  | refl => exact going
  | @more r' source text _ live ih =>
    have pushed := ih.push (.released source text) trivial rfl
    cases source with
    | timeout => exact (live rfl).elim
    | _ => exact pushed

section

variable {α β : Type}

theorem said_unheard {m : ChatM W α} (quiet : Silent ChatState.talk m) :
    Along ChatState.talk Said m := .silent (fun _ => .refl) quiet

theorem said_bind {m : ChatM W α} {f : α → ChatM W β} (first : Along ChatState.talk Said m)
    (rest : ∀ a, Along ChatState.talk Said (f a)) : Along ChatState.talk Said (m >>= f) :=
  .bind Said.trans first rest

theorem said_lift_bind {x : Except Exn α} {f : α → ChatM W β}
    (rest : ∀ a, Along ChatState.talk Said (f a)) :
    Along ChatState.talk Said (Effect.lift x >>= f) := said_bind (said_unheard (.lift _)) rest

theorem said_pure (a : α) : Along ChatState.talk Said (pure a : ChatM W α) :=
  said_unheard (.pure a)

/-- From a turn that goes on, to one that does. -/
theorem goes_along {m : ChatM W α} (going : Going chat turn messages st r)
    (moves : Along ChatState.talk Said m) :
    Ensures ChatState.talk m r (fun _ => Going chat turn messages st) (Sound chat) :=
  (Ensures.along moves).mono (fun _ _ said => going.said said) fun _ said => (going.said said).sound

end

theorem said_releaseProse (text : PyVal) : Along ChatState.talk Said (chat.releaseProse text) := by
  refine .ite (said_lift_bind fun piece => ?_) (said_pure _)
  refine said_bind (said_unheard (unheard_withResponse _)) fun _ => ?_
  refine said_bind (.modify fun s => ?_) fun _ => said_unheard (unheard_outside _)
  exact .more .refl (by decide)

theorem said_passThrough (text : PyVal) : Along ChatState.talk Said (chat.passThrough text) :=
  .ite (said_pure _) (said_releaseProse text)

theorem said_yieldReasoning (text : PyVal) :
    Along ChatState.talk Said (chat.yieldReasoning text) :=
  .ite (said_unheard (unheard_outside _)) (said_pure _)

/-! ## One round-trip -/

theorem said_streamEvent (event : PyVal) (acc : OumiGoChat.StreamAcc) :
    Along ChatState.talk Said (chat.streamEvent event acc) := by
  refine said_bind (said_unheard (unheard_withResponse _)) fun _ => ?_
  refine said_lift_bind fun _ => said_lift_bind fun _ => said_lift_bind fun _ => ?_
  refine said_lift_bind fun _ => said_bind (said_yieldReasoning _) fun _ => ?_
  refine said_lift_bind fun _ => said_bind (said_passThrough _) fun _ => ?_
  exact said_lift_bind fun _ => said_lift_bind fun _ => said_lift_bind fun _ => said_pure _

theorem said_streamEvents (lines : List (EStateM Exn W String)) (acc : OumiGoChat.StreamAcc) :
    Along ChatState.talk Said (chat.streamEvents lines acc) := by
  induction lines generalizing acc with
  | nil => exact said_pure _
  | cons line rest ih =>
    refine said_bind (said_unheard (unheard_outside _)) fun line => ?_
    refine said_lift_bind fun kind => ?_
    cases kind with
    | skipped => exact ih acc
    | done => exact said_pure _
    | event event => exact said_bind (said_streamEvent event acc) fun acc => ih acc

/-- The status once a body is sent. -/
def Status.sent (st : Status) : Status := { st with sends := st.sends + 1 }

/-- The turn may send its messages. -/
structure MaySend (chat : OumiGoChat W) (st : Status) (turn : Turn) (messages : List PyVal) :
    Prop where
  going : st.ended = false
  asking : AskedFor st turn
  wellFormed : WellFormed chat st turn messages

section

variable (going : Going chat turn messages st r) (may : MaySend chat st turn messages)

include going may

theorem goes_httpRequest (stream : Bool) :
    Ensures ChatState.talk (chat.httpRequest stream) r
      (fun _ => Going chat turn messages st.sent) (Sound chat) := by
  refine .get_bind fun s shows => ?_
  refine .silent_bind (silent_timeout (unheard_outside _)) going.sound fun _ => ?_
  refine .get_bind fun s' shows' => ?_
  have same : s.messages = messages := (congrArg Talk.messages shows).trans going.messages
  have own : s'.turn = turn := (congrArg Talk.turn shows').trans going.turn
  rw [same, own]
  obtain rfl := going.status
  have gated : Gated chat (.sent turn messages) r.trace :=
    ⟨may.going, may.asking, may.wellFormed⟩
  exact hears_note_bind (.pure (going.push _ gated rfl))

theorem goes_postJson : Ensures ChatState.talk chat.postJson r
    (fun _ => Going chat turn messages st.sent) (Sound chat) := by
  refine .bind (goes_httpRequest going may false) fun _ r₁ going => ?_
  refine .silent_bind (unheard_outside _) going.sound fun reply => ?_
  refine .silent_bind (.lift _) going.sound fun _ => ?_
  exact .silent (.lift _) (fun _ => going) going.sound

theorem goes_postStream : Ensures ChatState.talk chat.postStream r
    (fun _ => Going chat turn messages st.sent) (Sound chat) := by
  refine .bind (goes_httpRequest going may true) fun _ r₁ going => ?_
  refine .silent_bind (unheard_outside _) going.sound fun reply => ?_
  refine .ite (fun _ => .pure going) fun _ => ?_
  refine .silent_bind (unheard_outside _) going.sound fun _ => ?_
  exact .silent_bind (.lift _) going.sound fun _ => .pure going

theorem goes_streamTurn : Ensures ChatState.talk chat.streamTurn r
    (fun _ => Going chat turn messages st.sent) (Sound chat) := by
  refine .bind (goes_postStream going may) fun lines r₁ going => goes_along going ?_
  refine said_bind (said_streamEvents lines _) fun acc => ?_
  refine said_lift_bind fun _ => said_bind (said_unheard (unheard_noteReasoning _)) fun _ => ?_
  exact said_lift_bind fun _ => .ite (said_pure _) (said_lift_bind fun _ => said_pure _)

theorem goes_jsonTurn : Ensures ChatState.talk chat.jsonTurn r
    (fun _ => Going chat turn messages st.sent) (Sound chat) := by
  refine .bind (goes_postJson going may) fun data r₁ going => goes_along going ?_
  refine said_bind (said_unheard (unheard_withResponse _)) fun _ => ?_
  refine said_lift_bind fun _ => said_lift_bind fun _ => said_lift_bind fun _ => ?_
  refine said_bind (said_unheard (unheard_noteReasoning _)) fun _ => ?_
  refine said_bind (said_yieldReasoning _) fun _ => ?_
  refine said_lift_bind fun _ => said_lift_bind fun _ => said_bind (said_passThrough _) fun _ => ?_
  exact said_lift_bind fun _ => said_pure _

end

/-- A prompt that is not refused goes on as it was. -/
theorem goes_guardPrompt (tame : chat.Tame) (going : Going chat turn messages st r) :
    Ensures ChatState.talk chat.guardPrompt r (fun verdict r' =>
      if verdict.halts then TurnOver chat r' else Going chat turn messages st r') (Sound chat) := by
  refine .ite (fun _ => .pure going) fun _ => ?_
  refine .get_bind fun s shows => ?_
  have same : s.messages = messages := (congrArg Talk.messages shows).trans going.messages
  refine .bind ((judges_guard tame r).mono (fun _ _ => id) fun _ same => same ▸ going.sound) ?_
  intro x r₁ judged
  refine .silent_bind (unheard_withResponse _) (judged.sound going.sound) fun _ => ?_
  have kept : x.1 = .list s.messages := by
    cases judged with
    | idle => rfl
    | screened outcome kept => exact kept
  refine .update_bind (g := fun r => { r with messages := x.1.list?.getD s.messages })
    (fun _ => rfl) (.pure ?_)
  have talk : ({ r₁ with messages := x.1.list?.getD s.messages } : Talk) = r₁ := by
    rw [kept]
    change ({ r₁ with messages := s.messages } : Talk) = r₁
    rw [same, ← going.messages, ← judged.same_messages]
  rw [talk]
  split
  · next halts => exact judged.turnOver rfl halts going.sound
  · next passes => exact judged.going rfl passes going

theorem goes_roundTrip (going : Going chat turn messages st r)
    (may : MaySend chat st turn messages) (stream : Bool) :
    Ensures ChatState.talk (chat.roundTrip stream) r (fun _ => Going chat turn messages st.sent)
      (Sound chat) := by
  cases stream with
  | true => exact goes_streamTurn going may
  | false => exact goes_jsonTurn going may

theorem goes_completeTurn (tame : chat.Tame) (going : Going chat turn messages st r)
    (may : MaySend chat st turn messages) (stream : Bool) :
    Ensures ChatState.talk (chat.completeTurn stream) r (fun x r' =>
      if x.1.isNone then TurnOver chat r' else Going chat turn messages st.sent r')
      (Sound chat) := by
  refine .bind (goes_guardPrompt tame going) fun verdict r₁ screened => ?_
  refine .ite (fun halts => ?_) fun passes => ?_
  · rw [if_pos halts] at screened
    exact .bind (ends_halt screened verdict) fun _ _ done => .pure done
  · rw [if_neg passes] at screened
    refine .get_bind fun s _ => ?_
    refine hears_note_bind ?_
    have going := screened.push (.proceeded .assembledPrompt (.list s.messages)) trivial rfl
    exact .bind (goes_roundTrip going may stream) fun _ _ going => .pure going

/-! ## Model output -/

theorem goes_replaceLast (going : Going chat turn messages st r) (message : PyVal) :
    Ensures ChatState.talk (replaceLast message : ChatM W Unit) r
      (fun _ => Going chat turn (messages.dropLast ++ [message]) st) (Sound chat) := by
  refine .update (g := fun r => { r with messages := r.messages.dropLast ++ [message] })
    (fun _ => rfl) ⟨going.sound, going.turn, ?_, going.status, going.closed⟩
  rw [← going.messages]

/-- The content of the assistant message that was appended last. -/
theorem goes_setLastContent {assistant : AssistantMessage}
    (going : Going chat turn (messages ++ [assistant.toMessage]) st r) (content : PyVal) :
    Ensures ChatState.talk (setLastContent content : ChatM W Unit) r (fun _ =>
      Going chat turn (messages ++ [{ assistant with content := content }.toMessage]) st)
      (Sound chat) := by
  refine .get_bind fun s shows => ?_
  have same : s.messages = messages ++ [assistant.toMessage] :=
    (congrArg Talk.messages shows).trans going.messages
  rw [same, List.getLast?_concat]
  have replaced := goes_replaceLast going { assistant with content := content }.toMessage
  rw [List.dropLast_concat] at replaced
  exact replaced

theorem goes_syncLast {assistant : AssistantMessage}
    (going : Going chat turn (messages ++ [assistant.toMessage]) st r) (text : Option String)
    (answer : PyVal) :
    Ensures ChatState.talk (syncLast text answer : ChatM W Unit) r (fun _ r' => ∃ content,
      Going chat turn (messages ++ [{ assistant with content := content }.toMessage]) st r')
      (Sound chat) := by
  cases text with
  | none => exact .pure ⟨assistant.content, going⟩
  | some s =>
    refine .ite (fun _ => .pure ⟨assistant.content, going⟩) fun _ => ?_
    exact (goes_setLastContent going (.str s)).mono (fun _ _ going => ⟨_, going⟩) fun _ => id

theorem ends_setLastContent (done : TurnOver chat r) (content : PyVal) :
    Ensures ChatState.talk (setLastContent content : ChatM W Unit) r (fun _ => TurnOver chat)
      (Sound chat) := by
  refine .get_bind fun s _ => ?_
  split
  · exact .update (g := fun r => { r with messages := r.messages.dropLast ++ [_] })
      (fun _ => rfl) ⟨done.sound, done.ended⟩
  · exact .throw done.sound
  · exact .throw done.sound

theorem endsTurn_output (hasToolCalls : Bool) :
    endsTurn (if hasToolCalls then .assistantTurn else .finalAnswer) = Verdict.halts := by
  cases hasToolCalls <;> rfl

theorem Going.output (going : Going chat turn messages st r) (hasToolCalls : Bool)
    (accepted : PyVal) : Going chat turn messages st
      (r.push (.proceeded (if hasToolCalls then .assistantTurn else .finalAnswer) accepted)) := by
  cases hasToolCalls with
  | true => exact going.push (.proceeded .assistantTurn accepted) trivial rfl
  | false => exact going.push (.proceeded .finalAnswer accepted) trivial rfl

/-- The output guards end the turn, or leave the calls of the assistant message. -/
theorem goes_screenOutput (tame : chat.Tame) {assistant : AssistantMessage}
    (going : Going chat turn (messages ++ [assistant.toMessage]) st r) (answer : PyVal)
    (hasToolCalls : Bool) :
    Ensures ChatState.talk (chat.screenOutput answer hasToolCalls) r (fun reason r' =>
      if reason.isSome then TurnOver chat r' else ∃ content,
        Going chat turn (messages ++ [{ assistant with content := content }.toMessage]) st r')
      (Sound chat) := by
  refine .ite (fun _ => ?_) fun _ => .pure ⟨assistant.content, going⟩
  refine .get_bind fun s _ => ?_
  refine .bind ((judges_guard tame r).mono (fun _ _ => id) fun _ same => same ▸ going.sound) ?_
  intro x r₁ judged
  have outer := endsTurn_output hasToolCalls
  refine .silent_bind (unheard_withResponse _) (judged.sound going.sound) fun _ => ?_
  refine .ite (fun halts => ?_) fun passes => ?_
  · refine .bind (ends_halt (judged.turnOver outer halts going.sound) x.2.1) fun _ r₂ done => ?_
    refine .get_bind fun s _ => ?_
    exact .bind (ends_setLastContent done _) fun _ _ done => .pure done
  · refine hears_note_bind ?_
    have accepted := (judged.going outer passes going).output hasToolCalls
      ((x.1.str?.map .str).getD answer)
    refine .bind (goes_along accepted (said_releaseProse _)) fun _ r₂ going => ?_
    exact .bind (goes_syncLast going _ _) fun _ _ kept => .pure kept

/-! ## Tools -/

/-- A call began at `r` and is at `r'`; `ended` says whether its verdict ends the turn. -/
structure Calling (chat : OumiGoChat W) (r : Talk) (ended : Bool) (r' : Talk) : Prop where
  sound : Sound chat r'
  turn : r'.turn = r.turn
  messages : r'.messages = r.messages
  status : status r'.trace = { status r.trace with ended := ended }

namespace Calling

variable {ended : Bool}

theorem start (sound : Sound chat r) (going : (Oumigo.status r.trace).ended = false) :
    Calling chat r false r := by
  refine ⟨sound, rfl, rfl, ?_⟩
  rw [← going]

theorem push (calling : Calling chat r ended r') (event : Event)
    (gated : Gated chat event r'.trace)
    (same : ∀ st : Status, st.next r'.trace event = st) : Calling chat r ended (r'.push event) :=
  ⟨.cons gated calling.sound, calling.turn, calling.messages, (same _).trans calling.status⟩

theorem judged {r'' : Talk} {point : InterceptPoint} {content : PyVal}
    {x : PyVal × Verdict × List Verdict} (calling : Calling chat r false r')
    (judged : Judged chat point content r' x r'') :
    Calling chat r (endsTurn point x.2.1) r'' := by
  refine ⟨judged.sound calling.sound, judged.same_turn.trans calling.turn,
    judged.same_messages.trans calling.messages, ?_⟩
  rw [judged.status, calling.status]
  rfl

end Calling

/-- What the invocation gave, and the talk then: the function ran, or could not be called. -/
inductive Invocation (name : String) (args : PyVal) (r : Talk) : Except Exn String → Talk → Prop
  | ran {kwargs : List (String × PyVal)} (outcome : Except Exn String) : args = .dict kwargs →
    Invocation name args r outcome (r.push (.ran name kwargs outcome))
  | rejected (exn : Exn) : invocable args = false → Invocation name args r (.error exn) r

theorem calls_invoke (tool : Tool W) (name : String) (args : PyVal) :
    Ensures ChatState.talk (chat.invoke tool name args) r (Invocation name args r) (· = r) := by
  unfold OumiGoChat.invoke
  split
  · next kwargs =>
    refine .ite (fun self => .pure (.rejected _ ?_)) fun _ => ?_
    · change (!kwargs.any fun entry => decide (entry.1 = "self")) = false
      rw [self]
      rfl
    · refine .bind (R := fun _ r' => r' = r) ?_ ?_
      · refine .tryCatch (F := (· = r)) (.silent ?_ (fun _ => rfl) rfl) ?_
        · refine .bind (unheard_outside _) fun out => ?_
          cases out with
          | str text => exact .pure _
          | _ => exact .bind (unheard_outside _) fun _ => .pure _
        · rintro exn _ rfl
          exact .ite (fun _ => .pure rfl) fun _ => .throw rfl
      · rintro outcome _ rfl
        exact hears_note_bind (.pure (.ran outcome rfl))
  · next other noDict =>
    refine .pure (.rejected _ ?_)
    cases args with
    | dict kwargs => exact (noDict kwargs rfl).elim
    | _ => rfl

/-- The verdict that came with a result ends the turn. -/
def endedBy (halted : Option Verdict) : Bool :=
  (halted.filter fun verdict => verdict.blocks || verdict.stops).isSome

theorem endedBy_unlessSkip (verdict : Verdict) :
    endedBy (OumiGoChat.unlessSkip verdict) = (verdict.blocks || verdict.stops) := by
  unfold endedBy OumiGoChat.unlessSkip Verdict.skips Verdict.blocks Verdict.stops
  cases kind : verdict.decision <;> simp [kind]

theorem calls_invokeGuarded (tame : chat.Tame) (sound : Sound chat r)
    (going : (status r.trace).ended = false) (tool : Tool W) (name : String) (given : PyVal) :
    Ensures ChatState.talk (chat.invokeGuarded tool name given) r (fun x r' =>
      Calling chat r (endedBy x.2.2) r' ∧ Settled chat name given r.trace x.1 x.2.1 r'.trace)
      (Sound chat) := by
  have start : Calling chat r false r := .start sound going
  refine .bind ((judges_guard tame r).mono (fun _ _ => id) fun _ same => same ▸ sound) ?_
  intro x r₁ judged
  have screened := start.judged judged
  refine .silent_bind (unheard_withResponse _) screened.sound fun _ => ?_
  refine .ite (fun halts => .pure ?_) fun passes => ?_
  · rw [endedBy_unlessSkip]
    refine ⟨screened, ?_⟩
    cases judged with
    | idle => cases halts
    | screened outcome => exact .refused outcome halts
  have passed := judged.passed passes
  rw [adopted_call] at passed
  rw [endsTurn_of_passes passes] at screened
  refine hears_note_bind ?_
  have proceeds := screened.push (.proceeded .toolCall ((x.1.dict?.map .dict).getD given)) trivial
    fun _ => rfl
  refine .bind ((calls_invoke tool name _).mono (fun _ _ => id)
    fun _ same => same ▸ proceeds.sound) ?_
  intro outcome r₂ invoked
  cases invoked with
  | rejected exn rejects => exact .pure ⟨proceeds, .uncallable exn passed rejects⟩
  | @ran kwargs outcome callable =>
    rw [callable] at passed proceeds ⊢
    have gated : Gated chat (.ran name kwargs outcome)
        (r₁.push (.proceeded .toolCall (.dict kwargs))).trace :=
      ⟨congrArg Status.ended proceeds.status, given, r.trace, r₁.trace, rfl, passed⟩
    have ran := proceeds.push _ gated fun _ => rfl
    cases outcome with
    | error exn => exact .pure ⟨ran, .raised exn passed⟩
    | ok text =>
      refine .bind ((judges_guard tame _).mono (fun _ _ => id) fun _ same => same ▸ ran.sound) ?_
      intro y r₃ judged
      have screened := ran.judged judged
      refine .silent_bind (unheard_withResponse _) screened.sound fun _ => ?_
      refine .ite (fun halts => .pure ?_) fun passes => ?_
      · rw [endedBy_unlessSkip]
        refine ⟨screened, ?_⟩
        cases judged with
        | idle => cases halts
        | screened outcome => exact .withheld text outcome passed halts
      · have let_pass := judged.passed passes
        rw [adopted_result] at let_pass
        rw [endsTurn_of_passes passes] at screened
        refine hears_note_bind (.pure ⟨screened.push _ trivial fun _ => rfl, ?_⟩)
        exact .returned text _ passed let_pass

/-- `_execute_tool` has made its entry for the call `tc` that began at `r`. -/
structure Entered (chat : OumiGoChat W) (r : Talk) (tc : PyVal) (ended : Bool) (made : Made)
    (r' : Talk) : Prop where
  calling : Calling chat r ended ⟨r'.messages, r'.turn, made.before⟩
  handled : Handled chat tc made
  trace : r'.trace = .recorded made.call :: made.before

theorem requested_ok {tc fn name raw : PyVal} (function : tc.get "function" = .ok fn)
    (named : (fn.or (.dict [])).getD "name" (.str "") = .ok name)
    (arguments : (fn.or (.dict [])).get "arguments" = .ok raw) :
    requested tc = .ok (name, raw.or (.str "{}")) := by
  unfold requested
  simp only [bind, Except.bind, function, named, arguments]
  rfl

theorem enters_recordCall {tc : PyVal} {ended : Bool} {call : ToolCallMade}
    (calling : Calling chat r ended r') (handled : Handled chat tc ⟨call, r'.trace⟩) :
    Ensures ChatState.talk (OumiGoChat.recordCall call : ChatM W Unit) r'
      (fun _ => Entered chat r tc ended ⟨call, r'.trace⟩) (Sound chat) := by
  refine .update_bind (g := id) (fun _ => rfl) ?_
  exact hears_note ⟨calling, handled, rfl⟩

theorem enters_executeTool (tame : chat.Tame) (sound : Sound chat r)
    (going : (status r.trace).ended = false) (closed : callOpen r.trace = false) (tc : PyVal) :
    Ensures ChatState.talk (chat.executeTool tc) r (fun x r' => ∃ made,
      Entered chat r tc (endedBy x.2) made r' ∧ made.call.result = x.1) (Sound chat) := by
  have start : Calling chat r false r := .start sound going
  refine .lift_bind sound fun fn function => .lift_bind sound fun name named => ?_
  refine .lift_bind sound fun raw arguments => .lift_bind sound fun found known => ?_
  have asks := requested_ok function named arguments
  cases found with
  | none =>
    refine .bind (enters_recordCall start (.unknown asks known closed)) fun _ r₁ entered => ?_
    exact .pure ⟨_, entered, rfl⟩
  | some found =>
    dsimp only
    split
    · next exn unread =>
      refine .ite (fun _ => ?_) fun _ => .throw sound
      refine .bind (enters_recordCall start (.unparsed asks known unread closed)) ?_
      exact fun _ r₁ entered => .pure ⟨_, entered, rfl⟩
    · next given read =>
      refine .bind (calls_invokeGuarded tame sound going found.2 found.1 given) ?_
      rintro ⟨args, result, halted⟩ r₁ ⟨calling, settled⟩
      refine .bind (enters_recordCall calling (.parsed asks known read closed settled)) ?_
      exact fun _ r₂ entered => .pure ⟨_, entered, rfl⟩

/-- The status once these calls have their entries. -/
def Status.enter (st : Status) (made : List Made) : Status := { st with made := st.made ++ made }

theorem goes_feedBack (going : Going chat turn messages st r) {tc : PyVal} {ended : Bool}
    {made : Made} (entered : Entered chat r tc ended made r') :
    Ensures ChatState.talk (OumiGoChat.feedBack tc made.call.result : ChatM W Unit) r' (fun _ =>
      Going chat turn (messages ++ [toolMessage tc made])
        { st.enter [made] with ended := ended }) (Sound chat) := by
  have entry : Sound chat r' := by
    unfold Sound
    rw [entered.trace]
    exact .cons ⟨tc, entered.handled⟩ entered.calling.sound
  refine .lift_bind entry fun id identified => ?_
  have message : toolMessage tc made = .dict [("role", .str "tool"), ("tool_call_id", id),
      ("content", .str made.call.result)] := by
    unfold toolMessage callId
    rw [identified]
  refine .update_bind (g := fun r => { r with messages := r.messages ++ [toolMessage tc made] })
    (fun s => ?_) ?_
  · rw [message]
    rfl
  · refine hears_note ⟨.cons ⟨made.call, made.before, entered.trace, rfl⟩ entry,
      entered.calling.turn.trans going.turn, ?_, ?_, rfl⟩
    · change r'.messages ++ _ = messages ++ _
      rw [← going.messages, ← entered.calling.messages]
    · change status r'.trace = _
      rw [entered.trace]
      change (status made.before).next made.before (.recorded made.call) = _
      rw [entered.calling.status, going.status]
      rfl

theorem enter_enter (st : Status) (first second : List Made) :
    (st.enter first).enter second = st.enter (first ++ second) := by
  unfold Status.enter
  simp only [List.append_assoc]

/-- **Each call is handled once**, and answered with its result before the next one, until a
verdict ends the turn or the turn is late. -/
theorem goes_runTools (tame : chat.Tame) (calls : List PyVal)
    (going : Going chat turn messages st r) (on : st.ended = false) :
    Ensures ChatState.talk (chat.runTools calls) r (fun reason r' =>
      match reason with
      | some reason => Sound chat r' ∧
          ((status r'.trace).ended = true ∨ reason.str? = some "timeout")
      | none => ∃ made, List.Forall₂ (Handled chat) calls made ∧
          Going chat turn (messages ++ List.zipWith toolMessage calls made) (st.enter made) r')
      (Sound chat) := by
  induction calls generalizing messages st r with
  | nil =>
    refine .pure ⟨[], .nil, ?_⟩
    rw [List.zipWith_nil_left, List.append_nil]
    unfold Status.enter
    rw [List.append_nil]
    exact going
  | cons tc rest ih =>
    obtain rfl := going.status
    refine .bind (enters_executeTool tame going.sound on going.closed tc) ?_
    rintro ⟨result, halted⟩ r₁ ⟨made, entered, rfl⟩
    refine .bind (goes_feedBack going entered) fun _ r₂ fed => ?_
    split
    · next verdict ends =>
      have ended : endedBy halted = true := by
        unfold endedBy
        rw [ends]
        rfl
      refine .pure ⟨fed.sound, Or.inl ?_⟩
      rw [fed.status, ended]
    · next goes =>
      have ended : endedBy halted = false := by
        unfold endedBy
        rw [goes]
        rfl
      rw [ended] at fed
      refine .silent_bind (silent_expired (unheard_outside _)) fed.sound fun _ => ?_
      refine .ite (fun _ => .pure ⟨fed.sound, Or.inr rfl⟩) fun _ => ?_
      have same : { (status r.trace).enter [made] with ended := false } =
          (status r.trace).enter [made] := by
        rw [← on]
        rfl
      rw [same] at fed
      refine (ih fed on).mono (fun reason r' more => ?_) fun _ => id
      cases reason with
      | some reason => exact more
      | none =>
        obtain ⟨others, handled, going⟩ := more
        refine ⟨made :: others, .cons entered.handled handled, ?_⟩
        rw [enter_enter, List.append_assoc] at going
        exact going

/-! ## The loop -/

/-- The loop of `_run` ended with `reason`: the turn is over or late, the last completion calls
no tools, or all round-trips are used. -/
structure Stopped (chat : OumiGoChat W) (reason : PyVal) (r : Talk) : Prop where
  sound : Sound chat r
  why : (status r.trace).ended = true ∨ reason.str? = some "timeout" ∨
    (status r.trace).calling = some false ∨
    (status r.trace).sends = chat.agent.maxIterations ∧
      WellFormed chat (status r.trace) r.turn r.messages

theorem Going.append (going : Going chat turn messages st r) (message : PyVal) :
    Going chat turn (messages ++ [message]) st { r with messages := r.messages ++ [message] } :=
  ⟨going.sound, going.turn, congrArg (· ++ [message]) going.messages, going.status, going.closed⟩

/-- Another round, complete. -/
theorem WellFormed.round (formed : WellFormed chat st turn messages) (round : Round chat)
    (calling : Option Bool) : WellFormed chat
      (({ st.sent with calling := calling } : Status).enter round.made) turn
      (messages ++ round.messages) := by
  obtain ⟨rounds, rfl, sends, made⟩ := formed
  refine ⟨rounds ++ [round], ?_, ?_, ?_⟩
  · rw [List.flatMap_append, List.flatMap_singleton, List.append_assoc]
  · rw [List.length_append, sends]
    rfl
  · rw [List.flatMap_append, List.flatMap_singleton, made]
    rfl

theorem goes_turns (tame : chat.Tame) (stream : Bool) (left : Nat)
    (going : Going chat turn messages st r) (may : MaySend chat st turn messages)
    (spent : st.sends + left = chat.agent.maxIterations) :
    Ensures ChatState.talk (chat.turns stream left) r (Stopped chat) (Sound chat) := by
  induction left generalizing messages st r with
  | zero =>
    obtain rfl := going.status
    obtain rfl := going.turn
    obtain rfl := going.messages
    exact .pure ⟨going.sound, Or.inr (Or.inr (Or.inr ⟨spent, may.wellFormed⟩))⟩
  | succ left ih =>
    refine .silent_bind (silent_expired (unheard_outside _)) going.sound fun _ => ?_
    refine .ite (fun _ => .pure ⟨going.sound, Or.inr (Or.inl rfl)⟩) fun _ => ?_
    refine .bind (R := fun completion r' => Sound chat r' ∧ ∀ x, completion = some x →
        if x.1.isNone then TurnOver chat r' else Going chat turn messages st.sent r') ?_ ?_
    · refine .tryCatch (F := Sound chat) ?_ fun exn r' sound => ?_
      · refine .bind (goes_completeTurn tame going may stream) fun x r₁ completed => .pure ⟨?_, ?_⟩
        · split at completed
          · exact completed.sound
          · exact completed.sound
        · rintro _ ⟨⟩
          exact completed
      · exact .ite (fun _ => .pure ⟨sound, fun _ some => nomatch some⟩) fun _ => .throw sound
    · rintro (_ | ⟨_ | assistant, finish, answer⟩) r₁ ⟨sound, completed⟩
      · exact .pure ⟨sound, Or.inr (Or.inl rfl)⟩
      · exact .pure ⟨sound, Or.inl (completed _ rfl).ended⟩
      · have going := completed _ rfl
        refine .update_bind (g := fun r => { r with messages := r.messages ++ [_] })
          (fun _ => rfl) ?_
        refine hears_note_bind ?_
        have arrived := (going.append assistant.toMessage).push
          (.completed answer assistant.toolCallsOr.truthy) trivial rfl
        refine .bind (goes_screenOutput tame arrived _ _) fun halted r₂ screened => ?_
        cases halted with
        | some reason => exact .pure ⟨screened.sound, Or.inl screened.ended⟩
        | none =>
          obtain ⟨content, screened⟩ := screened
          refine .ite (fun none => .pure ⟨screened.sound, ?_⟩) fun _ => ?_
          · rw [screened.status]
            exact Or.inr (Or.inr (Or.inl (congrArg some (by simpa using none))))
          · refine .lift_bind screened.sound fun calls listed => ?_
            refine .bind (goes_runTools tame calls screened may.going) fun reason r₃ ran => ?_
            cases reason with
            | some reason =>
              exact .pure ⟨ran.1, ran.2.elim Or.inl fun late => Or.inr (Or.inl late)⟩
            | none =>
              obtain ⟨made, handled, going⟩ := ran
              let round : Round chat := ⟨{ assistant with content := content }, calls, made,
                listed, handled⟩
              rw [List.append_assoc] at going
              have formed := may.wellFormed.round round (some assistant.toolCallsOr.truthy)
              have asking := may.asking
              refine ih going ⟨may.going, ⟨asking.index, asking.carried, asking.role,
                asking.input⟩, formed⟩ ?_
              change st.sends + 1 + left = chat.agent.maxIterations
              rw [← spent, Nat.add_assoc, Nat.add_comm 1]

/-! ## One request -/

/-- The request is over, and its events tell why. -/
structure Closing (chat : OumiGoChat W) (r : Talk) : Prop where
  sound : Sound chat r
  why : (status r.trace).ended = true ∨ (status r.trace).late = true ∨
    (status r.trace).calling = some false ∨
    (status r.trace).sends = chat.agent.maxIterations ∧
      WellFormed chat (status r.trace) r.turn r.messages

theorem TurnOver.closing (done : TurnOver chat r) : Closing chat r :=
  ⟨done.sound, Or.inl done.ended⟩

theorem closes_remember {E : Talk → Prop} (closing : Closing chat r) (user : Entry)
    (answer : String) :
    Ensures ChatState.talk (chat.remember user answer) r (fun _ => Closing chat) E :=
  .ite (fun _ => .pure closing) fun _ => .update (g := id) (fun _ => rfl) closing

/-- The marker tells that the turn was late. -/
theorem closes_markTimeout {reason : PyVal} (stopped : Stopped chat reason r) :
    Ensures ChatState.talk (chat.markTimeout reason) r (fun _ => Closing chat) (Sound chat) := by
  refine .ite (fun _ => ?_) fun punctual => .pure ⟨stopped.sound, ?_⟩
  · have sound : Sound chat (r.push (.released .timeout timeoutText)) := .cons trivial stopped.sound
    exact hears_answer ⟨sound, Or.inr (Or.inl rfl)⟩ sound
  · rcases stopped.why with ended | late | calling | used
    · exact Or.inl ended
    · exact absurd late punctual
    · exact Or.inr (Or.inr (Or.inl calling))
    · exact Or.inr (Or.inr (Or.inr used))

theorem closes_finishTurn (tame : chat.Tame) (going : Going chat turn messages st r)
    (may : MaySend chat st turn messages) (fresh : st.sends = 0) (user : Entry) (stream : Bool) :
    Ensures ChatState.talk (chat.finishTurn user stream) r (fun _ => Closing chat)
      (Sound chat) := by
  have clock : Silent ChatState.talk chat.armDeadline :=
    silent_armDeadline (unheard_outside _) fun _ _ => rfl
  refine .silent_bind clock going.sound fun _ => ?_
  refine .bind (goes_turns tame stream _ going may (by rw [fresh, Nat.zero_add])) ?_
  refine fun reason r₁ stopped => .bind (closes_markTimeout stopped) fun _ r₂ closing => ?_
  refine .silent_bind (unheard_withResponse _) closing.sound fun _ => ?_
  exact .get_bind fun s _ => closes_remember closing user _

theorem closes_refuse (done : TurnOver chat r) (user : Entry) (verdict : Verdict) :
    Ensures ChatState.talk (chat.refuse user verdict) r (fun _ => Closing chat) (Sound chat) := by
  refine .update_bind (g := id) (fun _ => rfl) ?_
  refine .bind (ends_halt done verdict) fun _ r₁ done => ?_
  refine .silent_bind (unheard_withResponse _) done.sound fun _ => ?_
  exact .get_bind fun s _ => closes_remember done.closing user _

/-- The status of a request whose message `own` has gone on. -/
def Turn.opened (turn : Turn) (own : Entry) : Status :=
  { asked := turn, input := some (.str own.content) }

theorem maySend_first (chat : OumiGoChat W) (turn : Turn) {own : Entry} (role : own.role = .user) :
    MaySend chat (turn.opened own) { turn with own := own }
      (chat.buildMessages { turn with own := own }) :=
  ⟨rfl, ⟨rfl, rfl, role, rfl⟩, [], (List.append_nil _).symm, rfl, rfl⟩

theorem Going.opened (going : Going chat turn messages { asked := turn } r) {own : Entry}
    {rest : List Event}
    (passed : Passed chat .userInput (.str turn.own.content) (.asked turn :: rest)
      (.str own.content) r.trace) :
    Going chat turn messages (turn.opened own) (r.push own.proceeds) :=
  going.push own.proceeds ⟨turn, rest, passed⟩ rfl

theorem rewritten_role {user : Entry} (role : user.role = .user) (contents : PyVal) :
    (rewritten user contents).role = .user := by
  cases contents <;> first | rfl | exact role

theorem replaceLast_buildMessages (turn : Turn) (own : Entry) :
    (chat.buildMessages turn).dropLast ++ [own.toMessage] =
      chat.buildMessages { turn with own := own } := by
  unfold OumiGoChat.buildMessages
  rw [List.dropLast_concat]

theorem closes_run (tame : chat.Tame) (role : turn.own.role = .user)
    (going : Going chat turn (chat.buildMessages turn) { asked := turn } r) {rest : List Event}
    (asked : r.trace = .asked turn :: rest) (stream : Bool) :
    Ensures ChatState.talk (chat.run turn.own stream) r (fun _ => Closing chat) (Sound chat) := by
  refine .bind ((judges_guard tame r).mono (fun _ _ => id) fun _ same => same ▸ going.sound) ?_
  intro x r₁ judged
  refine .silent_bind (unheard_withResponse _) (judged.sound going.sound) fun _ => ?_
  refine .ite (fun halts => closes_refuse (judged.turnOver rfl halts going.sound) _ _) fun passes => ?_
  have passed := judged.passed passes
  rw [adopted_input, asked] at passed
  have going := judged.going rfl passes going
  refine .ite (fun same => ?_) fun _ => ?_
  · rw [same] at passed
    have opened := going.opened passed
    refine hears_note_bind ?_
    exact closes_finishTurn tame opened (maySend_first chat turn role) rfl _ stream
  · rw [← rewritten_content] at passed
    have opened := going.opened passed
    let own := rewritten turn.own x.1
    have owned : Going chat { turn with own := own } (chat.buildMessages turn) (turn.opened own)
        { r₁.push own.proceeds with turn := { r₁.turn with own := own } } :=
      ⟨opened.sound, by rw [going.turn], opened.messages, opened.status, rfl⟩
    refine .update_bind (g := id) (fun _ => rfl) ?_
    refine .update_bind (g := fun r => { r with turn := { r.turn with own := own } })
      (fun _ => rfl) ?_
    refine hears_note_bind (.bind (goes_replaceLast owned own.toMessage) fun _ r₂ going => ?_)
    rw [replaceLast_buildMessages] at going
    have may := maySend_first chat turn (rewritten_role role x.1)
    exact closes_finishTurn tame going may rfl own stream

/-- A request on a chat whose trace is justified. -/
theorem closes_begun (tame : chat.Tame) (text : String) (stream : Bool) {s : ChatState W}
    (gated : Justified (Gated chat) s.trace) :
    Ensures ChatState.talk (chat.run (chat.begin text s).turn.own stream)
      (chat.begin text s).talk (fun _ => Closing chat) (Sound chat) :=
  closes_run tame rfl ⟨.cons trivial gated, rfl, rfl, rfl, rfl⟩ rfl stream

theorem session_gated (tame : chat.Tame) {s : ChatState W}
    (reached : (session chat).Reachable s) : Justified (Gated chat) s.trace := by
  refine reached.invariant (I := fun s => Justified (Gated chat) s.trace)
    (fun s start => ?_) fun s ask s' gated _ run => ?_
  · obtain ⟨history, world, created⟩ := start
    obtain ⟨entries, -, rfl⟩ := create_ok created
    trivial
  · cases run
    cases ask.contents with
    | str text =>
      rw [final_request]
      have begun := closes_begun tame text ask.stream (s := { s with world := ask.world }) gated
      exact (begun.mono (fun _ _ closing => closing.sound) fun _ => id).final rfl
    | _ => exact gated

/-- **Tools run only behind the gate**, and conversations are well formed.  Every event of every
session of a chat whose guards are tame is gated, and a request that returns sends no further
body only because a verdict ended the turn, it was late, the model called no more tools, or
the round-trips were used. -/
theorem tool_gating (tame : chat.Tame) {s : ChatState W} (reached : (session chat).Reachable s) :
    Justified (Gated chat) s.trace ∧ ∀ text stream t,
      chat.request (.str text) stream s = .ok () t → WentNoFurther chat t := by
  have gated := session_gated tame reached
  refine ⟨gated, fun text stream t returned => ?_⟩
  exact ((closes_begun tame text stream gated).returned (s := chat.begin text s) rfl returned).why

/-- The tool chain let a call pass. -/
def letsPass : Event → Bool
  | .screened .toolCall _ outcome => !outcome.verdict.halts
  | _ => false

/-- A tool body ran. -/
def runs : Event → Bool
  | .ran .. => true
  | _ => false

/-- Redacts a text. -/
def redact : PyVal → Verdict
  | .str _ => .transform (.str "REDACTED")
  | _ => .allow

theorem redact_preserves {content : PyVal} (transforms : (redact content).isTransform) :
    Preserves .toolResult (redact content).content content := by
  cases content with
  | str text => rfl
  | _ => cases transforms

/-- A chat whose guard redacts the results of its tool. -/
def redactedChat : OumiGoChat (List PyVal) :=
  scriptedChat (guardAt .toolResult redact) (tool "ping" (pure (.str "token=abc"))) 3

theorem redactedChat_tame : redactedChat.Tame := by
  rintro profile ⟨⟩ guard member point ctx world verdict world' applies given transforms
  obtain rfl := List.mem_singleton.mp member
  have result : point = .toolResult := by
    change List.contains [InterceptPoint.toolResult] point = true at applies
    simpa using applies
  subst result
  cases given
  exact redact_preserves transforms

/-- A tool runs, its result is redacted, and the model answers. -/
theorem tool_gating_redacted :
    redactedChat.Tame ∧
    ∃ s, (session redactedChat).run newChat
        [askWith "hi" [callReply .none "ping", proseReply "ok"]] = some s ∧
      s.trace.any runs = true ∧ Justified (Gated redactedChat) s.trace ∧ ∀ text stream t,
        redactedChat.request (.str text) stream s = .ok () t → WentNoFurther redactedChat t := by
  refine And.intro redactedChat_tame ⟨_, rfl, by decide +kernel, ?_⟩
  exact tool_gating redactedChat_tame (.step (.init init_newChat) trivial rfl)

/-- A chat with a guard that allows everything; the arguments of every call parse to a list. -/
def listChat : OumiGoChat (List PyVal) :=
  { scriptedChat (guardAt .toolCall fun _ => .allow) (tool "ping" (pure (.str "pong"))) 3 with
    outer := { scripted with loads := fun _ => .ok (.list [.int 1]) } }

/-- The chain lets a call with the arguments `[1]` pass, and the function does not run. -/
theorem list_arguments_not_run :
    listChat.Tame ∧
    ∃ s, (session listChat).run newChat
        [askWith "hi" [callReply .none "ping", proseReply "ok"]] = some s ∧
      s.trace.any letsPass = true ∧ s.trace.any runs = false := by
  refine And.intro ?_ ⟨_, rfl, by decide +kernel, by decide +kernel⟩
  rintro profile ⟨⟩ guard member point ctx world verdict world' - given transforms
  obtain rfl := List.mem_singleton.mp member
  cases given
  cases transforms

end Oumigo
