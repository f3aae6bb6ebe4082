import Oumigo.Agent.Session

/-!
# When screening is complete

Three questions about the events of a session, each answered at every event it is
about: whether released prose went through `FINAL_ANSWER`, whether the text of a tool
body went through `TOOL_RESULT`, and whether a rewrite takes effect.  What goes wrong is
the same in part: a chain's content of a type the point does not take is replaced by
the original.  The rest are two paths of their own: prose of a completion that calls
tools is screened at `ASSISTANT_TURN` only, and the text of an exception of a tool body
is never screened.
-/

namespace Oumigo

open Python Trace Effect

variable {W : Type} {chat : OumiGoChat W} {s : ChatState W} {profile : GuardProfile W}
  {guard : Guard W} {after before : List Event}

/-! ## Profiles that screen -/

theorem guarding_of_mem (present : chat.agent.profile = some profile)
    (member : guard ∈ profile.guards) : chat.guarding := by
  unfold OumiGoChat.guarding GuardProfile.isEmpty
  rw [present]
  have some : profile.guards.isEmpty = false := by
    cases guards : profile.guards with
    | nil =>
      rw [guards] at member
      cases member
    | cons _ _ => rfl
  dsimp only
  rw [some]
  rfl

/-- A guard at an output point makes the chat buffer its output. -/
theorem bufferOutput_of_applies (present : chat.agent.profile = some profile)
    (member : guard ∈ profile.guards) {point : InterceptPoint} (output : point ∈ outputPoints)
    (applies : guard.applies point) : chat.bufferOutput := by
  unfold OumiGoChat.bufferOutput
  rw [guarding_of_mem present member, present, Bool.true_and]
  refine List.any_eq_true.mpr ⟨point, ?_, List.contains_iff_mem.mpr output⟩
  exact GuardProfile.mem_activePoints.mpr ⟨guard, member, applies⟩

theorem guarding_of_bufferOutput (buffers : chat.bufferOutput) : chat.guarding := by
  unfold OumiGoChat.bufferOutput at buffers
  exact (Bool.and_eq_true_iff.mp buffers).1

/-! ## What a chain's content becomes -/

theorem adopted_eq_iff (point : InterceptPoint) (content original : PyVal) :
    (content ≠ original → adopted point content original = content) ↔
      accepts point content ∨ content = original := by
  unfold adopted
  constructor
  · intro effective
    by_cases same : content = original
    · exact Or.inr same
    · by_cases accepted : accepts point content
      · exact Or.inl accepted
      · rw [if_neg accepted] at effective
        exact (same (effective same).symm).elim
  · rintro (accepted | same) different
    · exact if_pos accepted
    · exact (different same).elim

theorem content_of_adopted {point : InterceptPoint} {content original : PyVal} {text : String}
    (strings : accepts point content = content.str?.isSome)
    (became : .str text = adopted point content original) (isStr : content.str?.isSome) :
    content = .str text := by
  unfold adopted at became
  rw [strings, if_pos isStr] at became
  exact became.symm

/-! ## Final answers -/

/-- Released prose is what the `FINAL_ANSWER` chain returned, without halting, right
before. -/
def answerScreened : Event → List Event → Bool
  | .released .prose text,
      .proceeded .finalAnswer value :: .screened .finalAnswer _ outcome :: _ =>
      value.str? = some text && !outcome.verdict.halts && outcome.content.str? = some text
  | .released .prose _, _ => false
  | _, _ => true

/-- Released prose is that of a completion without tool calls, and the chain's content
for it is a string. -/
def finalString : Event → List Event → Bool
  | .released .prose _, .proceeded _ _ :: .screened _ _ outcome :: .completed _ false :: _ =>
      outcome.content.str?.isSome
  | .released .prose _, _ => false
  | _, _ => true

/-- Prose that a buffering chat releases came through the output guards. -/
theorem answerScreened_iff (buffers : chat.bufferOutput) (event : Event) (before : List Event)
    (due : Due chat SendsOwn event before) (past : Justified (Due chat SendsOwn) before) :
    answerScreened event before ↔ finalString event before := by
  cases event with
  | released source text =>
    cases source with
    | prose =>
      obtain ⟨point, rest, output, rfl⟩ := due rfl buffers
      obtain ⟨answer, outcome, rest, rfl, passes, became⟩ :=
        past.1 (guarding_of_bufferOutput buffers)
      obtain ⟨hasToolCalls, rest, rfl, rfl⟩ := past.2.1.2 output
      cases hasToolCalls with
      | true => exact Iff.rfl
      | false =>
        have same : outcome.content.str?.isSome → outcome.content = .str text :=
          content_of_adopted rfl became
        constructor
        · intro screened
          have isStr : outcome.content.str? = some text := by
            simpa using (Bool.and_eq_true_iff.mp screened).2
          exact Option.isSome_iff_exists.mpr ⟨text, isStr⟩
        · intro isStr
          simp [answerScreened, passes, same isStr, PyVal.str?]
    | _ => exact Iff.rfl
  | _ => exact Iff.rfl

/-- A tool without arguments. -/
def tool (name : String) (body : EStateM Exn (List PyVal) PyVal) :
    Dict String (Tool (List PyVal)) :=
  ⟨[(name, ⟨fun _ => body, name, "", .dict []⟩)], List.nodup_singleton _⟩

/-- An entry of `tool_calls_made` holds no text of a tool body, or holds what the
`TOOL_RESULT` chain returned for it, without halting, right before.  What is fed back is
what the entry holds. -/
def resultScreened : Event → List Event → Bool
  | .recorded call, .proceeded .toolResult value ::
      .screened .toolResult output outcome :: .ran _ _ (.ok text) :: _ =>
      value.str? = some call.result && output.str? = some text && !outcome.verdict.halts &&
        outcome.content.str? = some call.result
  | .recorded _, before => !bodyPending before
  | .fedBack result, .recorded call :: _ => call.result = result
  | .fedBack _, _ => false
  | _, _ => true

/-- The tool body, if one ran, returned a value that could be serialised, and the chain's
content for it is a string. -/
def bodyReturned : Event → List Event → Bool
  | .recorded _, .proceeded .toolResult _ ::
      .screened .toolResult _ outcome :: .ran _ _ (.ok _) :: _ => outcome.content.str?.isSome
  | .recorded _, before => !bodyPending before
  | _, _ => true

/-- Without a text of a body there is nothing to screen, or to return. -/
theorem resultScreened_idle {call : ToolCallMade} (idle : bodyPending before = false) :
    resultScreened (.recorded call) before ∧ bodyReturned (.recorded call) before := by
  unfold resultScreened bodyReturned
  constructor
  · split
    · cases idle
    · rw [idle]
      rfl
    all_goals simp_all
  · split
    · cases idle
    · rw [idle]
      rfl
    all_goals simp_all

theorem resultScreened_iff (guarding : chat.guarding) (event : Event) (before : List Event)
    (due : Due chat SendsOwn event before) (past : Justified (Due chat SendsOwn) before) :
    resultScreened event before ↔ bodyReturned event before := by
  cases event with
  | recorded call =>
    rcases due with ⟨name, kwargs, exn, rest, rfl, -⟩ | ⟨rest, rfl⟩ | idle
    · exact Iff.rfl
    · obtain ⟨original, outcome, rest, rfl, passes, became⟩ := past.1 guarding
      obtain ⟨name, kwargs, output, rest, rfl, rfl⟩ := past.2.1.1 rfl
      have same : outcome.content.str?.isSome → outcome.content = .str call.result :=
        content_of_adopted rfl became
      constructor
      · intro screened
        have isStr : outcome.content.str? = some call.result := by
          simpa using (Bool.and_eq_true_iff.mp screened).2
        exact Option.isSome_iff_exists.mpr ⟨_, isStr⟩
      · intro isStr
        simp [resultScreened, passes, same isStr, PyVal.str?]
    · exact iff_of_true (resultScreened_idle idle).1 (resultScreened_idle idle).2
  | fedBack result =>
    obtain ⟨call, rest, rfl, same⟩ := due
    exact ⟨fun _ => rfl, fun _ => decide_eq_true same⟩
  | _ => exact Iff.rfl

/-- What goes on is the chain's content, where that differs from the original. -/
def RewriteHolds : Event → List Event → Prop
  | .proceeded _ value, .screened _ original outcome :: _ =>
      outcome.content ≠ original → value = outcome.content
  | _, _ => True

/-- The chain's content has the type the point takes, or is the original. -/
def RewriteFits : Event → List Event → Prop
  | .proceeded _ _, .screened point original outcome :: _ =>
      accepts point outcome.content ∨ outcome.content = original
  | _, _ => True

theorem rewriteHolds_iff (guarding : chat.guarding) (event : Event) (before : List Event)
    (due : Due chat SendsOwn event before) :
    RewriteHolds event before ↔ RewriteFits event before := by
  cases event with
  | proceeded point value =>
    obtain ⟨original, outcome, rest, rfl, passes, rfl⟩ := due guarding
    exact adopted_eq_iff point outcome.content original
  | _ => exact Iff.rfl

/-- What is used after a point is what went on from it. -/
def UsesProceeded (chat : OumiGoChat W) : Event → List Event → Prop
  | .sent turn messages, before => turn.own.proceeds ∈ before ∧
      ∃ rest, before = .proceeded .assembledPrompt (.list messages) :: rest
  | .ran _ kwargs _, before => ∃ rest, before = .proceeded .toolCall (.dict kwargs) :: rest
  | .recorded call, before => ∀ value rest, before = .proceeded .toolResult value :: rest →
      value = .str call.result
  | .fedBack result, before => ∃ call rest, before = .recorded call :: rest ∧ call.result = result
  | .released .prose text, before => chat.bufferOutput →
      ∃ point rest, point ∈ outputPoints ∧ before = .proceeded point (.str text) :: rest
  | _, _ => True

theorem uses_of_due (event : Event) (before : List Event) (due : Due chat SendsOwn event before) :
    UsesProceeded chat event before := by
  cases event with
  | sent turn messages => exact due
  | ran name kwargs outcome => exact due
  | recorded call =>
    rintro value rest rfl
    rcases due with ⟨name, kwargs, exn, rest', same, -⟩ | ⟨rest', same⟩ | idle
    · cases same
    · cases same
      rfl
    · cases idle
  | fedBack result => exact due
  | released source text =>
    cases source with
    | prose => exact due rfl
    | _ => trivial
  | _ => trivial

end Oumigo
