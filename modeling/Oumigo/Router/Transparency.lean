import Oumigo.Router.Body

/-!
# What forwarding leaves of a body

`Transparent` says how the payload a worker gets may differ from the client's: in the model,
in the token limits and in the audio parts.  The lemmas take `cap_audio` and
`clamp_output_tokens` apart first, and say when each of them reports a change.
-/

namespace Oumigo

open Python Shaping

/-! ## Audio parts removed -/

/-- Some audio parts are gone, and nothing else. -/
structure PrunedParts (parts parts' : List Json) : Prop where
  sublist : parts'.Sublist parts
  others : (parts'.filter fun part => !isAudioPart part) =
    parts.filter fun part => !isAudioPart part

/-- A message whose content lost audio parts, if anything. -/
inductive PrunedMessage : Json → Json → Prop
  | same (message : Json) : PrunedMessage message message
  | pruned {fields : Fields} {parts parts' : List Json} :
    Fields.get? fields "content" = some (.arr parts) → PrunedParts parts parts' →
    PrunedMessage (.obj fields) (.obj (Fields.set fields "content" (.arr parts')))

/-- A text part. -/
def textPart (text : String) : Json := .obj [("type", .str "text"), ("text", .str text)]

/-- The messages lost audio parts only, and one of them may begin with a new text part. -/
def OnlyAudioRemoved (messages messages' : Option Json) : Prop :=
  messages' = messages ∨
  ∃ before pruned, messages = some (.arr before) ∧ List.Forall₂ PrunedMessage before pruned ∧
    (messages' = some (.arr pruned) ∨
      ∃ i text, messages' = some (.arr (pruned.modify i (prependPart (textPart text)))))

/-- How many audio parts a message has. -/
def audioParts : Json → Nat
  | .obj fields =>
      match Fields.get? fields "content" with
      | some (.arr parts) => parts.countP isAudioPart
      | _ => 0
  | _ => 0

variable {limitS : Option Rat} {count : AudioCount} {parts parts' : List Json}
  {message : Json} {messages : List Json}

theorem PrunedParts.cons {part : Json} (pruned : PrunedParts parts parts') :
    PrunedParts (part :: parts) (part :: parts') := by
  refine ⟨pruned.sublist.cons_cons part, ?_⟩
  rw [List.filter_cons, List.filter_cons, pruned.others]

theorem PrunedParts.drop {part : Json} (audio : isAudioPart part = true)
    (pruned : PrunedParts parts parts') : PrunedParts (part :: parts) parts' := by
  refine ⟨pruned.sublist.cons part, ?_⟩
  rw [List.filter_cons, if_neg (by simp [audio]), pruned.others]

/-- What the loop over the parts does: it drops audio parts, and counts them. -/
structure CappedParts (count : AudioCount) (parts : List Json) (count' : AudioCount)
    (kept : List Json) (lost : Nat) : Prop where
  pruned : PrunedParts parts kept
  dropped : count'.dropped = count.dropped + lost
  audio : kept.countP isAudioPart + lost = parts.countP isAudioPart
  same : lost = 0 → kept = parts

theorem capParts_spec {count' : AudioCount} {kept : List Json} {lost : Nat}
    (run : capParts limitS count parts = (count', kept, lost)) :
    CappedParts count parts count' kept lost := by
  induction parts generalizing count count' kept lost with
  | nil =>
    cases run
    exact ⟨⟨.refl _, rfl⟩, rfl, rfl, fun _ => rfl⟩
  | cons part rest ih =>
    unfold capParts at run
    by_cases audio : isAudioPart part = true
    · rw [if_pos audio] at run
      by_cases exceeds : count.exceeds limitS (spanOf part) = true
      · rcases tail : capParts limitS { count with
          items := count.items + 1
          seconds := count.seconds + spanOf part
          budgetSpent := true
          dropped := count.dropped + 1 } rest with ⟨c, k, l⟩
        simp only [exceeds, if_true, tail] at run
        cases run
        have later := ih tail
        refine ⟨later.pruned.drop audio, ?_, ?_, fun none => ?_⟩
        · rw [later.dropped, Nat.add_right_comm, Nat.add_assoc]
        · rw [List.countP_cons_of_pos audio, ← later.audio, Nat.add_assoc]
        · exact absurd none (Nat.succ_ne_zero _)
      · rcases tail : capParts limitS { count with
          items := count.items + 1
          seconds := count.seconds + spanOf part
          keptS := count.keptS + spanOf part } rest with ⟨c, k, l⟩
        simp only [exceeds, tail] at run
        cases run
        have later := ih tail
        refine ⟨later.pruned.cons, later.dropped, ?_, fun none => ?_⟩
        · rw [List.countP_cons_of_pos audio, List.countP_cons_of_pos audio, ← later.audio,
            Nat.add_right_comm]
        · rw [later.same none]
    · rcases tail : capParts limitS count rest with ⟨c, k, l⟩
      rw [if_neg audio] at run
      simp only [tail] at run
      cases run
      have later := ih tail
      refine ⟨later.pruned.cons, later.dropped, ?_, fun none => ?_⟩
      · rw [List.countP_cons_of_neg audio, List.countP_cons_of_neg audio]
        exact later.audio
      · rw [later.same none]

/-- What `cap_audio` does to a message. -/
structure CappedMessage (count : AudioCount) (message : Json) (count' : AudioCount)
    (message' : Json) (lost : Bool) : Prop where
  pruned : PrunedMessage message message'
  dropped : count'.dropped + audioParts message' = count.dropped + audioParts message
  lost_iff : lost = true ↔ count.dropped < count'.dropped
  le : count.dropped ≤ count'.dropped
  same : lost = false → message' = message

theorem CappedMessage.refl (count count' : AudioCount) (message : Json)
    (same : count'.dropped = count.dropped) :
    CappedMessage count message count' message false := by
  refine ⟨.same message, by rw [same], ?_, by rw [same], fun _ => rfl⟩
  simp [same]

theorem capMessage_spec {count' : AudioCount} {message' : Json} {lost : Bool}
    (run : capMessage limitS count message = (count', message', lost)) :
    CappedMessage count message count' message' lost := by
  unfold capMessage at run
  split at run
  · next fields =>
    split at run
    · next parts content =>
      rcases tail : capParts limitS count parts with ⟨c, kept, l⟩
      have spec := capParts_spec tail
      simp only [tail] at run
      split at run
      · next none =>
        cases run
        exact .refl _ _ _ (by rw [spec.dropped, none, Nat.add_zero])
      · next some_ =>
        cases run
        have before : audioParts (.obj fields) = parts.countP isAudioPart := by
          simp [audioParts, content]
        have after : audioParts (.obj (Fields.set fields "content" (.arr kept))) =
            kept.countP isAudioPart := by
          simp [audioParts, Fields.get?_set]
        have dropped := spec.dropped
        have audio := spec.audio
        refine ⟨.pruned content spec.pruned, ?_, ?_, ?_, fun lost => by cases lost⟩
        · rw [after, before]
          omega
        · simp only [true_iff]
          omega
        · omega
    · cases run
      exact .refl _ _ _ rfl
  · cases run
    exact .refl _ _ _ rfl

/-- What `cap_audio` does to all messages. -/
structure CappedMessages (count : AudioCount) (messages : List Json) (count' : AudioCount)
    (messages' : List Json) (target : Option Nat) : Prop where
  pruned : List.Forall₂ PrunedMessage messages messages'
  dropped : count'.dropped + (messages'.map audioParts).sum =
    count.dropped + (messages.map audioParts).sum
  target_iff : target.isSome = true ↔ count.dropped < count'.dropped
  le : count.dropped ≤ count'.dropped
  same : target = none → messages' = messages

theorem capMessages_spec {count' : AudioCount} {messages' : List Json} {target : Option Nat}
    (run : capMessages limitS count messages = (count', messages', target)) :
    CappedMessages count messages count' messages' target := by
  induction messages generalizing count count' messages' target with
  | nil =>
    cases run
    exact ⟨.nil, rfl, by simp, le_refl _, fun _ => rfl⟩
  | cons message rest ih =>
    unfold capMessages at run
    rcases head : capMessage limitS count message with ⟨c, message', lost⟩
    rcases tail : capMessages limitS c rest with ⟨c', rest', target'⟩
    simp only [head, tail] at run
    cases run
    have first := capMessage_spec head
    have later := ih tail
    refine ⟨.cons first.pruned later.pruned, ?_, ?_, first.le.trans later.le, ?_⟩
    · have dropped := first.dropped
      have dropped' := later.dropped
      simp only [List.map_cons, List.sum_cons]
      omega
    · have le := first.le
      have le' := later.le
      cases lost with
      | true =>
        have here := first.lost_iff.mp rfl
        simp only [if_true, Option.isSome_some, true_iff]
        omega
      | false =>
        have here : ¬ count.dropped < c.dropped := fun more => by
          cases first.lost_iff.mpr more
        have same : c.dropped = count.dropped := by omega
        simp only [Bool.false_eq_true, if_false, Option.isSome_map]
        rw [← same]
        exact later.target_iff
    · intro none
      cases lost with
      | true => cases none
      | false =>
        have nowhere : target' = Option.none := by simpa using none
        rw [first.same rfl, later.same nowhere]

/-- A new text part is no audio part. -/
theorem audioParts_prependPart (text : String) (message : Json) :
    audioParts (prependPart (textPart text) message) = audioParts message := by
  have plain : isAudioPart (textPart text) = false := rfl
  unfold prependPart
  split
  · next fields =>
    split
    · next parts content =>
      simp [audioParts, Fields.get?_set, content, plain]
    · rfl
  · rfl

theorem audioParts_modify (text : String) (i : Nat) (messages : List Json) :
    (messages.modify i (prependPart (textPart text))).map audioParts =
      messages.map audioParts := by
  induction messages generalizing i with
  | nil => simp
  | cons message rest ih =>
    cases i with
    | zero => simp [audioParts_prependPart]
    | succ i => simp [ih]

theorem note_eq (keptS : Rat) (dropped total : Nat) (limit : Rat) :
    ∃ text, Shaping.note keptS dropped total limit = textPart text :=
  ⟨_, rfl⟩

/-- **The audio cap**: it removes audio parts only, and reports it exactly when it does. -/
structure CappedAudio (payload payload' : Fields) (trimmed : Bool) : Prop where
  others : ∀ key, key ≠ "messages" → Fields.get? payload' key = Fields.get? payload key
  messages : OnlyAudioRemoved (Fields.get? payload "messages") (Fields.get? payload' "messages")
  same : trimmed = false → payload' = payload
  changed : trimmed = true →
    Fields.get? payload' "messages" ≠ Fields.get? payload "messages"

theorem CappedAudio.refl (payload : Fields) : CappedAudio payload payload false :=
  ⟨fun _ _ => rfl, Or.inl rfl, fun _ => rfl, fun trimmed => by cases trimmed⟩

theorem capAudio_spec (payload : Fields) (limitS : Option Rat) :
    CappedAudio payload (capAudio payload limitS).2 (capAudio payload limitS).1.trimmed := by
  unfold capAudio
  split
  · next messages found =>
    rcases run : capMessages limitS {} messages with ⟨count, messages', target⟩
    have spec := capMessages_spec run
    simp only
    cases target with
    | none =>
      have nothing : ¬ 0 < count.dropped := fun more => by
        cases spec.target_iff.mpr more
      have trimmed : AudioShaping.trimmed
          ⟨count.seconds, count.keptS, count.items, count.dropped, limitS⟩ = false := by
        simpa [AudioShaping.trimmed] using nothing
      simp only [trimmed]
      exact .refl payload
    | some i =>
      obtain ⟨text, eq⟩ := note_eq count.keptS count.dropped count.items (limitS.getD 0)
      have dropped : 0 < count.dropped := spec.target_iff.mp rfl
      refine ⟨fun key other => Fields.get?_set_of_ne other, Or.inr ?_, fun trimmed => ?_, fun _ => ?_⟩
      · exact ⟨messages, messages', found, spec.pruned, Or.inr ⟨i, text, by
          rw [Fields.get?_set_self, eq]⟩⟩
      · have positive : AudioShaping.trimmed
            ⟨count.seconds, count.keptS, count.items, count.dropped, limitS⟩ = true := by
          simpa [AudioShaping.trimmed] using dropped
        rw [positive] at trimmed
        cases trimmed
      · rw [Fields.get?_set_self, found]
        intro same
        have lists : messages'.modify i (prependPart (textPart text)) = messages := by
          rw [eq] at same
          exact Json.arr.inj (Option.some.inj same)
        -- fewer audio parts are left
        have total := spec.dropped
        rw [← audioParts_modify text i messages', lists] at total
        have zero : ({} : AudioCount).dropped = 0 := rfl
        omega
  · exact .refl payload

/-- Without a cap every part stays. -/
theorem capParts_off {count' : AudioCount} {kept : List Json} {lost : Nat}
    (run : capParts none count parts = (count', kept, lost)) : lost = 0 := by
  induction parts generalizing count count' kept lost with
  | nil => cases run; rfl
  | cons part rest ih =>
    unfold capParts at run
    simp only [AudioCount.exceeds, Bool.false_eq_true, if_false] at run
    split at run <;> cases run <;> exact ih rfl

theorem capMessage_off : (capMessage none count message).2.2 = false := by
  unfold capMessage
  split
  · split
    · next parts content =>
      rcases run : capParts none count parts with ⟨c, kept, lost⟩
      simp only [capParts_off run, if_true]
    · rfl
  · rfl

theorem capMessages_off : (capMessages none count messages).2.2 = none := by
  induction messages generalizing count with
  | nil => rfl
  | cons message rest ih =>
    have head : (capMessage none count message).2.2 = false := capMessage_off
    have tail := @ih (capMessage none count message).1
    simp [capMessages, head, tail]

theorem capAudio_off (payload : Fields) : (capAudio payload none).2 = payload := by
  unfold capAudio
  split
  · next messages found =>
    have nowhere : (capMessages none {} messages).2.2 = none := capMessages_off
    simp only [nowhere]
  · rfl

/-! ## Token limits -/

/-- A number that is at most the ceiling, and at most the positive number asked for. -/
def BoundedTokens (ceiling : Nat) (asked forwarded : Option Json) : Prop :=
  ∃ n, forwarded.bind Json.number = some n ∧ n ≤ ceiling ∧
    ∀ a, asked.bind Json.number = some a → 0 < a → n ≤ a

/-- No positive number below the ceiling is written as a float. -/
def NoSmallFloat (ceiling : Nat) (asked : Option Json) : Prop :=
  ∀ q, asked = some (.float (.num q)) → 0 < q → (ceiling : Rat) ≤ q

theorem cappedTokens_le (ceiling : Nat) (asked : Option Json) :
    cappedTokens ceiling asked ≤ ceiling := by
  unfold cappedTokens
  split
  · split
    · exact min_le_right _ _
    · exact le_refl _
  · exact le_refl _

/-- **The bound**: it holds but for a small float, which is raised to the ceiling. -/
theorem boundedTokens_iff {ceiling : Nat} {asked forwarded : Option Json}
    (number : forwarded.bind Json.number = some (cappedTokens ceiling asked : Rat)) :
    BoundedTokens ceiling asked forwarded ↔ NoSmallFloat ceiling asked := by
  have le : ((cappedTokens ceiling asked : Int) : Rat) ≤ ceiling := by
    exact_mod_cast cappedTokens_le ceiling asked
  constructor
  · intro ⟨n, value, _, below⟩ q float positive
    rw [number] at value
    cases value
    have asked_q := below q (by rw [float]; rfl) positive
    rw [float] at asked_q
    exact asked_q
  · intro small
    refine ⟨_, number, le, fun a value positive => ?_⟩
    cases asked with
    | none => cases value
    | some v =>
      have whole : ∀ n : Int, v.asInt = some n →
          ((cappedTokens ceiling (some v) : Int) : Rat) ≤ a := by
        intro n int
        have same : (n : Rat) = a := by
          have read := Json.number_of_asInt int
          exact Option.some.inj (read.symm.trans value)
        have positive' : 0 < n := by
          rw [← same] at positive
          exact_mod_cast positive
        have capped : cappedTokens ceiling (some v) = min n ceiling := by
          simp [cappedTokens, int, positive']
        rw [capped, ← same]
        exact_mod_cast min_le_left n (ceiling : Int)
      cases v with
      | bool b => exact whole _ rfl
      | int n => exact whole _ rfl
      | float x =>
        cases x with
        | num q =>
          cases value
          exact le.trans (small _ rfl positive)
        | nan => cases value
        | inf negative => cases value
      | null => cases value
      | str text => cases value
      | arr items => cases value
      | obj fields => cases value

/-- The clamp at a field: it sets the bound, and reports it exactly when it does. -/
structure ClampedField (ceiling : Nat) (field : String) (payload payload' : Fields)
    (changed : Bool) : Prop where
  others : ∀ key, key ≠ field → Fields.get? payload' key = Fields.get? payload key
  number : (Fields.get? payload' field).bind Json.number =
    some (cappedTokens ceiling (Fields.get? payload field) : Rat)
  same : changed = false → payload' = payload
  changed : changed = true → Fields.get? payload' field ≠ Fields.get? payload field

theorem clampField_spec (ceiling : Nat) (field : String) (payload : Fields) :
    ClampedField ceiling field payload (clampField ceiling field payload).1
      (clampField ceiling field payload).2 := by
  unfold clampField
  simp only
  split
  · next equal =>
    refine ⟨fun _ _ => rfl, ?_, fun _ => rfl, fun changed => by cases changed⟩
    cases asked : Fields.get? payload field with
    | none => simp [asked] at equal
    | some v =>
      have same : v.eqInt (cappedTokens ceiling (some v)) = true := by
        simpa [asked] using equal
      exact Json.number_of_eqInt same
  · next different =>
    refine ⟨fun key other => Fields.get?_set_of_ne other, ?_, fun same => (by cases same), ?_⟩
    · rw [Fields.get?_set_self]
      rfl
    · intro _ same
      rw [Fields.get?_set_self] at same
      have equal : ∀ capped, Fields.get? payload field = some (.int capped) →
          ((Fields.get? payload field).map (Json.eqInt capped)).getD false = true := by
        intro capped asked
        rw [asked]
        exact Json.eqInt_int
      exact different (equal _ same.symm)

/-- A token limit the client sent is set to its bound; one it did not send stays away. -/
def ClampedIfSent (ceiling : Nat) (asked forwarded : Option Json) : Prop :=
  if asked.isNone then forwarded = none
  else forwarded.bind Json.number = some (cappedTokens ceiling asked : Rat)

/-- **The clamp**: both spellings, and an exact report. -/
structure ClampedTokens (ceiling : Nat) (payload payload' : Fields) (changed : Bool) : Prop where
  others : ∀ key, key ≠ "max_tokens" → key ≠ "max_completion_tokens" →
    Fields.get? payload' key = Fields.get? payload key
  maxTokens : (Fields.get? payload' "max_tokens").bind Json.number =
    some (cappedTokens ceiling (Fields.get? payload "max_tokens") : Rat)
  maxCompletionTokens : ClampedIfSent ceiling (Fields.get? payload "max_completion_tokens")
    (Fields.get? payload' "max_completion_tokens")
  same : changed = false → payload' = payload
  changed : changed = true →
    Fields.get? payload' "max_tokens" ≠ Fields.get? payload "max_tokens" ∨
    Fields.get? payload' "max_completion_tokens" ≠ Fields.get? payload "max_completion_tokens"

theorem clampOutputTokens_spec {ceiling : Nat} (positive : 0 < ceiling) (payload : Fields) :
    ClampedTokens ceiling payload (clampOutputTokens payload (some ceiling)).1
      (clampOutputTokens payload (some ceiling)).2 := by
  obtain ⟨ceiling, rfl⟩ := Nat.exists_eq_succ_of_ne_zero positive.ne'
  rcases run : clampField (ceiling + 1) "max_tokens" payload with ⟨payload₁, changed₁⟩
  have first := clampField_spec (ceiling + 1) "max_tokens" payload
  rw [run] at first
  have newer : Fields.get? payload₁ "max_completion_tokens" =
      Fields.get? payload "max_completion_tokens" := first.others _ (by decide)
  unfold clampOutputTokens
  simp only [Nat.succ_eq_add_one, run]
  split
  · next absent =>
    refine ⟨fun key other _ => first.others key other, first.number, ?_, first.same,
      fun changed => Or.inl (first.changed changed)⟩
    unfold ClampedIfSent
    rw [← newer, if_pos absent]
    exact Option.isNone_iff_eq_none.mp absent
  · next sent =>
    have second := clampField_spec (ceiling + 1) "max_completion_tokens" payload₁
    have older := second.others "max_tokens" (by decide)
    refine ⟨fun key other other' => ?_, ?_, ?_, fun same => ?_, fun changed => ?_⟩
    · exact (second.others key other').trans (first.others key other)
    · rw [older]
      exact first.number
    · unfold ClampedIfSent
      rw [← newer, if_neg sent]
      exact second.number
    · obtain ⟨same₁, same₂⟩ := Bool.or_eq_false_iff.mp same
      exact (second.same same₂).trans (first.same same₁)
    · rcases Bool.or_eq_true_iff.mp changed with changed | changed
      · rw [older]
        exact Or.inl (first.changed changed)
      · rw [← newer]
        exact Or.inr (second.changed changed)

/-! ## The payload a worker gets -/

/-- The model is named; an exact report. -/
structure NamedModel (served : Option String) (payload payload' : Fields) (changed : Bool) :
    Prop where
  others : ∀ key, key ≠ "model" → Fields.get? payload' key = Fields.get? payload key
  model : Fields.get? payload' "model" =
    (served.map Json.str).orElse fun _ => Fields.get? payload "model"
  same : changed = false → payload' = payload
  changed : changed = true → Fields.get? payload' "model" ≠ Fields.get? payload "model"

variable {cfg : RouterConfig} {record : NodeRecord} {path : String} {payload payload' : Fields}
  {mutated : Bool}

theorem nameModel_spec (cfg : RouterConfig) (record : NodeRecord) (payload : Fields) :
    NamedModel (cfg.served record) payload (cfg.nameModel record payload).1
      (cfg.nameModel record payload).2 := by
  unfold RouterConfig.nameModel
  cases cfg.served record with
  | none => exact ⟨fun _ _ => rfl, rfl, fun _ => rfl, fun changed => by cases changed⟩
  | some served =>
    simp only
    split
    · next equal =>
      refine ⟨fun _ _ => rfl, ?_, fun _ => rfl, fun changed => by cases changed⟩
      cases asked : Fields.get? payload "model" with
      | none => simp [asked] at equal
      | some v =>
        rw [asked] at equal
        exact congrArg some (Json.eqStr_iff.mp equal)
    · next different =>
      refine ⟨fun key other => Fields.get?_set_of_ne other, Fields.get?_set_self,
        fun same => (by cases same), fun _ same => ?_⟩
      rw [Fields.get?_set_self] at same
      rw [← same] at different
      exact different (Json.eqStr_iff.mpr rfl)

/-- The audio cap of a request for the worker, if it has one. -/
def audioCap (cfg : RouterConfig) (record : NodeRecord) (path : String) : Option Rat :=
  if path = chatPath then (cfg.caps record).1 else none

/-- The output cap of a request for the worker, if it has one. -/
def outputCap (cfg : RouterConfig) (record : NodeRecord) (path : String) : Option Nat :=
  if path = chatPath then (cfg.caps record).2.filter (0 < ·) else none

/-- **Transparent**: how the payload a worker gets may differ from the client's. -/
structure Transparent (cfg : RouterConfig) (record : NodeRecord) (path : String)
    (payload payload' : Fields) : Prop where
  others : ∀ key, key ∉ ["model", "messages", "max_tokens", "max_completion_tokens"] →
    Fields.get? payload' key = Fields.get? payload key
  model : Fields.get? payload' "model" =
    ((cfg.served record).map Json.str).orElse fun _ => Fields.get? payload "model"
  messages :
    match audioCap cfg record path with
    | some _ =>
        OnlyAudioRemoved (Fields.get? payload "messages") (Fields.get? payload' "messages")
    | none => Fields.get? payload' "messages" = Fields.get? payload "messages"
  maxTokens :
    match outputCap cfg record path with
    | some ceiling => BoundedTokens ceiling (Fields.get? payload "max_tokens")
        (Fields.get? payload' "max_tokens")
    | none => Fields.get? payload' "max_tokens" = Fields.get? payload "max_tokens"
  maxCompletionTokens :
    match outputCap cfg record path, Fields.get? payload "max_completion_tokens" with
    | some ceiling, some asked => BoundedTokens ceiling (some asked)
        (Fields.get? payload' "max_completion_tokens")
    | _, asked => Fields.get? payload' "max_completion_tokens" = asked

/-- What the shaping of a payload does, with the tokens it sets. -/
structure ShapedPayload (cfg : RouterConfig) (record : NodeRecord) (path : String)
    (payload payload' : Fields) (mutated : Bool) : Prop where
  others : ∀ key, key ∉ ["model", "messages", "max_tokens", "max_completion_tokens"] →
    Fields.get? payload' key = Fields.get? payload key
  model : Fields.get? payload' "model" =
    ((cfg.served record).map Json.str).orElse fun _ => Fields.get? payload "model"
  messages :
    match audioCap cfg record path with
    | some _ =>
        OnlyAudioRemoved (Fields.get? payload "messages") (Fields.get? payload' "messages")
    | none => Fields.get? payload' "messages" = Fields.get? payload "messages"
  maxTokens : ∀ ceiling, outputCap cfg record path = some ceiling →
    (Fields.get? payload' "max_tokens").bind Json.number =
      some (cappedTokens ceiling (Fields.get? payload "max_tokens") : Rat)
  maxCompletionTokens : ∀ ceiling, outputCap cfg record path = some ceiling →
    ClampedIfSent ceiling (Fields.get? payload "max_completion_tokens")
      (Fields.get? payload' "max_completion_tokens")
  uncapped : outputCap cfg record path = none →
    ∀ field ∈ ["max_tokens", "max_completion_tokens"],
      Fields.get? payload' field = Fields.get? payload field
  same : mutated = false → payload' = payload
  changed : mutated = true → payload' ≠ payload

/-- On any other path than the chat's, the payload only names the model. -/
theorem shapePayload_other (other : path ≠ chatPath) :
    ShapedPayload cfg record path payload (cfg.shapePayload record path payload).1
      (cfg.shapePayload record path payload).2.1 := by
  have named := nameModel_spec cfg record payload
  have audio : audioCap cfg record path = none := if_neg other
  have output : outputCap cfg record path = none := if_neg other
  have caps (payload : Fields) : cfg.applyCaps record path payload = (payload, false, []) :=
    if_neg other
  unfold RouterConfig.shapePayload
  simp only [caps, Bool.or_false]
  refine ⟨fun key outside => named.others key ?_, named.model, ?_, ?_, ?_, fun _ field member => ?_,
    named.same, fun changed same => ?_⟩
  · intro same
    exact outside (by simp [same])
  · rw [audio]
    exact named.others _ (by decide)
  · intro ceiling capped
    rw [output] at capped
    cases capped
  · intro ceiling capped
    rw [output] at capped
    cases capped
  · apply named.others
    intro same
    rw [same] at member
    exact absurd member (by decide)
  · exact named.changed changed (by rw [same])

/-- The clamp, on or off. -/
structure MaybeClamped (ceiling : Option Nat) (payload payload' : Fields) (changed : Bool) :
    Prop where
  others : ∀ key, key ≠ "max_tokens" → key ≠ "max_completion_tokens" →
    Fields.get? payload' key = Fields.get? payload key
  on : ∀ c, ceiling.filter (0 < ·) = some c → ClampedTokens c payload payload' changed
  off : ceiling.filter (0 < ·) = none → payload' = payload
  same : changed = false → payload' = payload
  changed : changed = true → ∃ field ∈ ["max_tokens", "max_completion_tokens"],
    Fields.get? payload' field ≠ Fields.get? payload field

theorem maybeClamped (payload : Fields) (ceiling : Option Nat) :
    MaybeClamped ceiling payload (clampOutputTokens payload ceiling).1
      (clampOutputTokens payload ceiling).2 := by
  have idle : MaybeClamped none payload payload false :=
    ⟨fun _ _ _ => rfl, fun _ on => (by cases on), fun _ => rfl, fun _ => rfl,
      fun changed => (by cases changed)⟩
  match ceiling with
  | none => exact idle
  | some 0 =>
    refine ⟨idle.others, fun c on => ?_, fun _ => rfl, fun _ => rfl, idle.changed⟩
    obtain ⟨same, positive⟩ := Option.filter_eq_some_iff.mp on
    cases same
    simp at positive
  | some (n + 1) =>
    have spec := clampOutputTokens_spec (Nat.succ_pos n) payload
    refine ⟨spec.others, fun c on => ?_, fun off => (by simp at off), spec.same, fun changed => ?_⟩
    · obtain ⟨same, _⟩ := Option.filter_eq_some_iff.mp on
      cases same
      exact spec
    · rcases spec.changed changed with differs | differs
      · exact ⟨"max_tokens", by simp, differs⟩
      · exact ⟨"max_completion_tokens", by simp, differs⟩

/-- On the chat's path the payload names the model and is held to the caps. -/
theorem shapePayload_chat (chat : path = chatPath) :
    ShapedPayload cfg record path payload (cfg.shapePayload record path payload).1
      (cfg.shapePayload record path payload).2.1 := by
  rcases name : cfg.nameModel record payload with ⟨payload₁, named⟩
  have naming := nameModel_spec cfg record payload
  rw [name] at naming
  rcases cap : capAudio payload₁ (cfg.caps record).1 with ⟨shaping, payload₂⟩
  have capping := capAudio_spec payload₁ (cfg.caps record).1
  rw [cap] at capping
  rcases clamp : clampOutputTokens payload₂ (cfg.caps record).2 with ⟨payload₃, clamped⟩
  have clamping := maybeClamped payload₂ (cfg.caps record).2
  rw [clamp] at clamping
  have audio : audioCap cfg record path = (cfg.caps record).1 := if_pos chat
  have output : outputCap cfg record path = (cfg.caps record).2.filter (0 < ·) := if_pos chat
  have result : cfg.shapePayload record path payload =
      (payload₃, named || (shaping.trimmed || clamped), shapingHeaders shaping) := by
    simp only [RouterConfig.shapePayload, RouterConfig.applyCaps, name, cap, clamp, if_pos chat]
  -- a field is changed by one of the three at most
  have untouched {key : String} (model : key ≠ "model") (messages : key ≠ "messages") :
      Fields.get? payload₂ key = Fields.get? payload key :=
    (capping.others key messages).trans (naming.others key model)
  have asked {field : String} (member : field ∈ ["max_tokens", "max_completion_tokens"]) :
      Fields.get? payload₂ field = Fields.get? payload field := by
    apply untouched
    · intro same
      exact absurd (same ▸ member) (by decide)
    · intro same
      exact absurd (same ▸ member) (by decide)
  rw [result]
  refine ⟨?_, ?_, ?_, ?_, ?_, ?_, ?_, ?_⟩
  · intro key outside
    simp only [List.mem_cons, List.not_mem_nil, or_false, not_or] at outside
    obtain ⟨model, messages, maxTokens, maxCompletionTokens⟩ := outside
    exact (clamping.others key maxTokens maxCompletionTokens).trans (untouched model messages)
  · rw [clamping.others _ (by decide) (by decide), capping.others _ (by decide)]
    exact naming.model
  · have before : Fields.get? payload₁ "messages" = Fields.get? payload "messages" :=
      naming.others _ (by decide)
    have after : Fields.get? payload₃ "messages" = Fields.get? payload₂ "messages" :=
      clamping.others _ (by decide) (by decide)
    rw [audio, after, ← before]
    split
    · exact capping.messages
    · next off =>
      have idle := capAudio_off payload₁
      rw [off] at cap
      rw [cap] at idle
      exact congrArg (Fields.get? · "messages") idle
  · intro ceiling on
    rw [output] at on
    rw [← asked (by simp)]
    exact (clamping.on ceiling on).maxTokens
  · intro ceiling on
    rw [output] at on
    rw [← asked (by simp)]
    exact (clamping.on ceiling on).maxCompletionTokens
  · intro off field member
    rw [output] at off
    rw [clamping.off off]
    exact asked member
  · intro same
    obtain ⟨unnamed, uncapped⟩ := Bool.or_eq_false_iff.mp same
    obtain ⟨untrimmed, unclamped⟩ := Bool.or_eq_false_iff.mp uncapped
    exact (clamping.same unclamped).trans ((capping.same untrimmed).trans (naming.same unnamed))
  · intro changed same
    rcases Bool.or_eq_true_iff.mp changed with renamed | capped
    · apply naming.changed renamed
      rw [← capping.others "model" (by decide),
        ← clamping.others "model" (by decide) (by decide), same]
    · rcases Bool.or_eq_true_iff.mp capped with trimmed | clamped
      · apply capping.changed trimmed
        rw [← clamping.others "messages" (by decide) (by decide), same,
          naming.others "messages" (by decide)]
      · obtain ⟨field, member, differs⟩ := clamping.changed clamped
        apply differs
        rw [asked member, same]

theorem shapePayload_spec (cfg : RouterConfig) (record : NodeRecord) (path : String)
    (payload : Fields) :
    ShapedPayload cfg record path payload (cfg.shapePayload record path payload).1
      (cfg.shapePayload record path payload).2.1 := by
  by_cases chat : path = chatPath
  · exact shapePayload_chat chat
  · exact shapePayload_other chat

/-- No token limit of the payload is a small float. -/
def NoSmallFloats (cfg : RouterConfig) (record : NodeRecord) (path : String) (payload : Fields) :
    Prop :=
  ∀ ceiling, outputCap cfg record path = some ceiling →
    ∀ field ∈ ["max_tokens", "max_completion_tokens"],
      NoSmallFloat ceiling (Fields.get? payload field)

/-- **When forwarding is transparent**: but for a small float it always is. -/
theorem ShapedPayload.transparent_iff
    (shaped : ShapedPayload cfg record path payload payload' mutated) :
    Transparent cfg record path payload payload' ↔ NoSmallFloats cfg record path payload := by
  constructor
  · intro transparent ceiling on field member
    simp only [List.mem_cons, List.not_mem_nil, or_false] at member
    rcases member with rfl | rfl
    · have held := transparent.maxTokens
      rw [on] at held
      exact (boundedTokens_iff (shaped.maxTokens ceiling on)).mp held
    · have held := transparent.maxCompletionTokens
      have clamped := shaped.maxCompletionTokens ceiling on
      rw [on] at held
      cases sent : Fields.get? payload "max_completion_tokens" with
      | none =>
        intro q float
        cases float
      | some asked =>
        rw [sent] at held clamped
        exact (boundedTokens_iff clamped).mp held
  · intro small
    refine ⟨shaped.others, shaped.model, shaped.messages, ?_, ?_⟩
    · split
      · next ceiling on =>
        exact (boundedTokens_iff (shaped.maxTokens ceiling on)).mpr (small ceiling on _ (by simp))
      · next off => exact shaped.uncapped off _ (by simp)
    · cases on : outputCap cfg record path with
      | none => exact shaped.uncapped on _ (by simp)
      | some ceiling =>
        have clamped := shaped.maxCompletionTokens ceiling on
        have float := small ceiling on "max_completion_tokens" (by simp)
        cases sent : Fields.get? payload "max_completion_tokens" with
        | none =>
          rw [sent] at clamped
          exact clamped
        | some asked =>
          rw [sent] at clamped float
          exact (boundedTokens_iff clamped).mpr float

/-! ## The body -/

/-- **Faithful**: the body a worker gets is the client's but for what `Transparent` allows,
and byte for byte where there is nothing of it. -/
def Faithful (cfg : RouterConfig) (dumps : Json → Bytes) (record : NodeRecord) (path : String)
    (body : RequestBody) : Prop :=
  match body.parsed with
  | some (.obj payload) =>
      ∃ payload', (cfg.shapeBody dumps record path body).2 = some (.obj payload') ∧
        Transparent cfg record path payload payload' ∧
        (payload' = payload → (cfg.shapeBody dumps record path body).1 = body.bytes)
  | _ => cfg.shapeBody dumps record path body = (body.bytes, body.parsed)

/-- No token limit of the body is a float that is positive and below the cap. -/
def BodyWithoutSmallFloats (cfg : RouterConfig) (record : NodeRecord) (path : String)
    (body : RequestBody) : Prop :=
  ∀ payload, body.parsed = some (.obj payload) → NoSmallFloats cfg record path payload

theorem shapeBody_obj (cfg : RouterConfig) (dumps : Json → Bytes) (record : NodeRecord)
    (path : String) {body : RequestBody} (parsed : body.parsed = some (.obj payload)) :
    (cfg.shapeBody dumps record path body).2 =
        some (.obj (cfg.shapePayload record path payload).1) ∧
      ((cfg.shapePayload record path payload).1 = payload →
        (cfg.shapeBody dumps record path body).1 = body.bytes) := by
  have shaped := shapePayload_spec cfg record path payload
  unfold RouterConfig.shapeBody
  simp only [parsed]
  split
  · next mutated => exact ⟨rfl, fun same => (shaped.changed mutated same).elim⟩
  · next untouched =>
    rw [shaped.same (by simpa using untouched)]
    exact ⟨rfl, fun _ => rfl⟩

/-- A limit of a hundred tokens, written with a fraction. -/
def floatLimit : RequestBody where
  bytes := ascii "\x7b\"max_tokens\": 100.0\x7d"
  parsed := some (.obj [("max_tokens", .float (.num 100))])
  empty := fun none => by cases none

/-- A fleet that caps the output. -/
def cappedFleet : RouterConfig where
  catalog := none
  nodeSpec := some { model := "m", maxConcurrentRequests := 8, maxOutputTokens := some 4096 }

/-- The request that is sent carries this body. -/
theorem outgoing_content {world : ForwardWorld} {dumps : Json → Bytes} {body : RequestBody}
    (shape : world.shape = fun record => .ok (cfg.shape dumps world.request.path body record))
    {out : Outgoing} (sent : outgoing world record = .ok out) :
    out.content.getD [] = (cfg.shapeBody dumps record world.request.path body).1 := by
  have bytes : (cfg.shape dumps world.request.path body record).body =
      (cfg.shapeBody dumps record world.request.path body).1 := by
    unfold RouterConfig.shape
    split
    · rfl
    · next plain =>
      unfold RouterConfig.shapeBody
      split
      · next payload parsed => exact (plain payload parsed).elim
      · rfl
  have content : ∀ shaped : Shaped, (if shaped.streaming || shaped.body ≠ [] then
      some shaped.body else none).getD [] = shaped.body := by
    intro shaped
    split
    · rfl
    · next plain =>
      simp only [Bool.or_eq_true, decide_eq_true_eq, not_or, not_not] at plain
      exact plain.2.symm
  rw [← bytes, ← content]
  unfold outgoing at sent
  rw [shape] at sent
  cases port : record.port <|> world.config.vllmPort with
  | none =>
    rw [port] at sent
    cases sent
  | some number =>
    rw [port] at sent
    cases transport : record.transport with
    | direct =>
      rw [transport] at sent
      cases sent
      rfl
    | tunnel =>
      rw [transport] at sent
      cases auth : world.config.authStore with
      | none =>
        rw [auth] at sent
        cases sent
      | some key =>
        rw [auth] at sent
        cases sent
        rfl

end Oumigo
