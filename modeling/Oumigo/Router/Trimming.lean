import Oumigo.Foundation.Budget
import Oumigo.Router.Transparency

/-!
# The audio that stays

`cap_audio` spends one budget over all messages.  `AudioCapped` says what that comes to: the
audio parts that stay are the longest prefix that the limit allows, every other part and every
message that lost nothing stay as they were, and the counts are the true ones
(`capAudio_capped`).
-/

namespace Oumigo

open Python Shaping Budget

/-! ## The bill -/

/-- The audio parts of a message. -/
def audioOf : Json → List Json
  | .obj fields =>
      match Fields.get? fields "content" with
      | some (.arr parts) => parts.filter isAudioPart
      | _ => []
  | _ => []

/-- The audio parts of a request, over all messages in order. -/
def requestAudio (payload : Fields) : List Json :=
  match Fields.get? payload "messages" with
  | some (.arr messages) => messages.flatMap audioOf
  | _ => []

/-- The seconds that audio parts are billed with. -/
def billed (audio : List Json) : Rat := (audio.map spanOf).sum

variable {limitS : Option Rat} {limit : Rat} {count count' count'' : AudioCount}
  {parts kept audio more : List Json} {message message' : Json} {messages messages' : List Json}

@[simp]
theorem billed_nil : billed [] = 0 := rfl

theorem billed_append : billed (audio ++ more) = billed audio + billed more := by
  simp [billed]

theorem audioPartSeconds_pos (part : Fields) : 0 < audioPartSeconds part := by
  have ceiling : (0 : Rat) < itemCeilingS := by norm_num [itemCeilingS]
  unfold audioPartSeconds
  split
  · exact ceiling
  · split
    · exact ceiling
    · dsimp only
      split
      · exact ceiling
      · split
        · exact ceiling
        · next positive => exact lt_min (not_le.mp positive) ceiling

theorem audioPartSeconds_le (part : Fields) : audioPartSeconds part ≤ itemCeilingS := by
  unfold audioPartSeconds
  split
  · exact le_refl _
  · split
    · exact le_refl _
    · dsimp only
      split
      · exact le_refl _
      · split
        · exact le_refl _
        · exact min_le_right _ _

theorem spanOf_pos (part : Json) : 0 < spanOf part := by
  cases part with
  | obj part => exact audioPartSeconds_pos part
  | null => norm_num [spanOf, itemCeilingS]
  | bool b => norm_num [spanOf, itemCeilingS]
  | int n => norm_num [spanOf, itemCeilingS]
  | float x => norm_num [spanOf, itemCeilingS]
  | str s => norm_num [spanOf, itemCeilingS]
  | arr items => norm_num [spanOf, itemCeilingS]

theorem spanOf_le (part : Json) : spanOf part ≤ itemCeilingS := by
  cases part with
  | obj part => exact audioPartSeconds_le part
  | null => exact le_refl _
  | bool b => exact le_refl _
  | int n => exact le_refl _
  | float x => exact le_refl _
  | str s => exact le_refl _
  | arr items => exact le_refl _

/-! ## The budget -/

/-- The audio parts that stay when these come next. -/
def Shaping.AudioCount.room (count : AudioCount) (limitS : Option Rat) (audio : List Json) : List Json :=
  match limitS with
  | none => audio
  | some limit => if count.budgetSpent then [] else fitting spanOf limit count.keptS audio

/-- What counting audio parts adds to the count. -/
structure Counted (limitS : Option Rat) (count : AudioCount) (audio : List Json)
    (count' : AudioCount) : Prop where
  seconds : count'.seconds = count.seconds + billed audio
  items : count'.items = count.items + audio.length
  keptS : count'.keptS = count.keptS + billed (count.room limitS audio)
  spent : count'.budgetSpent = true ↔
    count.budgetSpent = true ∨ count.room limitS audio ≠ audio

@[simp]
theorem room_nil : count.room limitS [] = [] := by
  unfold Shaping.AudioCount.room
  split
  · rfl
  · split
    · rfl
    · rfl

theorem room_of_spent (spent : count.budgetSpent = true) : count.room (some limit) audio = [] :=
  if_pos spent

theorem room_of_unspent (unspent : ¬ count.budgetSpent = true) :
    count.room (some limit) audio = fitting spanOf limit count.keptS audio :=
  if_neg unspent

theorem Counted.nil : Counted limitS count [] count := by
  refine ⟨by simp, by simp, by simp, by simp⟩

/-- The budget that one message leaves is the next one's. -/
theorem Counted.room_append (first : Counted limitS count audio count') :
    count.room limitS (audio ++ more) =
      count.room limitS audio ++ count'.room limitS more := by
  cases limitS with
  | none => rfl
  | some limit =>
    by_cases spent : count.budgetSpent = true
    · have spent' : count'.budgetSpent = true := first.spent.mpr (Or.inl spent)
      simp only [room_of_spent spent, room_of_spent spent', List.append_nil]
    · rw [room_of_unspent spent, room_of_unspent spent]
      by_cases whole : fitting spanOf limit count.keptS audio = audio
      · have unspent : ¬ count'.budgetSpent = true := by
          rw [first.spent, room_of_unspent spent]
          simp [spent, whole]
        have keptS := first.keptS
        rw [room_of_unspent spent, whole] at keptS
        rw [room_of_unspent unspent, fitting_append_of_eq whole, whole, keptS]
        rfl
      · have spent' : count'.budgetSpent = true := by
          rw [first.spent, room_of_unspent spent]
          exact Or.inr whole
        rw [room_of_spent spent', fitting_append_of_ne whole, List.append_nil]

theorem room_length_le : (count.room limitS audio).length ≤ audio.length := by
  unfold Shaping.AudioCount.room
  split
  · exact le_refl _
  · split
    · exact Nat.zero_le _
    · exact fitting_isPrefix.length_le

theorem Counted.trans (first : Counted limitS count audio count')
    (later : Counted limitS count' more count'') :
    Counted limitS count (audio ++ more) count'' := by
  refine ⟨?_, ?_, ?_, ?_⟩
  · rw [later.seconds, first.seconds, billed_append, add_assoc]
  · rw [later.items, first.items, List.length_append, Nat.add_assoc]
  · rw [later.keptS, first.keptS, first.room_append, billed_append, add_assoc]
  · have both : count.room limitS audio ++ count'.room limitS more = audio ++ more ↔
        count.room limitS audio = audio ∧ count'.room limitS more = more := by
      constructor
      · intro same
        have le : (count.room limitS audio).length ≤ audio.length := room_length_le
        have le' : (count'.room limitS more).length ≤ more.length := room_length_le
        have total := congrArg List.length same
        simp only [List.length_append] at total
        exact List.append_inj same (by omega)
      · intro same
        rw [same.1, same.2]
    rw [later.spent, first.spent, first.room_append, ne_eq, ne_eq, ne_eq, both, or_assoc,
      not_and_or]

variable {part : Json}

/-- An audio part that goes. -/
theorem counted_dropped (exceeds : count.exceeds limitS (spanOf part) = true) :
    count.room limitS [part] = [] ∧
    Counted limitS count [part] { count with
      items := count.items + 1
      seconds := count.seconds + spanOf part
      budgetSpent := true
      dropped := count.dropped + 1 } := by
  have gone : count.room limitS [part] = [] := by
    cases limitS with
    | none => cases exceeds
    | some limit =>
      by_cases spent : count.budgetSpent = true
      · exact room_of_spent spent
      · rw [room_of_unspent spent]
        apply fitting_cons_of_lt
        simpa [AudioCount.exceeds, spent] using exceeds
  refine ⟨gone, ?_, rfl, ?_, ?_⟩
  · simp [billed]
  · simp [gone]
  · simp [gone]

/-- An audio part that stays. -/
theorem counted_kept (fits : ¬ count.exceeds limitS (spanOf part) = true) :
    count.room limitS [part] = [part] ∧
    Counted limitS count [part] { count with
      items := count.items + 1
      seconds := count.seconds + spanOf part
      keptS := count.keptS + spanOf part } := by
  have stays : count.room limitS [part] = [part] := by
    cases limitS with
    | none => rfl
    | some limit =>
      have both : ¬ count.budgetSpent = true ∧ count.keptS + spanOf part ≤ limit := by
        simpa [AudioCount.exceeds] using fits
      rw [room_of_unspent both.1]
      exact fitting_cons_of_le both.2
  refine ⟨stays, ?_, rfl, ?_, ?_⟩
  · simp [billed]
  · simp [stays, billed]
  · simp [stays]

/-- **The parts of one message**: the audio parts that stay are those the budget has room
for. -/
theorem capParts_counted {lost : Nat} (run : capParts limitS count parts = (count', kept, lost)) :
    kept.filter isAudioPart = count.room limitS (parts.filter isAudioPart) ∧
    Counted limitS count (parts.filter isAudioPart) count' := by
  induction parts generalizing count kept lost with
  | nil =>
    cases run
    exact ⟨by simp, .nil⟩
  | cons part rest ih =>
    unfold capParts at run
    by_cases audio : isAudioPart part = true
    · have split : (part :: rest).filter isAudioPart = [part] ++ rest.filter isAudioPart := by
        simp [audio]
      rw [if_pos audio] at run
      by_cases exceeds : count.exceeds limitS (spanOf part) = true
      · rcases tail : capParts limitS { count with
          items := count.items + 1
          seconds := count.seconds + spanOf part
          budgetSpent := true
          dropped := count.dropped + 1 } rest with ⟨c, k, l⟩
        simp only [exceeds, if_true, tail] at run
        cases run
        obtain ⟨gone, first⟩ := counted_dropped exceeds
        obtain ⟨later, counted⟩ := ih tail
        rw [split, first.room_append, gone]
        exact ⟨later, first.trans counted⟩
      · rcases tail : capParts limitS { count with
          items := count.items + 1
          seconds := count.seconds + spanOf part
          keptS := count.keptS + spanOf part } rest with ⟨c, k, l⟩
        simp only [exceeds, tail] at run
        cases run
        obtain ⟨stays, first⟩ := counted_kept exceeds
        obtain ⟨later, counted⟩ := ih tail
        rw [split, first.room_append, stays, List.filter_cons_of_pos audio, later]
        exact ⟨rfl, first.trans counted⟩
    · rcases tail : capParts limitS count rest with ⟨c, k, l⟩
      rw [if_neg audio] at run
      simp only [tail] at run
      cases run
      obtain ⟨later, counted⟩ := ih tail
      rw [List.filter_cons_of_neg audio, List.filter_cons_of_neg audio]
      exact ⟨later, counted⟩

/-! ## The messages -/

/-- A message that lost audio parts, with new parts before those that stay. -/
def LostAudio (new : List Json) (message message' : Json) : Prop :=
  ∃ fields parts kept, message = .obj fields ∧
    Fields.get? fields "content" = some (.arr parts) ∧
    PrunedParts parts kept ∧ kept.length < parts.length ∧
    message' = .obj (Fields.set fields "content" (.arr (new ++ kept)))

/-- Each message lost audio parts or is what it was. -/
abbrev Pruned : List Json → List Json → Prop :=
  List.Forall₂ fun message message' => message' = message ∨ LostAudio [] message message'

/-- The messages up to the first one that lost audio parts are what they were; that one has
the new parts in front. -/
def FirstLost (new : List Json) (i : Nat) (messages messages' : List Json) : Prop :=
  ∃ before first first' after after',
    messages = before ++ first :: after ∧ messages' = before ++ first' :: after' ∧
    before.length = i ∧ LostAudio new first first' ∧ Pruned after after'

theorem audioOf_content {fields : Fields} (content : Fields.get? fields "content" = some (.arr parts)) :
    audioOf (.obj fields) = parts.filter isAudioPart := by
  simp [audioOf, content]

theorem audioOf_set {fields : Fields} :
    audioOf (.obj (Fields.set fields "content" (.arr parts))) = parts.filter isAudioPart :=
  audioOf_content Fields.get?_set_self

/-- One message: its audio parts that stay, and whether it lost some. -/
theorem capMessage_counted {lost : Bool}
    (run : capMessage limitS count message = (count', message', lost)) :
    audioOf message' = count.room limitS (audioOf message) ∧
    Counted limitS count (audioOf message) count' ∧
    (lost = false → message' = message) ∧ (lost = true → LostAudio [] message message') := by
  unfold capMessage at run
  split at run
  · next fields =>
    split at run
    · next parts content =>
      rcases tail : capParts limitS count parts with ⟨c, kept, l⟩
      have spec := capParts_spec tail
      obtain ⟨stays, counted⟩ := capParts_counted tail
      simp only [tail] at run
      split at run
      · next none =>
        cases run
        rw [spec.same none] at stays
        rw [audioOf_content content]
        exact ⟨stays, counted, fun _ => rfl, fun lost => by cases lost⟩
      · next some_ =>
        cases run
        rw [audioOf_set, audioOf_content content]
        refine ⟨stays, counted, (nomatch ·), fun _ => ?_⟩
        refine ⟨fields, parts, kept, rfl, content, spec.pruned, ?_, rfl⟩
        have audio := spec.audio
        have apart : kept ≠ parts := by
          intro same
          rw [same] at audio
          omega
        exact lt_of_le_of_ne spec.pruned.sublist.length_le fun length =>
          apart (spec.pruned.sublist.eq_of_length length)
    · next other =>
      cases run
      have silent : audioOf (.obj fields) = [] := by
        simp only [audioOf]
      rw [silent]
      exact ⟨room_nil.symm, .nil, fun _ => rfl, fun lost => by cases lost⟩
  · next other =>
    cases run
    have silent : audioOf message = [] := by
      unfold audioOf
      split
      · next fields => exact absurd rfl (other fields)
      · rfl
    rw [silent]
    exact ⟨room_nil.symm, .nil, fun _ => rfl, fun lost => by cases lost⟩

/-- **All messages**: they share one budget. -/
theorem capMessages_counted {target : Option Nat}
    (run : capMessages limitS count messages = (count', messages', target)) :
    messages'.flatMap audioOf = count.room limitS (messages.flatMap audioOf) ∧
    Counted limitS count (messages.flatMap audioOf) count' ∧
    Pruned messages messages' ∧ (target = none → messages' = messages) ∧
    ∀ i, target = some i → FirstLost [] i messages messages' := by
  induction messages generalizing count messages' target with
  | nil =>
    cases run
    exact ⟨room_nil.symm, .nil, .nil, fun _ => rfl, fun i found => by cases found⟩
  | cons message rest ih =>
    unfold capMessages at run
    rcases head : capMessage limitS count message with ⟨c, message', lost⟩
    rcases tail : capMessages limitS c rest with ⟨c', rest', target'⟩
    simp only [head, tail] at run
    cases run
    obtain ⟨stays, first, same, changed⟩ := capMessage_counted head
    obtain ⟨stays', later, pruned, same', found⟩ := ih tail
    rw [List.flatMap_cons, List.flatMap_cons, first.room_append, stays, stays']
    refine ⟨rfl, first.trans later, ?_⟩
    cases lost with
    | true =>
      refine ⟨.cons (Or.inr (changed rfl)) pruned, (fun same => by cases same), fun i here => ?_⟩
      cases here
      exact ⟨[], message, message', rest, rest', rfl, rfl, rfl, changed rfl, pruned⟩
    | false =>
      rw [same rfl]
      refine ⟨.cons (Or.inl rfl) pruned, fun none => ?_, fun i here => ?_⟩
      · rw [same' (by simpa using none)]
      · obtain ⟨j, there, rfl⟩ := Option.map_eq_some_iff.mp here
        obtain ⟨before, lost, lost', after, after', split, split', length, how⟩ := found j there
        refine ⟨message :: before, lost, lost', after, after', ?_, ?_, ?_, how⟩
        · rw [split]
          rfl
        · rw [split']
          rfl
        · rw [List.length_cons, length]

/-! ## The payload -/

/-- The longest prefix of the audio parts that the limit allows. -/
structure LongestWithin (limit : Rat) (audio kept : List Json) : Prop where
  pre : kept <+: audio
  within : billed kept ≤ limit
  longest : ∀ other, other <+: audio → billed other ≤ limit → other <+: kept

theorem room_longest (limited : 0 ≤ limit) :
    LongestWithin limit audio (({} : AudioCount).room (some limit) audio) := by
  refine ⟨fitting_isPrefix, ?_, fun other pre within => ?_⟩
  · have fits : 0 + ((fitting spanOf limit 0 audio).map spanOf).sum ≤ limit :=
      fitting_within limited
    rwa [zero_add] at fits
  · apply prefix_fitting (fun part _ => (spanOf_pos part).le) pre
    rwa [zero_add]

/-- Within the limit there is room for all. -/
theorem room_eq_self (within : ∀ limit ∈ limitS, billed audio ≤ limit) :
    ({} : AudioCount).room limitS audio = audio := by
  cases limitS with
  | none => rfl
  | some limit =>
    apply fitting_eq_self fun part _ => (spanOf_pos part).le
    rw [zero_add]
    exact within limit rfl

/-- **The audio cap**, as a relation between the payload it gets, the one it leaves, and what
it returns. -/
structure AudioCapped (limitS : Option Rat) (payload payload' : Fields)
    (shaping : AudioShaping) : Prop where
  limit : shaping.limitS = limitS
  submitted : shaping.submittedS = billed (requestAudio payload)
  total : shaping.totalItems = (requestAudio payload).length
  kept : shaping.keptS = billed (requestAudio payload')
  dropped : shaping.droppedItems + (requestAudio payload').length = (requestAudio payload).length
  /-- Within the limit nothing changes. -/
  within : (∀ limit ∈ limitS, billed (requestAudio payload) ≤ limit) → payload' = payload
  /-- Over the limit the rest of the audio goes, and one note comes. -/
  exceeds : ∀ limit ∈ limitS, limit < billed (requestAudio payload) →
    LongestWithin limit (requestAudio payload) (requestAudio payload') ∧
    ∃ messages messages' i, Fields.get? payload "messages" = some (.arr messages) ∧
      payload' = Fields.set payload "messages" (.arr messages') ∧
      FirstLost [Shaping.note shaping.keptS shaping.droppedItems shaping.totalItems limit] i
        messages messages'

theorem audioParts_eq (message : Json) : audioParts message = (audioOf message).length := by
  unfold audioParts
  split
  · next fields =>
    split
    · next parts content =>
      rw [audioOf_content content]
      exact List.countP_eq_length_filter
    · next other => simp only [audioOf, List.length_nil]
  · next other => simp only [audioOf, List.length_nil]

theorem audioParts_sum (messages : List Json) :
    (messages.map audioParts).sum = (messages.flatMap audioOf).length := by
  rw [List.length_flatMap]
  congr 1
  exact List.map_congr_left fun message _ => audioParts_eq message

theorem requestAudio_messages {payload : Fields}
    (found : Fields.get? payload "messages" = some (.arr messages)) :
    requestAudio payload = messages.flatMap audioOf := by
  simp [requestAudio, found]

theorem requestAudio_set {payload : Fields} :
    requestAudio (Fields.set payload "messages" (.arr messages)) = messages.flatMap audioOf :=
  requestAudio_messages Fields.get?_set_self

theorem modify_append {α : Type} (change : α → α) (before : List α) (item : α) (after : List α) :
    (before ++ item :: after).modify before.length change =
      before ++ change item :: after := by
  induction before with
  | nil => rfl
  | cons first rest ih => simpa using ih

theorem LostAudio.prepend (new : Json) (lost : LostAudio [] message message') :
    LostAudio [new] message (prependPart new message') := by
  obtain ⟨fields, parts, kept, rfl, content, pruned, fewer, rfl⟩ := lost
  refine ⟨fields, parts, kept, rfl, content, pruned, fewer, ?_⟩
  simp only [prependPart, List.nil_append, Fields.get?_set_self, Fields.set_set,
    List.singleton_append]

/-- The note goes to the front of the first message that lost parts. -/
theorem FirstLost.prepend {i : Nat} (new : Json) (lost : FirstLost [] i messages messages') :
    FirstLost [new] i messages (messages'.modify i (prependPart new)) := by
  obtain ⟨before, first, first', after, after', split, rfl, rfl, here, pruned⟩ := lost
  rw [modify_append]
  exact ⟨before, first, prependPart new first', after, after', split, rfl, rfl, here.prepend new,
    pruned⟩

/-- A text part is no audio part. -/
theorem audioOf_prependPart (text : String) (message : Json) :
    audioOf (prependPart (textPart text) message) = audioOf message := by
  have plain : isAudioPart (textPart text) = false := rfl
  unfold prependPart
  split
  · split
    · next parts content =>
      rw [audioOf_set, audioOf_content content]
      simp [plain]
    · rfl
  · rfl

theorem audioOf_modify {i : Nat} (text : String) (lost : FirstLost [] i messages messages') :
    (messages'.modify i (prependPart (textPart text))).flatMap audioOf =
      messages'.flatMap audioOf := by
  obtain ⟨before, first, first', after, after', split, rfl, rfl, here, pruned⟩ := lost
  rw [modify_append]
  simp only [List.flatMap_append, List.flatMap_cons, audioOf_prependPart]

/-- What the cap does to a payload, whatever the limit. -/
theorem capAudio_lost (payload : Fields) (limitS : Option Rat) :
    (capAudio payload limitS).2 = payload ∨ ∃ messages messages' i text,
      Fields.get? payload "messages" = some (.arr messages) ∧
      (capAudio payload limitS).2 = Fields.set payload "messages" (.arr messages') ∧
      FirstLost [textPart text] i messages messages' := by
  unfold capAudio
  split
  · next messages found =>
    rcases run : capMessages limitS {} messages with ⟨count, messages', target⟩
    obtain ⟨-, -, -, -, lost⟩ := capMessages_counted run
    simp only
    cases target with
    | none => exact Or.inl rfl
    | some i =>
      obtain ⟨text, eq⟩ := note_eq count.keptS count.dropped count.items (limitS.getD 0)
      refine Or.inr ⟨messages, _, i, text, found, rfl, ?_⟩
      rw [eq]
      exact (lost i rfl).prepend _
  · exact Or.inl rfl

theorem capAudio_capped (payload : Fields) (config : ∀ limit ∈ limitS, 0 ≤ limit) :
    AudioCapped limitS payload (capAudio payload limitS).2 (capAudio payload limitS).1 := by
  unfold capAudio
  split
  · next messages found =>
    rcases run : capMessages limitS {} messages with ⟨count, messages', target⟩
    have spec := capMessages_spec run
    obtain ⟨stays, counted, pruned, same, lost⟩ := capMessages_counted run
    have dropped := spec.dropped
    rw [audioParts_sum, audioParts_sum] at dropped
    have seconds : count.seconds = billed (messages.flatMap audioOf) :=
      counted.seconds.trans (zero_add _)
    have items : count.items = (messages.flatMap audioOf).length :=
      counted.items.trans (zero_add _)
    have keptS : count.keptS = billed (messages'.flatMap audioOf) := by
      rw [stays]
      exact counted.keptS.trans (zero_add _)
    have longest : ∀ limit ∈ limitS,
        LongestWithin limit (messages.flatMap audioOf) (messages'.flatMap audioOf) := by
      intro limit here
      rw [stays, here]
      exact room_longest (config limit here)
    simp only
    cases target with
    | none =>
      rw [same rfl] at keptS dropped longest
      rw [← requestAudio_messages found] at seconds items keptS dropped longest
      have whole : count.dropped = 0 := Nat.add_right_cancel (dropped.trans rfl)
      refine ⟨rfl, seconds, items, keptS, ?_, fun _ => rfl, fun limit here beyond => ?_⟩
      · rw [whole, Nat.zero_add]
      · exact absurd (longest limit here).within beyond.not_ge
    | some i =>
      obtain ⟨text, eq⟩ := note_eq count.keptS count.dropped count.items (limitS.getD 0)
      have first := lost i rfl
      have after := audioOf_modify text first
      rw [eq]
      have left : requestAudio (Fields.set payload "messages"
          (.arr (messages'.modify i (prependPart (textPart text))))) =
            messages'.flatMap audioOf := by
        rw [requestAudio_set, after]
      rw [← requestAudio_messages found] at seconds items dropped longest stays
      refine ⟨rfl, seconds, items, ?_, ?_, fun within => ?_, fun limit here beyond => ⟨?_, ?_⟩⟩
      · rw [left]
        exact keptS
      · rw [left]
        exact dropped.trans (Nat.zero_add _)
      · -- all of it fits, so no message lost a part
        rw [room_eq_self within] at stays
        have some_ : 0 < count.dropped := spec.target_iff.mp rfl
        rw [stays] at dropped
        have zero : ({} : AudioCount).dropped = 0 := rfl
        omega
      · rw [left]
        exact longest limit here
      · refine ⟨messages, _, i, found, rfl, ?_⟩
        rw [← eq, here]
        exact first.prepend _
  · next other =>
    have silent : requestAudio payload = [] := by
      simp only [requestAudio]
    refine ⟨rfl, ?_, ?_, ?_, ?_, fun _ => rfl, fun limit here beyond => ?_⟩
    · rw [silent, billed_nil]
    · rw [silent, List.length_nil]
    · rw [silent, billed_nil]
    · rw [silent, List.length_nil]
    · rw [silent, billed_nil] at beyond
      exact absurd (config limit here) beyond.not_ge

/-- **The audio cap, twice**: each part is billed within its ceiling; the cap keeps the longest
prefix of the request's audio that the limit allows, and leaves that alone the next time.
The configuration admits no negative limit. -/
theorem capAudio_trims (payload : Fields) (limitS : Option Rat)
    (config : ∀ limit ∈ limitS, 0 ≤ limit) :
    (∀ part, 0 < spanOf part ∧ spanOf part ≤ 30) ∧
    AudioCapped limitS payload (capAudio payload limitS).2 (capAudio payload limitS).1 ∧
    (capAudio (capAudio payload limitS).2 limitS).1.droppedItems = 0 ∧
    (capAudio (capAudio payload limitS).2 limitS).2 = (capAudio payload limitS).2 := by
  have first := capAudio_capped payload config
  have second := capAudio_capped (capAudio payload limitS).2 config
  have fits : ∀ limit ∈ limitS, billed (requestAudio (capAudio payload limitS).2) ≤ limit := by
    intro limit here
    rcases le_or_gt (billed (requestAudio payload)) limit with within | beyond
    · rw [first.within fun other there => Option.some.inj (here.symm.trans there) ▸ within]
      exact within
    · exact (first.exceeds limit here beyond).1.within
  have same := second.within fits
  have dropped := second.dropped
  rw [same] at dropped
  exact ⟨fun part => ⟨spanOf_pos part, spanOf_le part⟩, first, by omega, same⟩

/-- A request with two clips whose length is unknown. -/
def twoClips : Fields :=
  let clip : Json := .obj [("type", .str "input_audio")]
  [("messages", .arr [.obj [("role", .str "user"), ("content", .arr [clip, clip])]])]

theorem capAudio_trims_second :
    (capAudio twoClips (some 45)).1.droppedItems = 1 ∧
    AudioCapped (some 45) twoClips (capAudio twoClips (some 45)).2
      (capAudio twoClips (some 45)).1 := by
  have limited : ∀ limit ∈ some (45 : Rat), 0 ≤ limit := by
    intro limit here
    cases here
    norm_num
  exact ⟨by decide +kernel, (capAudio_trims twoClips (some 45) limited).2.1⟩

end Oumigo
