import Mathlib.Data.List.Sort
import Mathlib.Data.Set.List
import Oumigo.Agent.Wire

/-!
# An assistant turn and its two wire forms

What the model says in one round-trip (`AssistantTurn`), the JSON completion that
carries it whole (`Whole`), and the deltas a streamed reply cuts it into
(`Carries`, `Splits`).  `gathered_fold` and `assembled_calls` say that
`_accumulate_tool_call` puts the tool calls together again, in whatever order the
deltas of different calls come.
-/

namespace Oumigo

open Python

/-! ## Fields -/

/-- `entries.get(key)`. -/
def fieldOf (entries : List (String × PyVal)) (key : String) : PyVal :=
  (PyVal.lookup entries key).getD .none

theorem get_dict (entries : List (String × PyVal)) (key : String) :
    (PyVal.dict entries).get key = .ok (fieldOf entries key) := rfl

/-- `value or ""` is `s`. -/
def Says (value : PyVal) (s : String) : Prop := value.or (.str "") = .str s

/-- What says something is that text; anything else is falsy. -/
theorem Says.cases {value : PyVal} {s : String} (told : Says value s) :
    (value.truthy = true ∧ s ≠ "" ∧ value = .str s) ∨ (value.truthy = false ∧ s = "") := by
  unfold Says PyVal.or at told
  cases truth : value.truthy with
  | true =>
    rw [truth, if_pos rfl] at told
    rw [told] at truth
    refine Or.inl ⟨rfl, ?_, told⟩
    simpa [PyVal.truthy] using truth
  | false =>
    rw [truth, if_neg (by decide)] at told
    exact Or.inr ⟨rfl, (PyVal.str.inj told).symm⟩

theorem told_str (s : String) : Says (.str s) s := by
  unfold Says PyVal.or PyVal.truthy
  by_cases empty : s = ""
  · simp [empty]
  · simp [empty]

/-- The last text that is not empty. -/
def lastSaid (texts : List String) : String :=
  texts.foldl (fun said s => if s = "" then said else s) ""

theorem lastSaid_append (texts : List String) (s : String) :
    lastSaid (texts ++ [s]) = if s = "" then lastSaid texts else s := by
  unfold lastSaid
  rw [List.foldl_append]
  rfl

theorem lastSaid_singleton (s : String) : lastSaid [s] = s := by
  rw [← List.nil_append [s], lastSaid_append]
  split
  · next empty => exact empty.symm
  · rfl

theorem join_singleton (s : String) : String.join [s] = s := by
  rw [String.join_cons, String.join_nil, String.append_empty]

/-! ## What the model says -/

/-- A tool call: its id, the function's name and the text of its arguments. -/
structure ModelCall where
  id : String
  name : String
  arguments : String

/-- One assistant turn; its content is null or not empty. -/
structure AssistantTurn where
  reasoning : Option String
  content : Option String
  content_ne : content ≠ some ""
  toolCalls : List ModelCall
  finish : Option String

def ModelCall.toMessage (call : ModelCall) : PyVal :=
  .dict [("id", .str call.id), ("type", .str "function"), ("function",
    .dict [("name", .str call.name), ("arguments", .str call.arguments)])]

namespace AssistantTurn

/-- The value of `content`. -/
def contentValue (turn : AssistantTurn) : PyVal := (turn.content.map .str).getD .none

/-- The turn's prose. -/
def prose (turn : AssistantTurn) : String := turn.content.getD ""

theorem prose_cases (turn : AssistantTurn) :
    (turn.prose = "" ∧ turn.contentValue = .none) ∨
    (turn.prose ≠ "" ∧ turn.contentValue = .str turn.prose) := by
  unfold prose contentValue
  cases value : turn.content with
  | none => exact Or.inl ⟨rfl, rfl⟩
  | some s => exact Or.inr ⟨fun empty => turn.content_ne (value.trans (congrArg some empty)), rfl⟩

/-! ## A completion that is not streamed -/

/-- The JSON `body` is a completion with this turn. -/
inductive Whole (turn : AssistantTurn) : PyVal → Prop
  | completion (entries choice message : List (String × PyVal)) (more : List PyVal) :
    fieldOf entries "choices" = .list (.dict choice :: more) →
    Says (fieldOf choice "finish_reason") (turn.finish.getD "") →
    fieldOf choice "message" = .dict message →
    Says (fieldOf message "reasoning_content") (turn.reasoning.getD "") →
    fieldOf message "content" = turn.contentValue →
    (fieldOf message "tool_calls").or (.list []) =
      .list (turn.toolCalls.map ModelCall.toMessage) →
    Whole turn (.dict entries)

end AssistantTurn

/-! ## A streamed completion -/

/-- What one delta adds to the tool call `index`. -/
structure CallDelta where
  index : Nat
  id : String := ""
  name : String := ""
  arguments : String := ""

/-- What one event adds to the turn. -/
structure Chunk where
  reasoning : String := ""
  content : String := ""
  finish : String := ""
  calls : List CallDelta := []

/-- The value of one entry of `delta.tool_calls`. -/
inductive ShowsCall (delta : CallDelta) : PyVal → Prop
  | call (entries function : List (String × PyVal)) :
    PyVal.lookup entries "index" = some (.int delta.index) →
    Says (fieldOf entries "id") delta.id →
    (fieldOf entries "function").or (.dict []) = .dict function →
    Says (fieldOf function "name") delta.name →
    Says (fieldOf function "arguments") delta.arguments →
    ShowsCall delta (.dict entries)

/-- The value of one event: a delta, or no choice at all as in a usage report. -/
inductive Shows : Chunk → PyVal → Prop
  | delta (chunk : Chunk) (entries choice delta : List (String × PyVal))
      (more calls : List PyVal) :
    fieldOf entries "choices" = .list (.dict choice :: more) →
    Says (fieldOf choice "finish_reason") chunk.finish →
    (fieldOf choice "delta").or (.dict []) = .dict delta →
    Says (fieldOf delta "reasoning_content") chunk.reasoning →
    Says (fieldOf delta "content") chunk.content →
    (fieldOf delta "tool_calls").or (.list []) = .list calls →
    List.Forall₂ ShowsCall chunk.calls calls →
    Shows chunk (.dict entries)
  | usage (entries : List (String × PyVal)) :
    (fieldOf entries "choices").or (.list []) = .list [] →
    Shows {} (.dict entries)

/-- The lines of a reply carry these chunks, among lines that are not events; what
comes after `[DONE]` is not read. -/
inductive Carries (loads : String → Except Exn PyVal) : List String → List Chunk → Prop
  | nil : Carries loads [] []
  | done (data : String) (rest : List String) : strip data = "[DONE]" →
    Carries loads (("data:" ++ data) :: rest) []
  | comment (line : String) {rest : List String} {chunks : List Chunk} :
    ¬ "data:".toList <+: line.toList → Carries loads rest chunks →
    Carries loads (line :: rest) chunks
  | keepAlive (data : String) (exn : Exn) {rest : List String} {chunks : List Chunk} :
    strip data ≠ "[DONE]" → loads (strip data) = .error exn → exn.kind = .valueError →
    Carries loads rest chunks → Carries loads (("data:" ++ data) :: rest) chunks
  | event (data : String) (value : PyVal) {chunk : Chunk} {rest : List String}
      {chunks : List Chunk} :
    strip data ≠ "[DONE]" → loads (strip data) = .ok value → Shows chunk value →
    Carries loads rest chunks → Carries loads (("data:" ++ data) :: rest) (chunk :: chunks)

/-- The deltas of tool call `i`. -/
def deltasOf (deltas : List CallDelta) (i : Nat) : List CallDelta :=
  deltas.filter fun delta => delta.index = i

/-- What deltas of one call make together. -/
def joinDeltas (deltas : List CallDelta) : ModelCall :=
  ⟨lastSaid (deltas.map CallDelta.id), String.join (deltas.map CallDelta.name),
    String.join (deltas.map CallDelta.arguments)⟩

/-- The chunks make the turn: texts cut anywhere, the tool calls numbered in order,
their deltas in any order. -/
structure AssistantTurn.Splits (turn : AssistantTurn) (chunks : List Chunk) : Prop where
  reasoning : String.join (chunks.map Chunk.reasoning) = turn.reasoning.getD ""
  content : String.join (chunks.map Chunk.content) = turn.prose
  finish : lastSaid (chunks.map Chunk.finish) = turn.finish.getD ""
  numbered : ∀ delta ∈ chunks.flatMap Chunk.calls, delta.index < turn.toolCalls.length
  shown : ∀ i call, turn.toolCalls[i]? = some call →
    deltasOf (chunks.flatMap Chunk.calls) i ≠ [] ∧
    joinDeltas (deltasOf (chunks.flatMap Chunk.calls) i) = call

/-! ## Putting tool calls together -/

/-- The key of a call in the accumulator. -/
def callKey (i : Nat) : IndexKey := .number ((i : Int) : Rat)

theorem callKey_inj {i j : Nat} : callKey i = callKey j ↔ i = j := by
  unfold callKey
  rw [IndexKey.number.injEq]
  norm_cast

/-- An id that is not empty, or none. -/
def idValue (id : String) : PyVal := if id = "" then .none else .str id

/-- The accumulator's entry of a call. -/
def ModelCall.slot (call : ModelCall) : ToolCallSlot := ⟨idValue call.id, call.name, call.arguments⟩

/-- The accumulator holds what the deltas say. -/
structure Gathered (acc : Dict IndexKey ToolCallSlot) (deltas : List CallDelta) : Prop where
  slots : ∀ i, acc.get? (callKey i) =
    if deltasOf deltas i = [] then none else some (joinDeltas (deltasOf deltas i)).slot
  keys : ∀ key ∈ acc.keys, ∃ delta ∈ deltas, key = callKey delta.index

theorem gathered_empty : Gathered .empty [] :=
  ⟨fun _ => rfl, fun _ member => (List.not_mem_nil member).elim⟩

theorem deltasOf_append (deltas : List CallDelta) (delta : CallDelta) (i : Nat) :
    deltasOf (deltas ++ [delta]) i =
      if delta.index = i then deltasOf deltas i ++ [delta] else deltasOf deltas i := by
  unfold deltasOf
  rw [List.filter_append]
  by_cases same : delta.index = i <;> simp [same]

theorem joinDeltas_append (deltas : List CallDelta) (delta : CallDelta) :
    joinDeltas (deltas ++ [delta]) =
      ⟨if delta.id = "" then (joinDeltas deltas).id else delta.id,
        (joinDeltas deltas).name ++ delta.name,
        (joinDeltas deltas).arguments ++ delta.arguments⟩ := by
  unfold joinDeltas
  simp only [List.map_append, List.map_cons, List.map_nil, lastSaid_append, String.join_append,
    String.join_cons, String.join_nil, String.append_empty]

theorem extend_told {value : PyVal} {s : String} (told : Says value s) (text : String) :
    extend text value = .ok (text ++ s) := by
  unfold extend
  rcases told.cases with ⟨truthy, -, same⟩ | ⟨falsy, rfl⟩
  · rw [truthy, if_pos rfl, same]
    rfl
  · rw [falsy, if_neg (by decide), String.append_empty]
    rfl

/-- The id of a slot after a delta. -/
theorem idValue_after {value : PyVal} {id : String} (told : Says value id)
    (known : String) :
    (if value.truthy then value else idValue known) =
      idValue (if id = "" then known else id) := by
  rcases told.cases with ⟨truthy, some, same⟩ | ⟨falsy, rfl⟩
  · rw [truthy, if_pos rfl, if_neg some, same]
    unfold idValue
    rw [if_neg some]
  · rw [falsy, if_neg (by decide), if_pos rfl]

/-- The entry the accumulator starts a delta of call `i` from. -/
theorem slot_before {acc : Dict IndexKey ToolCallSlot} {deltas : List CallDelta}
    (gathered : Gathered acc deltas) (i : Nat) :
    (acc.get? (callKey i)).getD ⟨.none, "", ""⟩ = (joinDeltas (deltasOf deltas i)).slot := by
  rw [gathered.slots]
  split
  · next none =>
    rw [none]
    rfl
  · rfl

/-- **One delta.** -/
theorem gathered_accumulate {acc : Dict IndexKey ToolCallSlot} {deltas : List CallDelta}
    (gathered : Gathered acc deltas) {delta : CallDelta} {value : PyVal}
    (shows : ShowsCall delta value) :
    ∃ acc', accumulateToolCall acc value = .ok acc' ∧ Gathered acc' (deltas ++ [delta]) := by
  obtain ⟨entries, function, index, id, called, name, arguments⟩ := shows
  have before := slot_before gathered delta.index
  refine ⟨acc.set (callKey delta.index)
    (joinDeltas (deltasOf deltas delta.index ++ [delta])).slot, ?_, ⟨fun i => ?_, ?_⟩⟩
  · have key : IndexKey.number ((delta.index : Int) : Rat) = callKey delta.index := rfl
    have read : (PyVal.dict entries).getD "index" (.int 0) = .ok (.int delta.index) := by
      simp only [PyVal.getD, index, Option.getD_some]
    unfold accumulateToolCall
    simp only [read, get_dict, called, bind, Except.bind, indexKey, pure, Except.pure]
    rw [key, before, extend_told name, extend_told arguments, joinDeltas_append]
    unfold ModelCall.slot
    dsimp only
    rw [idValue_after id]
  · rw [Dict.get?_set, gathered.slots, deltasOf_append]
    by_cases same : i = delta.index
    · subst same
      rw [if_pos rfl, if_pos rfl, if_neg (by simp)]
    · have other : callKey i ≠ callKey delta.index := fun eq => same (callKey_inj.mp eq)
      rw [if_neg other, if_neg (Ne.symm same)]
  · intro key member
    rw [Dict.mem_keys, Dict.get?_set] at member
    by_cases same : key = callKey delta.index
    · exact ⟨delta, List.mem_append_right _ List.mem_cons_self, same⟩
    · rw [if_neg same, ← Dict.mem_keys] at member
      obtain ⟨earlier, inside, eq⟩ := gathered.keys key member
      exact ⟨earlier, List.mem_append_left _ inside, eq⟩

/-- **All deltas of one event.** -/
theorem gathered_fold {acc : Dict IndexKey ToolCallSlot} {deltas more : List CallDelta}
    {values : List PyVal} (gathered : Gathered acc deltas)
    (shown : List.Forall₂ ShowsCall more values) :
    ∃ acc', values.foldlM accumulateToolCall acc = .ok acc' ∧
      Gathered acc' (deltas ++ more) := by
  induction shown generalizing acc deltas with
  | nil => exact ⟨acc, rfl, by rwa [List.append_nil]⟩
  | @cons delta value more values shows _ ih =>
    obtain ⟨acc₁, added, gathered₁⟩ := gathered_accumulate gathered shows
    obtain ⟨acc₂, rest, gathered₂⟩ := ih gathered₁
    refine ⟨acc₂, ?_, by rwa [List.append_assoc] at gathered₂⟩
    rw [List.foldlM_cons, added]
    exact rest

/-! ## The finished list -/

/-- The numbers `0 .. n - 1` in any order, sorted. -/
theorem mergeSort_range {numbers : List Nat} {n : Nat} (same : numbers.Perm (List.range n)) :
    numbers.mergeSort (fun i j => decide (i ≤ j)) = List.range n := by
  have sorted := List.pairwise_mergeSort' (· ≤ ·) numbers
  exact ((List.mergeSort_perm numbers _).trans same).eq_of_pairwise'
    (r := (· ≤ ·)) sorted List.pairwise_le_range

/-- **The keys of the calls are sorted** to the order of the calls. -/
theorem sortedKeys_calls {numbers : List Nat} {n : Nat} (same : numbers.Perm (List.range n)) :
    sortedKeys (numbers.map callKey) = .ok ((List.range n).map callKey) := by
  unfold sortedKeys
  split
  · next short =>
    have length := same.length_eq
    rw [List.length_map] at short
    rw [List.length_range] at length
    rcases n with - | - | n
    · rw [same.eq_nil]
      rfl
    · rw [List.perm_singleton.mp same]
      rfl
    · omega
  · rw [if_pos, ← mergeSort_range same]
    · refine congrArg Except.ok (List.map_mergeSort fun i _ j _ => ?_).symm
      unfold callKey
      rw [decide_eq_decide]
      norm_cast
    · rw [List.all_map, List.all_eq_true]
      intro i _
      rfl

/-- Every call has its key, and every key is a call's. -/
theorem keys_perm {acc : Dict IndexKey ToolCallSlot} {deltas : List CallDelta}
    (gathered : Gathered acc deltas) {n : Nat}
    (numbered : ∀ delta ∈ deltas, delta.index < n)
    (shown : ∀ i < n, deltasOf deltas i ≠ []) :
    ∃ numbers : List Nat, acc.keys = numbers.map callKey ∧ numbers.Perm (List.range n) := by
  have keyed : acc.keys ∈ Set.range (List.map callKey) := by
    rw [Set.range_list_map]
    intro key member
    obtain ⟨delta, -, same⟩ := gathered.keys key member
    exact ⟨delta.index, same.symm⟩
  obtain ⟨numbers, same⟩ := keyed
  have nodup : numbers.Nodup := List.Nodup.of_map callKey (same ▸ acc.nodup)
  refine ⟨numbers, same.symm, (List.perm_ext_iff_of_nodup nodup List.nodup_range).mpr fun i => ?_⟩
  have key : i ∈ numbers ↔ callKey i ∈ acc.keys := by
    rw [← same]
    exact (List.mem_map_of_injective fun _ _ => callKey_inj.mp).symm
  rw [key, List.mem_range]
  constructor
  · intro member
    obtain ⟨delta, inside, eq⟩ := gathered.keys _ member
    rw [callKey_inj.mp eq]
    exact numbered delta inside
  · intro inside
    rw [Dict.mem_keys, gathered.slots, if_neg (shown i inside)]
    rfl

/-- Reading a list at every index. -/
theorem filterMap_range {α β : Type} (l : List α) (f : α → β) :
    (List.range l.length).filterMap (fun i => l[i]?.map f) = l.map f := by
  induction l with
  | nil => rfl
  | cons a l ih =>
    rw [List.length_cons, List.range_succ_eq_map, List.filterMap_cons, List.filterMap_map]
    exact congrArg (f a :: ·) ih

/-- **What a streamed turn's tool calls become.**  They are the turn's, except that an
empty id is `None`. -/
theorem assembled_calls {acc : Dict IndexKey ToolCallSlot} {turn : AssistantTurn}
    {chunks : List Chunk} (gathered : Gathered acc (chunks.flatMap Chunk.calls))
    (splits : turn.Splits chunks) :
    acc.entries.length = turn.toolCalls.length ∧ assembledToolCalls acc =
      .ok (turn.toolCalls.map fun call => call.slot.toMessage) := by
  have shown : ∀ i < turn.toolCalls.length,
      deltasOf (chunks.flatMap Chunk.calls) i ≠ [] := fun i inside =>
    (splits.shown i _ (List.getElem?_eq_getElem inside)).1
  obtain ⟨numbers, keys, perm⟩ := keys_perm gathered splits.numbered shown
  constructor
  · have length := perm.length_eq
    rw [List.length_range, ← List.length_map callKey, ← keys] at length
    rw [← length]
    exact (List.length_map _).symm
  · unfold assembledToolCalls
    rw [keys, sortedKeys_calls perm]
    change Except.ok _ = Except.ok _
    have values : ((List.range turn.toolCalls.length).map callKey).filterMap acc.get? =
        turn.toolCalls.map ModelCall.slot := by
      rw [List.filterMap_map]
      refine (List.filterMap_congr fun i inside => ?_).trans (filterMap_range turn.toolCalls _)
      have call := List.getElem?_eq_getElem (List.mem_range.mp inside)
      obtain ⟨some, joined⟩ := splits.shown i _ call
      rw [Function.comp_apply, gathered.slots, if_neg some, joined, call]
      rfl
    rw [values, List.map_map]
    rfl

end Oumigo
