import Oumigo.Foundation.Exposition
import Oumigo.Metrics.Prometheus

/-!
# The transformer backend's metrics, as the worker reads them

`_VLLMStats` of `service/worker/hf_server.py` keeps the aggregates of the requests it
served and prints them in vLLM's format; `_parse_prometheus` reads them.
`stats_round_trip`: what the worker reads is what the calls add up to.

The calls are newest first.
-/

namespace Oumigo

open Python

/-- `_FINISH_REASONS`. -/
def finishReasons : List String := ["abort", "error", "length", "repetition", "stop"]

/-- `_VLLMStats`. -/
structure VllmStats where
  promptTokensTotal : Int := 0
  generationTokensTotal : Int := 0
  success : Dict String Int :=
    finishReasons.foldl (fun success reason => success.set reason 0) .empty
  latencyCount : Nat := 0
  latencyMin : Rat := 0
  latencyMax : Rat := 0
  latencyMean : Rat := 0
  numRunning : Int := 0

/-- A call of a method that writes. -/
inductive StatsCall where
  | incRunning
  | decRunning
  | record (latency : Rat) (promptTokens completionTokens : Int) (finishReason : String)

namespace VllmStats

/-- `record`. -/
def record (s : VllmStats) (latency : Rat) (promptTokens completionTokens : Int)
    (finishReason : String) : VllmStats :=
  let n := s.latencyCount
  { s with
    promptTokensTotal := s.promptTokensTotal + promptTokens
    generationTokensTotal := s.generationTokensTotal + completionTokens
    success := s.success.set finishReason ((s.success.get? finishReason).getD 0 + 1)
    latencyMin := if n = 0 then latency else min s.latencyMin latency
    latencyMax := if n = 0 then latency else max s.latencyMax latency
    latencyMean := if n = 0 then latency else (latency + s.latencyMean * n) / (n + 1)
    latencyCount := n + 1 }

/-- One call. -/
def call (s : VllmStats) : StatsCall → VllmStats
  | .incRunning => { s with numRunning := s.numRunning + 1 }
  | .decRunning => { s with numRunning := max 0 (s.numRunning - 1) }
  | .record latency promptTokens completionTokens finishReason =>
      s.record latency promptTokens completionTokens finishReason

/-- The statistics after some calls, newest first. -/
def after : List StatsCall → VllmStats
  | [] => {}
  | c :: earlier => (after earlier).call c

/-- The family of the latency aggregates. -/
def e2e : String := "vllm:e2e_request_latency_seconds"

/-- The lines of `render`. -/
def lines (s : VllmStats) : List String :=
  ["vllm:num_requests_running " ++ toString s.numRunning,
    "vllm:prompt_tokens_total " ++ toString s.promptTokensTotal,
    "vllm:generation_tokens_total " ++ toString s.generationTokensTotal] ++
  finishReasons.map (fun reason => "vllm:request_success_total\x7bfinished_reason=\"" ++ reason ++
    "\"\x7d " ++ toString ((s.success.get? reason).getD 0)) ++
  [e2e ++ "_count " ++ toString s.latencyCount] ++
  (if s.latencyCount > 0 then
    [e2e ++ "_min " ++ fixed 6 s.latencyMin,
      e2e ++ "_max " ++ fixed 6 s.latencyMax,
      e2e ++ "_mean " ++ fixed 6 s.latencyMean]
  else [])

/-- `render`. -/
def render (s : VllmStats) : String := String.intercalate "\n" s.lines ++ "\n"

end VllmStats

/-! ## Reading one line -/

/-- The name of a series of the metrics, with nothing in it that the parser cuts at. -/
structure Series (name : String) : Prop where
  nonempty : name ≠ ""
  clean : ∀ c ∈ name.toList, isSpace c = false ∧ c ≠ '\x7b' ∧ c ≠ '#'
  starts : startsWith "vllm:" name = true
  info : beforeEnd "_info" name = none
  created : beforeEnd "_created" name = none
  excluded : (excludedStarts.any fun excluded => startsWith excluded name) = false

/-- A check that a name is that of a series. -/
def isSeries (name : String) : Bool :=
  name ≠ "" && name.toList.all (fun c => !isSpace c && c ≠ '\x7b' && c ≠ '#') &&
  startsWith "vllm:" name && (beforeEnd "_info" name).isNone &&
  (beforeEnd "_created" name).isNone &&
  !(excludedStarts.any fun excluded => startsWith excluded name)

theorem series_of_check {name : String} (check : isSeries name = true) : Series name := by
  unfold isSeries at check
  simp only [Bool.and_eq_true, decide_eq_true_eq, List.all_eq_true, Bool.not_eq_true',
    Option.isNone_iff_eq_none] at check
  obtain ⟨⟨⟨⟨⟨nonempty, clean⟩, starts⟩, info⟩, created⟩, excluded⟩ := check
  refine ⟨nonempty, fun c member => ?_, starts, info, created, excluded⟩
  obtain ⟨⟨visible, brace⟩, comment⟩ := clean c member
  exact ⟨visible, brace, comment⟩

/-- The text of a number. -/
structure Number (text : String) (value : PyFloat) : Prop where
  some : text ≠ ""
  plain : ∀ c ∈ text.toList, Plain c
  read : floatOf text = .some value

section Lines

variable {name labels text : String} {value : PyFloat}

theorem number_int (i : Int) : Number (toString i) (.num i) where
  some := by
    intro empty
    have read := floatOf_int i
    rw [empty] at read
    have none : floatOf "" = none := by decide
    rw [none] at read
    cases read
  plain := by
    intro c member
    cases i with
    | ofNat n =>
      have digits : (toString (Int.ofNat n)).toList = Nat.toDigits 10 n := Nat.toList_repr
      exact Or.inl (isDigit_toDigits c (digits ▸ member))
    | negSucc n =>
      have digits : (toString (Int.negSucc n)).toList = '-' :: Nat.toDigits 10 (n + 1) := by
        show ("-" ++ toString (n + 1)).toList = _
        simp
      rw [digits] at member
      rcases List.mem_cons.mp member with rfl | digit
      · exact Or.inr (Or.inl rfl)
      · exact Or.inl (isDigit_toDigits c digit)
  read := floatOf_int i

theorem number_nat (n : Nat) : Number (toString n) (.num n) := by
  have number := number_int n
  rw [Int.cast_natCast] at number
  exact number

theorem number_fixed {decimals : Nat} (positive : 0 < decimals) (q : Rat) :
    Number (fixed decimals q) (.num (roundTo decimals q)) where
  some := by
    intro empty
    have read := floatOf_fixed positive q
    rw [empty] at read
    have none : floatOf "" = none := by decide
    rw [none] at read
    cases read
  plain := by
    intro c member
    unfold fixed at member
    rw [String.toList_ofList] at member
    rcases List.mem_append.mp member with front | point
    · rcases List.mem_append.mp front with minus | digit
      · split at minus
        · exact Or.inr (Or.inl (List.mem_singleton.mp minus))
        · cases minus
      · exact Or.inl (isDigit_toDigits c digit)
    · rcases List.mem_cons.mp point with rfl | digit
      · exact Or.inr (Or.inr rfl)
      · exact Or.inl (zeroPad_digits isDigit_toDigits c digit)
  read := floatOf_fixed positive q

theorem Number.visible (number : Number text value) : ∀ c ∈ text.toList, isSpace c = false :=
  fun c member => (number.plain c member).isSpace

theorem Number.no_brace (number : Number text value) : '\x7b' ∉ text.toList := by
  intro member
  rcases number.plain _ member with digit | same | same
  · exact absurd digit (by decide)
  · exact absurd same (by decide)
  · exact absurd same (by decide)

/-- A line that begins with a series and does not end with a space is read as it is. -/
theorem strip_line {rest : String} (series : Series name) (ends : rest ≠ "")
    (last : ∀ c ∈ rest.toList.getLast?, isSpace c = false) :
    strip (name ++ rest) = name ++ rest ∧ name ++ rest ≠ "" ∧
      startsWith "#" (name ++ rest) = false := by
  have some : name.toList ≠ [] := by simpa using series.nonempty
  have ends : rest.toList ≠ [] := by simpa using ends
  obtain ⟨c, tail, shape⟩ := List.exists_cons_of_ne_nil some
  have first : (name ++ rest).toList.head? = .some c := by
    rw [String.toList_append, shape]
    rfl
  obtain ⟨visible, -, comment⟩ := series.clean c (shape ▸ List.mem_cons_self)
  refine ⟨strip_eq_self ?_ ?_, ?_, ?_⟩
  · intro d head
    rw [first] at head
    cases head
    exact visible
  · intro d final
    rw [String.toList_append, List.getLast?_append_of_ne_nil _ ends] at final
    exact last d final
  · intro empty
    rw [empty] at first
    cases first
  · cases whole : (name ++ rest).toList with
    | nil => rw [whole] at first; cases first
    | cons d tail =>
      rw [whole] at first
      cases first
      unfold startsWith
      rw [whole]
      have other : ('#' == c) = false := by simpa using comment.symm
      show ('#' == c && [].isPrefixOf tail) = false
      rw [other]
      rfl

theorem strip_series (series : Series name) : strip name = name :=
  strip_eq_self (fun c head => (series.clean c (List.mem_of_head? head)).1)
    fun c last => (series.clean c (List.mem_of_getLast? last)).1

/-- The sample of a name, its labels, and what follows on the line. -/
def readTail (name : String) (labels : Dict String String) (tail : String) : Option Sample :=
  (split tail).head?.bind fun token => (floatOf token).map fun value => ⟨name, labels, value⟩

theorem readTail_cons {labels : Dict String String} {tail token : String} {more : List String}
    (tokens : split tail = token :: more) :
    readTail name labels tail = (floatOf token).map fun value => ⟨name, labels, value⟩ := by
  unfold readTail
  rw [tokens, List.head?_cons, Option.bind_some]

/-- A line without labels. -/
theorem sampleOf_bare {tail : String} (series : Series name) (unlabelled : '\x7b' ∉ tail.toList)
    (last : ∀ c ∈ (" " ++ tail).toList.getLast?, isSpace c = false) :
    sampleOf "vllm:" (name ++ (" " ++ tail)) = readTail name .empty tail := by
  obtain ⟨stripped, nonempty, comment⟩ := strip_line series (by simp) last
  have brace : '\x7b' ∉ (name ++ (" " ++ tail)).toList := by
    rw [String.toList_append, String.toList_append]
    intro member
    rcases List.mem_append.mp member with inside | member
    · exact (series.clean _ inside).2.1 rfl
    · rcases List.mem_append.mp member with space | back
      · exact absurd space (by decide)
      · exact unlabelled back
  have space : ' ' ∉ name.toList := fun member => absurd (series.clean _ member).1 (by decide)
  have cut : partition (name ++ (" " ++ tail)) ' ' = (name, tail) :=
    partition_of_toList (by simp) space
  have none : dictOf (findLabels "".toList.length "".toList) = .empty := rfl
  unfold sampleOf readTail
  rw [stripped]
  dsimp only
  rw [if_neg (by simp [nonempty, comment]), if_neg brace, cut]
  dsimp only
  rw [strip_series series, series.starts, series.info, series.created, series.excluded,
    if_neg (by decide), if_neg (by decide), none]
  cases split tail with
  | nil => rw [List.head?_nil, Option.bind_none]
  | cons token more => rw [List.head?_cons, Option.bind_some]

/-- A line with braces; the labels end at the first closing one. -/
theorem sampleOf_braced {tail : String} (series : Series name) (closed : '\x7d' ∉ labels.toList)
    (last : ∀ c ∈ ("\x7b" ++ labels ++ "\x7d" ++ tail).toList.getLast?, isSpace c = false) :
    sampleOf "vllm:" (name ++ ("\x7b" ++ labels ++ "\x7d" ++ tail)) =
      readTail name (dictOf (findLabels labels.toList.length labels.toList)) tail := by
  obtain ⟨stripped, nonempty, comment⟩ := strip_line series (by simp) last
  have brace : '\x7b' ∈ (name ++ ("\x7b" ++ labels ++ "\x7d" ++ tail)).toList := by
    simp only [String.toList_append]
    exact List.mem_append_right _ (List.mem_append_left _ (List.mem_append_left _
      (List.mem_append_left _ List.mem_cons_self)))
  have opened : '\x7b' ∉ name.toList := fun member => (series.clean _ member).2.1 rfl
  have cut : partition (name ++ ("\x7b" ++ labels ++ "\x7d" ++ tail)) '\x7b' =
      (name, labels ++ "\x7d" ++ tail) := partition_of_toList (by simp) opened
  have cut' : partition (labels ++ "\x7d" ++ tail) '\x7d' = (labels, tail) :=
    partition_of_toList (by simp) closed
  unfold sampleOf readTail
  rw [stripped]
  dsimp only
  rw [if_neg (by simp [nonempty, comment]), if_pos brace, cut]
  dsimp only
  rw [cut']
  dsimp only
  rw [strip_series series, series.starts, series.info, series.created, series.excluded,
    if_neg (by decide), if_neg (by decide)]
  cases split tail with
  | nil => rw [List.head?_nil, Option.bind_none]
  | cons token more => rw [List.head?_cons, Option.bind_some]

theorem Number.last (number : Number text value) {front : String} :
    ∀ c ∈ (front ++ text).toList.getLast?, isSpace c = false := by
  have ends : text.toList ≠ [] := by simpa using number.some
  intro c last
  rw [String.toList_append, List.getLast?_append_of_ne_nil _ ends] at last
  exact number.visible c (List.mem_of_getLast? last)

/-- What a line without labels says before its number. -/
structure LineHead (name head : String) : Prop where
  series : Series name
  split : head = name ++ " "

variable {head : String}

theorem sampleOf_series (front : LineHead name head) (number : Number text value) :
    sampleOf "vllm:" (head ++ text) = some ⟨name, .empty, value⟩ := by
  rw [front.split, String.append_assoc, sampleOf_bare front.series number.no_brace number.last,
    readTail_cons (split_token number.some number.visible), number.read]
  rfl

theorem Number.unbroken (number : Number text value) :
    ∀ c ∈ text.toList, isLineBreak c = false :=
  fun c member => not_isLineBreak (number.visible c member)

theorem LineHead.unbroken (front : LineHead name head) (number : Number text value) :
    ∀ c ∈ (head ++ text).toList, isLineBreak c = false := by
  intro c member
  rw [front.split, String.toList_append, String.toList_append] at member
  rcases List.mem_append.mp member with before | digit
  · rcases List.mem_append.mp before with inside | space
    · exact not_isLineBreak (front.series.clean c inside).1
    · rw [List.mem_singleton.mp space]
      decide
  · exact number.unbroken c digit

theorem sampleOf_labelled (series : Series name) (closed : '\x7d' ∉ labels.toList)
    (number : Number text value) :
    sampleOf "vllm:" (name ++ ("\x7b" ++ labels ++ "\x7d ") ++ text) =
      some ⟨name, dictOf (findLabels labels.toList.length labels.toList), value⟩ := by
  have whole : name ++ ("\x7b" ++ labels ++ "\x7d ") ++ text =
      name ++ ("\x7b" ++ labels ++ "\x7d" ++ (" " ++ text)) := by
    apply String.toList_inj.mp
    simp
  have last : ∀ c ∈ ("\x7b" ++ labels ++ "\x7d" ++ (" " ++ text)).toList.getLast?,
      isSpace c = false := by
    rw [← String.append_assoc]
    exact number.last
  rw [whole, sampleOf_braced series closed last,
    readTail_cons (split_space_token number.some number.visible), number.read]
  rfl

end Lines

/-! ## Reading them all -/

namespace VllmStats

variable (s : VllmStats)

/-- The samples of the counters and the gauge. -/
def printedScalars : List Sample :=
  [⟨"vllm:num_requests_running", .empty, .num s.numRunning⟩,
    ⟨"vllm:prompt_tokens_total", .empty, .num s.promptTokensTotal⟩,
    ⟨"vllm:generation_tokens_total", .empty, .num s.generationTokensTotal⟩] ++
  finishReasons.map fun reason => ⟨"vllm:request_success_total",
    dictOf [("finished_reason", reason)], .num ((s.success.get? reason).getD 0 : Int)⟩

/-- The samples of the printed lines. -/
def printed : List Sample :=
  s.printedScalars ++
  [⟨e2e ++ "_count", .empty, .num s.latencyCount⟩] ++
  (if s.latencyCount > 0 then
    [⟨e2e ++ "_min", .empty, .num (roundTo 6 s.latencyMin)⟩,
      ⟨e2e ++ "_max", .empty, .num (roundTo 6 s.latencyMax)⟩,
      ⟨e2e ++ "_mean", .empty, .num (roundTo 6 s.latencyMean)⟩]
  else [])

/-- The names of the lines without labels, and what stands before their numbers. -/
def lineHeads : List (String × String) :=
  [("vllm:num_requests_running", "vllm:num_requests_running "),
    ("vllm:prompt_tokens_total", "vllm:prompt_tokens_total "),
    ("vllm:generation_tokens_total", "vllm:generation_tokens_total "),
    (e2e ++ "_count", e2e ++ "_count "), (e2e ++ "_min", e2e ++ "_min "),
    (e2e ++ "_max", e2e ++ "_max "), (e2e ++ "_mean", e2e ++ "_mean ")]

theorem lineHead_of_mem {name head : String} (known : (name, head) ∈ lineHeads) :
    LineHead name head := by
  have checked : ∀ entry ∈ lineHeads, isSeries entry.1 = true ∧ entry.2 = entry.1 ++ " " := by
    decide +kernel
  obtain ⟨check, split⟩ := checked _ known
  exact ⟨series_of_check check, split⟩

theorem head_running : LineHead "vllm:num_requests_running" "vllm:num_requests_running " :=
  lineHead_of_mem List.mem_cons_self

theorem head_prompt : LineHead "vllm:prompt_tokens_total" "vllm:prompt_tokens_total " :=
  lineHead_of_mem (.tail _ List.mem_cons_self)

theorem head_generation :
    LineHead "vllm:generation_tokens_total" "vllm:generation_tokens_total " :=
  lineHead_of_mem (.tail _ (.tail _ List.mem_cons_self))

theorem head_count : LineHead (e2e ++ "_count") (e2e ++ "_count ") :=
  lineHead_of_mem (.tail _ (.tail _ (.tail _ List.mem_cons_self)))

theorem head_min : LineHead (e2e ++ "_min") (e2e ++ "_min ") :=
  lineHead_of_mem (.tail _ (.tail _ (.tail _ (.tail _ List.mem_cons_self))))

theorem head_max : LineHead (e2e ++ "_max") (e2e ++ "_max ") :=
  lineHead_of_mem (.tail _ (.tail _ (.tail _ (.tail _ (.tail _ List.mem_cons_self)))))

theorem head_mean : LineHead (e2e ++ "_mean") (e2e ++ "_mean ") :=
  lineHead_of_mem (.tail _ (.tail _ (.tail _ (.tail _ (.tail _ (.tail _ List.mem_cons_self))))))

/-- A finish reason has no character that the format treats specially. -/
theorem plain_reason : ∀ reason ∈ finishReasons, escape reason.toList = reason.toList ∧
    '\x7d' ∉ reason.toList ∧ (reason.toList.all fun c => !isLineBreak c) = true := by
  decide +kernel

/-- The texts around a finish reason. -/
theorem around_reason : isSeries "vllm:request_success_total" = true ∧
    ("finished_reason" ≠ "" && "finished_reason".toList.all isWord) = true ∧
    "finished_reason=\"".toList = "finished_reason".toList ++ ['=', quote] ∧
    "vllm:request_success_total\x7bfinished_reason=\"" =
      "vllm:request_success_total" ++ ("\x7b" ++ "finished_reason=\"") ∧
    '\x7d' ∉ "finished_reason=\"".toList ∧
    ("vllm:request_success_total\x7bfinished_reason=\"".toList.all
      fun c => !isLineBreak c) = true ∧ "\"\x7d " = "\"" ++ "\x7d " := by
  decide +kernel

/-- The text between the braces is that of one label. -/
theorem labelsText_reason {reason : String} (known : reason ∈ finishReasons) :
    ("finished_reason=\"" ++ reason ++ "\"").toList = labelsText [("finished_reason", reason)] ∧
      rawLabel ("finished_reason", reason) = ("finished_reason", reason) := by
  have plain := (plain_reason reason known).1
  have front := around_reason.2.2.1
  have back : "\"".toList = [quote] := rfl
  constructor
  · rw [String.toList_append, String.toList_append, front, back]
    simp [labelsText, labelText, plain]
  · rw [rawLabel, plain, String.ofList_toList]

/-- The line of a finish reason is the series with one label. -/
theorem sampleOf_reason {reason : String} (known : reason ∈ finishReasons) (i : Int) :
    sampleOf "vllm:" ("vllm:request_success_total\x7bfinished_reason=\"" ++ reason ++
      "\"\x7d " ++ toString i) =
    some ⟨"vllm:request_success_total", dictOf [("finished_reason", reason)], .num i⟩ := by
  obtain ⟨series, word, -, front, closed, -, back⟩ := around_reason
  have shape : "vllm:request_success_total\x7bfinished_reason=\"" ++ reason ++ "\"\x7d " ++
      toString i = "vllm:request_success_total" ++
        ("\x7b" ++ ("finished_reason=\"" ++ reason ++ "\"") ++ "\x7d ") ++ toString i := by
    rw [front, back]
    simp only [String.append_assoc]
  obtain ⟨text, raw⟩ := labelsText_reason known
  have named : ∀ label ∈ [("finished_reason", reason)], LabelName label.1 := by
    intro label member
    rw [List.mem_singleton.mp member]
    exact labelName_of_check word
  have inside : '\x7d' ∉ ("finished_reason=\"" ++ reason ++ "\"").toList := by
    rw [String.toList_append, String.toList_append]
    simp only [List.mem_append, not_or]
    exact ⟨⟨closed, (plain_reason reason known).2.1⟩, by decide⟩
  rw [shape, sampleOf_labelled (series_of_check series) inside (number_int i), text,
    findLabels_labelsText named le_rfl, List.map_singleton, raw]

theorem unbroken_reason {reason : String} (known : reason ∈ finishReasons) (i : Int) :
    ∀ c ∈ ("vllm:request_success_total\x7bfinished_reason=\"" ++ reason ++ "\"\x7d " ++
      toString i).toList, isLineBreak c = false := by
  have front := around_reason.2.2.2.2.2.1
  have inner := (plain_reason reason known).2.2
  have back : ("\"\x7d ".toList.all fun c => !isLineBreak c) = true := by decide
  intro c member
  simp only [String.toList_append, List.mem_append] at member
  rcases member with ((before | inside) | after) | digit
  · simpa using List.all_eq_true.mp front c before
  · simpa using List.all_eq_true.mp inner c inside
  · simpa using List.all_eq_true.mp back c after
  · exact (number_int i).unbroken c digit

theorem filterMap_reasons :
    (finishReasons.map fun reason => "vllm:request_success_total\x7bfinished_reason=\"" ++
        reason ++ "\"\x7d " ++ toString ((s.success.get? reason).getD 0)).filterMap
      (sampleOf "vllm:") =
    finishReasons.map fun reason => ⟨"vllm:request_success_total",
      dictOf [("finished_reason", reason)], .num ((s.success.get? reason).getD 0 : Int)⟩ := by
  rw [List.filterMap_map, ← List.filterMap_eq_map]
  refine List.filterMap_congr fun reason known => ?_
  simp only [Function.comp_apply]
  exact sampleOf_reason known ((s.success.get? reason).getD 0)

theorem sampleOf_running : sampleOf "vllm:" ("vllm:num_requests_running " ++
    toString s.numRunning) = some ⟨"vllm:num_requests_running", .empty, .num s.numRunning⟩ :=
  sampleOf_series head_running (number_int _)

theorem sampleOf_prompt : sampleOf "vllm:" ("vllm:prompt_tokens_total " ++
    toString s.promptTokensTotal) =
      some ⟨"vllm:prompt_tokens_total", .empty, .num s.promptTokensTotal⟩ :=
  sampleOf_series head_prompt (number_int _)

theorem sampleOf_generation : sampleOf "vllm:" ("vllm:generation_tokens_total " ++
    toString s.generationTokensTotal) =
      some ⟨"vllm:generation_tokens_total", .empty, .num s.generationTokensTotal⟩ :=
  sampleOf_series head_generation (number_int _)

theorem sampleOf_count : sampleOf "vllm:" (e2e ++ "_count " ++ toString s.latencyCount) =
    some ⟨e2e ++ "_count", .empty, .num s.latencyCount⟩ :=
  sampleOf_series head_count (number_nat _)

theorem sampleOf_min : sampleOf "vllm:" (e2e ++ "_min " ++ fixed 6 s.latencyMin) =
    some ⟨e2e ++ "_min", .empty, .num (roundTo 6 s.latencyMin)⟩ :=
  sampleOf_series head_min (number_fixed (by decide) _)

theorem sampleOf_max : sampleOf "vllm:" (e2e ++ "_max " ++ fixed 6 s.latencyMax) =
    some ⟨e2e ++ "_max", .empty, .num (roundTo 6 s.latencyMax)⟩ :=
  sampleOf_series head_max (number_fixed (by decide) _)

theorem sampleOf_mean : sampleOf "vllm:" (e2e ++ "_mean " ++ fixed 6 s.latencyMean) =
    some ⟨e2e ++ "_mean", .empty, .num (roundTo 6 s.latencyMean)⟩ :=
  sampleOf_series head_mean (number_fixed (by decide) _)

theorem filterMap_lines : s.lines.filterMap (sampleOf "vllm:") = s.printed := by
  unfold lines printed printedScalars
  rw [List.filterMap_append, List.filterMap_append, List.filterMap_append, filterMap_reasons,
    List.filterMap_cons_some s.sampleOf_running, List.filterMap_cons_some s.sampleOf_prompt,
    List.filterMap_cons_some s.sampleOf_generation, List.filterMap_cons_some s.sampleOf_count]
  split
  · rw [List.filterMap_cons_some s.sampleOf_min, List.filterMap_cons_some s.sampleOf_max,
      List.filterMap_cons_some s.sampleOf_mean]
    rfl
  · rfl

/-- No line holds a line break. -/
theorem lines_whole : ∀ l ∈ s.lines, ∀ c ∈ l.toList, isLineBreak c = false := by
  intro l member
  unfold lines at member
  rcases List.mem_append.mp member with front | stats
  · rcases List.mem_append.mp front with front | count
    · rcases List.mem_append.mp front with scalar | reason
      · simp only [List.mem_cons, List.not_mem_nil, or_false] at scalar
        rcases scalar with rfl | rfl | rfl
        · exact head_running.unbroken (number_int _)
        · exact head_prompt.unbroken (number_int _)
        · exact head_generation.unbroken (number_int _)
      · obtain ⟨name, known, rfl⟩ := List.mem_map.mp reason
        exact unbroken_reason known _
    · rw [List.mem_singleton.mp count]
      exact head_count.unbroken (number_nat _)
  · split at stats
    · simp only [List.mem_cons, List.not_mem_nil, or_false] at stats
      rcases stats with rfl | rfl | rfl
      · exact head_min.unbroken (number_fixed (by decide) _)
      · exact head_max.unbroken (number_fixed (by decide) _)
      · exact head_mean.unbroken (number_fixed (by decide) _)
    · cases stats

/-- **The parser reads the samples that were printed.** -/
theorem samples_render : samples "vllm:" s.render = s.printed := by
  have first : ∃ line rest, s.lines = line :: rest := ⟨_, _, rfl⟩
  obtain ⟨line, rest, shape⟩ := first
  have whole := s.lines_whole
  unfold samples render
  rw [shape] at whole ⊢
  rw [splitlines_join whole, ← shape, filterMap_lines]

/-! ## What the worker reads -/

/-- The counters and the gauge. -/
def scalarsOf : List (String × PyFloat) :=
  [("vllm:num_requests_running", .num s.numRunning),
    ("vllm:prompt_tokens_total", .num s.promptTokensTotal),
    ("vllm:generation_tokens_total", .num s.generationTokensTotal)] ++
  finishReasons.map fun reason => ("vllm:request_success_total_" ++ reason,
    .num ((s.success.get? reason).getD 0 : Int))

/-- The latency summary. -/
def summaryOf : List (String × PyFloat) :=
  (e2e ++ "_count", .num s.latencyCount) ::
  if s.latencyCount > 0 then
    [(e2e ++ "_min", .num (roundTo 6 s.latencyMin)),
      (e2e ++ "_max", .num (roundTo 6 s.latencyMax)),
      (e2e ++ "_mean", .num (roundTo 6 s.latencyMean))]
  else []

/-- What becomes of the printed samples. -/
theorem route_printed : (∀ name ∈ ["vllm:num_requests_running", "vllm:prompt_tokens_total",
      "vllm:generation_tokens_total"], route name .empty = .scalar name) ∧
    (∀ reason ∈ finishReasons,
      route "vllm:request_success_total" (dictOf [("finished_reason", reason)]) =
        .scalar ("vllm:request_success_total_" ++ reason)) ∧
    route (e2e ++ "_count") .empty = .count e2e "" ∧
    ∀ stat ∈ preAggregated, route (e2e ++ "_" ++ stat) .empty = .stat e2e "" stat := by
  decide +kernel

theorem stat_names : e2e ++ "_min" = e2e ++ "_" ++ "min" ∧
    e2e ++ "_max" = e2e ++ "_" ++ "max" ∧ e2e ++ "_mean" = e2e ++ "_" ++ "mean" := by
  decide +kernel

/-- The family of the latency after the printed samples. -/
def family : Family where
  count := .num s.latencyCount
  stats :=
    if s.latencyCount > 0 then
      ((Dict.empty.set "min" (.num (roundTo 6 s.latencyMin))).set "max"
        (.num (roundTo 6 s.latencyMax))).set "mean" (.num (roundTo 6 s.latencyMean))
    else .empty

theorem take_stat (into : Scrape) {stat : String} (known : stat ∈ preAggregated)
    (value : PyFloat) : into.take ⟨e2e ++ "_" ++ stat, .empty, value⟩ =
      into.patch (e2e, "") fun fam => { fam with stats := fam.stats.set stat value } := by
  unfold Scrape.take
  rw [route_printed.2.2.2 stat known]

theorem take_count (into : Scrape) (value : PyFloat) :
    into.take ⟨e2e ++ "_count", .empty, value⟩ =
      into.patch (e2e, "") fun fam => { fam with count := value } := by
  unfold Scrape.take
  rw [route_printed.2.2.1]

theorem take_named (into : Scrape) {name : String} (value : PyFloat)
    (known : name ∈ ["vllm:num_requests_running", "vllm:prompt_tokens_total",
      "vllm:generation_tokens_total"]) :
    into.take ⟨name, .empty, value⟩ = { into with scalars := into.scalars.set name value } := by
  have routed : route (Sample.mk name .empty value).name (Sample.mk name .empty value).labels =
      .scalar name := route_printed.1 name known
  rw [Scrape.take_scalar routed]

theorem foldl_scalars :
    s.printedScalars.foldl Scrape.take {} = { scalars := update .empty s.scalarsOf } := by
  have reasons (into : Scrape) := @Scrape.take_scalars into String finishReasons
    (fun reason => ⟨"vllm:request_success_total", dictOf [("finished_reason", reason)],
      .num ((s.success.get? reason).getD 0 : Int)⟩)
    (fun reason => "vllm:request_success_total_" ++ reason) route_printed.2.1
  unfold printedScalars
  rw [List.foldl_append, reasons, List.foldl_cons, List.foldl_cons, List.foldl_cons,
    take_named _ _ (by simp), take_named _ _ (by simp), take_named _ _ (by simp),
    scalarsOf, update_append]
  rfl

theorem scrape_render : scrape "vllm:" s.render =
    { scalars := update .empty s.scalarsOf
      hist := Dict.empty.set (e2e, "") s.family } := by
  have names := stat_names
  unfold scrape
  rw [samples_render, printed, List.foldl_append, List.foldl_append, foldl_scalars,
    List.foldl_cons, take_count, List.foldl_nil]
  unfold family
  split
  · rw [names.1, names.2.1, names.2.2, List.foldl_cons, take_stat _ (by decide), List.foldl_cons,
      take_stat _ (by decide), List.foldl_cons, take_stat _ (by decide), Scrape.patch_patch,
      Scrape.patch_patch, Scrape.patch_patch]
    rfl
  · rfl

theorem summary_family : s.family.summary e2e "" = s.summaryOf := by
  have names := stat_names
  have supplied : s.family.summary e2e "" = suppliedAggregates e2e s.family := rfl
  rw [supplied]
  unfold suppliedAggregates summaryOf family preAggregated
  by_cases some : s.latencyCount > 0
  · simp only [if_pos some, List.filterMap_cons, List.filterMap_nil, Dict.get?_set]
    simp [PyFloat.round, roundTo_roundTo, names]
  · simp only [if_neg some]
    rfl

theorem parse_render :
    parsePrometheus "vllm:" s.render = update .empty (s.scalarsOf ++ s.summaryOf) := by
  unfold parsePrometheus
  rw [scrape_render, update_append, ← summary_family]
  rfl

end VllmStats

/-! ## What the calls add up to -/

/-- The latencies of the records. -/
def latencies (calls : List StatsCall) : List Rat :=
  calls.filterMap fun
    | .record latency _ _ _ => some latency
    | _ => none

/-- The prompt tokens of the records. -/
def promptTokens (calls : List StatsCall) : Int :=
  (calls.map fun
    | .record _ prompt _ _ => prompt
    | _ => 0).sum

/-- The generated tokens of the records. -/
def completionTokens (calls : List StatsCall) : Int :=
  (calls.map fun
    | .record _ _ completion _ => completion
    | _ => 0).sum

/-- How many records have this finish reason. -/
def finished (reason : String) (calls : List StatsCall) : Int :=
  (calls.map fun
    | .record _ _ _ finishReason => if reason = finishReason then 1 else 0
    | _ => 0).sum

/-- The requests begun less those ended. -/
def balance (calls : List StatsCall) : Int :=
  (calls.map fun
    | .incRunning => 1
    | .decRunning => -1
    | .record _ _ _ _ => 0).sum

namespace VllmStats

variable {calls : List StatsCall}

theorem after_tokens (calls : List StatsCall) :
    (after calls).promptTokensTotal = promptTokens calls ∧
      (after calls).generationTokensTotal = completionTokens calls := by
  induction calls with
  | nil => exact ⟨rfl, rfl⟩
  | cons c earlier ih =>
    obtain ⟨prompt, completion⟩ := ih
    unfold promptTokens at prompt ⊢
    unfold completionTokens at completion ⊢
    cases c with
    | incRunning => simpa [after, call] using ⟨prompt, completion⟩
    | decRunning => simpa [after, call] using ⟨prompt, completion⟩
    | record latency p c reason =>
      simp [after, call, record, prompt, completion, add_comm]

theorem after_finished (reason : String) (calls : List StatsCall) :
    ((after calls).success.get? reason).getD 0 = finished reason calls := by
  induction calls with
  | nil =>
    have zero : ∀ success : Dict String Int, (success.get? reason).getD 0 = 0 →
        ∀ r, ((success.set r 0).get? reason).getD 0 = 0 := by
      intro success before r
      rw [Dict.get?_set]
      split
      · rfl
      · exact before
    exact zero _ (zero _ (zero _ (zero _ (zero _ rfl _) _) _) _) _
  | cons c earlier ih =>
    unfold finished at ih ⊢
    cases c with
    | incRunning => simpa [after, call] using ih
    | decRunning => simpa [after, call] using ih
    | record latency p c finishReason =>
      simp only [after, call, record, Dict.get?_set, List.map_cons, List.sum_cons]
      by_cases same : reason = finishReason
      · subst same
        simp [ih, add_comm]
      · simp [same, ih]

theorem after_count (calls : List StatsCall) :
    (after calls).latencyCount = (latencies calls).length := by
  induction calls with
  | nil => rfl
  | cons c earlier ih =>
    cases c with
    | incRunning => exact ih
    | decRunning => exact ih
    | record latency p c reason => exact congrArg Nat.succ ih

/-- The aggregates of the latencies, once there is one. -/
structure Aggregates (calls : List StatsCall) : Prop where
  least : (after calls).latencyMin ∈ latencies calls ∧
    ∀ x ∈ latencies calls, (after calls).latencyMin ≤ x
  greatest : (after calls).latencyMax ∈ latencies calls ∧
    ∀ x ∈ latencies calls, x ≤ (after calls).latencyMax
  mean : (after calls).latencyMean = (latencies calls).sum / (latencies calls).length

theorem after_aggregates (some : latencies calls ≠ []) : Aggregates calls := by
  induction calls with
  | nil => exact absurd rfl some
  | cons c earlier ih =>
    cases c with
    | incRunning =>
      have before := ih some
      exact ⟨before.least, before.greatest, before.mean⟩
    | decRunning =>
      have before := ih some
      exact ⟨before.least, before.greatest, before.mean⟩
    | record latency p c reason =>
      have told : latencies (.record latency p c reason :: earlier) =
          latency :: latencies earlier := rfl
      have count := after_count earlier
      by_cases first : latencies earlier = []
      · have zero : (after earlier).latencyCount = 0 := by rw [count, first]; rfl
        constructor
        · simp [after, call, record, told, first, zero]
        · simp [after, call, record, told, first, zero]
        · simp [after, call, record, told, first, zero]
      · obtain ⟨least, greatest, mean⟩ := ih first
        have positive : 0 < (latencies earlier).length := List.length_pos_iff.mpr first
        have more : (after earlier).latencyCount ≠ 0 := by omega
        constructor
        · simp only [after, call, record, told, if_neg more]
          constructor
          · rcases min_choice (after earlier).latencyMin latency with same | same
            · rw [same]
              exact List.mem_cons_of_mem _ least.1
            · rw [same]
              exact List.mem_cons_self
          · intro x member
            rcases List.mem_cons.mp member with rfl | before
            · exact min_le_right _ _
            · exact (min_le_left _ _).trans (least.2 x before)
        · simp only [after, call, record, told, if_neg more]
          constructor
          · rcases max_choice (after earlier).latencyMax latency with same | same
            · rw [same]
              exact List.mem_cons_of_mem _ greatest.1
            · rw [same]
              exact List.mem_cons_self
          · intro x member
            rcases List.mem_cons.mp member with rfl | before
            · exact le_max_right _ _
            · exact (greatest.2 x before).trans (le_max_left _ _)
        · simp only [after, call, record, told, if_neg more, List.sum_cons, List.length_cons]
          have nonzero : ((latencies earlier).length : Rat) ≠ 0 :=
            Nat.cast_ne_zero.mpr positive.ne'
          rw [mean, count, div_mul_cancel₀ _ nonzero]
          push_cast
          rfl

/-- The requests that are running are those of some stretch of calls up to now, and of no
stretch more. -/
theorem after_running (calls : List StatsCall) :
    (∀ recent, recent <+: calls → balance recent ≤ (after calls).numRunning) ∧
      ∃ recent, recent <+: calls ∧ balance recent = (after calls).numRunning := by
  induction calls with
  | nil =>
    constructor
    · intro recent shorter
      rw [List.prefix_nil.mp shorter]
      exact le_refl _
    · exact ⟨[], List.nil_prefix, rfl⟩
  | cons c earlier ih =>
    obtain ⟨most, stretch, shorter, attained⟩ := ih
    have nonneg : 0 ≤ (after earlier).numRunning := most [] List.nil_prefix
    have now (d : Int) (grown : ∀ recent, balance (c :: recent) = d + balance recent)
        (running : (after (c :: earlier)).numRunning = max 0 (d + (after earlier).numRunning)) :
        (∀ recent, recent <+: c :: earlier → balance recent ≤ (after (c :: earlier)).numRunning) ∧
          ∃ recent, recent <+: c :: earlier ∧
            balance recent = (after (c :: earlier)).numRunning := by
      constructor
      · intro recent shorter
        cases recent with
        | nil =>
          rw [running]
          exact le_max_left _ _
        | cons e recent =>
          obtain ⟨rfl, within⟩ := List.cons_prefix_cons.mp shorter
          have bound := most recent within
          rw [grown, running]
          exact le_max_of_le_right (by omega)
      · by_cases positive : 0 ≤ d + (after earlier).numRunning
        · refine ⟨c :: stretch, List.cons_prefix_cons.mpr ⟨rfl, shorter⟩, ?_⟩
          rw [grown, running, attained, max_eq_right positive]
        · refine ⟨[], List.nil_prefix, ?_⟩
          rw [running, max_eq_left (by omega)]
          rfl
    cases c with
    | incRunning =>
      refine now 1 (fun recent => by simp [balance]) ?_
      have step : (after (.incRunning :: earlier)).numRunning = (after earlier).numRunning + 1 :=
        rfl
      omega
    | decRunning =>
      refine now (-1) (fun recent => by simp [balance]) ?_
      have step : (after (.decRunning :: earlier)).numRunning =
          max 0 ((after earlier).numRunning - 1) := rfl
      rw [step, sub_eq_add_neg, add_comm]
    | record latency p c reason =>
      refine now 0 (fun recent => by simp [balance]) ?_
      have step : (after (.record latency p c reason :: earlier)).numRunning =
          (after earlier).numRunning := rfl
      rw [step, zero_add, max_eq_right nonneg]

end VllmStats

/-- What the worker reads from the metrics after some calls, newest first. -/
structure StatsRoundTrip (calls : List StatsCall) (out : Dict String PyFloat) : Prop where
  /-- the most that any stretch of calls up to now has begun and not ended -/
  running : ∃ k : Int, out.get? "vllm:num_requests_running" = some (.num k) ∧
    (∀ recent, recent <+: calls → balance recent ≤ k) ∧
    ∃ recent, recent <+: calls ∧ balance recent = k
  /-- if no call ended more requests than were begun, all that were begun and not ended -/
  paired : (∀ earlier, earlier <:+ calls → 0 ≤ balance earlier) →
    out.get? "vllm:num_requests_running" = some (.num (balance calls))
  prompt : out.get? "vllm:prompt_tokens_total" = some (.num (promptTokens calls))
  generation : out.get? "vllm:generation_tokens_total" = some (.num (completionTokens calls))
  stop : out.get? "vllm:request_success_total_stop" = some (.num (finished "stop" calls))
  count : out.get? "vllm:e2e_request_latency_seconds_count" =
    some (.num (latencies calls).length)
  least : latencies calls ≠ [] → ∃ x ∈ latencies calls, (∀ y ∈ latencies calls, x ≤ y) ∧
    out.get? "vllm:e2e_request_latency_seconds_min" = some (.num (roundTo 6 x))
  greatest : latencies calls ≠ [] → ∃ x ∈ latencies calls, (∀ y ∈ latencies calls, y ≤ x) ∧
    out.get? "vllm:e2e_request_latency_seconds_max" = some (.num (roundTo 6 x))
  mean : latencies calls ≠ [] → out.get? "vllm:e2e_request_latency_seconds_mean" =
    some (.num (roundTo 6 ((latencies calls).sum / (latencies calls).length)))
  ordered : latencies calls ≠ [] → ∃ low mid high : Rat,
    out.get? "vllm:e2e_request_latency_seconds_min" = some (.num low) ∧
    out.get? "vllm:e2e_request_latency_seconds_mean" = some (.num mid) ∧
    out.get? "vllm:e2e_request_latency_seconds_max" = some (.num high) ∧ low ≤ mid ∧ mid ≤ high
  others : ∀ key value, out.get? key = some value →
    startsWith "vllm:e2e_request_latency_seconds" key = true →
    key = "vllm:e2e_request_latency_seconds_count" ∨ latencies calls ≠ [] ∧
      (key = "vllm:e2e_request_latency_seconds_min" ∨
        key = "vllm:e2e_request_latency_seconds_max" ∨
        key = "vllm:e2e_request_latency_seconds_mean")

namespace VllmStats

variable (s : VllmStats)

theorem nodup_keys : ((s.scalarsOf ++ s.summaryOf).map Prod.fst).Nodup := by
  have names : (["vllm:num_requests_running", "vllm:prompt_tokens_total",
      "vllm:generation_tokens_total"] ++
      finishReasons.map (fun reason => "vllm:request_success_total_" ++ reason) ++
      [e2e ++ "_count", e2e ++ "_min", e2e ++ "_max", e2e ++ "_mean"]).Nodup := by
    decide +kernel
  refine List.Nodup.sublist ?_ names
  unfold scalarsOf summaryOf
  rw [List.map_append, List.map_append, List.map_map]
  refine List.Sublist.append (List.Sublist.refl _) ?_
  split
  · exact List.Sublist.refl _
  · exact List.Sublist.cons_cons _ (List.nil_sublist _)

theorem get?_render {key : String} {value : PyFloat}
    (member : (key, value) ∈ s.scalarsOf ++ s.summaryOf) :
    (parsePrometheus "vllm:" s.render).get? key = some value := by
  rw [parse_render]
  exact get?_update_mem s.nodup_keys member

theorem mean_bounds {xs : List Rat} {low high : Rat} (some : xs ≠ [])
    (least : ∀ x ∈ xs, low ≤ x) (greatest : ∀ x ∈ xs, x ≤ high) :
    low ≤ xs.sum / xs.length ∧ xs.sum / xs.length ≤ high := by
  have positive : (0 : Rat) < xs.length := Nat.cast_pos.mpr (List.length_pos_iff.mpr some)
  have lower := List.card_nsmul_le_sum xs low least
  have upper := List.sum_le_card_nsmul xs high greatest
  rw [nsmul_eq_mul] at lower upper
  constructor
  · rw [le_div_iff₀ positive, mul_comm]
    exact lower
  · rw [div_le_iff₀ positive, mul_comm]
    exact upper

end VllmStats

open VllmStats in
/-- **What is read is what the calls add up to**, for all calls. -/
theorem stats_round_trip (calls : List StatsCall) :
    StatsRoundTrip calls (parsePrometheus "vllm:" (after calls).render) := by
  obtain ⟨prompt, completion⟩ := after_tokens calls
  obtain ⟨most, stretch, recent, attained⟩ := after_running calls
  have counted := after_count calls
  have running : (parsePrometheus "vllm:" (after calls).render).get?
      "vllm:num_requests_running" = some (.num (after calls).numRunning) :=
    get?_render _ (List.mem_append_left _ (List.mem_append_left _ List.mem_cons_self))
  have stat {key : String} {q : Rat} (some : latencies calls ≠ [])
      (member : (key, PyFloat.num q) ∈
        [(e2e ++ "_min", PyFloat.num (roundTo 6 (after calls).latencyMin)),
          (e2e ++ "_max", .num (roundTo 6 (after calls).latencyMax)),
          (e2e ++ "_mean", .num (roundTo 6 (after calls).latencyMean))]) :
      (parsePrometheus "vllm:" (after calls).render).get? key = .some (.num q) := by
    have positive : (after calls).latencyCount > 0 := by
      rw [counted]
      exact List.length_pos_iff.mpr some
    refine get?_render _ (List.mem_append_right _ (List.mem_cons_of_mem _ ?_))
    rw [if_pos positive]
    exact member
  have names : "vllm:e2e_request_latency_seconds_min" = e2e ++ "_min" ∧
      "vllm:e2e_request_latency_seconds_max" = e2e ++ "_max" ∧
      "vllm:e2e_request_latency_seconds_mean" = e2e ++ "_mean" ∧
      "vllm:e2e_request_latency_seconds_count" = e2e ++ "_count" := by decide +kernel
  have least (some : latencies calls ≠ []) : (parsePrometheus "vllm:" (after calls).render).get?
      "vllm:e2e_request_latency_seconds_min" =
        .some (.num (roundTo 6 (after calls).latencyMin)) :=
    stat some (names.1 ▸ List.mem_cons_self)
  have greatest (some : latencies calls ≠ []) :
      (parsePrometheus "vllm:" (after calls).render).get?
        "vllm:e2e_request_latency_seconds_max" =
          .some (.num (roundTo 6 (after calls).latencyMax)) :=
    stat some (names.2.1 ▸ List.mem_cons_of_mem _ List.mem_cons_self)
  have mean (some : latencies calls ≠ []) : (parsePrometheus "vllm:" (after calls).render).get?
      "vllm:e2e_request_latency_seconds_mean" =
        .some (.num (roundTo 6 (after calls).latencyMean)) :=
    stat some (names.2.2.1 ▸ List.mem_cons_of_mem _ (List.mem_cons_of_mem _ List.mem_cons_self))
  refine ⟨⟨_, running, most, stretch, recent, attained⟩, ?_, ?_, ?_, ?_, ?_, ?_, ?_, ?_, ?_, ?_⟩
  · intro paired
    obtain ⟨earlier, whole⟩ := recent
    have rest : 0 ≤ balance earlier := paired earlier ⟨stretch, whole⟩
    have split : balance calls = balance stretch + balance earlier := by
      rw [← whole]
      simp [balance]
    have bound := most calls (List.prefix_refl _)
    have same : balance calls = (after calls).numRunning := by omega
    rw [running, same]
  · rw [← prompt]
    exact get?_render _ (List.mem_append_left _ (List.mem_append_left _
      (List.mem_cons_of_mem _ List.mem_cons_self)))
  · rw [← completion]
    exact get?_render _ (List.mem_append_left _ (List.mem_append_left _
      (List.mem_cons_of_mem _ (List.mem_cons_of_mem _ List.mem_cons_self))))
  · rw [← after_finished]
    have key : "vllm:request_success_total_stop" = "vllm:request_success_total_" ++ "stop" := by
      decide +kernel
    rw [key]
    exact get?_render _ (List.mem_append_left _ (List.mem_append_right _
      (List.mem_map.mpr ⟨"stop", by decide, rfl⟩)))
  · rw [← counted, names.2.2.2]
    exact get?_render _ (List.mem_append_right _ List.mem_cons_self)
  · intro some
    have aggregates := after_aggregates some
    exact ⟨_, aggregates.least.1, aggregates.least.2, least some⟩
  · intro some
    have aggregates := after_aggregates some
    exact ⟨_, aggregates.greatest.1, aggregates.greatest.2, greatest some⟩
  · intro some
    rw [← (after_aggregates some).mean]
    exact mean some
  · intro some
    have aggregates := after_aggregates some
    obtain ⟨low, high⟩ := mean_bounds some aggregates.least.2 aggregates.greatest.2
    rw [← aggregates.mean] at low high
    exact ⟨_, _, _, least some, mean some, greatest some, roundTo_mono low, roundTo_mono high⟩
  · intro key value found e2eKey
    rw [parse_render] at found
    rcases get?_update_cases found with none | member
    · cases none
    · have foreign : ∀ name ∈ ["vllm:num_requests_running", "vllm:prompt_tokens_total",
          "vllm:generation_tokens_total"] ++
          finishReasons.map (fun reason => "vllm:request_success_total_" ++ reason),
          startsWith "vllm:e2e_request_latency_seconds" name = false := by decide +kernel
      rcases List.mem_append.mp member with scalar | summary
      · have listed := List.mem_map_of_mem (f := Prod.fst) scalar
        have other : startsWith "vllm:e2e_request_latency_seconds" key = false :=
          foreign key (by simpa [scalarsOf] using listed)
        rw [other] at e2eKey
        cases e2eKey
      · unfold summaryOf at summary
        rcases List.mem_cons.mp summary with same | stats
        · exact Or.inl ((Prod.mk.inj same).1.trans names.2.2.2.symm)
        · split at stats
          · next positive =>
            have some : latencies calls ≠ [] := by
              rw [counted] at positive
              exact List.length_pos_iff.mp positive
            refine Or.inr ⟨some, ?_⟩
            rw [names.1, names.2.1, names.2.2.1]
            simp only [List.mem_cons, List.not_mem_nil, or_false, Prod.mk.injEq] at stats
            exact stats.imp And.left (Or.imp And.left And.left)
          · cases stats

end Oumigo
