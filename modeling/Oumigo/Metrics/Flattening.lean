import Oumigo.Metrics.VllmStats

/-!
# What flattening keeps apart

A page lists gauges and counters with their labels, in the text exposition format.
`flattens_iff`: the parser of the worker keeps the samples of some metrics apart, whatever their
values, exactly when no label value holds a closing brace and the metrics differ in their words.
The words are the parts of the name and the runs of letters and digits in the label values, in the
order of the label names.
-/

namespace Oumigo

open Python

/-! ## Pages -/

/-- A name that is neither dropped nor part of a histogram. -/
def passesThrough (name : String) : Bool :=
  isSeries name && name.toList.all (fun c => isWord c || c = ':') &&
  ["_bucket", "_sum", "_count"].all (fun part => (beforeEnd part name).isNone) &&
  preAggregated.all fun stat =>
    (beforeEnd ("_" ++ stat) name).all fun base => base ∉ histAggregateMetrics

/-- A gauge or a counter with its labels. -/
structure Metric where
  name : String
  labels : List (String × String)
  named : passesThrough name = true
  label_names : ∀ label ∈ labels, LabelName label.1
  labels_nodup : (labels.map Prod.fst).Nodup

/-- What a line says of a metric. -/
structure Reading where
  text : String
  value : PyFloat
  timestamp : Option Int := none
  nonempty : text ≠ ""
  visible : ∀ c ∈ text.toList, isSpace c = false
  unbraced : '\x7b' ∉ text.toList
  read : floatOf text = some value

/-- The value, and the time if there is one. -/
def Reading.tail (r : Reading) : String :=
  match r.timestamp with
  | none => r.text
  | some time => r.text ++ " " ++ toString time

/-- The line of a sample. -/
def Metric.line (m : Metric) (r : Reading) : String :=
  if m.labels = [] then m.name ++ (" " ++ r.tail)
  else m.name ++ ("\x7b" ++ String.ofList (labelsText m.labels) ++ "\x7d" ++ (" " ++ r.tail))

/-- A line of a page. -/
inductive PageLine where
  | comment (text : String) (whole : ∀ c ∈ text.toList, isLineBreak c = false)
  | sample (m : Metric) (r : Reading)

namespace PageLine

/-- The line as it is written. -/
def text : PageLine → String
  | comment text _ => "#" ++ text
  | sample m r => m.line r

/-- What a sample says. -/
def reading? : PageLine → Option (Metric × Reading)
  | comment _ _ => none
  | sample m r => some (m, r)

end PageLine

/-- The samples of a page. -/
def readings (page : List PageLine) : List (Metric × Reading) := page.filterMap PageLine.reading?

/-- A page in the text exposition format. -/
def renderPage (page : List PageLine) : String :=
  String.join (page.map fun line => line.text ++ "\n")

/-- Each metric has a key of its own, with its value, on every page that lists these metrics. -/
def Flattens (metrics : List Metric) : Prop :=
  ∃ key : Metric → String, (metrics.map key).Nodup ∧
    ∀ page : List PageLine, (readings page).map Prod.fst = metrics →
      ∀ m r, (m, r) ∈ readings page →
        (parsePrometheus "vllm:" (renderPage page)).get? (key m) = some r.value

/-! ## Words -/

namespace Metric

/-- The labels that are not folded away, in the order of their names. -/
def significant (m : Metric) : List (String × String) :=
  (m.labels.filter fun label => label.1 ∉ noiseLabels && label.1 ≠ "le").mergeSort
    fun label label' => decide (label.1 ≤ label'.1)

/-- The runs of letters and digits in a label value as escaped, in lower case; an empty word where
there are none. -/
def wordsOf (value : String) : List (List Char) :=
  let runs := ((escape value.toList).splitOnP fun c => !c.isAlphanum).filter (· ≠ [])
  if runs = [] then [[]] else runs.map (List.map Char.toLower)

/-- The words of the significant label values; none where there is one value without any. -/
def labelWords (m : Metric) : List (List Char) :=
  let words := m.significant.flatMap fun label => wordsOf label.2
  if words = [[]] then [] else words

/-- The words that tell a metric from others. -/
def words (m : Metric) : List (List Char) := m.name.toList.splitOn '_' ++ m.labelWords

/-- The documented key. -/
def key (m : Metric) : String := String.ofList (['_'].intercalate m.words)

/-- A label value ends no line. -/
def Whole (m : Metric) : Prop :=
  ∀ label ∈ m.labels, ∀ c ∈ label.2.toList, isLineBreak c = true → c = '\n'

/-- No label value holds a closing brace. -/
def Unbraced (m : Metric) : Prop := ∀ label ∈ m.labels, '\x7d' ∉ label.2.toList

end Metric

variable {m : Metric} {r : Reading}

/-! ## Reading a line -/

theorem Metric.series (m : Metric) : Series m.name := by
  have named := m.named
  unfold passesThrough at named
  simp only [Bool.and_eq_true] at named
  exact series_of_check named.1.1.1

theorem Metric.name_chars (m : Metric) : ∀ c ∈ m.name.toList, isWord c = true ∨ c = ':' := by
  have named := m.named
  unfold passesThrough at named
  simp only [Bool.and_eq_true] at named
  intro c member
  simpa using List.all_eq_true.mp named.1.1.2 c member

/-- A timestamp is visible. -/
theorem visible_int (i : Int) : ∀ c ∈ (toString i).toList, isSpace c = false ∧ c ≠ '\x7b' := by
  intro c member
  have number := number_int i
  refine ⟨number.visible c member, ?_⟩
  rintro rfl
  exact number.no_brace member

theorem Reading.last (r : Reading) {front : String} :
    ∀ c ∈ (front ++ (" " ++ r.tail)).toList.getLast?, isSpace c = false := by
  intro c last
  unfold Reading.tail at last
  cases time : r.timestamp with
  | none =>
    rw [time, ← String.append_assoc] at last
    have ends : r.text.toList ≠ [] := by simpa using r.nonempty
    rw [String.toList_append, List.getLast?_append_of_ne_nil _ ends] at last
    exact r.visible c (List.mem_of_getLast? last)
  | some time' =>
    rw [time, ← String.append_assoc, ← String.append_assoc] at last
    have ends : (toString time').toList ≠ [] := by simpa using (number_int time').some
    rw [String.toList_append, List.getLast?_append_of_ne_nil _ ends] at last
    exact (visible_int time' c (List.mem_of_getLast? last)).1

theorem Reading.mem_tail {c : Char} (member : c ∈ r.tail.toList) :
    c ∈ r.text.toList ∨ c = ' ' ∨ ∃ time : Int, c ∈ (toString time).toList := by
  unfold Reading.tail at member
  cases time : r.timestamp with
  | none =>
    rw [time] at member
    exact .inl member
  | some time' =>
    rw [time, String.toList_append, String.toList_append] at member
    rcases List.mem_append.mp member with front | stamp
    · rcases List.mem_append.mp front with text | space
      · exact .inl text
      · exact .inr (.inl (List.mem_singleton.mp space))
    · exact .inr (.inr ⟨time', stamp⟩)

theorem Reading.tail_unbraced (r : Reading) : '\x7b' ∉ r.tail.toList := by
  intro member
  rcases Reading.mem_tail member with text | space | ⟨time, stamp⟩
  · exact r.unbraced text
  · exact absurd space (by decide)
  · exact (visible_int time _ stamp).2 rfl

/-- The first token after the labels is the value. -/
theorem Reading.split_tail (r : Reading) : ∃ more, split r.tail = r.text :: more := by
  have one := split_token r.nonempty r.visible
  unfold Reading.tail
  cases r.timestamp with
  | none => exact ⟨[], one⟩
  | some time => exact ⟨_, by rw [split_append_space, one]; rfl⟩

theorem Reading.split_space_tail (r : Reading) :
    ∃ more, split (" " ++ r.tail) = r.text :: more := by
  obtain ⟨more, tokens⟩ := r.split_tail
  have none : split "" = [] := rfl
  refine ⟨more, ?_⟩
  have cut := split_append_space "" r.tail
  rwa [String.empty_append, none, List.nil_append, tokens] at cut

/-- The labels as they are read. -/
def Metric.raw (m : Metric) : Dict String String := dictOf (m.labels.map rawLabel)

theorem mem_labelsText_unbraced {c : Char} (named : ∀ label ∈ m.labels, LabelName label.1)
    (other : isWord c = false) (strange : c ∉ [',', '=', quote, backslash])
    (member : c ∈ labelsText m.labels) :
    ∃ label ∈ m.labels, c ∈ label.2.toList ∧ c.toNat ≠ 10 := by
  simp only [List.mem_cons, List.not_mem_nil, or_false, not_or] at strange
  obtain ⟨comma, equals, quotes, escapes⟩ := strange
  rcases mem_labelsText member with same | ⟨label, inside, from_label⟩
  · exact absurd same comma
  · rcases mem_labelText from_label with name | same | same | escaped
    · rw [(named label inside).2 c name] at other
      cases other
    · exact absurd same equals
    · exact absurd same quotes
    · rcases mem_escape escaped with plain | same | same | same
      · exact ⟨label, inside, plain⟩
      · exact absurd same escapes
      · exact absurd same quotes
      · subst same
        cases other

/-- The line of a metric without closing braces is read as it is. -/
theorem sampleOf_line (unbraced : m.Unbraced) :
    sampleOf "vllm:" (m.line r) = some ⟨m.name, m.raw, r.value⟩ := by
  unfold Metric.line Metric.raw
  by_cases bare : m.labels = []
  · obtain ⟨more, tokens⟩ := r.split_tail
    have last := @Reading.last r ""
    rw [String.empty_append] at last
    rw [if_pos bare, sampleOf_bare m.series r.tail_unbraced last, readTail_cons tokens, r.read,
      bare]
    rfl
  · obtain ⟨more, tokens⟩ := r.split_space_tail
    have closed : '\x7d' ∉ (String.ofList (labelsText m.labels)).toList := by
      rw [String.toList_ofList]
      intro member
      obtain ⟨label, inside, brace, -⟩ :=
        mem_labelsText_unbraced m.label_names (by decide) (by decide) member
      exact unbraced label inside brace
    rw [if_neg bare, sampleOf_braced m.series closed r.last, readTail_cons tokens, r.read,
      String.toList_ofList, findLabels_labelsText m.label_names le_rfl]
    rfl

/-- The labels are cut at a closing brace in a value, and what is read is in the labels. -/
theorem sampleOf_line_cut {before after : List Char} {token : String} {more : List String}
    (cut : labelsText m.labels = before ++ '\x7d' :: after) (early : '\x7d' ∉ before)
    (tokens : split (String.ofList after ++ "\x7d") = token :: more) :
    sampleOf "vllm:" (m.line r) = (floatOf token).map fun value =>
      ⟨m.name, dictOf (findLabels before.length before), value⟩ := by
  have some : m.labels ≠ [] := by
    intro none
    rw [none] at cut
    simp [labelsText] at cut
  let rest := String.ofList after ++ "\x7d"
  have line : m.line r = m.name ++ ("\x7b" ++ String.ofList before ++ "\x7d" ++
      (rest ++ " " ++ r.tail)) := by
    unfold Metric.line
    rw [if_neg some, cut]
    apply String.toList_inj.mp
    simp [rest]
  have closed : '\x7d' ∉ (String.ofList before).toList := by
    rwa [String.toList_ofList]
  have last : ∀ c ∈ ("\x7b" ++ String.ofList before ++ "\x7d" ++
      (rest ++ " " ++ r.tail)).toList.getLast?, isSpace c = false := by
    have regroup : "\x7b" ++ String.ofList before ++ "\x7d" ++ (rest ++ " " ++ r.tail) =
        "\x7b" ++ String.ofList before ++ "\x7d" ++ rest ++ (" " ++ r.tail) := by
      simp only [String.append_assoc]
    rw [regroup]
    exact r.last
  have split_rest : split (rest ++ " " ++ r.tail) = token :: (more ++ split r.tail) := by
    rw [split_append_space, tokens]
    rfl
  rw [line, sampleOf_braced m.series closed last, readTail_cons split_rest, String.toList_ofList]

/-- Where a label value holds a closing brace, what is read does not depend on the value of the
sample. -/
theorem sampleOf_line_of_brace (braced : ¬ m.Unbraced) (r r' : Reading) :
    sampleOf "vllm:" (m.line r) = sampleOf "vllm:" (m.line r') := by
  obtain ⟨label, inside, brace⟩ : ∃ label ∈ m.labels, '\x7d' ∈ label.2.toList := by
    by_contra absent
    push Not at absent
    exact braced absent
  have member : '\x7d' ∈ labelsText m.labels := by
    apply mem_labelsText_of_mem inside
    unfold labelText
    simp [mem_escape_of_mem brace (by decide)]
  obtain ⟨before, after, cut, early⟩ := List.eq_append_cons_of_mem member
  have shown : '\x7d' ∈ (String.ofList after ++ "\x7d").toList := by simp
  obtain ⟨token, more, tokens⟩ := exists_split_cons shown (by decide)
  rw [sampleOf_line_cut cut early tokens, sampleOf_line_cut cut early tokens]

/-! ## Keys -/

/-- A metric's sample goes to the scalars. -/
theorem route_of_passesThrough {name : String} (passes : passesThrough name = true)
    (labels : Dict String String) : route name labels = .scalar
      (if suffixOf labels = "" then name else name ++ "_" ++ suffixOf labels) := by
  unfold passesThrough at passes
  simp only [Bool.and_eq_true, List.all_cons, List.all_nil, Bool.and_true,
    Option.isNone_iff_eq_none] at passes
  obtain ⟨⟨-, bucket, sum, count⟩, stats⟩ := passes
  unfold route
  rw [bucket]
  dsimp only
  rw [sum]
  dsimp only
  rw [count]
  dsimp only
  split
  · next stat base found =>
    obtain ⟨stat', listed, cut⟩ := List.exists_of_findSome?_eq_some found
    obtain ⟨base', ends, same⟩ := Option.map_eq_some_iff.mp cut
    cases same
    have other := List.all_eq_true.mp stats stat listed
    rw [ends] at other
    rw [if_neg (by simpa using other)]
  · rfl

theorem wordsOf_ne_nil (value : String) : Metric.wordsOf value ≠ [] := by
  unfold Metric.wordsOf
  dsimp only
  split
  · simp
  · next some => simpa using some

/-- A label value as it is appended to a key. -/
theorem toList_sanitize (label : String × String) :
    (sanitize (rawLabel label).2).toList = ['_'].intercalate (Metric.wordsOf label.2) := by
  unfold sanitize lower rawLabel Metric.wordsOf
  dsimp only
  rw [String.toList_ofList, String.toList_ofList, String.toList_ofList,
    map_intercalate (by decide)]
  split
  · next none => rw [none]; rfl
  · rfl

theorem Metric.raw_entries (m : Metric) : m.raw.entries = m.labels.map rawLabel := by
  have nodup : ((m.labels.map rawLabel).map Prod.fst).Nodup := by
    rw [List.map_map]
    exact m.labels_nodup
  exact Dict.entries_update nodup

/-- The suffix of a key. -/
theorem Metric.toList_suffixOf (m : Metric) : (suffixOf m.raw).toList =
    ['_'].intercalate (m.significant.flatMap fun label => Metric.wordsOf label.2) := by
  have sorted : ((m.labels.map rawLabel).filter fun label =>
      label.1 ∉ noiseLabels && label.1 ≠ "le").mergeSort
        (fun label label' => decide (label.1 ≤ label'.1)) = m.significant.map rawLabel := by
    unfold Metric.significant
    rw [List.filter_map, List.map_mergeSort]
    · rfl
    · intro label _ label' _
      rfl
  have score : "_".toList = ['_'] := rfl
  have values : (m.significant.map rawLabel).map (fun label => (sanitize label.2).toList) =
      m.significant.map fun label => ['_'].intercalate (wordsOf label.2) := by
    rw [List.map_map]
    exact List.map_congr_left fun label _ => toList_sanitize label
  unfold suffixOf
  dsimp only
  rw [m.raw_entries, sorted, String.toList_intercalate, score,
    intercalate_flatMap fun label _ => wordsOf_ne_nil label.2, ← values, List.map_map]
  rfl

/-- Joined words are empty when there is none, or one that is empty. -/
theorem intercalate_eq_nil_iff {words : List (List Char)} :
    ['_'].intercalate words = [] ↔ words = [] ∨ words = [[]] := by
  cases words with
  | nil => simp
  | cons word words =>
    cases words with
    | nil => simp
    | cons next words => simp [List.intercalate_cons_cons]

/-- The key is the documented one. -/
theorem Metric.key_eq (m : Metric) :
    (if suffixOf m.raw = "" then m.name else m.name ++ "_" ++ suffixOf m.raw) = m.key := by
  apply String.toList_inj.mp
  have parts : m.name.toList.splitOn '_' ≠ [] := List.splitOn_ne_nil _ _
  have name : ['_'].intercalate (m.name.toList.splitOn '_') = m.name.toList :=
    List.intercalate_splitOn '_'
  have suffix := m.toList_suffixOf
  unfold Metric.key Metric.words Metric.labelWords
  rw [String.toList_ofList]
  dsimp only
  generalize (m.significant.flatMap fun label => wordsOf label.2) = values at suffix ⊢
  by_cases empty : suffixOf m.raw = ""
  · rw [if_pos empty]
    rw [empty] at suffix
    rcases intercalate_eq_nil_iff.mp suffix.symm with none | one
    · rw [none, if_neg (by simp), List.append_nil, name]
    · rw [one, if_pos rfl, List.append_nil, name]
  · rw [if_neg empty]
    have shown : ¬ (values = [] ∨ values = [[]]) := by
      rw [← intercalate_eq_nil_iff, ← suffix]
      simpa using empty
    rw [not_or] at shown
    rw [if_neg shown.2, intercalate_append parts shown.1, name, ← suffix]
    simp

/-- No letter or digit is an underscore in lower case. -/
theorem toLower_ne_underscore {c : Char} (letter : c.isAlphanum = true) : c.toLower ≠ '_' := by
  intro lower
  unfold Char.toLower at lower
  split at lower
  · next upper =>
    have value := congrArg (fun d : Char => d.val.toNat) lower
    have least : 65 ≤ c.val.toNat := UInt32.le_iff_toNat_le.mp upper.1
    have most : c.val.toNat ≤ 90 := UInt32.le_iff_toNat_le.mp upper.2
    simp only [UInt32.toNat_add] at value
    have step : ('a'.val - 'A'.val).toNat = 32 := rfl
    have score : '_'.val.toNat = 95 := rfl
    rw [step, score] at value
    omega
  · subst lower
    cases letter

theorem words_apart (m : Metric) : ∀ word ∈ m.words, '_' ∉ word := by
  intro word member
  unfold Metric.words Metric.labelWords at member
  rcases List.mem_append.mp member with part | part
  · exact not_mem_of_mem_splitOn part
  · dsimp only at part
    split at part
    · cases part
    · obtain ⟨label, -, inside⟩ := List.mem_flatMap.mp part
      unfold Metric.wordsOf at inside
      dsimp only at inside
      split at inside
      · rw [List.mem_singleton.mp inside]
        simp
      · obtain ⟨run, kept, rfl⟩ := List.mem_map.mp inside
        intro score
        obtain ⟨c, from_run, lower⟩ := List.mem_map.mp score
        have letter := not_stop_of_mem_splitOnP (List.mem_filter.mp kept).1 c from_run
        exact toLower_ne_underscore (by simpa using letter) lower

/-- Two metrics share a key when they share their words. -/
theorem key_inj (m m' : Metric) : m.key = m'.key ↔ m.words = m'.words := by
  have some (m : Metric) : m.words ≠ [] := by
    unfold Metric.words
    simp
  unfold Metric.key
  rw [String.ofList_inj, intercalate_inj (some m) (some m') (words_apart m) (words_apart m')]

/-! ## Reading a page -/

theorem Reading.tail_unbroken (r : Reading) : ∀ c ∈ r.tail.toList, isLineBreak c = false := by
  intro c member
  rcases Reading.mem_tail member with text | rfl | ⟨time, stamp⟩
  · exact not_isLineBreak (r.visible c text)
  · decide
  · exact not_isLineBreak (visible_int time c stamp).1

theorem labelsText_unbroken (whole : m.Whole) :
    ∀ c ∈ labelsText m.labels, isLineBreak c = false := by
  intro c member
  by_contra breaks
  rw [Bool.not_eq_false] at breaks
  have hidden := isSpace_of_isLineBreak breaks
  have other : isWord c = false := isWord_of_isSpace c hidden
  have strange : c ∉ [',', '=', quote, backslash] := by
    intro listed
    simp only [List.mem_cons, List.not_mem_nil, or_false] at listed
    rcases listed with rfl | rfl | rfl | rfl <;> cases breaks
  obtain ⟨label, inside, from_value, inline⟩ :=
    mem_labelsText_unbraced m.label_names other strange member
  obtain rfl := whole label inside c from_value breaks
  exact inline rfl

/-- The line of a metric is one line. -/
theorem Metric.line_unbroken (whole : m.Whole) :
    ∀ c ∈ (m.line r).toList, isLineBreak c = false := by
  have name : ∀ c ∈ m.name.toList, isLineBreak c = false :=
    fun c member => not_isLineBreak (m.series.clean c member).1
  intro c member
  unfold Metric.line at member
  split at member
  · rw [String.toList_append, String.toList_append] at member
    rcases List.mem_append.mp member with front | member
    · exact name c front
    · rcases List.mem_append.mp member with space | back
      · rw [List.mem_singleton.mp space]
        decide
      · exact r.tail_unbroken c back
  · simp only [String.toList_append, String.toList_ofList, List.mem_append] at member
    rcases member with front | ((opening | inside) | closing) | space | back
    · exact name c front
    · rw [List.mem_singleton.mp opening]
      decide
    · exact labelsText_unbroken whole c inside
    · rw [List.mem_singleton.mp closing]
      decide
    · rw [List.mem_singleton.mp space]
      decide
    · exact r.tail_unbroken c back

/-- A comment is skipped. -/
theorem sampleOf_comment (text : String) : sampleOf "vllm:" ("#" ++ text) = none := by
  have mark : ("#" ++ text).toList = '#' :: text.toList := by simp
  have kept : ∃ rest, (strip ("#" ++ text)).toList = '#' :: rest := by
    unfold strip
    rw [mark, List.dropWhile_cons_of_neg (by decide), List.reverse_cons, List.dropWhile_append,
      String.toList_ofList]
    split
    · rw [List.dropWhile_cons_of_neg (by decide)]
      exact ⟨[], rfl⟩
    · rw [List.reverse_append]
      exact ⟨_, rfl⟩
  obtain ⟨rest, shape⟩ := kept
  have comment : startsWith "#" (strip ("#" ++ text)) = true := by
    unfold startsWith
    rw [shape]
    rfl
  unfold sampleOf
  dsimp only
  rw [if_pos (by rw [comment, Bool.or_true])]

variable {page : List PageLine}

theorem samples_page (whole : ∀ m ∈ (readings page).map Prod.fst, m.Whole) :
    samples "vllm:" (renderPage page) =
      (readings page).filterMap fun a => sampleOf "vllm:" (a.1.line a.2) := by
  have lines : ∀ line ∈ page.map PageLine.text, ∀ c ∈ line.toList, isLineBreak c = false := by
    intro line listed
    obtain ⟨entry, member, rfl⟩ := List.mem_map.mp listed
    cases entry with
    | comment text unbroken =>
      intro c inside
      rw [PageLine.text, String.toList_append] at inside
      rcases List.mem_append.mp inside with mark | inside
      · rw [List.mem_singleton.mp mark]
        decide
      · exact unbroken c inside
    | sample m r =>
      have listed : (m, r) ∈ readings page := List.mem_filterMap.mpr ⟨_, member, rfl⟩
      exact Metric.line_unbroken (whole m (List.mem_map_of_mem listed))
  have text : renderPage page =
      String.join ((page.map PageLine.text).map fun line => line ++ "\n") := by
    unfold renderPage
    rw [List.map_map]
    rfl
  unfold samples readings
  rw [text, splitlines_join_map lines, List.filterMap_map, List.filterMap_filterMap]
  apply List.filterMap_congr
  intro entry member
  cases entry with
  | comment text unbroken => rw [Function.comp_apply, PageLine.text, sampleOf_comment]; rfl
  | sample m r => rw [Function.comp_apply, PageLine.text, PageLine.reading?, Option.bind_some]

theorem parse_of_no_sample {start text : String} (none : samples start text = []) :
    (parsePrometheus start text).entries = [] := by
  unfold parsePrometheus scrape
  rw [none]
  rfl

/-- A page without closing braces in its label values is read sample by sample. -/
theorem parse_page (whole : ∀ m ∈ (readings page).map Prod.fst, m.Whole)
    (unbraced : ∀ m ∈ (readings page).map Prod.fst, m.Unbraced) :
    parsePrometheus "vllm:" (renderPage page) =
      update .empty ((readings page).map fun a => (a.1.key, a.2.value)) := by
  have read : (readings page).filterMap (fun a => sampleOf "vllm:" (a.1.line a.2)) =
      (readings page).map fun a => ⟨a.1.name, a.1.raw, a.2.value⟩ := by
    rw [← List.filterMap_eq_map]
    exact List.filterMap_congr fun a member =>
      sampleOf_line (unbraced a.1 (List.mem_map_of_mem member))
  have routed : ∀ a ∈ readings page, route (Sample.mk a.1.name a.1.raw a.2.value).name
      (Sample.mk a.1.name a.1.raw a.2.value).labels = .scalar a.1.key := by
    intro a member
    rw [route_of_passesThrough a.1.named, a.1.key_eq]
  unfold parsePrometheus scrape
  rw [samples_page whole, read, Scrape.take_scalars routed]
  rfl

/-! ## Keeping apart -/

/-- The reading of a number. -/
def countReading (n : Nat) : Reading where
  text := toString n
  value := .num n
  nonempty := (number_nat n).some
  visible := (number_nat n).visible
  unbraced := (number_nat n).no_brace
  read := (number_nat n).read

/-- A page with one line for each metric. -/
def pageOf (metrics : List Metric) (reading : Metric → Reading) : List PageLine :=
  metrics.map fun m => .sample m (reading m)

variable {metrics : List Metric} {reading : Metric → Reading}

theorem readings_pageOf : readings (pageOf metrics reading) =
    metrics.map fun m => (m, reading m) := by
  unfold readings pageOf
  rw [List.filterMap_map, ← List.filterMap_eq_map]
  rfl

theorem metrics_pageOf : (readings (pageOf metrics reading)).map Prod.fst = metrics := by
  rw [readings_pageOf, List.map_map]
  exact List.map_id _

theorem nodup_key_iff :
    (metrics.map Metric.key).Nodup ↔ (metrics.map Metric.words).Nodup := by
  unfold List.Nodup
  rw [List.pairwise_map, List.pairwise_map]
  simp only [ne_eq, key_inj]

/-- Metrics with different words and no closing brace are kept apart, under the documented keys. -/
theorem flattens_of_words (whole : ∀ m ∈ metrics, m.Whole) (unbraced : ∀ m ∈ metrics, m.Unbraced)
    (distinct : (metrics.map Metric.words).Nodup) : Flattens metrics := by
  refine ⟨Metric.key, nodup_key_iff.mpr distinct, ?_⟩
  rintro page rfl m r member
  rw [parse_page whole unbraced]
  apply get?_update_mem
  · have keys : (((readings page).map fun a => (a.1.key, a.2.value)).map Prod.fst) =
        ((readings page).map Prod.fst).map Metric.key := by
      rw [List.map_map, List.map_map]
      rfl
    rw [keys]
    exact nodup_key_iff.mpr distinct
  · exact List.mem_map.mpr ⟨(m, r), member, rfl⟩

/-- A metric with a closing brace in a label value has no key: its value is never read. -/
theorem Flattens.unbraced (flattens : Flattens metrics) (whole : ∀ m ∈ metrics, m.Whole) :
    ∀ m ∈ metrics, m.Unbraced := by
  classical
  intro m member
  by_contra braced
  obtain ⟨key, -, kept⟩ := flattens
  -- two pages that differ in the value of this metric only
  let zero : Metric → Reading := fun _ => countReading 0
  let one : Metric → Reading := fun other => countReading (if other = m then 1 else 0)
  have read (reading : Metric → Reading) :
      (parsePrometheus "vllm:" (renderPage (pageOf metrics reading))).get? (key m) =
        some (reading m).value := by
    apply kept _ metrics_pageOf m (reading m)
    rw [readings_pageOf]
    exact List.mem_map.mpr ⟨m, member, rfl⟩
  have same : samples "vllm:" (renderPage (pageOf metrics zero)) =
      samples "vllm:" (renderPage (pageOf metrics one)) := by
    rw [samples_page (by rwa [metrics_pageOf]), samples_page (by rwa [metrics_pageOf]),
      readings_pageOf, readings_pageOf, List.filterMap_map, List.filterMap_map]
    apply List.filterMap_congr
    intro other _
    rw [Function.comp_apply, Function.comp_apply]
    by_cases this : other = m
    · rw [this]
      exact sampleOf_line_of_brace braced _ _
    · have unchanged : one other = zero other := by simp [one, zero, this]
      rw [unchanged]
  have values : (zero m).value = (one m).value := by
    have parsed := (read zero).symm.trans ((congrArg (fun xs : List Sample =>
      (xs.foldl Scrape.take {}).flatten.get? (key m)) same).trans (read one))
    exact Option.some.inj parsed
  simp [zero, one, countReading] at values

/-- The only keys that keep apart what is read are the documented ones. -/
theorem Flattens.distinct (flattens : Flattens metrics) (whole : ∀ m ∈ metrics, m.Whole) :
    (metrics.map Metric.words).Nodup := by
  classical
  have unbraced := flattens.unbraced whole
  obtain ⟨key, nodup, kept⟩ := flattens
  -- each metric has a value of its own
  let reading : Metric → Reading := fun m => countReading (metrics.idxOf m)
  have same : metrics.map key = metrics.map Metric.key := by
    apply List.map_congr_left
    intro m member
    have found := kept (pageOf metrics reading) metrics_pageOf m (reading m)
      (by rw [readings_pageOf]; exact List.mem_map.mpr ⟨m, member, rfl⟩)
    rw [parse_page (by rwa [metrics_pageOf]) (by rwa [metrics_pageOf])] at found
    rcases get?_update_cases found with none | pair
    · cases none
    · rw [readings_pageOf, List.map_map] at pair
      obtain ⟨other, listed, equal⟩ := List.mem_map.mp pair
      obtain ⟨keys, values⟩ := Prod.mk.inj equal
      have index : metrics.idxOf other = metrics.idxOf m := by
        simpa [reading, countReading] using values
      rw [← keys, (List.idxOf_inj listed).mp index]
  rw [← nodup_key_iff, ← same]
  exact nodup

/-- **Flattening keeps metrics apart exactly when no label value holds a closing brace and their
words differ**, where no label value ends a line. -/
theorem flattens_iff (whole : ∀ m ∈ metrics, m.Whole) :
    Flattens metrics ↔ (∀ m ∈ metrics, m.Unbraced) ∧ (metrics.map Metric.words).Nodup := by
  constructor
  · exact fun flattens => ⟨flattens.unbraced whole, flattens.distinct whole⟩
  · exact fun condition => flattens_of_words whole condition.1 condition.2

/-- `vllm:request_success_total` of a reason. -/
def successTotal (reason : String) : Metric where
  name := "vllm:request_success_total"
  labels := [("finished_reason", reason)]
  named := by decide +kernel
  label_names := by
    intro label member
    have named : LabelName "finished_reason" := labelName_of_check (by decide +kernel)
    rw [List.mem_singleton.mp member]
    exact named
  labels_nodup := List.nodup_singleton _

theorem successTotal_labelWords (reason : String) : (successTotal reason).labelWords =
    if Metric.wordsOf reason = [[]] then [] else Metric.wordsOf reason := by
  have folded : (successTotal reason).significant = [("finished_reason", reason)] := by
    unfold Metric.significant successTotal
    have shown : (decide ("finished_reason" ∉ noiseLabels) &&
        decide ("finished_reason" ≠ "le")) = true := by decide +kernel
    have kept : [("finished_reason", reason)].filter (fun label =>
        label.1 ∉ noiseLabels && label.1 ≠ "le") = [("finished_reason", reason)] :=
      List.filter_eq_self.mpr fun label member => by rwa [List.mem_singleton.mp member]
    dsimp only
    rw [kept, List.mergeSort_singleton]
  unfold Metric.labelWords
  rw [folded, List.flatMap_singleton]

theorem successTotal_whole {reason : String}
    (check : (reason.toList.all fun c => !isLineBreak c) = true) :
    (successTotal reason).Whole := by
  intro label member c inside breaks
  rw [List.mem_singleton.mp member] at inside
  have whole := List.all_eq_true.mp check c inside
  rw [breaks] at whole
  cases whole

theorem flattens_iff_reasons : Flattens [successTotal "stop", successTotal "length"] := by
  have whole : ∀ m ∈ [successTotal "stop", successTotal "length"], m.Whole := by
    simp only [List.mem_cons, List.not_mem_nil, or_false, forall_eq_or_imp, forall_eq]
    exact ⟨successTotal_whole (by decide +kernel), successTotal_whole (by decide +kernel)⟩
  have unbraced : ∀ m ∈ [successTotal "stop", successTotal "length"], m.Unbraced := by
    simp only [List.mem_cons, List.not_mem_nil, or_false, forall_eq_or_imp, forall_eq]
    exact ⟨by simp [Metric.Unbraced, successTotal],
      by simp [Metric.Unbraced, successTotal]⟩
  apply (flattens_iff whole).mpr
  refine ⟨unbraced, ?_⟩
  have other : (successTotal "stop").words ≠ (successTotal "length").words := by
    unfold Metric.words
    rw [successTotal_labelWords, successTotal_labelWords]
    decide +kernel
  simpa using other

/-- A closing brace in a label value cuts the labels: the sample is lost. -/
theorem braced_reason_lost : (successTotal "a\x7db").Whole ∧
    (parsePrometheus "vllm:" (renderPage (pageOf [successTotal "a\x7db"]
      fun _ => countReading 1))).entries = [] ∧ ¬ Flattens [successTotal "a\x7db"] := by
  have whole : ∀ m ∈ [successTotal "a\x7db"], m.Whole := by
    intro m member
    rw [List.mem_singleton.mp member]
    exact successTotal_whole (by decide +kernel)
  refine ⟨whole _ List.mem_cons_self, ?_, ?_⟩
  · have cut : labelsText (successTotal "a\x7db").labels =
        "finished_reason=\"a".toList ++ '\x7d' :: "b\"".toList := by decide +kernel
    have tokens : split (String.ofList "b\"".toList ++ "\x7d") = ["b\"\x7d"] := by decide +kernel
    have number : floatOf "b\"\x7d" = none := by decide +kernel
    have lost : sampleOf "vllm:" ((successTotal "a\x7db").line (countReading 1)) = none := by
      rw [sampleOf_line_cut cut (by decide) tokens, number, Option.map_none]
    apply parse_of_no_sample
    rw [samples_page (by rwa [metrics_pageOf]), readings_pageOf, List.filterMap_eq_nil_iff]
    intro a listed
    rw [List.map_singleton] at listed
    rw [List.mem_singleton.mp listed]
    exact lost
  · intro flattens
    have unbraced := flattens.unbraced whole _ List.mem_cons_self
    exact unbraced ("finished_reason", "a\x7db") List.mem_cons_self (by decide)

end Oumigo
