import Oumigo.Foundation.Text

/-!
# The labels of the text exposition format

A label value is escaped and quoted, and the labels are joined by commas.  `findLabels` finds the
labels again, with their values as escaped.
-/

namespace Python

/-- The quotation mark. -/
def quote : Char := Char.ofNat 34

/-- The escape character. -/
def backslash : Char := Char.ofNat 92

def escapeChar (c : Char) : List Char :=
  if c.toNat = 92 then [backslash, backslash]
  else if c.toNat = 34 then [backslash, quote]
  else if c.toNat = 10 then [backslash, 'n']
  else [c]

/-- The escapes of a label value. -/
def escape (value : List Char) : List Char := value.flatMap escapeChar

/-- `name="value"`. -/
def labelText (label : String × String) : List Char :=
  label.1.toList ++ '=' :: quote :: (escape label.2.toList ++ [quote])

/-- The text between the braces. -/
def labelsText (labels : List (String × String)) : List Char :=
  [','].intercalate (labels.map labelText)

/-- A label as the pattern finds it. -/
def rawLabel (label : String × String) : String × String :=
  (label.1, String.ofList (escape label.2.toList))

/-- A label name is a word. -/
def LabelName (name : String) : Prop := name ≠ "" ∧ ∀ c ∈ name.toList, isWord c = true

theorem labelName_of_check {name : String}
    (check : (name ≠ "" && name.toList.all isWord) = true) : LabelName name := by
  simp only [Bool.and_eq_true, decide_eq_true_eq, List.all_eq_true] at check
  exact check

variable {value rest text : List Char} {label : String × String} {labels : List (String × String)}
  {c : Char}

/-! ## Escaping -/

theorem mem_escape (member : c ∈ escape value) :
    c ∈ value ∧ c.toNat ≠ 10 ∨ c = backslash ∨ c = quote ∨ c = 'n' := by
  obtain ⟨d, inside, from_d⟩ := List.mem_flatMap.mp member
  unfold escapeChar at from_d
  split at from_d
  · exact .inr (.inl (by simpa using from_d))
  · split at from_d
    · exact .inr ((by simpa using from_d : c = backslash ∨ c = quote).imp id .inl)
    · split at from_d
      · exact .inr ((by simpa using from_d : c = backslash ∨ c = 'n').imp id .inr)
      · next plain =>
        obtain rfl := List.mem_singleton.mp from_d
        exact .inl ⟨inside, plain⟩

theorem mem_escape_of_mem (member : c ∈ value) (plain : c.toNat ≠ 10) : c ∈ escape value := by
  apply List.mem_flatMap.mpr
  refine ⟨c, member, ?_⟩
  unfold escapeChar
  split
  · next same =>
    have equal : c = backslash := Char.toNat_inj.mp same
    simp [equal]
  · split
    · next same =>
      have equal : c = quote := Char.toNat_inj.mp same
      simp [equal]
    · exact List.mem_singleton_self c

theorem escape_cons : escape (c :: value) = escapeChar c ++ escape value := List.flatMap_cons

theorem quoted_quote : quoted (quote :: rest) = some ([], rest) := by
  rw [quoted.eq_def]
  exact if_pos (by decide)

theorem quoted_backslash (inline : c.toNat ≠ 10) : quoted (backslash :: c :: rest) =
    (quoted rest).map fun found => (backslash :: c :: found.1, found.2) := by
  rw [quoted.eq_def]
  exact (if_neg (by decide)).trans ((if_pos (by decide)).trans (if_neg inline))

theorem quoted_plain (closes : c.toNat ≠ 34) (escapes : c.toNat ≠ 92) : quoted (c :: rest) =
    (quoted rest).map fun found => (c :: found.1, found.2) := by
  rw [quoted.eq_def]
  exact (if_neg closes).trans (if_neg escapes)

/-- An escaped value ends at the first quotation mark that is not escaped. -/
theorem quoted_escape : quoted (escape value ++ quote :: rest) = some (escape value, rest) := by
  induction value with
  | nil => exact quoted_quote
  | cons c value ih =>
    rw [escape_cons]
    unfold escapeChar
    split
    · exact (quoted_backslash (by decide)).trans (congrArg _ ih)
    · split
      · exact (quoted_backslash (by decide)).trans (congrArg _ ih)
      · split
        · exact (quoted_backslash (by decide)).trans (congrArg _ ih)
        · next escapes closes _ => exact (quoted_plain closes escapes).trans (congrArg _ ih)

/-! ## Finding labels -/

/-- A label at the start of a text is found. -/
theorem labelAt_labelText (named : LabelName label.1) :
    labelAt (labelText label ++ rest) = some (rawLabel label, rest) := by
  obtain ⟨nonempty, word⟩ := named
  have some : label.1.toList ≠ [] := by simpa using nonempty
  have whole : labelText label ++ rest = label.1.toList ++ '=' :: quote ::
      (escape label.2.toList ++ quote :: rest) := by
    unfold labelText
    simp
  have stop : isWord '=' = false := by decide
  have front : (labelText label ++ rest).takeWhile isWord = label.1.toList := by
    rw [whole, List.takeWhile_append_of_pos word, List.takeWhile_cons_of_neg (by simp [stop]),
      List.append_nil]
  have back : (labelText label ++ rest).dropWhile isWord = '=' :: quote ::
      (escape label.2.toList ++ quote :: rest) := by
    rw [whole, List.dropWhile_append_of_pos word, List.dropWhile_cons_of_neg (by simp [stop])]
  unfold labelAt
  rw [front, back]
  dsimp only
  rw [if_neg some, if_pos (by decide), quoted_escape]
  simp [rawLabel]

theorem labelAt_comma : labelAt (',' :: text) = none := by
  unfold labelAt
  rw [List.takeWhile_cons_of_neg (by decide)]
  rfl

theorem labelsText_cons_cons {next : String × String} :
    labelsText (label :: next :: labels) =
      labelText label ++ ',' :: labelsText (next :: labels) := by
  unfold labelsText
  rw [List.map_cons, List.map_cons, List.intercalate_cons_cons]
  simp

theorem findLabels_nil (size : Nat) : findLabels size [] = [] := by
  cases size with
  | zero => rfl
  | succ size => rfl

theorem findLabels_found {size : Nat} {found : String × String}
    (here : labelAt text = some (found, rest)) :
    findLabels (size + 1) text = found :: findLabels size rest := by
  conv_lhs => unfold findLabels
  rw [here]

theorem findLabels_skip {size : Nat} (here : labelAt (c :: text) = none) :
    findLabels (size + 1) (c :: text) = findLabels size text := by
  conv_lhs => unfold findLabels
  rw [here]

/-- **The labels are found again**, with their values as escaped. -/
theorem findLabels_labelsText (named : ∀ label ∈ labels, LabelName label.1) {size : Nat}
    (fits : (labelsText labels).length ≤ size) :
    findLabels size (labelsText labels) = labels.map rawLabel := by
  induction labels generalizing size with
  | nil => exact findLabels_nil size
  | cons label labels ih =>
    have first := named label List.mem_cons_self
    have later := fun l member => named l (List.mem_cons_of_mem label member)
    have long : 0 < (labelText label).length := by
      unfold labelText
      rw [List.length_append, List.length_cons]
      omega
    cases labels with
    | nil =>
      have alone : labelsText [label] = labelText label ++ [] := by simp [labelsText]
      rw [alone, List.append_nil] at fits
      obtain ⟨size, rfl⟩ : ∃ n, size = n + 1 := ⟨size - 1, by omega⟩
      rw [alone, findLabels_found (labelAt_labelText first), findLabels_nil]
      rfl
    | cons next labels =>
      rw [labelsText_cons_cons, List.length_append, List.length_cons] at fits
      obtain ⟨size, rfl⟩ : ∃ n, size = n + 1 + 1 := ⟨size - 2, by omega⟩
      rw [labelsText_cons_cons, findLabels_found (labelAt_labelText first),
        findLabels_skip labelAt_comma, ih later (by omega)]
      rfl

/-! ## The characters of the labels -/

theorem mem_labelsText (member : c ∈ labelsText labels) :
    c = ',' ∨ ∃ label ∈ labels, c ∈ labelText label := by
  induction labels with
  | nil => cases member
  | cons label labels ih =>
    cases labels with
    | nil =>
      have alone : labelsText [label] = labelText label := by simp [labelsText]
      rw [alone] at member
      exact .inr ⟨label, List.mem_cons_self, member⟩
    | cons next labels =>
      rw [labelsText_cons_cons] at member
      rcases List.mem_append.mp member with first | later
      · exact .inr ⟨label, List.mem_cons_self, first⟩
      · rcases List.mem_cons.mp later with comma | later
        · exact .inl comma
        · rcases ih later with comma | ⟨l, inside, from_l⟩
          · exact .inl comma
          · exact .inr ⟨l, List.mem_cons_of_mem _ inside, from_l⟩

theorem mem_labelsText_of_mem (inside : label ∈ labels) (member : c ∈ labelText label) :
    c ∈ labelsText labels := by
  induction labels with
  | nil => cases inside
  | cons first labels ih =>
    cases labels with
    | nil =>
      obtain rfl := List.mem_singleton.mp inside
      simpa [labelsText] using member
    | cons next labels =>
      rw [labelsText_cons_cons]
      rcases List.mem_cons.mp inside with rfl | later
      · exact List.mem_append_left _ member
      · exact List.mem_append_right _ (List.mem_cons_of_mem _ (ih later))

theorem mem_labelText (member : c ∈ labelText label) :
    c ∈ label.1.toList ∨ c = '=' ∨ c = quote ∨ c ∈ escape label.2.toList := by
  unfold labelText at member
  simp only [List.mem_append, List.mem_cons, List.not_mem_nil, or_false] at member
  rcases member with name | equals | opening | inside | closing
  · exact .inl name
  · exact .inr (.inl equals)
  · exact .inr (.inr (.inl opening))
  · exact .inr (.inr (.inr inside))
  · exact .inr (.inr (.inl closing))

/-- The labels end with a quotation mark. -/
theorem getLast?_labelsText (nonempty : labels ≠ []) :
    (labelsText labels).getLast? = some quote := by
  induction labels with
  | nil => exact absurd rfl nonempty
  | cons label labels ih =>
    cases labels with
    | nil =>
      have alone : labelsText [label] =
          (label.1.toList ++ '=' :: quote :: escape label.2.toList) ++ [quote] := by
        simp [labelsText, labelText]
      rw [alone, List.getLast?_concat]
    | cons next labels =>
      rw [labelsText_cons_cons, List.getLast?_append, List.getLast?_cons, ih (by simp)]
      rfl

/-! ## Tokens and lines -/

theorem split_append_space (front back : String) :
    split (front ++ " " ++ back) = split front ++ split back := by
  have space : isSpace ' ' = true := rfl
  have whole : (front ++ " " ++ back).toList = front.toList ++ ' ' :: back.toList := by simp
  unfold split
  rw [whole, List.splitOnP_append_cons _ _ space, List.filter_append, List.map_append]

/-- A text that is not blank has a first token. -/
theorem exists_split_cons {front : String} (shown : c ∈ front.toList)
    (visible : isSpace c = false) : ∃ token more, split front = token :: more := by
  cases tokens : split front with
  | cons token more => exact ⟨token, more, rfl⟩
  | nil =>
    have left : c ∈ front.toList.filter fun c => !isSpace c :=
      List.mem_filter.mpr ⟨shown, by rw [visible]; rfl⟩
    rw [← join_split, tokens] at left
    cases left

theorem isSpace_of_isLineBreak {c : Char} (breaks : isLineBreak c = true) : isSpace c = true := by
  unfold isLineBreak at breaks
  unfold isSpace
  simp only [Bool.or_eq_true, Bool.and_eq_true, decide_eq_true_eq] at breaks ⊢
  omega

theorem not_isLineBreak {c : Char} (visible : isSpace c = false) : isLineBreak c = false := by
  by_contra breaks
  rw [Bool.not_eq_false] at breaks
  rw [isSpace_of_isLineBreak breaks] at visible
  cases visible

/-- Lines that hold no line boundary are read one by one. -/
theorem splitlines_join_map {lines : List String}
    (whole : ∀ line ∈ lines, ∀ c ∈ line.toList, isLineBreak c = false) :
    splitlines (String.join (lines.map fun line => line ++ "\n")) = lines := by
  unfold splitlines
  induction lines with
  | nil => rfl
  | cons line lines ih =>
    have later := ih fun l member => whole l (List.mem_cons_of_mem _ member)
    have shape : (String.join ((line :: lines).map fun line => line ++ "\n")).toList =
        line.toList ++ '\n' :: (String.join (lines.map fun line => line ++ "\n")).toList := by
      simp
    rw [shape, linesOf_append (whole line List.mem_cons_self), List.map_cons, later,
      String.ofList_toList]

/-! ## Joined words -/

section Joining

variable {α β : Type} {x : α} {words more : List (List α)}

theorem intercalate_append (some : words ≠ []) (later : more ≠ []) :
    [x].intercalate (words ++ more) = [x].intercalate words ++ x :: [x].intercalate more := by
  induction words with
  | nil => exact absurd rfl some
  | cons word words ih =>
    cases words with
    | nil =>
      rw [List.singleton_append, List.intercalate_cons_of_ne_nil later, List.intercalate_singleton]
      simp
    | cons next words =>
      rw [List.cons_append, List.cons_append, List.intercalate_cons_cons, ← List.cons_append,
        ih (by simp), List.intercalate_cons_cons]
      simp

/-- Words that are joined in groups are joined. -/
theorem intercalate_flatMap {groups : List β} {f : β → List (List α)}
    (some : ∀ group ∈ groups, f group ≠ []) :
    [x].intercalate (groups.flatMap f) =
      [x].intercalate (groups.map fun group => [x].intercalate (f group)) := by
  induction groups with
  | nil => rfl
  | cons group groups ih =>
    have later := ih fun g member => some g (List.mem_cons_of_mem _ member)
    cases groups with
    | nil => simp
    | cons next groups =>
      have first := some group List.mem_cons_self
      have second : (next :: groups).flatMap f ≠ [] := by
        rw [List.flatMap_cons]
        simp [some next (List.mem_cons_of_mem _ List.mem_cons_self)]
      rw [List.flatMap_cons, intercalate_append first second, later, List.map_cons, List.map_cons,
        List.map_cons, List.intercalate_cons_cons]
      simp

theorem map_intercalate {f : α → α} (fixed : f x = x) :
    ([x].intercalate words).map f = [x].intercalate (words.map (List.map f)) := by
  induction words with
  | nil => rfl
  | cons word words ih =>
    cases words with
    | nil => simp
    | cons next words =>
      rw [List.intercalate_cons_cons, List.map_append, List.map_append, ih]
      simp only [List.map_cons, List.intercalate_cons_cons, List.map_nil, fixed]

/-- No part of a split has a character that was split at. -/
theorem not_stop_of_mem_splitOnP {stops : α → Bool} {text part : List α}
    (member : part ∈ text.splitOnP stops) : ∀ c ∈ part, stops c = false := by
  induction text generalizing part with
  | nil =>
    rw [List.splitOnP_nil, List.mem_singleton] at member
    subst member
    simp
  | cons d text ih =>
    rw [List.splitOnP_cons_eq_if_modifyHead] at member
    obtain ⟨first, parts, cut⟩ := List.exists_cons_of_ne_nil (List.splitOnP_ne_nil stops text)
    rw [cut] at member ih
    by_cases stop : stops d = true
    · rw [if_pos stop] at member
      rcases List.mem_cons.mp member with rfl | later
      · simp
      · exact ih later
    · rw [if_neg stop, List.modifyHead_cons] at member
      rcases List.mem_cons.mp member with rfl | later
      · intro c inside
        rcases List.mem_cons.mp inside with rfl | inside
        · simpa using stop
        · exact ih List.mem_cons_self c inside
      · exact ih (List.mem_cons_of_mem _ later)

theorem not_mem_of_mem_splitOn [DecidableEq α] {text part : List α}
    (member : part ∈ text.splitOn x) : x ∉ part := by
  rw [List.splitOn_eq_splitOnP] at member
  intro inside
  simpa using not_stop_of_mem_splitOnP member x inside

/-- Words without the separator can be told from how they are joined. -/
theorem intercalate_inj [DecidableEq α] (some : words ≠ []) (some' : more ≠ [])
    (apart : ∀ word ∈ words, x ∉ word) (apart' : ∀ word ∈ more, x ∉ word) :
    [x].intercalate words = [x].intercalate more ↔ words = more := by
  constructor
  · intro same
    rw [← List.splitOn_intercalate x apart some, same, List.splitOn_intercalate x apart' some']
  · rintro rfl
    rfl

end Joining

end Python
