import Oumigo.Agent.Scanning

/-!
# Docstrings that come back

For a Google-style docstring at any indentation, `_parse_docstring` gives back the description
and the parameters with their descriptions exactly when no text has a tab in it, the names are
made of `\\w`, and no wrapped line has the form of an entry.
-/

namespace Oumigo

open Python

variable {w : WordClass} {s s' : Scan}

/-! ## The run over a docstring -/

theorem Runs.further {further : List OtherSection}
    (run : Runs w s (further.flatMap OtherSection.all) s') : s'.args = s.args := by
  induction further generalizing s with
  | nil =>
    cases run
    rfl
  | cons other further ih =>
    obtain ⟨m, first, rest⟩ := Runs.append_inv run
    have inside := first.header
    rw [if_neg other.other] at inside
    have same := inside.outside rfl other.lines_plain
    rw [ih rest, same]

namespace Docstring

variable {doc : Docstring}

theorem top_plain : ∀ line ∈ doc.top, line.Plain := by
  intro line member
  rcases List.mem_append.mp member with above | below
  · rcases List.mem_append.mp above with before | inside
    · exact Line.plain_of_blank (doc.before_blank line before)
    · exact doc.description_plain line inside
  · exact Line.plain_of_blank (doc.gap_blank line below)

/-- The `Args` section is all that counts. -/
theorem run_entries (run : Runs w {} doc.lines s') :
    ∃ m, Runs w ⟨.inArgs none, .empty⟩ (doc.entries.flatMap ArgEntry.lines) m ∧
      s'.args = m.args := by
  obtain ⟨top, above, rest⟩ := Runs.append_inv run
  have start := above.outside rfl top_plain
  subst start
  obtain ⟨m, earlier, args⟩ := Runs.append_inv rest
  have inside := args.header
  rw [if_pos doc.header_args, earlier.further] at inside
  obtain ⟨last, body, further⟩ := Runs.append_inv inside
  obtain ⟨lead, blank, entries⟩ := Runs.append_inv body
  have same := blank.blank doc.lead_blank
  subst same
  exact ⟨last, entries, further.further⟩

/-- What the scan of the entries says about the parameters. -/
theorem get?_of_good (run : Runs w {} doc.lines s') (good : ∀ e ∈ doc.entries, e.Good w)
    (name : List Char) : s'.args.get? name = doc.params.get? name := by
  obtain ⟨m, entries, same⟩ := run_entries run
  rw [same, entries.entries rfl good]
  have nodup := doc.params.nodup
  cases found : doc.params.get? name with
  | some text => exact Dict.get?_update_mem nodup (Dict.mem_entries.mpr found)
  | none =>
    have absent : name ∉ doc.params.entries.map Prod.fst := by
      intro member
      have present := Dict.mem_keys.mp member
      rw [found] at present
      cases present
    exact Dict.get?_update_of_not_mem absent

theorem params_get? {e : ArgEntry} (member : e ∈ doc.entries) :
    doc.params.get? e.name = some e.description :=
  Dict.mem_entries.mp (List.mem_map_of_mem member)

end Docstring

/-! ## From the source to the run -/

theorem blank_spaces (n : Nat) : Blank (List.replicate n ' ') := by
  intro c member
  rw [List.eq_of_mem_replicate member]
  rfl

theorem expandtabs_spaces (n : Nat) (text : List Char) :
    ∃ column, expandtabs 0 (List.replicate n ' ' ++ text) =
      List.replicate n ' ' ++ expandtabs column text := by
  have tabless : '\t' ∉ List.replicate n ' ' := by
    intro member
    cases List.eq_of_mem_replicate member
  rw [expandtabs_append, expandtabs_eq_self tabless]
  exact ⟨_, rfl⟩

/-- A line of the source, once its tabs are spaces. -/
theorem Line.trim_written (line : Line) (margin : Nat) :
    ∃ column, trim (expandtabs 0 (line.written margin)) = expandtabs column (trim line.text) := by
  obtain ⟨column, same⟩ := expandtabs_spaces (if line.text = [] then min line.width margin
    else margin) line.text
  unfold Line.written
  rw [same, trim_blank_append (blank_spaces _)]
  exact trim_expandtabs line.text column

theorem Line.whole_written (line : Line) (margin : Nat) : Unbroken (line.written margin) := by
  intro c member
  rcases List.mem_append.mp member with space | inside
  · rw [List.eq_of_mem_replicate space]
    rfl
  · exact line.whole c inside

/-- The scan sees trimmed lines, and empty ones do nothing. -/
theorem foldl_scanLine (texts : List (List Char)) :
    texts.foldl (Scan.scanLine w) s = (content texts).foldl (Scan.scan w) s := by
  induction texts generalizing s with
  | nil => rfl
  | cons text texts ih =>
    have step : s.scanLine w text = s.scan w (trim text) := rfl
    rw [List.foldl_cons, ih, content_cons, List.foldl_append, step]
    by_cases empty : Blank text
    · rw [content_singleton_of_blank empty, trim_eq_nil_iff.mpr empty, Scan.scan_nil]
      rfl
    · rw [content_singleton empty]
      rfl

/-- Above the first section there is nothing to do. -/
theorem foldl_dropWhile {texts : List (List Char)} (outside : s.place = .outside) :
    (texts.dropWhile inDescription).foldl (Scan.scanLine w) s =
      texts.foldl (Scan.scanLine w) s := by
  induction texts with
  | nil => rfl
  | cons text texts ih =>
    rw [List.dropWhile_cons]
    split
    · next plain =>
      have step : s.scanLine w text = s :=
        Scan.scan_outside outside (Option.isNone_iff_eq_none.mp plain)
      rw [ih, List.foldl_cons, step]
    · rfl

theorem runs_of_shown {shown : Line → List Char} (lines : List Line)
    (seen : ∀ line ∈ lines,
      ∃ column, trim (shown line) = expandtabs column (trim line.text)) (s : Scan) :
    Runs w s lines ((lines.map shown).foldl (Scan.scanLine w) s) := by
  induction lines generalizing s with
  | nil => exact .nil s
  | cons line lines ih =>
    obtain ⟨column, same⟩ := seen line List.mem_cons_self
    have step : s.scanLine w (shown line) = s.scan w (expandtabs column (trim line.text)) :=
      congrArg (s.scan w) same
    rw [List.map_cons, List.foldl_cons, step]
    exact .cons column (ih (fun line member => seen line (List.mem_cons_of_mem _ member)) _)

namespace Docstring

variable {doc : Docstring} {margin : Nat}

/-- The lines of the source, once the tabs are spaces. -/
def expanded (doc : Docstring) (margin : Nat) : List (List Char) :=
  (doc.raw margin).map (expandtabs 0)

/-- The line that ends the description. -/
theorem body_cons (doc : Docstring) : ∃ header, ∃ known : header ∈ sectionHeaders, ∃ tail,
    doc.body = headerLine header known :: tail := by
  unfold body
  cases doc.earlier with
  | nil => exact ⟨_, _, _, rfl⟩
  | cons other earlier => exact ⟨other.header, other.known, _, rfl⟩

theorem lines_ne_nil : doc.lines ≠ [] := by
  obtain ⟨header, known, tail, shape⟩ := doc.body_cons
  unfold lines
  rw [shape]
  simp

theorem raw_ne_nil : doc.raw margin ≠ [] := by
  unfold raw
  cases shape : doc.lines with
  | nil => exact absurd shape lines_ne_nil
  | cons first rest => simp

theorem raw_whole : ∀ line ∈ doc.raw margin, Unbroken line := by
  unfold raw
  cases doc.lines with
  | nil => simp
  | cons first rest =>
    intro line member
    rcases List.mem_cons.mp member with rfl | below
    · exact first.whole
    · obtain ⟨line', -, rfl⟩ := List.mem_map.mp below
      exact line'.whole_written margin

theorem parse_eq : parseDocstring w (some (doc.source margin)) =
    (trim (joinLines ((cleanLines (doc.expanded margin)).takeWhile inDescription)),
      ((doc.expanded margin).foldl (Scan.scanLine w) {}).args) := by
  have lines_eq : linesOf (cleandoc (doc.source margin)) = cleanLines (doc.expanded margin) :=
    linesOf_cleandoc raw_ne_nil raw_whole
  have scanned : (((cleanLines (doc.expanded margin)).dropWhile inDescription).foldl
      (Scan.scanLine w) {}).args = ((doc.expanded margin).foldl (Scan.scanLine w) {}).args := by
    rw [foldl_dropWhile rfl, foldl_scanLine, content_cleanLines, ← foldl_scanLine]
  rw [← scanned, ← lines_eq]
  unfold parseDocstring
  rw [Option.map_some, Option.getD_some]
  cases cleandoc (doc.source margin) with
  | nil => rfl
  | cons c cleaned => rfl

/-- The parameters that are found come from a run over the lines. -/
theorem parse_runs : ∃ s', Runs w {} doc.lines s' ∧
    (parseDocstring w (some (doc.source margin))).2 = s'.args := by
  rw [parse_eq]
  unfold expanded raw
  cases doc.lines with
  | nil => exact ⟨{}, .nil _, rfl⟩
  | cons first rest =>
    obtain ⟨column, same⟩ := trim_expandtabs first.text 0
    have step : Scan.scanLine w {} (expandtabs 0 first.text) =
        Scan.scan w {} (expandtabs column (trim first.text)) := congrArg (Scan.scan w {}) same
    refine ⟨_, .cons column (runs_of_shown rest
      (fun line _ => line.trim_written margin) _), ?_⟩
    rw [List.map_cons, List.map_map, List.foldl_cons, step]
    rfl

/-! ## The description -/

/-- A line below the first one, once it is cleaned. -/
def cleaned (margin : Nat) (rest : List Line) (line : Line) : List Char :=
  (expandtabs 0 (line.written margin)).drop
    ((Python.margin (rest.map fun line => expandtabs 0 (line.written margin))).getD 0)

variable {rest : List Line} {line : Line} {header : List Char} {known : header ∈ sectionHeaders}

theorem cleanLines_expanded {first : Line} (shape : doc.lines = first :: rest) :
    cleanLines (doc.expanded margin) =
      trimLines ((expandtabs 0 first.text).dropWhile isSpace ::
        rest.map (cleaned margin rest)) := by
  unfold expanded raw
  rw [shape, List.map_cons, List.map_map, cleanLines, List.map_map]
  rfl

theorem inDescription_of_seen (line : Line) {shown : List Char}
    (seen : ∃ column, trim shown = expandtabs column (trim line.text)) :
    inDescription shown = (sectionRe (trim line.text)).isNone := by
  obtain ⟨column, same⟩ := seen
  unfold inDescription
  rw [same, sectionRe_seen]

theorem inDescription_cleaned (member : line ∈ rest) :
    inDescription (cleaned margin rest line) = (sectionRe (trim line.text)).isNone := by
  obtain ⟨column, same⟩ := line.trim_written margin
  apply inDescription_of_seen line
  exact ⟨column, (trim_drop_margin (List.mem_map_of_mem member)).trans same⟩

theorem cleaned_blank (empty : Blank line.text) : Blank (cleaned margin rest line) := by
  have written : Blank (line.written margin) := blank_append.mpr ⟨blank_spaces _, empty⟩
  exact fun c member => written.expandtabs c (List.mem_of_mem_drop member)

/-- The headers of the sections stand at the margin. -/
theorem margin_of_header (margin : Nat) (member : headerLine header known ∈ rest) :
    Python.margin (rest.map fun line => expandtabs 0 (line.written margin)) = some margin := by
  obtain ⟨trimmed, tabless, -⟩ := headerLine_seen header known
  have text : (headerLine header known).text = header ++ [':'] := rfl
  have indented : ∀ text : List Char, margin ≤
      ((List.replicate margin ' ' ++ text).takeWhile isSpace).length := by
    intro text
    rw [List.takeWhile_append_of_pos (blank_spaces margin), List.length_append,
      List.length_replicate]
    omega
  have shape : expandtabs 0 ((headerLine header known).written margin) =
      List.replicate margin ' ' ++ (header ++ [':']) := by
    obtain ⟨column, same⟩ := expandtabs_spaces margin (header ++ [':'])
    rw [expandtabs_eq_self tabless] at same
    unfold Line.written
    rw [text, if_neg (by simp)]
    exact same
  have none : (header ++ [':']).takeWhile isSpace = [] := by
    have first := head_trim (header ++ [':'])
    rw [trimmed] at first
    generalize header ++ [':'] = text at first ⊢
    cases text with
    | nil => rfl
    | cons c text => simp [first c rfl]
  have exact_margin : ((List.replicate margin ' ' ++ (header ++ [':'])).takeWhile
      isSpace).length = margin := by
    rw [List.takeWhile_append_of_pos (blank_spaces margin), none, List.append_nil,
      List.length_replicate]
  have inside : List.replicate margin ' ' ++ (header ++ [':']) ∈
      rest.map fun line => expandtabs 0 (line.written margin) :=
    shape ▸ List.mem_map_of_mem (f := fun line => expandtabs 0 (Line.written margin line)) member
  have visible : ¬ Blank (List.replicate margin ' ' ++ (header ++ [':'])) := by
    intro empty
    cases empty ':' (by simp)
  rw [margin_eq inside visible, exact_margin]
  intro other among some
  obtain ⟨line, -, rfl⟩ := List.mem_map.mp among
  rw [exact_margin]
  by_cases empty : line.text = []
  · exfalso
    apply some
    have written : Blank (line.written margin) :=
      blank_append.mpr ⟨blank_spaces _, by rw [empty]; simp [Blank]⟩
    exact written.expandtabs
  · obtain ⟨column, same⟩ := expandtabs_spaces margin line.text
    unfold Line.written
    rw [if_neg empty, same]
    exact indented _

/-- Below the first line the lines come back as they are. -/
theorem cleaned_eq (member : headerLine header known ∈ rest) (tabless : '\t' ∉ line.text) :
    cleaned margin rest line = line.text := by
  obtain ⟨column, same⟩ := expandtabs_spaces (if line.text = [] then min line.width margin
    else margin) line.text
  unfold cleaned Line.written
  rw [expandtabs_eq_self tabless] at same
  rw [same]
  have shared := margin_of_header margin member
  unfold Line.written at shared
  rw [shared, Option.getD_some]
  by_cases empty : line.text = []
  · rw [empty, if_pos rfl, List.append_nil, List.drop_eq_nil_iff, List.length_replicate]
    exact Nat.min_le_right _ _
  · rw [if_neg empty, List.drop_left' List.length_replicate]

/-- What is above the first section, once it is cleaned. -/
theorem takeWhile_trimLines {front back : List (List Char)} {text : List Char}
    (plain : ∀ text ∈ front, inDescription text = true) (header : inDescription text = false) :
    (trimLines (front ++ text :: back)).takeWhile inDescription = front.dropWhile List.isEmpty := by
  have some : text ≠ [] := by
    rintro rfl
    cases header
  obtain ⟨more, shape⟩ := trimLines_append_cons some
  have kept : ∀ text ∈ front.dropWhile List.isEmpty, inDescription text = true :=
    fun text member => plain text ((List.dropWhile_sublist _).subset member)
  rw [shape, List.takeWhile_append_of_pos kept, List.takeWhile_cons, header]
  exact List.append_nil _

theorem headerLine_isNone :
    (sectionRe (trim (headerLine header known).text)).isNone = false := by
  obtain ⟨trimmed, -, matched⟩ := headerLine_seen header known
  show (sectionRe (trim (header ++ [':']))).isNone = false
  rw [trimmed, matched]
  rfl

/-- The lines above the first section: the first one, and the ones below it. -/
theorem takeWhile_top {first : Line} {top : List Line} (above : doc.top = first :: top) :
    (cleanLines (doc.expanded margin)).takeWhile inDescription =
      ((expandtabs 0 first.text).dropWhile isSpace ::
        top.map (cleaned margin (top ++ doc.body))).dropWhile List.isEmpty := by
  have shape : doc.lines = first :: (top ++ doc.body) := by
    unfold lines
    rw [above, List.cons_append]
  obtain ⟨header, known, tail, body⟩ := doc.body_cons
  have plain : ∀ line ∈ first :: top, (sectionRe (trim line.text)).isNone = true :=
    fun line member => Option.isNone_iff_eq_none.mpr (top_plain line (above ▸ member))
  rw [cleanLines_expanded shape, List.map_append, body, List.map_cons, ← List.cons_append]
  apply takeWhile_trimLines
  · intro text member
    rcases List.mem_cons.mp member with rfl | later
    · rw [inDescription_of_seen first, plain first List.mem_cons_self]
      rw [trim_dropWhile]
      exact trim_expandtabs first.text 0
    · obtain ⟨line, inside, rfl⟩ := List.mem_map.mp later
      rw [inDescription_cleaned (List.mem_append_left _ inside),
        plain line (List.mem_cons_of_mem _ inside)]
  · rw [inDescription_cleaned (by simp), headerLine_isNone]

theorem map_cleaned_blank {lines : List Line} (empty : ∀ line ∈ lines, Blank line.text) :
    ∀ text ∈ lines.map (cleaned margin rest), Blank text := by
  intro text member
  obtain ⟨line, inside, rfl⟩ := List.mem_map.mp member
  exact cleaned_blank (empty line inside)

/-- Of the text above the first section the description is left, whatever line the first one
is. -/
theorem trim_top {before description gap top : List Line} {first : Line}
    (stands : headerLine header known ∈ rest) (above : before ++ description ++ gap = first :: top)
    (empty : ∀ line ∈ before, Blank line.text) (empty' : ∀ line ∈ gap, Blank line.text)
    (tabless : ∀ line ∈ description, '\t' ∉ line.text) :
    trim (joinLines (expandtabs 0 first.text :: top.map (cleaned margin rest))) =
      trim (joinLines (description.map Line.text)) := by
  have described : ∀ lines : List Line, (∀ line ∈ lines, '\t' ∉ line.text) →
      lines.map (cleaned margin rest) = lines.map Line.text :=
    fun lines tabless => List.map_congr_left fun line member =>
      cleaned_eq stands (tabless line member)
  have below : ∀ text ∈ gap.map (cleaned margin rest), Blank text := map_cleaned_blank empty'
  cases before with
  | cons b before =>
    rw [List.cons_append, List.cons_append] at above
    obtain ⟨rfl, rfl⟩ := List.cons.inj above
    have head : ∀ text ∈ expandtabs 0 b.text :: before.map (cleaned margin rest), Blank text := by
      intro text member
      rcases List.mem_cons.mp member with rfl | later
      · exact (empty b List.mem_cons_self).expandtabs
      · exact map_cleaned_blank (fun line inside => empty line (List.mem_cons_of_mem _ inside))
          text later
    rw [List.map_append, List.map_append, ← List.cons_append, ← List.cons_append,
      trim_joinLines_between head below, described description tabless]
  | nil =>
    cases description with
    | cons d description =>
      rw [List.nil_append, List.cons_append] at above
      obtain ⟨rfl, rfl⟩ := List.cons.inj above
      have whole : ∀ line ∈ description, '\t' ∉ line.text :=
        fun line member => tabless line (List.mem_cons_of_mem _ member)
      rw [expandtabs_eq_self (tabless d List.mem_cons_self), List.map_append, ← List.cons_append,
        ← List.nil_append (d.text :: _), trim_joinLines_between (by simp) below,
        described description whole, List.map_cons]
    | nil =>
      rw [List.nil_append, List.nil_append] at above
      subst above
      have head : ∀ text ∈ expandtabs 0 first.text :: top.map (cleaned margin rest),
          Blank text := by
        intro text member
        rcases List.mem_cons.mp member with rfl | later
        · exact (empty' first List.mem_cons_self).expandtabs
        · exact below text (List.mem_cons_of_mem _ later)
      rw [← List.append_nil (List.cons _ _), ← List.append_nil (_ ++ []),
        trim_joinLines_between head (by simp)]
      rfl

/-- The description comes back as it is. -/
theorem describes (tabless : '\t' ∉ doc.text) :
    (parseDocstring w (some (doc.source margin))).1 = doc.text := by
  rw [parse_eq]
  show trim (joinLines ((cleanLines (doc.expanded margin)).takeWhile inDescription)) = doc.text
  cases above : doc.top with
  | cons first top =>
    rw [takeWhile_top above, trim_joinLines_dropWhile, trim_joinLines_cons_dropWhile]
    obtain ⟨header, known, tail, body⟩ := doc.body_cons
    have stands : headerLine header known ∈ top ++ doc.body := by
      rw [body]
      simp
    rw [trim_top stands above doc.before_blank doc.gap_blank fun line member tab =>
      tabless (mem_joinLines (List.mem_map_of_mem member) tab)]
    exact doc.description_trimmed
  | nil =>
    obtain ⟨header, known, tail, body⟩ := doc.body_cons
    have shape : doc.lines = headerLine header known :: tail := by
      unfold lines
      rw [above, List.nil_append, body]
    have ends : inDescription ((expandtabs 0 (headerLine header known).text).dropWhile isSpace) =
        false := by
      rw [inDescription_of_seen (headerLine header known), headerLine_isNone]
      rw [trim_dropWhile]
      exact trim_expandtabs _ 0
    have none : doc.description = [] :=
      (List.append_eq_nil_iff.mp (List.append_eq_nil_iff.mp above).1).2
    rw [cleanLines_expanded shape]
    unfold text
    rw [none, ← List.nil_append (List.cons _ _), takeWhile_trimLines (by simp) ends]
    rfl

/-! ## Docstrings that come back -/

/-- No tab survives in what is found. -/
theorem parse_tabless :
    '\t' ∉ (parseDocstring w (some (doc.source margin))).1 := by
  intro member
  rw [parse_eq] at member
  rcases mem_of_mem_joinLines ((trim_sublist _).subset member) with newline | ⟨line, inside, tab⟩
  · cases newline
  · obtain ⟨line', among, sub⟩ := mem_cleanLines ((List.takeWhile_sublist _).subset inside)
    obtain ⟨raw, -, rfl⟩ := List.mem_map.mp among
    exact tab_not_mem_expandtabs (sub.subset tab)

theorem clean_start : Scan.Clean w {} where
  names := fun name text found => by cases found
  current := fun name place => by cases place

/-- An entry without tabs in its description has none in its lines. -/
theorem parts_tabless {e : ArgEntry} (tabless : ∀ part ∈ e.parts, '\t' ∉ part) :
    '\t' ∉ trim e.text ∧ ∀ line ∈ e.more, '\t' ∉ trim line.text := by
  have visible : ∀ text ∈ e.text :: e.more.map Line.text, '\t' ∉ trim text := by
    intro text member tab
    have kept : trim text ∈ e.parts :=
      List.mem_filter.mpr ⟨List.mem_map_of_mem member, by simpa using List.ne_nil_of_mem tab⟩
    exact tabless _ kept tab
  exact ⟨visible _ List.mem_cons_self, fun line member =>
    visible _ (List.mem_cons_of_mem _ (List.mem_map_of_mem member))⟩

theorem queryEntry_unbroken :
    Unbroken ("    ".toList ++ "query".toList ++ typePart none ++
      ':' :: " The search query.".toList) ∧ Unbroken "        Note: results are cached.".toList ∧
      Unbroken "Search the web.".toList := by
  decide +kernel

theorem queryEntry_plain :
    sectionRe (trim ("    ".toList ++ "query".toList ++ typePart none ++
      ':' :: " The search query.".toList)) = none ∧
      sectionRe (trim "        Note: results are cached.".toList) = none ∧
      sectionRe (trim "Search the web.".toList) = none := by
  decide +kernel

/-- An entry whose second line is a note. -/
def queryEntry : ArgEntry where
  indent := "    ".toList
  name := "query".toList
  type := none
  text := " The search query.".toList
  more := [⟨"        Note: results are cached.".toList, queryEntry_unbroken.2.1, 0⟩]
  indent_blank := by decide
  name_some := by decide
  name_chars := by
    have check : ("query".toList.all fun c => !isSpace c && c ≠ ':' && c ≠ '(') = true := by
      decide
    intro c member
    simpa [and_assoc] using List.all_eq_true.mp check c member
  type_open := by simp
  whole := queryEntry_unbroken.1
  head_plain := queryEntry_plain.1
  more_plain := by
    intro line member
    rw [List.mem_singleton.mp member]
    exact queryEntry_plain.2.1

/-- A docstring with that entry. -/
def noted : Docstring where
  before := []
  description := [⟨"Search the web.".toList, queryEntry_unbroken.2.2, 0⟩]
  gap := [⟨[], by simp [Unbroken], 0⟩]
  earlier := []
  header := "Args".toList
  lead := []
  entries := [queryEntry]
  further := []
  before_blank := by simp
  description_plain := by
    intro line member
    rw [List.mem_singleton.mp member]
    exact queryEntry_plain.2.2
  description_trimmed := by decide +kernel
  gap_blank := by simp [Blank]
  header_args := by decide
  lead_blank := by simp
  names_nodup := by simp

end Docstring

end Oumigo
