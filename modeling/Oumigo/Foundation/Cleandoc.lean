import Oumigo.Foundation.Text
import Mathlib.Data.List.DropRight

/-!
# Docstrings as `inspect.getdoc` hands them over

`str.strip`, `str.expandtabs` and `inspect.cleandoc` on characters.  Tabs become spaces, the
indentation that the lines below the first one share is cut off, and empty lines at both ends
go.  What the ends of a line were is the only thing that changes in it besides its tabs
(`trim_expandtabs`, `trim_drop_margin`).
-/

namespace Python

variable {text rest blank : List Char} {c : Char} {column : Nat} {lines : List (List Char)}

/-! ## Trimming -/

/-- `text.strip()`. -/
def trim (text : List Char) : List Char := (text.dropWhile isSpace).rdropWhile isSpace

/-- Nothing but white space. -/
def Blank (text : List Char) : Prop := ∀ c ∈ text, isSpace c = true

instance : Decidable (Blank text) := List.decidableBAll (fun c => isSpace c = true) text

theorem strip_eq_trim (s : String) : strip s = String.ofList (trim s.toList) := rfl

theorem blank_append : Blank (text ++ rest) ↔ Blank text ∧ Blank rest := by
  simp [Blank, or_imp, forall_and]

theorem trim_blank_append (empty : Blank blank) : trim (blank ++ text) = trim text := by
  unfold trim
  rw [List.dropWhile_append_of_pos empty]

theorem rdropWhile_append_blank (empty : Blank blank) :
    (text ++ blank).rdropWhile isSpace = text.rdropWhile isSpace := by
  unfold List.rdropWhile
  rw [List.reverse_append, List.dropWhile_append_of_pos]
  intro c member
  exact empty c (List.mem_reverse.mp member)

/-- Nothing behind a visible character keeps it from staying. -/
theorem rdropWhile_append_of_stop (stop : ¬ isSpace c = true) :
    (text ++ [c] ++ rest).rdropWhile isSpace = text ++ [c] ++ rest.rdropWhile isSpace := by
  induction rest using List.reverseRecOn with
  | nil =>
    rw [List.append_nil, List.rdropWhile_concat_neg _ _ _ stop, List.rdropWhile_nil,
      List.append_nil]
  | append_singleton rest d ih =>
    rw [← List.append_assoc]
    by_cases space : isSpace d = true
    · rw [List.rdropWhile_concat_pos _ _ _ space, List.rdropWhile_concat_pos _ _ _ space, ih]
    · rw [List.rdropWhile_concat_neg _ _ _ space, List.rdropWhile_concat_neg _ _ _ space,
        List.append_assoc]

theorem dropWhile_eq_nil_iff_blank : text.dropWhile isSpace = [] ↔ Blank text :=
  List.dropWhile_eq_nil_iff

theorem trim_append_blank (empty : Blank blank) : trim (text ++ blank) = trim text := by
  unfold trim
  rw [List.dropWhile_append]
  cases front : text.dropWhile isSpace with
  | nil =>
    have none : blank.dropWhile isSpace = [] := dropWhile_eq_nil_iff_blank.mpr empty
    rw [none]
    rfl
  | cons c more => exact rdropWhile_append_blank empty

theorem trim_dropWhile_append : trim (text.dropWhile isSpace ++ rest) = trim (text ++ rest) := by
  conv_rhs => rw [← List.takeWhile_append_dropWhile (p := isSpace) (l := text), List.append_assoc]
  have front : Blank (text.takeWhile isSpace) := fun c member => List.mem_takeWhile_imp member
  rw [trim_blank_append front]

theorem trim_dropWhile : trim (text.dropWhile isSpace) = trim text := by
  rw [← List.append_nil (text.dropWhile isSpace), trim_dropWhile_append, List.append_nil]

theorem trim_rdropWhile : trim (text.rdropWhile isSpace) = trim text := by
  conv_rhs => rw [← List.rdropWhile_append_rtakeWhile (p := isSpace) (l := text)]
  have back : Blank (text.rtakeWhile isSpace) := fun c member => List.mem_rtakeWhile_imp member
  rw [trim_append_blank back]

/-- A text between white space. -/
theorem exists_trim (text : List Char) :
    ∃ front back, Blank front ∧ Blank back ∧ text = front ++ trim text ++ back := by
  refine ⟨text.takeWhile isSpace, (text.dropWhile isSpace).rtakeWhile isSpace, ?_, ?_, ?_⟩
  · exact fun c member => List.mem_takeWhile_imp member
  · exact fun c member => List.mem_rtakeWhile_imp member
  · unfold trim
    rw [List.append_assoc, List.rdropWhile_append_rtakeWhile, List.takeWhile_append_dropWhile]

theorem head_trim (text : List Char) : ∀ c ∈ (trim text).head?, isSpace c = false := by
  intro c first
  have begins : c ∈ (text.dropWhile isSpace).head? := by
    obtain ⟨more, whole⟩ := List.rdropWhile_prefix isSpace (l := text.dropWhile isSpace)
    unfold trim at first
    cases kept : (text.dropWhile isSpace).rdropWhile isSpace with
    | nil =>
      rw [kept] at first
      cases first
    | cons d inner =>
      rw [kept] at first whole
      rw [← whole]
      exact first
  have stop := List.head?_dropWhile_not isSpace text
  rw [Option.mem_def.mp begins] at stop
  simpa using stop

theorem getLast_trim (text : List Char) : ∀ c ∈ (trim text).getLast?, isSpace c = false := by
  intro c last
  have some : trim text ≠ [] := by
    intro none
    rw [none] at last
    cases last
  have stop := List.rdropWhile_last_not isSpace (text.dropWhile isSpace) some
  rw [List.getLast?_eq_getLast_of_ne_nil some, Option.mem_some_iff] at last
  subst last
  simpa [trim] using stop

/-- Nothing to trim. -/
theorem trim_eq_self (first : ∀ c ∈ text.head?, isSpace c = false)
    (last : ∀ c ∈ text.getLast?, isSpace c = false) : trim text = text := by
  have same := strip_eq_self (s := String.ofList text) (by simpa using first) (by simpa using last)
  rw [strip_eq_trim, String.toList_ofList] at same
  exact String.ofList_injective same

theorem trim_trim : trim (trim text) = trim text :=
  trim_eq_self (head_trim text) (getLast_trim text)

theorem trim_eq_nil_iff : trim text = [] ↔ Blank text := by
  constructor
  · intro none
    obtain ⟨front, back, empty, empty', whole⟩ := exists_trim text
    rw [none, List.append_nil] at whole
    rw [whole]
    exact blank_append.mpr ⟨empty, empty'⟩
  · intro empty
    unfold trim
    rw [dropWhile_eq_nil_iff_blank.mpr empty]
    rfl

theorem trim_sublist (text : List Char) : (trim text).Sublist text :=
  (List.rdropWhile_prefix isSpace _).sublist.trans (List.dropWhile_sublist isSpace)

theorem trim_drop (front : Blank (text.take column)) : trim (text.drop column) = trim text := by
  conv_rhs => rw [← List.take_append_drop column text]
  rw [trim_blank_append front]

/-! ## Tabs -/

/-- The column after a character. -/
def nextColumn (column : Nat) (c : Char) : Nat :=
  if c = '\t' then column + (8 - column % 8) else if c = '\n' ∨ c = '\r' then 0 else column + 1

/-- `text.expandtabs()`, from a column on. -/
def expandtabs : Nat → List Char → List Char
  | _, [] => []
  | column, c :: rest =>
      (if c = '\t' then List.replicate (8 - column % 8) ' ' else [c]) ++
        expandtabs (nextColumn column c) rest

/-- The column after a text. -/
def columnAfter (column : Nat) (text : List Char) : Nat := text.foldl nextColumn column

theorem expandtabs_append :
    expandtabs column (text ++ rest) =
      expandtabs column text ++ expandtabs (columnAfter column text) rest := by
  induction text generalizing column with
  | nil => rfl
  | cons c text ih =>
    rw [List.cons_append, expandtabs, ih, expandtabs, List.append_assoc]
    rfl

theorem expandtabs_cons (other : c ≠ '\t') :
    expandtabs column (c :: text) = c :: expandtabs (nextColumn column c) text := by
  rw [expandtabs, if_neg other]
  rfl

theorem expandtabs_eq_self (none : '\t' ∉ text) : expandtabs column text = text := by
  induction text generalizing column with
  | nil => rfl
  | cons c text ih =>
    have other : c ≠ '\t' := fun same => none (same ▸ List.mem_cons_self)
    rw [expandtabs_cons other, ih fun member => none (List.mem_cons_of_mem _ member)]

theorem mem_expandtabs (member : c ∈ expandtabs column text) :
    c = ' ' ∨ c ≠ '\t' ∧ c ∈ text := by
  induction text generalizing column with
  | nil => cases member
  | cons d text ih =>
    rw [expandtabs] at member
    rcases List.mem_append.mp member with first | later
    · by_cases tab : d = '\t'
      · rw [if_pos tab] at first
        exact .inl (List.eq_of_mem_replicate first)
      · rw [if_neg tab, List.mem_singleton] at first
        subst first
        exact .inr ⟨tab, List.mem_cons_self⟩
    · rcases ih later with space | ⟨other, inside⟩
      · exact .inl space
      · exact .inr ⟨other, List.mem_cons_of_mem _ inside⟩

theorem tab_not_mem_expandtabs : '\t' ∉ expandtabs column text := by
  intro member
  rcases mem_expandtabs member with space | ⟨other, inside⟩
  · cases space
  · exact other rfl

theorem mem_expandtabs_of_tab (member : '\t' ∈ text) : ' ' ∈ expandtabs column text := by
  obtain ⟨front, back, whole⟩ := List.append_of_mem member
  have width : 0 < 8 - columnAfter column front % 8 := by omega
  rw [whole, expandtabs_append, expandtabs, if_pos rfl]
  apply List.mem_append_right
  apply List.mem_append_left
  exact List.mem_replicate.mpr ⟨by omega, rfl⟩

theorem Blank.expandtabs (empty : Blank text) : Blank (expandtabs column text) := by
  intro c member
  rcases mem_expandtabs member with space | ⟨other, inside⟩
  · rw [space]
    rfl
  · exact empty c inside

/-- A trimmed text stays trimmed. -/
theorem trim_expandtabs_trim (text : List Char) (column : Nat) :
    trim (expandtabs column (trim text)) = expandtabs column (trim text) := by
  have first := head_trim text
  have last := getLast_trim text
  generalize trim text = core at first last ⊢
  apply trim_eq_self
  · cases core with
    | nil => simp [expandtabs]
    | cons c core =>
      have visible : isSpace c = false := first c rfl
      have other : c ≠ '\t' := by
        rintro rfl
        cases visible
      rw [expandtabs_cons other]
      simpa using visible
  · cases core using List.reverseRecOn with
    | nil => simp [expandtabs]
    | append_singleton core c =>
      have visible : isSpace c = false := last c (by simp)
      have other : c ≠ '\t' := by
        rintro rfl
        cases visible
      rw [expandtabs_append, expandtabs_cons other]
      simpa [expandtabs] using visible

/-- What trimming leaves is as it would be without the white space around it, from the column
at which it starts on. -/
theorem trim_expandtabs (text : List Char) (column : Nat) :
    ∃ column', trim (expandtabs column text) = expandtabs column' (trim text) := by
  obtain ⟨front, back, empty, empty', whole⟩ := exists_trim text
  apply Exists.intro (columnAfter column front)
  conv_lhs => rw [whole, List.append_assoc, expandtabs_append, expandtabs_append]
  rw [trim_blank_append empty.expandtabs, trim_append_blank empty'.expandtabs,
    trim_expandtabs_trim]

/-! ## Lines -/

/-- A line holds no line boundary. -/
def Unbroken (line : List Char) : Prop := ∀ c ∈ line, isLineBreak c = false

instance {line : List Char} : Decidable (Unbroken line) :=
  List.decidableBAll (fun c => isLineBreak c = false) line

/-- `"\n".join(lines)`. -/
def joinLines (lines : List (List Char)) : List Char := ['\n'].intercalate lines

theorem Unbroken.expandtabs (whole : Unbroken text) : Unbroken (expandtabs column text) := by
  intro c member
  rcases mem_expandtabs member with space | ⟨other, inside⟩
  · rw [space]
    rfl
  · exact whole c inside

theorem Unbroken.newline_not_mem (whole : Unbroken text) : '\n' ∉ text :=
  fun member => Bool.false_ne_true ((whole _ member).symm.trans rfl)

theorem joinLines_cons_cons {line next : List Char} :
    joinLines (line :: next :: lines) = line ++ '\n' :: joinLines (next :: lines) := by
  unfold joinLines
  rw [List.intercalate_cons_cons]
  simp

/-- Each line starts at column zero. -/
theorem expandtabs_joinLines (whole : ∀ line ∈ lines, Unbroken line) :
    expandtabs 0 (joinLines lines) = joinLines (lines.map (expandtabs 0)) := by
  induction lines with
  | nil => rfl
  | cons line lines ih =>
    have later := ih fun l member => whole l (List.mem_cons_of_mem _ member)
    cases lines with
    | nil => simp [joinLines]
    | cons next lines =>
      have restart : ∀ column, nextColumn column '\n' = 0 := fun column => by simp [nextColumn]
      rw [joinLines_cons_cons, expandtabs_append, expandtabs_cons (by decide), restart, later]
      exact joinLines_cons_cons.symm

/-- `splitlines` undoes `"\n".join` when the last line is not empty. -/
theorem linesOf_joinLines (whole : ∀ line ∈ lines, Unbroken line)
    (last : ∀ line ∈ lines.getLast?, line ≠ []) : linesOf (joinLines lines) = lines := by
  induction lines with
  | nil => rfl
  | cons line lines ih =>
    cases lines with
    | nil =>
      have some : line ≠ [] := last line rfl
      have one := whole line List.mem_cons_self
      simp only [joinLines, List.intercalate_singleton]
      clear ih whole last
      induction line with
      | nil => exact absurd rfl some
      | cons c line ih =>
        have inside : isLineBreak c = false := one c List.mem_cons_self
        unfold linesOf
        rw [if_neg (by rw [inside]; exact Bool.false_ne_true)]
        cases line with
        | nil => rfl
        | cons d line =>
          rw [ih (by simp) fun c member => one c (List.mem_cons_of_mem _ member)]
    | cons next lines =>
      have first := whole line List.mem_cons_self
      rw [joinLines_cons_cons, linesOf_append first,
        ih (fun l member => whole l (List.mem_cons_of_mem _ member)) (by simpa using last)]

/-- The line that a text ends with does not show once the text is trimmed. -/
theorem trim_joinLines :
    trim (joinLines lines) = trim (lines.flatMap fun line => line ++ ['\n']) := by
  induction lines using List.reverseRecOn with
  | nil => rfl
  | append_singleton lines line ih =>
    have newline : Blank ['\n'] := by decide
    have shape : ∀ front : List (List Char), joinLines (front ++ [line]) ++ ['\n'] =
        (front ++ [line]).flatMap fun line => line ++ ['\n'] := by
      intro front
      induction front with
      | nil => simp [joinLines]
      | cons first front ih =>
        cases front with
        | nil => simp [joinLines]
        | cons second front =>
          rw [List.cons_append, List.cons_append, joinLines_cons_cons, List.flatMap_cons,
            ← List.cons_append, ← ih]
          simp
    rw [← shape, trim_append_blank newline]

/-! ## `inspect.cleandoc` -/

/-- The indentation that the lines with something on them share. -/
def margin (lines : List (List Char)) : Option Nat :=
  ((lines.filter fun line => line.any fun c => !isSpace c).map fun line =>
    (line.takeWhile isSpace).length).min?

/-- Without the empty lines at both ends. -/
def trimLines (lines : List (List Char)) : List (List Char) :=
  (lines.rdropWhile List.isEmpty).dropWhile List.isEmpty

/-- The lines of a docstring without their indentation.  Where no line below the first one has
anything on it, nothing is cut. -/
def cleanLines : List (List Char) → List (List Char)
  | [] => []
  | first :: rest =>
      trimLines (first.dropWhile isSpace :: rest.map (List.drop ((margin rest).getD 0)))

/-- `inspect.cleandoc(doc)`. -/
def cleandoc (doc : List Char) : List Char :=
  joinLines (cleanLines ((expandtabs 0 doc).splitOn '\n'))

theorem mem_trimLines {line : List Char} (member : line ∈ trimLines lines) : line ∈ lines :=
  ((List.dropWhile_sublist _).trans (List.rdropWhile_prefix _ _).sublist).subset member

theorem mem_cleanLines {line : List Char} (member : line ∈ cleanLines lines) :
    ∃ line' ∈ lines, line.Sublist line' := by
  cases lines with
  | nil => cases member
  | cons first rest =>
    rcases List.mem_cons.mp (mem_trimLines member) with rfl | later
    · exact ⟨first, List.mem_cons_self, List.dropWhile_sublist _⟩
    · obtain ⟨line', inside, rfl⟩ := List.mem_map.mp later
      exact ⟨line', List.mem_cons_of_mem _ inside, List.drop_sublist _ _⟩

theorem getLast_trimLines : ∀ line ∈ (trimLines lines).getLast?, line ≠ [] := by
  intro line last same
  have kept : line ∈ (lines.rdropWhile List.isEmpty).getLast? := by
    obtain ⟨front, whole⟩ := List.dropWhile_suffix List.isEmpty (l := lines.rdropWhile List.isEmpty)
    have back : (lines.rdropWhile List.isEmpty).dropWhile List.isEmpty = trimLines lines := rfl
    rw [← whole, back, List.getLast?_append, Option.mem_def.mp last]
    rfl
  have some : lines.rdropWhile List.isEmpty ≠ [] := by
    intro none
    rw [none] at kept
    cases kept
  have stop := List.rdropWhile_last_not List.isEmpty lines some
  rw [List.getLast?_eq_getLast_of_ne_nil some, Option.mem_some_iff] at kept
  rw [kept, same] at stop
  exact stop rfl

theorem getLast_cleanLines : ∀ line ∈ (cleanLines lines).getLast?, line ≠ [] := by
  cases lines with
  | nil => simp [cleanLines]
  | cons first rest => exact getLast_trimLines

/-- The lines that `splitlines` finds in a cleaned docstring. -/
theorem linesOf_cleandoc (some : lines ≠ []) (whole : ∀ line ∈ lines, Unbroken line) :
    linesOf (cleandoc (joinLines lines)) = cleanLines (lines.map (expandtabs 0)) := by
  have expanded : ∀ line ∈ lines.map (expandtabs 0), Unbroken line := by
    intro line member
    obtain ⟨line', inside, rfl⟩ := List.mem_map.mp member
    exact (whole line' inside).expandtabs
  have split : (expandtabs 0 (joinLines lines)).splitOn '\n' = lines.map (expandtabs 0) := by
    rw [expandtabs_joinLines whole]
    exact List.splitOn_intercalate '\n' (fun line member => (expanded line member).newline_not_mem)
      (by simpa using some)
  unfold cleandoc
  rw [split]
  apply linesOf_joinLines _ getLast_cleanLines
  intro line member
  obtain ⟨line', inside, sub⟩ := mem_cleanLines member
  exact fun c at_line => expanded line' inside c (sub.subset at_line)

/-! ## What cleaning keeps -/

/-- The lines with something on them, trimmed. -/
def content (lines : List (List Char)) : List (List Char) :=
  (lines.map trim).filter fun line => !line.isEmpty

theorem content_append {more : List (List Char)} :
    content (lines ++ more) = content lines ++ content more := by
  simp [content]

theorem content_of_empty (empty : ∀ line ∈ lines, line.isEmpty = true) : content lines = [] := by
  unfold content
  rw [List.filter_eq_nil_iff]
  intro line member
  obtain ⟨line', inside, rfl⟩ := List.mem_map.mp member
  rw [List.isEmpty_iff.mp (empty line' inside)]
  decide

theorem content_trimLines : content (trimLines lines) = content lines := by
  have front : ∀ l : List (List Char), content (l.dropWhile List.isEmpty) = content l := by
    intro l
    conv_rhs => rw [← List.takeWhile_append_dropWhile (p := List.isEmpty) (l := l), content_append]
    rw [content_of_empty fun line member => List.mem_takeWhile_imp member]
    rfl
  have back : content (lines.rdropWhile List.isEmpty) = content lines := by
    conv_rhs =>
      rw [← List.rdropWhile_append_rtakeWhile (p := List.isEmpty) (l := lines), content_append]
    rw [content_of_empty fun line member => List.mem_rtakeWhile_imp member, List.append_nil]
  exact (front _).trans back

/-- The margin cuts white space only. -/
theorem trim_drop_margin {line : List Char} (member : line ∈ lines) :
    trim (line.drop ((margin lines).getD 0)) = trim line := by
  cases shared : margin lines with
  | none => rfl
  | some width =>
    rw [Option.getD_some]
    apply trim_drop
    by_cases empty : Blank line
    · exact fun c inside => empty c (List.mem_of_mem_take inside)
    · have visible : line.any (fun c => !isSpace c) = true := by
        simpa [Blank] using empty
      have least := (List.min?_eq_some_iff.mp shared).2 _ (List.mem_map_of_mem
        (List.mem_filter.mpr ⟨member, visible⟩))
      have front : line.take width <+: line.takeWhile isSpace :=
        List.prefix_of_prefix_length_le (List.take_prefix _ _) (List.takeWhile_prefix _)
          ((List.length_take_le _ _).trans least)
      exact fun c inside => List.mem_takeWhile_imp (front.subset inside)

theorem content_cleanLines : content (cleanLines lines) = content lines := by
  cases lines with
  | nil => rfl
  | cons first rest =>
    have head : trim (first.dropWhile isSpace) = trim first := trim_dropWhile
    have tail : (rest.map (List.drop ((margin rest).getD 0))).map trim = rest.map trim := by
      rw [List.map_map]
      exact List.map_congr_left fun line member => trim_drop_margin member
    unfold cleanLines
    rw [content_trimLines]
    unfold content
    rw [List.map_cons, List.map_cons, head, tail]

/-- A line that all others with something on them reach gives the margin. -/
theorem margin_eq {line : List Char} (member : line ∈ lines) (visible : ¬ Blank line)
    (least : ∀ other ∈ lines, ¬ Blank other →
      (line.takeWhile isSpace).length ≤ (other.takeWhile isSpace).length) :
    margin lines = some (line.takeWhile isSpace).length := by
  have shown : ∀ other : List Char, other.any (fun c => !isSpace c) = true ↔ ¬ Blank other := by
    intro other
    simp [Blank]
  unfold margin
  apply List.min?_eq_some_iff.mpr
  constructor
  · exact List.mem_map_of_mem (List.mem_filter.mpr ⟨member, (shown line).mpr visible⟩)
  · intro width among
    obtain ⟨other, kept, rfl⟩ := List.mem_map.mp among
    obtain ⟨inside, some⟩ := List.mem_filter.mp kept
    exact least other inside ((shown other).mp some)

theorem dropWhile_append_cons {α : Type*} {p : α → Bool} {front back : List α} {a : α}
    (stop : p a = false) :
    (front ++ a :: back).dropWhile p = front.dropWhile p ++ a :: back := by
  induction front with
  | nil => simp [stop]
  | cons b front ih =>
    cases test : p b with
    | true => simpa [test] using ih
    | false => simp [test]

/-- The ends of the lines around one that is not empty. -/
theorem trimLines_append_cons {front back : List (List Char)} {line : List Char}
    (some : line ≠ []) :
    ∃ more, trimLines (front ++ line :: back) = front.dropWhile List.isEmpty ++ line :: more := by
  have stop : line.isEmpty = false := by simpa using some
  unfold trimLines List.rdropWhile
  rw [List.reverse_append, List.reverse_cons, List.append_assoc, List.singleton_append,
    dropWhile_append_cons stop, List.reverse_append, List.reverse_cons, List.reverse_reverse,
    List.append_assoc, List.singleton_append, dropWhile_append_cons stop]
  exact ⟨_, rfl⟩

/-! ## Joined lines, trimmed -/

theorem blank_flatMap (empty : ∀ line ∈ lines, Blank line) :
    Blank (lines.flatMap fun line => line ++ ['\n']) := by
  intro c member
  obtain ⟨line, inside, member⟩ := List.mem_flatMap.mp member
  rcases List.mem_append.mp member with at_line | newline
  · exact empty line inside c at_line
  · rw [List.mem_singleton.mp newline]
    rfl

/-- Blank lines above and below do not show. -/
theorem trim_joinLines_between {above below : List (List Char)}
    (empty : ∀ line ∈ above, Blank line) (empty' : ∀ line ∈ below, Blank line) :
    trim (joinLines (above ++ lines ++ below)) = trim (joinLines lines) := by
  rw [trim_joinLines, trim_joinLines, List.flatMap_append, List.flatMap_append,
    trim_append_blank (blank_flatMap empty'), trim_blank_append (blank_flatMap empty)]

theorem trim_joinLines_dropWhile :
    trim (joinLines (lines.dropWhile List.isEmpty)) = trim (joinLines lines) := by
  conv_rhs => rw [← List.takeWhile_append_dropWhile (p := List.isEmpty) (l := lines)]
  have empty : ∀ line ∈ lines.takeWhile List.isEmpty, Blank line := by
    intro line member c inside
    rw [List.isEmpty_iff.mp (List.mem_takeWhile_imp member)] at inside
    cases inside
  have same : trim (joinLines (lines.takeWhile List.isEmpty ++ lines.dropWhile List.isEmpty ++
      [])) = trim (joinLines (lines.dropWhile List.isEmpty)) :=
    trim_joinLines_between empty (by simp)
  rw [List.append_nil] at same
  exact same.symm

theorem trim_joinLines_cons_dropWhile :
    trim (joinLines (text.dropWhile isSpace :: lines)) = trim (joinLines (text :: lines)) := by
  rw [trim_joinLines, trim_joinLines, List.flatMap_cons, List.flatMap_cons, List.append_assoc,
    List.append_assoc, trim_dropWhile_append]

theorem mem_joinLines {line : List Char} (member : line ∈ lines) (inside : c ∈ line) :
    c ∈ joinLines lines := by
  induction lines with
  | nil => cases member
  | cons first lines ih =>
    cases lines with
    | nil =>
      rw [List.mem_singleton.mp member] at inside
      simpa [joinLines] using inside
    | cons second lines =>
      rw [joinLines_cons_cons]
      rcases List.mem_cons.mp member with rfl | later
      · exact List.mem_append_left _ inside
      · exact List.mem_append_right _ (List.mem_cons_of_mem _ (ih later))

theorem mem_of_mem_joinLines (member : c ∈ joinLines lines) :
    c = '\n' ∨ ∃ line ∈ lines, c ∈ line := by
  induction lines with
  | nil => cases member
  | cons first lines ih =>
    cases lines with
    | nil =>
      have inside : c ∈ first := by simpa [joinLines] using member
      exact .inr ⟨first, List.mem_cons_self, inside⟩
    | cons second lines =>
      rw [joinLines_cons_cons] at member
      rcases List.mem_append.mp member with inside | later
      · exact .inr ⟨first, List.mem_cons_self, inside⟩
      · rcases List.mem_cons.mp later with newline | later
        · exact .inl newline
        · rcases ih later with newline | ⟨line, inside, at_line⟩
          · exact .inl newline
          · exact .inr ⟨line, List.mem_cons_of_mem _ inside, at_line⟩

/-! ## Joining parts with spaces -/

/-- `" ".join(parts)`. -/
def joinWords (parts : List (List Char)) : List Char := [' '].intercalate parts

/-- A text that is not empty and has no white space around it. -/
def Tight (part : List Char) : Prop := part ≠ [] ∧ trim part = part

theorem tight_of_mem_content {texts : List (List Char)} : ∀ part ∈ content texts, Tight part := by
  intro part member
  obtain ⟨inside, some⟩ := List.mem_filter.mp member
  obtain ⟨text, -, rfl⟩ := List.mem_map.mp inside
  exact ⟨by simpa using some, trim_trim⟩

variable {parts : List (List Char)} {part : List Char}

theorem joinWords_concat (some : parts ≠ []) :
    joinWords (parts ++ [part]) = joinWords parts ++ ' ' :: part := by
  induction parts with
  | nil => exact absurd rfl some
  | cons first parts ih =>
    cases parts with
    | nil => simp [joinWords]
    | cons second parts =>
      have later := ih (by simp)
      unfold joinWords at later ⊢
      rw [List.cons_append, List.cons_append, List.intercalate_cons_cons, ← List.cons_append,
        later, List.intercalate_cons_cons]
      simp

theorem joinWords_tight (some : parts ≠ []) (tight : ∀ part ∈ parts, Tight part) :
    Tight (joinWords parts) := by
  induction parts using List.reverseRecOn with
  | nil => exact absurd rfl some
  | append_singleton parts part ih =>
    have last := tight part (by simp)
    by_cases first : parts = []
    · subst first
      simpa [joinWords] using last
    · obtain ⟨front, trimmed⟩ := ih first fun part member => tight part (by simp [member])
      rw [joinWords_concat first]
      obtain ⟨c, rest, begins⟩ := List.exists_cons_of_ne_nil front
      have ends := getLast_trim part
      have starts := head_trim (joinWords parts)
      rw [trimmed, begins] at starts
      rw [last.2] at ends
      have shape : (joinWords parts ++ ' ' :: part).getLast? = part.getLast? := by
        rw [← List.singleton_append, ← List.append_assoc, List.getLast?_append,
          List.getLast?_eq_getLast_of_ne_nil last.1]
        rfl
      refine ⟨by simp, trim_eq_self ?_ ?_⟩
      · rw [begins]
        simpa using starts
      · rw [shape]
        exact ends

/-- What the scan does to a description when the next line comes. -/
theorem trim_joinWords_append (tight : ∀ part ∈ parts, Tight part) (next : Tight part) :
    trim (joinWords parts ++ ' ' :: part) = joinWords (parts ++ [part]) := by
  by_cases none : parts = []
  · subst none
    have blank : Blank [' '] := by decide
    show trim ([' '] ++ part) = _
    rw [trim_blank_append blank, next.2]
    simp [joinWords]
  · have all : ∀ other ∈ parts ++ [part], Tight other := by
      intro other member
      rcases List.mem_append.mp member with old | new
      · exact tight other old
      · exact List.mem_singleton.mp new ▸ next
    have whole := joinWords_tight (by simp) all
    rw [joinWords_concat none] at whole ⊢
    exact whole.2

theorem content_cons {text : List Char} {texts : List (List Char)} :
    content (text :: texts) = content [text] ++ content texts := by
  rw [← content_append, List.singleton_append]

theorem content_singleton_of_blank {text : List Char} (empty : Blank text) :
    content [text] = [] := by
  unfold content
  rw [List.map_singleton, trim_eq_nil_iff.mpr empty]
  rfl

theorem content_singleton {text : List Char} (visible : ¬ Blank text) :
    content [text] = [trim text] := by
  have some : trim text ≠ [] := fun none => visible (trim_eq_nil_iff.mp none)
  simp [content, some]

theorem joinWords_content_singleton {text : List Char} :
    joinWords (content [text]) = trim text := by
  by_cases empty : Blank text
  · rw [content_singleton_of_blank empty, trim_eq_nil_iff.mpr empty]
    rfl
  · rw [content_singleton empty]
    exact List.intercalate_singleton

theorem mem_joinWords (member : part ∈ parts) (inside : c ∈ part) : c ∈ joinWords parts := by
  induction parts with
  | nil => cases member
  | cons first parts ih =>
    cases parts with
    | nil =>
      rw [List.mem_singleton.mp member] at inside
      simpa [joinWords] using inside
    | cons second parts =>
      have shape : joinWords (first :: second :: parts) =
          first ++ ' ' :: joinWords (second :: parts) := by
        unfold joinWords
        rw [List.intercalate_cons_cons]
        simp
      rw [shape]
      rcases List.mem_cons.mp member with rfl | later
      · exact List.mem_append_left _ inside
      · exact List.mem_append_right _ (List.mem_cons_of_mem _ (ih later))

end Python
