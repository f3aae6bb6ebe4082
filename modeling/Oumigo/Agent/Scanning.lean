import Oumigo.Agent.Docstring

/-!
# Runs of the docstring scan

What the scan of `_parse_docstring` does with the lines of a Google-style docstring, whichever
column each of them starts at.  An entry whose wrapped lines do not look like entries sets its
name to its description (`Runs.entry`).  A wrapped line that does look like one leaves the value
behind the text it should have, for good (`Runs.behind`), so that entries which all come out
right have no such line (`Runs.unread`).
-/

namespace Oumigo

open Python

/-! ## Patterns on trimmed lines -/

variable {w : WordClass}

theorem sectionRe_nil : sectionRe [] = none := by decide

theorem headerLine_seen : ∀ header ∈ sectionHeaders,
    trim (header ++ [':']) = header ++ [':'] ∧ '\t' ∉ header ++ [':'] ∧
      sectionRe (header ++ [':']) = some header := by
  decide

/-- A header has no white space in it. -/
theorem sectionRe_of_space {line : List Char} {c : Char} (trimmed : trim line = line)
    (member : c ∈ line) (space : isSpace c = true) : sectionRe line = none := by
  cases matched : sectionRe line with
  | none => rfl
  | some header =>
    have known : header ∈ sectionHeaders := List.mem_of_find?_eq_some matched
    have test := List.find?_some matched
    simp only [Bool.and_eq_true, decide_eq_true_eq] at test
    obtain ⟨⟨rest, rfl⟩, empty⟩ := And.imp_left List.isPrefixOf_iff_prefix.mp test
    have behind : (header ++ [':'] ++ rest).drop (header.length + 1) = rest := by
      have length : header.length + 1 = (header ++ [':']).length := by simp
      rw [length, List.drop_left]
    rw [behind] at empty
    have visible : ∀ header ∈ sectionHeaders,
        ((header ++ [':']).all fun c => !isSpace c) = true := by decide
    rcases List.mem_append.mp member with inside | after
    · have shown := List.all_eq_true.mp (visible header known) c inside
      rw [space] at shown
      cases shown
    · exfalso
      have more : rest ≠ [] := List.ne_nil_of_mem after
      have last : (header ++ [':'] ++ rest).getLast? = some (rest.getLast more) := by
        rw [List.getLast?_append, List.getLast?_eq_getLast_of_ne_nil more]
        rfl
      have stop := getLast_trim (header ++ [':'] ++ rest)
      rw [trimmed] at stop
      have visible := stop _ last
      rw [empty _ (List.getLast_mem more)] at visible
      cases visible

/-- Tabs do not make a header, nor hide one. -/
theorem sectionRe_seen (text : List Char) (column : Nat) :
    sectionRe (expandtabs column (trim text)) = sectionRe (trim text) := by
  by_cases tab : '\t' ∈ trim text
  · rw [sectionRe_of_space (trim_expandtabs_trim text column) (mem_expandtabs_of_tab tab) rfl,
      sectionRe_of_space trim_trim tab rfl]
  · rw [expandtabs_eq_self tab]

theorem Line.Plain.seen {line : Line} (plain : line.Plain) (column : Nat) :
    sectionRe (expandtabs column (trim line.text)) = none :=
  (sectionRe_seen _ _).trans plain

theorem Line.plain_of_blank {line : Line} (empty : Blank line.text) : line.Plain := by
  unfold Line.Plain
  rw [trim_eq_nil_iff.mpr empty]
  exact sectionRe_nil

namespace ArgEntry

variable (e : ArgEntry)

/-- The type of an entry as the scan sees it. -/
def TypePart (shown : List Char) : Prop :=
  shown = [] ∨ ∃ inner, ')' ∉ inner ∧ shown = ' ' :: '(' :: (inner ++ [')'])

/-- An opening line without its indentation. -/
theorem head_seen (column : Nat) :
    ∃ shown rest column', expandtabs column (trim e.head.text) = e.name ++ shown ++ ':' :: rest ∧
      TypePart shown ∧ trim rest = expandtabs column' (trim e.text) := by
  obtain ⟨c, name, named⟩ := List.exists_cons_of_ne_nil e.name_some
  have visible : isSpace c = false := (e.name_chars c (named ▸ List.mem_cons_self)).1
  have tabless : '\t' ∉ e.name := fun member => Bool.noConfusion (e.name_chars _ member).1
  generalize whole : typePart e.type = type
  have core : trim e.head.text = e.name ++ type ++ ':' :: e.text.rdropWhile isSpace := by
    have shape : e.head.text = e.indent ++ (e.name ++ type ++ [':'] ++ e.text) := by
      simp [head, whole]
    have colon : ¬ isSpace ':' = true := by decide
    rw [shape, trim_blank_append e.indent_blank]
    unfold trim
    have front : (e.name ++ type ++ [':'] ++ e.text).dropWhile isSpace =
        e.name ++ type ++ [':'] ++ e.text := by
      simp [named, visible]
    rw [front, rdropWhile_append_of_stop colon]
    simp
  rw [core, expandtabs_append, expandtabs_append, expandtabs_eq_self tabless,
    expandtabs_cons (by decide)]
  obtain ⟨column', same⟩ := trim_expandtabs (e.text.rdropWhile isSpace)
    (nextColumn (columnAfter column (e.name ++ type)) ':')
  rw [trim_rdropWhile] at same
  refine ⟨_, _, column', rfl, ?_, same⟩
  cases typed : e.type with
  | none =>
    rw [typed] at whole
    subst whole
    exact .inl rfl
  | some inner =>
    rw [typed] at whole
    subst whole
    have closed := e.type_open inner typed
    refine .inr ⟨expandtabs (nextColumn (nextColumn (columnAfter column e.name) ' ') '(') inner,
      ?_, ?_⟩
    · intro member
      rcases mem_expandtabs member with space | ⟨-, inside⟩
      · cases space
      · exact closed inside
    · show expandtabs _ (' ' :: '(' :: (inner ++ [')'])) = _
      rw [expandtabs_cons (by decide), expandtabs_cons (by decide), expandtabs_append,
        expandtabs_cons (by decide)]
      rfl

end ArgEntry

/-! ## Reading an entry -/

/-- Where a name of `\w` ends. -/
theorem argRe_head {name shown rest : List Char} (more : name ≠ [])
    (words : ∀ c ∈ name, w.word c = true) (type : ArgEntry.TypePart shown) :
    argRe w (name ++ shown ++ ':' :: rest) = some (name, rest.dropWhile isSpace) := by
  have colon : w.word ':' = false := w.ascii ':' (by decide)
  have space : w.word ' ' = false := w.space ' ' rfl
  unfold argRe
  rcases type with rfl | ⟨inner, closed, rfl⟩
  · have name_eq : (name ++ [] ++ ':' :: rest).takeWhile w.word = name := by
      simp [List.takeWhile_append_of_pos words, colon]
    have rest_eq : (name ++ [] ++ ':' :: rest).dropWhile w.word = ':' :: rest := by
      simp [List.dropWhile_append_of_pos words, colon]
    have skip : skipType ((':' :: rest).dropWhile isSpace) = ':' :: rest := rfl
    rw [name_eq, rest_eq, skip, if_neg more]
    rfl
  · have name_eq : (name ++ ' ' :: '(' :: (inner ++ [')']) ++ ':' :: rest).takeWhile w.word =
        name := by
      simp [List.takeWhile_append_of_pos words, space]
    have rest_eq : (name ++ ' ' :: '(' :: (inner ++ [')']) ++ ':' :: rest).dropWhile w.word =
        ' ' :: '(' :: (inner ++ ')' :: ':' :: rest) := by
      simp [List.dropWhile_append_of_pos words, space]
    have inside : ∀ c ∈ inner, decide (c ≠ ')') = true := by
      intro c member
      have other : c ≠ ')' := fun same => closed (same ▸ member)
      simpa using other
    have skip : skipType ((' ' :: '(' :: (inner ++ ')' :: ':' :: rest)).dropWhile isSpace) =
        ':' :: rest := by
      show skipType ('(' :: (inner ++ ')' :: ':' :: rest)) = _
      unfold skipType
      simp only [List.dropWhile_append_of_pos inside]
      rfl
    rw [name_eq, rest_eq, skip, if_neg more]
    rfl

theorem argRe_nil : argRe w [] = none := rfl

theorem skipType_sublist (line : List Char) : (skipType line).Sublist line := by
  unfold skipType
  split
  · next inner =>
    split
    · next c after found =>
      have behind : (c :: after).Sublist inner := found ▸ List.dropWhile_sublist _
      exact ((List.dropWhile_sublist _).trans (List.sublist_cons_self c after)).trans
        (behind.trans (List.sublist_cons_self _ _))
    · exact List.Sublist.refl _
  · exact List.Sublist.refl _

/-- An opened name is made of `\w`, and the text is part of the line behind it. -/
theorem argRe_eq_some {line name text : List Char} (matched : argRe w line = some (name, text)) :
    (∀ c ∈ name, w.word c = true) ∧ text.Sublist line ∧ text.length < line.length := by
  obtain ⟨-, opened⟩ := Option.ite_none_left_eq_some.mp matched
  split at opened
  · next after found =>
    obtain ⟨rfl, rfl⟩ := Prod.mk.inj (Option.some.inj opened)
    have behind : (':' :: after).Sublist line := by
      rw [← found]
      exact (skipType_sublist _).trans
        ((List.dropWhile_sublist _).trans (List.dropWhile_sublist _))
    have tail : (after.dropWhile isSpace).Sublist after := List.dropWhile_sublist _
    have shorter := behind.length_le
    have shortest := tail.length_le
    rw [List.length_cons] at shorter
    exact ⟨fun c member => List.mem_takeWhile_imp member,
      tail.trans ((List.sublist_cons_self _ _).trans behind), by omega⟩
  · cases opened

section ReadLine

variable {s : Scan} {current : Option (List Char)} {stripped name text : List Char}

theorem Scan.readLine_nil : s.readLine w current [] = s := if_pos rfl

/-- A line of the form of an entry opens one, whatever was open before. -/
theorem Scan.readLine_opens (matched : argRe w stripped = some (name, text)) :
    s.readLine w current stripped = ⟨.inArgs (some name), s.args.set name (trim text)⟩ := by
  have visible : stripped ≠ [] := by
    rintro rfl
    cases matched
  unfold Scan.readLine
  rw [if_neg visible, matched]

/-- Any other line goes on with the open entry. -/
theorem Scan.readLine_wraps (visible : stripped ≠ []) (unread : argRe w stripped = none) :
    s.readLine w (some name) stripped =
      ⟨s.place, s.args.set name (trim ((s.args.get? name).getD [] ++ ' ' :: stripped))⟩ := by
  unfold Scan.readLine
  rw [if_neg visible, unread]

theorem Scan.readLine_ignored (unread : argRe w stripped = none) :
    s.readLine w none stripped = s := by
  unfold Scan.readLine
  rw [unread]
  exact ite_self s

end ReadLine

/-! ## Runs -/

/-- A run of the scan over lines, each of which may start at any column. -/
inductive Runs (w : WordClass) : Scan → List Line → Scan → Prop
  | nil (s : Scan) : Runs w s [] s
  | cons {s s' : Scan} {line : Line} {rest : List Line} (column : Nat) :
    Runs w (s.scan w (expandtabs column (trim line.text))) rest s' → Runs w s (line :: rest) s'

variable {s s' : Scan} {lines more : List Line}

theorem Runs.append_inv (run : Runs w s (lines ++ more) s') :
    ∃ m, Runs w s lines m ∧ Runs w m more s' := by
  induction lines generalizing s with
  | nil => exact ⟨s, .nil s, run⟩
  | cons line lines ih =>
    cases run with
    | cons column rest =>
      obtain ⟨m, first, second⟩ := ih rest
      exact ⟨m, .cons column first, second⟩

theorem Scan.scan_nil : s.scan w [] = s := by
  unfold Scan.scan
  rw [sectionRe_nil]
  cases place : s.place with
  | outside => rfl
  | inArgs current => rfl

theorem Scan.scan_header {stripped header : List Char}
    (matched : sectionRe stripped = some header) :
    s.scan w stripped = ⟨if header ∈ argHeaders then .inArgs none else .outside, s.args⟩ := by
  unfold Scan.scan
  rw [matched]

theorem Scan.scan_outside {stripped : List Char} (outside : s.place = .outside)
    (plain : sectionRe stripped = none) : s.scan w stripped = s := by
  unfold Scan.scan
  rw [plain, outside]

theorem Scan.scan_inArgs {stripped : List Char} {current : Option (List Char)}
    (inside : s.place = .inArgs current) (plain : sectionRe stripped = none) :
    s.scan w stripped = s.readLine w current stripped := by
  unfold Scan.scan
  rw [plain, inside]

/-- Nothing happens above the first section and in those that are not read. -/
theorem Runs.outside (run : Runs w s lines s') (outside : s.place = .outside)
    (plain : ∀ line ∈ lines, line.Plain) : s' = s := by
  induction run with
  | nil => rfl
  | cons column rest ih =>
    rw [Scan.scan_outside outside ((plain _ List.mem_cons_self).seen column)] at ih
    exact ih outside fun line member => plain line (List.mem_cons_of_mem _ member)

theorem Runs.blank (run : Runs w s lines s') (empty : ∀ line ∈ lines, Blank line.text) :
    s' = s := by
  induction run with
  | nil => rfl
  | cons column rest ih =>
    rw [trim_eq_nil_iff.mpr (empty _ List.mem_cons_self)] at ih
    rw [expandtabs, Scan.scan_nil] at ih
    exact ih fun line member => empty line (List.mem_cons_of_mem _ member)

theorem Runs.header {header : List Char} {known : header ∈ sectionHeaders}
    (run : Runs w s (headerLine header known :: lines) s') :
    Runs w ⟨if header ∈ argHeaders then .inArgs none else .outside, s.args⟩ lines s' := by
  obtain ⟨trimmed, tabless, matched⟩ := headerLine_seen header known
  cases run with
  | cons column rest =>
    have shown : expandtabs column (trim (headerLine header known).text) = header ++ [':'] := by
      show expandtabs column (trim (header ++ [':'])) = _
      rw [trimmed, expandtabs_eq_self tabless]
    rw [shown, Scan.scan_header matched] at rest
    exact rest
/-! ## A section that is read as it is meant -/

/-- A wrapped line, or an empty one. -/
def Line.Continues (w : WordClass) (line : Line) : Prop :=
  line.Plain ∧ '\t' ∉ trim line.text ∧ argRe w (trim line.text) = none

/-- The lines below the one that opens an entry. -/
theorem Runs.wrapped {name : List Char} {base : Dict (List Char) (List Char)}
    (run : Runs w s lines s') (place : s.place = .inArgs (some name))
    (tight : ∀ part ∈ parts, Tight part) (value : s.args = base.set name (joinWords parts))
    (continues : ∀ line ∈ lines, line.Continues w) :
    s' = ⟨.inArgs (some name), base.set name (joinWords (parts ++ content (lines.map Line.text)))⟩
    := by
  induction run generalizing parts with
  | nil s =>
    rw [List.map_nil, show content [] = [] from rfl, List.append_nil, ← value, ← place]
  | @cons s s' line rest column run ih =>
    obtain ⟨plain, tabless, unread⟩ := continues line List.mem_cons_self
    have later : ∀ line ∈ rest, line.Continues w :=
      fun line member => continues line (List.mem_cons_of_mem _ member)
    rw [expandtabs_eq_self tabless] at ih
    rw [List.map_cons, content_cons]
    by_cases empty : Blank line.text
    · rw [trim_eq_nil_iff.mpr empty, Scan.scan_nil] at ih
      rw [content_singleton_of_blank empty, List.nil_append]
      exact ih place tight value later
    · have visible : trim line.text ≠ [] := fun none => empty (trim_eq_nil_iff.mp none)
      have next : Tight (trim line.text) := ⟨visible, trim_trim⟩
      have step : s.scan w (trim line.text) =
          ⟨.inArgs (some name), base.set name (joinWords (parts ++ [trim line.text]))⟩ := by
        rw [Scan.scan_inArgs place plain, Scan.readLine_wraps visible unread, value,
          Dict.get?_set, if_pos rfl, Option.getD_some, trim_joinWords_append tight next,
          Dict.set_set, place]
      have all : ∀ part ∈ parts ++ [trim line.text], Tight part := by
        intro other member
        rcases List.mem_append.mp member with old | new
        · exact tight other old
        · exact List.mem_singleton.mp new ▸ next
      rw [step] at ih
      rw [content_singleton empty, ← List.append_assoc]
      exact ih rfl all rfl later

/-- The line that opens an entry. -/
theorem Runs.head {e : ArgEntry} {current : Option (List Char)}
    (run : Runs w s (e.head :: lines) s') (place : s.place = .inArgs current)
    (words : ∀ c ∈ e.name, w.word c = true) :
    ∃ column, Runs w ⟨.inArgs (some e.name), s.args.set e.name (expandtabs column (trim e.text))⟩
      lines s' := by
  cases run with
  | cons column run =>
    have plain : e.head.Plain := e.head_plain
    have shown := plain.seen column
    obtain ⟨type, rest, column', seen, typed, text⟩ := e.head_seen column
    rw [seen] at run shown
    rw [Scan.scan_inArgs place shown,
      Scan.readLine_opens (argRe_head e.name_some words typed)] at run
    rw [trim_dropWhile, text] at run
    exact ⟨column', run⟩

/-- An entry that is read as it is meant. -/
structure ArgEntry.Good (w : WordClass) (e : ArgEntry) : Prop where
  words : ∀ c ∈ e.name, w.word c = true
  tabless : '\t' ∉ trim e.text
  continues : ∀ line ∈ e.more, line.Continues w

/-- An entry sets its name to its description. -/
theorem Runs.entry {e : ArgEntry} {current : Option (List Char)} (run : Runs w s e.lines s')
    (place : s.place = .inArgs current) (good : e.Good w) :
    s' = ⟨.inArgs (some e.name), s.args.set e.name e.description⟩ := by
  obtain ⟨column, rest⟩ := run.head place good.words
  rw [expandtabs_eq_self good.tabless] at rest
  unfold ArgEntry.description ArgEntry.parts
  rw [content_cons]
  apply rest.wrapped rfl tight_of_mem_content _ good.continues
  rw [joinWords_content_singleton]

/-- The entries one after the other. -/
theorem Runs.entries {entries : List ArgEntry} {current : Option (List Char)}
    (run : Runs w s (entries.flatMap ArgEntry.lines) s') (place : s.place = .inArgs current)
    (good : ∀ e ∈ entries, e.Good w) :
    s'.args = s.args.update (entries.map fun e => (e.name, e.description)) := by
  induction entries generalizing s current with
  | nil =>
    cases run
    rfl
  | cons e entries ih =>
    obtain ⟨m, first, rest⟩ := Runs.append_inv run
    have after := first.entry place (good e List.mem_cons_self)
    subst after
    exact ih rest rfl fun e member => good e (List.mem_cons_of_mem _ member)

/-! ## What every run keeps -/

/-- The names are made of `\w`, and no description has a tab. -/
structure Scan.Clean (w : WordClass) (s : Scan) : Prop where
  names : ∀ name text, s.args.get? name = some text →
    (∀ c ∈ name, w.word c = true) ∧ '\t' ∉ text
  current : ∀ name, s.place = .inArgs (some name) → ∀ c ∈ name, w.word c = true

theorem Scan.Clean.set {name text : List Char} {place : Place} (clean : s.Clean w)
    (words : ∀ c ∈ name, w.word c = true) (tabless : '\t' ∉ text)
    (current : ∀ name, place = .inArgs (some name) → ∀ c ∈ name, w.word c = true) :
    Scan.Clean w ⟨place, s.args.set name text⟩ where
  names := by
    intro other value found
    rw [Dict.get?_set] at found
    split at found
    · next same =>
      cases found
      exact ⟨same ▸ words, tabless⟩
    · exact clean.names other value found
  current := current

theorem Scan.Clean.readLine {current : Option (List Char)} {stripped : List Char}
    (clean : s.Clean w) (place : s.place = .inArgs current) (tabless : '\t' ∉ stripped) :
    (s.readLine w current stripped).Clean w := by
  by_cases empty : stripped = []
  · subst empty
    rw [Scan.readLine_nil]
    exact clean
  · cases matched : argRe w stripped with
    | some groups =>
      obtain ⟨name, text⟩ := groups
      obtain ⟨words, inside, -⟩ := argRe_eq_some matched
      rw [Scan.readLine_opens matched]
      apply clean.set words
      · exact fun member => tabless (inside.subset ((trim_sublist _).subset member))
      · intro other same
        cases same
        exact words
    | none =>
      cases current with
      | none =>
        rw [Scan.readLine_ignored matched]
        exact clean
      | some name =>
        rw [Scan.readLine_wraps empty matched]
        apply clean.set (clean.current name place) _ clean.current
        intro member
        rcases List.mem_append.mp ((trim_sublist _).subset member) with old | new
        · cases found : s.args.get? name with
          | none =>
            rw [found] at old
            cases old
          | some value =>
            rw [found] at old
            exact (clean.names name value found).2 old
        · rcases List.mem_cons.mp new with space | inside
          · cases space
          · exact tabless inside

theorem Scan.Clean.scan {stripped : List Char} (clean : s.Clean w) (tabless : '\t' ∉ stripped) :
    (s.scan w stripped).Clean w := by
  cases matched : sectionRe stripped with
  | some header =>
    rw [Scan.scan_header matched]
    by_cases read : header ∈ argHeaders
    · rw [if_pos read]
      exact ⟨clean.names, fun name place => by cases place⟩
    · rw [if_neg read]
      exact ⟨clean.names, fun name place => by cases place⟩
  | none =>
    cases place : s.place with
    | outside =>
      rw [Scan.scan_outside place matched]
      exact clean
    | inArgs current =>
      rw [Scan.scan_inArgs place matched]
      exact clean.readLine place tabless

theorem Runs.clean (run : Runs w s lines s') (clean : s.Clean w) : s'.Clean w := by
  induction run with
  | nil => exact clean
  | cons column rest ih => exact ih (clean.scan tab_not_mem_expandtabs)

/-! ## A line of the form of an entry loses text -/

/-- How far the value of a name is behind the lines it should have. -/
def Behind (slack : Nat) (name : List Char) (parts : List (List Char)) (s : Scan) : Prop :=
  ∃ value, s.args.get? name = some value ∧ value.length + slack ≤ (joinWords parts).length

theorem length_joinWords_concat :
    (joinWords parts).length + part.length ≤ (joinWords (parts ++ [part])).length := by
  by_cases none : parts = []
  · subst none
    simp [joinWords]
  · rw [joinWords_concat none, List.length_append, List.length_cons]
    omega

/-- A value that takes a line grows by no more than the description does. -/
theorem length_wrapped {value : List Char} {slack : Nat}
    (short : value.length + slack ≤ (joinWords parts).length) :
    (trim (value ++ ' ' :: part)).length + slack ≤ (joinWords (parts ++ [part])).length := by
  by_cases none : parts = []
  · subst none
    have empty : value = [] := List.eq_nil_of_length_eq_zero (Nat.le_zero.mp (by
      have nothing : (joinWords []).length = 0 := rfl
      omega))
    have blank : Blank [' '] := by decide
    have shape : trim ([' '] ++ part) = trim part := trim_blank_append blank
    have shorter := (trim_sublist part).length_le
    have nothing : slack = 0 := by
      have nothing : (joinWords []).length = 0 := rfl
      omega
    rw [empty, List.nil_append, ← List.singleton_append, shape, nothing]
    simpa [joinWords] using shorter
  · have shorter := (trim_sublist (value ++ ' ' :: part)).length_le
    rw [List.length_append, List.length_cons] at shorter
    rw [joinWords_concat none, List.length_append, List.length_cons]
    omega

/-- One line of an entry: what is behind stays so, and is so once the line opens something. -/
theorem Behind.readLine {slack : Nat} {name stripped : List Char} {current : Option (List Char)}
    (behind : Behind slack name parts s) (visible : stripped ≠ []) :
    Behind slack name (parts ++ [stripped]) (s.readLine w current stripped) ∧
      (argRe w stripped ≠ none →
        Behind 1 name (parts ++ [stripped]) (s.readLine w current stripped)) := by
  obtain ⟨value, found, short⟩ := behind
  have longer := @length_joinWords_concat parts stripped
  have more : 0 < stripped.length := List.length_pos_of_ne_nil visible
  cases matched : argRe w stripped with
  | some groups =>
    obtain ⟨opened, text⟩ := groups
    have shorter := (argRe_eq_some matched).2.2
    have shortest := (trim_sublist text).length_le
    rw [Scan.readLine_opens matched]
    by_cases same : name = opened
    · have found' : (s.args.set opened (trim text)).get? name = some (trim text) := by
        rw [Dict.get?_set, if_pos same]
      exact ⟨⟨trim text, found', by omega⟩, fun _ => ⟨trim text, found', by omega⟩⟩
    · have found' : (s.args.set opened (trim text)).get? name = some value := by
        rw [Dict.get?_set, if_neg same, found]
      exact ⟨⟨value, found', by omega⟩, fun _ => ⟨value, found', by omega⟩⟩
  | none =>
    refine ⟨?_, fun other => absurd rfl other⟩
    cases current with
    | none =>
      rw [Scan.readLine_ignored matched]
      exact ⟨value, found, by omega⟩
    | some opened =>
      rw [Scan.readLine_wraps visible matched]
      by_cases same : name = opened
      · subst same
        rw [found]
        exact ⟨_, Dict.get?_set.trans (if_pos rfl), length_wrapped short⟩
      · exact ⟨value, Dict.get?_set.trans ((if_neg same).trans found), by omega⟩

theorem Scan.readLine_place {current : Option (List Char)} {stripped : List Char}
    (place : s.place = .inArgs current) :
    ∃ current', (s.readLine w current stripped).place = .inArgs current' := by
  by_cases empty : stripped = []
  · subst empty
    rw [Scan.readLine_nil]
    exact ⟨current, place⟩
  · cases matched : argRe w stripped with
    | some groups =>
      rw [Scan.readLine_opens matched]
      exact ⟨_, rfl⟩
    | none =>
      cases current with
      | none =>
        rw [Scan.readLine_ignored matched]
        exact ⟨_, place⟩
      | some name =>
        rw [Scan.readLine_wraps empty matched]
        exact ⟨_, place⟩

theorem Runs.inArgs {current : Option (List Char)} (run : Runs w s lines s')
    (place : s.place = .inArgs current) (plain : ∀ line ∈ lines, line.Plain) :
    ∃ current', s'.place = .inArgs current' := by
  induction run generalizing current with
  | nil => exact ⟨current, place⟩
  | cons column run ih =>
    rw [Scan.scan_inArgs place ((plain _ List.mem_cons_self).seen column)] at ih
    obtain ⟨current', place'⟩ := Scan.readLine_place place
    exact ih place' fun line member => plain line (List.mem_cons_of_mem _ member)

/-- Lines of which one opens something leave the name behind. -/
theorem Runs.behind {slack : Nat} {name : List Char} {current : Option (List Char)}
    (run : Runs w s lines s') (place : s.place = .inArgs current)
    (plain : ∀ line ∈ lines, line.Plain ∧ '\t' ∉ trim line.text)
    (behind : Behind slack name parts s) :
    Behind slack name (parts ++ content (lines.map Line.text)) s' ∧
      ((∃ line ∈ lines, argRe w (trim line.text) ≠ none) →
        Behind 1 name (parts ++ content (lines.map Line.text)) s') := by
  induction run generalizing parts slack current with
  | nil s =>
    rw [List.map_nil, show content [] = [] from rfl, List.append_nil]
    exact ⟨behind, by simp⟩
  | @cons s s' line rest column run ih =>
    have later : ∀ line ∈ rest, line.Plain ∧ '\t' ∉ trim line.text :=
      fun line member => plain line (List.mem_cons_of_mem _ member)
    have first := plain line List.mem_cons_self
    rw [expandtabs_eq_self first.2, Scan.scan_inArgs place first.1] at ih
    rw [List.map_cons, content_cons]
    by_cases empty : Blank line.text
    · rw [trim_eq_nil_iff.mpr empty, Scan.readLine_nil] at ih
      rw [content_singleton_of_blank empty, List.nil_append]
      obtain ⟨keeps, opens⟩ := ih place later behind
      refine ⟨keeps, ?_⟩
      rintro ⟨other, member, matched⟩
      rcases List.mem_cons.mp member with rfl | inside
      · rw [trim_eq_nil_iff.mpr empty] at matched
        exact absurd argRe_nil matched
      · exact opens ⟨other, inside, matched⟩
    · have visible : trim line.text ≠ [] := fun none => empty (trim_eq_nil_iff.mp none)
      obtain ⟨current', place'⟩ := @Scan.readLine_place w s current (trim line.text) place
      obtain ⟨keeps, opens⟩ :=
        @Behind.readLine w s parts slack name (trim line.text) current behind visible
      rw [content_singleton empty, ← List.append_assoc]
      refine ⟨(ih place' later keeps).1, ?_⟩
      rintro ⟨other, member, matched⟩
      rcases List.mem_cons.mp member with rfl | inside
      · exact (ih place' later (opens matched)).1
      · exact (ih place' later keeps).2 ⟨other, inside, matched⟩

/-- Entries that all come out right have no wrapped line of the form of an entry. -/
theorem Runs.unread {entries : List ArgEntry} {current : Option (List Char)}
    (run : Runs w s (entries.flatMap ArgEntry.lines) s') (place : s.place = .inArgs current)
    (words : ∀ e ∈ entries, ∀ c ∈ e.name, w.word c = true)
    (tabless : ∀ e ∈ entries, '\t' ∉ trim e.text ∧ ∀ line ∈ e.more, '\t' ∉ trim line.text)
    (nodup : (entries.map ArgEntry.name).Nodup)
    (right : ∀ e ∈ entries, s'.args.get? e.name = some e.description) :
    ∀ e ∈ entries, e.Good w := by
  induction entries generalizing s current with
  | nil => simp
  | cons e entries ih =>
    obtain ⟨m, first, rest⟩ := Runs.append_inv run
    obtain ⟨fresh, distinct⟩ := List.nodup_cons.mp nodup
    have spelled := words e List.mem_cons_self
    obtain ⟨headless, moreless⟩ := tabless e List.mem_cons_self
    obtain ⟨column, lower⟩ := first.head place spelled
    rw [expandtabs_eq_self headless] at lower
    have start : Behind 0 e.name (content [e.text])
        ⟨.inArgs (some e.name), s.args.set e.name (trim e.text)⟩ :=
      ⟨_, Dict.get?_set.trans (if_pos rfl), by rw [joinWords_content_singleton]; omega⟩
    have plain : ∀ line ∈ e.more, line.Plain ∧ '\t' ∉ trim line.text :=
      fun line member => ⟨e.more_plain line member, moreless line member⟩
    obtain ⟨current', place'⟩ := lower.inArgs rfl e.more_plain
    have others := ih rest place' (fun e member => words e (List.mem_cons_of_mem _ member))
      (fun e member => tabless e (List.mem_cons_of_mem _ member)) distinct
      fun e member => right e (List.mem_cons_of_mem _ member)
    have kept : s'.args.get? e.name = m.args.get? e.name := by
      rw [rest.entries place' others]
      apply Dict.get?_update_of_not_mem
      rw [List.map_map]
      exact fresh
    have unread : ∀ line ∈ e.more, argRe w (trim line.text) = none := by
      intro line member
      by_contra matched
      obtain ⟨value, found, short⟩ := (lower.behind rfl plain start).2 ⟨line, member, matched⟩
      rw [← content_cons] at short
      rw [← kept, right e List.mem_cons_self] at found
      have whole : value = joinWords e.parts := (Option.some.inj found).symm
      rw [whole] at short
      unfold ArgEntry.parts at short
      omega
    intro other member
    rcases List.mem_cons.mp member with rfl | later
    · exact ⟨spelled, headless, fun line inside =>
        ⟨(plain line inside).1, (plain line inside).2, unread line inside⟩⟩
    · exact others other later
end Oumigo
