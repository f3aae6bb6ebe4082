import Oumigo.Foundation.Cleandoc
import Oumigo.Foundation.Dict

/-!
# What `@tool` reads out of a docstring

`_parse_docstring` of `api/agent/tool.py`: the text before the first section header is the
description, and the lines of an `Args` section are entries or go on with the entry above.
Whether a line opens an entry is decided on the line without its indentation, so a wrapped line
of the form `word: …` opens one.  Texts are lists of characters here.
-/

namespace Oumigo

open Python

/-- `\\w`, by the interpreter's tables of Unicode: the characters of `str.isalnum` and the
underscore. -/
structure WordClass where
  word : Char → Bool
  ascii : ∀ c : Char, c.toNat < 128 → word c = isWord c
  space : ∀ c, isSpace c = true → word c = false

/-- `\\w` where no letters but those of ASCII come up. -/
def WordClass.asciiOnly : WordClass := ⟨isWord, fun _ _ => rfl, isWord_of_isSpace⟩

/-! ## The two patterns -/

/-- The alternatives of `_SECTION_RE`. -/
def sectionHeaders : List (List Char) :=
  ["Args", "Arguments", "Parameters", "Returns", "Raises", "Yields", "Examples", "Example"].map
    String.toList

/-- The headers of the sections that are read. -/
def argHeaders : List (List Char) := ["Args", "Arguments", "Parameters"].map String.toList

/-- `_SECTION_RE.match(line)`, its group. -/
def sectionRe (line : List Char) : Option (List Char) :=
  sectionHeaders.find? fun header =>
    (header ++ [':']).isPrefixOf line && decide (Blank (line.drop (header.length + 1)))

/-- `(?:\\([^)]*\\))?\\s*` at the start of a text: what follows it. -/
def skipType (line : List Char) : List Char :=
  match line with
  | '(' :: inner =>
      match inner.dropWhile (· ≠ ')') with
      | _ :: after => after.dropWhile isSpace
      | [] => line
  | _ => line

/-- `_ARG_RE.match(line)`, its two groups.  No character of `\\w` may also start what follows
the name, so there is nothing to try again. -/
def argRe (w : WordClass) (line : List Char) : Option (List Char × List Char) :=
  let name := line.takeWhile w.word
  if name = [] then none
  else
    match skipType ((line.dropWhile w.word).dropWhile isSpace) with
    | ':' :: text => some (name, text.dropWhile isSpace)
    | _ => none

/-! ## The scan -/

/-- Where the two loops over the sections are: between sections that are read, or in one, behind
the entry that was opened last. -/
inductive Place where
  | outside
  | inArgs (current : Option (List Char))

structure Scan where
  place : Place := .outside
  args : Dict (List Char) (List Char) := .empty

variable (w : WordClass)

/-- A line of a section that is read. -/
def Scan.readLine (s : Scan) (current : Option (List Char)) (stripped : List Char) : Scan :=
  if stripped = [] then s
  else
    match argRe w stripped with
    | some (name, text) => ⟨.inArgs (some name), s.args.set name (trim text)⟩
    | none =>
        match current with
        | some name =>
            let text := (s.args.get? name).getD []
            ⟨s.place, s.args.set name (trim (text ++ ' ' :: stripped))⟩
        | none => s

/-- One line of the two loops, without its indentation.  A header ends the section before it. -/
def Scan.scan (s : Scan) (stripped : List Char) : Scan :=
  match sectionRe stripped with
  | some header => ⟨if header ∈ argHeaders then .inArgs none else .outside, s.args⟩
  | none =>
      match s.place with
      | .outside => s
      | .inArgs current => s.readLine w current stripped

def Scan.scanLine (s : Scan) (line : List Char) : Scan := s.scan w (trim line)

/-- Whether a line is before the first section. -/
def inDescription (line : List Char) : Bool := (sectionRe (trim line)).isNone

/-- `_parse_docstring`, from `fn.__doc__`. -/
def parseDocstring (doc : Option (List Char)) : List Char × Dict (List Char) (List Char) :=
  match (doc.map cleandoc).getD [] with
  | [] => ([], .empty)
  | c :: cleaned =>
      let lines := linesOf (c :: cleaned)
      (trim (joinLines (lines.takeWhile inDescription)),
        ((lines.dropWhile inDescription).foldl (Scan.scanLine w) {}).args)

/-! ## Google-style docstrings -/

/-- A line of a docstring, without the indentation of the docstring.  An empty line may have some
of that indentation in the source. -/
structure Line where
  text : List Char
  whole : Unbroken text
  width : Nat := 0

/-- A line below the first one as it stands in the source. -/
def Line.written (margin : Nat) (line : Line) : List Char :=
  List.replicate (if line.text = [] then min line.width margin else margin) ' ' ++ line.text

/-- No header of a section. -/
def Line.Plain (line : Line) : Prop := sectionRe (trim line.text) = none

/-- A type in parentheses, between the name and the colon. -/
def typePart : Option (List Char) → List Char
  | none => []
  | some type => ' ' :: '(' :: (type ++ [')'])

/-- An entry of an `Args` section: a name, perhaps a type in parentheses, a colon, and text that
goes on over any number of lines, empty ones among them. -/
structure ArgEntry where
  indent : List Char
  name : List Char
  type : Option (List Char)
  text : List Char
  more : List Line
  indent_blank : Blank indent
  name_some : name ≠ []
  name_chars : ∀ c ∈ name, isSpace c = false ∧ c ≠ ':' ∧ c ≠ '('
  type_open : ∀ inner ∈ type, ')' ∉ inner
  whole : Unbroken (indent ++ name ++ typePart type ++ ':' :: text)
  head_plain : sectionRe (trim (indent ++ name ++ typePart type ++ ':' :: text)) = none
  more_plain : ∀ line ∈ more, line.Plain

namespace ArgEntry

variable (e : ArgEntry)

/-- The line that opens the entry. -/
def head : Line where
  text := e.indent ++ e.name ++ typePart e.type ++ ':' :: e.text
  whole := e.whole

def lines : List Line := e.head :: e.more

/-- The lines of the description, without what stands around them. -/
def parts : List (List Char) := content (e.text :: e.more.map Line.text)

def description : List Char := joinWords e.parts

end ArgEntry

theorem headers_whole : ∀ header ∈ sectionHeaders, Unbroken (header ++ [':']) := by
  decide

/-- The line of a section header. -/
def headerLine (header : List Char) (known : header ∈ sectionHeaders) : Line where
  text := header ++ [':']
  whole := headers_whole header known

/-- A section that is not read. -/
structure OtherSection where
  header : List Char
  lines : List Line
  known : header ∈ sectionHeaders
  other : header ∉ argHeaders
  lines_plain : ∀ line ∈ lines, line.Plain

def OtherSection.all (other : OtherSection) : List Line :=
  headerLine other.header other.known :: other.lines

theorem argHeaders_subset : argHeaders ⊆ sectionHeaders := by decide

/-- A docstring: a description between empty lines, an `Args` section, and other sections before
and after it. -/
structure Docstring where
  before : List Line
  description : List Line
  gap : List Line
  earlier : List OtherSection
  header : List Char
  lead : List Line
  entries : List ArgEntry
  further : List OtherSection
  before_blank : ∀ line ∈ before, Blank line.text
  description_plain : ∀ line ∈ description, line.Plain
  description_trimmed : trim (joinLines (description.map Line.text)) =
    joinLines (description.map Line.text)
  gap_blank : ∀ line ∈ gap, Blank line.text
  header_args : header ∈ argHeaders
  lead_blank : ∀ line ∈ lead, Blank line.text
  names_nodup : (entries.map ArgEntry.name).Nodup

namespace Docstring

variable (doc : Docstring)

/-- What is above the first section. -/
def top : List Line := doc.before ++ doc.description ++ doc.gap

def argsLine : Line := headerLine doc.header (argHeaders_subset doc.header_args)

/-- What is below the header of the `Args` section. -/
def bottom : List Line :=
  doc.lead ++ doc.entries.flatMap ArgEntry.lines ++ doc.further.flatMap OtherSection.all

/-- The sections. -/
def body : List Line := doc.earlier.flatMap OtherSection.all ++ doc.argsLine :: doc.bottom

def lines : List Line := doc.top ++ doc.body

/-- The lines in the source; the first one starts behind the quotes. -/
def raw (margin : Nat) : List (List Char) :=
  match doc.lines with
  | [] => []
  | first :: rest => first.text :: rest.map (Line.written margin)

/-- `fn.__doc__`. -/
def source (margin : Nat) : List Char := joinLines (doc.raw margin)

/-- The description, as one text. -/
def text : List Char := joinLines (doc.description.map Line.text)

/-- The parameters with their descriptions. -/
def params : Dict (List Char) (List Char) where
  entries := doc.entries.map fun e => (e.name, e.description)
  nodup := by
    rw [List.map_map]
    exact doc.names_nodup

/-- The parser gives back the description, and the parameters with their descriptions. -/
def RoundTrips (margin : Nat) : Prop :=
  (parseDocstring w (some (doc.source margin))).1 = doc.text ∧
    ∀ name, (parseDocstring w (some (doc.source margin))).2.get? name = doc.params.get? name

/-- No tab inside a text, names of `\w` only, and no wrapped line of the form of an entry. -/
def Readable : Prop :=
  '\t' ∉ doc.text ∧ ∀ e ∈ doc.entries,
    (∀ c ∈ e.name, w.word c = true) ∧ (∀ part ∈ e.parts, '\t' ∉ part) ∧
      ∀ line ∈ e.more, argRe w (trim line.text) = none

end Docstring
end Oumigo
