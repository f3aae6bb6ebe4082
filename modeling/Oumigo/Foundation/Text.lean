import Oumigo.Foundation.Python

/-!
# Taking a text apart

`splitlines`, `split`, `removesuffix` and the label pattern of the worker's Prometheus
parser, on strings as far as ASCII goes.
-/

namespace Python

/-- The characters at which `splitlines` ends a line. -/
def isLineBreak (c : Char) : Bool :=
  (10 ≤ c.toNat && c.toNat ≤ 13) || (28 ≤ c.toNat && c.toNat ≤ 30) || c.toNat = 133 ||
    c.toNat = 8232 || c.toNat = 8233

/-- A line break, of which `\\r\\n` is one, ends the line before it. -/
def linesOf : List Char → List (List Char)
  | [] => []
  | c :: rest =>
      if isLineBreak c then
        match rest with
        | d :: rest' => if c.toNat = 13 && d.toNat = 10 then linesOf (d :: rest') else
            [] :: linesOf (d :: rest')
        | [] => [[]]
      else
        match linesOf rest with
        | [] => [[c]]
        | line :: lines => (c :: line) :: lines

/-- `text.splitlines()`. -/
def splitlines (text : String) : List String := (linesOf text.toList).map String.ofList

/-- `text.split()`. -/
def split (text : String) : List String :=
  ((text.toList.splitOnP isSpace).filter (· ≠ [])).map String.ofList

/-- `text[:-len(stop)]` if `text.endswith(stop)`. -/
def beforeEnd (stop text : String) : Option String :=
  if stop.toList.isSuffixOf text.toList then
    some (String.ofList (text.toList.take (text.toList.length - stop.toList.length)))
  else none

/-- `text.startswith(start)`. -/
def startsWith (start text : String) : Bool := start.toList.isPrefixOf text.toList

/-- `text.lstrip("+")`. -/
def lstripPlus (text : String) : String := String.ofList (text.toList.dropWhile (· = '+'))

/-- `\\w`. -/
def isWord (c : Char) : Bool := c.isAlphanum || c = '_'

theorem isWord_of_isSpace (c : Char) (space : isSpace c = true) : isWord c = false := by
  have place : ∀ d : Char, c = d ↔ c.toNat = d.toNat := fun d => Char.toNat_inj.symm
  have value : c.val.toNat = c.toNat := rfl
  have upper : 'A'.val.toNat = 65 ∧ 'Z'.val.toNat = 90 := by decide
  have lower : 'a'.val.toNat = 97 ∧ 'z'.val.toNat = 122 := by decide
  have digit : '0'.val.toNat = 48 ∧ '9'.val.toNat = 57 := by decide
  have rest : '_'.toNat = 95 ∧ ' '.toNat = 32 := by decide
  unfold isSpace at space
  unfold isWord Char.isAlphanum Char.isAlpha Char.isUpper Char.isLower Char.isDigit
  simp only [Bool.or_eq_true, Bool.and_eq_true, decide_eq_true_eq, place] at space
  simp only [Bool.or_eq_false_iff, Bool.and_eq_false_iff, decide_eq_false_iff_not, place,
    UInt32.le_iff_toNat_le, ge_iff_le, value]
  omega

/-- The text of a quoted string up to its closing quote, and what follows. -/
def quoted : List Char → Option (List Char × List Char)
  | [] => none
  | c :: rest =>
      if c.toNat = 34 then some ([], rest)
      else if c.toNat = 92 then
        match rest with
        | d :: rest' =>
            if d.toNat = 10 then none
            else (quoted rest').map fun (value, left) => (c :: d :: value, left)
        | [] => none
      else (quoted rest).map fun (value, left) => (c :: value, left)

/-- A match of `(\\w+)="((?:[^"\\\\]|\\\\.)*)"` at the start of a text. -/
def labelAt (text : List Char) : Option ((String × String) × List Char) :=
  let word := text.takeWhile isWord
  if word = [] then none
  else
    match text.dropWhile isWord with
    | c :: d :: rest =>
        if c = '=' && d.toNat = 34 then
          (quoted rest).map fun (value, left) => ((String.ofList word, String.ofList value), left)
        else none
    | _ => none

/-- `findall`, for a text of at most `size` characters. -/
def findLabels : Nat → List Char → List (String × String)
  | 0, _ => []
  | size + 1, text =>
      match labelAt text with
      | some (label, left) => label :: findLabels size left
      | none =>
          match text with
          | [] => []
          | _ :: rest => findLabels size rest

theorem linesOf_append {line rest : List Char} (whole : ∀ c ∈ line, isLineBreak c = false) :
    linesOf (line ++ '\n' :: rest) = line :: linesOf rest := by
  induction line with
  | nil =>
    cases rest with
    | nil => rfl
    | cons d rest =>
      have alone : linesOf ('\n' :: d :: rest) = [] :: linesOf (d :: rest) := by
        conv_lhs => unfold linesOf
        rw [if_pos (by decide)]
        rfl
      exact alone
  | cons c line ih =>
    have inside : isLineBreak c = false := whole c List.mem_cons_self
    rw [List.cons_append]
    conv_lhs => unfold linesOf
    rw [if_neg (by rw [inside]; exact Bool.false_ne_true),
      ih fun c member => whole c (List.mem_cons_of_mem _ member)]

/-- `splitlines` undoes `"\n".join(lines) + "\n"`. -/
theorem splitlines_join {line : String} {lines : List String}
    (whole : ∀ l ∈ line :: lines, ∀ c ∈ l.toList, isLineBreak c = false) :
    splitlines (String.intercalate "\n" (line :: lines) ++ "\n") = line :: lines := by
  unfold splitlines
  induction lines generalizing line with
  | nil =>
    rw [String.intercalate_singleton, String.toList_append]
    have one : linesOf (line.toList ++ '\n' :: []) = [line.toList] :=
      linesOf_append (whole line List.mem_cons_self)
    show (linesOf (line.toList ++ '\n' :: [])).map String.ofList = _
    rw [one, List.map_singleton, String.ofList_toList]
  | cons next lines ih =>
    have first := whole line List.mem_cons_self
    have later := ih fun l member => whole l (List.mem_cons_of_mem _ member)
    have shape : (String.intercalate "\n" (line :: next :: lines) ++ "\n").toList =
        line.toList ++ '\n' :: (String.intercalate "\n" (next :: lines) ++ "\n").toList := by
      rw [String.intercalate_cons_cons]
      simp
    rw [shape, linesOf_append first, List.map_cons, later, String.ofList_toList]

theorem split_token {token : String} (some : token ≠ "")
    (visible : ∀ c ∈ token.toList, isSpace c = false) : split token = [token] := by
  have chars : token.toList ≠ [] := by simpa using some
  unfold split
  rw [List.splitOnP_eq_singleton visible]
  simp [chars]

theorem split_space_token {token : String} (some : token ≠ "")
    (visible : ∀ c ∈ token.toList, isSpace c = false) : split (" " ++ token) = [token] := by
  have chars : token.toList ≠ [] := by simpa using some
  have cut : (" " ++ token).toList.splitOnP isSpace = [[], token.toList] := by
    rw [String.toList_append]
    have space : isSpace ' ' = true := rfl
    have apart := List.splitOnP_append_cons [] token.toList space
    rw [List.nil_append, List.splitOnP_eq_singleton visible] at apart
    exact apart
  unfold split
  rw [cut]
  simp [chars]

theorem flatten_splitOnP (stops : Char → Bool) (chars : List Char) :
    (chars.splitOnP stops).flatten = chars.filter fun c => !stops c := by
  induction chars with
  | nil => simp
  | cons c rest ih =>
    rw [List.splitOnP_cons_eq_if_modifyHead]
    cases stop : stops c with
    | true => simp [stop, ih]
    | false =>
      rcases cut : rest.splitOnP stops with _ | ⟨first, more⟩
      · exact absurd cut (List.splitOnP_ne_nil stops rest)
      · rw [cut] at ih
        simp [stop, ← ih]

/-- `"".join(text.split())` is the text without its spaces. -/
theorem join_split (text : String) :
    (String.join (split text)).toList = text.toList.filter fun c => !isSpace c := by
  rw [← flatten_splitOnP, ← List.flatten_filter_ne_nil, split, String.toList_join,
    List.flatMap_map]
  simp [List.flatMap]

example : splitlines "a\r\n\nb" = ["a", "", "b"] := by decide +kernel

example : findLabels 30 "le=\"+Inf\",model_name=\"x\"".toList =
    [("le", "+Inf"), ("model_name", "x")] := by decide +kernel

end Python
