import Mathlib.Algebra.Order.Ring.Rat
import Mathlib.Tactic.Common

/-!
# Python values

`PyVal` is a value as a dynamically typed caller sees it: what `json.loads` gives,
what a callback may return, and `object` for anything else.  Accessors raise what
the interpreter raises on a value of the wrong type.  `reprStr` and `joinSorted`
are the string idioms of error messages.
-/

namespace Python

/-! ## Exceptions -/

/-- The exception classes that `except` clauses tell apart. -/
inductive ExnKind where
  | timeoutException
  | valueError
  /-- any other `Exception` -/
  | exception
  /-- a `BaseException` that is not an `Exception` -/
  | baseException
  deriving DecidableEq, Repr

/-- A raised exception: its class, the class's name and its text. -/
structure Exn where
  kind : ExnKind
  typeName : String
  text : String
  deriving DecidableEq, Repr

/-- `isinstance(exc, Exception)`. -/
def Exn.isException (exn : Exn) : Bool := exn.kind ≠ .baseException

def typeError (text : String) : Exn := ⟨.exception, "TypeError", text⟩

def attributeError (text : String) : Exn := ⟨.exception, "AttributeError", text⟩

/-! ## Strings -/

def hexDigit (n : Nat) : Char :=
  if n < 10 then Char.ofNat (48 + n) else Char.ofNat (87 + n)

/-- One character of `repr(s)`, between quotes `quote`. -/
def reprChar (quote c : Char) : String :=
  if c = quote || c.toNat = 92 then "\\" ++ c.toString
  else if c.toNat = 9 then "\\t"
  else if c.toNat = 10 then "\\n"
  else if c.toNat = 13 then "\\r"
  else if c.toNat < 32 || c.toNat = 127 then
    "\\x" ++ (hexDigit (c.toNat / 16)).toString ++ (hexDigit (c.toNat % 16)).toString
  else c.toString

/-- `repr(s)` of a string whose characters above ASCII are printable: single quotes,
unless it holds one and no double quote. -/
def reprStr (s : String) : String :=
  let single := Char.ofNat 39
  let double := Char.ofNat 34
  let quote := if s.toList.contains single && !s.toList.contains double then double else single
  quote.toString ++ String.join (s.toList.map (reprChar quote)) ++ quote.toString

/-- `", ".join(sorted(names))`. -/
def joinSorted (names : List String) : String :=
  String.intercalate ", " (names.mergeSort fun a b => decide (a ≤ b))

/-- The characters `str.strip` removes: those of `str.isspace`. -/
def isSpace (c : Char) : Bool :=
  c = ' ' || (9 ≤ c.toNat && c.toNat ≤ 13) || (28 ≤ c.toNat && c.toNat ≤ 31) ||
    c.toNat = 133 || c.toNat = 160 || c.toNat = 5760 || (8192 ≤ c.toNat && c.toNat ≤ 8202) ||
    c.toNat = 8232 || c.toNat = 8233 || c.toNat = 8239 || c.toNat = 8287 || c.toNat = 12288

/-- `s.strip()`. -/
def strip (s : String) : String :=
  String.ofList ((s.toList.dropWhile isSpace).reverse.dropWhile isSpace).reverse

/-- A digit of `hexdigest()`. -/
def isHexDigit (c : Char) : Bool :=
  (48 ≤ c.toNat && c.toNat ≤ 57) || (97 ≤ c.toNat && c.toNat ≤ 102)

/-- Every character of `s` is ASCII. -/
def isAscii (s : String) : Bool := s.toList.all fun c => c.toNat < 128

/-- `s.lower()`, as far as ASCII goes. -/
def lower (s : String) : String := String.ofList (s.toList.map Char.toLower)

/-- `s.partition(sep)` without the separator; the tail is empty when there is none. -/
def partition (s : String) (sep : Char) : String × String :=
  let head := s.toList.takeWhile (· ≠ sep)
  (String.ofList head, String.ofList (s.toList.drop (head.length + 1)))

/-- `s[len(start):]` if `s.startswith(start)`. -/
def afterStart (start s : String) : Option String :=
  if start.toList.isPrefixOf s.toList then some (String.ofList (s.toList.drop start.toList.length))
  else none

/-- `hmac.compare_digest` on strings. -/
def compareDigest (a b : String) : Except Exn Bool :=
  if isAscii a && isAscii b then .ok (a = b)
  else .error (typeError "comparing strings with non-ASCII characters is not supported")

theorem compareDigest_ascii {a b : String} (left : isAscii a = true) (right : isAscii b = true) :
    compareDigest a b = .ok (decide (a = b)) := by
  unfold compareDigest
  rw [left, right]
  rfl

theorem isAscii_of_subset {s s' : String} (sub : s'.toList ⊆ s.toList)
    (ascii : isAscii s = true) : isAscii s' = true := by
  unfold isAscii at ascii ⊢
  rw [List.all_eq_true] at ascii ⊢
  exact fun c member => ascii c (sub member)

theorem isAscii_append {s s' : String} :
    isAscii (s ++ s') = true ↔ isAscii s = true ∧ isAscii s' = true := by
  unfold isAscii
  rw [String.toList_append, List.all_append, Bool.and_eq_true]

theorem isAscii_of_hex {s : String} (hex : s.toList.all isHexDigit = true) :
    isAscii s = true := by
  unfold isAscii
  rw [List.all_eq_true] at hex ⊢
  intro c member
  have digit := hex c member
  unfold isHexDigit at digit
  simp only [Bool.or_eq_true, Bool.and_eq_true, decide_eq_true_eq] at digit ⊢
  omega

theorem isSpace_of_hex {c : Char} (hex : isHexDigit c = true) : isSpace c = false := by
  unfold isHexDigit at hex
  simp only [Bool.or_eq_true, Bool.and_eq_true, decide_eq_true_eq] at hex
  have visible : c ≠ ' ' := by
    rintro rfl
    simp at hex
  unfold isSpace
  simp only [visible, decide_false, Bool.false_or, Bool.or_eq_false_iff, Bool.and_eq_false_iff,
    decide_eq_false_iff_not]
  omega

theorem strip_subset (s : String) : (strip s).toList ⊆ s.toList := by
  unfold strip
  rw [String.toList_ofList]
  intro c member
  have kept := (List.dropWhile_sublist _).subset (List.mem_reverse.mp member)
  exact (List.dropWhile_sublist _).subset (List.mem_reverse.mp kept)

theorem partition_subset (s : String) (sep : Char) : (partition s sep).2.toList ⊆ s.toList := by
  unfold partition
  rw [String.toList_ofList]
  exact (List.drop_sublist _ _).subset

/-- Nothing to strip. -/
theorem strip_eq_self {s : String} (first : ∀ c ∈ s.toList.head?, isSpace c = false)
    (last : ∀ c ∈ s.toList.getLast?, isSpace c = false) : strip s = s := by
  have kept {l : List Char} (head : ∀ c ∈ l.head?, isSpace c = false) :
      l.dropWhile isSpace = l := by
    cases l with
    | nil => rfl
    | cons c l => simp [head c rfl]
  unfold strip
  rw [kept first, kept (by simpa using last), List.reverse_reverse, String.ofList_toList]

theorem afterStart_eq_some {start s rest : String} :
    afterStart start s = some rest ↔ s = start ++ rest := by
  unfold afterStart
  constructor
  · intro found
    split at found
    · next begins =>
      cases found
      obtain ⟨rest, same⟩ := List.isPrefixOf_iff_prefix.mp begins
      rw [← same, List.drop_left]
      apply String.toList_inj.mp
      simp [same]
    · cases found
  · intro same
    subst same
    simp

/-- `partition` of a text that is split at its first separator. -/
theorem partition_of_toList {whole s rest : String} {sep : Char}
    (split : whole.toList = s.toList ++ sep :: rest.toList) (absent : sep ∉ s.toList) :
    partition whole sep = (s, rest) := by
  have head : whole.toList.takeWhile (· ≠ sep) = s.toList := by
    rw [split, List.takeWhile_append_of_pos fun c member => by
        have other : c ≠ sep := fun same => absent (same ▸ member)
        simpa using other]
    simp
  unfold partition
  rw [head, split]
  simp

theorem partition_of_not_mem {s rest : String} {sep : Char} (absent : sep ∉ s.toList) :
    partition (s ++ sep.toString ++ rest) sep = (s, rest) :=
  partition_of_toList (by simp) absent

/-- What `partition` takes apart, if there was a separator. -/
theorem partition_eq {s head tail : String} {sep : Char} (found : partition s sep = (head, tail))
    (some : tail ≠ "") : s = head ++ sep.toString ++ tail ∧ sep ∉ head.toList := by
  unfold partition at found
  obtain ⟨rfl, rfl⟩ := Prod.mk.inj found
  have split := List.takeWhile_append_dropWhile (p := fun c => decide (c ≠ sep)) (l := s.toList)
  have first := List.head?_dropWhile_not (fun c => decide (c ≠ sep)) s.toList
  have absent : sep ∉ s.toList.takeWhile (· ≠ sep) := by
    intro member
    have kept := List.all_takeWhile (p := fun c => decide (c ≠ sep)) (l := s.toList)
    have other := List.all_eq_true.mp kept sep member
    simp at other
  generalize s.toList.takeWhile (fun c => decide (c ≠ sep)) = head at *
  generalize s.toList.dropWhile (fun c => decide (c ≠ sep)) = rest at *
  rw [← split] at some ⊢
  cases rest with
  | nil => simp at some
  | cons c tail =>
    have same : c = sep := by simpa using first
    subst same
    refine ⟨?_, by simpa using absent⟩
    apply String.toList_inj.mp
    simp [← split]

/-! ## Values -/

/-- A value. The keys of a `dict` are strings, as in JSON. -/
inductive PyVal where
  | none
  | bool (b : Bool)
  | int (i : Int)
  | float (x : Rat)
  | str (s : String)
  | list (l : List PyVal)
  | dict (entries : List (String × PyVal))
  | object (typeName : String) (id : Nat)

namespace PyVal

/-- `type(v).__name__`. -/
def typeName : PyVal → String
  | none => "NoneType"
  | bool _ => "bool"
  | int _ => "int"
  | float _ => "float"
  | str _ => "str"
  | list _ => "list"
  | dict _ => "dict"
  | object name _ => name

/-- `bool(v)`; an opaque object counts as true. -/
def truthy : PyVal → Bool
  | none => false
  | bool b => b
  | int i => i ≠ 0
  | float x => x ≠ 0
  | str s => s ≠ ""
  | list l => !l.isEmpty
  | dict entries => !entries.isEmpty
  | object _ _ => true

/-- `v or w`. -/
def or (v w : PyVal) : PyVal := if v.truthy then v else w

/-- The entry of key `k`. -/
def lookup (entries : List (String × PyVal)) (k : String) : Option PyVal :=
  (entries.find? fun entry => entry.1 = k).map Prod.snd

/-- `v.get(k, default)`. -/
def getD (v : PyVal) (k : String) (default : PyVal) : Except Exn PyVal :=
  match v with
  | dict entries => .ok ((lookup entries k).getD default)
  | other => .error (attributeError (reprStr other.typeName ++ " object has no attribute 'get'"))

/-- `v.get(k)`. -/
def get (v : PyVal) (k : String) : Except Exn PyVal := v.getD k none

/-- `v[0]`. -/
def first : PyVal → Except Exn PyVal
  | list (v :: _) => .ok v
  | list [] => .error ⟨.exception, "IndexError", "list index out of range"⟩
  | str s => match s.toList with
    | c :: _ => .ok (str c.toString)
    | [] => .error ⟨.exception, "IndexError", "string index out of range"⟩
  | dict _ => .error ⟨.exception, "KeyError", "0"⟩
  | other => .error (typeError (reprStr other.typeName ++ " object is not subscriptable"))

/-- What `for x in v` goes through. -/
def iter : PyVal → Except Exn (List PyVal)
  | list l => .ok l
  | str s => .ok (s.toList.map fun c => str c.toString)
  | dict entries => .ok (entries.map fun entry => str entry.1)
  | other => .error (typeError (reprStr other.typeName ++ " object is not iterable"))

/-- The operand of `text += v`. -/
def asStr : PyVal → Except Exn String
  | str s => .ok s
  | other => .error (typeError
      ("can only concatenate str (not \"" ++ other.typeName ++ "\") to str"))

/-- `isinstance(v, str)`, with the string. -/
def str? : PyVal → Option String
  | str s => some s
  | _ => Option.none

/-- `isinstance(v, list)`, with the elements. -/
def list? : PyVal → Option (List PyVal)
  | list l => some l
  | _ => Option.none

/-- `isinstance(v, dict)`, with the entries. -/
def dict? : PyVal → Option (List (String × PyVal))
  | dict entries => some entries
  | _ => Option.none

/-- `type(v) is type(w)`. -/
def sameType : PyVal → PyVal → Bool
  | none, none => true
  | bool _, bool _ => true
  | int _, int _ => true
  | float _, float _ => true
  | str _, str _ => true
  | list _, list _ => true
  | dict _, dict _ => true
  | object v _, object w _ => v = w
  | _, _ => false

theorem sameType_refl (v : PyVal) : v.sameType v = true := by
  cases v <;> simp [sameType]

theorem sameType_trans {u v w : PyVal} (first : u.sameType v = true)
    (second : v.sameType w = true) : u.sameType w = true := by
  cases u <;> cases v <;> cases w <;> simp_all [sameType]

/-- `hash(v)` does not raise. -/
def hashable : PyVal → Bool
  | list _ => false
  | dict _ => false
  | _ => true

end PyVal

end Python
