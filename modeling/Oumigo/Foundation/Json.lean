import Oumigo.Foundation.Dict
import Oumigo.Foundation.Float

/-!
# JSON values

A value as `json.loads` reads it.  A number without fraction and exponent is an `int`, any
other is a `float`; `json.loads` also reads `NaN` and `Infinity`.  The fields of an object
stand in their order, and a name that comes twice counts once, as in a dict.
-/

namespace Python

/-- What `json.loads` returns. -/
inductive Json where
  | null
  | bool (b : Bool)
  | int (n : Int)
  | float (x : PyFloat)
  | str (s : String)
  | arr (items : List Json)
  | obj (fields : List (String × Json))

/-- A dict that `json.loads` built. -/
abbrev Fields := List (String × Json)

namespace Fields

/-- `d.get(key)`. -/
def get? (fields : Fields) (key : String) : Option Json :=
  (fields.find? fun field => field.1 = key).map Prod.snd

/-- `d[key] = value`. -/
def set (fields : Fields) (key : String) (value : Json) : Fields :=
  Dict.setEntries fields key value

variable {fields : Fields} {key key' : String} {value value' : Json}

/-- Reading after a write. -/
theorem get?_set : (fields.set key value).get? key' =
    if key' = key then some value else fields.get? key' :=
  Dict.find?_setEntries

theorem get?_set_of_ne (other : key' ≠ key) : (fields.set key value).get? key' =
    fields.get? key' := by
  rw [get?_set, if_neg other]

theorem get?_set_self : (fields.set key value).get? key = some value := by
  rw [get?_set, if_pos rfl]

theorem set_set : (fields.set key value).set key value' = fields.set key value' :=
  Dict.setEntries_setEntries

end Fields

namespace Json

/-- `bool(v)`. -/
def truthy : Json → Bool
  | null => false
  | bool b => b
  | int n => n ≠ 0
  | float x => x ≠ .num 0
  | str s => s ≠ ""
  | arr items => !items.isEmpty
  | obj fields => !fields.isEmpty

/-- `v`, if `isinstance(v, int)`; the truth values are integers. -/
def asInt : Json → Option Int
  | bool b => some b.toInt
  | int n => some n
  | _ => none

/-- `v == s`. -/
def eqStr (s : String) : Json → Bool
  | str s' => s' = s
  | _ => false

/-- `v == n`. -/
def eqInt (n : Int) : Json → Bool
  | bool b => b.toInt = n
  | int m => m = n
  | float (.num q) => q = n
  | _ => false

/-- The number `v` is, if it is one and finite. -/
def number : Json → Option Rat
  | bool b => some b.toInt
  | int n => some n
  | float (.num q) => some q
  | _ => none

variable {v : Json} {n : Int} {s : String}

theorem eqStr_iff : v.eqStr s = true ↔ v = .str s := by
  cases v <;> simp [eqStr]

theorem eqInt_int : (int n).eqInt n = true := by
  simp [eqInt]

theorem number_of_eqInt (same : v.eqInt n = true) : v.number = some (n : Rat) := by
  cases v with
  | bool b =>
    have value : b.toInt = n := by simpa [eqInt] using same
    exact congrArg (fun m : Int => some (m : Rat)) value
  | int m =>
    have value : m = n := by simpa [eqInt] using same
    exact congrArg (fun m : Int => some (m : Rat)) value
  | float x =>
    cases x with
    | num q =>
      have value : q = n := by simpa [eqInt] using same
      exact congrArg some value
    | nan => cases same
    | inf negative => cases same
  | null => cases same
  | str s => cases same
  | arr items => cases same
  | obj fields => cases same

theorem number_of_asInt (whole : v.asInt = some n) : v.number = some (n : Rat) := by
  cases v with
  | bool b => cases whole; rfl
  | int m => cases whole; rfl
  | float x => cases whole
  | null => cases whole
  | str s => cases whole
  | arr items => cases whole
  | obj fields => cases whole

end Json

end Python
