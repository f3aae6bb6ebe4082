import Oumigo.Foundation.Python
import Mathlib.Data.Rat.Floor
import Mathlib.Algebra.Order.Floor.Ring
import Mathlib.Tactic.Linarith
import Mathlib.Tactic.FieldSimp
import Mathlib.Tactic.Ring
import Mathlib.Tactic.Positivity

/-!
# Floats

A float is a rational number, an infinity or NaN: its comparisons and its special
values are those of the interpreter, but nothing is rounded to 53 bits and nothing
overflows.  `floatOf` and `fixed` are `float(text)` and `f"{x:.6f}"`;
`floatOf_fixed` says that the one reads what the other prints.
-/

namespace Python

/-- A `float`. -/
inductive PyFloat where
  | nan
  | inf (negative : Bool)
  | num (q : Rat)
  deriving DecidableEq, Repr

/-- The integer nearest to `q`, of two the even one. -/
def roundHalfEven (q : Rat) : Int :=
  if q - q.floor < 1 / 2 then q.floor
  else if q - q.floor > 1 / 2 then q.floor + 1
  else if q.floor % 2 = 0 then q.floor
  else q.floor + 1

/-- `q` to some decimals. -/
def roundTo (decimals : Nat) (q : Rat) : Rat := roundHalfEven (q * 10 ^ decimals) / 10 ^ decimals

namespace PyFloat

/-- `math.isinf`. -/
def isInf : PyFloat → Bool
  | inf _ => true
  | _ => false

/-- `math.isfinite`. -/
def isFinite : PyFloat → Bool
  | num _ => true
  | _ => false

/-- `x < y`. -/
def lt : PyFloat → PyFloat → Bool
  | nan, _ => false
  | _, nan => false
  | inf a, inf b => a && !b
  | inf a, num _ => a
  | num _, inf b => !b
  | num q, num r => q < r

/-- `x <= y`. -/
def le : PyFloat → PyFloat → Bool
  | nan, _ => false
  | _, nan => false
  | inf a, inf b => a || !b
  | inf a, num _ => a
  | num _, inf b => !b
  | num q, num r => q ≤ r

/-- The order of a sort: that of `<=`, with NaN last. -/
def sortLe : PyFloat → PyFloat → Bool
  | _, nan => true
  | nan, _ => false
  | x, y => x.le y

/-- `-x`. -/
def neg : PyFloat → PyFloat
  | nan => nan
  | inf a => inf !a
  | num q => num (-q)

/-- `x + y`. -/
def add : PyFloat → PyFloat → PyFloat
  | nan, _ => nan
  | _, nan => nan
  | inf a, inf b => if a = b then inf a else nan
  | inf a, num _ => inf a
  | num _, inf b => inf b
  | num q, num r => num (q + r)

/-- `x - y`. -/
def sub (x y : PyFloat) : PyFloat := x.add y.neg

/-- `x * y`. -/
def mul : PyFloat → PyFloat → PyFloat
  | nan, _ => nan
  | _, nan => nan
  | inf a, inf b => inf (a ^^ b)
  | inf a, num r => if r = 0 then nan else inf (a ^^ decide (r < 0))
  | num q, inf b => if q = 0 then nan else inf (b ^^ decide (q < 0))
  | num q, num r => num (q * r)

/-- `x / y`, for `y` that is not zero. -/
def div : PyFloat → PyFloat → PyFloat
  | nan, _ => nan
  | _, nan => nan
  | inf _, inf _ => nan
  | inf a, num r => inf (a ^^ decide (r < 0))
  | num _, inf _ => num 0
  | num q, num r => num (q / r)

/-- `round(x, decimals)`. -/
def round (decimals : Nat) : PyFloat → PyFloat
  | num q => num (roundTo decimals q)
  | x => x

variable {x y z : PyFloat}

theorem eq_num_of_isFinite (finite : x.isFinite = true) : ∃ q, x = num q := by
  cases x with
  | nan => cases finite
  | inf a => cases finite
  | num q => exact ⟨q, rfl⟩

theorem isFinite_add (left : x.isFinite = true) (right : y.isFinite = true) :
    (x.add y).isFinite = true := by
  obtain ⟨q, rfl⟩ := eq_num_of_isFinite left
  obtain ⟨r, rfl⟩ := eq_num_of_isFinite right
  rfl

theorem isFinite_sub (left : x.isFinite = true) (right : y.isFinite = true) :
    (x.sub y).isFinite = true := by
  obtain ⟨q, rfl⟩ := eq_num_of_isFinite left
  obtain ⟨r, rfl⟩ := eq_num_of_isFinite right
  rfl

theorem isFinite_mul (left : x.isFinite = true) (right : y.isFinite = true) :
    (x.mul y).isFinite = true := by
  obtain ⟨q, rfl⟩ := eq_num_of_isFinite left
  obtain ⟨r, rfl⟩ := eq_num_of_isFinite right
  rfl

theorem isFinite_div (left : x.isFinite = true) (right : y.isFinite = true) :
    (x.div y).isFinite = true := by
  obtain ⟨q, rfl⟩ := eq_num_of_isFinite left
  obtain ⟨r, rfl⟩ := eq_num_of_isFinite right
  rfl

theorem isFinite_round {decimals : Nat} (finite : x.isFinite = true) :
    (x.round decimals).isFinite = true := by
  obtain ⟨q, rfl⟩ := eq_num_of_isFinite finite
  rfl

theorem not_isInf_of_isFinite (finite : x.isFinite = true) : x.isInf = false := by
  obtain ⟨q, rfl⟩ := eq_num_of_isFinite finite
  rfl

theorem sortLe_total (x y : PyFloat) : (x.sortLe y || y.sortLe x) = true := by
  cases x with
  | nan => cases y <;> rfl
  | inf a => cases y with
    | nan => rfl
    | inf b => cases a <;> cases b <;> rfl
    | num r => cases a <;> rfl
  | num q => cases y with
    | nan => rfl
    | inf b => cases b <;> rfl
    | num r => simpa [sortLe, le] using le_total q r

theorem sortLe_trans (first : x.sortLe y = true) (second : y.sortLe z = true) :
    x.sortLe z = true := by
  cases x with
  | nan => cases y with
    | nan => exact second
    | inf b => cases first
    | num r => cases first
  | inf a => cases z with
    | nan => rfl
    | inf c => cases y with
      | nan => cases second
      | inf b => cases a <;> cases b <;> cases c <;> simp_all [sortLe, le]
      | num r => cases a <;> cases c <;> simp_all [sortLe, le]
    | num t => cases y with
      | nan => cases second
      | inf b => cases a <;> cases b <;> simp_all [sortLe, le]
      | num r => cases a <;> simp_all [sortLe, le]
  | num q => cases z with
    | nan => rfl
    | inf c => cases y with
      | nan => cases second
      | inf b => cases b <;> cases c <;> simp_all [sortLe, le]
      | num r => cases c <;> simp_all [sortLe, le]
    | num t => cases y with
      | nan => cases second
      | inf b => cases b <;> simp_all [sortLe, le]
      | num r =>
        simp only [sortLe, le, decide_eq_true_eq] at first second ⊢
        exact first.trans second

/-- Nothing but what is not a number comes after `+Inf`. -/
theorem sortLe_inf (after : (inf false).sortLe x = true) : x = inf false ∨ x = nan := by
  cases x with
  | nan => exact Or.inr rfl
  | inf a => cases a with
    | false => exact Or.inl rfl
    | true => cases after
  | num q => cases after

end PyFloat

/-! ## Reading a number -/

/-- Digits, with single underscores between them. -/
def digitRun : List Char → List Char × List Char
  | [] => ([], [])
  | [c] => if c.isDigit then ([c], []) else ([], [c])
  | c :: d :: rest =>
      if c.isDigit then
        let (digits, left) := digitRun (d :: rest)
        (c :: digits, left)
      else if c = '_' && d.isDigit then digitRun (d :: rest)
      else ([], c :: d :: rest)

/-- A `digitpart` of the grammar of `float`. -/
def digitPart (text : List Char) : Option (List Char × List Char) :=
  match text with
  | [] => none
  | c :: _ => if c.isDigit then some (digitRun text) else none

/-- A sign, and what follows it. -/
def sign : List Char → Bool × List Char
  | '-' :: rest => (true, rest)
  | '+' :: rest => (false, rest)
  | text => (false, text)

/-- The digits of a number, how many of them follow the point, and what follows the number. -/
def mantissa (text : List Char) : Option (List Char × Nat × List Char) :=
  match digitPart text with
  | some (whole, rest) =>
      match rest with
      | '.' :: rest' =>
          match digitPart rest' with
          | some (fraction, left) => some (whole ++ fraction, fraction.length, left)
          | none => some (whole, 0, rest')
      | _ => some (whole, 0, rest)
  | none =>
      match text with
      | '.' :: rest => (digitPart rest).map fun (fraction, left) => (fraction, fraction.length, left)
      | _ => none

/-- The exponent that ends a number. -/
def exponent : List Char → Option Int
  | [] => some 0
  | c :: rest =>
      if c = 'e' then
        let (negative, body) := sign rest
        match digitPart body with
        | some (digits, []) =>
            let magnitude : Int := Nat.ofDigitChars 10 digits 0
            some (if negative then -magnitude else magnitude)
        | _ => none
      else none

/-- `float(text)`, as far as ASCII goes; `none` for `ValueError`. -/
def floatOf (text : String) : Option PyFloat :=
  let (negative, body) := sign (lower (strip text)).toList
  if body = "inf".toList || body = "infinity".toList then some (.inf negative)
  else if body = "nan".toList then some .nan
  else
    match mantissa body with
    | none => none
    | some (digits, scale, rest) =>
        (exponent rest).map fun e =>
          let magnitude : Rat := Nat.ofDigitChars 10 digits 0 * (10 : Rat) ^ (e - (scale : Int))
          .num (if negative then -magnitude else magnitude)

/-! ## Printing a number -/

/-- `text.rjust(width, "0")`. -/
def zeroPad (width : Nat) (text : List Char) : List Char :=
  List.replicate (width - text.length) '0' ++ text

/-- `f"{q:.{decimals}f}"`. -/
def fixed (decimals : Nat) (q : Rat) : String :=
  let scaled := (roundHalfEven (q * 10 ^ decimals)).natAbs
  let minus := if q < 0 then ['-'] else []
  String.ofList (minus ++ Nat.toDigits 10 (scaled / 10 ^ decimals) ++
    '.' :: zeroPad decimals (Nat.toDigits 10 (scaled % 10 ^ decimals)))

/-! ## Rounding -/

theorem roundHalfEven_intCast (n : Int) : roundHalfEven n = n := by
  unfold roundHalfEven
  rw [Rat.floor_intCast]
  norm_num

theorem floor_le_roundHalfEven (q : Rat) : q.floor ≤ roundHalfEven q := by
  unfold roundHalfEven
  split
  · exact le_refl _
  · split
    · exact Int.le.intro 1 rfl
    · split
      · exact le_refl _
      · exact Int.le.intro 1 rfl

theorem roundHalfEven_le_succ (q : Rat) : roundHalfEven q ≤ q.floor + 1 := by
  unfold roundHalfEven
  split
  · exact Int.le.intro 1 rfl
  · split
    · exact le_refl _
    · split
      · exact Int.le.intro 1 rfl
      · exact le_refl _

theorem roundHalfEven_mono {q r : Rat} (le : q ≤ r) : roundHalfEven q ≤ roundHalfEven r := by
  have floors : q.floor ≤ r.floor := Rat.floor_monotone le
  rcases lt_or_eq_of_le floors with below | same
  · exact (roundHalfEven_le_succ q).trans
      ((Int.add_one_le_iff.mpr below).trans (floor_le_roundHalfEven r))
  · unfold roundHalfEven
    rw [same]
    split_ifs <;> first | omega | (exfalso; linarith)

theorem roundHalfEven_zero : roundHalfEven 0 = 0 := roundHalfEven_intCast 0

theorem roundTo_mono {decimals : Nat} {q r : Rat} (le : q ≤ r) :
    roundTo decimals q ≤ roundTo decimals r := by
  have scaled : q * 10 ^ decimals ≤ r * 10 ^ decimals :=
    mul_le_mul_of_nonneg_right le (by positivity)
  have rounded : (roundHalfEven (q * 10 ^ decimals) : Rat) ≤ roundHalfEven (r * 10 ^ decimals) :=
    Int.cast_le.mpr (roundHalfEven_mono scaled)
  exact div_le_div_of_nonneg_right rounded (by positivity)

/-- What has few decimals is not rounded again. -/
theorem roundTo_roundTo (decimals : Nat) (q : Rat) :
    roundTo decimals (roundTo decimals q) = roundTo decimals q := by
  have back : roundTo decimals q * 10 ^ decimals = roundHalfEven (q * 10 ^ decimals) :=
    div_mul_cancel₀ _ (by positivity)
  calc
    roundTo decimals (roundTo decimals q)
        = roundHalfEven (roundTo decimals q * 10 ^ decimals) / 10 ^ decimals := rfl
    _ = roundTo decimals q := by rw [back, roundHalfEven_intCast]; rfl

/-! ## What is printed can be read -/

/-- A character of a printed number. -/
def Plain (c : Char) : Prop := c.isDigit = true ∨ c = '-' ∨ c = '.'

theorem Plain.toLower {c : Char} (plain : Plain c) : c.toLower = c := by
  rcases plain with digit | rfl | rfl
  · have bounds : 48 ≤ c.toNat ∧ c.toNat ≤ 57 := by
      simpa [Char.isDigit, UInt32.le_iff_toNat_le] using digit
    unfold Char.toLower
    rw [dif_neg]
    rintro ⟨upper, -⟩
    have above : 65 ≤ c.toNat := UInt32.le_iff_toNat_le.mp upper
    omega
  · decide
  · decide

theorem Plain.isSpace {c : Char} (plain : Plain c) : isSpace c = false := by
  rcases plain with digit | rfl | rfl
  · have bounds : 48 ≤ c.toNat ∧ c.toNat ≤ 57 := by
      simpa [Char.isDigit, UInt32.le_iff_toNat_le] using digit
    have visible : c ≠ ' ' := by
      rintro rfl
      simp at bounds
    unfold Python.isSpace
    simp only [visible, decide_false, Bool.false_or, Bool.or_eq_false_iff, Bool.and_eq_false_iff,
      decide_eq_false_iff_not]
    omega
  · decide
  · decide

theorem strip_plain {text : List Char} (plain : ∀ c ∈ text, Plain c) :
    strip (String.ofList text) = String.ofList text := by
  apply strip_eq_self
  · intro c first
    rw [String.toList_ofList] at first
    exact (plain c (List.mem_of_head? first)).isSpace
  · intro c last
    rw [String.toList_ofList] at last
    exact (plain c (List.mem_of_getLast? last)).isSpace

theorem lower_plain {text : List Char} (plain : ∀ c ∈ text, Plain c) :
    lower (String.ofList text) = String.ofList text := by
  unfold lower
  rw [String.toList_ofList, List.map_congr_left fun c member => (plain c member).toLower,
    List.map_id']

theorem digitRun_append {digits rest : List Char} (all : ∀ c ∈ digits, c.isDigit = true)
    (stop : ∀ c ∈ rest.head?, c.isDigit = false ∧ c ≠ '_') :
    digitRun (digits ++ rest) = (digits, rest) := by
  induction digits with
  | nil =>
    cases rest with
    | nil => rfl
    | cons c rest =>
      obtain ⟨none, other⟩ := stop c rfl
      cases rest with
      | nil => simp [digitRun, none]
      | cons d rest => simp [digitRun, none, other]
  | cons c digits ih =>
    have first : c.isDigit = true := all c List.mem_cons_self
    have later := ih fun c member => all c (List.mem_cons_of_mem _ member)
    rw [List.cons_append]
    cases whole : digits ++ rest with
    | nil =>
      obtain ⟨rfl, rfl⟩ := List.append_eq_nil_iff.mp whole
      simp [digitRun, first]
    | cons d tail =>
      rw [whole] at later
      simp [digitRun, first, later]

theorem digitPart_append {digits rest : List Char} (all : ∀ c ∈ digits, c.isDigit = true)
    (some : digits ≠ []) (stop : ∀ c ∈ rest.head?, c.isDigit = false ∧ c ≠ '_') :
    digitPart (digits ++ rest) = .some (digits, rest) := by
  have run := digitRun_append all stop
  cases digits with
  | nil => exact absurd rfl some
  | cons c digits =>
    unfold digitPart
    rw [List.cons_append] at run ⊢
    dsimp only
    rw [if_pos (all c List.mem_cons_self), run]

theorem sign_digit {c : Char} {text : List Char} (digit : c.isDigit = true) :
    sign (c :: text) = (false, c :: text) := by
  unfold sign
  split
  · next same =>
    cases same
    cases digit
  · next same =>
    cases same
    cases digit
  · rfl

/-- The words for infinities and NaN do not begin with a digit. -/
theorem not_word {c : Char} {text : List Char} (digit : c.isDigit = true) :
    c :: text ≠ "inf".toList ∧ c :: text ≠ "infinity".toList ∧ c :: text ≠ "nan".toList := by
  refine ⟨?_, ?_, ?_⟩ <;>
  · intro same
    have head : c = _ := (List.cons.inj same).1
    rw [head] at digit
    exact absurd digit (by decide)

/-- `float` of digits, after a sign or none. -/
theorem floatOf_plain {minus : Bool} {digits fraction rest : List Char} {value : Rat}
    (all : ∀ c ∈ digits, c.isDigit = true) (some : digits ≠ [])
    (decimals : ∀ c ∈ fraction, c.isDigit = true)
    (shape : (fraction = [] ∧ rest = []) ∨ (fraction ≠ [] ∧ rest = '.' :: fraction))
    (same : value = Nat.ofDigitChars 10 (digits ++ fraction) 0 / 10 ^ fraction.length) :
    floatOf (String.ofList ((if minus then ['-'] else []) ++ digits ++ rest)) =
      .some (.num (if minus then -value else value)) := by
  have plain : ∀ c ∈ (if minus then ['-'] else []) ++ digits ++ rest, Plain c := by
    intro c member
    rcases List.mem_append.mp member with front | back
    · rcases List.mem_append.mp front with first | digit
      · cases minus with
        | false => cases first
        | true => exact Or.inr (Or.inl (List.mem_singleton.mp first))
      · exact Or.inl (all c digit)
    · rcases shape with ⟨-, rfl⟩ | ⟨-, rfl⟩
      · cases back
      · rcases List.mem_cons.mp back with rfl | digit
        · exact Or.inr (Or.inr rfl)
        · exact Or.inl (decimals c digit)
  have read : sign ((if minus then ['-'] else []) ++ digits ++ rest) = (minus, digits ++ rest) := by
    cases minus with
    | true => rfl
    | false =>
      cases digits with
      | nil => exact absurd rfl some
      | cons c digits => exact sign_digit (all c List.mem_cons_self)
  have parsed : mantissa (digits ++ rest) =
      .some (digits ++ fraction, fraction.length, []) := by
    unfold mantissa
    rcases shape with ⟨rfl, rfl⟩ | ⟨more, rfl⟩
    · have whole : digitPart (digits ++ []) = .some (digits, []) :=
        digitPart_append all some (by simp)
      rw [whole, List.append_nil]
      rfl
    · have point : ∀ c ∈ ('.' :: fraction).head?, c.isDigit = false ∧ c ≠ '_' := by
        intro c first
        cases first
        decide
      have after : digitPart fraction = .some (fraction, []) := by
        have whole : digitPart (fraction ++ []) = .some (fraction, []) :=
          digitPart_append decimals more (by simp)
        rwa [List.append_nil] at whole
      rw [digitPart_append all some point]
      simp only [after]
  unfold floatOf
  rw [strip_plain plain, lower_plain plain, String.toList_ofList, read]
  dsimp only
  cases digits with
  | nil => exact absurd rfl some
  | cons c digits =>
    obtain ⟨inf, infinity, nan⟩ := @not_word c (digits ++ rest) (all c List.mem_cons_self)
    rw [List.cons_append] at parsed ⊢
    have word : ¬ (decide (c :: (digits ++ rest) = "inf".toList) ||
        decide (c :: (digits ++ rest) = "infinity".toList)) = true := by
      rw [decide_eq_false inf, decide_eq_false infinity]
      exact Bool.false_ne_true
    rw [if_neg word, if_neg nan, parsed]
    have scale : (10 : Rat) ^ ((0 : Int) - (fraction.length : Int)) = (10 ^ fraction.length)⁻¹ := by
      rw [zero_sub, zpow_neg, zpow_natCast]
    simp only [exponent, Option.map_some, scale, same, div_eq_mul_inv]

theorem isDigit_toDigits {n : Nat} : ∀ c ∈ Nat.toDigits 10 n, c.isDigit = true :=
  fun _ member => Nat.isDigit_of_mem_toDigits (by decide) (by decide) member

/-- **`float(str(i))`** is the integer. -/
theorem floatOf_int (i : Int) : floatOf (toString i) = some (.num i) := by
  cases i with
  | ofNat n =>
    have shape : toString (Int.ofNat n) =
        String.ofList ((if false = true then ['-'] else []) ++ Nat.toDigits 10 n ++ []) := by
      rw [List.append_nil]
      rfl
    rw [shape, floatOf_plain isDigit_toDigits Nat.toDigits_ne_nil (by simp)
      (Or.inl ⟨rfl, rfl⟩) rfl]
    simp
  | negSucc n =>
    have shape : toString (Int.negSucc n) =
        String.ofList ((if true = true then ['-'] else []) ++ Nat.toDigits 10 (n + 1) ++ []) := by
      apply String.toList_inj.mp
      rw [List.append_nil]
      show ("-" ++ toString (n + 1)).toList = _
      simp
    rw [shape, floatOf_plain isDigit_toDigits Nat.toDigits_ne_nil (by simp)
      (Or.inl ⟨rfl, rfl⟩) rfl]
    simp

theorem zeroPad_digits {width : Nat} {text : List Char} (all : ∀ c ∈ text, c.isDigit = true) :
    ∀ c ∈ zeroPad width text, c.isDigit = true := by
  intro c member
  rcases List.mem_append.mp member with zero | digit
  · rw [List.eq_of_mem_replicate zero]
    rfl
  · exact all c digit

theorem zeroPad_length {width : Nat} {text : List Char} (fits : text.length ≤ width) :
    (zeroPad width text).length = width := by
  unfold zeroPad
  rw [List.length_append, List.length_replicate]
  omega

theorem ofDigitChars_zeroPad (width init : Nat) (text : List Char) (fits : text.length ≤ width) :
    Nat.ofDigitChars 10 (zeroPad width text) init =
      10 ^ width * init + Nat.ofDigitChars 10 text 0 := by
  unfold zeroPad
  rw [Nat.ofDigitChars_append, Nat.ofDigitChars_replicate_zero,
    Nat.ofDigitChars_eq_ofDigitChars_zero, ← mul_assoc, ← pow_add, Nat.add_sub_cancel' fits]

/-- **What is printed to some decimals is read back** as the number to those decimals. -/
theorem floatOf_fixed {decimals : Nat} (positive : 0 < decimals) (q : Rat) :
    floatOf (fixed decimals q) = some (.num (roundTo decimals q)) := by
  have scale : (0 : Rat) < 10 ^ decimals := by positivity
  set scaled := (roundHalfEven (q * 10 ^ decimals)).natAbs with scaledEq
  have fits : (Nat.toDigits 10 (scaled % 10 ^ decimals)).length ≤ decimals :=
    (Nat.length_toDigits_le_iff (by decide) positive).mpr (Nat.mod_lt _ (by positivity))
  have value : (scaled : Rat) / 10 ^ decimals =
      Nat.ofDigitChars 10 (Nat.toDigits 10 (scaled / 10 ^ decimals) ++
        zeroPad decimals (Nat.toDigits 10 (scaled % 10 ^ decimals))) 0 /
      10 ^ (zeroPad decimals (Nat.toDigits 10 (scaled % 10 ^ decimals))).length := by
    rw [Nat.ofDigitChars_append, ofDigitChars_zeroPad _ _ _ fits, zeroPad_length fits,
      Nat.ofDigitChars_ten_toDigits, Nat.ofDigitChars_ten_toDigits, Nat.div_add_mod]
  have nonempty : zeroPad decimals (Nat.toDigits 10 (scaled % 10 ^ decimals)) ≠ [] := by
    apply List.ne_nil_of_length_pos
    rw [zeroPad_length fits]
    exact positive
  have signed : (if decide (q < 0) = true then -((scaled : Rat) / 10 ^ decimals)
      else (scaled : Rat) / 10 ^ decimals) = roundTo decimals q := by
    unfold roundTo
    by_cases below : q < 0
    · have nonpos : roundHalfEven (q * 10 ^ decimals) ≤ 0 := by
        rw [← roundHalfEven_zero]
        exact roundHalfEven_mono (mul_nonpos_of_nonpos_of_nonneg below.le scale.le)
      have same : ((scaled : Int) : Rat) = -(roundHalfEven (q * 10 ^ decimals) : Rat) := by
        rw [scaledEq, Int.ofNat_natAbs_of_nonpos nonpos, Int.cast_neg]
      rw [if_pos (decide_eq_true below), ← Int.cast_natCast, same]
      ring
    · have nonneg : 0 ≤ roundHalfEven (q * 10 ^ decimals) := by
        rw [← roundHalfEven_zero]
        exact roundHalfEven_mono (mul_nonneg (not_lt.mp below) scale.le)
      have same : ((scaled : Int) : Rat) = (roundHalfEven (q * 10 ^ decimals) : Rat) := by
        rw [scaledEq, Int.natAbs_of_nonneg nonneg]
      rw [if_neg (by simpa using below), ← Int.cast_natCast, same]
  rw [← signed, ← floatOf_plain isDigit_toDigits Nat.toDigits_ne_nil
    (zeroPad_digits isDigit_toDigits) (Or.inr ⟨nonempty, rfl⟩) value]
  simp only [decide_eq_true_eq]
  rfl

example : floatOf " -1_0.5e1 " = some (.num (-105)) := by decide +kernel

example : fixed 6 (-1 / 3) = "-0.333333" := by decide +kernel

end Python
