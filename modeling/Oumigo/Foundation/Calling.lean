import Mathlib.Data.List.Basic
import Mathlib.Tactic.Common

/-!
# Calling a Python function

A signature as `inspect.signature` gives it, and how a call binds its positional and keyword
arguments to the parameters.  A call with keyword arguments alone goes through exactly when every
keyword is taken and every parameter without a default gets one (`binds_keywords_iff`).
-/

namespace Python

/-- `inspect.Parameter.kind`. -/
inductive ParamKind where
  | positionalOnly
  | positionalOrKeyword
  | varPositional
  | keywordOnly
  | varKeyword
  deriving DecidableEq

/-- `inspect.Parameter`, with values of type `V` and annotations of type `A`. -/
structure Parameter (V A : Type*) where
  name : String
  kind : ParamKind := .positionalOrKeyword
  default : Option V := none
  annotation : Option A := none

namespace Parameter

variable {V A : Type*} (p : Parameter V A)

def takesPosition : Bool := p.kind = .positionalOnly || p.kind = .positionalOrKeyword

def takesKeyword : Bool := p.kind = .positionalOrKeyword || p.kind = .keywordOnly

/-- `*args` or `**kwargs`, which need no argument. -/
def isVariadic : Bool := p.kind = .varPositional || p.kind = .varKeyword

/-- A call must give it a value. -/
def isRequired : Bool := !p.isVariadic && p.default.isNone

/-- The value a call gives to it. -/
def supplied (given kwargs : List (String × V)) : Option V :=
  (given.lookup p.name).or (if p.takesKeyword then kwargs.lookup p.name else none)

end Parameter

/-- The parameters of a function.  No two have the same name. -/
structure Signature (V A : Type*) where
  params : List (Parameter V A)
  names_nodup : (params.map Parameter.name).Nodup

/-- What a parameter holds in the body. -/
inductive Argument (V : Type*) where
  | value (v : V)
  | rest (values : List V)
  | keywords (entries : List (String × V))

/-- The `TypeError` of a call. -/
inductive CallError where
  | unexpectedKeyword (name : String)
  | multipleValues (name : String)
  | tooManyPositional
  | missing (name : String)

namespace Signature

variable {V A : Type*} (sig : Signature V A)

/-- The values that positional arguments give. -/
def byPosition (args : List V) : List (String × V) :=
  ((sig.params.filter Parameter.takesPosition).map Parameter.name).zip args

/-- What is wrong with a keyword, after the positional arguments. -/
def keywordError (given : List (String × V)) (name : String) : Option CallError :=
  if sig.params.any fun p => p.takesKeyword && p.name = name then
    if given.any fun entry => entry.1 = name then some (.multipleValues name) else none
  else if sig.params.any fun p => p.kind = .varKeyword then none
  else some (.unexpectedKeyword name)

/-- What a parameter holds. -/
def argument (args : List V) (given kwargs : List (String × V)) (p : Parameter V A) :
    Option (String × Argument V) :=
  match p.kind with
  | .varPositional => some (p.name, .rest (args.drop given.length))
  | .varKeyword => some (p.name, .keywords (kwargs.filter fun entry =>
      !sig.params.any fun q => q.takesKeyword && q.name = entry.1))
  | _ => ((p.supplied given kwargs).or p.default).map fun v => (p.name, .value v)

/-- `fn(*args, **kwargs)`, up to the body. -/
def bind (args : List V) (kwargs : List (String × V)) :
    Except CallError (List (String × Argument V)) :=
  let given := sig.byPosition args
  match kwargs.findSome? fun entry => sig.keywordError given entry.1 with
  | some error => .error error
  | none =>
      if given.length < args.length ∧ ¬ sig.params.any fun p => p.kind = .varPositional then
        .error .tooManyPositional
      else
        match sig.params.find? fun p => p.isRequired && (p.supplied given kwargs).isNone with
        | some p => .error (.missing p.name)
        | none => .ok (sig.params.filterMap (sig.argument args given kwargs))

/-- Some parameter takes the keyword. -/
def Takes (name : String) : Prop :=
  (∃ p ∈ sig.params, p.takesKeyword = true ∧ p.name = name) ∨
    ∃ p ∈ sig.params, p.kind = .varKeyword

variable {sig} {kwargs : List (String × V)}

theorem keywordError_eq_none_iff (name : String) :
    sig.keywordError [] name = none ↔ sig.Takes name := by
  unfold keywordError Takes
  by_cases named : ∃ p ∈ sig.params, p.takesKeyword = true ∧ p.name = name
  · have found : (sig.params.any fun p => p.takesKeyword && p.name = name) = true := by
      simpa using named
    rw [if_pos found]
    simp [named]
  · have missing : ¬ (sig.params.any fun p => p.takesKeyword && p.name = name) = true := by
      simpa using named
    rw [if_neg missing]
    simp [named]

theorem isNone_supplied_iff (p : Parameter V A) :
    (p.supplied [] kwargs).isNone = true ↔
      ¬ (p.takesKeyword = true ∧ p.name ∈ kwargs.map Prod.fst) := by
  unfold Parameter.supplied
  rw [List.lookup_nil, Option.none_or]
  cases p.takesKeyword with
  | false => simp
  | true =>
    rw [if_pos rfl, Option.isNone_iff_eq_none, List.lookup_eq_none_iff]
    simp only [true_and, List.mem_map, not_exists, not_and]
    constructor
    · intro other entry member same
      have differs := other entry member
      simp [same] at differs
    · intro other entry member
      have differs : p.name ≠ entry.1 := fun same => other entry member same.symm
      simpa using differs

/-- When a call goes through. -/
theorem binds_iff {args : List V} : (∃ bound, sig.bind args kwargs = .ok bound) ↔
    (∀ entry ∈ kwargs, sig.keywordError (sig.byPosition args) entry.1 = none) ∧
      ¬ ((sig.byPosition args).length < args.length ∧
        ¬ sig.params.any fun p => p.kind = .varPositional) ∧
      ∀ p ∈ sig.params, p.isRequired = true →
        (p.supplied (sig.byPosition args) kwargs).isNone = false := by
  unfold bind
  simp only []
  cases wrong : kwargs.findSome? fun entry => sig.keywordError (sig.byPosition args) entry.1 with
  | some error =>
    obtain ⟨entry, member, refused⟩ := List.exists_of_findSome?_eq_some wrong
    constructor
    · rintro ⟨bound, taken⟩
      cases taken
    · rintro ⟨accepts, -⟩
      rw [accepts entry member] at refused
      cases refused
  | none =>
    have accepts := List.findSome?_eq_none_iff.mp wrong
    by_cases many : (sig.byPosition args).length < args.length ∧
        ¬ sig.params.any fun p => p.kind = .varPositional
    · simp only [if_pos many]
      constructor
      · rintro ⟨bound, taken⟩
        cases taken
      · rintro ⟨-, room, -⟩
        exact absurd many room
    · simp only [if_neg many]
      cases lacks : sig.params.find? fun p =>
          p.isRequired && (p.supplied (sig.byPosition args) kwargs).isNone with
      | some p =>
        have test := List.find?_some lacks
        rw [Bool.and_eq_true] at test
        constructor
        · rintro ⟨bound, taken⟩
          cases taken
        · rintro ⟨-, -, gives⟩
          rw [gives p (List.mem_of_find?_eq_some lacks) test.1] at test
          cases test.2
      | none =>
        refine ⟨fun _ => ⟨accepts, many, ?_⟩, fun _ => ⟨_, rfl⟩⟩
        intro p member required
        have test := List.find?_eq_none.mp lacks p member
        rw [required, Bool.true_and, Bool.not_eq_true] at test
        exact test

/-- What the parameters hold after a call that goes through. -/
theorem bind_eq {args : List V} {bound : List (String × Argument V)}
    (goes : sig.bind args kwargs = .ok bound) :
    bound = sig.params.filterMap (sig.argument args (sig.byPosition args) kwargs) := by
  unfold bind at goes
  simp only [] at goes
  split at goes
  · cases goes
  · split at goes
    · cases goes
    · split at goes
      · cases goes
      · cases goes
        rfl

/-- A call with keyword arguments alone. -/
theorem binds_keywords_iff :
    (∃ bound, sig.bind [] kwargs = .ok bound) ↔
      (∀ entry ∈ kwargs, sig.Takes entry.1) ∧
        ∀ p ∈ sig.params, p.isRequired = true →
          p.takesKeyword = true ∧ p.name ∈ kwargs.map Prod.fst := by
  have nothing : sig.byPosition [] = [] := List.zip_nil_right
  rw [binds_iff, nothing]
  simp only [keywordError_eq_none_iff, ← Bool.not_eq_true, isNone_supplied_iff, not_not,
    List.length_nil, Nat.lt_irrefl, false_and, not_false_eq_true, true_and]

end Signature

end Python
