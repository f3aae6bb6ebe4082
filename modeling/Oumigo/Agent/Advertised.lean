import Oumigo.Agent.Declaration
import Oumigo.Foundation.JsonSchema

/-!
# Advertised schemas and the calls they allow

A tool that was accepted with an inferred schema lists exactly the parameters that can be given by
keyword.  The calls the schema allows all bind, and the defaults satisfy it, exactly when an
optional parameter has a default, a skipped `self` needs no argument, no parameter is called
`self`, and the defaults that `_check_default` does not look at fit their annotations.
-/

namespace Oumigo

open Python Python.JsonSchema

variable {W : Type}

/-! ## Invoking -/

/-- The signature of `Tool.invoke`. -/
def invokeSignature : Signature PyVal TypeHint where
  params := [{ name := "self" }, { name := "kwargs", kind := .varKeyword }]
  names_nodup := by simp

/-- What `**kwargs` holds. -/
def keywordsOf (bound : List (String × Argument PyVal)) : List (String × PyVal) :=
  match bound.lookup "kwargs" with
  | some (.keywords entries) => entries
  | _ => []

/-- The arguments of the body in `tool.invoke(**object)`: the call of `invoke` is bound first, the
one of the function then. -/
def invokeBinding (fn : PyFunction W) (tool : PyVal) (object : List (String × PyVal)) :
    Except CallError (List (String × Argument PyVal)) := do
  let bound ← invokeSignature.bind [tool] object
  fn.signature.bind [] (keywordsOf bound)

/-- `Tool.invoke`. -/
def Tool.invoke (tool : Tool W) (receiver : PyVal) (object : List (String × PyVal)) :
    EStateM Exn W PyVal :=
  match invokeSignature.bind [receiver] object with
  | .ok bound => tool.fn (keywordsOf bound)
  | .error _ => throw (typeError "Tool.invoke() got multiple values for argument 'self'")

variable {py : Introspection} {fn : PyFunction W} {object : List (String × PyVal)}
  {receiver : PyVal}

theorem invokeSignature_keywordError (name : String) :
    invokeSignature.keywordError [("self", receiver)] name =
      if name = "self" then some (.multipleValues name) else none := by
  by_cases same : name = "self"
  · subst same
    rfl
  · have other : "self" ≠ name := fun equal => same equal.symm
    simp [Signature.keywordError, invokeSignature, Parameter.takesKeyword, same, other]

/-- `invoke` passes everything on, but a second `self`. -/
theorem invokeSignature_binds_iff :
    (∃ bound, invokeSignature.bind [receiver] object = .ok bound) ↔
      ∀ field ∈ object, field.1 ≠ "self" := by
  have given : invokeSignature.byPosition [receiver] = [("self", receiver)] := rfl
  rw [Signature.binds_iff, given]
  simp only [invokeSignature_keywordError]
  constructor
  · rintro ⟨accepts, -⟩ field member same
    have refused := accepts field member
    rw [if_pos same] at refused
    cases refused
  · intro passed
    refine ⟨fun field member => if_neg (passed field member), by simp, ?_⟩
    intro p member required
    rcases List.mem_cons.mp member with rfl | later
    · rfl
    · rw [List.mem_singleton.mp later] at required
      cases required

theorem keywordsOf_bind {bound : List (String × Argument PyVal)}
    (goes : invokeSignature.bind [receiver] object = .ok bound) : keywordsOf bound = object := by
  have passed := invokeSignature_binds_iff.mp ⟨bound, goes⟩
  have kept : object.filter (fun field => !invokeSignature.params.any fun q =>
      q.takesKeyword && q.name = field.1) = object := by
    rw [List.filter_eq_self]
    intro field member
    have other : "self" ≠ field.1 := fun same => passed field member same.symm
    simp [invokeSignature, Parameter.takesKeyword, other]
  have held : bound = [("self", .value receiver), ("kwargs", .keywords (object.filter fun field =>
      !invokeSignature.params.any fun q => q.takesKeyword && q.name = field.1))] :=
    Signature.bind_eq goes
  rw [held, kept]
  rfl

/-- A call through `Tool.invoke` goes through when the function takes it and nothing is called
`self`. -/
theorem invokeBinding_iff : (∃ bound, invokeBinding fn receiver object = .ok bound) ↔
    (∀ field ∈ object, field.1 ≠ "self") ∧
      ∃ bound, fn.signature.bind [] object = .ok bound := by
  unfold invokeBinding
  cases outer : invokeSignature.bind [receiver] object with
  | ok bound =>
    have passed := invokeSignature_binds_iff.mp ⟨bound, outer⟩
    show (∃ b, fn.signature.bind [] (keywordsOf bound) = .ok b) ↔ _
    rw [keywordsOf_bind outer]
    exact ⟨fun goes => ⟨passed, goes⟩, fun both => both.2⟩
  | error error =>
    constructor
    · rintro ⟨bound, goes⟩
      cases goes
    · rintro ⟨passed, -⟩
      obtain ⟨bound, goes⟩ := (@invokeSignature_binds_iff object receiver).mpr passed
      rw [goes] at outer
      cases outer

/-! ## Values of an annotation -/

mutual

/-- Whether a JSON value other than `null` is of an annotated type, with no `null` inside. -/
def TypeHint.fits : TypeHint → PyVal → Bool
  | .scalar type, v => hasType type.json v
  | .literal values, v => values.any (sameScalar v)
  | .list (item :: _), .list items => items.all fun v => TypeHint.fits item v
  | .union args, v => fitsMember args v
  | _, _ => false

/-- Whether it is of one of the types. -/
def fitsMember : List TypeHint → PyVal → Bool
  | [], _ => false
  | arg :: args, v => TypeHint.fits arg v || fitsMember args v

end

/-- `Optional[...]`. -/
def TypeHint.isUnion : TypeHint → Bool
  | .union _ => true
  | _ => false

/-- A schema for an annotation. -/
structure Describes (schema : PyVal) (fits : PyVal → Bool) : Prop where
  admits_iff : ∀ v, admits v schema = fits v
  inhabited : ∃ v, fits v = true

/-- Either a schema and no problems, or problems. -/
def Outcome (schema : Option PyVal) (problems : List String) (fits : PyVal → Bool) : Prop :=
  match schema with
  | some schema => problems = [] ∧ Describes schema fits
  | none => problems ≠ []

theorem describes_scalar (type : Scalar) :
    Describes (.dict [("type", .str type.json)]) (TypeHint.scalar type).fits where
  admits_iff v := by
    rw [admits_flat rfl rfl rfl]
    exact Bool.and_true _
  inhabited := by
    cases type with
    | str => exact ⟨.str "", rfl⟩
    | bool => exact ⟨.bool true, rfl⟩
    | int => exact ⟨.int 0, rfl⟩
    | float => exact ⟨.int 0, rfl⟩

theorem sameScalar_self {v : PyVal} {type : Scalar} (scalar : scalarOf v = some type) :
    sameScalar v v = true := by
  cases v <;> simp [scalarOf, sameScalar] at scalar ⊢

/-- What equals a scalar of a type has the type. -/
theorem hasType_of_sameScalar {v member : PyVal} {type : Scalar}
    (scalar : scalarOf member = some type) (same : sameScalar v member = true) :
    hasType type.json v = true := by
  cases member with
  | int i =>
    obtain rfl : Scalar.int = type := by simpa [scalarOf] using scalar
    cases v with
    | int i' => rfl
    | float x =>
      obtain rfl : x = i := by simpa [sameScalar] using same
      simp [Scalar.json, hasType]
    | _ => cases same
  | float x =>
    obtain rfl : Scalar.float = type := by simpa [scalarOf] using scalar
    cases v with
    | int i => rfl
    | float x' => rfl
    | _ => cases same
  | str s =>
    obtain rfl : Scalar.str = type := by simpa [scalarOf] using scalar
    cases v with
    | str s' => rfl
    | _ => cases same
  | bool b =>
    obtain rfl : Scalar.bool = type := by simpa [scalarOf] using scalar
    cases v with
    | bool b' => rfl
    | _ => cases same
  | _ => cases scalar

theorem outcome_literal (paramName : String) (values : List PyVal) :
    Outcome (literalSchema paramName values).1 (literalSchema paramName values).2
      (TypeHint.literal values).fits := by
  unfold literalSchema
  cases values with
  | nil => simp [Outcome]
  | cons first values =>
    cases scalar : scalarOf first with
    | none => simp [Outcome, scalar]
    | some type =>
      rw [List.map_cons, scalar]
      by_cases same : (values.map scalarOf).all (fun other => other = some type) = true
      · simp only [if_pos same]
        refine ⟨rfl, ?_, first, ?_⟩
        · intro v
          rw [admits_flat rfl rfl rfl]
          have enum : enumHolds (.dict [("type", .str type.json),
              ("enum", .list (first :: values))]) v = (first :: values).any (sameScalar v) := rfl
          have types : typeHolds (.dict [("type", .str type.json),
              ("enum", .list (first :: values))]) v = hasType type.json v := rfl
          have shared : ∀ member ∈ first :: values, scalarOf member = some type := by
            intro member inside
            rcases List.mem_cons.mp inside with rfl | later
            · exact scalar
            · simpa using List.all_eq_true.mp same _ (List.mem_map_of_mem later)
          rw [enum, types]
          show (hasType type.json v && (first :: values).any (sameScalar v)) =
            (first :: values).any (sameScalar v)
          cases found : (first :: values).any (sameScalar v) with
          | false => exact Bool.and_false _
          | true =>
            obtain ⟨member, inside, equal⟩ := List.any_eq_true.mp found
            rw [hasType_of_sameScalar (shared member inside) equal]
            rfl
        · show (first :: values).any (sameScalar first) = true
          rw [List.any_cons, sameScalar_self scalar]
          rfl
      · simp only [if_neg same]
        simp [Outcome]

theorem describes_list {schema : PyVal} {item : TypeHint} {rest : List TypeHint}
    (inner : Describes schema item.fits) :
    Describes (.dict [("type", .str "array"), ("items", schema)])
      (TypeHint.list (item :: rest)).fits where
  admits_iff v := by
    cases v with
    | list items =>
      show (true && true && admitsItems items (some schema)) = items.all fun v => item.fits v
      rw [admitsItems_some]
      simp only [inner.admits_iff]
      rfl
    | dict fields => rfl
    | _ => rfl
  inhabited := ⟨.list [], rfl⟩

variable (py)

theorem memberSchemas_cons {paramName : String} {arg : TypeHint} {args : List TypeHint}
    (other : arg ≠ .noneType) : memberSchemas py paramName (arg :: args) =
      (( schemaForAnnotation py paramName arg).1, ( schemaForAnnotation py paramName arg).2.2) ::
        memberSchemas py paramName args := by
  cases arg with
  | noneType => exact absurd rfl other
  | _ => simp [memberSchemas]

/-- What the members of a union give. -/
def MembersOutcome (results : List (Option PyVal × List String)) (fits : PyVal → Bool) : Prop :=
  match results with
  | [] => ∀ v, fits v = false
  | [(schema, problems)] => Outcome schema problems fits
  | _ => True

mutual

/-- The schema of an annotation admits what the annotation means. -/
theorem outcome_schema (paramName : String) : ∀ hint : TypeHint,
    Outcome ( schemaForAnnotation py paramName hint).1
        ( schemaForAnnotation py paramName hint).2.2 hint.fits ∧
      (( schemaForAnnotation py paramName hint).1.isSome →
        ( schemaForAnnotation py paramName hint).2.1 = hint.isUnion)
  | .scalar type => by
    rw [ schemaForAnnotation]
    exact ⟨⟨rfl, describes_scalar type⟩, fun _ => rfl⟩
  | .literal values => by
    rw [ schemaForAnnotation]
    exact ⟨outcome_literal paramName values, fun _ => rfl⟩
  | .list [] => by
    rw [ schemaForAnnotation]
    exact ⟨by simp [Outcome], by simp⟩
  | .list (item :: rest) => by
    have inner := (outcome_schema paramName item).1
    rw [ schemaForAnnotation]
    generalize schemaForAnnotation py paramName item = result at inner ⊢
    obtain ⟨schema, optional, problems⟩ := result
    cases schema with
    | none => exact ⟨inner, by simp⟩
    | some schema => exact ⟨⟨inner.1, describes_list inner.2⟩, fun _ => rfl⟩
  | .union args => by
    have inner := outcome_members paramName args
    rw [ schemaForAnnotation]
    generalize memberSchemas py paramName args = results at inner ⊢
    cases results with
    | nil => exact ⟨by simp [Outcome], by simp⟩
    | cons first others =>
      obtain ⟨schema, problems⟩ := first
      cases others with
      | nil => exact ⟨inner, fun _ => rfl⟩
      | cons second others => exact ⟨by simp [Outcome], by simp⟩
  | .noneType => by
    rw [ schemaForAnnotation]
    exact ⟨by simp [Outcome], by simp⟩
  | .dict args => by
    rw [ schemaForAnnotation]
    exact ⟨by simp [Outcome], by simp⟩
  | .bareList => by
    rw [ schemaForAnnotation]
    exact ⟨by simp [Outcome], by simp⟩
  | .bareDict => by
    rw [ schemaForAnnotation]
    exact ⟨by simp [Outcome], by simp⟩
  | .other name => by
    rw [ schemaForAnnotation]
    exact ⟨by simp [Outcome], by simp⟩

theorem outcome_members (paramName : String) : ∀ args : List TypeHint,
    MembersOutcome (memberSchemas py paramName args) (fitsMember args)
  | [] => fun _ => rfl
  | arg :: args => by
    have first := (outcome_schema paramName arg).1
    have later := outcome_members paramName args
    by_cases none : arg = .noneType
    · subst none
      exact later
    · rw [memberSchemas_cons py none]
      generalize memberSchemas py paramName args = results at later ⊢
      cases results with
      | cons second others => trivial
      | nil =>
        have alone : fitsMember (arg :: args) = arg.fits := by
          funext v
          rw [fitsMember, later v, Bool.or_false]
        show Outcome _ _ (fitsMember (arg :: args))
        rw [alone]
        exact first

end

/-! ## Inferred parameters -/

variable {py} {hints : Dict String TypeHint} {docArgs : Dict (List Char) (List Char)}
  {p : Parameter PyVal TypeHint} {params : List (Parameter PyVal TypeHint)}

/-- A description says nothing about values. -/
theorem Describes.describe {schema : PyVal} {fits : PyVal → Bool} (right : Describes schema fits)
    (doc : List Char) : Describes (Oumigo.describe schema doc) fits where
  admits_iff v := by
    rw [← right.admits_iff]
    apply admits_congr
    intro name known
    have other : name ≠ "description" := by
      rintro rfl
      simp at known
    cases schema with
    | dict entries => exact Dict.find?_setEntries.trans (if_neg other)
    | _ => rfl
  inhabited := right.inhabited

/-- A default that passes the check is of its scalar type. -/
theorem fits_of_checkDefault {name : String} {type : Scalar} {value : PyVal}
    (checked : checkDefault py name (.scalar type) value = []) (some : value ≠ .none) :
    (TypeHint.scalar type).fits value = true := by
  have passes : type.isInstance value = true ∧
      ¬ (type = .int ∧ Scalar.isInstance .bool value = true) := by
    unfold checkDefault at checked
    cases value with
    | none => exact absurd rfl some
    | _ =>
      simp only [Bool.and_eq_true, decide_eq_true_eq] at checked
      split at checked
      · cases checked
      · next other =>
        split at checked
        · next instance_ => exact ⟨instance_, other⟩
        · cases checked
  obtain ⟨is_instance, other⟩ := passes
  cases type with
  | str => cases value <;> first | rfl | cases is_instance
  | bool => cases value <;> first | rfl | cases is_instance
  | float => cases value <;> first | rfl | cases is_instance
  | int =>
    cases value with
    | int i => rfl
    | bool b => exact absurd ⟨rfl, rfl⟩ other
    | _ => cases is_instance

/-- The annotation that counts. -/
def annotationOf (hints : Dict String TypeHint) (p : Parameter PyVal TypeHint) :
    Option TypeHint :=
  (hints.get? p.name).or p.annotation

/-- What a parameter without problems adds. -/
structure Inferred (py : Introspection) (hints : Dict String TypeHint)
    (docArgs : Dict (List Char) (List Char)) (p : Parameter PyVal TypeHint)
    (hint : TypeHint) (schema : PyVal) : Prop where
  annotated : annotationOf hints p = some hint
  schema_eq : (inferParam py hints docArgs p).schema = some schema
  describes : Describes schema hint.fits
  required_eq : (inferParam py hints docArgs p).required =
    (p.default.isNone && !hint.isUnion)
  default_checked : ∀ value ∈ p.default, checkDefault py p.name hint value = []

theorem inferred_of_clean (clean : (inferParam py hints docArgs p).problems = []) :
    ∃ hint schema, Inferred py hints docArgs p hint schema := by
  cases annotated : annotationOf hints p with
  | none =>
    unfold annotationOf at annotated
    unfold inferParam at clean
    rw [annotated] at clean
    cases clean
  | some hint =>
    obtain ⟨right, union⟩ := outcome_schema py p.name hint
    have whole : inferParam py hints docArgs p = inferAnnotated py docArgs p hint
        ( schemaForAnnotation py p.name hint) := by
      unfold annotationOf at annotated
      unfold inferParam
      rw [annotated]
    generalize schemaForAnnotation py p.name hint = result at right union whole
    obtain ⟨schema, optional, problems⟩ := result
    rw [whole] at clean
    cases schema with
    | none => exact absurd clean right
    | some schema =>
      obtain ⟨-, describes⟩ := right
      have optional_eq : optional = hint.isUnion := union rfl
      obtain ⟨-, checked⟩ := List.append_eq_nil_iff.mp clean
      refine ⟨hint, _, annotated, by rw [whole]; rfl, ?_, by rw [whole, ← optional_eq]; rfl,
        ?_⟩
      · split
        · exact describes
        · exact describes.describe _
      · intro value given
        rw [given] at checked
        exact checked

/-! ## The schema of all parameters -/

/-- The property of a parameter is its schema. -/
theorem get?_inferProperties (nodup : (params.map Parameter.name).Nodup) (member : p ∈ params)
    {schema : PyVal} (found : (inferParam py hints docArgs p).schema = some schema) :
    (inferProperties py params hints docArgs).get? p.name = some schema := by
  apply Dict.get?_update_mem
  · have sub : ((params.filterMap fun p => (inferParam py hints docArgs p).schema.map
        fun schema => (p.name, schema)).map Prod.fst).Sublist (params.map Parameter.name) := by
      clear nodup member
      induction params with
      | nil => exact .slnil
      | cons q params ih =>
        rw [List.filterMap_cons]
        cases (inferParam py hints docArgs q).schema with
        | none => exact ih.cons _
        | some schema => exact ih.cons_cons _
    exact nodup.sublist sub
  · exact List.mem_filterMap.mpr ⟨p, member, by rw [found]; rfl⟩

theorem mem_of_get?_inferProperties {name : String} {schema : PyVal}
    (found : (inferProperties py params hints docArgs).get? name = some schema) :
    ∃ p ∈ params, p.name = name ∧ (inferParam py hints docArgs p).schema = some schema := by
  rcases Dict.get?_update_cases found with none | pair
  · cases none
  · obtain ⟨p, member, shown⟩ := List.mem_filterMap.mp pair
    obtain ⟨schema', inferred, same⟩ := Option.map_eq_some_iff.mp shown
    cases same
    exact ⟨p, member, rfl, inferred⟩

theorem lookup_isSome_iff {entries : List (String × PyVal)} {name : String} :
    (PyVal.lookup entries name).isSome = true ↔ name ∈ entries.map Prod.fst := by
  unfold PyVal.lookup
  simp [List.find?_isSome]

/-- What an object schema asks of an object. -/
theorem admits_objectSchema_iff {properties : Dict String PyVal} {required : List String} :
    admits (.dict object) (objectSchema properties required) = true ↔
      (∀ name ∈ required, name ∈ object.map Prod.fst) ∧
        ∀ field ∈ object, ∀ schema, properties.get? field.1 = some schema →
          admits field.2 schema = true := by
  have props : keyword (objectSchema properties required) "properties" =
      some (.dict properties.entries) := rfl
  have types : typeHolds (objectSchema properties required) (.dict object) = true := rfl
  have enums : enumHolds (objectSchema properties required) (.dict object) = true := by
    by_cases none : required = []
    · subst none
      rfl
    · unfold enumHolds objectSchema
      rw [if_neg none]
      rfl
  have needs : requiredHolds (objectSchema properties required) object = true ↔
      ∀ name ∈ required, name ∈ object.map Prod.fst := by
    by_cases none : required = []
    · subst none
      simp [requiredHolds, objectSchema, keyword, PyVal.lookup]
    · unfold requiredHolds objectSchema
      rw [if_neg none]
      show (required.map PyVal.str).all _ = true ↔ _
      rw [List.all_map, List.all_eq_true]
      exact forall₂_congr fun name _ => lookup_isSome_iff
  rw [admits, props, types, enums, Bool.true_and, Bool.true_and, Bool.and_eq_true, needs,
    admitsFields_some_iff]
  rfl

/-! ## Tools that were accepted -/

/-- What is known of a tool that was accepted with an inferred schema. -/
structure Declared (py : Introspection) (fn : PyFunction W) (tool : Tool W)
    (docArgs : Dict (List Char) (List Char)) : Prop where
  fn_eq : tool.fn = fn.call
  parameters_eq : tool.parameters = objectSchema
    (inferProperties py (withoutSelf fn.signature.params) fn.hints docArgs)
    (inferRequired py (withoutSelf fn.signature.params) fn.hints docArgs)
  keyword : ∀ p ∈ withoutSelf fn.signature.params, paramProblem p = none
  clean : ∀ p ∈ withoutSelf fn.signature.params, (inferParam py fn.hints docArgs p).problems = []

theorem signatureParams_of_clean (clean : (signatureParams fn).2 = []) :
    (signatureParams fn).1 = withoutSelf fn.signature.params ∧
      ∀ p ∈ withoutSelf fn.signature.params, paramProblem p = none := by
  unfold signatureParams at clean ⊢
  by_cases seen : fn.introspectable = true
  · rw [if_pos seen] at clean ⊢
    have fine : ∀ p ∈ withoutSelf fn.signature.params, paramProblem p = none :=
      List.filterMap_eq_nil_iff.mp clean
    refine ⟨List.filter_eq_self.mpr fun p member => ?_, fine⟩
    rw [fine p member]
    rfl
  · rw [if_neg seen] at clean
    cases clean

theorem declared_of_built {name description : Option String} {strict : Bool} {tool : Tool W}
    (built : buildTool py fn name description none strict = .ok tool) :
    ∃ docArgs, Declared py fn tool docArgs := by
  let docArgs := (parseDocstring py.words (fn.doc.map String.toList)).2
  let inferred := inferParameters py (signatureParams fn).1 fn.hints docArgs
  obtain ⟨r, resolved, schema, problems⟩ : ∃ r, resolveTool py fn name description none = .ok r ∧
      r.schema = inferred.1 ∧ (r.structural = [] → (signatureParams fn).2 = [] ∧
        inferred.2.1 = []) := by
    refine ⟨_, rfl, rfl, ?_⟩
    intro clean
    simp only [List.append_eq_nil_iff] at clean
    exact ⟨clean.1.1.2, clean.1.2⟩
  unfold buildTool at built
  rw [resolved] at built
  change (if r.problems strict = [] then Except.ok (Tool.mk fn.call r.name r.description r.schema)
    else .error (BuildError.toolDefinition (r.problems strict))) = .ok tool at built
  split at built
  · next fine =>
    have structural : r.structural = [] := by
      unfold Resolved.problems at fine
      cases strict with
      | false => exact fine
      | true => exact (List.append_eq_nil_iff.mp fine).1
    obtain ⟨signature, inference⟩ := problems structural
    obtain ⟨params, keyword⟩ := signatureParams_of_clean signature
    have listed : inferred =
        inferParameters py (withoutSelf fn.signature.params) fn.hints docArgs :=
      congrArg (fun params => inferParameters py params fn.hints docArgs) params
    rw [listed] at schema inference
    obtain rfl := Except.ok.inj built
    exact ⟨docArgs, rfl, schema, keyword, List.flatMap_eq_nil_iff.mp inference⟩
  · cases built

/-- A parameter that is left is given by keyword. -/
theorem takesKeyword_of_paramProblem (none : paramProblem p = none) :
    p.takesKeyword = true ∧ p.isVariadic = false := by
  unfold paramProblem at none
  unfold Parameter.takesKeyword Parameter.isVariadic
  cases kind : p.kind <;> rw [kind] at none <;> first | exact ⟨rfl, rfl⟩ | cases none

/-! ## What is advertised -/

/-- A property of a tool. -/
def propertyOf (tool : Tool W) (name : String) : Option PyVal :=
  keyword ((keyword tool.parameters "properties").getD .none) name

/-- The object has listed properties only, all required ones, and values of the advertised
types. -/
def Advertised (tool : Tool W) (object : List (String × PyVal)) : Prop :=
  (∀ field ∈ object, (propertyOf tool field.1).isSome = true) ∧
    admits (.dict object) tool.parameters = true

/-- The schema and the calling convention agree. -/
structure Agrees (fn : PyFunction W) (receiver : PyVal) (tool : Tool W) : Prop where
  binds : ∀ object, Advertised tool object →
    ∃ bound, invokeBinding fn receiver object = .ok bound ∧
      tool.invoke receiver object = fn.body bound
  properties : ∀ name, (propertyOf tool name).isSome = true ↔
    ∃ p ∈ withoutSelf fn.signature.params, p.takesKeyword = true ∧ p.name = name
  defaults : ∀ p ∈ fn.signature.params, ∀ value ∈ p.default, value ≠ .none →
    ∀ schema ∈ propertyOf tool p.name, admits value schema = true

/-- What the builder does not check. -/
structure Callable (fn : PyFunction W) : Prop where
  optional : ∀ p ∈ withoutSelf fn.signature.params, ∀ hint ∈ annotationOf fn.hints p,
    hint.isUnion = true → p.default.isSome = true
  self_given : ∀ p ∈ fn.signature.params.head?, isSelf p = true → p.isRequired = false
  no_self : ∀ p ∈ withoutSelf fn.signature.params, p.name ≠ "self"
  fitting : ∀ p ∈ withoutSelf fn.signature.params, ∀ hint ∈ annotationOf fn.hints p,
    (∀ type, hint ≠ .scalar type) → ∀ value ∈ p.default, value ≠ .none →
      hint.fits value = true

theorem mem_params {params : List (Parameter PyVal TypeHint)} (member : p ∈ params) :
    p ∈ withoutSelf params ∨ params.head? = some p ∧ isSelf p = true := by
  cases params with
  | nil => cases member
  | cons first params =>
    rw [withoutSelf]
    by_cases skipped : isSelf first = true
    · rw [if_pos skipped]
      rcases List.mem_cons.mp member with rfl | later
      · exact .inr ⟨rfl, skipped⟩
      · exact .inl later
    · rw [if_neg skipped]
      exact .inl member

theorem withoutSelf_sublist (params : List (Parameter PyVal TypeHint)) :
    (withoutSelf params).Sublist params := by
  cases params with
  | nil => exact List.Sublist.refl _
  | cons first params =>
    rw [withoutSelf]
    split
    · exact List.sublist_cons_self _ _
    · exact List.Sublist.refl _

theorem names_nodup (fn : PyFunction W) :
    ((withoutSelf fn.signature.params).map Parameter.name).Nodup :=
  fn.signature.names_nodup.sublist ((withoutSelf_sublist _).map _)

/-- A skipped parameter shares its name with none that is left. -/
theorem skipped_name (first : fn.signature.params.head? = some p) (skipped : isSelf p = true) :
    p.name ∉ (withoutSelf fn.signature.params).map Parameter.name := by
  have nodup := fn.signature.names_nodup
  generalize fn.signature.params = params at first nodup
  cases params with
  | nil => cases first
  | cons q params =>
    cases first
    rw [withoutSelf]
    rw [if_pos skipped]
    exact (List.nodup_cons.mp nodup).1

section Agreement

variable {tool : Tool W} {q : Parameter PyVal TypeHint}

theorem Declared.propertyOf_eq (declared : Declared py fn tool docArgs) (name : String) :
    propertyOf tool name =
      (inferProperties py (withoutSelf fn.signature.params) fn.hints docArgs).get? name := by
  unfold propertyOf
  rw [declared.parameters_eq]
  rfl

/-- A call that binds runs the body. -/
theorem Declared.invoke_eq (declared : Declared py fn tool docArgs)
    {bound : List (String × Argument PyVal)} (goes : invokeBinding fn receiver object = .ok bound) :
    tool.invoke receiver object = fn.body bound := by
  unfold invokeBinding at goes
  unfold Tool.invoke
  cases outer : invokeSignature.bind [receiver] object with
  | error error =>
    rw [outer] at goes
    cases goes
  | ok passed =>
    rw [outer] at goes
    show tool.fn (keywordsOf passed) = fn.body bound
    have inner : fn.signature.bind [] (keywordsOf passed) = .ok bound := goes
    rw [declared.fn_eq]
    unfold PyFunction.call
    rw [inner]

/-- A parameter that is left has a property that means its annotation. -/
theorem Declared.inferred (declared : Declared py fn tool docArgs)
    (member : p ∈ withoutSelf fn.signature.params) : ∃ hint schema,
      Inferred py fn.hints docArgs p hint schema ∧ propertyOf tool p.name = some schema := by
  obtain ⟨hint, schema, inferred⟩ := inferred_of_clean (declared.clean p member)
  rw [declared.propertyOf_eq]
  exact ⟨hint, schema, inferred,
    get?_inferProperties (names_nodup fn) member inferred.schema_eq⟩

theorem Declared.isSome_propertyOf_iff (declared : Declared py fn tool docArgs) (name : String) :
    (propertyOf tool name).isSome = true ↔
      ∃ p ∈ withoutSelf fn.signature.params, p.takesKeyword = true ∧ p.name = name := by
  constructor
  · intro listed
    obtain ⟨schema, found⟩ := Option.isSome_iff_exists.mp listed
    rw [declared.propertyOf_eq] at found
    obtain ⟨p, member, same, -⟩ := mem_of_get?_inferProperties found
    exact ⟨p, member, (takesKeyword_of_paramProblem (declared.keyword p member)).1, same⟩
  · rintro ⟨p, member, -, rfl⟩
    obtain ⟨hint, schema, -, found⟩ := declared.inferred member
    rw [found]
    rfl

theorem mem_inferRequired_iff (member : p ∈ withoutSelf fn.signature.params)
    {hint : TypeHint} {schema : PyVal}
    (inferred : Inferred py fn.hints docArgs p hint schema) :
    p.name ∈ inferRequired py (withoutSelf fn.signature.params) fn.hints docArgs ↔
      p.default = none ∧ hint.isUnion = false := by
  have here : p.name ∈ inferRequired py (withoutSelf fn.signature.params) fn.hints docArgs ↔
      (inferParam py fn.hints docArgs p).required = true := by
    constructor
    · intro listed
      obtain ⟨q, kept, same⟩ := List.mem_map.mp listed
      obtain ⟨other, required⟩ := List.mem_filter.mp kept
      rwa [List.inj_on_of_nodup_map (names_nodup fn) other member same] at required
    · intro required
      exact List.mem_map_of_mem (List.mem_filter.mpr ⟨member, required⟩)
  rw [here, inferred.required_eq, Bool.and_eq_true, Option.isNone_iff_eq_none]
  simp

/-- Any choice of properties that includes the required ones has an object. -/
theorem Declared.exists_object (declared : Declared py fn tool docArgs)
    (keep : Parameter PyVal TypeHint → Bool)
    (needed : ∀ p ∈ withoutSelf fn.signature.params,
      p.name ∈ inferRequired py (withoutSelf fn.signature.params) fn.hints docArgs →
        keep p = true) :
    ∃ object, Advertised tool object ∧
      object.map Prod.fst = ((withoutSelf fn.signature.params).filter keep).map Parameter.name := by
  have admitted : ∀ p ∈ withoutSelf fn.signature.params, ∃ v,
      ∀ schema, propertyOf tool p.name = some schema → admits v schema = true := by
    intro p member
    obtain ⟨hint, schema, inferred, found⟩ := declared.inferred member
    obtain ⟨v, fits⟩ := inferred.describes.inhabited
    refine ⟨v, fun other shown => ?_⟩
    rw [found] at shown
    obtain rfl := Option.some.inj shown
    rw [inferred.describes.admits_iff, fits]
  have : Inhabited PyVal := ⟨.none⟩
  choose! value good using admitted
  refine ⟨((withoutSelf fn.signature.params).filter keep).map fun p => (p.name, value p),
    ⟨?_, ?_⟩, by rw [List.map_map]; rfl⟩
  · intro field member
    obtain ⟨p, kept, rfl⟩ := List.mem_map.mp member
    obtain ⟨hint, schema, -, found⟩ := declared.inferred (List.mem_filter.mp kept).1
    rw [found]
    rfl
  · rw [declared.parameters_eq, admits_objectSchema_iff]
    constructor
    · intro name required
      obtain ⟨p, kept, rfl⟩ := List.mem_map.mp required
      have member := (List.mem_filter.mp kept).1
      rw [List.map_map]
      exact List.mem_map_of_mem (f := Parameter.name)
        (List.mem_filter.mpr ⟨member, needed p member required⟩)
    · intro field member schema found
      obtain ⟨p, kept, rfl⟩ := List.mem_map.mp member
      rw [← declared.propertyOf_eq] at found
      exact good p (List.mem_filter.mp kept).1 schema found

/-- A call that the schema allows binds, when the function is callable. -/
theorem Declared.binds (declared : Declared py fn tool docArgs) (callable : Callable fn)
    (advertised : Advertised tool object) :
    ∃ bound, invokeBinding fn receiver object = .ok bound := by
  obtain ⟨listed, valid⟩ := advertised
  rw [declared.parameters_eq, admits_objectSchema_iff] at valid
  obtain ⟨required, -⟩ := valid
  have named : ∀ field ∈ object, ∃ p ∈ withoutSelf fn.signature.params,
      p.takesKeyword = true ∧ p.name = field.1 :=
    fun field member => (declared.isSome_propertyOf_iff field.1).mp (listed field member)
  rw [invokeBinding_iff, Signature.binds_keywords_iff]
  refine ⟨?_, ?_, ?_⟩
  · intro field member same
    obtain ⟨p, inside, -, name⟩ := named field member
    exact callable.no_self p inside (name.trans same)
  · intro field member
    obtain ⟨p, inside, takes, name⟩ := named field member
    exact .inl ⟨p, (withoutSelf_sublist _).subset inside, takes, name⟩
  · intro p member needs
    rcases mem_params member with inside | ⟨first, skipped⟩
    · obtain ⟨hint, schema, inferred, -⟩ := declared.inferred inside
      have bare : p.default = none := by
        unfold Parameter.isRequired at needs
        simpa using (Bool.and_eq_true_iff.mp needs).2
      have plain : hint.isUnion = false := by
        cases union : hint.isUnion with
        | false => rfl
        | true =>
          have given := callable.optional p inside hint inferred.annotated union
          rw [bare] at given
          cases given
      exact ⟨(takesKeyword_of_paramProblem (declared.keyword p inside)).1,
        required _ ((mem_inferRequired_iff inside inferred).mpr ⟨bare, plain⟩)⟩
    · rw [callable.self_given p first skipped] at needs
      cases needs

/-- The defaults of a callable function satisfy the schema. -/
theorem Declared.defaults (declared : Declared py fn tool docArgs) (callable : Callable fn)
    (member : p ∈ fn.signature.params) {value schema : PyVal} (given : p.default = some value)
    (other : value ≠ .none) (found : propertyOf tool p.name = some schema) :
    admits value schema = true := by
  have inside : p ∈ withoutSelf fn.signature.params := by
    rcases mem_params member with inside | ⟨first, skipped⟩
    · exact inside
    · obtain ⟨q, left, -, same⟩ := (declared.isSome_propertyOf_iff p.name).mp (by rw [found]; rfl)
      exact absurd (same ▸ List.mem_map_of_mem left) (skipped_name first skipped)
  obtain ⟨hint, schema', inferred, found'⟩ := declared.inferred inside
  rw [found] at found'
  obtain rfl := Option.some.inj found'
  rw [inferred.describes.admits_iff]
  by_cases scalar : ∃ type, hint = .scalar type
  · obtain ⟨type, rfl⟩ := scalar
    exact fits_of_checkDefault (inferred.default_checked value given) other
  · exact callable.fitting p inside hint inferred.annotated
      (fun type same => scalar ⟨type, same⟩) value given other

/-- What must be given is a required property. -/
theorem Declared.required (declared : Declared py fn tool docArgs)
    (agrees : Agrees fn receiver tool) (member : p ∈ fn.signature.params)
    (needs : p.isRequired = true) :
    p ∈ withoutSelf fn.signature.params ∧
      p.name ∈ inferRequired py (withoutSelf fn.signature.params) fn.hints docArgs := by
  obtain ⟨object, advertised, names⟩ := declared.exists_object (fun p => decide
    (p.name ∈ inferRequired py (withoutSelf fn.signature.params) fn.hints docArgs))
    fun p _ required => decide_eq_true required
  obtain ⟨bound, goes, -⟩ := agrees.binds object advertised
  have called := (invokeBinding_iff.mp ⟨bound, goes⟩).2
  have given := ((Signature.binds_keywords_iff.mp called).2 p member needs).2
  rw [names] at given
  obtain ⟨q, kept, same⟩ := List.mem_map.mp given
  obtain ⟨inside, listed⟩ := List.mem_filter.mp kept
  obtain rfl := List.inj_on_of_nodup_map fn.signature.names_nodup
    ((withoutSelf_sublist _).subset inside) member same
  exact ⟨inside, of_decide_eq_true listed⟩

/-- A function whose schema agrees with its calling convention is callable. -/
theorem Declared.callable (declared : Declared py fn tool docArgs)
    (agrees : Agrees fn receiver tool) : Callable fn where
  optional := by
    intro p inside hint annotated union
    by_contra bare
    obtain ⟨hint', schema, inferred, -⟩ := declared.inferred inside
    have needs : p.isRequired = true := by
      unfold Parameter.isRequired
      rw [(takesKeyword_of_paramProblem (declared.keyword p inside)).2]
      simpa using bare
    have listed := (declared.required agrees ((withoutSelf_sublist _).subset inside) needs).2
    have plain := ((mem_inferRequired_iff inside inferred).mp listed).2
    obtain rfl := Option.some.inj (annotated.symm.trans inferred.annotated)
    rw [union] at plain
    cases plain
  self_given := by
    intro p first skipped
    by_contra needs
    rw [Bool.not_eq_false] at needs
    have inside := (declared.required agrees (List.mem_of_head? first) needs).1
    exact skipped_name first skipped (List.mem_map_of_mem inside)
  no_self := by
    intro p inside same
    obtain ⟨object, advertised, names⟩ := declared.exists_object (fun _ => true)
      fun _ _ _ => rfl
    obtain ⟨bound, goes, -⟩ := agrees.binds object advertised
    have passed := (invokeBinding_iff.mp ⟨bound, goes⟩).1
    have given : p.name ∈ object.map Prod.fst := by
      rw [names]
      exact List.mem_map_of_mem (List.mem_filter.mpr ⟨inside, rfl⟩)
    obtain ⟨field, member, name⟩ := List.mem_map.mp given
    exact passed field member (name.trans same)
  fitting := by
    intro p inside hint annotated other value given some
    obtain ⟨hint', schema, inferred, found⟩ := declared.inferred inside
    obtain rfl := Option.some.inj (annotated.symm.trans inferred.annotated)
    rw [← inferred.describes.admits_iff]
    exact agrees.defaults p ((withoutSelf_sublist _).subset inside) value given some schema found

end Agreement

/-- **The advertised schema of an accepted tool agrees with how Python calls the function exactly
when the function is callable.** -/
theorem advertised_agrees_iff {name description : Option String} {strict : Bool} {tool : Tool W}
    (built : buildTool py fn name description none strict = .ok tool) :
    Agrees fn receiver tool ↔ Callable fn := by
  obtain ⟨docArgs, declared⟩ := declared_of_built built
  constructor
  · exact declared.callable
  · intro callable
    refine ⟨fun object advertised => ?_, declared.isSome_propertyOf_iff,
      fun p member value given other schema found =>
        declared.defaults callable member given other found⟩
    obtain ⟨bound, goes⟩ := declared.binds callable advertised
    exact ⟨bound, goes, declared.invoke_eq goes⟩

/-! ## Two declarations -/

/-- A declaration without problems is accepted. -/
theorem built_of_clean {name description : Option String} {strict : Bool}
    (clean : (resolveTool py fn name description none).toOption.map (fun r => r.problems strict) =
      some []) : ∃ tool, buildTool py fn name description none strict = .ok tool := by
  unfold buildTool
  cases resolved : resolveTool py fn name description none with
  | error exn =>
    rw [resolved] at clean
    cases clean
  | ok r =>
    rw [resolved] at clean
    have none : r.problems strict = [] := Option.some.inj clean
    exact ⟨⟨fn.call, r.name, r.description, r.schema⟩, if_pos none⟩

/-- An interpreter whose names of types do not matter. -/
def plainIntrospection : Introspection where
  words := .asciiOnly
  repr v := v.typeName
  str v := v.typeName
  typeName _ := "type"

def getWeather : PyFunction Unit where
  name := some "get_weather"
  doc := some "Get the weather.\n\nArgs:\n  city: City name.\n  units: Unit.\n"
  signature := {
    params := [{ name := "city" }, { name := "units", default := some (.str "celsius") }]
    names_nodup := by simp }
  returns := some (.scalar .str)
  hints := Dict.empty.update [("city", .scalar .str),
    ("units", .literal [.str "celsius", .str "fahrenheit"]), ("return", .scalar .str)]
  body _ := pure (.str "sunny")
  refusal _ := ""

theorem getWeather_callable : Callable getWeather := by
  have params : withoutSelf getWeather.signature.params = getWeather.signature.params := rfl
  have city : annotationOf getWeather.hints { name := "city" } = some (.scalar .str) := rfl
  have units : annotationOf getWeather.hints { name := "units", default := some (.str "celsius") } =
      some (.literal [.str "celsius", .str "fahrenheit"]) := rfl
  have both : ∀ p ∈ withoutSelf getWeather.signature.params, p = { name := "city" } ∨
      p = { name := "units", default := some (.str "celsius") } := by
    rw [params]
    simp [getWeather]
  constructor
  · intro p member hint annotated union
    rcases both p member with rfl | rfl
    · rw [city] at annotated
      cases annotated
      cases union
    · rfl
  · intro p first skipped
    cases first
    cases skipped
  · intro p member same
    rcases both p member with rfl | rfl <;> simp at same
  · intro p member hint annotated other value given some
    rcases both p member with rfl | rfl
    · cases given
    · rw [units] at annotated
      cases annotated
      cases given
      rfl

theorem advertised_agrees_iff_weather :
    ∃ tool, buildTool plainIntrospection getWeather none none none true = .ok tool ∧
      Agrees getWeather (.object "Tool" 0) tool := by
  have clean : (resolveTool plainIntrospection getWeather none none none).toOption.map
      (fun r => r.problems true) = some [] := by decide +kernel
  obtain ⟨tool, built⟩ := built_of_clean clean
  exact ⟨tool, built, (advertised_agrees_iff built).mpr getWeather_callable⟩

/-- A greeting whose optional parameter has no default. -/
def greet : PyFunction Unit where
  name := some "greet"
  doc := some "Greet somebody.\n\nArgs:\n  nickname: Name to use.\n"
  signature := {
    params := [{ name := "nickname" }]
    names_nodup := by simp }
  returns := some (.scalar .str)
  hints := Dict.empty.update [("nickname", .union [.scalar .str, .noneType]),
    ("return", .scalar .str)]
  body _ := pure (.str "hello")
  refusal _ := ""

/-- It is accepted, the empty object is allowed, and the call fails. -/
theorem greet_accepted_uncallable :
    ∃ tool, buildTool plainIntrospection greet none none none true = .ok tool ∧
      Advertised tool [] ∧ (∀ bound, invokeBinding greet (.object "Tool" 0) [] ≠ .ok bound) ∧
      ¬ Agrees greet (.object "Tool" 0) tool := by
  have clean : (resolveTool plainIntrospection greet none none none).toOption.map
      (fun r => r.problems true) = some [] := by decide +kernel
  obtain ⟨tool, built⟩ := built_of_clean clean
  obtain ⟨docArgs, declared⟩ := declared_of_built built
  have nickname : annotationOf greet.hints { name := "nickname" } =
      some (.union [.scalar .str, .noneType]) := rfl
  have allowed : Advertised tool [] := by
    refine ⟨by simp, ?_⟩
    rw [declared.parameters_eq, admits_objectSchema_iff]
    constructor
    · intro name required
      obtain ⟨p, kept, rfl⟩ := List.mem_map.mp required
      have member := (List.mem_filter.mp kept).1
      obtain ⟨hint, schema, inferred, -⟩ := declared.inferred member
      have plain := ((mem_inferRequired_iff member inferred).mp required).2
      obtain rfl : p = { name := "nickname" } := List.mem_singleton.mp member
      obtain rfl := Option.some.inj (nickname.symm.trans inferred.annotated)
      cases plain
    · simp
  have fails : ∀ bound, invokeBinding greet (.object "Tool" 0) [] ≠ .ok bound := by
    intro bound goes
    cases goes
  refine ⟨tool, built, allowed, fails, fun agrees => ?_⟩
  obtain ⟨bound, goes, -⟩ := agrees.binds [] allowed
  exact fails bound goes

end Oumigo
