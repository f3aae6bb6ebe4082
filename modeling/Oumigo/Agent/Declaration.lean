import Oumigo.Agent.Docstring
import Oumigo.Agent.State
import Oumigo.Foundation.Calling

/-!
# Declaring a tool

The builder of `api/agent/tool.py`: `_signature_params`, `_infer_parameters` with the schemas of
annotations, the checks of defaults, of the return annotation and of a hand-written schema, and
`_build_tool`, which collects every problem before it gives up.
-/

namespace Oumigo

open Python

variable {W : Type}

/-! ## Annotations -/

/-- The keys of `_SCALAR_JSON`. -/
inductive Scalar where
  | str
  | bool
  | int
  | float
  deriving DecidableEq

/-- `_SCALAR_JSON[type]`. -/
def Scalar.json : Scalar → String
  | str => "string"
  | bool => "boolean"
  | int => "integer"
  | float => "number"

/-- `_SCALAR_JSON.get(type(v))`, before the lookup of its name. -/
def scalarOf : PyVal → Option Scalar
  | .str _ => some .str
  | .bool _ => some .bool
  | .int _ => some .int
  | .float _ => some .float
  | _ => none

/-- `isinstance(v, type)`; a truth value is an `int` too. -/
def Scalar.isInstance : Scalar → PyVal → Bool
  | str, .str _ => true
  | bool, .bool _ => true
  | int, .int _ => true
  | int, .bool _ => true
  | float, .float _ => true
  | _, _ => false

/-- An annotation, by what `get_origin` and `get_args` say of it.  `typing` flattens unions and
literals. -/
inductive TypeHint where
  | scalar (type : Scalar)
  | noneType
  | union (args : List TypeHint)
  | literal (values : List PyVal)
  /-- `list[...]` or `typing.List` -/
  | list (args : List TypeHint)
  /-- `dict[...]` or `typing.Dict` -/
  | dict (args : List TypeHint)
  /-- the class `list` -/
  | bareList
  /-- the class `dict` -/
  | bareDict
  | other (name : String)

/-- What the builder asks the interpreter. -/
structure Introspection where
  words : WordClass
  /-- `repr(v)` -/
  repr : PyVal → String
  /-- `str(v)` -/
  str : PyVal → String
  /-- `_type_name(annotation)` -/
  typeName : TypeHint → String

/-- A function with what `inspect` and `typing` say about it. -/
structure PyFunction (W : Type) where
  /-- `fn.__name__`, if it has one -/
  name : Option String
  /-- `fn.__doc__` -/
  doc : Option String
  signature : Signature PyVal TypeHint
  returns : Option TypeHint
  /-- `inspect.signature(fn)` does not raise -/
  introspectable : Bool := true
  /-- `typing.get_type_hints(fn)`, empty where that raises -/
  hints : Dict String TypeHint
  body : List (String × Argument PyVal) → EStateM Exn W PyVal
  /-- the text of the `TypeError` of a call that does not fit -/
  refusal : CallError → String

/-- `fn(**kwargs)`. -/
def PyFunction.call (fn : PyFunction W) (kwargs : List (String × PyVal)) :
    EStateM Exn W PyVal :=
  match fn.signature.bind [] kwargs with
  | .ok bound => fn.body bound
  | .error error => throw (typeError (fn.refusal error))

variable (py : Introspection)

/-! ## Schemas of annotations -/

/-- `_literal_schema`. -/
def literalSchema (paramName : String) (values : List PyVal) : Option PyVal × List String :=
  -- the members' types must form a set of one type, and not `{None}`
  match values.map scalarOf with
  | some type :: types =>
      if types.all fun other => other = some type then
        (some (.dict [("type", .str type.json), ("enum", .list values)]), [])
      else (none, ["parameter '" ++ paramName ++
        "': Literal members must share one scalar type (all str, or all int, ...)"])
  | _ => (none, ["parameter '" ++ paramName ++
      "': Literal members must share one scalar type (all str, or all int, ...)"])

mutual

/-- `_schema_for_annotation`: the schema, whether the annotation is optional, and the problems. -/
def schemaForAnnotation (paramName : String) : TypeHint → Option PyVal × Bool × List String
  | .union args =>
      match memberSchemas paramName args with
      | [(schema, problems)] => (schema, true, problems)
      | _ => (none, false, ["parameter '" ++ paramName ++
          "': unions of multiple types aren't inferable; pass an explicit parameters="])
  | .literal values =>
      let (schema, problems) := literalSchema paramName values
      (schema, false, problems)
  | .list [] => (none, false, ["parameter '" ++ paramName ++
      "': use list[T] with an item type, not bare list"])
  | .list (item :: _) =>
      match schemaForAnnotation paramName item with
      | (none, _, problems) => (none, false, problems)
      | (some schema, _, problems) =>
          (some (.dict [("type", .str "array"), ("items", schema)]), false, problems)
  | .scalar type => (some (.dict [("type", .str type.json)]), false, [])
  | .bareList => (none, false, ["parameter '" ++ paramName ++ "': " ++ py.typeName .bareList ++
      " can't be inferred; pass an explicit parameters="])
  | .bareDict => (none, false, ["parameter '" ++ paramName ++ "': " ++ py.typeName .bareDict ++
      " can't be inferred; pass an explicit parameters="])
  | .dict args => (none, false, ["parameter '" ++ paramName ++ "': " ++ py.typeName (.dict args) ++
      " can't be inferred; pass an explicit parameters="])
  | .noneType => (none, false, ["parameter '" ++ paramName ++ "': unsupported type " ++
      py.typeName .noneType ++
      " (supported: str, int, float, bool, list[T], Literal[...], Optional[...])"])
  | .other name => (none, false, ["parameter '" ++ paramName ++ "': unsupported type " ++
      py.typeName (.other name) ++
      " (supported: str, int, float, bool, list[T], Literal[...], Optional[...])"])

/-- The members of a union other than `None`.  Only if there is one do its schema and its problems
count. -/
def memberSchemas (paramName : String) : List TypeHint → List (Option PyVal × List String)
  | [] => []
  | .noneType :: args => memberSchemas paramName args
  | arg :: args =>
      let (schema, _, problems) := schemaForAnnotation paramName arg
      (schema, problems) :: memberSchemas paramName args

end

/-- `_check_default`. -/
def checkDefault (paramName : String) (hint : TypeHint) (default : PyVal) :
    List String :=
  match default, hint with
  | .none, _ => []
  | default, .scalar type =>
      if type = .int && Scalar.isInstance .bool default then
        ["parameter '" ++ paramName ++ "': default " ++ py.repr default ++ " is bool, not int"]
      else if type.isInstance default then []
      else ["parameter '" ++ paramName ++ "': default " ++ py.repr default ++
        " doesn't match declared type " ++ py.typeName hint]
  | _, _ => []

/-! ## Parameters -/

/-- `_SELF_NAMES`. -/
def selfNames : List String := ["self", "cls"]

/-- A leading parameter that is skipped. -/
def isSelf (p : Parameter PyVal TypeHint) : Bool :=
  selfNames.contains p.name && p.annotation.isNone

/-- The parameters without a leading `self` or `cls`. -/
def withoutSelf : List (Parameter PyVal TypeHint) → List (Parameter PyVal TypeHint)
  | [] => []
  | p :: params => if isSelf p then params else p :: params

/-- What `_signature_params` says of one parameter. -/
def paramProblem (p : Parameter PyVal TypeHint) : Option String :=
  match p.kind with
  | .varPositional => some ("'*" ++ p.name ++ "' is not representable as a tool parameter")
  | .varKeyword => some ("'**" ++ p.name ++ "' is not representable as a tool parameter")
  | .positionalOnly => some ("parameter '" ++ p.name ++
      "' is positional-only; tools are called by keyword")
  | _ => none

/-- `_signature_params`: the parameters, and the problems. -/
def signatureParams (fn : PyFunction W) : List (Parameter PyVal TypeHint) × List String :=
  if fn.introspectable then
    let params := withoutSelf fn.signature.params
    (params.filter fun p => (paramProblem p).isNone, params.filterMap paramProblem)
  else ([], ["could not introspect the function signature"])

/-- What one parameter adds in `_infer_parameters`. -/
structure Inference where
  schema : Option PyVal
  required : Bool
  problems : List String
  docProblems : List String

/-- `{**schema, "description": doc}`. -/
def describe (schema : PyVal) (doc : List Char) : PyVal :=
  match schema with
  | .dict entries =>
      .dict (Dict.setEntries entries "description" (.str (String.ofList doc)))
  | other => other

/-- A round of the loop of `_infer_parameters`, from the schema of the annotation on. -/
def inferAnnotated (docArgs : Dict (List Char) (List Char)) (p : Parameter PyVal TypeHint)
    (hint : TypeHint) : Option PyVal × Bool × List String → Inference
  | (none, _, problems) => ⟨none, false, problems, []⟩
  | (some schema, optional, problems) =>
      let doc := (docArgs.get? p.name.toList).getD []
      let defaultProblems := (p.default.map (checkDefault py p.name hint)).getD []
      ⟨some (if doc = [] then schema else describe schema doc), p.default.isNone && !optional,
        problems ++ defaultProblems,
        if doc = [] then
          ["parameter '" ++ p.name ++ "': undocumented (add it to the docstring Args)"]
        else []⟩

/-- One round of the loop of `_infer_parameters`. -/
def inferParam (hints : Dict String TypeHint) (docArgs : Dict (List Char) (List Char))
    (p : Parameter PyVal TypeHint) : Inference :=
  match (hints.get? p.name).or p.annotation with
  | none => ⟨none, false, ["parameter '" ++ p.name ++ "': missing a type annotation"], []⟩
  | some hint =>
      inferAnnotated py docArgs p hint ( schemaForAnnotation py p.name hint)

/-- `properties` after the loop. -/
def inferProperties (params : List (Parameter PyVal TypeHint))
    (hints : Dict String TypeHint) (docArgs : Dict (List Char) (List Char)) :
    Dict String PyVal :=
  Dict.empty.update (params.filterMap fun p =>
    (inferParam py hints docArgs p).schema.map fun schema => (p.name, schema))

/-- `required` after the loop. -/
def inferRequired (params : List (Parameter PyVal TypeHint))
    (hints : Dict String TypeHint) (docArgs : Dict (List Char) (List Char)) : List String :=
  (params.filter fun p => (inferParam py hints docArgs p).required).map Parameter.name

/-- The object schema. -/
def objectSchema (properties : Dict String PyVal) (required : List String) : PyVal :=
  .dict ([("type", .str "object"), ("properties", .dict properties.entries)] ++
    if required = [] then [] else [("required", .list (required.map .str))])

/-- `_infer_parameters`: the schema, the problems and the documentation problems. -/
def inferParameters (params : List (Parameter PyVal TypeHint))
    (hints : Dict String TypeHint) (docArgs : Dict (List Char) (List Char)) :
    PyVal × List String × List String :=
  let drift := (docArgs.keys.filter fun documented =>
      !params.any fun p => p.name.toList = documented).map fun documented =>
    "docstring documents '" ++ String.ofList documented ++ "', which is not a parameter"
  (objectSchema (inferProperties py params hints docArgs) (inferRequired py params hints docArgs),
    params.flatMap fun p => (inferParam py hints docArgs p).problems,
    (params.flatMap fun p => (inferParam py hints docArgs p).docProblems) ++ drift)

/-! ## The other checks -/

/-- `base in _JSON_RETURN`, where `base` is the origin of the annotation if it has one. -/
def jsonReturn : TypeHint → Bool
  | .scalar _ => true
  | .noneType => true
  | .list _ => true
  | .dict _ => true
  | .bareList => true
  | .bareDict => true
  | _ => false

/-- `_validate_return_annotation`. -/
def validateReturnAnnotation (fn : PyFunction W) : List String :=
  if fn.introspectable then
    match fn.returns with
    | none => ["missing a return type annotation (e.g. '-> str')"]
    | some raw =>
        let ret := (fn.hints.get? "return").getD raw
        if jsonReturn ret then []
        else ["return type " ++ py.typeName ret ++
          " isn't JSON-serializable for a tool result (use str/int/float/bool/list/dict)"]
  else []

/-- `_JSON_TYPES`. -/
def jsonTypes : List String :=
  ["string", "integer", "number", "boolean", "array", "object", "null"]

/-- What `_validate_override` says of one property.  A type that cannot be hashed makes the lookup
in the set raise. -/
def overrideProperty (entry : String × PyVal) : Except Exn (List String) :=
  match entry.2 with
  | .dict schema =>
      let type := (PyVal.lookup schema "type").getD .none
      let untyped := match type with
        | .str type => !jsonTypes.contains type
        | _ => true
      let description := match (PyVal.lookup schema "description").getD (.str "") with
        | .str text => text
        | other => py.str other
      if type.hashable then
        .ok ((if untyped then ["parameters= property '" ++ entry.1 ++
            "' needs a valid JSON 'type'"] else []) ++
          if strip description = "" then ["parameters= property '" ++ entry.1 ++
            "' needs a non-empty 'description'"] else [])
      else .error (typeError ("unhashable type: '" ++ type.typeName ++ "'"))
  | _ => .ok ["parameters= property '" ++ entry.1 ++ "' must be a schema object"]

/-- `isinstance(v, list) and all(isinstance(r, str) for r in v)`, with the strings. -/
def stringList : PyVal → Option (List String)
  | .list items => items.mapM PyVal.str?
  | _ => none

/-- The part of a message that differs with the number of names. -/
def propertyWord (names : List String) : String := if 1 < names.length then "ies" else "y"

/-- `_validate_override`. -/
def validateOverride (parameters : PyVal) (params : List (Parameter PyVal TypeHint)) :
    Except Exn (List String) :=
  match parameters with
  | .dict entries => do
      let object := match PyVal.lookup entries "type" with
        | some (.str "object") => []
        | _ => ["parameters= override must have type: 'object'"]
      match PyVal.lookup entries "properties" with
      | some (.dict props) =>
          let checked ← props.mapM (overrideProperty py)
          let required := match stringList ((PyVal.lookup entries "required").getD (.list [])) with
            | none => ["parameters= 'required' must be a list of strings"]
            | some names => (names.filter fun name => (PyVal.lookup props name).isNone).map
                fun name => "parameters= 'required' names '" ++ name ++
                  "', absent from properties"
          let missing := (params.map Parameter.name).filter fun name =>
            (PyVal.lookup props name).isNone
          let extra := (props.map Prod.fst).filter fun name =>
            !(params.map Parameter.name).contains name
          pure (object ++ checked.flatten ++ required ++
            (if missing = [] then [] else ["parameters= is missing propert" ++
              propertyWord missing ++ " for " ++ joinSorted missing]) ++
            if extra = [] then [] else ["parameters= describes unknown propert" ++
              propertyWord extra ++ " " ++ joinSorted extra])
      | _ => pure (object ++ ["parameters= override must have a 'properties' dict"])
  | _ => .ok ["parameters= override must be a dict (JSON Schema object)"]

/-! ## The builder -/

/-- `_NAME_RE.match(name)`; `$` also matches before a newline at the end. -/
def nameRe (name : String) : Bool :=
  let chars := name.toList
  let core := if chars.getLast? = some '\n' then chars.dropLast else chars
  1 ≤ core.length && core.length ≤ 64 &&
    core.all fun c => c.isAlphanum || c = '_' || c = '-'

/-- What the builder raises: a `ToolDefinitionError` with its problems, or what a check raised. -/
inductive BuildError where
  | toolDefinition (problems : List String)
  | raised (exn : Exn)

/-- The problems with a name. -/
def nameProblems (name : String) : List String :=
  if name = "<lambda>" then
    ["cannot infer a tool name from a lambda; use a named 'def' or pass name="]
  else if nameRe name then []
  else ["tool name " ++ Python.reprStr name ++ " must match [A-Za-z0-9_-] and be 1-64 chars"]

/-- What `_build_tool` has found out before it decides. -/
structure Resolved where
  name : String
  description : String
  schema : PyVal
  /-- always fatal -/
  structural : List String
  /-- fatal under `strict` only -/
  docProblems : List String

/-- The checks of `_build_tool`. -/
def resolveTool (fn : PyFunction W) (name description : Option String)
    (parameters : Option PyVal) : Except Exn Resolved := do
  let resolvedName := match name with
    | some name => if name = "" then fn.name.getD "" else name
    | none => fn.name.getD ""
  let (params, signatureProblems) := signatureParams fn
  let (desc, docArgs) := parseDocstring py.words (fn.doc.map String.toList)
  let resolvedDesc := strip (description.getD (String.ofList desc))
  let undescribed := if resolvedDesc = "" then
    ["missing a description (add a docstring, or pass description=)"] else []
  let (schema, schemaProblems, paramDocProblems) ← match parameters with
    | some schema => do
        let problems ← validateOverride py schema params
        pure (schema, problems, [])
    | none => pure (inferParameters py params fn.hints docArgs)
  pure ⟨resolvedName, resolvedDesc, schema, nameProblems resolvedName ++ signatureProblems ++
    schemaProblems ++ validateReturnAnnotation py fn, undescribed ++ paramDocProblems⟩

def Resolved.problems (r : Resolved) (strict : Bool) : List String :=
  if strict then r.structural ++ r.docProblems else r.structural

/-- The text of the warning of a tool that is not strict. -/
def Resolved.warning (r : Resolved) (strict : Bool) : Option String :=
  if strict || r.docProblems = [] then none
  else some (r.name ++ ": " ++ String.intercalate "; " r.docProblems)

/-- `_build_tool`. -/
def buildTool (fn : PyFunction W) (name description : Option String) (parameters : Option PyVal)
    (strict : Bool) : Except BuildError (Tool W) :=
  match resolveTool py fn name description parameters with
  | .error exn => .error (.raised exn)
  | .ok r =>
      if r.problems strict = [] then .ok ⟨fn.call, r.name, r.description, r.schema⟩
      else .error (.toolDefinition (r.problems strict))

end Oumigo
