import Oumigo.Foundation.Python

/-!
# JSON Schema

The meaning of the keywords `type`, `enum`, `items`, `properties` and `required`, for a schema
and a value that are both Python values.  Other keywords say nothing about values.  An `enum`
lists scalars.
-/

namespace Python.JsonSchema

/-- Whether a value has a type of JSON Schema. -/
def hasType : String → PyVal → Bool
  | "string", .str _ => true
  | "boolean", .bool _ => true
  | "integer", .int _ => true
  | "integer", .float x => x.den = 1
  | "number", .int _ => true
  | "number", .float _ => true
  | "array", .list _ => true
  | "object", .dict _ => true
  | "null", .none => true
  | _, _ => false

/-- Equality of JSON scalars; numbers are equal by their value. -/
def sameScalar : PyVal → PyVal → Bool
  | .none, .none => true
  | .bool b, .bool b' => b = b'
  | .int i, .int i' => i = i'
  | .int i, .float x => (i : Rat) = x
  | .float x, .int i => x = (i : Rat)
  | .float x, .float x' => x = x'
  | .str s, .str s' => s = s'
  | _, _ => false

/-- A keyword of a schema. -/
def keyword (schema : PyVal) (name : String) : Option PyVal :=
  match schema with
  | .dict entries => PyVal.lookup entries name
  | _ => none

/-- The keyword `type`. -/
def typeHolds (schema v : PyVal) : Bool :=
  match keyword schema "type" with
  | some (.str type) => hasType type v
  | _ => true

/-- The keyword `enum`. -/
def enumHolds (schema v : PyVal) : Bool :=
  match keyword schema "enum" with
  | some (.list values) => values.any (sameScalar v)
  | _ => true

/-- The keyword `required`. -/
def requiredHolds (schema : PyVal) (fields : List (String × PyVal)) : Bool :=
  match keyword schema "required" with
  | some (.list names) => names.all fun name =>
      match name with
      | .str name => (PyVal.lookup fields name).isSome
      | _ => true
  | _ => true

mutual

/-- Whether a schema admits a value. -/
def admits : PyVal → PyVal → Bool
  | .list items, schema =>
      typeHolds schema (.list items) && enumHolds schema (.list items) &&
        admitsItems items (keyword schema "items")
  | .dict fields, schema =>
      typeHolds schema (.dict fields) && enumHolds schema (.dict fields) &&
        requiredHolds schema fields && admitsFields fields (keyword schema "properties")
  | .none, schema => typeHolds schema .none && enumHolds schema .none
  | .bool b, schema => typeHolds schema (.bool b) && enumHolds schema (.bool b)
  | .int i, schema => typeHolds schema (.int i) && enumHolds schema (.int i)
  | .float x, schema => typeHolds schema (.float x) && enumHolds schema (.float x)
  | .str s, schema => typeHolds schema (.str s) && enumHolds schema (.str s)
  | .object name id, schema =>
      typeHolds schema (.object name id) && enumHolds schema (.object name id)

/-- The keyword `items`. -/
def admitsItems : List PyVal → Option PyVal → Bool
  | _, none => true
  | [], some _ => true
  | v :: items, some schema => admits v schema && admitsItems items (some schema)

/-- The keyword `properties`. -/
def admitsFields : List (String × PyVal) → Option PyVal → Bool
  | _, none => true
  | [], some _ => true
  | (name, v) :: fields, some properties =>
      (match keyword properties name with
        | some schema => admits v schema
        | none => true) && admitsFields fields (some properties)

end

variable {v schema schema' properties : PyVal} {items : List PyVal}
  {fields : List (String × PyVal)}

theorem admitsItems_none : admitsItems items none = true := by
  cases items <;> rfl

theorem admitsItems_some :
    admitsItems items (some schema) = items.all fun v => admits v schema := by
  induction items with
  | nil => rfl
  | cons v items ih => rw [admitsItems, ih, List.all_cons]

theorem admitsFields_none : admitsFields fields none = true := by
  cases fields <;> rfl

theorem admitsFields_some_iff : admitsFields fields (some properties) = true ↔
    ∀ field ∈ fields, ∀ schema, keyword properties field.1 = some schema →
      admits field.2 schema = true := by
  induction fields with
  | nil => simp [admitsFields]
  | cons field fields ih =>
    obtain ⟨name, v⟩ := field
    rw [admitsFields, Bool.and_eq_true, ih, List.forall_mem_cons]
    cases found : keyword properties name with
    | none => simp
    | some schema => simp

/-- Only five keywords count. -/
theorem admits_congr (same : ∀ name ∈ ["type", "enum", "items", "properties", "required"],
    keyword schema name = keyword schema' name) : admits v schema = admits v schema' := by
  have types : ∀ v, typeHolds schema v = typeHolds schema' v := fun v => by
    unfold typeHolds
    rw [same "type" (by simp)]
  have enums : ∀ v, enumHolds schema v = enumHolds schema' v := fun v => by
    unfold enumHolds
    rw [same "enum" (by simp)]
  have needs : ∀ fields, requiredHolds schema fields = requiredHolds schema' fields :=
    fun fields => by
      unfold requiredHolds
      rw [same "required" (by simp)]
  cases v <;> simp only [admits, types, enums, needs, same "items" (by simp),
    same "properties" (by simp)]

/-- A schema that says nothing about what is inside a value. -/
theorem admits_flat (items : keyword schema "items" = none)
    (properties : keyword schema "properties" = none)
    (required : keyword schema "required" = none) :
    admits v schema = (typeHolds schema v && enumHolds schema v) := by
  have needs : ∀ fields, requiredHolds schema fields = true := fun fields => by
    unfold requiredHolds
    rw [required]
  cases v <;> simp [admits, items, properties, needs, admitsItems_none, admitsFields_none]

end Python.JsonSchema
