import Oumigo.Foundation.Json

/-!
# How deep a JSON value is nested

`json.loads` and `json.dumps` recurse once for each list or object around a value, and raise
`RecursionError` at the depth the interpreter stops at.  `Json.depth` is that number; the
lemmas bound it by the depth of the parts.
-/

namespace Python

namespace Json

mutual

/-- How many lists and objects are around the innermost value, this one included. -/
def depth : Json → Nat
  | .arr items => depthItems items + 1
  | .obj fields => depthFields fields + 1
  | _ => 0

def depthItems : List Json → Nat
  | [] => 0
  | item :: rest => max (depth item) (depthItems rest)

def depthFields : List (String × Json) → Nat
  | [] => 0
  | (_, value) :: rest => max (depth value) (depthFields rest)

end

/-- `hash(v)` is defined. -/
def hashable : Json → Bool
  | .arr _ => false
  | .obj _ => false
  | _ => true

variable {items items' : List Json} {fields : Fields} {key : String} {value : Json} {n : Nat}

@[simp]
theorem depth_arr : (arr items).depth = depthItems items + 1 := rfl

@[simp]
theorem depth_obj : (obj fields).depth = depthFields fields + 1 := rfl

@[simp]
theorem depth_str (s : String) : (str s).depth = 0 := rfl

@[simp]
theorem depth_int (i : Int) : (int i).depth = 0 := rfl

theorem depthItems_le_iff : depthItems items ≤ n ↔ ∀ item ∈ items, item.depth ≤ n := by
  induction items with
  | nil => exact iff_of_true (Nat.zero_le n) (List.forall_mem_nil _)
  | cons item rest ih =>
    change max item.depth (depthItems rest) ≤ n ↔ _
    rw [List.forall_mem_cons, ← ih, max_le_iff]

theorem depthFields_le_iff : depthFields fields ≤ n ↔ ∀ field ∈ fields, field.2.depth ≤ n := by
  induction fields with
  | nil => exact iff_of_true (Nat.zero_le n) (List.forall_mem_nil _)
  | cons field rest ih =>
    rcases field with ⟨key, value⟩
    change max value.depth (depthFields rest) ≤ n ↔ _
    rw [List.forall_mem_cons, ← ih, max_le_iff]

theorem depth_le_depthItems {item : Json} (member : item ∈ items) :
    item.depth ≤ depthItems items :=
  depthItems_le_iff.mp (le_refl _) item member

theorem depthItems_sublist (sub : items'.Sublist items) : depthItems items' ≤ depthItems items :=
  depthItems_le_iff.mpr fun _ member => depth_le_depthItems (sub.subset member)

theorem depth_le_of_get? (found : Fields.get? fields key = some value) :
    value.depth ≤ depthFields fields := by
  unfold Fields.get? at found
  obtain ⟨field, at_, rfl⟩ := Option.map_eq_some_iff.mp found
  exact depthFields_le_iff.mp (le_refl _) field (List.mem_of_find?_eq_some at_)

/-- A write nests no deeper than the value written or what there was. -/
theorem depthFields_set (small : value.depth ≤ depthFields fields) :
    depthFields (Fields.set fields key value) ≤ depthFields fields := by
  apply depthFields_le_iff.mpr
  intro field member
  rcases Dict.mem_setEntries member with rfl | old
  · exact small
  · exact depthFields_le_iff.mp (le_refl _) field old

end Json

end Python
