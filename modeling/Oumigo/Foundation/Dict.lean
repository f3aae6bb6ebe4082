import Mathlib.Data.List.Basic
import Mathlib.Data.List.Induction
import Mathlib.Data.List.Nodup
import Mathlib.Tactic.Common

/-!
# Insertion-ordered dictionaries

`Dict κ α` is a list of entries with distinct keys.  As in Python, setting a key
that is present replaces its value in place, setting a new key appends it, and
iteration follows that order.  `mem_entries` identifies the entries with the
lookups, so a fact about every iterated entry is a fact about every key.
-/

/-- A dictionary: entries in insertion order, with distinct keys. -/
structure Dict (κ α : Type*) where
  entries : List (κ × α)
  nodup : (entries.map Prod.fst).Nodup

namespace Dict

variable {κ α : Type*}

/-- `{}`. -/
def empty : Dict κ α := ⟨[], List.nodup_nil⟩

/-- `d.keys()`. -/
def keys (d : Dict κ α) : List κ := d.entries.map Prod.fst

/-- `d.values()`. -/
def values (d : Dict κ α) : List α := d.entries.map Prod.snd

theorem ext {d d' : Dict κ α} (same : d.entries = d'.entries) : d = d' := by
  cases d
  cases d'
  cases same
  rfl

variable [DecidableEq κ] {d : Dict κ α} {k k' : κ} {a b : α}

instance [DecidableEq α] : DecidableEq (Dict κ α) := fun d d' =>
  decidable_of_iff (d.entries = d'.entries) ⟨ext, fun same => same ▸ rfl⟩

/-- `d.get(k)`. -/
def get? (d : Dict κ α) (k : κ) : Option α :=
  (d.entries.find? fun entry => entry.1 = k).map Prod.snd

/-- `d[k] = a` on the entries: in place when `k` is there, at the end otherwise. -/
def setEntries (entries : List (κ × α)) (k : κ) (a : α) : List (κ × α) :=
  match entries with
  | [] => [(k, a)]
  | entry :: rest =>
      if entry.1 = k then (k, a) :: rest else entry :: setEntries rest k a

theorem mem_setEntries {entries : List (κ × α)} {x : κ × α} :
    x ∈ setEntries entries k a → x = (k, a) ∨ x ∈ entries := by
  induction entries with
  | nil =>
    intro member
    exact Or.inl (by simpa [setEntries] using member)
  | cons entry rest ih =>
    intro member
    unfold setEntries at member
    split at member
    · rcases List.mem_cons.mp member with rfl | old
      · exact Or.inl rfl
      · exact Or.inr (List.mem_cons_of_mem _ old)
    · rcases List.mem_cons.mp member with rfl | old
      · exact Or.inr List.mem_cons_self
      · exact (ih old).imp id (List.mem_cons_of_mem _)

theorem nodup_setEntries {entries : List (κ × α)} (nodup : (entries.map Prod.fst).Nodup) :
    ((setEntries entries k a).map Prod.fst).Nodup := by
  induction entries with
  | nil => simp [setEntries]
  | cons entry rest ih =>
    obtain ⟨fresh, tail⟩ := List.nodup_cons.mp nodup
    unfold setEntries
    split
    · next same =>
      rw [List.map_cons, List.nodup_cons]
      exact ⟨same ▸ fresh, tail⟩
    · next other =>
      rw [List.map_cons, List.nodup_cons]
      refine ⟨fun member => ?_, ih tail⟩
      obtain ⟨x, inside, key⟩ := List.mem_map.mp member
      rcases mem_setEntries inside with rfl | old
      · exact other key.symm
      · exact fresh (List.mem_map.mpr ⟨x, old, key⟩)

/-- `d[k] = a`. -/
def set (d : Dict κ α) (k : κ) (a : α) : Dict κ α :=
  ⟨setEntries d.entries k a, nodup_setEntries d.nodup⟩

/-- `d.pop(k, None)` without its result. -/
def erase (d : Dict κ α) (k : κ) : Dict κ α :=
  ⟨d.entries.filter fun entry => entry.1 ≠ k,
    d.nodup.sublist ((List.filter_sublist (l := d.entries)).map Prod.fst)⟩

/-- The entries are exactly the successful lookups. -/
theorem mem_entries : (k, a) ∈ d.entries ↔ d.get? k = some a := by
  rcases d with ⟨entries, nodup⟩
  change (k, a) ∈ entries ↔ (entries.find? fun entry => entry.1 = k).map Prod.snd = some a
  induction entries with
  | nil => simp
  | cons entry rest ih =>
    obtain ⟨fresh, tail⟩ := List.nodup_cons.mp nodup
    by_cases same : entry.1 = k
    · have absent : (k, a) ∉ rest := fun member =>
        fresh (List.mem_map.mpr ⟨_, member, same.symm⟩)
      rw [List.find?_cons_of_pos (by simpa using same), Option.map_some, List.mem_cons]
      constructor
      · rintro (rfl | member)
        · rfl
        · exact (absent member).elim
      · intro value
        exact Or.inl (Prod.ext same.symm (Option.some.inj value).symm)
    · rw [List.find?_cons_of_neg (by simpa using same), List.mem_cons, ← ih tail]
      constructor
      · rintro (rfl | member)
        · exact (same rfl).elim
        · exact member
      · exact Or.inr

/-- A key has one entry, or none. -/
theorem filter_key :
    (d.entries.filter fun entry => entry.1 = k) = (d.get? k).toList.map (Prod.mk k) := by
  rcases d with ⟨entries, nodup⟩
  change (entries.filter fun entry => entry.1 = k) =
    ((entries.find? fun entry => entry.1 = k).map Prod.snd).toList.map (Prod.mk k)
  induction entries with
  | nil => rfl
  | cons entry rest ih =>
    obtain ⟨fresh, tail⟩ := List.nodup_cons.mp nodup
    by_cases same : entry.1 = k
    · have absent : (rest.filter fun entry => entry.1 = k) = [] := by
        refine List.filter_eq_nil_iff.mpr fun other member => ?_
        have distinct : other.1 ≠ k := fun eq =>
          fresh (List.mem_map.mpr ⟨other, member, eq.trans same.symm⟩)
        simpa using distinct
      rw [List.filter_cons_of_pos (by simpa using same), absent,
        List.find?_cons_of_pos (by simpa using same)]
      exact congrArg (fun entry => [entry]) (Prod.ext same rfl)
    · rw [List.filter_cons_of_neg (by simpa using same),
        List.find?_cons_of_neg (by simpa using same)]
      exact ih tail

theorem mem_values : a ∈ d.values ↔ ∃ k, d.get? k = some a := by
  constructor
  · intro member
    obtain ⟨⟨k, a'⟩, inside, rfl⟩ := List.mem_map.mp member
    exact ⟨k, mem_entries.mp inside⟩
  · rintro ⟨k, found⟩
    exact List.mem_map.mpr ⟨(k, a), mem_entries.mpr found, rfl⟩

theorem mem_keys : k ∈ d.keys ↔ (d.get? k).isSome = true := by
  rw [Option.isSome_iff_exists]
  constructor
  · intro member
    obtain ⟨⟨k, a⟩, inside, rfl⟩ := List.mem_map.mp member
    exact ⟨a, mem_entries.mp inside⟩
  · rintro ⟨a, found⟩
    exact List.mem_map.mpr ⟨(k, a), mem_entries.mpr found, rfl⟩

theorem find?_setEntries {entries : List (κ × α)} :
    ((setEntries entries k a).find? fun entry => entry.1 = k').map Prod.snd =
      if k' = k then some a else (entries.find? fun entry => entry.1 = k').map Prod.snd := by
  induction entries with
  | nil =>
    by_cases same : k' = k
    · simp [setEntries, same]
    · simp [setEntries, same, Ne.symm same]
  | cons entry rest ih =>
    unfold setEntries
    by_cases here : entry.1 = k
    · rw [if_pos here]
      by_cases same : k' = k
      · simp [same]
      · have skip : ¬ entry.1 = k' := fun eq => same (eq.symm.trans here)
        simp [same, Ne.symm same, skip]
    · rw [if_neg here]
      by_cases found : entry.1 = k'
      · have other : ¬ k' = k := fun eq => here (found.trans eq)
        simp [found, other]
      · rw [List.find?_cons_of_neg (by simpa using found), ih,
          List.find?_cons_of_neg (by simpa using found)]

/-- Reading after a write. -/
theorem get?_set : (d.set k a).get? k' = if k' = k then some a else d.get? k' :=
  find?_setEntries

theorem setEntries_setEntries {entries : List (κ × α)} :
    setEntries (setEntries entries k a) k b = setEntries entries k b := by
  induction entries with
  | nil => simp [setEntries]
  | cons entry rest ih =>
    by_cases same : entry.1 = k
    · simp [setEntries, same]
    · simp [setEntries, same, ih]

/-- The second of two writes to a key is the one that counts. -/
theorem set_set : (d.set k a).set k b = d.set k b := ext setEntries_setEntries

/-- Reading after a removal. -/
theorem get?_erase : (d.erase k).get? k' = if k' = k then none else d.get? k' := by
  unfold get? erase
  rw [List.find?_filter]
  by_cases same : k' = k
  · subst same
    rw [if_pos rfl, List.find?_eq_none.mpr, Option.map_none]
    intro entry _
    by_cases eq : entry.1 = k' <;> simp [eq]
  · rw [if_neg same]
    congr 2
    funext entry
    by_cases eq : entry.1 = k'
    · simp [eq, same]
    · simp [eq]

/-! ## Updating from a list of pairs -/

section Update

variable {pairs more : List (κ × α)}

/-- `d.update(pairs)`. -/
def update (d : Dict κ α) (pairs : List (κ × α)) : Dict κ α :=
  pairs.foldl (fun d pair => d.set pair.1 pair.2) d

theorem update_append : d.update (pairs ++ more) = (d.update pairs).update more :=
  List.foldl_append

/-- What is read after an update was there before, or is one of the pairs. -/
theorem get?_update_cases (found : (d.update pairs).get? k = some a) :
    d.get? k = some a ∨ (k, a) ∈ pairs := by
  induction pairs generalizing d with
  | nil => exact Or.inl found
  | cons pair rest ih =>
    rcases ih found with old | later
    · rw [get?_set] at old
      split at old
      · next same =>
        cases old
        exact Or.inr (same ▸ List.mem_cons_self)
      · exact Or.inl old
    · exact Or.inr (List.mem_cons_of_mem _ later)

theorem get?_update_of_not_mem (absent : k ∉ pairs.map Prod.fst) :
    (d.update pairs).get? k = d.get? k := by
  induction pairs generalizing d with
  | nil => rfl
  | cons pair rest ih =>
    rw [List.map_cons, List.mem_cons, not_or] at absent
    exact (ih absent.2).trans (get?_set.trans (if_neg absent.1))

/-- Pairs with different keys can all be read back. -/
theorem get?_update_mem (nodup : (pairs.map Prod.fst).Nodup) (member : (k, a) ∈ pairs) :
    (d.update pairs).get? k = some a := by
  induction pairs generalizing d with
  | nil => cases member
  | cons pair rest ih =>
    obtain ⟨fresh, tail⟩ := List.nodup_cons.mp nodup
    rcases List.mem_cons.mp member with rfl | later
    · exact (get?_update_of_not_mem fresh).trans (get?_set.trans (if_pos rfl))
    · exact ih tail later

theorem setEntries_of_not_mem {entries : List (κ × α)} (absent : k ∉ entries.map Prod.fst) :
    setEntries entries k a = entries ++ [(k, a)] := by
  induction entries with
  | nil => rfl
  | cons entry rest ih =>
    rw [List.map_cons, List.mem_cons, not_or] at absent
    unfold setEntries
    rw [if_neg (Ne.symm absent.1), ih absent.2]
    rfl

/-- Pairs with different new keys are appended. -/
theorem entries_update (nodup : ((d.entries ++ pairs).map Prod.fst).Nodup) :
    (d.update pairs).entries = d.entries ++ pairs := by
  induction pairs generalizing d with
  | nil => exact (List.append_nil _).symm
  | cons pair rest ih =>
    have fresh : pair.1 ∉ d.entries.map Prod.fst := by
      rw [List.map_append, List.map_cons] at nodup
      exact fun member => (List.nodup_append.mp nodup).2.2 _ member _ List.mem_cons_self rfl
    have first : (d.set pair.1 pair.2).entries = d.entries ++ [pair] := setEntries_of_not_mem fresh
    show ((d.set pair.1 pair.2).update rest).entries = d.entries ++ pair :: rest
    rw [ih (by rwa [first, List.append_assoc]), first, List.append_assoc]
    rfl

/-- The last of the pairs with a key. -/
def lastOf (k : κ) (pairs : List (κ × α)) : Option α :=
  (pairs.reverse.find? fun pair => pair.1 = k).map Prod.snd

theorem lastOf_append : lastOf k (pairs ++ more) = (lastOf k more).or (lastOf k pairs) := by
  unfold lastOf
  rw [List.reverse_append, List.find?_append, Option.map_or]

theorem lastOf_of_not_mem (absent : k ∉ pairs.map Prod.fst) : lastOf k pairs = none := by
  unfold lastOf
  rw [Option.map_eq_none_iff, List.find?_eq_none]
  intro pair member same
  rw [decide_eq_true_eq] at same
  exact absent (same ▸ List.mem_map_of_mem (List.mem_reverse.mp member))

theorem mem_of_lastOf (found : lastOf k pairs = some a) : (k, a) ∈ pairs := by
  obtain ⟨⟨k', a'⟩, last, rfl⟩ := Option.map_eq_some_iff.mp found
  have same : k' = k := by simpa using List.find?_some last
  rw [← same]
  exact List.mem_reverse.mp (List.mem_of_find?_eq_some last)

/-- After an update a key has the value of its last pair. -/
theorem get?_update : (d.update pairs).get? k = (lastOf k pairs).or (d.get? k) := by
  induction pairs using List.reverseRecOn with
  | nil => rfl
  | append_singleton pairs pair ih =>
    have last : (d.update (pairs ++ [pair])).get? k =
        ((d.update pairs).set pair.1 pair.2).get? k := by
      rw [update_append]
      rfl
    rw [last, get?_set, ih, lastOf_append]
    by_cases same : k = pair.1
    · rw [if_pos same]
      simp [lastOf, same]
    · rw [if_neg same]
      simp [lastOf, Ne.symm same]

end Update

/-! ## Updating every entry -/

variable {β : Type*}

omit [DecidableEq κ] in
theorem nodup_filterMap {f : κ → α → Option β} {entries : List (κ × α)}
    (nodup : (entries.map Prod.fst).Nodup) :
    ((entries.filterMap fun entry => (f entry.1 entry.2).map (Prod.mk entry.1)).map
      Prod.fst).Nodup := by
  refine nodup.sublist ?_
  induction entries with
  | nil => exact List.Sublist.refl _
  | cons entry rest ih =>
    have tail := ih (List.nodup_cons.mp nodup).2
    cases value : f entry.1 entry.2 with
    | none => simpa [value] using tail.cons entry.1
    | some b => simpa [value] using tail.cons_cons entry.1

/-- Rewrite each value, dropping the entries `f` gives nothing for. -/
def filterMap (d : Dict κ α) (f : κ → α → Option β) : Dict κ β :=
  ⟨d.entries.filterMap fun entry => (f entry.1 entry.2).map (Prod.mk entry.1),
    nodup_filterMap d.nodup⟩

theorem get?_filterMap {f : κ → α → Option β} :
    (d.filterMap f).get? k = (d.get? k).bind (f k) := by
  ext b
  rw [← mem_entries, Option.bind_eq_some_iff]
  constructor
  · intro member
    obtain ⟨⟨k', a⟩, inside, value⟩ := List.mem_filterMap.mp member
    obtain ⟨b', value, pair⟩ := Option.map_eq_some_iff.mp value
    cases pair
    exact ⟨a, mem_entries.mp inside, value⟩
  · rintro ⟨a, found, value⟩
    exact List.mem_filterMap.mpr ⟨(k, a), mem_entries.mpr found, by rw [value, Option.map_some]⟩

end Dict
