import Mathlib.Logic.Function.Basic
import Mathlib.Data.Option.Basic

/-! Hash maps with the C++ subscript operator, which inserts a
default-constructed value at a missing key. The order of entries is not
observable, so a map is its lookup function. -/

abbrev UnorderedMap (Key Value : Type*) := Key → Option Value

namespace UnorderedMap

variable {Key Value Index : Type*}

def empty : UnorderedMap Key Value := fun _ => none

section Subscript
variable [DecidableEq Key]

/-- `map[key] = value`. -/
def assign (map : UnorderedMap Key Value) (key : Key) (value : Value) : UnorderedMap Key Value :=
  Function.update map key (some value)

/-- `map[key]` in an expression: the value and the map after a possible
insertion of the default value. -/
def subscript [Inhabited Value] (map : UnorderedMap Key Value) (key : Key) :
    Value × UnorderedMap Key Value :=
  match map key with
  | some value => (value, map)
  | none => (default, map.assign key default)

/-- Reading an existing entry through the subscript inserts nothing. -/
theorem subscript_of_find [Inhabited Value] {map : UnorderedMap Key Value} {key : Key}
    {value : Value} (h : map key = some value) : map.subscript key = (value, map) := by
  simp [subscript, h]

theorem subscript_fst [Inhabited Value] (map : UnorderedMap Key Value) (key : Key) :
    (map.subscript key).1 = (map key).getD default := by
  unfold subscript
  cases map key <;> rfl

theorem subscript_assign_fst [Inhabited Value] (map : UnorderedMap Key Value) (key key' : Key)
    (value : Value) : ((map.assign key value).subscript key').1 =
      if key' = key then value else (map.subscript key').1 := by
  rw [subscript_fst, subscript_fst, assign]
  by_cases hKey : key' = key
  · rw [if_pos hKey, hKey, Function.update_self]
    rfl
  · rw [if_neg hKey, Function.update_of_ne hKey]

/-- The default value that a subscript inserts is the one that it would read. -/
theorem subscript_subscript_fst [Inhabited Value] (map : UnorderedMap Key Value)
    (key key' : Key) : ((map.subscript key).2.subscript key').1 = (map.subscript key').1 := by
  cases h : map key with
  | some value => rw [subscript_of_find h]
  | none =>
      have hInsert : (map.subscript key).2 = map.assign key default := by simp only [subscript, h]
      rw [hInsert, subscript_assign_fst]
      split
      next hKey => rw [hKey, subscript_fst, h, Option.getD_none]
      next => rfl

end Subscript

/-- A fixed set of keys, named by `Index`. The decoder is a partial inverse,
so distinct names cannot share a key. -/
structure Layout (Index Key : Type*) where
  key : Index → Key
  index? : Key → Option Index
  index?_eq_some_iff : ∀ k i, index? k = some i ↔ key i = k

variable (layout : Layout Index Key)

@[simp] theorem Layout.index?_key (i : Index) : layout.index? (layout.key i) = some i :=
  (layout.index?_eq_some_iff _ _).mpr rfl

theorem Layout.key_injective : Function.Injective layout.key := by
  intro i j h
  have hi := layout.index?_key i
  rw [h, layout.index?_key] at hi
  exact (Option.some.inj hi).symm

/-- The map with exactly one entry for each name of the layout. -/
def table (values : Index → Value) : UnorderedMap Key Value := fun k => (layout.index? k).map values

@[simp] theorem table_key (values : Index → Value) (i : Index) :
    table layout values (layout.key i) = some (values i) := by
  simp [table]

/-- A table has an entry exactly at the keys of its layout. -/
theorem table_eq_some_iff (values : Index → Value) (k : Key) (value : Value) :
    table layout values k = some value ↔ ∃ i, layout.key i = k ∧ values i = value := by
  simp [table, Option.map_eq_some_iff, layout.index?_eq_some_iff]

/-- Assigning at a key of the layout changes one entry and keeps the key set. -/
theorem assign_table [DecidableEq Key] [DecidableEq Index] (values : Index → Value) (i : Index)
    (value : Value) :
    (table layout values).assign (layout.key i) value =
      table layout (Function.update values i value) := by
  funext k
  cases hk : layout.index? k with
  | none =>
      have hne : k ≠ layout.key i := by
        rintro rfl
        simp at hk
      simp [assign, table, hk, Function.update_of_ne hne]
  | some j =>
      have hj : layout.key j = k := (layout.index?_eq_some_iff k j).mp hk
      subst hj
      by_cases hij : j = i
      · subst hij
        simp [assign, table]
      · have hne : layout.key j ≠ layout.key i := fun h => hij (layout.key_injective h)
        simp [assign, table, Function.update_of_ne hne, Function.update_of_ne hij]

/-- Assigning names one after the other overwrites exactly their entries. -/
theorem foldl_assign [DecidableEq Key] [DecidableEq Index] (values : Index → Value)
    (names : List Index) (map : UnorderedMap Key Value) (i : Index) :
    names.foldl (fun map i => map.assign (layout.key i) (values i)) map (layout.key i) =
      if i ∈ names then some (values i) else map (layout.key i) := by
  induction names generalizing map with
  | nil => simp
  | cons name names ih =>
      rw [List.foldl_cons, ih]
      by_cases hi : i = name
      · subst hi
        simp [assign]
      · have hne : layout.key i ≠ layout.key name := fun h => hi (layout.key_injective h)
        simp [assign, Function.update_of_ne hne, hi]

theorem foldl_assign_of_none [DecidableEq Key] (values : Index → Value) (names : List Index)
    (map : UnorderedMap Key Value) {k : Key} (hk : layout.index? k = none) :
    names.foldl (fun map i => map.assign (layout.key i) (values i)) map k = map k := by
  induction names generalizing map with
  | nil => rfl
  | cons name names ih =>
      have hne : k ≠ layout.key name := by
        rintro rfl
        simp at hk
      rw [List.foldl_cons, ih]
      exact Function.update_of_ne hne _ _

/-- Filling the empty map name by name builds the table. -/
theorem foldl_assign_empty [DecidableEq Key] [DecidableEq Index] (values : Index → Value)
    (names : List Index) (hAll : ∀ i, i ∈ names) :
    names.foldl (fun map i => map.assign (layout.key i) (values i)) empty =
      table layout values := by
  funext k
  cases hk : layout.index? k with
  | none =>
      rw [foldl_assign_of_none layout values names empty hk]
      simp [table, hk, empty]
  | some i =>
      obtain rfl := (layout.index?_eq_some_iff k i).mp hk
      rw [foldl_assign layout values names empty i, if_pos (hAll i), table_key]

end UnorderedMap
