import RouteDepot.Toml.Flat
import Mathlib.Data.List.Nodup

/-! # The leaves of a table

A leaf is a value that is no table. It stands behind the keys of the tables that it is in, from the outermost one on.
A walk through a value visits its leaves depth first, table by table in the order of the keys, which is the
lexicographic order of their paths. Flattening lists the texts of the leaves in this order.
-/

namespace RouteDepot.Toml

namespace Value

/-- Whether a value is no table. -/
def isLeaf : Value → Bool
  | .table _ => false
  | _ => true

/-- The text of a leaf: those of its items with commas between them, if it is an array, and else its own. -/
def leafText : Value → String
  | .arr items => ",".intercalate (items.map plainText)
  | value => value.plainText

/-- What holds of every leaf, and of a table when it holds of the values in it, holds of every value. -/
@[elab_as_elim] theorem inductionOnTables {motive : Value → Prop} (leaf : ∀ value, value.isLeaf → motive value)
    (table : ∀ fields, (∀ field ∈ fields, motive field.2) → motive (.table fields)) (value : Value) : motive value := by
  match value with
  | .table fields =>
    refine table fields fun field member => inductionOnTables leaf table field.2
  | .str _ | .int _ | .real _ | .bool _ | .moment _ | .arr _ => exact leaf _ rfl
termination_by value
decreasing_by
  have smaller := List.sizeOf_lt_of_mem member
  obtain ⟨key, inner⟩ := field
  simp only [Prod.mk.sizeOf_spec, Value.table.sizeOf_spec] at smaller ⊢
  omega

/-- A leaf stands behind a path of keys in a value. -/
inductive Leads : Value → List String → Value → Prop
  | leaf {value : Value} : value.isLeaf → Leads value [] value
  | field {fields : List (String × Value)} {key : String} {value leaf : Value} {path : List String} :
      (key, value) ∈ fields → Leads value path leaf → Leads (.table fields) (key :: path) leaf

/-- The tables that are not inside arrays have their keys in ascending order, each once. -/
inductive Ordered : Value → Prop
  | leaf {value : Value} : value.isLeaf → Ordered value
  | table {fields : List (String × Value)} : (fields.map (·.1)).Pairwise (· < ·) →
      (∀ field ∈ fields, Ordered field.2) → Ordered (.table fields)

mutual

/-- The leaves of a value with their paths, depth first. -/
def walk : Value → List (List String × Value)
  | .table fields => fieldWalk fields
  | leaf => [([], leaf)]

/-- The leaves of the fields of a table with their paths, depth first. -/
def fieldWalk : List (String × Value) → List (List String × Value)
  | [] => []
  | (key, value) :: fields => value.walk.map (fun found => (key :: found.1, found.2)) ++ fieldWalk fields

end

theorem walk_of_isLeaf {value : Value} (leaf : value.isLeaf) : value.walk = [([], value)] := by
  cases value with
  | table => cases leaf
  | _ => rfl

theorem fieldWalk_eq_flatMap (fields : List (String × Value)) :
    fieldWalk fields = fields.flatMap fun field => field.2.walk.map fun found => (field.1 :: found.1, found.2) := by
  induction fields with
  | nil => rfl
  | cons field fields ih => rw [fieldWalk, ih, List.flatMap_cons]

/-! ### What a walk visits -/

theorem mem_walk_of_leads {value leaf : Value} {path : List String} (leads : value.Leads path leaf) :
    (path, leaf) ∈ value.walk := by
  induction leads with
  | leaf isLeaf => simp [walk_of_isLeaf isLeaf]
  | @field fields key value leaf path member _ ih =>
    rw [walk, fieldWalk_eq_flatMap]
    exact List.mem_flatMap.mpr ⟨(key, value), member, List.mem_map.mpr ⟨(path, leaf), ih, rfl⟩⟩

theorem leads_of_mem_walk {value leaf : Value} {path : List String} (visited : (path, leaf) ∈ value.walk) :
    value.Leads path leaf := by
  induction value using inductionOnTables generalizing path with
  | leaf value isLeaf =>
    rw [walk_of_isLeaf isLeaf] at visited
    cases List.mem_singleton.mp visited
    exact .leaf isLeaf
  | table fields ih =>
    rw [walk, fieldWalk_eq_flatMap] at visited
    obtain ⟨⟨key, inner⟩, member, visited⟩ := List.mem_flatMap.mp visited
    obtain ⟨found, below, same⟩ := List.mem_map.mp visited
    cases same
    exact .field member (ih _ member below)

/-- A walk visits the leaves of a value. -/
theorem mem_walk_iff {value leaf : Value} {path : List String} : (path, leaf) ∈ value.walk ↔ value.Leads path leaf :=
  ⟨leads_of_mem_walk, mem_walk_of_leads⟩

/-- Where keys are in ascending order, paths are visited in ascending order. -/
theorem Ordered.pairwise_walk {value : Value} (ordered : value.Ordered) :
    value.walk.Pairwise fun found later => found.1 < later.1 := by
  induction ordered with
  | leaf isLeaf => simp [walk_of_isLeaf isLeaf]
  | @table fields ascending _ ih =>
    rw [walk, fieldWalk_eq_flatMap, List.pairwise_flatMap]
    constructor
    · intro field member
      refine List.pairwise_map.mpr ((ih field member).imp fun before => ?_)
      exact List.cons_lt_cons_iff.mpr (.inr ⟨rfl, before⟩)
    · refine (List.pairwise_map.mp ascending).imp fun before found first later second => ?_
      obtain ⟨_, _, rfl⟩ := List.mem_map.mp first
      obtain ⟨_, _, rfl⟩ := List.mem_map.mp second
      exact List.cons_lt_cons_iff.mpr (.inl before)

/-- Only one leaf stands behind a path. -/
theorem Ordered.leads_unique {value leaf leaf' : Value} {path : List String} (ordered : value.Ordered)
    (leads : value.Leads path leaf) (leads' : value.Leads path leaf') : leaf = leaf' := by
  have distinct : (value.walk.map (·.1)).Nodup := by
    refine List.pairwise_map.mpr (ordered.pairwise_walk.imp fun before same => ?_)
    exact List.lt_irrefl _ (same ▸ before)
  have same := List.inj_on_of_nodup_map distinct (mem_walk_of_leads leads) (mem_walk_of_leads leads') rfl
  exact congrArg Prod.snd same

end Value

/-! ### Flattening -/

/-- The name of a leaf behind a path, inside a table with a name of its own: the keys with points between them, except
that a key stands alone while there is no name yet. -/
def qualifyAll (name : String) (path : List String) : String := path.foldl qualify name

/-- The name and the text that a leaf defines inside a table with a name. -/
def definition (name : String) (found : List String × Value) : String × String :=
  (qualifyAll name found.1, found.2.leafText)

theorem leaves_of_isLeaf {value : Value} (isLeaf : value.isLeaf) (name : String) :
    leaves name value = [(name, value.leafText)] := by
  cases value with
  | table => cases isLeaf
  | _ => rfl

theorem fieldLeaves_eq_flatMap (name : String) (fields : List (String × Value)) :
    fieldLeaves name fields = fields.flatMap fun field => leaves (qualify name field.1) field.2 := by
  induction fields with
  | nil => rfl
  | cons field fields ih => rw [fieldLeaves, ih, List.flatMap_cons]

/-- Flattening visits the leaves of a value in the order of a walk. -/
theorem leaves_eq_map_walk (name : String) (value : Value) : leaves name value = value.walk.map (definition name) := by
  induction value using Value.inductionOnTables generalizing name with
  | leaf value isLeaf =>
    rw [leaves_of_isLeaf isLeaf, Value.walk_of_isLeaf isLeaf]
    rfl
  | table fields ih =>
    rw [leaves, fieldLeaves_eq_flatMap, Value.walk, Value.fieldWalk_eq_flatMap, List.map_flatMap]
    refine congrArg List.flatten (List.map_congr_left fun field member => ?_)
    rw [ih field member, List.map_map]
    rfl

end RouteDepot.Toml
