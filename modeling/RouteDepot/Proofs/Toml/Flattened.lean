import RouteDepot.Proofs.Joining
import RouteDepot.Proofs.Lookup
import RouteDepot.Proofs.Toml.Reading

/-! # Flattening loses no leaf

The properties of a table are the texts of its leaves under their flattened names. Where no key is empty or has a point
in it, these names are the paths joined by points, and no two leaves share one. Otherwise some may, as a key with points
in it looks like a path; then the last leaf of that name counts, and still no name is lost.
-/

namespace RouteDepot.Toml

/-! ### Names of paths -/

/-- Inside a table with a name, the keys follow behind points. -/
theorem qualifyAll_eq_intercalate {name : String} (named : name ≠ "") (path : List String) :
    qualifyAll name path = ".".intercalate (name :: path) := by
  induction path generalizing name with
  | nil => exact String.intercalate_singleton.symm
  | cons key path ih =>
    have qualified : qualify name key = name ++ "." ++ key := if_neg (by simpa using named)
    have longer : name ++ "." ++ key ≠ "" := by simp
    rw [qualifyAll, List.foldl_cons, qualified]
    change qualifyAll (name ++ "." ++ key) path = _
    rw [ih longer, String.intercalate_cons_append, String.intercalate_cons_cons]

/-- Without empty keys the name of a path is the keys joined by points. -/
theorem qualifyAll_empty {path : List String} (filled : ∀ key ∈ path, key ≠ "") :
    qualifyAll "" path = ".".intercalate path := by
  cases path with
  | nil => rfl
  | cons key path => exact qualifyAll_eq_intercalate (filled key List.mem_cons_self) path

/-! ### Flattened tables -/

section Flattened

variable {fields : List (String × Value)}

theorem flatten_eq (fields : List (String × Value)) :
    flatten fields = .ofList ((Value.table fields).walk.map (definition "")) := by
  rw [flatten, ← leaves_eq_map_walk]
  rfl

instance : Std.Asymm fun found later : List String × Value => found.1 < later.1 where
  asymm _ _ := List.lt_asymm

/-- A name has the text of the last leaf of that name. -/
theorem get?_flatten_eq_some_iff (ordered : (Value.table fields).Ordered) {name text : String} :
    (flatten fields).get? name = some text ↔
      ∃ path leaf, (Value.table fields).Leads path leaf ∧ qualifyAll "" path = name ∧ leaf.leafText = text ∧
        ∀ path' leaf', (Value.table fields).Leads path' leaf' → path < path' → qualifyAll "" path' ≠ name := by
  rw [flatten_eq, Dictionary.get?_ofList_map_eq_some_iff ordered.pairwise_walk]
  simp only [Prod.exists, Prod.forall, Value.mem_walk_iff, definition, Prod.mk.injEq, and_assoc]

/-- The name of every leaf has a text. -/
theorem get?_flatten_isSome {path : List String} {leaf : Value} (leads : (Value.table fields).Leads path leaf) :
    ((flatten fields).get? (qualifyAll "" path)).isSome := by
  rw [flatten_eq]
  exact Dictionary.get?_ofList_isSome (List.mem_map_of_mem (f := definition "") (Value.mem_walk_of_leads leads))

/-- Every key that leads to a leaf can be told from the others in a name. -/
def PlainKeys (value : Value) : Prop := ∀ path leaf, value.Leads path leaf → ∀ key ∈ path, IsPlainWord key

theorem PlainKeys.qualifyAll_eq {value leaf : Value} {path : List String} (plain : PlainKeys value)
    (leads : value.Leads path leaf) : qualifyAll "" path = ".".intercalate path :=
  qualifyAll_empty fun key member => (plain path leaf leads key member).1

/-- Leaves of one name are one leaf, when the keys are plain. -/
theorem PlainKeys.path_eq {value leaf leaf' : Value} {path path' : List String} (plain : PlainKeys value)
    (leads : value.Leads path leaf) (leads' : value.Leads path' leaf')
    (same : ".".intercalate path = ".".intercalate path') : path = path' :=
  intercalate_injective (plain path leaf leads) (plain path' leaf' leads') same

/-- The properties of a table with plain keys are the texts of its leaves, each under its path joined by points. -/
theorem PlainKeys.get?_flatten_eq_some_iff (plain : PlainKeys (.table fields)) (ordered : (Value.table fields).Ordered)
    {name text : String} : (flatten fields).get? name = some text ↔
      ∃ path leaf, (Value.table fields).Leads path leaf ∧ ".".intercalate path = name ∧ leaf.leafText = text := by
  rw [Toml.get?_flatten_eq_some_iff ordered]
  constructor
  · rintro ⟨path, leaf, leads, named, written, _⟩
    exact ⟨path, leaf, leads, (plain.qualifyAll_eq leads).symm.trans named, written⟩
  · rintro ⟨path, leaf, leads, rfl, rfl⟩
    refine ⟨path, leaf, leads, plain.qualifyAll_eq leads, rfl, fun path' leaf' leads' later same => ?_⟩
    rw [plain.qualifyAll_eq leads'] at same
    rw [plain.path_eq leads' leads same] at later
    exact List.lt_irrefl _ later

/-- Properties keep the leaves of a table. -/
structure KeepsLeaves (fields : List (String × Value)) (properties : Properties) : Prop where
  /-- A name has the text of the last leaf whose path comes to this name, in the order of paths. -/
  get?_eq_some_iff : ∀ name text, properties.get? name = some text ↔
    ∃ path leaf, (Value.table fields).Leads path leaf ∧ qualifyAll "" path = name ∧ leaf.leafText = text ∧
      ∀ path' leaf', (Value.table fields).Leads path' leaf' → path < path' → qualifyAll "" path' ≠ name
  /-- The name of every leaf has a text. -/
  get?_isSome : ∀ path leaf, (Value.table fields).Leads path leaf → (properties.get? (qualifyAll "" path)).isSome
  /-- If the keys on the way to leaves are not empty and have no points in them, then each leaf has its own name, its
  path joined by points, and nothing else has one. -/
  plain : (∀ path leaf, (Value.table fields).Leads path leaf → ∀ key ∈ path, key ≠ "" ∧ '.' ∉ key.toList) →
    (∀ name text, properties.get? name = some text ↔
      ∃ path leaf, (Value.table fields).Leads path leaf ∧ ".".intercalate path = name ∧ leaf.leafText = text) ∧
    ∀ path leaf path' leaf', (Value.table fields).Leads path leaf → (Value.table fields).Leads path' leaf' →
      ".".intercalate path = ".".intercalate path' → path = path' ∧ leaf = leaf'

theorem keepsLeaves_flatten (ordered : (Value.table fields).Ordered) : KeepsLeaves fields (flatten fields) where
  get?_eq_some_iff _ _ := get?_flatten_eq_some_iff ordered
  get?_isSome _ _ := get?_flatten_isSome
  plain plain := by
    refine ⟨fun _ _ => PlainKeys.get?_flatten_eq_some_iff plain ordered, fun path leaf path' leaf' leads leads' same => ?_⟩
    obtain rfl := PlainKeys.path_eq plain leads leads' same
    exact ⟨rfl, ordered.leads_unique leads leads'⟩

/-- Flattening loses no leaf: the properties of a table keep its leaves, in every table whose keys are in order. The
table that a configuration text describes is one of these, so the properties that are read from the text keep its
leaves. -/
theorem flatten_loses_no_leaf :
    (∀ fields, (Value.table fields).Ordered → KeepsLeaves fields (flatten fields)) ∧
    ∀ text properties, properties? text = some properties →
      ∃ fields, fieldsOf? text = some fields ∧ (Value.table fields).Ordered ∧ KeepsLeaves fields properties := by
  refine ⟨fun _ => keepsLeaves_flatten, fun text properties read => ?_⟩
  obtain ⟨fields, described, rfl⟩ := Option.map_eq_some_iff.mp read
  have ordered := ordered_of_fieldsOf? described
  exact ⟨fields, described, ordered, keepsLeaves_flatten ordered⟩

end Flattened

/-- A table with plain keys. -/
def plainFields : List (String × Value) := [("a", .table [("b", .int 1)]), ("c", .arr [.bool true, .str "x"])]

/-- A text with a key that looks like the path of another leaf. -/
def collidingText : String := "\"a.b\" = 'last'\n[a]\nb = 1\n"

/-- The leaves of a table as texts, with their paths. -/
def visits (fields : List (String × Value)) : List (List String × String) :=
  (Value.table fields).walk.map fun visit => (visit.1, visit.2.leafText)

theorem flatten_loses_no_leaf_colliding :
    (Value.table plainFields).Ordered ∧ (flatten plainFields).get? "a.b" = some "1" ∧
      (flatten plainFields).get? "c" = some "true,x" ∧
      ∃ fields properties, fieldsOf? collidingText = some fields ∧
        visits fields = [(["a", "b"], "1"), (["a.b"], "last")] ∧
        properties? collidingText = some properties ∧ properties.get? "a.b" = some "last" := by
  have inner : (Value.table [("b", .int 1)]).Ordered := .table (by decide) (by simpa using .leaf rfl)
  have ordered : (Value.table plainFields).Ordered :=
    .table (by decide) (List.forall_mem_cons.mpr ⟨inner, by simpa using .leaf rfl⟩)
  have nested : (Value.table plainFields).Leads ["a", "b"] (.int 1) :=
    .field List.mem_cons_self (.field (List.mem_singleton_self _) (.leaf rfl))
  have array : (Value.table plainFields).Leads ["c"] (.arr [.bool true, .str "x"]) :=
    .field (List.mem_cons_of_mem _ List.mem_cons_self) (.leaf rfl)
  obtain ⟨named, _⟩ := (flatten_loses_no_leaf.1 plainFields ordered).plain fun path leaf leads => by
    have visited : (path, leaf) ∈ [(["a", "b"], Value.int 1), (["c"], .arr [.bool true, .str "x"])] :=
      Value.mem_walk_of_leads leads
    have keys : ∀ path ∈ [["a", "b"], ["c"]], ∀ key ∈ path, key ≠ "" ∧ '.' ∉ key.toList := by decide
    exact keys path (List.mem_map_of_mem (f := Prod.fst) visited)
  have found : (fieldsOf? collidingText).map visits = some [(["a", "b"], "1"), (["a.b"], "last")] := by decide +kernel
  obtain ⟨fields, described, visited⟩ := Option.map_eq_some_iff.mp found
  have read : properties? collidingText = some (flatten fields) := congrArg (Option.map flatten) described
  obtain ⟨_, again, _, kept⟩ := flatten_loses_no_leaf.2 collidingText _ read
  obtain rfl := Option.some.inj (described.symm.trans again)
  have visited_iff (path : List String) (text : String) : (path, text) ∈ [(["a", "b"], "1"), (["a.b"], "last")] ↔
      ∃ leaf, (Value.table fields).Leads path leaf ∧ leaf.leafText = text := by
    rw [← visited]
    simp [visits, Value.mem_walk_iff]
  obtain ⟨leaf, leads, written⟩ := (visited_iff ["a.b"] "last").mp (by decide)
  refine ⟨ordered, (named _ _).mpr ⟨_, _, nested, rfl, rfl⟩, (named _ _).mpr ⟨_, _, array, rfl, rfl⟩, fields, _, described,
    visited, read, (kept.get?_eq_some_iff _ _).mpr ⟨_, leaf, leads, rfl, written, fun path leaf leads behind => ?_⟩⟩
  -- No path comes behind that of the last leaf.
  have none : ∀ path ∈ [["a", "b"], ["a.b"]], ¬ ["a.b"] < path := by decide
  have listed := (visited_iff path leaf.leafText).mpr ⟨leaf, leads, rfl⟩
  exact absurd behind (none path (List.mem_map_of_mem (f := Prod.fst) listed))

end RouteDepot.Toml
