import Mathlib.Data.List.Perm.Basic
import RouteDepot.Proofs.Printing.Limits
import RouteDepot.Proofs.Reordering.Scopes

/-! # Classes with their members in another order

A class is lowered to a program, without faults, exactly when the class with its members in another order is lowered to
this program, as long as the fields follow each other as before. Lowering lists all methods of the class before it looks
at any body, and it looks at all fields before.
-/

namespace RouteDepot.RouteClass

/-- Whether a member is a field. -/
def Member.isField : Member → Bool
  | .field _ => true
  | .constructor _ | .method _ => false

namespace ClassDeclaration

/-- A class with the members of another one in any order, apart from its fields, which are in the same order. -/
structure Reordered (c c' : ClassDeclaration) : Prop where
  modifiers : c'.modifiers = c.modifiers
  name : c'.name = c.name
  parent : c'.parent = c.parent
  interfaces : c'.interfaces = c.interfaces
  members : c'.members.Perm c.members
  fields : c'.fields = c.fields

/-- The members of a class backwards, apart from its fields, which come last and in their order. -/
def backwards (c : ClassDeclaration) : ClassDeclaration :=
  { c with members := (c.members.filter (!·.isField)).reverse ++ c.members.filter (·.isField) }

theorem reordered_backwards (c : ClassDeclaration) : c.Reordered c.backwards where
  modifiers := rfl
  name := rfl
  parent := rfl
  interfaces := rfl
  members := by
    refine ((List.reverse_perm _).append_right _).trans (List.perm_append_comm.trans ?_)
    exact List.filter_append_perm (·.isField) c.members
  fields := by
    simp only [fields, backwards, List.filterMap_append, List.filterMap_reverse, List.filterMap_filter]
    rw [List.filterMap_eq_nil_iff.mpr fun m _ => by cases m <;> rfl, List.reverse_nil, List.nil_append]
    exact List.filterMap_congr fun m _ => by cases m <;> rfl

@[simp] theorem fields_erase (c : ClassDeclaration) : c.erase.fields = c.fields.map FieldDeclaration.erase := by
  rw [fields, fields, erase, List.filterMap_map, List.map_filterMap]
  refine List.filterMap_congr fun m _ => ?_
  cases m <;> rfl

namespace Reordered

variable {c c' : ClassDeclaration} (reordered : c.Reordered c')
include reordered

/-- A reordering stays one when the spans are taken away. -/
theorem erase : c.erase.Reordered c'.erase where
  modifiers := congrArg Modifiers.erase reordered.modifiers
  name := congrArg Ident.erase reordered.name
  parent := congrArg (·.map DottedName.erase) reordered.parent
  interfaces := congrArg (·.map DottedName.erase) reordered.interfaces
  members := reordered.members.map _
  fields := by rw [fields_erase, fields_erase, reordered.fields]

theorem symm : c'.Reordered c where
  modifiers := reordered.modifiers.symm
  name := reordered.name.symm
  parent := reordered.parent.symm
  interfaces := reordered.interfaces.symm
  members := reordered.members.symm
  fields := reordered.fields.symm

theorem constructors : c'.constructors.Perm c.constructors := reordered.members.filterMap _

theorem methods : c'.methods.Perm c.methods := reordered.members.filterMap _

/-- The names in the members mean the same, and the same methods can be called. -/
theorem scope_eq (fields : List (String × Value)) :
    c'.scope fields = (c.scope fields).withMethods (c'.scope []).methods (c'.scope []).methodsWithParameters := by
  rw [scope, scope, reordered.name]
  rfl

theorem sameMethods (fields : List (String × Value)) :
    (c.scope fields).SameMethods (c'.scope []).methods (c'.scope []).methodsWithParameters where
  methods _ := ((reordered.methods.filter _).map _).mem_iff
  methodsWithParameters _ := ((reordered.methods.filter _).map _).mem_iff

theorem lowerParent_eq : c'.lowerParent = c.lowerParent := by
  rw [lowerParent, lowerParent, reordered.parent]

theorem interfaceFaults_eq : c'.interfaceFaults = c.interfaceFaults := by
  rw [interfaceFaults, interfaceFaults, reordered.interfaces]

/-- The values of the fields are the same. -/
theorem lowerFields_eq : lowerFields (c'.scope []) c'.fields = lowerFields (c.scope []) c.fields := by
  rw [reordered.scope_eq, reordered.fields, lowerFields_withMethods]

/-- A body comes to the same in either class. -/
theorem lowerBody_eq (fields : List (String × Value)) (place : Place) (name : String) (b : Block) :
    b.lower { c'.scope fields with place, body := name } = b.lower { c.scope fields with place, body := name } := by
  have same := reordered.sameMethods fields
  have inside : { c.scope fields with place, body := name }.SameMethods (c'.scope []).methods
      (c'.scope []).methodsWithParameters := ⟨same.methods, same.methodsWithParameters⟩
  rw [reordered.scope_eq]
  exact Block.lower_withMethods inside b

/-- A method comes to the same in either class. -/
theorem lowerMethod_eq (fields : List (String × Value)) (isRouteBuilder : Bool) (m : MethodDeclaration) :
    c'.lowerMethod (c'.scope fields) isRouteBuilder m = c.lowerMethod (c.scope fields) isRouteBuilder m := by
  have signature : c'.signatureFaults isRouteBuilder m = c.signatureFaults isRouteBuilder m := by
    rw [signatureFaults, signatureFaults, reordered.name, reordered.modifiers]
  simp only [lowerMethod, signature, reordered.lowerBody_eq]

/-- The constructor comes to the same in either class: there is at most one without parameters. -/
theorem lowerConstructor_eq_done {fields : List (String × Value)} {constructor : Option (List Instruction)}
    (lowered : c.lowerConstructor (c.scope fields) = .done constructor) :
    c'.lowerConstructor (c'.scope fields) = .done constructor := by
  have plain := reordered.constructors.filter (·.parameters.isEmpty)
  unfold lowerConstructor at lowered ⊢
  split at lowered
  · next none =>
    rw [none, List.perm_nil] at plain
    rw [plain, reordered.constructors.isEmpty_eq]
    exact lowered
  · next first duplicates found =>
    obtain ⟨_, clean, done⟩ := Lowered.bind_eq_done_iff.mp lowered
    obtain rfl := List.map_eq_nil_iff.mp (Lowered.reportAll_eq_done_iff.mp clean)
    rw [found, List.perm_singleton] at plain
    rw [plain]
    simp only [reordered.name, reordered.lowerBody_eq]
    exact lowered

/-- What the class comes to does not depend on the order of its members. -/
theorem accepted {fields : List (String × Value)} {bodies : List (Option (String × List Instruction))} {p : Program}
    (accepted : c.Accepted fields bodies p) : ∃ bodies', c'.Accepted fields bodies' p := by
  obtain ⟨bodies', done, permuted⟩ := List.perm_comp_forall₂ reordered.methods accepted.methods_done
  have entries : bodies.reduceOption.Perm bodies'.reduceOption := (permuted.filterMap id).symm
  refine ⟨bodies', ?_⟩
  exact {
    parent_done := reordered.lowerParent_eq.trans accepted.parent_done
    fields_done := reordered.lowerFields_eq.trans accepted.fields_done
    constructor_done := reordered.lowerConstructor_eq_done accepted.constructor_done
    methods_done := done.imp fun m _ lowered => (reordered.lowerMethod_eq fields _ m).trans lowered
    methods_eq := accepted.methods_eq.trans (Dictionary.ofList_perm entries accepted.nodup_names)
    distinct := (reordered.methods.map _).nodup_iff.mpr accepted.distinct
    name_eq := accepted.name_eq.trans (congrArg Ident.name reordered.name.symm)
    abstract_eq := accepted.abstract_eq.trans (congrArg Modifiers.isAbstract reordered.modifiers.symm)
    configure_isSome := accepted.configure_isSome }

theorem lower_eq_done {package : Option String} {p : Program} (lowered : c.lower package = .done p) :
    c'.lower package = .done p := by
  obtain ⟨known, qualified, fields, bodies, accepted⟩ := ClassDeclaration.lower_eq_done_iff.mp lowered
  obtain ⟨bodies', accepted⟩ := reordered.accepted accepted
  refine ClassDeclaration.lower_eq_done_iff.mpr
    ⟨reordered.interfaceFaults_eq.trans known, ?_, fields, bodies', accepted⟩
  rw [reordered.name, qualified]

/-- A class and its reordering are lowered without faults to the same programs. -/
theorem lower_eq_done_iff {package : Option String} {p : Program} :
    c'.lower package = .done p ↔ c.lower package = .done p :=
  ⟨reordered.symm.lower_eq_done, reordered.lower_eq_done⟩

end Reordered

end ClassDeclaration

end RouteDepot.RouteClass
