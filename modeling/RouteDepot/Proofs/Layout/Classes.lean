import RouteDepot.Proofs.Layout.Instructions
import RouteDepot.RouteClass.Lowering.Class

/-! # Lowering aligned units

Aligned units come to the same program, or to the same faults of meaning at related spans. The faults of a unit as a
whole are reported at its beginning, which has to be related to itself.
-/

namespace RouteDepot.RouteClass

variable {R : Span → Span → Prop}

open Lowered (alike_done alike_fail alike_report)

theorem Lowered.alike_reportAll {faults faults' : List (Finding SemanticFault)}
    (related : List.Forall₂ (Finding.Alike R) faults faults') : (reportAll faults).Alike R (reportAll faults') :=
  ⟨rfl, related⟩

/-! ### Names -/

theorem DottedName.Aligned.means_eq {n k : DottedName} (aligned : n.Aligned R k) : n.means = k.means := by
  funext type
  rw [DottedName.means, DottedName.means, aligned.text_eq, aligned.parts]

/-- Items with the same keys are repeated together. -/
theorem repeated_related {α β κ : Type} [DecidableEq κ] {related : α → β → Prop} {key : α → κ} {key' : β → κ}
    (keys : ∀ a b, related a b → key a = key' b) {items : List α} {items' : List β}
    (aligned : List.Forall₂ related items items') (seen : List κ) :
    List.Forall₂ related (repeated key seen items) (repeated key' seen items') := by
  induction aligned generalizing seen with
  | nil => exact .nil
  | cons first _ ih =>
    rw [repeated, repeated, keys _ _ first]
    split
    · exact .cons first (ih seen)
    · exact ih _

/-- The same fault for each of related items. -/
theorem faults_alike {α β : Type} {related : α → β → Prop} {items : List α} {items' : List β}
    {fault : α → Finding SemanticFault} {fault' : β → Finding SemanticFault}
    (aligned : List.Forall₂ related items items') (each : ∀ a b, related a b → (fault a).Alike R (fault' b)) :
    List.Forall₂ (Finding.Alike R) (items.map fault) (items'.map fault') :=
  List.forall₂_map_left_iff.mpr (List.forall₂_map_right_iff.mpr (aligned.imp each))

/-! ### Fields -/

theorem TypeName.defaultValue_eq {type type' : TypeName} (types : type.erase = type'.erase) :
    type.defaultValue = type'.defaultValue := by
  rw [defaultValue, defaultValue, text_eq types, isArray_eq types]

theorem FieldDeclaration.Aligned.lower {f f' : FieldDeclaration} (aligned : f.Aligned R f') (scope : Scope) :
    (f.lower scope).Alike R (f'.lower scope) := by
  obtain ⟨types, _, values⟩ := aligned
  unfold FieldDeclaration.lower
  rw [TypeName.defaultValue_eq types]
  generalize f.value = value, f'.value = value' at values
  cases values with
  | none => exact alike_done _
  | some initial =>
    refine (initial.operand scope).attempt.bind fun operand? => ?_
    split
    · exact alike_done _
    · exact (TypeName.checkValue_alike types initial.spans _).bind fun _ => alike_done _
    · exact (alike_report initial.spans).bind fun _ => alike_done _

theorem lowerFields_alike {fields fields' : List FieldDeclaration}
    (aligned : List.Forall₂ (FieldDeclaration.Aligned R) fields fields') (scope : Scope) :
    (lowerFields scope fields).Alike R (lowerFields scope fields') := by
  induction aligned generalizing scope with
  | nil => exact alike_done _
  | cons first _ ih =>
    rw [lowerFields, lowerFields]
    refine (first.lower scope).bind fun value => ?_
    rw [first.names.name]
    split
    · exact (alike_report first.names.spans).bind fun _ => ih _
    · exact ih _

/-! ### Members -/

/-- Parameters with the same types and names are of the same number. -/
theorem parameters_length_eq {parameters parameters' : List Parameter}
    (same : parameters.map Parameter.erase = parameters'.map Parameter.erase) :
    parameters.length = parameters'.length := by
  simpa using congrArg List.length same

theorem parameters_isEmpty_eq {parameters parameters' : List Parameter}
    (same : parameters.map Parameter.erase = parameters'.map Parameter.erase) :
    parameters.isEmpty = parameters'.isEmpty := by
  simpa using congrArg List.isEmpty same

namespace ClassDeclaration.Aligned

variable {c c' : ClassDeclaration}

theorem fields (aligned : c.Aligned R c') : List.Forall₂ (FieldDeclaration.Aligned R) c.fields c'.fields := by
  refine List.rel_filterMap (fun m m' related => ?_) aligned.members
  cases related with
  | field declarations => exact .some declarations
  | _ => exact .none

theorem constructors (aligned : c.Aligned R c') :
    List.Forall₂ (ConstructorDeclaration.Aligned R) c.constructors c'.constructors := by
  refine List.rel_filterMap (fun m m' related => ?_) aligned.members
  cases related with
  | constructor declarations => exact .some declarations
  | _ => exact .none

theorem methods (aligned : c.Aligned R c') : List.Forall₂ (MethodDeclaration.Aligned R) c.methods c'.methods := by
  refine List.rel_filterMap (fun m m' related => ?_) aligned.members
  cases related with
  | method declarations => exact .some declarations
  | _ => exact .none

theorem isAbstract_eq (aligned : c.Aligned R c') : c.modifiers.isAbstract = c'.modifiers.isAbstract := by
  change c.modifiers.erase.isAbstract = c'.modifiers.erase.isAbstract
  rw [aligned.modifiers]

theorem lowerParent (aligned : c.Aligned R c') : c.lowerParent.Alike R c'.lowerParent := by
  have parents := aligned.parents
  unfold ClassDeclaration.lowerParent
  generalize c.parent = parent, c'.parent = parent' at parents
  cases parents with
  | none => exact alike_done _
  | some names =>
    dsimp only
    rw [names.means_eq, names.text_eq]
    split
    · exact alike_done _
    · split
      · exact alike_done _
      · exact (alike_report names.spans).bind fun _ => alike_done _

theorem interfaceFaults (aligned : c.Aligned R c') :
    List.Forall₂ (Finding.Alike R) c.interfaceFaults c'.interfaceFaults := by
  have unknown : List.Forall₂ (DottedName.Aligned R) (c.interfaces.filter fun name => !interfaceTypes.any name.means)
      (c'.interfaces.filter fun name => !interfaceTypes.any name.means) := by
    refine List.rel_filter ?_ aligned.interfaces
    intro n k names
    beta_reduce
    rw [names.means_eq]
  exact faults_alike unknown fun n k names => ⟨congrArg SemanticFault.unknownClass names.text_eq, names.spans⟩

theorem methodFaults (aligned : c.Aligned R c') :
    List.Forall₂ (Finding.Alike R) c.methodFaults c'.methodFaults := by
  have signatures (m m' : MethodDeclaration) (same : m.Aligned R m') :
      (m.name.name, m.parameters.length) = (m'.name.name, m'.parameters.length) := by
    rw [same.names.name, parameters_length_eq same.parameters]
  exact faults_alike (repeated_related signatures aligned.methods []) fun m m' same =>
    ⟨congrArg₂ SemanticFault.duplicateMethod same.names.name aligned.names.name, same.names.spans⟩

theorem lowerConstructor (aligned : c.Aligned R c') (scope : Scope) :
    (c.lowerConstructor scope).Alike R (c'.lowerConstructor scope) := by
  have plain : List.Forall₂ (ConstructorDeclaration.Aligned R) (c.constructors.filter (·.parameters.isEmpty))
      (c'.constructors.filter (·.parameters.isEmpty)) := by
    refine List.rel_filter ?_ aligned.constructors
    intro d d' same
    beta_reduce
    rw [parameters_isEmpty_eq same.parameters]
  unfold ClassDeclaration.lowerConstructor
  rw [aligned.constructors.isEmpty_eq, aligned.names.name]
  generalize c.constructors.filter (·.parameters.isEmpty) = found,
    c'.constructors.filter (·.parameters.isEmpty) = found' at plain
  cases plain with
  | nil => exact alike_done _
  | cons first duplicates =>
    refine (Lowered.alike_reportAll (faults_alike duplicates ?_)).bind fun _ => (first.bodies.lower _).map _
    intro d d' same
    exact ⟨rfl, same.names.spans⟩

theorem signatureFaults (aligned : c.Aligned R c') (isRouteBuilder : Bool) {m m' : MethodDeclaration}
    (same : m.Aligned R m') :
    List.Forall₂ (Finding.Alike R) (c.signatureFaults isRouteBuilder m) (c'.signatureFaults isRouteBuilder m') := by
  obtain ⟨modifiers, results, names, parameters, bodies⟩ := same
  have abstract_eq : m.modifiers.isAbstract = m'.modifiers.isAbstract := by
    change m.modifiers.erase.isAbstract = m'.modifiers.erase.isAbstract
    rw [modifiers]
  unfold ClassDeclaration.signatureFaults
  rw [abstract_eq, aligned.isAbstract_eq, names.name, aligned.names.name, parameters_isEmpty_eq parameters]
  refine List.rel_append ?_ ?_
  · generalize m.body = body, m'.body = body' at bodies
    generalize m'.modifiers.isAbstract = isAbstract
    cases bodies with
    | none =>
      cases isAbstract with
      | false => exact .cons ⟨rfl, names.spans⟩ .nil
      | true =>
        dsimp only
        split
        · exact .nil
        · exact .cons ⟨rfl, aligned.names.spans⟩ .nil
    | some =>
      cases isAbstract with
      | false => exact .nil
      | true => exact .cons ⟨rfl, names.spans⟩ .nil
  · generalize m.result = result, m'.result = result' at results
    match result, result', results with
    | none, none, _ => exact .nil
    | some type, some type', same =>
      dsimp only
      rw [TypeName.text_eq (Option.some.inj same)]
      split
      · exact .cons ⟨rfl, names.spans⟩ .nil
      · exact .nil

theorem lowerMethod (aligned : c.Aligned R c') (scope : Scope) (isRouteBuilder : Bool) {m m' : MethodDeclaration}
    (same : m.Aligned R m') :
    (c.lowerMethod scope isRouteBuilder m).Alike R (c'.lowerMethod scope isRouteBuilder m') := by
  refine (Lowered.alike_reportAll (aligned.signatureFaults isRouteBuilder same)).bind fun _ => ?_
  obtain ⟨_, _, names, parameters, bodies⟩ := same
  rw [names.name, parameters_isEmpty_eq parameters]
  generalize m.body = body, m'.body = body' at bodies
  cases bodies with
  | none => exact alike_done _
  | some block =>
    dsimp only
    split
    · exact (block.lower _).bind fun _ => alike_done _
    · exact alike_done _

/-- The names of the methods that are chosen by their parameters. -/
theorem methodNames_eq (aligned : c.Aligned R c') (chosen : Bool → Bool) :
    (c.methods.filter fun m => chosen m.parameters.isEmpty).map (·.name.name) =
      (c'.methods.filter fun m => chosen m.parameters.isEmpty).map (·.name.name) := by
  have related : List.Forall₂ (MethodDeclaration.Aligned R) (c.methods.filter fun m => chosen m.parameters.isEmpty)
      (c'.methods.filter fun m => chosen m.parameters.isEmpty) := by
    refine List.rel_filter ?_ aligned.methods
    intro m m' same
    beta_reduce
    rw [parameters_isEmpty_eq same.parameters]
  rw [← List.forall₂_eq_eq_eq, List.forall₂_map_left_iff, List.forall₂_map_right_iff]
  exact related.imp fun _ _ same => same.names.name

theorem lower (aligned : c.Aligned R c') (package : Option String) :
    (c.lower package).Alike R (c'.lower package) := by
  have plain := aligned.methodNames_eq id
  have parameterized := aligned.methodNames_eq not
  unfold ClassDeclaration.lower
  simp only [List.partition_eq_filter_filter]
  simp only [id, Function.comp_def] at plain parameterized ⊢
  rw [plain, parameterized, aligned.names.name, aligned.isAbstract_eq]
  refine aligned.lowerParent.bind fun isRouteBuilder => ?_
  refine (Lowered.alike_reportAll (List.rel_append aligned.interfaceFaults aligned.methodFaults)).bind fun _ => ?_
  refine (lowerFields_alike aligned.fields _).bind fun fields => ?_
  refine (aligned.lowerConstructor _).bind fun constructor => ?_
  refine (Lowered.Alike.all_map aligned.methods fun _ _ same => aligned.lowerMethod _ _ same).bind fun lowered => ?_
  split
  · exact (alike_report aligned.names.spans).bind fun _ => alike_done _
  · exact alike_done _

end ClassDeclaration.Aligned

/-! ### Units -/

theorem packageFaults_alike {declared declared' : Option DottedName} (atUnit : R unitSpan unitSpan)
    (names : Option.Rel (DottedName.Aligned R) declared declared') (expected : Option String) (unitName : String) :
    List.Forall₂ (Finding.Alike R) (packageFaults declared expected unitName)
      (packageFaults declared' expected unitName) := by
  cases names with
  | none =>
    cases expected with
    | none => exact .nil
    | some package => exact .cons ⟨rfl, atUnit⟩ .nil
  | some names =>
    rw [packageFaults, packageFaults, names.text_eq]
    split
    · exact .nil
    · exact .cons ⟨rfl, names.spans⟩ .nil

theorem lowerClasses_alike (package : Option String) {classes classes' : List ClassDeclaration}
    (aligned : List.Forall₂ (ClassDeclaration.Aligned R) classes classes') (seen : List String) :
    (lowerClasses package seen classes).Alike R (lowerClasses package seen classes') := by
  induction aligned generalizing seen with
  | nil => exact alike_done _
  | cons first _ ih =>
    rw [lowerClasses, lowerClasses, first.names.name]
    split
    · exact (alike_report first.names.spans).bind fun _ => ih _
    · exact (first.lower package).bind fun _ => (ih _).bind fun _ => alike_done _

theorem SourceUnit.Aligned.lower {u u' : SourceUnit} (aligned : u.Aligned R u') (atUnit : R unitSpan unitSpan)
    (qualifiedName : String) :
    Except.Rel (List.Forall₂ (Finding.Alike R)) Eq (u.lower qualifiedName) (u'.lower qualifiedName) := by
  unfold SourceUnit.lower
  generalize splitName qualifiedName = names
  obtain ⟨package, simple⟩ := names
  dsimp only
  have classes := (Lowered.alike_reportAll (packageFaults_alike atUnit aligned.packages package qualifiedName)).bind
    fun _ => lowerClasses_alike package aligned.classes []
  rw [← classes.values, ← classes.faults.isEmpty_eq]
  split
  · split
    · exact .ok rfl
    · exact .error classes.faults
  · exact .error (List.rel_append classes.faults (.cons ⟨rfl, atUnit⟩ .nil))

/-- A unit without its spans is lowered to the same program. -/
theorem SourceUnit.lower_erase_eq_ok_iff {u : SourceUnit} {qualifiedName : String} {p : Program} :
    u.erase.lower qualifiedName = .ok p ↔ u.lower qualifiedName = .ok p := by
  have alike := u.aligned_erase.lower trivial qualifiedName
  generalize u.lower qualifiedName = first, u.erase.lower qualifiedName = second at alike
  cases alike with
  | error _ => exact ⟨nofun, nofun⟩
  | ok same => rw [same]

end RouteDepot.RouteClass
