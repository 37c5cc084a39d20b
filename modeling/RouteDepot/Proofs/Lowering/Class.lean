import RouteDepot.Proofs.Lookup
import RouteDepot.Proofs.Lowering.Operand
import RouteDepot.RouteClass.Compile
import Mathlib.Data.List.Nodup
import Mathlib.Data.List.ReduceOption

/-! # Classes lowered without faults

A compiled program is the program of one class of the source, lowered without faults. `ClassDeclaration.Accepted`
collects what that says about the class: the values of its fields, its constructor, and each of its methods. In a
class that is not abstract every method without parameters has a body, and the program holds its instructions.
-/

namespace RouteDepot.RouteClass

/-- Nothing is repeated among items whose keys are distinct and new. -/
theorem repeated_eq_nil_iff {α κ : Type} [DecidableEq κ] {key : α → κ} {seen : List κ} {items : List α} :
    repeated key seen items = [] ↔ (items.map key).Nodup ∧ ∀ item ∈ items, key item ∉ seen := by
  induction items generalizing seen with
  | nil => simp [repeated]
  | cons item later ih =>
    simp only [repeated, List.map_cons, List.nodup_cons, List.mem_map, List.mem_cons, forall_eq_or_imp]
    split
    · rename_i repeats
      simp [repeats]
    · rename_i new
      simp only [ih, List.mem_cons, not_or, new, not_false_eq_true, true_and]
      constructor
      · rintro ⟨nodup, fresh⟩
        refine ⟨⟨?_, nodup⟩, fun other member => (fresh other member).2⟩
        rintro ⟨other, member, same⟩
        exact (fresh other member).1 same
      · rintro ⟨⟨absent, nodup⟩, fresh⟩
        exact ⟨nodup, fun other member => ⟨fun same => absent ⟨other, member, same⟩, fresh other member⟩⟩

namespace Lowered

@[simp] theorem reportAll_eq_done_iff {faults : List (Finding SemanticFault)} {u : Unit} :
    reportAll faults = done u ↔ faults = [] := by
  simp [reportAll, eq_done_iff]

end Lowered

namespace ClassDeclaration

/-- What the names in the members of a class mean, given the values of its fields. -/
def scope (c : ClassDeclaration) (fields : List (String × Value)) : Scope where
  className := c.name.name
  fields := fields
  methods := (c.methods.filter (·.parameters.isEmpty)).map (·.name.name)
  methodsWithParameters := (c.methods.filter (!·.parameters.isEmpty)).map (·.name.name)

/-- A class whose lowering has no faults, with the values of its fields, what its methods come to, and its
program. -/
structure Accepted (c : ClassDeclaration) (fields : List (String × Value))
    (bodies : List (Option (String × List Instruction))) (p : Program) : Prop where
  parent_done : c.lowerParent = .done p.isRouteBuilder
  fields_done : lowerFields (c.scope []) c.fields = .done fields
  constructor_done : c.lowerConstructor (c.scope fields) = .done p.constructor
  methods_done : List.Forall₂ (fun m body => c.lowerMethod (c.scope fields) p.isRouteBuilder m = .done body)
    c.methods bodies
  methods_eq : p.methods = Dictionary.ofList bodies.reduceOption
  distinct : (c.methods.map fun m => (m.name.name, m.parameters.length)).Nodup
  name_eq : p.name = c.name.name
  abstract_eq : p.isAbstract = c.modifiers.isAbstract
  configure_isSome : p.isRouteBuilder → p.isAbstract = false → (p.methods.get? "configure").isSome

/-- A class is lowered without faults when it is accepted, its interfaces are known, and the program has its name. -/
theorem lower_eq_done_iff {c : ClassDeclaration} {package : Option String} {p : Program} :
    c.lower package = .done p ↔
      c.interfaceFaults = [] ∧ p.qualifiedName = package.elim c.name.name (· ++ "." ++ c.name.name) ∧
        ∃ fields bodies, c.Accepted fields bodies p := by
  unfold lower
  simp only [Lowered.bind_eq_done_iff, Lowered.reportAll_eq_done_iff, List.append_eq_nil_iff,
    List.partition_eq_filter_filter]
  constructor
  · rintro ⟨isRouteBuilder, parent, _, ⟨known, noRepetition⟩, fields, fieldsDone, constructor, constructorDone, bodies,
      methodsDone, lowered⟩
    split at lowered
    · obtain ⟨_, reported, _⟩ := Lowered.bind_eq_done_iff.mp lowered
      exact absurd reported Lowered.report_ne_done
    · rename_i overridden
      simp only [Bool.and_eq_true, Bool.not_eq_true', Option.isNone_iff_eq_none, not_and] at overridden
      obtain rfl := Lowered.done_inj.mp lowered
      refine ⟨known, by cases package <;> rfl, fields, bodies, ?_⟩
      exact {
        parent_done := parent
        fields_done := fieldsDone
        constructor_done := constructorDone
        methods_done := Lowered.all_map_eq_done_iff.mp methodsDone
        methods_eq := rfl
        distinct := (repeated_eq_nil_iff.mp (List.map_eq_nil_iff.mp noRepetition)).1
        name_eq := rfl
        abstract_eq := rfl
        configure_isSome := fun builder concrete =>
          Option.isSome_iff_ne_none.mpr (overridden ⟨builder, concrete⟩) }
  · rintro ⟨known, qualified, fields, bodies, accepted⟩
    have noRepetition : c.methodFaults = [] :=
      List.map_eq_nil_iff.mpr (repeated_eq_nil_iff.mpr ⟨accepted.distinct, fun _ _ => List.not_mem_nil⟩)
    have overridden : ¬ (p.isRouteBuilder && !c.modifiers.isAbstract &&
        ((Dictionary.ofList bodies.reduceOption).get? "configure").isNone) = true := by
      simp only [Bool.and_eq_true, Bool.not_eq_true', Option.isNone_iff_eq_none, not_and]
      rintro ⟨builder, concrete⟩ missing
      have present := accepted.configure_isSome builder (accepted.abstract_eq.trans concrete)
      rw [accepted.methods_eq, missing] at present
      cases present
    refine ⟨_, accepted.parent_done, (), ⟨known, noRepetition⟩, fields, accepted.fields_done, _,
      accepted.constructor_done, bodies, Lowered.all_map_eq_done_iff.mpr accepted.methods_done, ?_⟩
    rw [if_neg overridden, Lowered.pure_eq_done, Lowered.done_inj]
    obtain ⟨name, qualifiedName, isAbstract, isRouteBuilder, constructor, methods⟩ := p
    obtain rfl : name = c.name.name := accepted.name_eq
    obtain rfl : isAbstract = c.modifiers.isAbstract := accepted.abstract_eq
    obtain rfl : methods = Dictionary.ofList bodies.reduceOption := accepted.methods_eq
    obtain rfl : qualifiedName = _ := qualified
    cases package <;> rfl

/-- A class that is lowered without faults is accepted. -/
theorem accepted_of_lower {c : ClassDeclaration} {package : Option String} {p : Program}
    (lowered : c.lower package = .done p) : ∃ fields bodies, c.Accepted fields bodies p :=
  (lower_eq_done_iff.mp lowered).2.2

/-- A method without a body is a fault in a class that is not abstract. -/
theorem body_isSome_of_signatureFaults {c : ClassDeclaration} {isRouteBuilder : Bool} {m : MethodDeclaration}
    (concrete : c.modifiers.isAbstract = false) (clean : c.signatureFaults isRouteBuilder m = []) :
    m.body.isSome := by
  unfold signatureFaults at clean
  obtain ⟨clean, _⟩ := List.append_eq_nil_iff.mp clean
  cases body : m.body with
  | some body => rfl
  | none => cases isAbstract : m.modifiers.isAbstract <;> simp [body, isAbstract, concrete] at clean

/-- A method has a body that is lowered to instructions. -/
def LowersTo (c : ClassDeclaration) (fields : List (String × Value)) (m : MethodDeclaration)
    (instructions : List Instruction) : Prop :=
  ∃ body, m.body = some body ∧
    body.lower { c.scope fields with place := .method, body := m.name.name } = .done instructions

/-- The methods of a program are those of its class that have no parameters, but a body. -/
theorem forall₂_lowersTo {c : ClassDeclaration} {fields : List (String × Value)} {isRouteBuilder : Bool}
    {methods : List MethodDeclaration} {bodies : List (Option (String × List Instruction))}
    (done : List.Forall₂ (fun m body => c.lowerMethod (c.scope fields) isRouteBuilder m = .done body)
      methods bodies) :
    List.Forall₂ (fun m entry => entry.1 = m.name.name ∧ c.LowersTo fields m entry.2)
      (methods.filter fun m => m.parameters.isEmpty && m.body.isSome) bodies.reduceOption := by
  induction done with
  | nil => exact .nil
  | @cons m result methods bodies first _ ih =>
    unfold lowerMethod at first
    obtain ⟨_, _, first⟩ := Lowered.bind_eq_done_iff.mp first
    split at first
    · rename_i body found
      split at first
      · rename_i plain
        obtain ⟨instructions, lowered, same⟩ := Lowered.bind_eq_done_iff.mp first
        obtain rfl := Lowered.done_inj.mp same
        rw [List.filter_cons_of_pos (by simp [plain, found]), List.reduceOption_cons_of_some]
        exact .cons ⟨rfl, body, found, lowered⟩ ih
      · rename_i parameters
        obtain rfl := Lowered.done_inj.mp first
        rwa [List.filter_cons_of_neg (by simp [parameters]), List.reduceOption_cons_of_none]
    · rename_i missing
      obtain rfl := Lowered.done_inj.mp first
      rwa [List.filter_cons_of_neg (by simp [missing]), List.reduceOption_cons_of_none]

namespace Accepted

variable {c : ClassDeclaration} {fields : List (String × Value)} {bodies : List (Option (String × List Instruction))}
  {p : Program}

/-- The constructor of a program is empty, or it is the body of a constructor of its class. -/
theorem constructor_eq (accepted : c.Accepted fields bodies p) {instructions : List Instruction}
    (constructor : p.constructor = some instructions) :
    instructions = [] ∨ ∃ body : Block,
      body.lower { c.scope fields with place := .constructor, body := c.name.name } = .done instructions := by
  have lowered := accepted.constructor_done
  unfold lowerConstructor at lowered
  split at lowered
  · have same := Lowered.done_inj.mp lowered
    rw [constructor] at same
    split at same
    · exact .inl (Option.some.inj same).symm
    · cases same
  · simp only [Lowered.bind_eq_done_iff, Lowered.map_eq_done_iff] at lowered
    obtain ⟨_, _, body, done, same⟩ := lowered
    obtain rfl := Option.some.inj (same.trans constructor)
    exact .inr ⟨_, done⟩

/-- Two methods without parameters that have one name are the same method. -/
theorem eq_of_same_name (accepted : c.Accepted fields bodies p) {m other : MethodDeclaration} (member : m ∈ c.methods)
    (plain : m.parameters = []) (otherMember : other ∈ c.methods) (otherPlain : other.parameters = [])
    (same : m.name.name = other.name.name) : m = other :=
  List.inj_on_of_nodup_map accepted.distinct member otherMember (by simp [plain, otherPlain, same])

/-- Names of methods without parameters are distinct, so that no entry of the dictionary hides another. -/
theorem nodup_names (accepted : c.Accepted fields bodies p) : (bodies.reduceOption.map (·.1)).Nodup := by
  have keys : bodies.reduceOption.map (·.1) =
      (c.methods.filter fun m => m.parameters.isEmpty && m.body.isSome).map (·.name.name) := by
    rw [← List.forall₂_eq_eq_eq, List.forall₂_map_left_iff, List.forall₂_map_right_iff]
    exact (forall₂_lowersTo accepted.methods_done).flip.imp fun _ _ related => related.1
  rw [keys]
  refine List.Nodup.map_on ?_ (accepted.distinct.of_map.filter _)
  intro m member other otherMember same
  simp only [List.mem_filter, Bool.and_eq_true, List.isEmpty_iff] at member otherMember
  exact accepted.eq_of_same_name member.1 member.2.1 otherMember.1 otherMember.2.1 same

/-- A program has a method when its class has one of that name, without parameters and with a body that is lowered
to the instructions. -/
theorem get?_methods_eq_some_iff (accepted : c.Accepted fields bodies p) {name : String}
    {instructions : List Instruction} :
    p.methods.get? name = some instructions ↔
      ∃ m ∈ c.methods, m.parameters = [] ∧ m.name.name = name ∧ c.LowersTo fields m instructions := by
  have related := forall₂_lowersTo accepted.methods_done
  rw [accepted.methods_eq, Dictionary.get?_ofList_eq_some_iff accepted.nodup_names]
  constructor
  · intro member
    obtain ⟨m, found, same, lowers⟩ := related.exists_left member
    simp only [List.mem_filter, Bool.and_eq_true, List.isEmpty_iff] at found
    exact ⟨m, found.1, found.2.1, same.symm, lowers⟩
  · rintro ⟨m, member, plain, rfl, body, found, lowered⟩
    have listed : m ∈ c.methods.filter fun m => m.parameters.isEmpty && m.body.isSome := by
      simp [List.mem_filter, member, plain, found]
    obtain ⟨⟨name, others⟩, entry, rfl, body', found', lowered'⟩ := related.exists_right listed
    obtain rfl := Option.some.inj (found.symm.trans found')
    obtain rfl := Lowered.done_inj.mp (lowered.symm.trans lowered')
    exact entry

/-- In a class that is not abstract, every method without parameters is a method of the program. -/
theorem get?_methods_isSome (accepted : c.Accepted fields bodies p) (concrete : p.isAbstract = false)
    {m : MethodDeclaration} (member : m ∈ c.methods) (plain : m.parameters = []) :
    ∃ instructions, p.methods.get? m.name.name = some instructions ∧ c.LowersTo fields m instructions := by
  obtain ⟨result, _, lowered⟩ := accepted.methods_done.exists_right member
  unfold lowerMethod at lowered
  obtain ⟨_, clean, lowered⟩ := Lowered.bind_eq_done_iff.mp lowered
  obtain ⟨body, found⟩ := Option.isSome_iff_exists.mp (body_isSome_of_signatureFaults
    (accepted.abstract_eq ▸ concrete) (Lowered.reportAll_eq_done_iff.mp clean))
  simp only [found, plain, List.isEmpty_nil, if_true] at lowered
  obtain ⟨instructions, lowered, _⟩ := Lowered.bind_eq_done_iff.mp lowered
  have lowers : c.LowersTo fields m instructions := ⟨body, found, lowered⟩
  exact ⟨instructions, accepted.get?_methods_eq_some_iff.mpr ⟨m, member, plain, rfl, lowers⟩, lowers⟩

end Accepted

end ClassDeclaration

/-! ### Units -/

/-- Classes are lowered without faults when each of them is, and when no name is used twice. -/
theorem lowerClasses_eq_done_iff {package : Option String} {seen : List String} {classes : List ClassDeclaration}
    {programs : List (String × Program)} :
    lowerClasses package seen classes = .done programs ↔
      (classes.map (·.name.name)).Nodup ∧ (∀ c ∈ classes, c.name.name ∉ seen) ∧
        List.Forall₂ (fun c entry => c.name.name = entry.1 ∧ c.lower package = .done entry.2) classes programs := by
  induction classes generalizing seen programs with
  | nil => simp [lowerClasses, eq_comm]
  | cons c later ih =>
    unfold lowerClasses
    split
    · next repeats =>
      constructor
      · intro lowered
        obtain ⟨_, reported, _⟩ := Lowered.bind_eq_done_iff.mp lowered
        exact absurd reported Lowered.report_ne_done
      · rintro ⟨_, fresh, _⟩
        exact absurd repeats (fresh c List.mem_cons_self)
    · next new =>
      simp only [Lowered.bind_eq_done_iff, Lowered.pure_eq_done, Lowered.done_inj, ih, List.map_cons, List.nodup_cons,
        List.forall_mem_cons, List.forall₂_cons_left_iff]
      constructor
      · rintro ⟨program, first, others, ⟨distinct, fresh, each⟩, rfl⟩
        have unlike : c.name.name ∉ later.map (·.name.name) := by
          intro listed
          obtain ⟨other, member, same⟩ := List.mem_map.mp listed
          exact fresh other member (same ▸ List.mem_cons_self)
        exact ⟨⟨unlike, distinct⟩, ⟨new, fun other member seen => fresh other member (List.mem_cons_of_mem _ seen)⟩,
          _, others, ⟨rfl, first⟩, each, rfl⟩
      · rintro ⟨⟨unlike, distinct⟩, ⟨_, fresh⟩, entry, others, ⟨same, first⟩, each, rfl⟩
        have fresh : ∀ other ∈ later, other.name.name ∉ c.name.name :: seen := fun other member =>
          List.mem_cons.not.mpr (not_or.mpr ⟨fun repeats => unlike (repeats ▸ List.mem_map_of_mem member),
            fresh other member⟩)
        exact ⟨entry.2, first, others, ⟨distinct, fresh, each⟩, by rw [same]⟩

/-- Among classes lowered without faults, the first of a name has the program of that name. -/
theorem find?_of_lowerClasses {package : Option String} {seen : List String} {classes : List ClassDeclaration}
    {programs : List (String × Program)} (lowered : lowerClasses package seen classes = .done programs)
    {name : String} {p : Program} (found : programs.lookup name = some p) :
    ∃ c, classes.find? (·.name.name == name) = some c ∧ c.lower package = .done p := by
  have each := (lowerClasses_eq_done_iff.mp lowered).2.2
  clear lowered
  induction each with
  | nil => cases found
  | @cons c entry later others first _ ih =>
    obtain ⟨key, program⟩ := entry
    obtain ⟨rfl, done⟩ : c.name.name = key ∧ c.lower package = .done program := first
    rw [lookup_cons_ite] at found
    split at found
    · next same =>
      obtain rfl := Option.some.inj found
      exact ⟨c, by simp [same], done⟩
    · next different =>
      obtain ⟨other, listed, done⟩ := ih found
      exact ⟨other, by simp [Ne.symm different, listed], done⟩

/-- A unit that is lowered has the package that is asked for, its classes are lowered without faults, and one of them
has the program. -/
theorem SourceUnit.programs_of_lower_eq_ok {u : SourceUnit} {qualifiedName : String} {p : Program}
    (success : u.lower qualifiedName = .ok p) :
    packageFaults u.package (splitName qualifiedName).1 qualifiedName = [] ∧
      ∃ programs, lowerClasses (splitName qualifiedName).1 [] u.classes = .done programs ∧
        programs.lookup (splitName qualifiedName).2 = some p := by
  unfold lower at success
  split at success
  rename_i package simple named
  rw [named]
  extract_lets classes at success
  split at success
  · rename_i program found
    split at success
    · rename_i clean
      obtain rfl := Except.ok.inj success
      cases value : classes.value? with
      | none =>
        rw [value] at found
        cases found
      | some programs =>
        rw [value] at found
        have lowered : classes = .done programs := Lowered.eq_done_iff.mpr ⟨value, List.isEmpty_iff.mp clean⟩
        obtain ⟨_, reported, lowered⟩ := Lowered.bind_eq_done_iff.mp lowered
        exact ⟨Lowered.reportAll_eq_done_iff.mp reported, programs, lowered, found⟩
    · cases success
  · cases success

theorem SourceUnit.lower_eq_ok_of_programs {u : SourceUnit} {qualifiedName : String} {p : Program}
    {programs : List (String × Program)}
    (declared : packageFaults u.package (splitName qualifiedName).1 qualifiedName = [])
    (lowered : lowerClasses (splitName qualifiedName).1 [] u.classes = .done programs)
    (found : programs.lookup (splitName qualifiedName).2 = some p) : u.lower qualifiedName = .ok p := by
  have clean : (do
      Lowered.reportAll (packageFaults u.package (splitName qualifiedName).1 qualifiedName)
      lowerClasses (splitName qualifiedName).1 [] u.classes) = .done programs :=
    Lowered.bind_eq_done_iff.mpr ⟨(), Lowered.reportAll_eq_done_iff.mpr declared, lowered⟩
  unfold lower
  simp only [clean]
  simp only [Lowered.done, Option.getD_some, found, List.isEmpty_nil, if_true]

/-- The program of a unit is that of the first class of the name that is asked for. -/
theorem SourceUnit.exists_of_lower_eq_ok {u : SourceUnit} {qualifiedName : String} {p : Program}
    (success : u.lower qualifiedName = .ok p) :
    ∃ c, u.classes.find? (·.name.name == (splitName qualifiedName).2) = some c ∧
      c.lower (splitName qualifiedName).1 = .done p := by
  obtain ⟨_, programs, lowered, found⟩ := programs_of_lower_eq_ok success
  exact find?_of_lowerClasses lowered found

/-- A source that compiles is parsed to a unit, which is lowered to the program. -/
theorem unit_of_compile_eq_ok {qualifiedName source : String} {p : Program}
    (success : compile qualifiedName source = .ok p) :
    ∃ u, SourceUnit.ofTokens (Lexed.ofSource source).tokens (Lexed.ofSource source).stopSpan = .ok u ∧
      u.lower qualifiedName = .ok p := by
  unfold compile at success
  extract_lets lexed lexical at success
  split at success
  · cases success
  · rename_i u parsed
    split at success
    · split at success
      · rename_i lowered
        obtain rfl := Except.ok.inj success
        exact ⟨u, parsed, lowered⟩
      · cases success
    · cases success

/-- A program that compiles is that of a class of the unit that the source is parsed to. -/
theorem exists_of_compile_eq_ok {qualifiedName source : String} {p : Program}
    (success : compile qualifiedName source = .ok p) :
    ∃ u c, SourceUnit.ofTokens (Lexed.ofSource source).tokens (Lexed.ofSource source).stopSpan = .ok u ∧
      u.classes.find? (·.name.name == (SourceUnit.splitName qualifiedName).2) = some c ∧
      c.lower (SourceUnit.splitName qualifiedName).1 = .done p := by
  obtain ⟨u, parsed, lowered⟩ := unit_of_compile_eq_ok success
  obtain ⟨c, found, done⟩ := SourceUnit.exists_of_lower_eq_ok lowered
  exact ⟨u, c, parsed, found, done⟩

end RouteDepot.RouteClass
