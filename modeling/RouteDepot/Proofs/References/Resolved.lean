import RouteDepot.Proofs.Lowering.Class
import RouteDepot.Proofs.References.Uses

/-! # References resolve in what compiles

The expressions of the bodies of a source, each with what is visible where it stands. When the source compiles, the
references of all of them resolve, in whatever class and method they are, with one exception: of the arguments of an
exception that is thrown only the first is looked at, and a second one may refer to nothing.
-/

namespace RouteDepot.RouteClass

/-! ### Where expressions stand -/

/-- What an expression of a body is there for. -/
inductive Use where
  | statement
  /-- The initial value of a local variable. -/
  | initial
  /-- An argument of an exception that is thrown, by its position. -/
  | thrown (position : Nat)
  deriving DecidableEq, Repr

/-- Compiling looks at every expression of a body but the later arguments of an exception. -/
def Use.isLookedAt : Use → Bool
  | thrown position => position == 0
  | statement | initial => true

/-- An expression of a body, with what is visible where it stands. -/
structure Site where
  visible : Visible
  use : Use
  value : Expression
  deriving Repr

/-- What is visible after a statement; a block takes its local variables with it. -/
def Visible.after (visible : Visible) : Statement → Visible
  | .declare _ name value => { visible with locals := (name.name, value.isSome) :: visible.locals }
  | .expression _ | .throw _ _ | .return _ | .block _ _ | .empty => visible

mutual

/-- The expressions of a statement. -/
def Statement.sites (visible : Visible) : Statement → List Site
  | .expression value => [⟨visible, .statement, value⟩]
  | .declare _ _ value => value.toList.map (⟨visible, .initial, ·⟩)
  | .throw (.new _ args _) _ => args.zipIdx.map fun (arg, position) => ⟨visible, .thrown position, arg⟩
  | .throw value _ => [⟨visible, .statement, value⟩]
  | .block body _ => sitesOf visible body
  | .return _ | .empty => []

/-- The expressions of statements one after another. -/
def sitesOf (visible : Visible) : List Statement → List Site
  | [] => []
  | s :: later => s.sites visible ++ sitesOf (visible.after s) later

end

namespace ClassDeclaration

/-- The bodies of the constructors and of the methods without parameters. -/
def plainBodies (c : ClassDeclaration) : List Block :=
  (c.constructors.filter (·.parameters.isEmpty)).map (·.body) ++
    (c.methods.filter (·.parameters.isEmpty)).filterMap (·.body)

/-- What is visible at the beginning of a body: the fields of the class. -/
def visible (c : ClassDeclaration) : Visible := ⟨c.fields.map (·.name.name), []⟩

/-- The expressions in the constructors and in the methods without parameters. -/
def sites (c : ClassDeclaration) : List Site := c.plainBodies.flatMap fun b => sitesOf c.visible b.body

end ClassDeclaration

/-- The expressions of all classes of a unit. -/
def SourceUnit.sites (u : SourceUnit) : List Site := u.classes.flatMap ClassDeclaration.sites

/-- The references of an expression resolve where it stands. -/
def Site.Resolves (site : Site) : Prop := ∀ r ∈ site.value.references, r.Resolves site.visible

instance (site : Site) : Decidable site.Resolves := inferInstanceAs (Decidable (∀ r ∈ _, _))

/-! ### Bodies -/

/-- The sites among some that are looked at resolve. -/
def LookedAtResolve (sites : List Site) : Prop := ∀ site ∈ sites, site.use.isLookedAt → site.Resolves

theorem lookedAtResolve_nil : LookedAtResolve [] := List.forall_mem_nil _

theorem lookedAtResolve_append {first later : List Site} :
    LookedAtResolve (first ++ later) ↔ LookedAtResolve first ∧ LookedAtResolve later := List.forall_mem_append

theorem lookedAtResolve_flatMap {α : Type} {items : List α} {sites : α → List Site} :
    LookedAtResolve (items.flatMap sites) ↔ ∀ item ∈ items, LookedAtResolve (sites item) := by
  simp only [LookedAtResolve, List.mem_flatMap]
  grind

variable {scope : Scope}

theorem sitesOf_eq_nil {visible : Visible} {body : List Statement} (blank : body.findSome? Statement.span? = none) :
    sitesOf visible body = [] := by
  induction body with
  | nil => rfl
  | cons s later ih =>
    obtain ⟨first, rest⟩ := List.forall_mem_cons.mp (List.findSome?_eq_none_iff.mp blank)
    cases s with
    | empty => simpa [sitesOf, Statement.sites, Visible.after] using ih (List.findSome?_eq_none_iff.mpr rest)
    | expression _ | declare _ _ _ | throw _ _ | «return» _ | block _ _ => cases first

/-- Of the arguments of an exception, the first resolves. -/
theorem lookedAtResolve_of_lowerThrow {value : Expression} {span : Span} {instruction : Instruction}
    (lowered : lowerThrow scope value span = .done instruction) :
    LookedAtResolve ((Statement.throw value span).sites scope.visible) := by
  obtain ⟨type, args, whole, rfl, ⟨rfl, _⟩ | ⟨arg, more, message, rfl, done, _⟩⟩ := lowerThrow_eq_done lowered
  · exact lookedAtResolve_nil
  · obtain ⟨operand, lowered, _⟩ := exceptionMessage_eq_done_iff.mp done
    intro site member lookedAt
    obtain ⟨⟨other, position⟩, listed, rfl⟩ := List.mem_map.mp member
    obtain rfl : position = 0 := by simpa [Use.isLookedAt] using lookedAt
    obtain rfl := Option.some.inj (List.mem_zipIdx_iff_getElem?.mp listed)
    exact resolvesAll_of_operand lowered

mutual

/-- What is looked at in a statement without faults resolves, and what is visible after it is what its lowering leaves
visible. -/
theorem Statement.lookedAtResolve (scope : Scope) (s : Statement) (clean : (s.lower scope).faults = []) :
    LookedAtResolve (s.sites scope.visible) ∧
      { scope with locals := (s.lower scope).locals }.visible = scope.visible.after s := by
  cases s with
  | empty => exact ⟨lookedAtResolve_nil, rfl⟩
  | «return» span => exact ⟨lookedAtResolve_nil, rfl⟩
  | block body span =>
    rw [Statement.lower] at clean
    exact ⟨lookedAtResolve_sitesOf scope body clean, rfl⟩
  | throw value span =>
    rw [Statement.lower] at clean
    obtain ⟨i, lowered, _⟩ := LoweredBody.ofInstruction_eq_of_clean (explained_lowerThrow _ _ _) clean
    exact ⟨lookedAtResolve_of_lowerThrow lowered, rfl⟩
  | expression e =>
    rw [Statement.lower] at clean
    obtain ⟨i, lowered, _⟩ := LoweredBody.ofInstruction_eq_of_clean (e.explained_instruction _) clean
    exact ⟨List.forall_mem_singleton.mpr fun _ => resolvesAll_of_instruction lowered, rfl⟩
  | declare type name value =>
    rw [Statement.lower] at clean ⊢
    obtain ⟨locals, lowered⟩ := explained_lowerDeclaration scope type name value clean
    rw [lowered]
    obtain ⟨rfl, rfl⟩ | ⟨e, operand, rfl, done, rfl⟩ := lowerDeclaration_eq_done lowered
    · exact ⟨lookedAtResolve_nil, rfl⟩
    · exact ⟨List.forall_mem_singleton.mpr fun _ => resolvesAll_of_operand done, rfl⟩

theorem lookedAtResolve_sitesOf (scope : Scope) (body : List Statement)
    (clean : (lowerStatements scope body).faults = []) : LookedAtResolve (sitesOf scope.visible body) := by
  cases body with
  | nil => exact lookedAtResolve_nil
  | cons s later =>
    have first := s.lookedAtResolve scope (clean_of_lowerStatements_cons clean)
    rw [sitesOf, lookedAtResolve_append, ← first.2]
    refine ⟨first.1, ?_⟩
    cases ends : (s.lower scope).ends with
    | true =>
      simp only [lowerStatements, ends, if_true] at clean
      rw [sitesOf_eq_nil (findSome?_span?_of_clean clean)]
      exact lookedAtResolve_nil
    | false =>
      rw [lowerStatements_cons_of_continues ends] at clean
      exact lookedAtResolve_sitesOf _ later (List.append_eq_nil_iff.mp clean).2

end

/-! ### Classes and units -/

/-- The fields that a class has values for are the ones that it declares. -/
theorem keys_of_lowerFields {declarations : List FieldDeclaration} {fields : List (String × Value)}
    (lowered : lowerFields scope declarations = .done fields) :
    fields.map Prod.fst = scope.fields.map Prod.fst ++ declarations.map (·.name.name) := by
  induction declarations generalizing scope with
  | nil =>
    obtain rfl := Lowered.done_inj.mp lowered
    simp
  | cons f later ih =>
    unfold lowerFields at lowered
    obtain ⟨value, _, lowered⟩ := Lowered.bind_eq_done_iff.mp lowered
    split at lowered
    · obtain ⟨_, reported, _⟩ := Lowered.bind_eq_done_iff.mp lowered
      exact absurd reported Lowered.report_ne_done
    · rw [ih lowered]
      simp

namespace ClassDeclaration.Accepted

variable {c : ClassDeclaration} {fields : List (String × Value)} {bodies : List (Option (String × List Instruction))}
  {p : Program}

theorem visible_eq (accepted : c.Accepted fields bodies p) (place : Place) (name : String) :
    Scope.visible { c.scope fields with place, body := name } = c.visible := by
  have keys := keys_of_lowerFields accepted.fields_done
  simpa [Scope.visible, ClassDeclaration.visible, scope] using keys

/-- The bodies of the constructors and methods without parameters are lowered without faults. -/
theorem plainBodies_done (accepted : c.Accepted fields bodies p) :
    ∀ b ∈ c.plainBodies, ∃ place name instructions,
      b.lower { c.scope fields with place, body := name } = .done instructions := by
  refine List.forall_mem_append.mpr ⟨?_, ?_⟩
  · have lowered := accepted.constructor_done
    unfold lowerConstructor at lowered
    split at lowered
    · rename_i none
      simp [none]
    · rename_i first duplicates constructors
      obtain ⟨_, reported, body⟩ := Lowered.bind_eq_done_iff.mp lowered
      obtain rfl := List.map_eq_nil_iff.mp (Lowered.reportAll_eq_done_iff.mp reported)
      obtain ⟨instructions, done, _⟩ := Lowered.map_eq_done_iff.mp body
      rw [constructors]
      exact List.forall_mem_singleton.mpr ⟨_, _, instructions, done⟩
  · intro b member
    obtain ⟨m, listed, found⟩ := List.mem_filterMap.mp member
    obtain ⟨member, plain⟩ := List.mem_filter.mp listed
    obtain ⟨result, _, lowered⟩ := accepted.methods_done.exists_right member
    unfold lowerMethod at lowered
    obtain ⟨_, _, lowered⟩ := Lowered.bind_eq_done_iff.mp lowered
    simp only [found, plain, if_true] at lowered
    obtain ⟨instructions, done, _⟩ := Lowered.bind_eq_done_iff.mp lowered
    exact ⟨_, _, instructions, done⟩

theorem lookedAtResolve (accepted : c.Accepted fields bodies p) : LookedAtResolve c.sites := by
  refine lookedAtResolve_flatMap.mpr fun b member => ?_
  obtain ⟨place, name, instructions, lowered⟩ := accepted.plainBodies_done b member
  rw [← accepted.visible_eq place name]
  exact lookedAtResolve_sitesOf _ b.body (Lowered.eq_done_iff.mp lowered).2

end ClassDeclaration.Accepted

/-- All classes of a unit that is lowered without faults are lowered without faults. -/
theorem exists_of_lowerClasses {package : Option String} {seen : List String} {classes : List ClassDeclaration}
    {programs : List (String × Program)} (lowered : lowerClasses package seen classes = .done programs) :
    ∀ c ∈ classes, ∃ p, c.lower package = .done p := by
  obtain ⟨_, _, each⟩ := lowerClasses_eq_done_iff.mp lowered
  intro c member
  obtain ⟨entry, _, _, done⟩ := each.exists_right member
  exact ⟨entry.2, done⟩

/-- In a source that compiles, the references of every expression that is looked at resolve: to a local variable that
was declared before, in this block or in one around it, with an initial value, or to a field of the class. -/
theorem references_resolve {qualifiedName source : String} {p : Program}
    (compiled : compile qualifiedName source = .ok p) :
    ∃ u, SourceUnit.ofTokens (Lexed.ofSource source).tokens (Lexed.ofSource source).stopSpan = .ok u ∧
      ∀ site ∈ u.sites, site.use.isLookedAt → site.Resolves := by
  obtain ⟨u, parsed, lowered⟩ := unit_of_compile_eq_ok compiled
  obtain ⟨_, programs, lowered, _⟩ := SourceUnit.programs_of_lower_eq_ok lowered
  refine ⟨u, parsed, lookedAtResolve_flatMap.mpr fun c member => ?_⟩
  obtain ⟨program, done⟩ := exists_of_lowerClasses lowered c member
  obtain ⟨fields, bodies, accepted⟩ := ClassDeclaration.accepted_of_lower done
  exact accepted.lookedAtResolve

/-- A route builder that throws an exception made of a local variable and of a name that nothing declares. -/
def carelessSource : String :=
  "class Careless extends RouteBuilder \x7b String at = \"a\"; void configure() \x7b String why = at + 1; " ++
  "throw new Unready(why, missing); \x7d \x7d"

theorem isOk_compile_careless : (compile "Careless" carelessSource).isOk := by
  have lexed : Lexed.ofSource carelessSource = _ := Lexed.ofSource_eq
    (Lexed.toList_append_eq String.toList_ofList String.toList_ofList)
  rw [compile, lexed]
  decide +kernel

theorem references_resolve_careless :
    ∃ p, compile "Careless" carelessSource = .ok p ∧
      ∃ u, SourceUnit.ofTokens (Lexed.ofSource carelessSource).tokens (Lexed.ofSource carelessSource).stopSpan = .ok u ∧
        ∀ site ∈ u.sites, site.use.isLookedAt → site.Resolves := by
  obtain ⟨p, compiled⟩ := Except.exists_of_isOk isOk_compile_careless
  exact ⟨p, compiled, references_resolve compiled⟩

/-- The second argument of an exception may refer to nothing. -/
theorem thrown_reference_unresolved :
    ¬ ∀ qualifiedName source p u, compile qualifiedName source = .ok p →
      SourceUnit.ofTokens (Lexed.ofSource source).tokens (Lexed.ofSource source).stopSpan = .ok u →
        ∀ site ∈ u.sites, site.Resolves := by
  intro resolve
  obtain ⟨p, compiled⟩ := Except.exists_of_isOk isOk_compile_careless
  have unresolved : (SourceUnit.ofTokens (Lexed.ofSource carelessSource).tokens
      (Lexed.ofSource carelessSource).stopSpan).toOption.map (fun u => decide (∀ site ∈ u.sites, site.Resolves)) =
        some false := by
    have lexed : Lexed.ofSource carelessSource = _ := Lexed.ofSource_eq
      (Lexed.toList_append_eq String.toList_ofList String.toList_ofList)
    rw [lexed]
    decide +kernel
  obtain ⟨u, parsed, unresolved⟩ := Option.map_eq_some_iff.mp unresolved
  exact of_decide_eq_false unresolved (resolve _ _ p u compiled (Except.eq_ok_of_toOption parsed))

end RouteDepot.RouteClass
