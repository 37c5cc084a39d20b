import RouteDepot.Proofs.Lowering.Class

/-! # Scopes with their methods in another order

Of the methods that a scope lists, lowering asks for nothing but whether a name is among them. Operands, arguments and
the calls of a definition do not even ask this. Hence a body comes to the same, faults included, in two scopes that
differ only in the order in which they list the methods of the class.
-/

namespace RouteDepot.RouteClass

/-- A scope that lists other methods. -/
def Scope.withMethods (scope : Scope) (plain parameterized : List String) : Scope :=
  { scope with methods := plain, methodsWithParameters := parameterized }

variable {scope : Scope} {plain parameterized : List String}

/-! ### What does not depend on methods -/

@[simp] theorem Scope.field_withMethods (name : Ident) :
    (scope.withMethods plain parameterized).field name = scope.field name := rfl

@[simp] theorem Scope.resolve_withMethods (name : Ident) :
    (scope.withMethods plain parameterized).resolve name = scope.resolve name := rfl

@[simp] theorem Scope.className_withMethods :
    (scope.withMethods plain parameterized).className = scope.className := rfl

@[simp] theorem Scope.fields_withMethods : (scope.withMethods plain parameterized).fields = scope.fields := rfl

@[simp] theorem Scope.methods_withMethods : (scope.withMethods plain parameterized).methods = plain := rfl

@[simp] theorem Scope.methodsWithParameters_withMethods :
    (scope.withMethods plain parameterized).methodsWithParameters = parameterized := rfl

@[simp] theorem Scope.place_withMethods : (scope.withMethods plain parameterized).place = scope.place := rfl

@[simp] theorem Scope.locals_withMethods : (scope.withMethods plain parameterized).locals = scope.locals := rfl

@[simp] theorem Expression.operand_withMethods (e : Expression) :
    e.operand (scope.withMethods plain parameterized) = e.operand scope := by
  fun_induction Expression.operand scope e with
  | case9 target callee args span asked elsewhere =>
    unfold Expression.operand
    rw [if_pos asked, Scope.place_withMethods, if_pos elsewhere]
  | case10 target callee span asked inMethod arg ih =>
    rw [Expression.operand, if_pos asked, Scope.place_withMethods, if_neg inMethod, ih]
  | case12 target callee args span other =>
    unfold Expression.operand
    rw [if_neg other]
  | case15 left right ihl ihr => rw [Expression.operand, ihl, ihr]
  | _ => simp_all [Expression.operand]

@[simp] theorem Scope.argument_withMethods (method : String) (accepted : List ValueType) (arg : Expression) :
    (scope.withMethods plain parameterized).argument method accepted arg = scope.argument method accepted arg := by
  rw [argument, argument, Expression.operand_withMethods]

namespace ChainCall

variable (call : ChainCall) (next : Option ChainCall)

@[simp] theorem arguments_withMethods (accepted : List (List ValueType)) :
    call.arguments (scope.withMethods plain parameterized) accepted = call.arguments scope accepted := by
  simp only [arguments, Scope.argument_withMethods]

@[simp] theorem single_withMethods (accepted : List ValueType) :
    call.single (scope.withMethods plain parameterized) accepted = call.single scope accepted := by
  simp only [single, Scope.argument_withMethods]

@[simp] theorem optional_withMethods (accepted : List ValueType) :
    call.optional (scope.withMethods plain parameterized) accepted = call.optional scope accepted := by
  simp only [optional, Scope.argument_withMethods]

@[simp] theorem texts_withMethods : call.texts (scope.withMethods plain parameterized) = call.texts scope := by
  simp only [texts, funext (Scope.argument_withMethods _ _)]

@[simp] theorem textPair_withMethods :
    call.textPair (scope.withMethods plain parameterized) = call.textPair scope := by
  simp only [textPair, Scope.argument_withMethods]

@[simp] theorem close_withMethods {α : Type} :
    (call.close (scope.withMethods plain parameterized) : Lowered (Option α)) = call.close scope := by
  simp only [close, arguments_withMethods]

@[simp] theorem clause_withMethods : call.clause (scope.withMethods plain parameterized) = call.clause scope := by
  simp only [clause, single_withMethods]

@[simp] theorem trailingClause_withMethods :
    call.trailingClause (scope.withMethods plain parameterized) next = call.trailingClause scope next := by
  simp only [trailingClause, clause_withMethods]

@[simp] theorem inlineClause_withMethods (arg : Expression) :
    call.inlineClause (scope.withMethods plain parameterized) arg = call.inlineClause scope arg := by
  simp only [inlineClause, clause_withMethods]

@[simp] theorem onlyClause_withMethods :
    call.onlyClause (scope.withMethods plain parameterized) next = call.onlyClause scope next := by
  simp only [onlyClause, trailingClause_withMethods, inlineClause_withMethods]

@[simp] theorem headerClause_withMethods :
    call.headerClause (scope.withMethods plain parameterized) next = call.headerClause scope next := by
  simp only [headerClause, Scope.argument_withMethods, trailingClause_withMethods, inlineClause_withMethods]

@[simp] theorem routeCall_withMethods :
    call.routeCall (scope.withMethods plain parameterized) next = call.routeCall scope next := by
  simp only [routeCall, single_withMethods, texts_withMethods, onlyClause_withMethods, headerClause_withMethods,
    close_withMethods]

@[simp] theorem restCall_withMethods :
    call.restCall (scope.withMethods plain parameterized) = call.restCall scope := by
  simp only [restCall, single_withMethods, optional_withMethods, close_withMethods]

@[simp] theorem configurationCall_withMethods :
    call.configurationCall (scope.withMethods plain parameterized) = call.configurationCall scope := by
  simp only [configurationCall, single_withMethods, textPair_withMethods, close_withMethods]

end ChainCall

section Definitions

variable (first : ChainCall) (later : List ChainCall)

@[simp] theorem lowerRoute_withMethods :
    lowerRoute (scope.withMethods plain parameterized) first later = lowerRoute scope first later := by
  simp only [lowerRoute, ChainCall.single_withMethods, ChainCall.routeCall_withMethods]

@[simp] theorem lowerRest_withMethods :
    lowerRest (scope.withMethods plain parameterized) first later = lowerRest scope first later := by
  simp only [lowerRest, ChainCall.optional_withMethods, ChainCall.restCall_withMethods]

@[simp] theorem lowerRestConfiguration_withMethods :
    lowerRestConfiguration (scope.withMethods plain parameterized) first later =
      lowerRestConfiguration scope first later := by
  simp only [lowerRestConfiguration, ChainCall.optional_withMethods, ChainCall.configurationCall_withMethods]

end Definitions

@[simp] theorem exceptionMessage_withMethods (arg : Expression) :
    exceptionMessage (scope.withMethods plain parameterized) arg = exceptionMessage scope arg := by
  simp only [exceptionMessage, Expression.operand_withMethods]

@[simp] theorem lowerThrow_withMethods (value : Expression) (span : Span) :
    lowerThrow (scope.withMethods plain parameterized) value span = lowerThrow scope value span := by
  simp only [lowerThrow, exceptionMessage_withMethods]

@[simp] theorem lowerDeclaration_withMethods (type : TypeName) (name : Ident) (value : Option Expression) :
    lowerDeclaration (scope.withMethods plain parameterized) type name value =
      lowerDeclaration scope type name value := by
  simp only [lowerDeclaration, localValue, Expression.operand_withMethods]
  rfl

@[simp] theorem FieldDeclaration.lower_withMethods (f : FieldDeclaration) :
    f.lower (scope.withMethods plain parameterized) = f.lower scope := by
  simp only [lower, Expression.operand_withMethods]

/-- The values of fields do not depend on the methods of their class. -/
theorem lowerFields_withMethods (fields : List FieldDeclaration) :
    lowerFields (scope.withMethods plain parameterized) fields = lowerFields scope fields := by
  induction fields generalizing scope with
  | nil => rfl
  | cons f later ih =>
    rw [lowerFields, lowerFields, FieldDeclaration.lower_withMethods]
    refine bind_congr fun value => ?_
    have rest := @ih { scope with fields := scope.fields ++ [(f.name.name, value)] }
    rw [Scope.fields_withMethods, Scope.className_withMethods, ih, ← rest]
    rfl

/-! ### What depends on the names of methods alone -/

/-- Lists of methods that hold the same names as those of a scope. -/
structure Scope.SameMethods (scope : Scope) (plain parameterized : List String) : Prop where
  methods : ∀ name, name ∈ plain ↔ name ∈ scope.methods
  methodsWithParameters : ∀ name, name ∈ parameterized ↔ name ∈ scope.methodsWithParameters

section SameMethods

variable (same : scope.SameMethods plain parameterized)
include same

theorem Scope.SameMethods.contains_methods (name : String) : plain.contains name = scope.methods.contains name := by
  rw [List.contains_eq_mem, List.contains_eq_mem, decide_eq_decide.mpr (same.methods name)]

theorem Scope.SameMethods.contains_methodsWithParameters (name : String) :
    parameterized.contains name = scope.methodsWithParameters.contains name := by
  rw [List.contains_eq_mem, List.contains_eq_mem, decide_eq_decide.mpr (same.methodsWithParameters name)]

theorem lowerInvocation_withMethods (first : ChainCall) (later : List ChainCall) :
    lowerInvocation (scope.withMethods plain parameterized) first later = lowerInvocation scope first later := by
  unfold lowerInvocation
  extract_lets name
  rw [Scope.place_withMethods, Scope.methods_withMethods, same.contains_methods]

theorem lowerChain_withMethods (first : ChainCall) (later : List ChainCall) :
    lowerChain (scope.withMethods plain parameterized) first later = lowerChain scope first later := by
  unfold lowerChain
  simp only [Scope.methods_withMethods, Scope.methodsWithParameters_withMethods, same.contains_methods,
    same.contains_methodsWithParameters, lowerInvocation_withMethods same, Scope.place_withMethods,
    lowerRoute_withMethods, lowerRest_withMethods, lowerRestConfiguration_withMethods, Scope.className_withMethods]

theorem Expression.instruction_withMethods (e : Expression) :
    e.instruction (scope.withMethods plain parameterized) = e.instruction scope := by
  simp only [instruction, lowerChain_withMethods same]

omit same in
/-- The methods stay the same while local variables are declared. -/
theorem Scope.SameMethods.declare (same : scope.SameMethods plain parameterized)
    (locals : List (String × Option Operand)) : { scope with locals }.SameMethods plain parameterized :=
  ⟨same.methods, same.methodsWithParameters⟩

end SameMethods

@[simp] theorem LoweredBody.ofInstruction_withMethods (ends : Bool) (lowered : Lowered Instruction) :
    ofInstruction (scope.withMethods plain parameterized) ends lowered = ofInstruction scope ends lowered := rfl

mutual

theorem Statement.lower_withMethods {scope : Scope} (same : scope.SameMethods plain parameterized)
    (statement : Statement) : statement.lower (scope.withMethods plain parameterized) = statement.lower scope := by
  match statement with
  | .expression value =>
    rw [Statement.lower, Statement.lower, Expression.instruction_withMethods same,
      LoweredBody.ofInstruction_withMethods]
  | .declare type name value => simp only [Statement.lower, lowerDeclaration_withMethods, Scope.locals_withMethods]
  | .throw value span =>
    rw [Statement.lower, Statement.lower, lowerThrow_withMethods, LoweredBody.ofInstruction_withMethods]
  | .return span => rw [Statement.lower, Statement.lower, LoweredBody.ofInstruction_withMethods]
  | .block body span =>
    rw [Statement.lower, Statement.lower, lowerStatements_withMethods same body, Scope.locals_withMethods]
  | .empty => rw [Statement.lower, Statement.lower, Scope.locals_withMethods]

/-- Statements come to the same whatever the order in which a scope lists the methods of the class. -/
theorem lowerStatements_withMethods {scope : Scope} (same : scope.SameMethods plain parameterized)
    (body : List Statement) :
    lowerStatements (scope.withMethods plain parameterized) body = lowerStatements scope body := by
  match body with
  | [] => rw [lowerStatements, lowerStatements, Scope.locals_withMethods]
  | statement :: later =>
    rw [lowerStatements, lowerStatements, Statement.lower_withMethods same statement]
    have rest := lowerStatements_withMethods (same.declare (statement.lower scope).locals) later
    change lowerStatements { scope.withMethods plain parameterized with
      locals := (statement.lower scope).locals } later = _ at rest
    simp only [rest]

end

/-- A body comes to the same whatever the order in which a scope lists the methods of the class. -/
theorem Block.lower_withMethods (same : scope.SameMethods plain parameterized) (b : Block) :
    b.lower (scope.withMethods plain parameterized) = b.lower scope := by
  simp only [lower, lowerStatements_withMethods same]

end RouteDepot.RouteClass
