import RouteDepot.RouteClass.Lowering.Definition

/-! # Bodies

Lowering the statements of a constructor or of a method. A body ends where a statement returns or throws; what
follows there is unreachable, and only the first such statement is reported.
-/

namespace RouteDepot.RouteClass

/-! ### Single statements -/

/-- The instruction of a chain that begins with a method of this class. -/
def lowerInvocation (scope : Scope) (first : ChainCall) (later : List ChainCall) : Lowered Instruction :=
  let name := first.name.name
  if scope.place ≠ .method then .fail first.name.span (.methodInConstructor name)
  else if !first.args.isEmpty || !scope.methods.contains name then
    .fail first.span (.argumentsToMethod name)
  else match later with
    | next :: _ => .fail next.name.span .voidDereferenced
    | [] => .done (.invoke name)

/-- The instruction of a chain of calls. -/
def lowerChain (scope : Scope) (first : ChainCall) (later : List ChainCall) : Lowered Instruction :=
  let name := first.name.name
  let definition (lower : Scope → ChainCall → List ChainCall → Lowered Instruction) : Lowered Instruction :=
    if scope.place ≠ .method then .fail first.name.span (.definitionInConstructor name)
    else lower scope first later
  if scope.methods.contains name || scope.methodsWithParameters.contains name then
    lowerInvocation scope first later
  else match name with
    | "from" => definition lowerRoute
    | "rest" => definition lowerRest
    | "restConfiguration" => definition lowerRestConfiguration
    | "getContext" => .fail first.span .misusedContext
    | other => .fail first.name.span (.unknownMethod other s!"class {scope.className}")

/-- The instruction of an expression that stands as a statement. -/
def Expression.instruction (scope : Scope) (e : Expression) : Lowered Instruction :=
  match e.chainCalls with
  | .ok (first :: later) => lowerChain scope first later
  | .ok [] => .fail e.span .notAStatement
  | .error span =>
    if e.isCall then
      match e.root with
      | .name ident => .fail span (.unknownVariable ident.name)
      | _ => .fail span .unsupportedReceiver
    else .fail e.span .notAStatement

/-- The message of an exception, given as the first argument of its creation; null is no message. -/
def exceptionMessage (scope : Scope) (arg : Expression) : Lowered (Option Operand) := do
  let operand ← arg.operand scope
  if let .const .null := operand then return none
  if operand.type = .str then return some operand
  .fail arg.span (.incompatible operand.type ValueType.str.name)

/-- The instruction of a throw statement. -/
def lowerThrow (scope : Scope) (value : Expression) (span : Span) : Lowered Instruction :=
  match value with
  | .new type args _ =>
    match args with
    | [] => .done (.throw type.text none)
    | [arg] | [arg, _] => .throw type.text <$> exceptionMessage scope arg
    | _ => .fail value.span (.noSuitableConstructor type.text)
  | _ => .fail span .unsupportedThrow

/-- The type of values that a declared type admits, if the language has values for it. -/
def TypeName.valueType? (t : TypeName) : Option ValueType :=
  if t.isArray then none
  else match t.name.text with
    | "String" | "java.lang.String" => some .str
    | "int" | "long" | "short" | "byte" | "Integer" | "Long" => some .int
    | "boolean" | "Boolean" => some .bool
    | _ => none

/-- Reports a value that a declared type does not admit; a text may be null. -/
def TypeName.checkValue (t : TypeName) (span : Span) (found : ValueType) : Lowered Unit :=
  match t.valueType? with
  | none => .done ()
  | some expected =>
    if found = expected ∨ (found = .null ∧ expected = .str) then .done ()
    else .report span (.incompatible found t.name.text)

/-- The operand that a local variable is declared with. One whose value has a fault is null from there on, so that
its uses are not reported as well. -/
def localValue (scope : Scope) (type : TypeName) (value : Expression) : Lowered Operand := do
  match ← (value.operand scope).attempt with
  | none => return .const .null
  | some operand =>
    type.checkValue value.span operand.type
    return operand

/-- The local variables after a declaration; a name that is in use already is a fault. -/
def lowerDeclaration (scope : Scope) (type : TypeName) (name : Ident) (value : Option Expression) :
    Lowered (List (String × Option Operand)) :=
  if scope.locals.any (·.1 == name.name) then .fail name.span (.duplicateLocal name.name scope.body)
  else match value with
    | none => .done ((name.name, none) :: scope.locals)
    | some value => (fun operand => (name.name, some operand) :: scope.locals) <$> localValue scope type value

/-! ### Sequences of statements -/

/-- What statements come to: their instructions, whether they always end the body, the local variables declared by
then, and the faults met. -/
structure LoweredBody where
  instructions : List Instruction
  ends : Bool
  locals : List (String × Option Operand)
  faults : List (Finding SemanticFault)

namespace LoweredBody

/-- A single instruction. -/
def ofInstruction (scope : Scope) (ends : Bool) (lowered : Lowered Instruction) : LoweredBody :=
  ⟨lowered.value?.toList, ends, scope.locals, lowered.faults⟩

/-- Statements that end the body; the first of those that follow is unreachable. -/
def followedBy (first : LoweredBody) (later : List Statement) : LoweredBody :=
  match later.findSome? Statement.span? with
  | some span => { first with faults := first.faults ++ [⟨span, .unreachable⟩] }
  | none => first

end LoweredBody

mutual

/-- Lowers a statement. -/
def Statement.lower (scope : Scope) : Statement → LoweredBody
  | .empty => ⟨[], false, scope.locals, []⟩
  | .block body _ => { lowerStatements scope body with locals := scope.locals }
  | .return _ => .ofInstruction scope true (.done .return)
  | .throw value span => .ofInstruction scope true (lowerThrow scope value span)
  | .declare type name value =>
    let declared := lowerDeclaration scope type name value
    ⟨[], false, declared.value?.getD scope.locals, declared.faults⟩
  | .expression value => .ofInstruction scope false (value.instruction scope)

/-- Lowers statements one after another, up to the one that ends the body. -/
def lowerStatements (scope : Scope) : List Statement → LoweredBody
  | [] => ⟨[], false, scope.locals, []⟩
  | statement :: later =>
    let first := statement.lower scope
    if first.ends then first.followedBy later
    else
      let rest := lowerStatements { scope with locals := first.locals } later
      ⟨first.instructions ++ rest.instructions, rest.ends, rest.locals, first.faults ++ rest.faults⟩

end

/-- The instructions of a body. -/
def Block.lower (scope : Scope) (b : Block) : Lowered (List Instruction) :=
  let lowered := lowerStatements scope b.body
  ⟨some lowered.instructions, lowered.faults⟩

end RouteDepot.RouteClass
