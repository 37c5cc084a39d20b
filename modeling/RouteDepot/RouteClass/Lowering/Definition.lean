import RouteDepot.RouteClass.Lowering.Chain

/-! # Definitions

The chains that define routes, REST services and REST configurations. Every call of a chain is looked at, so
that all of its faults are reported; the chain becomes an instruction when none of its calls has a fault.
-/

namespace RouteDepot.RouteClass

/-! ### Clauses -/

/-- The languages of clauses, with the types that the text of each accepts. -/
def clauseLanguage? : String → Option (ClauseLanguage × List ValueType)
  | "constant" => some (.constant, [.str, .int, .bool])
  | "simple" => some (.simple, [.str])
  | "header" => some (.header, [.str])
  | _ => none

namespace ChainCall

/-- The clause that a call stands for. -/
def clause (call : ChainCall) (scope : Scope) : Lowered ClauseOperand :=
  match clauseLanguage? call.name.name with
  | some (language, accepted) => (⟨language, ·⟩) <$> call.single scope accepted
  | none => .fail call.name.span (.unknownClause call.name.name)

/-- The clause of the call that follows in the chain. -/
def trailingClause (call : ChainCall) (scope : Scope) : Option ChainCall → Lowered ClauseOperand
  | some next => next.clause scope
  | none => .fail call.span (.missingClause call.name.name)

/-- The clause that is given as an argument. -/
def inlineClause (call : ChainCall) (scope : Scope) : Expression → Lowered ClauseOperand
  | .call callee args span => ChainCall.clause ⟨callee, args, span⟩ scope
  | other => .fail other.span (.clauseExpected call.name.name)

/-- Whether the call that follows in the chain is the clause of this one. -/
def takesNext (call : ChainCall) : Bool :=
  match call.name.name with
  | "setBody" | "transform" | "filter" => call.args.isEmpty
  | "setHeader" => call.args.length == 1
  | _ => false

/-- The clause of a call that takes nothing but a clause. -/
def onlyClause (call : ChainCall) (scope : Scope) (next : Option ChainCall) : Lowered ClauseOperand :=
  match call.args with
  | [] => call.trailingClause scope next
  | [arg] => call.inlineClause scope arg
  | _ => call.arityFault 1

/-- The name and the clause of a call that sets a header. -/
def headerClause (call : ChainCall) (scope : Scope) (next : Option ChainCall) :
    Lowered (Operand × ClauseOperand) :=
  match call.args with
  | [] => call.arityFault 2
  | [name] => .both (scope.argument call.name.name [.str] name) (call.trailingClause scope next)
  | [name, value] => .both (scope.argument call.name.name [.str] name) (call.inlineClause scope value)
  | name :: _ => .both (scope.argument call.name.name [.str] name) (call.arityFault 2)

/-! ### Routes -/

/-- What a call says about a route. -/
def routeCall (call : ChainCall) (scope : Scope) (next : Option ChainCall) : Lowered (Option RouteCall) :=
  match call.name.name with
  | "routeId" => some <$> .routeId <$> call.single scope [.str]
  | "description" => some <$> .description <$> call.single scope [.str]
  | "autoStartup" => some <$> .autoStartup <$> call.single scope [.bool, .str]
  | "to" => some <$> .send <$> call.texts scope
  | "toD" => some <$> .sendDynamic <$> call.single scope [.str]
  | "log" => some <$> .log <$> call.single scope [.str]
  | "removeHeader" => some <$> .removeHeader <$> call.single scope [.str]
  | "setBody" => some <$> .setBody <$> call.onlyClause scope next
  | "transform" => some <$> .transform <$> call.onlyClause scope next
  | "filter" => some <$> .filter <$> call.onlyClause scope next
  | "setHeader" => (fun (name, value) => some (.setHeader name value)) <$> call.headerClause scope next
  | "end" => call.close scope
  | other => .fail call.name.span (.unknownMethod other "RouteDefinition")

end ChainCall

/-- The calls of a chain, each with the call that follows it if that one is its clause. -/
def withClauses : List ChainCall → List (ChainCall × Option ChainCall)
  | [] => []
  | [call] => [(call, none)]
  | call :: next :: later =>
    if call.takesNext then (call, some next) :: withClauses later
    else (call, none) :: withClauses (next :: later)

/-- The instruction of a chain that defines a route. -/
def lowerRoute (scope : Scope) (first : ChainCall) (later : List ChainCall) : Lowered Instruction := do
  let origin ← first.single scope [.str]
  let calls ← .all ((withClauses later).map fun (call, next) => call.routeCall scope next)
  return .route origin calls.reduceOption

/-! ### REST services -/

/-- What a call says about a REST service. -/
def ChainCall.restCall (call : ChainCall) (scope : Scope) : Lowered (Option RestCall) :=
  match HttpMethod.ofCall? call.name.name with
  | some method => some <$> .verb method <$> call.optional scope [.str]
  | none =>
    match call.name.name with
    | "description" => some <$> .description <$> call.single scope [.str]
    | "consumes" => some <$> .consumes <$> call.single scope [.str]
    | "produces" => some <$> .produces <$> call.single scope [.str]
    | "to" => some <$> .send <$> call.single scope [.str]
    | "end" => call.close scope
    | other => .fail call.name.span (.unknownMethod other "RestDefinition")

/-- The instruction of a chain that defines a REST service. -/
def lowerRest (scope : Scope) (first : ChainCall) (later : List ChainCall) : Lowered Instruction := do
  let path ← first.optional scope [.str]
  let calls ← .all (later.map (·.restCall scope))
  return .rest path calls.reduceOption

/-! ### REST configurations -/

/-- The options of a REST configuration by their names in route code, with the types that each accepts. -/
def restOption? : String → Option (RestOption × List ValueType)
  | "component" => some (.component, [.str])
  | "host" => some (.host, [.str])
  | "port" => some (.port, [.str, .int])
  | "scheme" => some (.scheme, [.str])
  | "contextPath" => some (.contextPath, [.str])
  | "apiContextPath" => some (.apiContextPath, [.str])
  | "bindingMode" => some (.bindingMode, [.str])
  | "enableCORS" => some (.enableCors, [.bool, .str])
  | _ => none

/-- The property groups of a REST configuration by their names in route code. -/
def restPropertyGroup? : String → Option RestPropertyGroup
  | "componentProperty" => some .component
  | "endpointProperty" => some .endpoint
  | "consumerProperty" => some .consumer
  | "dataFormatProperty" => some .dataFormat
  | _ => none

/-- What a call says about a REST configuration. -/
def ChainCall.configurationCall (call : ChainCall) (scope : Scope) : Lowered (Option ConfigurationCall) :=
  match restOption? call.name.name, restPropertyGroup? call.name.name with
  | some (option, accepted), _ => some <$> .set option <$> call.single scope accepted
  | none, some group => (fun (key, value) => some (.property group key value)) <$> call.textPair scope
  | none, none =>
    if call.name.name = "end" then call.close scope
    else .fail call.name.span (.unknownMethod call.name.name "RestConfigurationDefinition")

/-- The instruction of a chain that defines a REST configuration. -/
def lowerRestConfiguration (scope : Scope) (first : ChainCall) (later : List ChainCall) :
    Lowered Instruction := do
  let component ← first.optional scope [.str]
  let calls ← .all (later.map (·.configurationCall scope))
  return .restConfiguration component calls.reduceOption

end RouteDepot.RouteClass
