import RouteDepot.RouteClass.Instance
import RouteDepot.RouteClass.Lowering.Class

/-! # Direct execution

What a route builder means, read off its syntax tree without lowering it. A name stands for the initialiser of the
innermost local variable of that name, or else for a field. A chain of calls is run from its first call to its last
on the definition that it builds: a route or a service is defined when its whole chain has succeeded, while a REST
configuration keeps what the calls before a failing one have set. A call that waits for its clause is completed by
the next call of its chain, and a verb of a service is described by the calls up to the next verb.
-/

namespace RouteDepot.RouteClass.Direct

open Operand (Reach resolveText)

/-- Why a direct run stops short: the configuration fails, or the source does not mean anything. -/
inductive Halt where
  | failed (error : ConfigureError)
  | meaningless

/-! ### Expressions -/

/-- The local variables of a body, the last one first, each with its initialiser. -/
abbrev Locals := List (String × Option Expression)

/-- What the bodies of a class refer to besides their local variables. -/
structure Environment where
  /-- The properties of the context that is bound. -/
  reach : Reach
  /-- The fields with their values. -/
  fields : List (String × Value)
  /-- The names of the methods. -/
  methods : List String

/-- The sum of two integers, or the texts of two values of which one is a text. -/
def plus : Value → Value → Except Halt Value
  | .int a, .int b => .ok (.int (a + b))
  | .str a, right => .ok (.str (a ++ right.display))
  | left, .str b => .ok (.str (left.display ++ b))
  | _, _ => .error .meaningless

namespace Environment

/-- The value of a field. -/
def field (env : Environment) (name : String) : Except Halt Value :=
  match env.fields.lookup name with
  | some value => .ok value
  | none => .error .meaningless

/-- The value of an expression, given what the names of local variables come to. -/
def evalIn (env : Environment) (localValue? : String → Option (Except Halt Value)) : Expression → Except Halt Value
  | .literal value _ => .ok value.value
  | .name ident => (localValue? ident.name).getD (env.field ident.name)
  | .field (.this _) member => env.field member.name
  | .field (.name owner) member =>
    if owner.name = "RestBindingMode" ∧ member.name ∈ bindingModeNames then .ok (.str member.name)
    else .error .meaningless
  | .callOn target callee [arg] _ =>
    if callee.name = "resolvePropertyPlaceholders" ∧ target.isGetContext then do
      match ← evalIn env localValue? arg with
      | .str text => .str <$> (resolveText env.reach text).mapError .failed
      | _ => .error .meaningless
    else .error .meaningless
  | .concat left right => do plus (← evalIn env localValue? left) (← evalIn env localValue? right)
  | _ => .error .meaningless

/-- What a name comes to as a local variable: the value of the initialiser of the innermost one of that name, among
the variables declared before it. -/
def localValue? (env : Environment) : Locals → String → Option (Except Halt Value)
  | [], _ => none
  | (name, initialiser) :: earlier, searched =>
    if searched = name then
      match initialiser with
      | some value => some (env.evalIn (env.localValue? earlier) value)
      | none => some (.error .meaningless)
    else env.localValue? earlier searched

/-- The value of an expression among local variables. -/
def eval (env : Environment) (locals : Locals) (e : Expression) : Except Halt Value :=
  env.evalIn (env.localValue? locals) e

end Environment

/-! ### Calls -/

/-- What a call is given: a value, or a clause. -/
inductive Argument where
  | value (value : Value)
  | clause (clause : Clause)

/-- The text of an argument that is a value. -/
def Argument.text : Argument → Except Halt String
  | .value v => .ok v.display
  | .clause _ => .error .meaningless

/-- The language of the clause that a call makes. -/
def language? : String → Option ClauseLanguage
  | "constant" => some .constant
  | "simple" => some .simple
  | "header" => some .header
  | _ => none

namespace Environment

/-- The argument that an expression is: the call of a clause language on a value makes a clause. -/
def argument (env : Environment) (locals : Locals) : Expression → Except Halt Argument
  | .call callee [arg] _ =>
    match language? callee.name with
    | some language => (fun value => .clause ⟨language, value.display⟩) <$> env.eval locals arg
    | none => .error .meaningless
  | other => .value <$> env.eval locals other

/-- The arguments of a call, evaluated in order. -/
def arguments (env : Environment) (locals : Locals) (args : List Expression) : Except Halt (List Argument) :=
  args.mapM (env.argument locals)

end Environment

/-- A call on a route that waits for the clause that the next call makes. -/
inductive Waiting where
  | setBody
  | transform
  | filter
  | setHeader (name : String)

/-- The step that a waiting call becomes with its clause. -/
def Waiting.step (clause : Clause) : Waiting → Step
  | setBody => .setBody clause
  | transform => .transform clause
  | filter => .filter clause
  | setHeader name => .setHeader name clause

/-- A route with more steps at its end. -/
def addSteps (route : Route) (steps : List Step) : Route := { route with steps := route.steps ++ steps }

/-- The truth value that a value names: blanks around it and the case of its letters aside, it is shown as that truth
value is. -/
def flag (value : Value) : Except Halt Bool :=
  let word := (Text.trimList value.display.toList).map Char.toLower
  match [true, false].find? fun flag => word = (Value.bool flag).display.toList with
  | some flag => .ok flag
  | none => .error (.failed (.misused (.badAutoStartup value.display)))

/-- A call on a route, on which another call may wait for its clause. -/
def callRoute (route : Route) (waiting : Option Waiting) (name : String) (args : List Argument) :
    Except Halt (Route × Option Waiting) :=
  match waiting with
  | some waiting =>
    match language? name, args with
    | some language, [.value value] => .ok (addSteps route [waiting.step ⟨language, value.display⟩], none)
    | _, _ => .error .meaningless
  | none =>
    match name, args with
    | "routeId", [.value id] => .ok ({ route with id := some id.display }, none)
    | "description", [.value text] => .ok ({ route with description := some text.display }, none)
    | "autoStartup", [.value value] => (fun flag => ({ route with autoStartup := flag }, none)) <$> flag value
    | "to", uris => (fun uris => (addSteps route (uris.map .send), none)) <$> uris.mapM Argument.text
    | "toD", [.value uri] => .ok (addSteps route [.sendDynamic uri.display], none)
    | "log", [.value message] => .ok (addSteps route [.log message.display], none)
    | "removeHeader", [.value header] => .ok (addSteps route [.removeHeader header.display], none)
    | "setBody", [] => .ok (route, some .setBody)
    | "setBody", [.clause clause] => .ok (addSteps route [.setBody clause], none)
    | "transform", [] => .ok (route, some .transform)
    | "transform", [.clause clause] => .ok (addSteps route [.transform clause], none)
    | "filter", [] => .ok (route, some .filter)
    | "filter", [.clause clause] => .ok (addSteps route [.filter clause], none)
    | "setHeader", [.value header] => .ok (route, some (.setHeader header.display))
    | "setHeader", [.value header, .clause clause] => .ok (addSteps route [.setHeader header.display clause], none)
    | "end", [] => .ok (route, none)
    | _, _ => .error .meaningless

/-- What a chain on a REST service is about: the service, as long as it has no verbs, and then its last verb, with the
verbs before that one in the service. -/
inductive Subject where
  | service (service : RestService) (unused : service.verbs = [])
  | verb (service : RestService) (verb : Verb)

/-- The service with all of its verbs. -/
def Subject.whole : Subject → RestService
  | service s _ => s
  | verb s v => { s with verbs := s.verbs ++ [v] }

/-- A call on a REST service: a verb, which becomes the subject, or something about the subject. -/
def callService (subject : Subject) (name : String) (args : List Argument) : Except Halt Subject :=
  match HttpMethod.ofCall? name, args with
  | some method, [] => .ok (.verb subject.whole { method })
  | some method, [.value uri] => .ok (.verb subject.whole { method, uri := some uri.display })
  | some _, _ => .error .meaningless
  | none, args =>
    match name, args, subject with
    | "description", [.value text], .service s unused => .ok (.service { s with description := some text.display } unused)
    | "description", [.value text], .verb s v => .ok (.verb s { v with description := some text.display })
    | "consumes", [.value type], .service s unused => .ok (.service { s with consumes := some type.display } unused)
    | "consumes", [.value type], .verb s v => .ok (.verb s { v with consumes := some type.display })
    | "produces", [.value type], .service s unused => .ok (.service { s with produces := some type.display } unused)
    | "produces", [.value type], .verb s v => .ok (.verb s { v with produces := some type.display })
    | "to", [.value uri], .service _ _ => .error (.failed (.misused (.targetWithoutVerb uri.display)))
    | "to", [.value uri], .verb s v => .ok (.verb s { v with target := some uri.display })
    | "end", [], subject => .ok subject
    | _, _, _ => .error .meaningless

/-- A call on a REST configuration: what it changes in the draft. -/
def callConfiguration (draft : RestConfigurationDraft) (name : String) (args : List Argument) :
    Except Halt RestConfigurationDraft :=
  match name, args with
  | "component", [.value value] => .ok { draft with component := some value.display }
  | "host", [.value value] => .ok { draft with host := some value.display }
  | "port", [.value value] => .ok { draft with port := some value.display }
  | "scheme", [.value value] => .ok { draft with scheme := some value.display }
  | "contextPath", [.value value] => .ok { draft with contextPath := some value.display }
  | "apiContextPath", [.value value] => .ok { draft with apiContextPath := some value.display }
  | "bindingMode", [.value value] => .ok { draft with bindingMode := some value.display }
  | "enableCORS", [.value value] => .ok { draft with enableCors := some value.display }
  | "componentProperty", [.value key, .value value] =>
    .ok { draft with componentProperties := draft.componentProperties.put key.display value.display }
  | "endpointProperty", [.value key, .value value] =>
    .ok { draft with endpointProperties := draft.endpointProperties.put key.display value.display }
  | "consumerProperty", [.value key, .value value] =>
    .ok { draft with consumerProperties := draft.consumerProperties.put key.display value.display }
  | "dataFormatProperty", [.value key, .value value] =>
    .ok { draft with dataFormatProperties := draft.dataFormatProperties.put key.display value.display }
  | "end", [] => .ok draft
  | _, _ => .error .meaningless

/-! ### Chains -/

/-- A direct run: it changes the definitions, also when it stops short. -/
abbrev Exec (α : Type) := ExceptT Halt (StateM Definitions) α

/-- A result that does not change the definitions. -/
def Exec.ofExcept {α : Type} (result : Except Halt α) : Exec α := ExceptT.mk (pure result)

/-- The draft of a component; a new one knows its component, unless that is the default one. -/
def draftOf (d : Definitions) (component : String) : RestConfigurationDraft :=
  ((d.configurations.getD .empty).get? component).getD { component := if component = "" then none else some component }

/-- The definitions with the draft of a component put in. -/
def putDraft (d : Definitions) (component : String) (draft : RestConfigurationDraft) : Definitions :=
  { d with configurations := some ((d.configurations.getD .empty).put component draft) }

/-- What the next call of a chain is a call on. -/
inductive Receiver where
  | route (route : Route) (waiting : Option Waiting)
  | service (subject : Subject)
  | configuration (component : String)

namespace Receiver

/-- Begins a REST configuration, or goes on with the one for the same component. -/
def configure (component : String) : Exec Receiver := do
  modify fun d => putDraft d component (draftOf d component)
  return .configuration component

/-- The receiver that a chain begins with. -/
def start (env : Environment) (name : String) (args : List Argument) : Exec Receiver :=
  if name ∈ env.methods then throw .meaningless
  else match name, args with
    | "from", [.value uri] => return .route { origin := uri.display } none
    | "rest", [] => return .service (.service {} rfl)
    | "rest", [.value path] => return .service (.service { path := some path.display } rfl)
    | "restConfiguration", [] => configure ""
    | "restConfiguration", [.value component] => configure component.display
    | _, _ => throw .meaningless

/-- The receiver after a call. -/
def call (name : String) (args : List Argument) : Receiver → Exec Receiver
  | route r waiting => do
    let (r, waiting) ← Exec.ofExcept (callRoute r waiting name args)
    return route r waiting
  | service subject => do return service (← Exec.ofExcept (callService subject name args))
  | configuration component => do
    let draft ← Exec.ofExcept (callConfiguration (draftOf (← get) component) name args)
    modify fun d => putDraft d component draft
    return configuration component

/-- What the end of a chain defines. -/
def finish : Receiver → Exec Unit
  | route r none => modify fun d => { d with routes := d.routes ++ [r] }
  | route _ (some _) => throw .meaningless
  | service subject => modify fun d => { d with services := d.services ++ [subject.whole] }
  | configuration _ => pure ()

end Receiver

/-- Runs a chain of calls that begins with a call on this instance. -/
def chain (env : Environment) (locals : Locals) : Expression → Exec Receiver
  | .call callee args _ | .callOn (.this _) callee args _ => do
    Receiver.start env callee.name (← Exec.ofExcept (env.arguments locals args))
  | .callOn target callee args _ => do
    let receiver ← chain env locals target
    receiver.call callee.name (← Exec.ofExcept (env.arguments locals args))
  | _ => throw .meaningless

/-! ### Statements -/

/-- The name that an expression calls on this instance without arguments. -/
def calledName? : Expression → Option String
  | .call callee [] _ | .callOn (.this _) callee [] _ => some callee.name
  | _ => none

/-- Runs an expression that stands as a statement: a call of a method of the class, or a chain. -/
def runExpression (env : Environment) (call : String → Exec Unit) (locals : Locals) (e : Expression) : Exec Unit :=
  match (calledName? e).filter (· ∈ env.methods) with
  | some name => call name
  | none => do (← chain env locals e).finish

/-- Throws the exception that an expression creates; its message is the first argument, and null is none. -/
def raise (env : Environment) (locals : Locals) : Expression → Exec (Option Locals)
  | .new type [] _ => throw (.failed (.raised type.text ""))
  | .new type (message :: _) _ => do
    match ← Exec.ofExcept (env.eval locals message) with
    | .null => throw (.failed (.raised type.text ""))
    | value => throw (.failed (.raised type.text value.display))
  | _ => throw .meaningless

mutual

/-- Runs a statement: the local variables after it, or none when it ends the body. -/
def runStatement (env : Environment) (call : String → Exec Unit) (locals : Locals) :
    Statement → Exec (Option Locals)
  | .empty => return some locals
  | .declare _ name value => return some ((name.name, value) :: locals)
  | .return _ => return none
  | .throw value _ => raise env locals value
  | .block body _ => do
    match ← runStatements env call locals body with
    | some _ => return some locals
    | none => return none
  | .expression value => do
    runExpression env call locals value
    return some locals

/-- Runs statements one after another, up to the one that ends the body. -/
def runStatements (env : Environment) (call : String → Exec Unit) (locals : Locals) :
    List Statement → Exec (Option Locals)
  | [] => return some locals
  | statement :: later => do
    match ← runStatement env call locals statement with
    | some locals => runStatements env call locals later
    | none => return none

end

/-! ### Classes -/

/-- The value of a field: that of its initialiser, in which the fields before it may be used, or that of its type. -/
def fieldValue (known : List (String × Value)) (f : FieldDeclaration) : Except Halt Value :=
  match f.value with
  | some value => ({ reach := none, fields := known, methods := [] } : Environment).eval [] value
  | none => .ok f.type.defaultValue

/-- The values of fields in order, after those that are known already. -/
def fieldValues (known : List (String × Value)) : List FieldDeclaration → Except Halt (List (String × Value))
  | [] => .ok known
  | f :: later => do fieldValues (known ++ [(f.name.name, ← fieldValue known f)]) later

/-- Calls the method of a class that has a name and no parameters, with room for a number of open calls. -/
def call (c : ClassDeclaration) (env : Environment) : Nat → String → Exec Unit
  | 0, name => throw (.failed (.raised overflowException s!"call depth exceeded {callDepthLimit} at {name}()"))
  | room + 1, name =>
    match c.methods.find? fun m => m.name.name == name && m.parameters.isEmpty with
    | some m =>
      match m.body with
      | some body => do
        let _ ← runStatements env (call c env room) [] body.body
        return ()
      | none => throw .meaningless
    | none => throw .meaningless

/-- Configures an instance of a class against properties: the result of its `configure` method, and all that was
defined on the way. -/
def configure (c : ClassDeclaration) (properties : Properties) : Except Halt Unit × Definitions :=
  match fieldValues [] c.fields with
  | .ok fields =>
    let env : Environment := { reach := some properties, fields, methods := c.methods.map (·.name.name) }
    (call c env (callDepthLimit + 1) "configure").run.run {}
  | .error halt => (.error halt, {})

end RouteDepot.RouteClass.Direct
