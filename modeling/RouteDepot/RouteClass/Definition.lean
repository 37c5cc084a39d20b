import RouteDepot.Context.RestConfiguration
import RouteDepot.RouteClass.Evaluation

/-! # Building definitions

The calls of a chain build up one definition, from the first call to the last. A route or a REST service comes
into being only when all of its calls succeed; a REST configuration keeps what the calls before a failing one
have set.
-/

namespace RouteDepot.RouteClass

open Operand (Reach evalOptional evalTexts)

/-! ### Routes -/

/-- The flag that a value stands for: a truth value, or a text that names one, blanks around it and the case of its
letters aside. -/
def autoStartupFlag : Value → Except ConfigureError Bool
  | .bool flag => .ok flag
  | other =>
    match String.ofList ((Text.trimList other.display.toList).map Char.toLower) with
    | "true" => .ok true
    | "false" => .ok false
    | _ => .error (.misused (.badAutoStartup other.display))

namespace RouteCall

/-- The route after one call. -/
def apply (reach : Reach) (route : Route) : RouteCall → Except ConfigureError Route
  | routeId id => do return { route with id := some (← id.evalText reach) }
  | description text => do return { route with description := some (← text.evalText reach) }
  | autoStartup flag => do return { route with autoStartup := ← autoStartupFlag (← flag.eval reach) }
  | send uris => do
    let targets ← evalTexts reach uris
    return { route with steps := route.steps ++ targets.map .send }
  | sendDynamic uri => do return withStep (.sendDynamic (← uri.evalText reach))
  | log message => do return withStep (.log (← message.evalText reach))
  | setBody value => do return withStep (.setBody (← value.eval reach))
  | setHeader name value => do
    let header ← name.evalText reach
    return withStep (.setHeader header (← value.eval reach))
  | removeHeader name => do return withStep (.removeHeader (← name.evalText reach))
  | transform value => do return withStep (.transform (← value.eval reach))
  | filter condition => do return withStep (.filter (← condition.eval reach))
where
  /-- The route with one more step at its end. -/
  withStep (step : Step) : Route := { route with steps := route.steps ++ [step] }

end RouteCall

/-- The route that a chain of calls describes. -/
def buildRoute (reach : Reach) (origin : Operand) (calls : List RouteCall) : Except ConfigureError Route := do
  calls.foldlM (RouteCall.apply reach) { origin := ← origin.evalText reach }

/-! ### REST services -/

/-- The service with its last verb changed, or, before the first verb, with the service itself changed. -/
def changeLast (service : RestService) (changeVerb : Verb → Verb) (changeService : RestService → RestService) :
    RestService :=
  match service.verbs.getLast? with
  | some verb => { service with verbs := service.verbs.dropLast ++ [changeVerb verb] }
  | none => changeService service

/-- The service after one call. -/
def RestCall.apply (reach : Reach) (service : RestService) : RestCall → Except ConfigureError RestService
  | verb method uri => do
    return { service with verbs := service.verbs ++ [{ method, uri := ← evalOptional reach uri }] }
  | send uri => do
    let target ← uri.evalText reach
    if service.verbs.isEmpty then throw (.misused (.targetWithoutVerb target))
    return changeLast service (fun v => { v with target := some target }) id
  | description text => do
    let value ← text.evalText reach
    return changeLast service (fun v => { v with description := some value })
      fun s => { s with description := some value }
  | consumes type => do
    let value ← type.evalText reach
    return changeLast service (fun v => { v with consumes := some value })
      fun s => { s with consumes := some value }
  | produces type => do
    let value ← type.evalText reach
    return changeLast service (fun v => { v with produces := some value })
      fun s => { s with produces := some value }

/-- The service that a chain of calls describes. -/
def buildRest (reach : Reach) (path : Option Operand) (calls : List RestCall) :
    Except ConfigureError RestService := do
  calls.foldlM (RestCall.apply reach) { path := ← evalOptional reach path }

/-! ### REST configurations -/

/-- The draft with an option set. -/
def RestOption.set (draft : RestConfigurationDraft) (value : String) : RestOption → RestConfigurationDraft
  | component => { draft with component := some value }
  | host => { draft with host := some value }
  | port => { draft with port := some value }
  | scheme => { draft with scheme := some value }
  | contextPath => { draft with contextPath := some value }
  | apiContextPath => { draft with apiContextPath := some value }
  | bindingMode => { draft with bindingMode := some value }
  | enableCors => { draft with enableCors := some value }

/-- The draft with a free property set. -/
def RestPropertyGroup.set (draft : RestConfigurationDraft) (key value : String) :
    RestPropertyGroup → RestConfigurationDraft
  | component => { draft with componentProperties := draft.componentProperties.put key value }
  | endpoint => { draft with endpointProperties := draft.endpointProperties.put key value }
  | consumer => { draft with consumerProperties := draft.consumerProperties.put key value }
  | dataFormat => { draft with dataFormatProperties := draft.dataFormatProperties.put key value }

/-- The draft after one call. -/
def ConfigurationCall.apply (reach : Reach) (draft : RestConfigurationDraft) :
    ConfigurationCall → Except ConfigureError RestConfigurationDraft
  | set option value => do return option.set draft (← value.evalText reach)
  | property group key value => do
    let name ← key.evalText reach
    return group.set draft name (← value.evalText reach)

/-- The draft after calls: it keeps what the calls before the first failing one have set. -/
def applyConfigurationCalls (reach : Reach) (draft : RestConfigurationDraft) :
    List ConfigurationCall → RestConfigurationDraft × Except ConfigureError Unit
  | [] => (draft, .ok ())
  | call :: later =>
    match call.apply reach draft with
    | .ok next => applyConfigurationCalls reach next later
    | .error fault => (draft, .error fault)

/-- The draft that a component starts with. -/
def freshDraft (component : String) : RestConfigurationDraft :=
  { component := if component.isEmpty then none else some component }

end RouteDepot.RouteClass
