/-! # Routes

A route reads messages from one endpoint and takes them through an ordered list of steps. Endpoints are named by
texts.
-/

namespace RouteDepot

/-- The language that the text of a clause is written in. -/
inductive ClauseLanguage where
  | constant | simple | header
  deriving DecidableEq, Repr

/-- The name of a clause language. -/
def ClauseLanguage.name : ClauseLanguage → String
  | .constant => "constant"
  | .simple => "simple"
  | .header => "header"

/-- A value that is computed for each message. -/
structure Clause where
  language : ClauseLanguage
  text : String
  deriving DecidableEq, Repr

/-- One step of a route. -/
inductive Step where
  | send (uri : String)
  | sendDynamic (uri : String)
  | log (message : String)
  | setBody (value : Clause)
  | setHeader (name : String) (value : Clause)
  | removeHeader (name : String)
  | transform (value : Clause)
  | filter (condition : Clause)
  deriving DecidableEq, Repr

/-- The endpoint that a step sends to. -/
def Step.target? : Step → Option String
  | .send uri | .sendDynamic uri => some uri
  | _ => none

/-- A route: where its messages come from, and what is done with them. -/
structure Route where
  id : Option String := none
  description : Option String := none
  origin : String
  autoStartup : Bool := true
  steps : List Step := []
  deriving DecidableEq, Repr

namespace Route

/-- The endpoints that a route sends to, in the order of its steps. -/
def outputs (r : Route) : List String := r.steps.filterMap Step.target?

/-- The name that a route is listed under: its id, or else where its messages come from. -/
def label (r : Route) : String := r.id.getD r.origin

end Route

end RouteDepot
