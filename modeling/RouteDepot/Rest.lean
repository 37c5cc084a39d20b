/-! # REST services

A REST service groups verbs under a common path. Each verb answers one HTTP method.
-/

namespace RouteDepot

/-- The HTTP methods that a service can answer. -/
inductive HttpMethod where
  | get | post | put | delete | patch | head | options
  deriving DecidableEq, Repr

namespace HttpMethod

/-- Every HTTP method. -/
def all : List HttpMethod := [.get, .post, .put, .delete, .patch, .head, .options]

/-- The name of a method in route code. -/
def call : HttpMethod → String
  | .get => "get" | .post => "post" | .put => "put" | .delete => "delete"
  | .patch => "patch" | .head => "head" | .options => "options"

/-- The name of a method in a request. -/
def name : HttpMethod → String
  | .get => "GET" | .post => "POST" | .put => "PUT" | .delete => "DELETE"
  | .patch => "PATCH" | .head => "HEAD" | .options => "OPTIONS"

/-- The method with a name in route code. -/
def ofCall? (word : String) : Option HttpMethod := all.find? (·.call == word)

/-- The method with a name in a request. -/
def ofName? (word : String) : Option HttpMethod := all.find? (·.name == word)

end HttpMethod

/-- What a service does for one HTTP method. -/
structure Verb where
  method : HttpMethod
  uri : Option String := none
  target : Option String := none
  description : Option String := none
  consumes : Option String := none
  produces : Option String := none
  deriving DecidableEq, Repr

/-- Verbs under a common path. -/
structure RestService where
  path : Option String := none
  description : Option String := none
  consumes : Option String := none
  produces : Option String := none
  verbs : List Verb := []
  deriving DecidableEq, Repr

end RouteDepot
