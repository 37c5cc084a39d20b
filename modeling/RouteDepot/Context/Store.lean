import RouteDepot.Context.RestConfiguration

/-! # Execution contexts

A context has fixed properties and collects REST configurations. Configurations are added in batches: a batch is
added as a whole, or not at all when one of its entries contradicts another entry for the same component.
-/

namespace RouteDepot

/-- What loads have in common: a name, properties, and the REST configurations held so far. -/
structure Context where
  name : String
  properties : Properties := .empty
  held : List RestConfiguration := []

namespace Context

/-- The component of the first entry of a batch that differs from an entry for the same component, which may be held
already or stand earlier in the batch. -/
def firstConflict (held : List RestConfiguration) : List RestConfiguration → Option String
  | [] => none
  | c :: later =>
    if held.any fun other => other.key == c.key && other != c then some c.key
    else firstConflict (held ++ [c]) later

/-- The context with a batch of configurations added. -/
def add (context : Context) (batch : List RestConfiguration) : Except ContextError Context :=
  match firstConflict context.held batch with
  | some component => .error (.conflictingRestConfiguration component)
  | none => .ok { context with held := context.held ++ batch }

/-- Adds a batch of configurations to a context: the context afterwards, and how many configurations were added. A
batch that is refused changes nothing. -/
def append (context : Context) (batch : List RestConfiguration) : Context × Except ContextError Nat :=
  if batch.isEmpty then (context, .ok 0)
  else match context.add batch with
    | .ok next => (next, .ok batch.length)
    | .error fault => (context, .error fault)

/-- The first configuration held for a component; the empty text stands for the default one. -/
def configuration? (context : Context) (component : String) : Option RestConfiguration :=
  context.held.find? (·.key == component)

/-- The text with its placeholders resolved. -/
def resolve (context : Context) (text : String) : Except ContextError String :=
  context.properties.resolve text

end Context

end RouteDepot
