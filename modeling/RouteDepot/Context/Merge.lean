import RouteDepot.Bundle
import RouteDepot.Context.Store

/-! # Merging drafts into a context

REST configurations as route code writes them are resolved one after another against the properties of a
context, and then added as one batch.
-/

namespace RouteDepot.Context

/-- The configurations that drafts mean, up to the first draft that does not resolve. -/
def resolveDrafts (properties : Properties) (drafts : Ledger RestConfigurationDraft) :
    Except ContextError (List RestConfiguration) :=
  drafts.entries.mapM fun (_, draft) => draft.resolve properties

/-- The context with the configurations added that drafts mean. -/
def merge (context : Context) (drafts : Ledger RestConfigurationDraft) : Except ContextError Context := do
  context.add (← resolveDrafts context.properties drafts)

end RouteDepot.Context
