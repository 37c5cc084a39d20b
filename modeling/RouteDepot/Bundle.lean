import RouteDepot.Context.RestConfiguration
import RouteDepot.Ledger
import RouteDepot.Rest
import RouteDepot.Route

/-! # Bundles

A bundle is all that one source defines: routes, REST services, and REST configurations by the component that they
are for, in the order in which route code first mentioned it.
-/

namespace RouteDepot

/-- What a source defines. -/
structure Bundle where
  routes : List Route := []
  services : List RestService := []
  configurations : Ledger RestConfigurationDraft := .empty
  deriving DecidableEq

namespace Bundle

/-- Whether a bundle defines nothing. -/
def isEmpty (b : Bundle) : Bool :=
  b.routes.isEmpty && b.services.isEmpty && b.configurations.entries.isEmpty

/-- The names that the routes are listed under. -/
def routeLabels (b : Bundle) : List String := b.routes.map Route.label

end Bundle

end RouteDepot
