import RouteDepot.Listing
import RouteDepot.Load.Loader
import RouteDepot.Text.Lines

/-! # Printed reports

A report has two printed forms: lines for people, and a JSON value.
-/

namespace RouteDepot

/-- The name of a scheme in a printed report. -/
def Scheme.printed : Scheme → String
  | .http => "Http"
  | .https => "Https"

/-- The name of a binding mode in a printed report. -/
def BindingMode.printed : BindingMode → String
  | .off => "Off" | .auto => "Auto" | .json => "Json" | .xml => "Xml" | .jsonXml => "JsonXml"

/-- A REST configuration on one line; a dash stands for an option that is not set. -/
def RestConfiguration.printed (c : RestConfiguration) : String :=
  let component := if c.key.isEmpty then "(default)" else c.key
  let host := c.host.getD "-"
  let port := (c.port.map fun port => toString port.val).getD "-"
  let cors := if c.enableCors then "true" else "false"
  s!"{component} host={host} port={port} scheme={c.scheme.printed} binding={c.bindingMode.printed} cors={cors}"

/-- A route on one line: where its messages come from and where they are sent, and how many other steps there
are. -/
def Route.printed (r : Route) : String :=
  let others := (r.steps.filter (·.target?.isNone)).length
  let count := if others = 0 then "" else s!" (+{others} steps)"
  let outputs := ", ".intercalate r.outputs
  s!"route {r.label}: {r.origin} -> [{outputs}]{count}"

/-- The verbs of a REST service, each on one line. -/
def RestService.printed (s : RestService) : List String :=
  s.verbs.map fun verb =>
    let path := s.path.getD "" ++ verb.uri.getD ""
    let target := verb.target.getD "-"
    s!"rest {verb.method.name} {path} -> {target}"

/-- The margin of the details about a source. -/
def detailMargin : String := "          "

/-- The routes and verbs of a bundle, each on one line. -/
def Bundle.printed (b : Bundle) : List String :=
  b.routes.map Route.printed ++ b.services.flatMap RestService.printed

/-- The reason of a failed load. Diagnostics are drawn below the text that was kept, which is shown under a name. -/
def LoadError.printed (name : String) (e : LoadError) : List String :=
  Text.lines <| match e.fault, e.content? with
    | .compilation error, some content => error.drawing name content
    | .compilation error, none => "\n".intercalate (error.diagnostics.map fun d => s!"{name}:{d.display}")
    | fault, _ => fault.message

/-- What came of a source: one line, and the details below it. -/
def LoadResult.printed (r : LoadResult) : List String :=
  let (summary, details) :=
    match r.outcome with
    | .ok bundle =>
      (s!"  loaded  {r.source.location}  routes={bundle.routes.length} rests={bundle.services.length} " ++
        s!"rest-configurations={bundle.configurations.entries.length}", bundle.printed)
    | .error error =>
      (s!"  failed  {error.location}  (stage: {error.stage.name})", error.printed r.source.name)
  summary :: details.map (detailMargin ++ ·)

namespace LoadReport

/-- A report in lines: the context, the sources, and the REST configurations held in the end. -/
def printed (r : LoadReport) : List String :=
  let held := r.context.held
  s!"context '{r.context.name}'" ::
    (r.results.flatMap LoadResult.printed ++
      s!"rest configurations ({held.length}):" :: held.map fun c => "  " ++ c.printed)

end LoadReport

/-! ### The JSON form -/

/-- What came of a source as an object. -/
def LoadResult.listing (r : LoadResult) : Json :=
  match r.outcome with
  | .ok bundle =>
    .obj [("location", .str r.source.location), ("status", .str "loaded"), ("bundle", bundle.listing)]
  | .error error =>
    .obj [("location", .str r.source.location), ("status", .str "failed"), ("stage", .str error.stage.name),
      ("error", .str error.fault.message),
      ("diagnostics", .arr (error.fault.diagnostics.map Diagnostic.listing))]

/-- A report as an object. -/
def LoadReport.listing (r : LoadReport) : Json :=
  .obj [("context", .str r.context.name), ("sources", .arr (r.results.map LoadResult.listing)),
    ("rest_configurations", .arr (r.context.held.map RestConfiguration.listing))]

end RouteDepot
